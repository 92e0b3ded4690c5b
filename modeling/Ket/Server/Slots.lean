import Ket.Server.WireGuardAgent

/-!
# The resources of a slot (`ket-server/src/config.rs`)

A session has a slot below `max_sessions`, and the slot gives it a Shadowsocks port and a WireGuard
address.  The checks of the configuration are what makes them exist for every slot.  Of the settings
those of the two engines are modelled.  The checks of their texts (host names, URLs, keys) are
arbitrary.
-/

namespace Ket.Server.Slots

open Ket.Lib Ket.Lib.Text List

/-- What the process finds when it starts. -/
structure Environment where
  var : String → Option String
  /-- The reading and the checks of a text that is required or has a default. -/
  text : String → Except String String

def maxShadowsocksManagerServers : ℕ := 1500

section Values

variable (env : Environment)

def parseValue {α : Type} (parse : String → Option α) (name : String) (default : α) :
    Except String α :=
  match env.var name with
  | some text => okOr (parse text) (name ++ " is invalid")
  | none => .ok default

def parseBool (text : String) : Option Bool :=
  if text = "true" then some true else if text = "false" then some false else none

def parseU32 (text : String) : Option ℕ := (parseU64 text.toList).filter (· < 2 ^ 32)

def parseU16 (text : String) : Option UInt16 :=
  ((parseU64 text.toList).filter (· < 2 ^ 16)).map UInt16.ofNat

def nonzeroPort (name : String) (default : UInt16) : Except String UInt16 := do
  let port ← parseValue env parseU16 name default
  require (decide (port ≠ 0)) (name ++ " must be greater than zero")
  return port

/-- What an engine reads where it is enabled. -/
def ifEnabled {α : Type} (name : String) (read : Except String α) : Except String (Option α) := do
  let enabled ← parseValue env parseBool name false
  if enabled then some <$> read else return none

end Values

structure ShadowsocksConfig where
  portStart : UInt16
  portEnd : UInt16

structure WireGuardConfig where
  publicPort : UInt16

def ShadowsocksConfig.fromEnv (env : Environment) (maxSessions : ℕ) :
    Except String (Option ShadowsocksConfig) :=
  ifEnabled env "KET_SHADOWSOCKS_ENABLED" do
    let _ ← env.text "KET_SHADOWSOCKS_MANAGER_ADDRESS"
    let _ ← env.text "KET_SHADOWSOCKS_PUBLIC_HOST"
    require (decide (maxSessions ≤ maxShadowsocksManagerServers))
      ("KET_MAX_SESSIONS cannot exceed " ++ toString maxShadowsocksManagerServers ++
        " when Shadowsocks is enabled")
    let portStart ← nonzeroPort env "KET_SHADOWSOCKS_PORT_START" 20000
    let portEnd ← nonzeroPort env "KET_SHADOWSOCKS_PORT_END" 20999
    require (decide (portStart ≤ portEnd))
      "KET_SHADOWSOCKS_PORT_END must not be lower than KET_SHADOWSOCKS_PORT_START"
    require (decide (maxSessions ≤ portEnd.toNat - portStart.toNat + 1))
      ("the Shadowsocks port range must contain at least KET_MAX_SESSIONS (" ++
        toString maxSessions ++ ") ports")
    let _ ← env.text "KET_SHADOWSOCKS_CREDENTIAL_KEY"
    return ⟨portStart, portEnd⟩

def WireGuardConfig.fromEnv (env : Environment) (maxSessions : ℕ) :
    Except String (Option WireGuardConfig) :=
  ifEnabled env "KET_WIREGUARD_ENABLED" do
    require (decide (maxSessions ≤ 65533))
      "KET_MAX_SESSIONS cannot exceed 65533 when WireGuard TLS is enabled"
    let _ ← env.text "KET_WIREGUARD_MANAGER_URL"
    let _ ← env.text "KET_WIREGUARD_MANAGER_TOKEN"
    let _ ← env.text "KET_WIREGUARD_CREDENTIAL_KEY"
    let _ ← env.text "KET_WIREGUARD_SERVER_PUBLIC_KEY"
    let _ ← env.text "KET_WIREGUARD_WS_PATH_PREFIX"
    let _ ← env.text "KET_WIREGUARD_PUBLIC_HOST"
    let publicPort ← nonzeroPort env "KET_WIREGUARD_PUBLIC_PORT" 443
    let _ ← env.text "KET_WIREGUARD_SNI"
    return ⟨publicPort⟩

structure ServerConfig where
  maxSessions : ℕ
  shadowsocks : Option ShadowsocksConfig
  wireguard : Option WireGuardConfig

def ServerConfig.fromEnv (env : Environment) : Except String ServerConfig := do
  let maxSessions ← parseValue env parseU32 "KET_MAX_SESSIONS" 1000
  require (decide (maxSessions ≠ 0)) "KET_MAX_SESSIONS must be greater than zero"
  let shadowsocks ← ShadowsocksConfig.fromEnv env maxSessions
  let wireguard ← WireGuardConfig.fromEnv env maxSessions
  return ⟨maxSessions, shadowsocks, wireguard⟩

/-- `checked_add` of 32-bit numbers. -/
def checkedAdd (a b : ℕ) : Option ℕ := if a + b < 2 ^ 32 then some (a + b) else none

def ShadowsocksConfig.sessionPort (c : ShadowsocksConfig) (resourceSlot : ℕ) : Option UInt16 := do
  let port ← checkedAdd c.portStart.toNat resourceSlot
  if port ≤ c.portEnd.toNat then some (UInt16.ofNat port) else none

def WireGuardConfig.clientAddress (_ : WireGuardConfig) (resourceSlot : ℕ) :
    Option (List Char) := do
  let host ← checkedAdd resourceSlot 2
  if host ≤ 65534 then
    some ("10.66.".toList ++ Nat.toDigits 10 (host / 256) ++ '.' :: Nat.toDigits 10 (host % 256))
  else none

/-- The interface of the server is `10.66.0.1/16`: its own address, and the first and the last of
the network. -/
def reserved : List Ipv4Addr := [⟨10, 66, 0, 1⟩, ⟨10, 66, 0, 0⟩, ⟨10, 66, 255, 255⟩]

/-- An address of the network that a client may have. -/
def Usable (address : List Char) : Prop :=
  ∃ ip : Ipv4Addr, address = ip.text ∧ ip.a = 10 ∧ ip.b = 66 ∧ ip ∉ reserved

variable {env : Environment} {maxSessions slot other : ℕ}

lemma eq_ok_of_ifEnabled {α : Type} {name : String} {read : Except String α} {a : α}
    (h : ifEnabled env name read = .ok (some a)) : read = .ok a := by
  obtain ⟨enabled, -, h⟩ := bind_eq_ok.mp h
  cases enabled with
  | false => cases h
  | true =>
    cases read with
    | error e => cases h
    | ok b =>
      cases h
      rfl

lemma ShadowsocksConfig.room {c : ShadowsocksConfig}
    (h : ShadowsocksConfig.fromEnv env maxSessions = .ok (some c)) :
    c.portStart.toNat + maxSessions ≤ c.portEnd.toNat + 1 := by
  have h := eq_ok_of_ifEnabled h
  obtain ⟨-, -, h⟩ := bind_eq_ok.mp h
  obtain ⟨-, -, h⟩ := bind_eq_ok.mp h
  obtain ⟨-, h⟩ := require_bind_eq_ok.mp h
  obtain ⟨portStart, -, h⟩ := bind_eq_ok.mp h
  obtain ⟨portEnd, -, h⟩ := bind_eq_ok.mp h
  obtain ⟨hle, h⟩ := require_bind_eq_ok.mp h
  obtain ⟨hroom, h⟩ := require_bind_eq_ok.mp h
  obtain ⟨-, -, h⟩ := bind_eq_ok.mp h
  cases h
  dsimp only
  -- the size of the range says something only because its ends are in order
  have hle := UInt16.le_iff_toNat_le.mp (of_decide_eq_true hle)
  have hroom := of_decide_eq_true hroom
  omega

lemma WireGuardConfig.room {c : WireGuardConfig}
    (h : WireGuardConfig.fromEnv env maxSessions = .ok (some c)) : maxSessions ≤ 65533 :=
  of_decide_eq_true (require_bind_eq_ok.mp (eq_ok_of_ifEnabled h)).1

lemma ShadowsocksConfig.sessionPort_eq {c : ShadowsocksConfig}
    (hslot : c.portStart.toNat + slot ≤ c.portEnd.toNat) :
    c.sessionPort slot = some (UInt16.ofNat (c.portStart.toNat + slot)) := by
  have hend := c.portEnd.toNat_lt
  rw [sessionPort, checkedAdd, if_pos (by omega)]
  exact if_pos hslot

/-- The leased address of a slot. -/
def lease (slot : ℕ) : Ipv4Addr :=
  ⟨10, 66, UInt8.ofNat ((slot + 2) / 256), UInt8.ofNat ((slot + 2) % 256)⟩

/-- The octets of the lease make up the number of its host. -/
lemma lease_host (hslot : slot ≤ 65532) :
    (lease slot).c.toNat = (slot + 2) / 256 ∧ (lease slot).d.toNat = (slot + 2) % 256 := by
  simp only [lease, UInt8.toNat_ofNat']
  omega

lemma WireGuardConfig.clientAddress_eq (c : WireGuardConfig) (hslot : slot ≤ 65532) :
    c.clientAddress slot = some (lease slot).text := by
  obtain ⟨hc, hd⟩ := lease_host hslot
  rw [clientAddress, checkedAdd, if_pos (by omega)]
  refine (if_pos (by omega)).trans ?_
  simp only [Ipv4Addr.text, octetText, hc, hd]
  simp only [lease, List.intercalate, List.intersperse, flatten_cons, flatten_nil,
    append_assoc, append_nil]
  rfl

lemma lease_usable (hslot : slot ≤ 65532) : Usable (lease slot).text := by
  obtain ⟨hc, hd⟩ := lease_host hslot
  refine ⟨lease slot, rfl, rfl, rfl, fun hmem => ?_⟩
  simp only [reserved, mem_cons, not_mem_nil, or_false] at hmem
  rcases hmem with h | h | h <;> rw [h] at hc hd <;> simp at hc hd <;> omega

lemma validAddress_lease (hslot : slot ≤ 65532) :
    WireGuardAgent.validAddress (lease slot).text = .ok () := by
  obtain ⟨hc, hd⟩ := lease_host hslot
  refine WireGuardAgent.validAddress_eq_ok.mpr ⟨lease slot, Ipv4Addr.parse_text _, ?_⟩
  have hhost : 2 ≤ (slot + 2) / 256 * 256 + (slot + 2) % 256 ∧
      (slot + 2) / 256 * 256 + (slot + 2) % 256 ≤ 65534 := by omega
  simp only [WireGuardAgent.inPool, hc, hd, hhost]
  rfl

lemma lease_ne (hslot : slot ≤ 65532) (hother : other ≤ 65532) (hne : slot ≠ other) :
    (lease slot).text ≠ (lease other).text := by
  intro h
  have hip : lease slot = lease other :=
    Option.some.inj (by rw [← Ipv4Addr.parse_text, h, Ipv4Addr.parse_text])
  obtain ⟨hc, hd⟩ := lease_host hslot
  obtain ⟨hc', hd'⟩ := lease_host hother
  rw [hip] at hc hd
  omega

/-- **Two slots of a server have different ports and addresses.**  Both exist, the ports lie in
the configured range, and the addresses are usable and pass the check of the agent. -/
theorem slots_distinct {cfg : ServerConfig} (h : ServerConfig.fromEnv env = .ok cfg)
    (hslot : slot < cfg.maxSessions) (hother : other < cfg.maxSessions) (hne : slot ≠ other) :
    (∀ c, cfg.shadowsocks = some c → ∃ p q, c.sessionPort slot = some p ∧
      c.sessionPort other = some q ∧ p ≠ q ∧
        ∀ port ∈ [p, q], c.portStart ≤ port ∧ port ≤ c.portEnd) ∧
    (∀ c, cfg.wireguard = some c → ∃ a b, c.clientAddress slot = some a ∧
      c.clientAddress other = some b ∧ a ≠ b ∧ ∀ address ∈ [a, b],
        Usable address ∧ WireGuardAgent.validAddress address = .ok ()) := by
  obtain ⟨maxSessions, -, h⟩ := bind_eq_ok.mp h
  obtain ⟨-, h⟩ := require_bind_eq_ok.mp h
  obtain ⟨shadowsocks, hshadowsocks, h⟩ := bind_eq_ok.mp h
  obtain ⟨wireguard, hwireguard, h⟩ := bind_eq_ok.mp h
  cases h
  dsimp only at hslot hother ⊢
  refine ⟨fun c hc => ?_, fun c hc => ?_⟩
  · -- a port is the start of the range plus the slot, and the range has one for every slot
    have hroom := ShadowsocksConfig.room (hc ▸ hshadowsocks)
    have hend := c.portEnd.toNat_lt
    refine ⟨_, _, c.sessionPort_eq (by omega), c.sessionPort_eq (by omega), fun heq => ?_, ?_⟩
    · have hval := congrArg UInt16.toNat heq
      simp only [UInt16.toNat_ofNat'] at hval
      omega
    · simp only [forall_mem_cons, not_mem_nil, false_imp_iff, implies_true, and_true,
        UInt16.le_iff_toNat_le, UInt16.toNat_ofNat']
      omega
  · -- the hosts of slots begin at 2, behind the server, and end before the broadcast address
    have hroom := WireGuardConfig.room (hc ▸ hwireguard)
    have hslot : slot ≤ 65532 := by omega
    have hother : other ≤ 65532 := by omega
    refine ⟨_, _, c.clientAddress_eq hslot, c.clientAddress_eq hother, lease_ne hslot hother hne, ?_⟩
    simp only [forall_mem_cons, not_mem_nil, false_imp_iff, implies_true, and_true]
    exact ⟨⟨lease_usable hslot, validAddress_lease hslot⟩,
      lease_usable hother, validAddress_lease hother⟩

/-- Both engines with the default numbers, and every text accepted. -/
def sampleEnvironment : Environment where
  var name :=
    if name ∈ ["KET_SHADOWSOCKS_ENABLED", "KET_WIREGUARD_ENABLED"] then some "true"
    else none
  text name := .ok name

/-- The first and the last slot of a server with the default numbers. -/
theorem slots_distinct_sample : ∃ a b, WireGuardConfig.clientAddress ⟨443⟩ 0 = some a ∧
      WireGuardConfig.clientAddress ⟨443⟩ 999 = some b ∧ a ≠ b := by
  have h : ServerConfig.fromEnv sampleEnvironment =
      .ok ⟨1000, some ⟨20000, 20999⟩, some ⟨443⟩⟩ := by rfl
  obtain ⟨a, b, ha, hb, hne, -⟩ :=
    (@slots_distinct _ 0 999 _ h (by decide) (by decide) (by decide)).2 _ rfl
  exact ⟨a, b, ha, hb, hne⟩

end Ket.Server.Slots
