import Ket.Lib.Check
import Ket.Lib.Encoding
import Ket.Lib.System
import Ket.Lib.Text

/-!
# The WireGuard agent (`ket-server/src/wireguard_agent.rs`)

The agent keeps the peers of a WireGuard interface.  It changes them with `wg set` and learns about
them from the text that `wg show dump` prints.  The interface is a `Kernel`: assigning an allowed IP
to a peer takes it away from the peer that held it, which then has none, and a row without an allowed
IP is one that the agent does not accept.  The commands succeed.

A reconcile request takes out the peers at addresses that are not requested and installs the
requested ones.  A peer that stays at a requested address under another key is left without an
address; so is a peer whose address an upsert gives to another key.
-/

namespace Ket.Server.WireGuardAgent

open Ket.Lib Ket.Lib.Text List

/-! ### Peers and their checks -/

structure ManagedPeer where
  privateKey : List Char
  presharedKey : List Char
  address : List Char
deriving DecidableEq, Repr

structure PeerStatus where
  publicKey : List Char
  address : List Char
  latestHandshakeEpochSeconds : ℕ
  bytesReceived : ℕ
  bytesSent : ℕ
deriving DecidableEq, Repr

/-- `ApiError`. -/
inductive AgentError where
  /-- 400 `invalid_peer`: peer request is invalid. -/
  | invalidPeer
  /-- 503 `wireguard_unavailable`: WireGuard operation failed. -/
  | wireguardUnavailable
deriving DecidableEq, Repr

variable (B : Base64)

/-- The text of a 32-byte key. -/
def isKey (key : List Char) : Bool := (B.decode key).any fun decoded => decoded.length == 32

def validateKey (key : List Char) (label : String) : Except String Unit :=
  require (isKey B key) (label ++ " is not a 32-byte standard-base64 WireGuard key")

variable (ip : Ipv4Addr)

/-- The addresses that are leased: `10.66.0.2` to `10.66.255.254`. -/
def inPool : Bool :=
  let host := ip.c.toNat * 256 + ip.d.toNat
  ip.a == 10 && ip.b == 66 && decide (2 ≤ host ∧ host ≤ 65534)

def validAddress (address : List Char) : Except String Unit :=
  match Ipv4Addr.parse address with
  | none => .error "peer address is not IPv4"
  | some ip => require (inPool ip) "peer address is outside the Ket WireGuard lease pool"

def validatePeer (peer : ManagedPeer) : Except String Unit := do
  validateKey B peer.privateKey "peer private key"
  validateKey B peer.presharedKey "peer preshared key"
  validAddress peer.address

lemma validAddress_eq_ok {address : List Char} :
    validAddress address = .ok () ↔ ∃ ip, Ipv4Addr.parse address = some ip ∧ inPool ip = true := by
  unfold validAddress
  cases Ipv4Addr.parse address with
  | none => simp
  | some ip => simp [require_eq_ok]

lemma validatePeer_eq_ok {B : Base64} {peer : ManagedPeer} : validatePeer B peer = .ok () ↔
    isKey B peer.privateKey = true ∧ isKey B peer.presharedKey = true ∧
      ∃ ip, Ipv4Addr.parse peer.address = some ip ∧ inPool ip = true := by
  unfold validatePeer validateKey
  rw [require_bind_eq_ok, require_bind_eq_ok, validAddress_eq_ok]

/-! ### The interface -/

/-- A character that separates no fields and no rows. -/
def isPlain (c : Char) : Bool := c != '\t' && c != '\n' && c != '\r'

/-- The text of a field that the agent does not read. -/
structure Field where
  chars : List Char
  plain : ∀ c ∈ chars, isPlain c = true

structure KernelPeer where
  publicKey : List Char
  presharedKey : List Char
  endpoint : Field
  allowedIps : List Ipv4Addr
  latestHandshake : UInt64
  received : UInt64
  sent : UInt64

structure Kernel where
  /-- The row of the interface itself. -/
  header : List Field
  peers : List KernelPeer

namespace Kernel

/-- `wg set <interface> peer <key> preshared-key <secret> allowed-ips <ip>/32`. -/
def setPeer (k : Kernel) (key presharedKey : List Char) (ip : Ipv4Addr) : Kernel :=
  let others := k.peers.map fun p => { p with allowedIps := p.allowedIps.filter (· ≠ ip) }
  { k with
    peers :=
      if others.any fun p => p.publicKey == key then
        others.map fun p =>
          if p.publicKey = key then { p with presharedKey, allowedIps := [ip] } else p
      else
        others ++
          [⟨key, presharedKey, ⟨"(none)".toList, all_eq_true.mp (by decide)⟩, [ip], 0, 0, 0⟩] }

/-- `wg set <interface> peer <key> remove`. -/
def removePeer (k : Kernel) (key : List Char) : Kernel :=
  { k with peers := k.peers.filter fun p => p.publicKey ≠ key }

end Kernel

def allowedText : List Ipv4Addr → List Char
  | [] => "(none)".toList
  | ips => [','].intercalate (ips.map fun ip => ip.text ++ "/32".toList)

def decimal (n : UInt64) : List Char := Nat.toDigits 10 n.toNat

namespace KernelPeer

def fields (p : KernelPeer) : List (List Char) :=
  [p.publicKey, p.presharedKey, p.endpoint.chars, allowedText p.allowedIps,
    decimal p.latestHandshake, decimal p.received, decimal p.sent, "off".toList]

def row (p : KernelPeer) : List Char := ['\t'].intercalate p.fields

end KernelPeer

/-- `wg show <interface> dump`. -/
def Kernel.dump (k : Kernel) : List Char :=
  unlines (['\t'].intercalate (k.header.map Field.chars) :: k.peers.map KernelPeer.row)

/-! ### The agent -/

/-- `wg pubkey`, which gives a key for each key. -/
structure Curve where
  pubkey : List Char → List Char
  valid : ∀ key, isKey B key = true → isKey B (pubkey key) = true

/-- The address of an allowed IP with the prefix length 32. -/
def stripPrefixLength (allowed : List Char) : Option (List Char) :=
  if "/32".toList.isSuffixOf allowed then some (allowed.take (allowed.length - 3)) else none

/-- One row of the dump. -/
def parseRow (line : List Char) : Except String PeerStatus :=
  match line.splitOn '\t' with
  | [key, _, _, allowed, handshake, received, sent, _] => do
      validateKey B key "peer public key"
      match allowed.splitOn ',' with
      | [single] =>
        match stripPrefixLength single with
        | none => .error "wg peer is missing its IPv4 lease"
        | some address => do
            validAddress address
            match parseU64 handshake, parseU64 received, parseU64 sent with
            | none, _, _ => .error "wg handshake counter is invalid"
            | _, none, _ => .error "wg receive counter is invalid"
            | _, _, none => .error "wg send counter is invalid"
            | some handshake, some received, some sent =>
              return ⟨key, address, handshake, received, sent⟩
      | _ => .error "wg peer has unexpected allowed IPs"
  | _ => .error "wg returned a malformed peer row"

def parseRows : List (List Char) → Except String (List PeerStatus)
  | [] => .ok []
  | line :: rest => do
      let peer ← parseRow B line
      let peers ← parseRows rest
      return peer :: peers

/-- `parse_peer_statuses`. -/
def parsePeerStatuses (output : List Char) : Except String (List PeerStatus) :=
  parseRows B (((lines output).drop 1).filter (· ≠ []))

section Agent

variable {B} (W : Curve B) (maxPeers : ℕ)

def derivePublicKey (privateKey : List Char) : Except String (List Char) := do
  validateKey B (W.pubkey privateKey) "derived peer public key"
  return W.pubkey privateKey

def installPeer (k : Kernel) (peer : ManagedPeer) : Except String Kernel := do
  let publicKey ← derivePublicKey W peer.privateKey
  match Ipv4Addr.parse peer.address with
  | none => .error "wg failed"
  | some ip => return k.setPeer publicKey peer.presharedKey ip

def removePublicKey (B : Base64) (k : Kernel) (publicKey : List Char) : Except String Kernel := do
  validateKey B publicKey "peer public key"
  return k.removePeer publicKey

/-- A loop over commands, which stops at the first that fails. -/
def runAll {α : Type} (f : Kernel → α → Except String Kernel) :
    Kernel → List α → Kernel × Except AgentError Unit
  | k, [] => (k, .ok ())
  | k, a :: rest =>
    match f k a with
    | .error _ => (k, .error .wireguardUnavailable)
    | .ok k => runAll f k rest

/-- `upsert_peer`. -/
def upsertPeer (k : Kernel) (peer : ManagedPeer) : Kernel × Except AgentError Unit :=
  match validatePeer B peer with
  | .error _ => (k, .error .invalidPeer)
  | .ok () => runAll (installPeer W) k [peer]

/-- The checks of a reconcile request; `desired` are the addresses so far. -/
def desiredAddresses (B : Base64) :
    List (List Char) → List ManagedPeer → Except String (List (List Char))
  | desired, [] => .ok desired
  | desired, peer :: rest => do
      validatePeer B peer
      require (decide (peer.address ∉ desired)) "duplicate peer address"
      desiredAddresses B (desired ++ [peer.address]) rest

/-- `reconcile_peers`. -/
def reconcilePeers (k : Kernel) (peers : List ManagedPeer) : Kernel × Except AgentError Unit :=
  if maxPeers < peers.length then (k, .error .invalidPeer)
  else
    match desiredAddresses B [] peers with
    | .error _ => (k, .error .invalidPeer)
    | .ok desired =>
      match parsePeerStatuses B k.dump with
      | .error _ => (k, .error .wireguardUnavailable)
      | .ok current =>
        let gone := current.filter fun status => status.address ∉ desired
        match runAll (removePublicKey B) k (gone.map PeerStatus.publicKey) with
        | (k, .error e) => (k, .error e)
        | (k, .ok ()) => runAll (installPeer W) k peers

/-- `remove_peers`. -/
def removePeers (B : Base64) (k : Kernel) (addresses : List (List Char)) :
    Kernel × Except AgentError Unit :=
  if maxPeers < addresses.length then (k, .error .invalidPeer)
  else if addresses.any fun address => !(validAddress address).isOk then (k, .error .invalidPeer)
  else
    match parsePeerStatuses B k.dump with
    | .error _ => (k, .error .wireguardUnavailable)
    | .ok current =>
      let gone := current.filter fun status => status.address ∈ addresses
      runAll (removePublicKey B) k (gone.map PeerStatus.publicKey)

end Agent

/-! ### Reading the dump -/

/-- A peer as the agent writes it: with a key, and with no character in the secret that would break
the row. -/
structure KernelPeer.Written (p : KernelPeer) : Prop where
  key : isKey B p.publicKey = true
  secret : ∀ c ∈ p.presharedKey, isPlain c = true

/-- A peer with one address, out of the pool. -/
structure KernelPeer.Leased (p : KernelPeer) : Prop extends p.Written B where
  lease : ∃ ip, p.allowedIps = [ip] ∧ inPool ip = true

/-- What the agent learns about a peer. -/
def KernelPeer.status (p : KernelPeer) : PeerStatus :=
  ⟨p.publicKey, p.allowedIps.head?.elim [] Ipv4Addr.text, p.latestHandshake.toNat,
    p.received.toNat, p.sent.toNat⟩

variable {B} {c : Char} {p : KernelPeer} {fields : List (List Char)} {k : Kernel}

lemma isPlain_of_isBase64 (h : (isBase64Digit c || c == '=') = true) : isPlain c = true := by
  have hne : ∀ x : Char, (isBase64Digit x || x == '=') = false → c ≠ x := by
    rintro x hx rfl
    rw [h] at hx
    cases hx
  simp [isPlain, hne '\t' (by decide), hne '\n' (by decide), hne '\r' (by decide)]

lemma isPlain_of_isDigit (h : c.isDigit = true) : isPlain c = true := by
  have hne : ∀ x : Char, x.isDigit = false → c ≠ x := by
    rintro x hx rfl
    rw [h] at hx
    cases hx
  simp [isPlain, hne '\t' (by decide), hne '\n' (by decide), hne '\r' (by decide)]

lemma plain_of_isKey {key : List Char} (h : isKey B key = true) : ∀ c ∈ key, isPlain c = true := by
  obtain ⟨decoded, hdecoded, -⟩ := (Option.any_eq_true _ _).mp h
  rw [← B.decode_eq_some_iff.mp hdecoded]
  exact fun c hc => isPlain_of_isBase64 (B.isDigit_of_mem c hc)

lemma plain_decimal (n : UInt64) : ∀ c ∈ decimal n, isPlain c = true := fun _ hc =>
  isPlain_of_isDigit (isDigit_of_mem_decimal hc)

lemma plain_text : ∀ c ∈ ip.text, isPlain c = true := by
  intro c hc
  rcases Ipv4Addr.mem_text hc with hdigit | rfl
  · exact isPlain_of_isDigit hdigit
  · rfl

/-- A peer's one address as it stands in the dump. -/
lemma allowedText_single : allowedText [ip] = ip.text ++ "/32".toList := by
  simp [allowedText, List.intercalate]

lemma plain_allowedText : ∀ c ∈ allowedText [ip], isPlain c = true := by
  intro c hc
  rw [allowedText_single] at hc
  rcases mem_append.mp hc with hc | hc
  · exact plain_text ip c hc
  · have hsuffix : ("/32".toList.all isPlain) = true := by decide
    exact all_eq_true.mp hsuffix c hc

lemma KernelPeer.Leased.plain_fields (h : p.Leased B) :
    ∀ field ∈ p.fields, ∀ c ∈ field, isPlain c = true := by
  obtain ⟨ip, hip, -⟩ := h.lease
  have hoff : ("off".toList.all isPlain) = true := by decide
  simp only [fields, hip, mem_cons, forall_eq_or_imp, not_mem_nil, false_imp_iff,
    implies_true, and_true]
  exact ⟨plain_of_isKey h.key, h.secret, p.endpoint.plain, plain_allowedText ip, plain_decimal _,
    plain_decimal _, plain_decimal _, fun c hc => all_eq_true.mp hoff c hc⟩

/-- Fields without separators stay apart. -/
lemma splitOn_fields (hne : fields ≠ []) (h : ∀ field ∈ fields, ∀ c ∈ field, isPlain c = true) :
    (['\t'].intercalate fields).splitOn '\t' = fields := by
  refine splitOn_intercalate '\t' (fun field hfield htab => ?_) hne
  have hplain := h field hfield '\t' htab
  cases hplain

/-- A row of such fields is one line. -/
lemma unbroken_row (h : ∀ field ∈ fields, ∀ c ∈ field, isPlain c = true) :
    '\n' ∉ ['\t'].intercalate fields ∧ '\r' ∉ ['\t'].intercalate fields := by
  have hbreak : ∀ x : Char, x ≠ '\t' → isPlain x = false → x ∉ ['\t'].intercalate fields := by
    intro x hx hplain hmem
    rcases mem_intercalate hmem with htab | ⟨field, hfield, hc⟩
    · exact hx (mem_singleton.mp htab)
    · rw [h field hfield x hc] at hplain
      cases hplain
  exact ⟨hbreak '\n' (by decide) rfl, hbreak '\r' (by decide) rfl⟩

lemma stripPrefixLength_text : stripPrefixLength (ip.text ++ "/32".toList) = some ip.text := by
  have hsuffix : "/32".toList.isSuffixOf (ip.text ++ "/32".toList) = true :=
    isSuffixOf_iff_suffix.mpr (suffix_append _ _)
  have htake : (ip.text ++ "/32".toList).take ((ip.text ++ "/32".toList).length - 3) = ip.text := by
    have hlength : (ip.text ++ "/32".toList).length - 3 = ip.text.length := by simp
    rw [hlength, take_left]
  rw [stripPrefixLength, if_pos hsuffix, htake]

/-- The row of a peer with its lease is read back. -/
lemma parseRow_row (h : p.Leased B) : parseRow B p.row = .ok p.status := by
  obtain ⟨ip, hip, hpool⟩ := h.lease
  have hsplit : p.row.splitOn '\t' = p.fields := splitOn_fields (by simp [KernelPeer.fields])
    h.plain_fields
  have hcomma : (allowedText [ip]).splitOn ',' = [ip.text ++ "/32".toList] := by
    rw [allowedText_single]
    refine splitOn_eq_singleton fun hmem => ?_
    rcases mem_append.mp hmem with hmem | hmem
    · rcases Ipv4Addr.mem_text hmem with hdigit | hdot
      · cases hdigit
      · cases hdot
    · revert hmem
      decide
  have hkey : validateKey B p.publicKey "peer public key" = .ok () := require_eq_ok.mpr h.key
  have haddress : validAddress ip.text = .ok () :=
    validAddress_eq_ok.mpr ⟨ip, Ipv4Addr.parse_text ip, hpool⟩
  have hnumber : ∀ n : UInt64, parseU64 (decimal n) = some n.toNat := fun n =>
    parseU64_decimal n.toNat_lt
  unfold parseRow
  rw [hsplit]
  simp only [KernelPeer.fields, hip, hcomma, hkey, stripPrefixLength_text, haddress, hnumber]
  simp [KernelPeer.status, hip]
  rfl

lemma parseRows_map {peers : List KernelPeer} (h : ∀ p ∈ peers, p.Leased B) :
    parseRows B (peers.map KernelPeer.row) = .ok (peers.map KernelPeer.status) := by
  induction peers with
  | nil => rfl
  | cons p peers ih =>
    rw [map_cons, parseRows, parseRow_row (h p mem_cons_self),
      ih fun q hq => h q (mem_cons_of_mem _ hq)]
    rfl

/-- **The dump is read back.**  When every peer has its lease, the agent learns about each. -/
lemma parse_dump (h : ∀ p ∈ k.peers, p.Leased B) :
    parsePeerStatuses B k.dump = .ok (k.peers.map KernelPeer.status) := by
  have hlines : lines k.dump
      = ['\t'].intercalate (k.header.map Field.chars) :: k.peers.map KernelPeer.row := by
    refine lines_unlines fun row hrow => ?_
    rcases mem_cons.mp hrow with rfl | hrow
    · refine unbroken_row fun field hfield => ?_
      obtain ⟨f, -, rfl⟩ := mem_map.mp hfield
      exact f.plain
    · obtain ⟨p, hp, rfl⟩ := mem_map.mp hrow
      exact unbroken_row (h p hp).plain_fields
  have hrows : (k.peers.map KernelPeer.row).filter (· ≠ []) = k.peers.map KernelPeer.row := by
    refine filter_eq_self.mpr fun row hrow => ?_
    obtain ⟨p, -, rfl⟩ := mem_map.mp hrow
    simp [KernelPeer.row, KernelPeer.fields, List.intercalate, List.intersperse]
  unfold parsePeerStatuses
  rw [hlines, drop_one, tail_cons, hrows]
  exact parseRows_map h

/-! ### What the commands do -/

/-- The keys of the peers. -/
def Kernel.keys (k : Kernel) : List (List Char) := k.peers.map KernelPeer.publicKey

section Commands

variable {k : Kernel} {key presharedKey : List Char} {ip : Ipv4Addr} {p : KernelPeer}

/-- The peer with the key has the address and nothing else; the others have lost it. -/
lemma mem_setPeer (h : p ∈ (k.setPeer key presharedKey ip).peers) :
    p.publicKey = key ∧ p.presharedKey = presharedKey ∧ p.allowedIps = [ip] ∨
      p.publicKey ≠ key ∧ ∃ q ∈ k.peers, p.publicKey = q.publicKey ∧
        p.presharedKey = q.presharedKey ∧ p.allowedIps = q.allowedIps.filter (· ≠ ip) := by
  simp only [Kernel.setPeer] at h
  split at h
  · obtain ⟨r, hr, rfl⟩ := mem_map.mp h
    obtain ⟨q, hq, rfl⟩ := mem_map.mp hr
    by_cases hkey : q.publicKey = key
    · simp only [if_pos hkey]
      exact .inl ⟨hkey, trivial, trivial⟩
    · simp only [if_neg hkey]
      exact .inr ⟨hkey, q, hq, rfl, rfl, rfl⟩
  · rename_i hnone
    rcases mem_append.mp h with h | h
    · obtain ⟨q, hq, rfl⟩ := mem_map.mp h
      refine .inr ⟨fun hkey => hnone ?_, q, hq, rfl, rfl, rfl⟩
      exact any_eq_true.mpr ⟨_, h, by simpa using hkey⟩
    · rw [mem_singleton.mp h]
      exact .inl ⟨rfl, rfl, rfl⟩

lemma keys_setPeer (k : Kernel) (key presharedKey : List Char) (ip : Ipv4Addr) :
    (k.setPeer key presharedKey ip).keys = if key ∈ k.keys then k.keys else k.keys ++ [key] := by
  have hany : ((k.peers.map fun p => { p with allowedIps := p.allowedIps.filter (· ≠ ip) }).any
      fun p => p.publicKey == key) = decide (key ∈ k.keys) := by
    rw [Bool.eq_iff_iff, decide_eq_true_eq]
    simp [Kernel.keys, any_map]
  simp only [Kernel.setPeer, hany, decide_eq_true_eq]
  by_cases hkey : key ∈ k.keys
  · rw [if_pos hkey, if_pos hkey]
    simp only [Kernel.keys, map_map]
    refine map_congr_left fun q _ => ?_
    simp only [Function.comp_apply]
    split <;> rfl
  · rw [if_neg hkey, if_neg hkey]
    simp [Kernel.keys]

lemma mem_keys_setPeer {key' : List Char} :
    key' ∈ (k.setPeer key presharedKey ip).keys ↔ key' = key ∨ key' ∈ k.keys := by
  rw [keys_setPeer]
  split
  · rename_i hkey
    constructor
    · exact .inr
    · rintro (rfl | h)
      · exact hkey
      · exact h
  · rw [mem_append, mem_singleton, or_comm]

lemma nodup_keys_setPeer (h : k.keys.Nodup) : (k.setPeer key presharedKey ip).keys.Nodup := by
  rw [keys_setPeer]
  split
  · exact h
  · rename_i hkey
    refine nodup_append.mpr ⟨h, nodup_singleton _, ?_⟩
    rintro a ha b hb rfl
    exact hkey (mem_singleton.mp hb ▸ ha)

end Commands

/-- The peers have keys of their own, and are as the agent writes them. -/
structure Tidy (B : Base64) (k : Kernel) : Prop where
  keys : k.keys.Nodup
  written : ∀ p ∈ k.peers, p.Written B

/-- Each peer has its lease. -/
structure Serving (B : Base64) (k : Kernel) : Prop where
  keys : k.keys.Nodup
  leased : ∀ p ∈ k.peers, p.Leased B

lemma Serving.tidy (h : Serving B k) : Tidy B k :=
  ⟨h.keys, fun p hp => (h.leased p hp).toWritten⟩

lemma Serving.filter (h : Serving B k) (q : KernelPeer → Bool) :
    Serving B { k with peers := k.peers.filter q } where
  keys := h.keys.sublist (List.filter_sublist.map _)
  leased p hp := h.leased p (mem_of_mem_filter hp)

section Requests

variable {W : Curve B} {maxPeers : ℕ} {k : Kernel}

/-- The removals leave the peers with other keys. -/
lemma runAll_removePublicKey {keys : List (List Char)} (h : ∀ key ∈ keys, isKey B key = true)
    (k : Kernel) : runAll (removePublicKey B) k keys
      = ({ k with peers := k.peers.filter fun p => p.publicKey ∉ keys }, .ok ()) := by
  induction keys generalizing k with
  | nil => simp [runAll]
  | cons key keys ih =>
    have hremove : removePublicKey B k key = .ok (k.removePeer key) := by
      have hkey : validateKey B key "peer public key" = .ok () :=
        require_eq_ok.mpr (h key mem_cons_self)
      rw [removePublicKey, hkey]
      rfl
    simp only [runAll, hremove]
    rw [ih fun key' hkey' => h key' (mem_cons_of_mem _ hkey')]
    simp only [Kernel.removePeer, filter_filter, Prod.mk.injEq, and_true]
    congr 1
    refine filter_congr fun p _ => ?_
    rw [Bool.eq_iff_iff]
    simp [and_comm]

variable {ip : Ipv4Addr} {peer : ManagedPeer} {peers : List ManagedPeer}

lemma installPeer_of_valid (hkey : isKey B peer.privateKey = true)
    (hip : Ipv4Addr.parse peer.address = some ip) (k : Kernel) :
    installPeer W k peer = .ok (k.setPeer (W.pubkey peer.privateKey) peer.presharedKey ip) := by
  have hderive : derivePublicKey W peer.privateKey = .ok (W.pubkey peer.privateKey) := by
    have hvalid : validateKey B (W.pubkey peer.privateKey) "derived peer public key" = .ok () :=
      require_eq_ok.mpr (W.valid _ hkey)
    rw [derivePublicKey, hvalid]
    rfl
  rw [installPeer, hderive, hip]
  rfl

lemma Tidy.setPeer {key presharedKey : List Char} (h : Tidy B k) (hkey : isKey B key = true)
    (hsecret : isKey B presharedKey = true) : Tidy B (k.setPeer key presharedKey ip) where
  keys := nodup_keys_setPeer h.keys
  written p hp := by
    rcases mem_setPeer hp with ⟨hpkey, hpsecret, -⟩ | ⟨-, q, hq, hpkey, hpsecret, -⟩
    · exact ⟨hpkey ▸ hkey, hpsecret ▸ plain_of_isKey hsecret⟩
    · have hwritten := h.written q hq
      exact ⟨hpkey ▸ hwritten.key, hpsecret ▸ hwritten.secret⟩

/-- **The installs.**  Peers with keys and addresses of their own are installed one after the other;
each has its key and its address in the end, and no other key comes up. -/
lemma runAll_installPeer (hvalid : ∀ peer ∈ peers, validatePeer B peer = .ok ())
    (hkeys : (peers.map fun peer => W.pubkey peer.privateKey).Nodup)
    (haddresses : (peers.map ManagedPeer.address).Nodup) (h : Tidy B k) :
    ∃ k', runAll (installPeer W) k peers = (k', .ok ()) ∧ Tidy B k' ∧
      (∀ key, key ∈ k'.keys ↔ key ∈ k.keys ∨ key ∈ peers.map fun peer => W.pubkey peer.privateKey) ∧
      (∀ peer ∈ peers, ∀ p ∈ k'.peers, p.publicKey = W.pubkey peer.privateKey →
        ∃ ip, inPool ip = true ∧ ip.text = peer.address ∧ p.allowedIps = [ip]) ∧
      -- a peer that is not among them keeps what they do not take
      ∀ p ∈ k'.peers, (p.publicKey ∉ peers.map fun peer => W.pubkey peer.privateKey) →
        ∃ q ∈ k.peers, q.publicKey = p.publicKey ∧
          p.allowedIps = q.allowedIps.filter fun ip => ip.text ∉ peers.map ManagedPeer.address := by
  induction peers generalizing k with
  | nil =>
    refine ⟨k, rfl, h, by simp, by simp, fun p hp _ => ⟨p, hp, rfl, by simp⟩⟩
  | cons peer peers ih =>
    obtain ⟨hkey, hsecret, ip, hip, hpool⟩ := validatePeer_eq_ok.mp (hvalid peer mem_cons_self)
    obtain ⟨hnew, hkeys⟩ := nodup_cons.mp hkeys
    obtain ⟨hfree, haddresses⟩ := nodup_cons.mp haddresses
    have htext : ip.text = peer.address := Ipv4Addr.text_of_parse hip
    set key := W.pubkey peer.privateKey with hkeydef
    have hset : Tidy B (k.setPeer key peer.presharedKey ip) := h.setPeer (W.valid _ hkey) hsecret
    obtain ⟨k', hrun, htidy, hmem, hdone, hothers⟩ :=
      ih (fun q hq => hvalid q (mem_cons_of_mem _ hq)) hkeys haddresses hset
    refine ⟨k', ?_, htidy, ?_, ?_, ?_⟩
    · simp only [runAll, installPeer_of_valid hkey hip]
      exact hrun
    · intro key'
      rw [hmem key', mem_keys_setPeer, map_cons, mem_cons, or_assoc, or_left_comm]
    · intro peer' hpeer' p hp hpkey
      rcases mem_cons.mp hpeer' with rfl | hpeer'
      · -- the one that was installed first: the others take other addresses
        obtain ⟨q, hq, hqkey, hips⟩ := hothers p hp (by rw [hpkey]; exact hnew)
        rcases mem_setPeer hq with ⟨-, -, hqips⟩ | ⟨hne, -⟩
        · refine ⟨ip, hpool, htext, ?_⟩
          have hkeep : ip.text ∉ peers.map ManagedPeer.address := by rw [htext]; exact hfree
          rw [hips, hqips]
          refine filter_eq_self.mpr fun ip' hip' => ?_
          rw [mem_singleton.mp hip']
          exact decide_eq_true hkeep
        · exact absurd (hqkey.trans hpkey) hne
      · exact hdone peer' hpeer' p hp hpkey
    · intro p hp hnot
      rw [map_cons, mem_cons, not_or] at hnot
      obtain ⟨q, hq, hqkey, hips⟩ := hothers p hp hnot.2
      rcases mem_setPeer hq with ⟨hqkey', -, -⟩ | ⟨-, r, hr, hrkey, -, hrips⟩
      · exact absurd (hqkey.symm.trans hqkey') hnot.1
      · refine ⟨r, hr, hrkey.symm.trans hqkey, ?_⟩
        rw [hips, hrips, filter_filter]
        refine filter_congr fun ip' _ => ?_
        have htaken : ip' = ip ↔ ip'.text = peer.address := by
          constructor
          · rintro rfl
            exact htext
          · intro heq
            have hparse := Ipv4Addr.parse_text ip'
            rw [heq, hip] at hparse
            exact (Option.some.inj hparse).symm
        rw [Bool.eq_iff_iff]
        simp [htaken, and_comm]

lemma of_desiredAddresses {desired addresses : List (List Char)}
    (h : desiredAddresses B desired peers = .ok addresses) (hdesired : desired.Nodup) :
    addresses = desired ++ peers.map ManagedPeer.address ∧ addresses.Nodup ∧
      ∀ peer ∈ peers, validatePeer B peer = .ok () := by
  induction peers generalizing desired with
  | nil =>
    cases h
    exact ⟨by simp, hdesired, by simp⟩
  | cons peer peers ih =>
    obtain ⟨_, hpeer, h⟩ := bind_eq_ok.mp h
    obtain ⟨hfree, h⟩ := require_bind_eq_ok.mp h
    have hfree := of_decide_eq_true hfree
    obtain ⟨rfl, hnodup, hvalid⟩ := ih h (by
      refine nodup_append.mpr ⟨hdesired, nodup_singleton _, ?_⟩
      rintro a ha b hb rfl
      exact hfree (mem_singleton.mp hb ▸ ha))
    refine ⟨by simp, hnodup, fun peer' hpeer' => ?_⟩
    rcases mem_cons.mp hpeer' with rfl | hpeer'
    · exact hpeer
    · exact hvalid peer' hpeer'

/-- The peers of the interface, by key and addresses. -/
def Kernel.pairs (k : Kernel) : List (List Char × List (List Char)) :=
  k.peers.map fun p => (p.publicKey, p.allowedIps.map Ipv4Addr.text)

/-- The peers that are asked for. -/
def Curve.pairs (W : Curve B) (peers : List ManagedPeer) : List (List Char × List (List Char)) :=
  peers.map fun peer => (W.pubkey peer.privateKey, [peer.address])

/-- The checks of a reconcile request pass. -/
def isAcceptable (B : Base64) (maxPeers : ℕ) (peers : List ManagedPeer) : Bool :=
  decide (peers.length ≤ maxPeers) && (desiredAddresses B [] peers).isOk

/-- The keys of the request are different, and who holds one of its addresses is one of its peers. -/
def Reconcilable (W : Curve B) (k : Kernel) (peers : List ManagedPeer) : Prop :=
  (peers.map fun peer => W.pubkey peer.privateKey).Nodup ∧
    ∀ p ∈ k.peers, ∀ ip ∈ p.allowedIps, ip.text ∈ peers.map ManagedPeer.address →
      p.publicKey ∈ peers.map fun peer => W.pubkey peer.privateKey

/-- Who holds the address is the peer itself. -/
def Upsertable (W : Curve B) (k : Kernel) (peer : ManagedPeer) : Prop :=
  ∀ p ∈ k.peers, ∀ ip ∈ p.allowedIps, ip.text = peer.address →
    p.publicKey = W.pubkey peer.privateKey

/-- Among peers with keys of their own that all are asked for, those that were asked for are all. -/
lemma pairs_perm (hkeys : k.keys.Nodup)
    (hwanted : (peers.map fun peer => W.pubkey peer.privateKey).Nodup)
    (hmem : ∀ key, key ∈ k.keys ↔ key ∈ peers.map fun peer => W.pubkey peer.privateKey)
    (hips : ∀ peer ∈ peers, ∀ p ∈ k.peers, p.publicKey = W.pubkey peer.privateKey →
      p.allowedIps.map Ipv4Addr.text = [peer.address]) : k.pairs.Perm (W.pairs peers) := by
  have hleft : k.pairs.Nodup := by
    refine List.Nodup.of_map Prod.fst ?_
    rw [Kernel.pairs, map_map]
    exact hkeys
  have hright : (W.pairs peers).Nodup := by
    refine List.Nodup.of_map Prod.fst ?_
    rw [Curve.pairs, map_map]
    exact hwanted
  refine (perm_ext_iff_of_nodup hleft hright).mpr fun pair => ?_
  constructor
  · intro hpair
    obtain ⟨p, hp, rfl⟩ := mem_map.mp hpair
    obtain ⟨peer, hpeer, hkey⟩ := mem_map.mp ((hmem p.publicKey).mp (mem_map_of_mem hp))
    refine mem_map.mpr ⟨peer, hpeer, ?_⟩
    rw [hips peer hpeer p hp hkey.symm, hkey]
  · intro hpair
    obtain ⟨peer, hpeer, rfl⟩ := mem_map.mp hpair
    obtain ⟨p, hp, hkey⟩ := mem_map.mp ((hmem (W.pubkey peer.privateKey)).mpr
      (mem_map_of_mem (f := fun peer => W.pubkey peer.privateKey) hpeer))
    refine mem_map.mpr ⟨p, hp, ?_⟩
    rw [hips peer hpeer p hp hkey, hkey]

/-- **A reconcile.**  From an interface on which each peer has its lease. -/
lemma reconcile_spec (hk : Serving B k) (haccept : isAcceptable B maxPeers peers = true)
    (h : Reconcilable W k peers) :
    ∃ k', reconcilePeers W maxPeers k peers = (k', .ok ()) ∧ Serving B k' ∧
      k'.pairs.Perm (W.pairs peers) := by
  obtain ⟨hlimit, hok⟩ := Bool.and_eq_true_iff.mp haccept
  have hlimit : ¬ maxPeers < peers.length := not_lt.mpr (of_decide_eq_true hlimit)
  cases hdesired : desiredAddresses B [] peers with
  | error e =>
    rw [hdesired] at hok
    cases hok
  | ok desired =>
    obtain ⟨rfl, hnodup, hvalid⟩ := of_desiredAddresses hdesired nodup_nil
    rw [nil_append] at hnodup
    set gone := (k.peers.map KernelPeer.status).filter fun status =>
      status.address ∉ [] ++ peers.map ManagedPeer.address with hgone
    -- the keys that are removed come from the dump
    have hgonekeys : ∀ key ∈ gone.map PeerStatus.publicKey, isKey B key = true := by
      intro key hkey
      obtain ⟨status, hstatus, rfl⟩ := mem_map.mp hkey
      obtain ⟨p, hp, rfl⟩ := mem_map.mp (mem_of_mem_filter hstatus)
      exact (hk.leased p hp).key
    set left : Kernel :=
      { k with peers := k.peers.filter fun p => p.publicKey ∉ gone.map PeerStatus.publicKey }
    have hleft : Serving B left := hk.filter _
    obtain ⟨k', hrun, htidy, hmem, hdone, -⟩ :=
      runAll_installPeer hvalid h.1 hnodup hleft.tidy
    -- who is left holds a requested address
    have hrequested : ∀ key ∈ left.keys, key ∈ peers.map fun peer => W.pubkey peer.privateKey := by
      intro key hkey
      obtain ⟨p, hp, rfl⟩ := mem_map.mp hkey
      obtain ⟨hp, hnot⟩ := List.mem_filter.mp hp
      obtain ⟨ip, hip, -⟩ := (hk.leased p hp).lease
      refine h.2 p hp ip (by rw [hip]; exact mem_cons_self) ?_
      by_contra habsent
      refine of_decide_eq_true hnot (mem_map.mpr ⟨p.status, ?_, rfl⟩)
      refine List.mem_filter.mpr ⟨mem_map_of_mem hp, decide_eq_true ?_⟩
      simpa only [KernelPeer.status, hip, head?_cons, Option.elim_some,
        nil_append] using habsent
    have hkeys : ∀ key, key ∈ k'.keys ↔ key ∈ peers.map fun peer => W.pubkey peer.privateKey := by
      intro key
      rw [hmem key]
      exact ⟨fun hkey => hkey.elim (hrequested key) id, .inr⟩
    have hlease : ∀ peer ∈ peers, ∀ p ∈ k'.peers, p.publicKey = W.pubkey peer.privateKey →
        p.allowedIps.map Ipv4Addr.text = [peer.address] := by
      intro peer hpeer p hp hkey
      obtain ⟨ip, -, htext, hips⟩ := hdone peer hpeer p hp hkey
      rw [hips, map_cons, htext, map_nil]
    refine ⟨k', ?_, ⟨htidy.keys, fun p hp => ⟨htidy.written p hp, ?_⟩⟩,
      pairs_perm htidy.keys h.1 hkeys hlease⟩
    · unfold reconcilePeers
      rw [if_neg hlimit, hdesired, parse_dump hk.leased]
      simp only [← hgone, runAll_removePublicKey hgonekeys]
      exact hrun
    · obtain ⟨peer, hpeer, hkey⟩ :=
        mem_map.mp ((hkeys p.publicKey).mp (mem_map_of_mem hp))
      obtain ⟨ip, hpool, -, hips⟩ := hdone peer hpeer p hp hkey.symm
      exact ⟨ip, hips, hpool⟩

lemma upsert_spec (hk : Serving B k) (hvalid : validatePeer B peer = .ok ())
    (h : Upsertable W k peer) :
    ∃ k', upsertPeer W k peer = (k', .ok ()) ∧ Serving B k' := by
  have hone : ∀ peer' ∈ [peer], validatePeer B peer' = .ok () := by
    rintro peer' hpeer'
    rw [mem_singleton.mp hpeer']
    exact hvalid
  obtain ⟨k', hrun, htidy, -, hdone, hothers⟩ :=
    runAll_installPeer hone (nodup_singleton _) (nodup_singleton _) hk.tidy
  refine ⟨k', by rw [upsertPeer, hvalid]; exact hrun, htidy.keys, fun p hp => ?_⟩
  refine ⟨htidy.written p hp, ?_⟩
  by_cases hkey : p.publicKey = W.pubkey peer.privateKey
  · obtain ⟨ip, hpool, -, hips⟩ := hdone peer mem_cons_self p hp hkey
    exact ⟨ip, hips, hpool⟩
  · -- another peer does not hold the address, and keeps its own
    obtain ⟨q, hq, hqkey, hips⟩ := hothers p hp (by simpa using hkey)
    obtain ⟨ip, hip, hpool⟩ := (hk.leased q hq).lease
    refine ⟨ip, ?_, hpool⟩
    rw [hips, hip]
    refine filter_eq_self.mpr fun ip' hip' => decide_eq_true fun htaken => hkey ?_
    rw [mem_singleton.mp hip'] at htaken
    rw [← hqkey]
    exact h q hq ip (by rw [hip]; exact mem_cons_self) (mem_singleton.mp htaken)

lemma serving_removePeers (hk : Serving B k) (addresses : List (List Char)) :
    Serving B (removePeers maxPeers B k addresses).1 := by
  unfold removePeers
  split
  · exact hk
  · split
    · exact hk
    · rw [parse_dump hk.leased]
      simp only
      rw [runAll_removePublicKey]
      · exact hk.filter _
      · intro key hkey
        obtain ⟨status, hstatus, rfl⟩ := mem_map.mp hkey
        obtain ⟨p, hp, rfl⟩ := mem_map.mp (mem_of_mem_filter hstatus)
        exact (hk.leased p hp).key

end Requests

/-! ### Runs -/

inductive AgentEvent where
  | upsert (peer : ManagedPeer)
  | reconcile (peers : List ManagedPeer)
  | remove (addresses : List (List Char))
  /-- A peer is heard from, and data is moved. -/
  | traffic (publicKey : List Char) (endpoint : Field) (latestHandshake received sent : UInt64)

section Runs

variable (W : Curve B) (maxPeers : ℕ)

def step (k : Kernel) : AgentEvent → Kernel
  | .upsert peer => (upsertPeer W k peer).1
  | .reconcile peers => (reconcilePeers W maxPeers k peers).1
  | .remove addresses => (removePeers maxPeers B k addresses).1
  | .traffic publicKey endpoint latestHandshake received sent =>
    { k with peers := k.peers.map fun p =>
        if p.publicKey = publicKey then { p with endpoint, latestHandshake, received, sent }
        else p }

/-- The agent and its interface, which has no peers at first. -/
def agentSystem (header : List Field) : System Kernel AgentEvent :=
  ⟨⟨header, []⟩, fun k e => some (step W maxPeers k e)⟩

/-- A request gives no address away that a peer with another key holds and keeps. -/
def TakesNoLease (k : Kernel) : AgentEvent → Prop
  | .upsert peer => Upsertable W k peer
  | .reconcile peers => Reconcilable W k peers
  | _ => True

instance (k : Kernel) (peer : ManagedPeer) : Decidable (Upsertable W k peer) :=
  inferInstanceAs (Decidable (∀ p ∈ k.peers, _))

instance (k : Kernel) (peers : List ManagedPeer) : Decidable (Reconcilable W k peers) :=
  inferInstanceAs (Decidable (_ ∧ ∀ p ∈ k.peers, _))

instance (k : Kernel) (e : AgentEvent) : Decidable (TakesNoLease W k e) := by
  unfold TakesNoLease
  split <;> infer_instance

variable {W maxPeers}

lemma reconcile_of_not_isAcceptable {k : Kernel} {peers : List ManagedPeer}
    (h : ¬ isAcceptable B maxPeers peers = true) : (reconcilePeers W maxPeers k peers).1 = k := by
  unfold reconcilePeers
  split
  · rfl
  · rename_i hlimit
    split
    · rfl
    · rename_i desired hdesired
      refine absurd ?_ h
      rw [isAcceptable, hdesired, decide_eq_true (not_lt.mp hlimit)]
      rfl

lemma Serving.step {k : Kernel} {e : AgentEvent} (hk : Serving B k) (h : TakesNoLease W k e) :
    Serving B (step W maxPeers k e) := by
  cases e with
  | upsert peer =>
    change Serving B (upsertPeer W k peer).1
    cases hvalid : validatePeer B peer with
    | error e =>
      rw [upsertPeer, hvalid]
      exact hk
    | ok u =>
      obtain ⟨k', hrun, hk'⟩ := upsert_spec hk hvalid h
      rw [hrun]
      exact hk'
  | reconcile peers =>
    change Serving B (reconcilePeers W maxPeers k peers).1
    by_cases haccept : isAcceptable B maxPeers peers = true
    · obtain ⟨k', hrun, hk', -⟩ := reconcile_spec hk haccept h
      rw [hrun]
      exact hk'
    · rw [reconcile_of_not_isAcceptable haccept]
      exact hk
  | remove addresses => exact serving_removePeers hk addresses
  | traffic publicKey endpoint latestHandshake received sent =>
    refine ⟨?_, fun p hp => ?_⟩
    · have hkeys : (WireGuardAgent.step W maxPeers k
          (.traffic publicKey endpoint latestHandshake received sent)).keys = k.keys := by
        simp only [Kernel.keys, WireGuardAgent.step, map_map]
        refine map_congr_left fun p _ => ?_
        simp only [Function.comp_apply]
        split <;> rfl
      rw [hkeys]
      exact hk.keys
    · obtain ⟨q, hq, rfl⟩ := mem_map.mp hp
      have hleased := hk.leased q hq
      split
      · exact ⟨⟨hleased.key, hleased.secret⟩, hleased.lease⟩
      · exact hleased

/-- **The agent reconciles exactly.**  In every run of requests and traffic in which no request
gives away an address that a peer with another key holds and keeps, the agent can read the dump of
the interface, and a reconcile request that passes its checks succeeds and leaves exactly the
requested peers. -/
theorem reconciles_exactly {W : Curve B} {maxPeers : ℕ} {header : List Field} {k : Kernel}
    (hk : (agentSystem W maxPeers header).Reachable (TakesNoLease W) k) :
    (parsePeerStatuses B k.dump).isOk = true ∧
      ∀ peers, isAcceptable B maxPeers peers = true → TakesNoLease W k (.reconcile peers) →
        (reconcilePeers W maxPeers k peers).2 = .ok () ∧
          (reconcilePeers W maxPeers k peers).1.pairs.Perm (W.pairs peers) := by
  have hserving : Serving B k := by
    refine hk.invariant ⟨nodup_nil, nofun⟩ ?_
    rintro k e _ - hk hcond ⟨⟩
    exact hk.step hcond
  refine ⟨by rw [parse_dump hserving.leased]; rfl, fun peers haccept hcond => ?_⟩
  obtain ⟨k', hrun, -, hperm⟩ := reconcile_spec hserving haccept hcond
  rw [hrun]
  exact ⟨rfl, hperm⟩

end Runs

namespace Sample

/-- A toy curve, on which a key is its own public key. -/
def curve : Curve base64 := ⟨id, fun _ h => h⟩

/-- A key that begins with the character. -/
def key (c : Char) : List Char := c :: List.replicate 42 'A' ++ ['=']

def peer (c : Char) (address : String) : ManagedPeer := ⟨key c, key 'S', address.toList⟩

end Sample

/-- Two peers are installed, the address of the first is removed, and the second is to share the
interface with a new one. -/
theorem reconciles_exactly_twoPeers :
    ∃ k, (agentSystem Sample.curve 10 []).Reachable (TakesNoLease Sample.curve) k ∧
      (reconcilePeers Sample.curve 10 k
        [Sample.peer 'B' "10.66.0.3", Sample.peer 'C' "10.66.0.2"]).1.pairs.Perm
        [(Sample.key 'B', ["10.66.0.3".toList]), (Sample.key 'C', ["10.66.0.2".toList])] := by
  obtain ⟨k, hk, hcond⟩ := System.exists_reachable_of_run (agentSystem Sample.curve 10 [])
    (TakesNoLease Sample.curve)
    (fun k => TakesNoLease Sample.curve k
      (.reconcile [Sample.peer 'B' "10.66.0.3", Sample.peer 'C' "10.66.0.2"]))
    [.upsert (Sample.peer 'A' "10.66.0.2"), .upsert (Sample.peer 'B' "10.66.0.3"),
      .remove ["10.66.0.2".toList]] (by decide +kernel)
  exact ⟨k, hk, ((reconciles_exactly hk).2 _ (by decide +kernel) hcond).2⟩

/-- An upsert gives the address of a peer to another key, after which the dump is not accepted any
more.  A reconcile that does the same succeeds and leaves the old peer without an address. -/
theorem lost_lease_breaks_dump :
    (∃ k, (agentSystem Sample.curve 10 []).Reachable (fun _ _ => True) k ∧
      parsePeerStatuses base64 k.dump = .error "wg peer is missing its IPv4 lease") ∧
    ∃ k, (agentSystem Sample.curve 10 []).Reachable (fun _ _ => True) k ∧
      isAcceptable base64 10 [Sample.peer 'B' "10.66.0.2"] = true ∧
      (reconcilePeers Sample.curve 10 k [Sample.peer 'B' "10.66.0.2"]).2 = .ok () ∧
      (reconcilePeers Sample.curve 10 k [Sample.peer 'B' "10.66.0.2"]).1.pairs
        = [(Sample.key 'A', []), (Sample.key 'B', ["10.66.0.2".toList])] := by
  constructor
  · exact System.exists_reachable_of_run _ (fun _ _ => True) _
      [.upsert (Sample.peer 'A' "10.66.0.2"), .upsert (Sample.peer 'B' "10.66.0.2")]
      (by decide +kernel)
  · exact System.exists_reachable_of_run _ (fun _ _ => True) _
      [.upsert (Sample.peer 'A' "10.66.0.2")] (by decide +kernel)

end Ket.Server.WireGuardAgent
