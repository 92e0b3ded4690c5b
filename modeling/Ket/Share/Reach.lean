import Ket.Share.Server

/-!
# What the share dials

The egress is asked only for a device that has presented the credentials, only for a port other than
zero, and only for addresses of the public Internet, seen through every way of wrapping an IPv4
address in an IPv6 address but one: `dials_public_iff` says when no Teredo address gets in the way.
-/

namespace Ket.Share

open Ket.Lib Ket.Share.Http List

/-! ### Where a connection wants to go -/

/-- The target of a device that signs in. -/
def requestedTarget (S : Shared) (device : Device) (first : UInt8) (chunks : List (List UInt8)) :
    Option Target :=
  if first = Socks5.version then
    match (Socks5.negotiate S.lib S.credentials device.answers).run chunks.flatten with
    | .ok (target, _) => some target
    | .error _ => none
  else if isAsciiUppercase first then
    match signedInRequest S first chunks with
    | .ok (request, _, _) => some request.target
    | .error _ => none
  else none

def originOf (target : Target) : Origin :=
  match target.host with
  | .address _ => .requested
  | .name _ => .resolved

/-- The addresses that a target gives: the one that the device wrote, or those of the resolver. -/
def addressesOf (egress : Egress) (target : Target) : List IpAddr :=
  match target.host with
  | .address address => [address]
  | .name name =>
    match egress.resolve name with
    | .answered (.ok addresses) => addresses
    | _ => []

/-- The addresses that may be tried. -/
def triedAddresses (egress : Egress) (target : Target) : List IpAddr :=
  candidates (addressesOf egress target) (originOf target) egress.syntheticRange

/-! ### What a connection must not do -/

/-- The bytes of the connection hold a sign-in with the credentials, in one of the two protocols. -/
def Presented (S : Shared) (stream : List UInt8) : Prop :=
  (∃ bytes more, Socks5.SignIn S.credentials bytes ∧ stream = Socks5.version :: (bytes ++ more)) ∨
    ∃ head tail request headers, splitHead stream = some (head, tail) ∧
      parseHead head = .ok (request, headers) ∧
      authorizationOf S.lib.base64 headers
        = .ok (some (S.credentials.username, S.credentials.password))

def isReserved (address : Text.Ipv4Addr) : Bool :=
  reservedIpv4.any fun range => range.contains address

/-- The resolver was asked and gave the address. -/
def FromResolver (egress : Egress) (calls : List Call) (address : IpAddr) : Prop :=
  ∃ name addresses, .resolve name ∈ calls ∧ egress.resolve name = .answered (.ok addresses) ∧
    address ∈ addresses

/-- The calls of one connection are in order. -/
structure Guarded (S : Shared) (device : Device) (egress : Egress) (first : UInt8)
    (chunks : List (List UInt8)) (calls : List Call) : Prop where
  signedIn : calls ≠ [] → Presented S (first :: chunks.flatten) ∧
    ∃ target, requestedTarget S device first chunks = some target ∧ target.port ≠ 0
  connects : ∀ address port, .connect address port ∈ calls → port ≠ 0 ∧
    ∀ inner ∈ embeddedIpv4 address, isReserved inner = false ∨
      FromResolver egress calls address ∧
        (egress.syntheticRange.any fun range => range.contains inner) = true

/-! ### The handshakes -/

section Handshake

variable {S : Shared} {device : Device} {egress : Egress} {first : UInt8}
  {chunks later : List (List UInt8)} {rest : List UInt8} {target : Target} {request : Request}

/-- Only a target leads to calls. -/
lemma calls_serve : (serve S device egress first chunks).calls =
    match requestedTarget S device first chunks with
    | some target => (dial target egress).1
    | none => [] := by
  unfold serve requestedTarget
  split
  · unfold serveSocks
    cases (Socks5.negotiate S.lib S.credentials device.answers).run chunks.flatten with
    | error refusal => rfl
    | ok parts =>
      simp only
      rcases dial parts.1 egress with ⟨calls, _ | _⟩ <;> rfl
  · split
    · unfold serveHttp
      cases signedInRequest S first chunks with
      | error refusal => rfl
      | ok parts =>
        simp only
        rcases dial parts.1.target egress with ⟨calls, _ | _⟩ <;> rfl
    · rfl

lemma port_ne_zero_of_authority {A : ShareLib} {text : List UInt8} {defaultPort : Option UInt16}
    (h : authority A text defaultPort = .ok target) : target.port ≠ 0 := by
  obtain ⟨-, h⟩ := require_bind_eq_ok.mp h
  obtain ⟨⟨host, port⟩, -, h⟩ := bind_eq_ok.mp h
  obtain ⟨hport, h⟩ := require_bind_eq_ok.mp h
  obtain ⟨-, h⟩ := require_bind_eq_ok.mp h
  obtain ⟨_, -, h⟩ := bind_eq_ok.mp h
  cases h
  simpa using hport

/-- A request that is accepted names a port, and its sign-in is that of its headers. -/
lemma parseRequest_spec {A : ShareLib} {head : List UInt8}
    (h : parseRequest A head = .ok request) : request.target.port ≠ 0 ∧
      ∃ line headers, parseHead head = .ok (line, headers) ∧
        authorizationOf A.base64 headers = .ok request.authorization := by
  obtain ⟨⟨line, headers⟩, hhead, h⟩ := bind_eq_ok.mp h
  obtain ⟨authorization, hauth, h⟩ := bind_eq_ok.mp h
  simp only at h
  split at h
  · obtain ⟨target, htarget, h⟩ := bind_eq_ok.mp h
    cases h
    exact ⟨port_ne_zero_of_authority htarget, line, headers, hhead, hauth⟩
  · obtain ⟨_, -, h⟩ := bind_eq_ok.mp h
    obtain ⟨target, htarget, h⟩ := bind_eq_ok.mp h
    cases h
    exact ⟨port_ne_zero_of_authority htarget, line, headers, hhead, hauth⟩

lemma authorization_of_authorize {credentials : Credentials}
    (h : request.authorize credentials = .ok ()) :
    request.authorization = some (credentials.username, credentials.password) := by
  unfold Request.authorize at h
  split at h
  · cases h
  · rename_i username password hsome
    split at h
    · rename_i hmatch
      simp only [Credentials.isMatch, Bool.and_eq_true, beq_iff_eq] at hmatch
      rw [hsome, hmatch.1, hmatch.2]
    · cases h

/-- **Signed in.**  A connection has a target only when the credentials are in its bytes. -/
lemma presented_of_requestedTarget (h : requestedTarget S device first chunks = some target) :
    Presented S (first :: chunks.flatten) ∧ target.port ≠ 0 := by
  unfold requestedTarget at h
  split at h
  · rename_i hversion
    split at h
    · rename_i rest hrun
      cases h
      obtain ⟨⟨bytes, more, hsignIn, hinput⟩, hport⟩ := Socks5.negotiate_spec hrun
      exact ⟨.inl ⟨bytes, more, hsignIn, by rw [hversion, hinput]⟩, hport⟩
    · cases h
  · split at h
    · split at h
      · rename_i request rest later hsigned
        cases h
        obtain ⟨⟨head, _, _⟩, hread, hsigned⟩ := bind_eq_ok.mp hsigned
        obtain ⟨request', hparse, hsigned⟩ := bind_eq_ok.mp hsigned
        obtain ⟨_, hauth, hsigned⟩ := bind_eq_ok.mp hsigned
        cases hsigned
        obtain ⟨hport, line, headers, hhead, hauthorization⟩ := parseRequest_spec hparse
        rw [authorization_of_authorize hauth] at hauthorization
        exact ⟨.inr ⟨head, _, line, headers, splitHead_of_readHead hread, hhead, hauthorization⟩,
          hport⟩
      · cases h
    · cases h

end Handshake

/-! ### The calls of a dial -/

section Dial

variable {egress : Egress} {target : Target} {address : IpAddr} {port : UInt16}

variable {addresses : List IpAddr} {call : Call} {failure : DialFailure} {n : ℕ}

/-- The loop asks for the addresses that it is given and for nothing else. -/
lemma mem_tryAddresses (h : call ∈ (tryAddresses egress port n failure addresses).1) :
    ∃ address ∈ addresses, call = .connect address port := by
  induction addresses generalizing n failure with
  | nil => cases h
  | cons address addresses ih =>
    have hfirst : call ∈ [Call.connect address port] →
        ∃ address' ∈ address :: addresses, call = .connect address' port := fun hmem =>
      ⟨address, mem_cons_self, mem_singleton.mp hmem⟩
    simp only [tryAddresses] at h
    split at h
    · exact hfirst h
    · split at h
      · exact hfirst h
      · rcases mem_cons.mp h with rfl | h
        · exact ⟨address, mem_cons_self, rfl⟩
        · obtain ⟨address', hmem, rfl⟩ := ih h
          exact ⟨address', mem_cons_of_mem _ hmem, rfl⟩
    · exact hfirst h

lemma mem_connectTo {origin : Origin} (h : call ∈ (connectTo egress port addresses origin).1) :
    ∃ address ∈ candidates addresses origin egress.syntheticRange,
      call = .connect address port := by
  simp only [connectTo] at h
  split at h
  · cases h
  · exact mem_tryAddresses h

/-- The calls of a dial: the lookup of the target's name, and tries of the addresses. -/
lemma mem_dial (h : call ∈ (dial target egress).1) :
    (∃ name, target.host = .name name ∧ call = .resolve name) ∨
      ∃ address ∈ triedAddresses egress target, call = .connect address target.port := by
  unfold dial at h
  cases hhost : target.host with
  | address address =>
    rw [hhost] at h
    right
    simp only [triedAddresses, addressesOf, originOf, hhost]
    exact mem_connectTo h
  | name name =>
    rw [hhost] at h
    cases hresolve : egress.resolve name with
    | pending =>
      simp only [hresolve, mem_singleton] at h
      exact .inl ⟨name, rfl, h⟩
    | answered result =>
      cases result with
      | error error =>
        simp only [hresolve, mem_singleton] at h
        exact .inl ⟨name, rfl, h⟩
      | ok addresses =>
        simp only [hresolve] at h
        rcases mem_cons.mp h with rfl | h
        · exact .inl ⟨name, rfl, rfl⟩
        · right
          simp only [triedAddresses, addressesOf, originOf, hhost, hresolve]
          exact mem_connectTo h

/-- The same egress, where every try is refused. -/
def refusing (egress : Egress) : Egress := { egress with connect := fun _ => .answered (.error .refused) }

lemma mem_tryAddresses_refusing (h : address ∈ addresses) :
    .connect address port ∈ (tryAddresses (refusing egress) port n failure addresses).1 := by
  induction addresses generalizing n failure with
  | nil => cases h
  | cons first addresses ih =>
    have hcalls : (tryAddresses (refusing egress) port n failure (first :: addresses)).1
        = .connect first port ::
          (tryAddresses (refusing egress) port (n + 1) .refused addresses).1 := rfl
    rw [hcalls]
    rcases mem_cons.mp h with rfl | h
    · exact mem_cons_self
    · exact mem_cons_of_mem _ (ih h)

section

variable (h : address ∈ triedAddresses egress target)
include h

/-- When every try is refused, all of them are made. -/
lemma mem_dial_refusing : .connect address target.port ∈ (dial target (refusing egress)).1 := by
  have hconnect : ∀ {addresses : List IpAddr} {origin : Origin},
      address ∈ candidates addresses origin egress.syntheticRange →
      .connect address target.port
        ∈ (connectTo (refusing egress) target.port addresses origin).1 := by
    intro addresses origin hmem
    have hne : candidates addresses origin (refusing egress).syntheticRange ≠ [] :=
      ne_nil_of_mem hmem
    simp only [connectTo, if_neg hne]
    exact mem_tryAddresses_refusing hmem
  cases hhost : target.host with
  | address address' =>
    simp only [triedAddresses, addressesOf, originOf, hhost] at h
    simp only [dial, hhost]
    exact hconnect h
  | name name =>
    simp only [triedAddresses, addressesOf, originOf, hhost] at h
    split at h
    · rename_i addresses hresolve
      have hresolve' : (refusing egress).resolve name = .answered (.ok addresses) := hresolve
      simp only [dial, hhost, hresolve']
      exact mem_cons_of_mem _ (hconnect h)
    · cases h

/-- A tried address is from the resolver when the device gave a name. -/
lemma fromResolver_iff :
    FromResolver egress (dial target egress).1 address ↔ originOf target = .resolved := by
  have hmem : address ∈ addressesOf egress target :=
    (List.mem_filter.mp (mem_of_mem_take h)).1
  constructor
  · rintro ⟨name, addresses, hcall, -, -⟩
    rcases mem_dial hcall with ⟨name', hhost, -⟩ | ⟨_, -, heq⟩
    · simp only [originOf, hhost]
    · cases heq
  · intro horigin
    cases hhost : target.host with
    | address address' =>
      simp only [originOf, hhost] at horigin
      cases horigin
    | name name =>
      simp only [addressesOf, hhost] at hmem
      split at hmem
      · rename_i addresses hresolve
        refine ⟨name, addresses, ?_, hresolve, hmem⟩
        simp only [dial, hhost, hresolve]
        exact mem_cons_self
      · cases hmem

lemma allowed_of_mem_triedAddresses :
    allowed address (originOf target) egress.syntheticRange = true :=
  (List.mem_filter.mp (mem_of_mem_take h)).2

/-- What it means for an IPv4 address that a tried address stands for to be allowed. -/
lemma allowedIpv4_iff {inner : Text.Ipv4Addr} :
    allowedIpv4 inner (originOf target) egress.syntheticRange = true ↔
      isReserved inner = false ∨ FromResolver egress (dial target egress).1 address ∧
        (egress.syntheticRange.any fun range => range.contains inner) = true := by
  rw [fromResolver_iff h, allowedIpv4, isReserved, Bool.or_eq_true, Bool.and_eq_true, beq_iff_eq,
    Bool.not_eq_true', or_comm]

end

end Dial

/-- **What the share dials.**  Whatever the tries come to, the calls of a connection are made for a
device that has presented the credentials, with a port, and for addresses outside the reserved
networks, exactly when none of the addresses that may be tried is a Teredo address which wraps a
reserved one. -/
theorem dials_public_iff (S : Shared) (device : Device) (egress : Egress) (first : UInt8)
    (chunks : List (List UInt8)) : (∀ connect, Guarded S device { egress with connect } first chunks
        (serve S device { egress with connect } first chunks).calls) ↔
      ∀ target, requestedTarget S device first chunks = some target →
        ∀ address ∈ triedAddresses egress target,
          wrapsReserved address (originOf target) egress.syntheticRange = false := by
  constructor
  · intro hall target htarget address hmem
    -- let every try be refused, so that all of them are made
    have hguarded := hall (refusing egress).connect
    rw [calls_serve, htarget] at hguarded
    have hconnects := (hguarded.connects _ _ (mem_dial_refusing hmem)).2
    have hmem' : address ∈ triedAddresses (refusing egress) target := hmem
    refine (embedded_allowed_iff (allowed_of_mem_triedAddresses hmem)).mp fun inner hinner => ?_
    exact (allowedIpv4_iff hmem').mpr (hconnects inner hinner)
  · intro hcond connect
    rw [calls_serve]
    cases htarget : requestedTarget S device first chunks with
    | none => exact ⟨fun h => absurd rfl h, nofun⟩
    | some target =>
      obtain ⟨hpresented, hport⟩ := presented_of_requestedTarget htarget
      refine ⟨fun _ => ⟨hpresented, target, htarget, hport⟩, fun address port hcall => ?_⟩
      rcases mem_dial hcall with ⟨name, -, heq⟩ | ⟨address', hmem, heq⟩
      · cases heq
      · cases heq
        refine ⟨hport, fun inner hinner => (allowedIpv4_iff hmem).mp ?_⟩
        exact (embedded_allowed_iff (allowed_of_mem_triedAddresses hmem)).mpr
          (hcond target htarget address hmem) inner hinner

namespace Sample

/-- An egress without stand-in addresses that refuses every try. -/
def deafEgress : Egress := ⟨fun _ => .pending, fun _ => .answered (.error .refused), none⟩

/-- The Teredo address `2001:0:a00:1:0:0:f5ff:fffe`, of the server and the client `10.0.0.1`. -/
def teredo : BitVec 128 := 0x200100000a00000100000000f5fffffe

/-- A sign-in and a request to connect to the Teredo address, behind the version byte. -/
def socksStream : List UInt8 :=
  [1, 2, 1] ++ Socks5.field (Str.bytes "ket") ++ Socks5.field (Str.bytes "abcdefghjkmn") ++
    [5, 1, 0, 4] ++ toBigEndian 16 teredo.toNat ++ [1, 187]

end Sample

/-- A Teredo address with the private address `10.0.0.1` in it is dialled. -/
theorem teredo_is_dialled :
    (serve Sample.shared ⟨⟨true, true⟩, true⟩ Sample.deafEgress 5 [Sample.socksStream]).calls
        = [.connect (.v6 Sample.teredo) 443] ∧
      embeddedIpv4 (.v6 Sample.teredo) = [⟨10, 0, 0, 1⟩, ⟨10, 0, 0, 1⟩] ∧
      isReserved ⟨10, 0, 0, 1⟩ = true := by
  decide

end Ket.Share
