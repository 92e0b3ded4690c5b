import Ket.Invite.NodeKey

/-!
# Locators (`invite-capsule/src/locator`)

Where a client reaches a node: the policy a locator must meet and its encoding.  The main
results are `reads_locator`, the encoding of a locator that passes the policy and is of an
accepted kind is read back, and `takes_locator`, nothing else is read.
-/

namespace Ket.Invite

open Ket.Lib Ket.Lib.Parser

def maxLocators : ℕ := 4
def locatorFields : ℕ := 3
def maxHostBytes : ℕ := 253

/-! ### Host policy (`locator/host.rs`) -/

/-- Suffixes that never name a public node. -/
def nonPublicSuffixes : List String :=
  ["local", "localhost", "internal", "onion", "i2p", "home.arpa", "test", "example", "invalid"]

/-- A label of 1 to 63 of `a-z`, `0-9` and inner hyphens. -/
def validLabel (label : List UInt8) : Bool :=
  decide (1 ≤ label.length ∧ label.length ≤ 63) && decide (label.head? ≠ some 0x2d) &&
    decide (label.getLast? ≠ some 0x2d) &&
    label.all fun b => isAsciiLowercase b || isAsciiDigit b || b == 0x2d

/-- A canonical lowercase public DNS name. -/
def validPublicDnsName (host : String) : Bool :=
  let bytes := Str.bytes host
  let labels := bytes.splitOn 0x2e
  decide (bytes ≠ [] ∧ bytes.length ≤ maxHostBytes) && decide (2 ≤ labels.length) &&
    labels.all validLabel && labels.getLast?.any (fun label => label.any isAsciiLowercase) &&
    !(nonPublicSuffixes.any fun suffix =>
      decide (host = suffix) || (Str.bytes ("." ++ suffix)).isSuffixOf bytes)

lemma bytes_length_le_of_validPublicDnsName {host : String} (h : validPublicDnsName host = true) :
    (Str.bytes host).length ≤ maxHostBytes := by
  simp only [validPublicDnsName, Bool.and_eq_true, decide_eq_true_eq] at h
  exact h.1.1.1.1.2

/-- `private::valid_onion_key`: a valid, non-weak Ed25519 key. -/
def validOnionKey (E : Ed25519) (key : Vector UInt8 32) : Bool := E.isPoint key && !(E.isWeak key)

/-! ### Locators (`locator/mod.rs`) -/

/-- The loopback addresses a development locator may name. -/
inductive LoopbackHost where
  | localhost
  | ipv4
  | ipv6
  | androidEmulator
deriving DecidableEq, Repr

namespace LoopbackHost

def tag : LoopbackHost → UInt64
  | localhost => 1
  | ipv4 => 2
  | ipv6 => 3
  | androidEmulator => 4

def fromTag (tag : UInt64) : Except CapsuleError LoopbackHost :=
  if tag = 1 then .ok localhost
  else if tag = 2 then .ok ipv4
  else if tag = 3 then .ok ipv6
  else if tag = 4 then .ok androidEmulator
  else .error .unsafeLocator

lemma fromTag_tag (host : LoopbackHost) : fromTag host.tag = .ok host := by
  cases host <;> rfl

lemma tag_of_fromTag {tag : UInt64} {host : LoopbackHost} (h : fromTag tag = .ok host) :
    host.tag = tag := by
  unfold fromTag at h
  split_ifs at h with h1 h2 h3 h4
  all_goals
    cases h
    exact Eq.symm ‹_›

end LoopbackHost

/-- One way to reach a node. -/
inductive Locator where
  | https (host : String) (port : UInt16)
  | loopbackDevelopment (host : LoopbackHost) (port : UInt16)
  | onionV3 (serviceIdentity : Vector UInt8 32) (port : UInt16)
  | i2pB32 (destinationHash : Vector UInt8 32) (port : UInt16)
deriving DecidableEq

def tagHttps : UInt64 := 1
def tagLoopbackDevelopment : UInt64 := 2
def tagOnionV3 : UInt64 := 3
def tagI2pB32 : UInt64 := 4

/-- The locator kinds an application accepts. -/
structure LocatorKinds where
  https : Bool
  loopbackDevelopment : Bool
  onionV3 : Bool
  i2pB32 : Bool
deriving DecidableEq, Repr

namespace Locator

def tag : Locator → UInt64
  | https .. => tagHttps
  | loopbackDevelopment .. => tagLoopbackDevelopment
  | onionV3 .. => tagOnionV3
  | i2pB32 .. => tagI2pB32

def port : Locator → UInt16
  | https _ port => port
  | loopbackDevelopment _ port => port
  | onionV3 _ port => port
  | i2pB32 _ port => port

def isValid (E : Ed25519) : Locator → Bool
  | https host port => decide (port ≠ 0) && validPublicDnsName host
  | loopbackDevelopment _ port => decide (port ≠ 0)
  | onionV3 serviceIdentity port => decide (port ≠ 0) && validOnionKey E serviceIdentity
  | i2pB32 destinationHash port =>
    decide (port ≠ 0) && decide (destinationHash ≠ Vector.replicate 32 0)

/-- `Locator::validate`. -/
def validate (E : Ed25519) (l : Locator) : Except CapsuleError Unit :=
  require (l.isValid E) .unsafeLocator

end Locator

namespace LocatorKinds

/-- Public HTTPS plus development loopback. -/
def clearnet : LocatorKinds := ⟨true, true, false, false⟩

def acceptsTag (kinds : LocatorKinds) (tag : UInt64) : Bool :=
  if tag = tagHttps then kinds.https
  else if tag = tagLoopbackDevelopment then kinds.loopbackDevelopment
  else if tag = tagOnionV3 then kinds.onionV3
  else if tag = tagI2pB32 then kinds.i2pB32
  else false

def accepts (kinds : LocatorKinds) (l : Locator) : Bool := kinds.acceptsTag l.tag

end LocatorKinds

/-- `u16::try_from`. -/
def tryIntoU16 (value : UInt64) (e : CapsuleError) : Except CapsuleError UInt16 :=
  if value.toNat ≤ 0xffff then .ok value.toUInt16 else .error e

lemma tryIntoU16_toUInt64 (value : UInt16) (e : CapsuleError) :
    tryIntoU16 value.toUInt64 e = .ok value := by
  have h : value.toUInt64.toNat ≤ 0xffff := by
    have := value.toNat_lt
    simp only [UInt16.toNat_toUInt64]
    omega
  rw [tryIntoU16, if_pos h]
  simp

lemma toUInt64_of_tryIntoU16 {value : UInt64} {e : CapsuleError} {port : UInt16}
    (h : tryIntoU16 value e = .ok port) : port.toUInt64 = value := by
  unfold tryIntoU16 at h
  split_ifs at h with hle
  cases h
  apply UInt64.toNat_inj.mp
  rw [UInt16.toNat_toUInt64, UInt64.toNat_toUInt16]
  exact Nat.mod_eq_of_lt (Nat.lt_succ_of_le hle)

def decodePort : Decoder UInt16 := do
  let value ← Cbor.uint
  Parser.lift (tryIntoU16 value .unsafeLocator)

lemma reads_port (port : UInt16) : Reads decodePort (Cbor.encodeUint port.toUInt64) port :=
  (Cbor.reads_uint _).bind_pure (Reads.lift (tryIntoU16_toUInt64 port _))

lemma takes_port : Takes decodePort fun port => Cbor.encodeUint port.toUInt64 := by
  intro input port rest h
  obtain ⟨value, mid, huint, h⟩ := run_bind_eq_ok.mp h
  obtain ⟨hport, rfl⟩ := run_lift_eq_ok.mp h
  rw [Cbor.takes_uint huint, ← toUInt64_of_tryIntoU16 hport]

namespace Locator

/-- The field between the tag and the port. -/
def encodeHost : Locator → List UInt8
  | https host _ => Cbor.encodeText host
  | loopbackDevelopment host _ => Cbor.encodeUint host.tag
  | onionV3 serviceIdentity _ => Cbor.encodeBytes serviceIdentity.toList
  | i2pB32 destinationHash _ => Cbor.encodeBytes destinationHash.toList

/-- `Locator::encode`. -/
def encode (l : Locator) : List UInt8 :=
  Cbor.encodeArray locatorFields ++ (Cbor.encodeUint l.tag ++
    (l.encodeHost ++ Cbor.encodeUint l.port.toUInt64))

/-- The fields after the tag. -/
def decodeBody (tag : UInt64) : Decoder Locator :=
  if tag = tagHttps then do
    let host ← Cbor.text maxHostBytes
    let port ← decodePort
    return https host port
  else if tag = tagLoopbackDevelopment then do
    let hostTag ← Cbor.uint
    let host ← Parser.lift (LoopbackHost.fromTag hostTag)
    let port ← decodePort
    return loopbackDevelopment host port
  else if tag = tagOnionV3 then do
    let serviceIdentity ← Cbor.exactBytes 32
    let port ← decodePort
    return onionV3 serviceIdentity port
  else if tag = tagI2pB32 then do
    let destinationHash ← Cbor.exactBytes 32
    let port ← decodePort
    return i2pB32 destinationHash port
  else Parser.lift (.error .unsupportedLocator)

/-- `Locator::decode`. -/
def decode (E : Ed25519) (accepted : LocatorKinds) : Decoder Locator := do
  Cbor.array locatorFields
  let tag ← Cbor.uint
  check (accepted.acceptsTag tag) .unsupportedLocator
  let l ← decodeBody tag
  Parser.lift (l.validate E)
  return l

variable {E : Ed25519} {l : Locator} {input rest : List UInt8}

/-- The fields after the tag are read back, for each kind of locator. -/
lemma reads_body (l : Locator) (h : l.isValid E = true) :
    Reads (decodeBody l.tag) (l.encodeHost ++ Cbor.encodeUint l.port.toUInt64) l := by
  cases l with
  | https host port =>
    have hlen := bytes_length_le_of_validPublicDnsName (Bool.and_eq_true_iff.mp h).2
    exact (Cbor.reads_text hlen (by decide)).bind
      ((reads_port port).bind_pure (Reads.pure _))
  | loopbackDevelopment host port =>
    exact (Cbor.reads_uint host.tag).bind
      ((Reads.lift host.fromTag_tag).bind_nil ((reads_port port).bind_pure (Reads.pure _)))
  | onionV3 serviceIdentity port =>
    exact (Cbor.reads_exactBytes serviceIdentity (by decide)).bind
      ((reads_port port).bind_pure (Reads.pure _))
  | i2pB32 destinationHash port =>
    exact (Cbor.reads_exactBytes destinationHash (by decide)).bind
      ((reads_port port).bind_pure (Reads.pure _))

/-- A valid locator of an accepted kind is read back from its encoding. -/
theorem reads_locator {accepted : LocatorKinds} (hkind : accepted.accepts l = true)
    (hvalid : l.isValid E = true) : Reads (decode E accepted) l.encode l := by
  refine (Cbor.reads_array (by decide)).bind ((Cbor.reads_uint l.tag).bind ?_)
  refine (reads_check hkind _).bind_nil ((reads_body l hvalid).bind_pure ?_)
  exact (reads_check hvalid _).bind_nil (Reads.pure l)

/-- The port is the last field of each kind of locator. -/
lemma of_decodePort {new : UInt16 → Locator}
    (h : (do let port ← decodePort; return new port : Decoder Locator).run input =
      .ok (l, rest)) : ∃ port, l = new port ∧ input = Cbor.encodeUint port.toUInt64 ++ rest := by
  obtain ⟨port, mid, hport, h⟩ := run_bind_eq_ok.mp h
  obtain ⟨rfl, rfl⟩ := run_pure_eq_ok.mp h
  exact ⟨port, rfl, takes_port hport⟩

lemma of_decodeBody {tag : UInt64} (h : (decodeBody tag).run input = .ok (l, rest)) :
    l.tag = tag ∧ input = l.encodeHost ++ (Cbor.encodeUint l.port.toUInt64 ++ rest) := by
  unfold decodeBody at h
  split_ifs at h with hhttps hloopback honion hi2p
  · obtain ⟨host, mid, hhost, h⟩ := run_bind_eq_ok.mp h
    obtain ⟨port, rfl, rfl⟩ := of_decodePort h
    exact ⟨hhttps.symm, Cbor.takes_text _ hhost⟩
  · obtain ⟨hostTag, mid, hhost, h⟩ := run_bind_eq_ok.mp h
    obtain ⟨host, hfromTag, h⟩ := run_lift_bind_eq_ok.mp h
    obtain ⟨port, rfl, rfl⟩ := of_decodePort h
    refine ⟨hloopback.symm, ?_⟩
    rw [Cbor.takes_uint hhost, ← LoopbackHost.tag_of_fromTag hfromTag]
    rfl
  · obtain ⟨serviceIdentity, mid, hidentity, h⟩ := run_bind_eq_ok.mp h
    obtain ⟨port, rfl, rfl⟩ := of_decodePort h
    exact ⟨honion.symm, Cbor.takes_exactBytes _ hidentity⟩
  · obtain ⟨destinationHash, mid, hhash, h⟩ := run_bind_eq_ok.mp h
    obtain ⟨port, rfl, rfl⟩ := of_decodePort h
    exact ⟨hi2p.symm, Cbor.takes_exactBytes _ hhash⟩
  · cases (run_lift_eq_ok.mp h).1

/-- Nothing but the encoding of a locator is read as one. -/
theorem takes_locator (E : Ed25519) (accepted : LocatorKinds) :
    Takes (decode E accepted) encode := by
  intro input l rest h
  obtain ⟨_, mid, harray, h⟩ := run_bind_eq_ok.mp h
  obtain ⟨tag, mid', htag, h⟩ := run_bind_eq_ok.mp h
  obtain ⟨-, h⟩ := run_check_bind_eq_ok.mp h
  obtain ⟨l', mid'', hbody, h⟩ := run_bind_eq_ok.mp h
  obtain ⟨-, h⟩ := run_check_bind_eq_ok.mp h
  obtain ⟨rfl, rfl⟩ := run_pure_eq_ok.mp h
  obtain ⟨rfl, hfields⟩ := of_decodeBody hbody
  rw [Cbor.takes_array _ harray, Cbor.takes_uint htag, hfields]
  simp only [encode, List.append_assoc]

end Locator

/-! ### Sets of locators -/

/-- The loop of `validate_locator_set`; `seen` are the locators before. -/
def validateLocators (E : Ed25519) (accepted : LocatorKinds) (seen : List Locator) :
    List Locator → Except CapsuleError Unit
  | [] => .ok ()
  | l :: ls => do
      require (accepted.accepts l) .unsupportedLocator
      l.validate E
      require (!(seen.contains l)) .invalid
      validateLocators E accepted (seen ++ [l]) ls

/-- `validate_locator_set`. -/
def validateLocatorSet (E : Ed25519) (locators : List Locator) (accepted : LocatorKinds) :
    Except CapsuleError Unit := do
  require (decide (locators ≠ [] ∧ locators.length ≤ maxLocators)) .invalid
  validateLocators E accepted [] locators

lemma mem_of_validateLocators {E : Ed25519} {accepted : LocatorKinds} {seen ls : List Locator}
    (h : validateLocators E accepted seen ls = .ok ()) :
    ∀ l ∈ ls, accepted.accepts l = true ∧ l.isValid E = true := by
  induction ls generalizing seen with
  | nil => simp
  | cons l ls ih =>
    obtain ⟨hkind, h⟩ := require_bind_eq_ok.mp h
    obtain ⟨_, hvalid, h⟩ := bind_eq_ok.mp h
    obtain ⟨-, h⟩ := require_bind_eq_ok.mp h
    intro l' hl'
    rcases List.mem_cons.mp hl' with rfl | hl'
    · exact ⟨hkind, require_eq_ok.mp hvalid⟩
    · exact ih h l' hl'

/-- An accepted set has 1 to 4 locators, each valid and of an accepted kind. -/
lemma of_validateLocatorSet {E : Ed25519} {accepted : LocatorKinds} {ls : List Locator}
    (h : validateLocatorSet E ls accepted = .ok ()) : ls ≠ [] ∧ ls.length ≤ maxLocators ∧
      ∀ l ∈ ls, accepted.accepts l = true ∧ l.isValid E = true := by
  obtain ⟨hsize, h⟩ := require_bind_eq_ok.mp h
  obtain ⟨hne, hle⟩ := of_decide_eq_true hsize
  exact ⟨hne, hle, mem_of_validateLocators h⟩

end Ket.Invite
