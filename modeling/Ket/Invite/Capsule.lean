import Ket.Invite.Locator

/-!
# The invite capsule (`invite-capsule/src/capsule.rs`, `profile.rs`)

The authenticated content of an invite and its canonical payload.  An application's profile is a
structure: its fields are what the trait asks of an application, with the two conditions the
trait states, that the application ID has at most 64 bytes and that the capability is written
as one item that its decoder reads.

The main results are `decodePayload_canonicalPayload`, a capsule is decoded from its payload, and
`takes_fields`, the field decoders accept no other form of the payload when the capability's
decoder accepts no other form of the capability.
-/

namespace Ket.Invite

open Ket.Lib Ket.Lib.Parser

def inviteFormatVersion : UInt64 := 1
def maxApplicationIdBytes : ℕ := 64
def payloadFields : ℕ := 10
def flags : UInt64 := 0

/-- `InviteProfile` with its `Capability`: what an application contributes to the format. -/
structure InviteProfile where
  applicationId : String
  applicationId_length : (Str.bytes applicationId).length ≤ maxApplicationIdBytes
  signatureDomain : List UInt8
  capabilityType : UInt64
  locators : LocatorKinds
  Capability : Type
  encodeCapability : Capability → List UInt8
  decodeCapability : Decoder Capability
  reads_capability : ∀ c, Reads decodeCapability (encodeCapability c) c

/-- The content of an invite for the profile `P`. -/
structure InviteCapsule (E : Ed25519) (P : InviteProfile) where
  nodePublicKey : NodePublicKey E
  locators : List Locator
  capability : P.Capability
  protocolMin : UInt16
  protocolMax : UInt16
  expiresAt : Option UInt64

def protocolVersion : Decoder UInt16 := do
  let value ← Cbor.uint
  Parser.lift (tryIntoU16 value .invalid)

lemma reads_protocolVersion (version : UInt16) :
    Reads protocolVersion (Cbor.encodeUint version.toUInt64) version :=
  (Cbor.reads_uint _).bind_pure (Reads.lift (tryIntoU16_toUInt64 version _))

lemma takes_protocolVersion :
    Takes protocolVersion fun version => Cbor.encodeUint version.toUInt64 := by
  intro input version rest h
  obtain ⟨value, mid, huint, h⟩ := run_bind_eq_ok.mp h
  obtain ⟨hversion, rfl⟩ := run_lift_eq_ok.mp h
  rw [Cbor.takes_uint huint, ← toUInt64_of_tryIntoU16 hversion]

namespace InviteCapsule

variable {E : Ed25519} {P : InviteProfile}

variable (c : InviteCapsule E P)

/-- Expiry is exclusive. -/
def isExpiredAt (now : ℕ) : Bool :=
  c.expiresAt.any fun expiry => decide (expiry.toNat ≤ now)

/-- `InviteCapsule::validate`: structure first, then (when `now` is given) expiry. -/
def validate (now : Option ℕ) : Except CapsuleError Unit := do
  require (decide (c.protocolMin ≠ 0 ∧ c.protocolMin ≤ c.protocolMax)) .invalid
  validateLocatorSet E c.locators P.locators
  require (!(now.any c.isExpiredAt)) .expired

/-- The fields of the payload, in order. -/
def encodeFields : List UInt8 :=
  Cbor.encodeArray payloadFields ++ (Cbor.encodeUint inviteFormatVersion ++
    (Cbor.encodeText P.applicationId ++ (Cbor.encodeUint P.capabilityType ++
      (Cbor.encodeBytes c.nodePublicKey.bytes.toList ++ (Cbor.encodeArray c.locators.length ++
        (c.locators.flatMap Locator.encode ++ (P.encodeCapability c.capability ++
          (Cbor.encodeUint c.protocolMin.toUInt64 ++ (Cbor.encodeUint c.protocolMax.toUInt64 ++
            (Cbor.encodeUint flags ++ Cbor.encodeOptionalUint c.expiresAt))))))))))

/-- `InviteCapsule::canonical_payload`. -/
def canonicalPayload : Except CapsuleError (List UInt8) := do
  c.validate none
  return c.encodeFields

/-- The fields of a payload, read in order. -/
def decodeFields (E : Ed25519) (P : InviteProfile) : Decoder (InviteCapsule E P) := do
  Cbor.array payloadFields
  let version ← Cbor.uint
  check (decide (version = inviteFormatVersion)) .unsupportedVersion
  let applicationId ← Cbor.text maxApplicationIdBytes
  check (decide (applicationId = P.applicationId)) .wrongApplication
  let capabilityType ← Cbor.uint
  check (decide (capabilityType = P.capabilityType)) .unsupportedCapability
  let nodeKey ← Cbor.exactBytes 32
  let nodePublicKey ← Parser.lift (NodePublicKey.fromBytes E nodeKey)
  let locatorCount ← Cbor.arrayLen
  check (decide (locatorCount ≠ 0 ∧ locatorCount ≤ maxLocators)) .invalid
  let locators ← Parser.times (Locator.decode E P.locators) locatorCount
  let capability ← P.decodeCapability
  let protocolMin ← protocolVersion
  let protocolMax ← protocolVersion
  let readFlags ← Cbor.uint
  check (decide (readFlags = flags)) .invalid
  let expiresAt ← Cbor.optionalUint
  return ⟨nodePublicKey, locators, capability, protocolMin, protocolMax, expiresAt⟩

/-- `InviteCapsule::decode_payload`: the payload must be the canonical encoding of what was
read. -/
def decodePayload (E : Ed25519) (P : InviteProfile) (payload : List UInt8) :
    Except CapsuleError (InviteCapsule E P) := do
  let c ← Parser.whole (decodeFields E P) .invalid payload
  let canonical ← c.canonicalPayload
  require (decide (canonical = payload)) .invalid
  return c

/-- `InviteCapsule::signature_input`. -/
def signatureInput (c : InviteCapsule E P) : Except CapsuleError (List UInt8) := do
  let payload ← c.canonicalPayload
  return Invite.signatureInput P.signatureDomain P.applicationId payload

/-! ### The payload is read back -/

lemma of_canonicalPayload {c : InviteCapsule E P} {payload : List UInt8}
    (h : c.canonicalPayload = .ok payload) : c.validate none = .ok () ∧ payload = c.encodeFields := by
  obtain ⟨_, hvalid, h⟩ := bind_eq_ok.mp h
  cases h
  exact ⟨hvalid, rfl⟩

lemma locators_of_validate {c : InviteCapsule E P} {now : Option ℕ}
    (h : c.validate now = .ok ()) : validateLocatorSet E c.locators P.locators = .ok () := by
  obtain ⟨-, h⟩ := require_bind_eq_ok.mp h
  obtain ⟨_, hlocators, -⟩ := bind_eq_ok.mp h
  exact hlocators

/-- The fields of a valid capsule are read back. -/
lemma reads_fields {c : InviteCapsule E P} (h : c.validate none = .ok ()) :
    Reads (decodeFields E P) c.encodeFields c := by
  obtain ⟨hne, hle, hlocators⟩ := of_validateLocatorSet (locators_of_validate h)
  have hcount : c.locators.length < 2 ^ 64 := lt_of_le_of_lt hle (by decide)
  have hlen : c.locators.length ≠ 0 ∧ c.locators.length ≤ maxLocators :=
    ⟨fun h0 => hne (List.length_eq_zero_iff.mp h0), hle⟩
  have hreads : ∀ l ∈ c.locators, Reads (Locator.decode E P.locators) l.encode l := fun l hl =>
    Locator.reads_locator (hlocators l hl).1 (hlocators l hl).2
  refine (Cbor.reads_array (by decide)).bind ((Cbor.reads_uint _).bind ?_)
  refine (reads_check (decide_eq_true rfl) _).bind_nil ?_
  refine (Cbor.reads_text P.applicationId_length (by decide)).bind ?_
  refine (reads_check (decide_eq_true rfl) _).bind_nil ((Cbor.reads_uint _).bind ?_)
  refine (reads_check (decide_eq_true rfl) _).bind_nil ?_
  refine (Cbor.reads_exactBytes c.nodePublicKey.bytes (by decide)).bind ?_
  refine (Reads.lift c.nodePublicKey.fromBytes_bytes).bind_nil ?_
  refine (Cbor.reads_length (by decide) hcount).bind ?_
  refine (reads_check (decide_eq_true hlen) _).bind_nil ((Reads.times hreads).bind ?_)
  refine (P.reads_capability c.capability).bind ((reads_protocolVersion _).bind ?_)
  refine (reads_protocolVersion _).bind ((Cbor.reads_uint _).bind ?_)
  refine (reads_check (decide_eq_true rfl) _).bind_nil ?_
  exact (Cbor.reads_optionalUint c.expiresAt).bind_pure (Reads.pure c)

/-- A capsule is decoded from its canonical payload. -/
theorem decodePayload_canonicalPayload {c : InviteCapsule E P} {payload : List UInt8}
    (h : c.canonicalPayload = .ok payload) : decodePayload E P payload = .ok c := by
  obtain ⟨hvalid, rfl⟩ := of_canonicalPayload h
  rw [decodePayload, (reads_fields hvalid).whole]
  refine bind_eq_ok.mpr ⟨c, rfl, bind_eq_ok.mpr ⟨_, h, ?_⟩⟩
  exact require_bind_eq_ok.mpr ⟨decide_eq_true rfl, rfl⟩

/-! ### Nothing but the payload is read -/

/-- What the field decoders accept is what `canonicalPayload` writes. -/
theorem takes_fields (hcapability : Takes P.decodeCapability P.encodeCapability) :
    Takes (decodeFields E P) encodeFields := by
  intro input c rest h
  -- the decoders one by one; each says what it took off the input
  obtain ⟨_, input₁, harray, h⟩ := run_bind_eq_ok.mp h
  obtain ⟨version, input₂, hversion, h⟩ := run_bind_eq_ok.mp h
  obtain ⟨hformat, h⟩ := run_check_bind_eq_ok.mp h
  obtain ⟨applicationId, input₃, hid, h⟩ := run_bind_eq_ok.mp h
  obtain ⟨happlication, h⟩ := run_check_bind_eq_ok.mp h
  obtain ⟨capabilityType, input₄, htype, h⟩ := run_bind_eq_ok.mp h
  obtain ⟨hcapabilityType, h⟩ := run_check_bind_eq_ok.mp h
  obtain ⟨nodeKey, input₅, hkey, h⟩ := run_bind_eq_ok.mp h
  obtain ⟨nodePublicKey, hnode, h⟩ := run_lift_bind_eq_ok.mp h
  obtain ⟨locatorCount, input₆, hcount, h⟩ := run_bind_eq_ok.mp h
  obtain ⟨-, h⟩ := run_check_bind_eq_ok.mp h
  obtain ⟨locators, input₇, hlocators, h⟩ := run_bind_eq_ok.mp h
  obtain ⟨capability, input₈, hread, h⟩ := run_bind_eq_ok.mp h
  obtain ⟨protocolMin, input₉, hmin, h⟩ := run_bind_eq_ok.mp h
  obtain ⟨protocolMax, input₁₀, hmax, h⟩ := run_bind_eq_ok.mp h
  obtain ⟨readFlags, input₁₁, hflags, h⟩ := run_bind_eq_ok.mp h
  obtain ⟨hzero, h⟩ := run_check_bind_eq_ok.mp h
  obtain ⟨expiresAt, input₁₂, hexpiry, h⟩ := run_bind_eq_ok.mp h
  obtain ⟨rfl, rfl⟩ := run_pure_eq_ok.mp h
  obtain ⟨rfl, hlist⟩ := (Locator.takes_locator E P.locators).times hlocators
  rw [Cbor.takes_array _ harray, Cbor.takes_uint hversion, of_decide_eq_true hformat,
    Cbor.takes_text _ hid, of_decide_eq_true happlication, Cbor.takes_uint htype,
    of_decide_eq_true hcapabilityType, Cbor.takes_exactBytes _ hkey,
    ← NodePublicKey.bytes_of_fromBytes hnode, (Cbor.of_length hcount).1, hlist,
    hcapability hread, takes_protocolVersion hmin, takes_protocolVersion hmax,
    Cbor.takes_uint hflags, of_decide_eq_true hzero, Cbor.takes_optionalUint hexpiry]
  simp only [encodeFields, Cbor.encodeArray, List.append_assoc]

end InviteCapsule

end Ket.Invite
