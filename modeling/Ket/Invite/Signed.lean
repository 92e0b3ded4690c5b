import Ket.Invite.KetProfile

/-!
# The signed invite (`invite-capsule/src/signed.rs`)

A capsule with its node's signature, and its canonical binary form.  Binary forms and valid
signed invites correspond one to one (`decode_canonicalBinary`): what decodes is the canonical
form of what it decodes to, and the canonical form of a valid invite decodes to it.
-/

namespace Ket.Invite

open Ket.Lib Ket.Lib.Parser

def maxBinaryInviteBytes : ℕ := 1024
def signedFields : ℕ := 2

structure SignedInvite (E : Ed25519) (P : InviteProfile) where
  capsule : InviteCapsule E P
  signature : Vector UInt8 64

namespace SignedInvite

variable {E : Ed25519} {P : InviteProfile}

/-- `SignedInvite::verify`: structure, then the signature, then expiry. -/
def verify (s : SignedInvite E P) (now : Option ℕ) : Except CapsuleError Unit := do
  let message ← s.capsule.signatureInput
  require (s.capsule.nodePublicKey.verify message s.signature) .invalidSignature
  s.capsule.validate now

/-- `SignedInvite::sign`. -/
def sign (capsule : InviteCapsule E P) (signingKey : NodeSigningKey) :
    Except CapsuleError (SignedInvite E P) := do
  require (decide (signingKey.publicKey E = capsule.nodePublicKey)) .nodeIdentityMismatch
  let message ← capsule.signatureInput
  return ⟨capsule, signingKey.sign E message⟩

/-- The two fields of the binary form. -/
def encodeFields (payload : List UInt8) (signature : Vector UInt8 64) : List UInt8 :=
  Cbor.encodeArray signedFields ++ (Cbor.encodeBytes payload ++ Cbor.encodeBytes signature.toList)

/-- `SignedInvite::canonical_binary`. -/
def canonicalBinary (s : SignedInvite E P) : Except CapsuleError (List UInt8) := do
  let payload ← s.capsule.canonicalPayload
  let output := encodeFields payload s.signature
  require (decide (output.length ≤ maxBinaryInviteBytes)) .tooLarge
  return output

/-- The two fields of the binary form, read in order. -/
def decodeFields : Decoder (List UInt8 × Vector UInt8 64) := do
  Cbor.array signedFields
  let payload ← Cbor.bytes maxBinaryInviteBytes
  let signature ← Cbor.exactBytes 64
  return (payload, signature)

/-- `SignedInvite::decode`. -/
def decode (E : Ed25519) (P : InviteProfile) (binary : List UInt8) (now : Option ℕ) :
    Except CapsuleError (SignedInvite E P) := do
  require (decide (binary ≠ [] ∧ binary.length ≤ maxBinaryInviteBytes)) .tooLarge
  let fields ← Parser.whole decodeFields .invalid binary
  let capsule ← InviteCapsule.decodePayload E P fields.1
  let signed : SignedInvite E P := ⟨capsule, fields.2⟩
  signed.verify now
  let canonical ← signed.canonicalBinary
  require (decide (canonical = binary)) .invalid
  return signed

variable {b payload : List UInt8} {now : Option ℕ}

variable {s : SignedInvite E P}

lemma of_canonicalBinary (h : s.canonicalBinary = .ok b) :
    ∃ payload, s.capsule.canonicalPayload = .ok payload ∧ b = encodeFields payload s.signature ∧
      b.length ≤ maxBinaryInviteBytes := by
  obtain ⟨payload, hpayload, h⟩ := bind_eq_ok.mp h
  obtain ⟨hsize, h⟩ := require_bind_eq_ok.mp h
  cases h
  exact ⟨payload, hpayload, rfl, of_decide_eq_true hsize⟩

lemma encodeFields_ne_nil (payload : List UInt8) (signature : Vector UInt8 64) :
    encodeFields payload signature ≠ [] := by
  have hhead : Cbor.encodeArray signedFields ≠ [] := by decide
  exact List.append_ne_nil_of_left_ne_nil hhead _

lemma length_le_of_encodeFields {signature : Vector UInt8 64}
    (h : (encodeFields payload signature).length ≤ maxBinaryInviteBytes) :
    payload.length ≤ maxBinaryInviteBytes := by
  simp only [encodeFields, Cbor.encodeBytes, List.length_append] at h
  omega

lemma reads_fields (signature : Vector UInt8 64) (h : payload.length ≤ maxBinaryInviteBytes) :
    Reads decodeFields (encodeFields payload signature) (payload, signature) := by
  refine (Cbor.reads_array (by decide)).bind ((Cbor.reads_bytes h (by decide)).bind ?_)
  exact (Cbor.reads_exactBytes signature (by decide)).bind_pure (Reads.pure _)

lemma canonicalBinary_of_decode (h : decode E P b now = .ok s) : s.canonicalBinary = .ok b := by
  obtain ⟨-, h⟩ := require_bind_eq_ok.mp h
  obtain ⟨fields, -, h⟩ := bind_eq_ok.mp h
  obtain ⟨capsule, -, h⟩ := bind_eq_ok.mp h
  obtain ⟨_, -, h⟩ := bind_eq_ok.mp h
  obtain ⟨canonical, hcanonical, h⟩ := bind_eq_ok.mp h
  obtain ⟨heq, h⟩ := require_bind_eq_ok.mp h
  cases h
  rw [hcanonical, of_decide_eq_true heq]

lemma decode_of_canonicalBinary (hverify : s.verify now = .ok ())
    (h : s.canonicalBinary = .ok b) : decode E P b now = .ok s := by
  obtain ⟨payload, hpayload, rfl, hsize⟩ := of_canonicalBinary h
  have hbounds : encodeFields payload s.signature ≠ [] ∧
      (encodeFields payload s.signature).length ≤ maxBinaryInviteBytes :=
    ⟨encodeFields_ne_nil payload s.signature, hsize⟩
  have hfields := (reads_fields s.signature (length_le_of_encodeFields hsize)).whole .invalid
  have hcapsule := InviteCapsule.decodePayload_canonicalPayload hpayload
  refine require_bind_eq_ok.mpr ⟨decide_eq_true hbounds, ?_⟩
  refine bind_eq_ok.mpr ⟨_, hfields, bind_eq_ok.mpr ⟨_, hcapsule, ?_⟩⟩
  refine bind_eq_ok.mpr ⟨(), hverify, bind_eq_ok.mpr ⟨_, h, ?_⟩⟩
  exact require_bind_eq_ok.mpr ⟨decide_eq_true rfl, rfl⟩

/-- **One encoding per invite.**  What decodes to an invite is its canonical form, and the
canonical form of a valid invite, where it has one within the size limit, decodes to it. -/
theorem decode_canonicalBinary (E : Ed25519) (P : InviteProfile) (b : List UInt8)
    (now : Option ℕ) (s : SignedInvite E P) :
    (decode E P b now = .ok s → s.canonicalBinary = .ok b) ∧
      (s.verify now = .ok () → s.canonicalBinary = .ok b → decode E P b now = .ok s) :=
  ⟨canonicalBinary_of_decode, decode_of_canonicalBinary⟩

/-- A signature scheme with one key and one signature, which meets what is assumed of Ed25519. -/
def toyEd25519 : Ed25519 where
  isPoint _ := true
  isWeak _ := false
  verifyStrict _ _ signature := decide (signature = Vector.replicate 64 7)
  publicKey _ := Vector.replicate 32 1
  sign _ _ := Vector.replicate 64 7
  publicKey_isPoint _ := rfl
  publicKey_ne_zero _ := by decide
  verifyStrict_sign _ _ := decide_eq_true rfl

/-- An invite for `ket.example.com` without an expiry. -/
def toyInvite : SignedInvite toyEd25519 ketInvite where
  capsule :=
    { nodePublicKey := (⟨Vector.replicate 32 0⟩ : NodeSigningKey).publicKey toyEd25519
      locators := [.https "ket.example.com" 443]
      capability := ⟨"abcdefghij0123456789ABCDEFGHIJ01", by decide, by decide⟩
      protocolMin := controlApiVersion
      protocolMax := sealedControlApiVersion
      expiresAt := none }
  signature := Vector.replicate 64 7

/-- The binary form of `toyInvite`. -/
def toyBinary : List UInt8 :=
  encodeFields toyInvite.capsule.encodeFields toyInvite.signature

theorem decode_toyBinary :
    toyInvite.verify none = .ok () ∧ toyInvite.canonicalBinary = .ok toyBinary ∧
      decode toyEd25519 ketInvite toyBinary none = .ok toyInvite := by
  have hverify : toyInvite.verify none = .ok () := by decide +kernel
  have hbinary : toyInvite.canonicalBinary = .ok toyBinary := by decide +kernel
  exact ⟨hverify, hbinary,
    (decode_canonicalBinary toyEd25519 ketInvite toyBinary none toyInvite).2 hverify hbinary⟩

end SignedInvite

/-! ### The decoder alone enforces the canonical form -/

/-- **Only the canonical payload passes the field decoders.**  A payload that the field decoders
accept to its end, with a valid capsule, is the canonical payload of that capsule, so that the
comparison afterwards refuses nothing. -/
theorem canonicalPayload_of_decodeFields (E : Ed25519) (payload : List UInt8)
    (c : InviteCapsule E ketInvite)
    (hfields : Parser.whole (InviteCapsule.decodeFields E ketInvite) .invalid payload = .ok c)
    (hvalid : c.validate none = .ok ()) :
    c.canonicalPayload = .ok payload ∧ InviteCapsule.decodePayload E ketInvite payload = .ok c := by
  have hpayload : payload = c.encodeFields :=
    (InviteCapsule.takes_fields AccessCode.takes_accessCode).whole hfields
  have hcanonical : c.canonicalPayload = .ok payload := by
    rw [hpayload]
    exact bind_eq_ok.mpr ⟨(), hvalid, rfl⟩
  exact ⟨hcanonical, InviteCapsule.decodePayload_canonicalPayload hcanonical⟩

theorem canonicalPayload_of_decodeFields_toy : SignedInvite.toyInvite.capsule.canonicalPayload =
        .ok SignedInvite.toyInvite.capsule.encodeFields ∧
      InviteCapsule.decodePayload SignedInvite.toyEd25519 ketInvite
          SignedInvite.toyInvite.capsule.encodeFields = .ok SignedInvite.toyInvite.capsule := by
  have hvalid : SignedInvite.toyInvite.capsule.validate none = .ok () := by decide
  exact canonicalPayload_of_decodeFields _ _ _ ((InviteCapsule.reads_fields hvalid).whole _) hvalid

end Ket.Invite
