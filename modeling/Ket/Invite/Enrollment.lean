import Ket.Invite.Text
import Mathlib.Data.Set.Function

/-!
# Node-authenticated enrollment (`ket-invite/src/enrollment.rs`)

The client sends a fresh nonce, and the node signs the exact response body that it returns for it.

A node signs invites and enrollments with one key.  `signature_inputs_separate` says that the bytes
it signs tell which of the two they are for, and all that was signed.
-/

namespace Ket.Invite

open Ket.Lib

def enrollmentNonceBytes : ℕ := 32

/-- `EnrollmentNonce`. -/
abbrev EnrollmentNonce : Type := Vector UInt8 enrollmentNonceBytes

namespace Enrollment

def signatureDomain : List UInt8 := Str.bytes "KET-ENROLLMENT-V1"

/-- `signature_input`: `domain || nonce || u32be(len(body)) || body`. -/
def signatureInput (nonce : EnrollmentNonce) (body : List UInt8) : List UInt8 :=
  signatureDomain ++ nonce.toList ++ toBigEndian 4 (min body.length 0xffffffff) ++ body

section Codec

variable (B : Base64Url)

/-- `decode_exact`. -/
def decodeExact (n : ℕ) (value : String) : Except CapsuleError (Vector UInt8 n) := do
  let decoded ← okOr (B.decode value.toList) .invalid
  let bytes ← if h : decoded.length = n then .ok ⟨decoded.toArray, h⟩ else .error .invalid
  require (decide (B.encode bytes.toList = value.toList)) .invalid
  return bytes

/-- `EnrollmentProof::sign`. -/
def sign (E : Ed25519) (signingKey : NodeSigningKey) (nonce : EnrollmentNonce) (body : List UInt8) :
    String :=
  String.ofList (B.encode (signingKey.sign E (signatureInput nonce body)).toList)

/-- `EnrollmentProof::verify`. -/
def verify {E : Ed25519} (key : NodePublicKey E) (nonce : EnrollmentNonce) (body : List UInt8)
    (headerValue : Option String) : Except CapsuleError Unit := do
  let signature ← okOr (headerValue.bind fun value => (decodeExact B 64 value).toOption)
    .nodeIdentityMismatch
  require (key.verify (signatureInput nonce body) signature) .nodeIdentityMismatch

end Codec

end Enrollment

lemma bytes_injective {s s' : String} (h : Str.bytes s = Str.bytes s') : s = s' := by
  have hread := Cbor.fromUtf8_bytes s
  rw [h, Cbor.fromUtf8_bytes] at hread
  exact (Except.ok.inj hread).symm

/-- What is signed for an invite tells the application and the payload. -/
lemma signatureInput_inj {domain : List UInt8} {id id' : String} {payload payload' : List UInt8}
    (hid : (Str.bytes id).length ≤ 65535) (hid' : (Str.bytes id').length ≤ 65535)
    (h : signatureInput domain id payload = signatureInput domain id' payload') :
    id = id' ∧ payload = payload' := by
  simp only [signatureInput, List.append_assoc, min_eq_left hid, min_eq_left hid'] at h
  obtain ⟨hbytes, hpayload⟩ := prefixed_inj (Nat.lt_succ_of_le hid) (Nat.lt_succ_of_le hid')
    (List.append_cancel_left h)
  exact ⟨bytes_injective hbytes, hpayload⟩

/-- What is signed for an enrollment tells the nonce and the body. -/
lemma Enrollment.signatureInput_inj {nonce nonce' : EnrollmentNonce} {body body' : List UInt8}
    (hbody : body.length < 2 ^ 32) (hbody' : body'.length < 2 ^ 32)
    (h : signatureInput nonce body = signatureInput nonce' body') : nonce = nonce' ∧ body = body' := by
  have hmin : ∀ {b : List UInt8}, b.length < 2 ^ 32 → min b.length 0xffffffff = b.length :=
    fun hb => min_eq_left (by omega)
  simp only [signatureInput, List.append_assoc, hmin hbody, hmin hbody'] at h
  obtain ⟨hnonce, hrest⟩ := List.append_inj (List.append_cancel_left h) (by simp)
  have hfield : toBigEndian 4 body.length ++ (body ++ [])
      = toBigEndian 4 body'.length ++ (body' ++ []) := by
    simpa using hrest
  exact ⟨Vector.toList_inj.mp hnonce, (prefixed_inj (by omega) (by omega) hfield).1⟩

/-- The two domains differ at their fifth byte, whatever follows them. -/
lemma signatureInput_ne (id : String) (payload : List UInt8) (nonce : EnrollmentNonce)
    (body : List UInt8) :
    signatureInput ketInvite.signatureDomain id payload ≠ Enrollment.signatureInput nonce body := by
  intro h
  have hbyte : (signatureInput ketInvite.signatureDomain id payload)[4]? = some 0x49 := by
    rw [signatureInput, List.append_assoc, List.append_assoc,
      List.getElem?_append_left (by decide)]
    decide
  have hbyte' : (Enrollment.signatureInput nonce body)[4]? = some 0x45 := by
    rw [Enrollment.signatureInput, List.append_assoc, List.append_assoc,
      List.getElem?_append_left (by decide)]
    decide
  rw [h, hbyte'] at hbyte
  exact absurd hbyte (by decide)

/-- **Signed messages never collide.**  For a fixed domain, the bytes that are signed for an invite
determine the application ID and the payload.  Those signed for an enrollment determine the nonce and
the body.  And no bytes are signed for both. -/
theorem signature_inputs_separate : (∀ domain : List UInt8, Set.InjOn
      (fun x : String × List UInt8 => signatureInput domain x.1 x.2)
      {x | (Str.bytes x.1).length ≤ 65535}) ∧
    Set.InjOn (fun x : EnrollmentNonce × List UInt8 => Enrollment.signatureInput x.1 x.2)
      {x | x.2.length < 2 ^ 32} ∧
    ∀ (id : String) (payload : List UInt8) (nonce : EnrollmentNonce) (body : List UInt8),
      signatureInput ketInvite.signatureDomain id payload
        ≠ Enrollment.signatureInput nonce body := by
  refine ⟨?_, ?_, signatureInput_ne⟩
  · rintro domain ⟨id, payload⟩ hid ⟨id', payload'⟩ hid' h
    obtain ⟨rfl, rfl⟩ := signatureInput_inj hid hid' h
    rfl
  · rintro ⟨nonce, body⟩ hbody ⟨nonce', body'⟩ hbody' h
    obtain ⟨rfl, rfl⟩ := Enrollment.signatureInput_inj hbody hbody' h
    rfl

end Ket.Invite
