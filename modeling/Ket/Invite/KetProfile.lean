import Ket.Invite.Capsule
import Ket.Lib.Str

/-!
# Ket's profile of the invite format (`ket-invite/src/profile.rs`)
-/

namespace Ket.Invite

open Ket.Lib Ket.Lib.Parser

def ketApplicationId : String := "org.ket.access"
def controlApiVersion : UInt16 := 1
def sealedControlApiVersion : UInt16 := 2
def accessCodeBytes : ℕ := 32
def capabilityAccessGrant : UInt64 := 1

/-- The bearer access code an invite carries: exactly 32 ASCII letters and digits. -/
structure AccessCode where
  code : String
  length_eq : (Str.bytes code).length = accessCodeBytes
  alphanumeric : Str.allAsciiAlphanumeric code = true
deriving DecidableEq

namespace AccessCode

/-- `AccessCode::new`. -/
def new (code : String) : Except CapsuleError AccessCode :=
  if h : (Str.bytes code).length = accessCodeBytes ∧ Str.allAsciiAlphanumeric code = true then
    .ok ⟨code, h.1, h.2⟩
  else .error .invalid

lemma new_code (c : AccessCode) : new c.code = .ok c := dif_pos ⟨c.length_eq, c.alphanumeric⟩

def encode (c : AccessCode) : List UInt8 := Cbor.encodeText c.code

def decode : Decoder AccessCode := do
  let code ← Cbor.text accessCodeBytes
  Parser.lift (new code)

lemma reads_accessCode (c : AccessCode) : Reads decode c.encode c :=
  (Cbor.reads_text c.length_eq.le (by decide)).bind_pure (Reads.lift c.new_code)

lemma code_of_new {code : String} {c : AccessCode} (h : new code = .ok c) : c.code = code := by
  unfold new at h
  split_ifs at h
  cases h
  rfl

lemma takes_accessCode : Takes decode encode := by
  intro input c rest h
  obtain ⟨code, mid, htext, h⟩ := run_bind_eq_ok.mp h
  obtain ⟨hnew, rfl⟩ := run_lift_eq_ok.mp h
  rw [Cbor.takes_text _ htext, ← code_of_new hnew, encode]

end AccessCode

/-- `KetInvite`. -/
def ketInvite : InviteProfile where
  applicationId := ketApplicationId
  applicationId_length := by decide
  signatureDomain := Str.bytes "KET-INVITE-CAPSULE-V1"
  capabilityType := capabilityAccessGrant
  locators := LocatorKinds.clearnet
  Capability := AccessCode
  encodeCapability := AccessCode.encode
  decodeCapability := AccessCode.decode
  reads_capability := AccessCode.reads_accessCode

end Ket.Invite
