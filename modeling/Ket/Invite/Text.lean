import Ket.Invite.Manual
import Ket.Lib.Encoding

/-!
# The text forms of an invite (`invite-capsule/src/text/mod.rs`, `signed.rs`)

The text form is the binary form in base64 for URLs after a lead such as `ket:invite:`, which may be
left out.  Ket has no hand-typeable form, so its texts and invites correspond one to one up to the
lead (`texts_one_to_one`).
-/

namespace Ket.Invite

open Ket.Lib

def maxEncodedInviteTextBytes : ℕ := 2048

/-- The text forms of a profile. -/
structure TextProfile extends InviteProfile where
  /-- Such as `app:invite:`. -/
  textLead : String
  manualText : Option ManualText

section Codec

variable (B : Base64Url)

/-- `encode_base64url`. -/
def encodeBase64Url (lead : String) (binary : List UInt8) : String :=
  lead ++ String.ofList (B.encode binary)

/-- A text without its optional lead. -/
def withoutLead (lead input : String) : String := (Str.stripStart input lead).getD input

/-- `decode_base64url`: strict, with an optional exact lead. -/
def decodeBase64Url (lead input : String) : Except CapsuleError (List UInt8) := do
  let encoded := (withoutLead lead input).toList
  require (decide (encoded ≠ []) && encoded.all isBase64Url) .invalid
  let binary ← okOr (B.decode encoded) .invalid
  require (decide (binary.length ≤ maxBinaryInviteBytes)) .tooLarge
  require (decide (B.encode binary = encoded)) .invalid
  return binary

namespace SignedInvite

variable {E : Ed25519} {P : TextProfile}

/-- `SignedInvite::to_text`. -/
def toText (P : TextProfile) (s : SignedInvite E P.toInviteProfile) :
    Except CapsuleError String := do
  let binary ← s.canonicalBinary
  return encodeBase64Url B P.textLead binary

/-- The binary form of a text, which is in the hand-typeable form if it has the lead of that. -/
def binaryOfText (sha256 : List UInt8 → Vector UInt8 32) (P : TextProfile) (input : String) :
    Except CapsuleError (List UInt8) :=
  match P.manualText with
  | some form =>
    if hasLead input form.lead then decodeManual sha256 form (Str.bytes input)
    else decodeBase64Url B P.textLead input
  | none => decodeBase64Url B P.textLead input

/-- `SignedInvite::from_text`. -/
def fromText (E : Ed25519) (sha256 : List UInt8 → Vector UInt8 32) (P : TextProfile)
    (input : String) (now : Option ℕ) : Except CapsuleError (SignedInvite E P.toInviteProfile) := do
  require (decide (input ≠ "" ∧ Str.len input ≤ maxEncodedInviteTextBytes)) .tooLarge
  let binary ← binaryOfText B sha256 P input
  decode E P.toInviteProfile binary now

end SignedInvite

end Codec

/-- The text forms of `KetInvite`. -/
def ketText : TextProfile := { ketInvite with
  textLead := "ket:invite:"
  manualText := none }

/-! ### The base64 form -/

@[simp] lemma withoutLead_append (lead s : String) : withoutLead lead (lead ++ s) = s := by
  rw [withoutLead, Str.stripStart_append, Option.getD_some]

variable {B : Base64Url}

lemma encode_eq_nil {binary : List UInt8} : B.encode binary = [] ↔ binary = [] := by
  rw [← List.length_eq_zero_iff, B.length_encode, ← List.length_eq_zero_iff]
  omega

/-- What is accepted is, without its lead, the text of the bytes that it stands for. -/
lemma decodeBase64Url_eq_ok {lead input : String} {binary : List UInt8} :
    decodeBase64Url B lead input = .ok binary ↔ binary ≠ [] ∧ binary.length ≤ maxBinaryInviteBytes ∧
        B.encode binary = (withoutLead lead input).toList := by
  constructor
  · intro h
    obtain ⟨hchecks, h⟩ := require_bind_eq_ok.mp h
    obtain ⟨binary', hdecode, h⟩ := bind_eq_ok.mp h
    obtain ⟨hsize, h⟩ := require_bind_eq_ok.mp h
    obtain ⟨-, h⟩ := require_bind_eq_ok.mp h
    cases h
    -- what is decoded encodes back, so the comparison of the source refuses nothing
    have hencode := B.decode_eq_some_iff.mp (okOr_eq_ok.mp hdecode)
    refine ⟨?_, of_decide_eq_true hsize, hencode⟩
    rintro rfl
    rw [← hencode, encode_eq_nil.mpr rfl] at hchecks
    cases hchecks
  · rintro ⟨hne, hsize, hencode⟩
    have hdecode := B.decode_eq_some_iff.mpr hencode
    have hnonempty : (withoutLead lead input).toList ≠ [] := fun hnil =>
      hne (encode_eq_nil.mp (hencode.trans hnil))
    have hdigits : (withoutLead lead input).toList.all isBase64Url = true := by
      rw [← hencode]
      exact List.all_eq_true.mpr B.isDigit_of_mem
    refine require_bind_eq_ok.mpr ⟨?_, bind_eq_ok.mpr ⟨binary, okOr_eq_ok.mpr hdecode, ?_⟩⟩
    · rw [hdigits, Bool.and_true]
      exact decide_eq_true hnonempty
    · refine require_bind_eq_ok.mpr ⟨decide_eq_true hsize, ?_⟩
      exact require_bind_eq_ok.mpr ⟨decide_eq_true hencode, rfl⟩

namespace SignedInvite

variable {E : Ed25519} {sha256 : List UInt8 → Vector UInt8 32}

/-- The time of reading decides only whether an invite is accepted. -/
lemma eq_of_decode {P : InviteProfile} {b : List UInt8} {now now' : Option ℕ}
    {s s' : SignedInvite E P} (h : decode E P b now = .ok s) (h' : decode E P b now' = .ok s') :
    s = s' := by
  obtain ⟨-, h⟩ := require_bind_eq_ok.mp h
  obtain ⟨fields, hfields, h⟩ := bind_eq_ok.mp h
  obtain ⟨capsule, hcapsule, h⟩ := bind_eq_ok.mp h
  obtain ⟨_, -, h⟩ := bind_eq_ok.mp h
  obtain ⟨_, -, h⟩ := bind_eq_ok.mp h
  obtain ⟨-, h⟩ := require_bind_eq_ok.mp h
  obtain ⟨-, h'⟩ := require_bind_eq_ok.mp h'
  obtain ⟨fields', hfields', h'⟩ := bind_eq_ok.mp h'
  obtain rfl : fields = fields' := Except.ok.inj (hfields.symm.trans hfields')
  obtain ⟨capsule', hcapsule', h'⟩ := bind_eq_ok.mp h'
  obtain rfl : capsule = capsule' := Except.ok.inj (hcapsule.symm.trans hcapsule')
  obtain ⟨_, -, h'⟩ := bind_eq_ok.mp h'
  obtain ⟨_, -, h'⟩ := bind_eq_ok.mp h'
  obtain ⟨-, h'⟩ := require_bind_eq_ok.mp h'
  cases h
  cases h'
  rfl

/-- What Ket accepts is the base64 form of an invite that it decodes. -/
lemma fromText_eq_ok {input : String} {now : Option ℕ} {s : SignedInvite E ketText.toInviteProfile} :
    fromText B E sha256 ketText input now = .ok s ↔
      (input ≠ "" ∧ Str.len input ≤ maxEncodedInviteTextBytes) ∧
        ∃ binary, decodeBase64Url B ketText.textLead input = .ok binary ∧
          decode E ketText.toInviteProfile binary now = .ok s := by
  rw [fromText, require_bind_eq_ok, decide_eq_true_eq, bind_eq_ok]
  rfl

/-- The text of an invite within the size limit is short enough. -/
lemma len_encodeBase64Url {binary : List UInt8} (h : binary.length ≤ maxBinaryInviteBytes) :
    Str.len (encodeBase64Url B ketText.textLead binary) ≤ maxEncodedInviteTextBytes := by
  have hlead : ∀ c ∈ ketText.textLead.toList, c.toNat < 0x80 := by
    have hall : ketText.textLead.toList.all (fun c => decide (c.toNat < 0x80)) = true := by
      decide
    exact fun c hc => of_decide_eq_true (List.all_eq_true.mp hall c hc)
  have hascii : ∀ c ∈ (encodeBase64Url B ketText.textLead binary).toList, c.toNat < 0x80 := by
    intro c hc
    rw [encodeBase64Url, String.toList_append, String.toList_ofList] at hc
    rcases List.mem_append.mp hc with hc | hc
    · exact hlead c hc
    · exact toNat_lt_of_isBase64Url (B.isDigit_of_mem c hc)
  have hleadLength : ketText.textLead.toList.length = 11 := by decide
  rw [Str.len_of_ascii hascii, encodeBase64Url, String.toList_append, String.toList_ofList,
    List.length_append, B.length_encode, hleadLength]
  simp only [maxBinaryInviteBytes, maxEncodedInviteTextBytes] at h ⊢
  omega

lemma fromText_toText {s : SignedInvite E ketText.toInviteProfile} {now : Option ℕ} {text : String}
    (hverify : s.verify now = .ok ()) (h : s.toText B ketText = .ok text) :
    fromText B E sha256 ketText text now = .ok s := by
  obtain ⟨binary, hbinary, h⟩ := bind_eq_ok.mp h
  cases h
  obtain ⟨payload, -, rfl, hsize⟩ := of_canonicalBinary hbinary
  set binary := encodeFields payload s.signature
  have hdecode := decode_of_canonicalBinary hverify hbinary
  refine fromText_eq_ok.mpr ⟨⟨?_, len_encodeBase64Url hsize⟩, binary, ?_, hdecode⟩
  · intro hempty
    have hlist := congrArg String.toList hempty
    rw [encodeBase64Url, String.toList_append] at hlist
    cases hlist
  · refine decodeBase64Url_eq_ok.mpr ⟨encodeFields_ne_nil _ _, hsize, ?_⟩
    rw [encodeBase64Url, withoutLead_append, String.toList_ofList]

/-- **Texts and invites correspond one to one.**  The text of a valid invite within the size limit
reads back as the invite.  Two texts that are accepted, at whatever times, give the same invite if and
only if they agree without their optional lead. -/
theorem texts_one_to_one (B : Base64Url) (E : Ed25519) (sha256 : List UInt8 → Vector UInt8 32) :
    (∀ (s : SignedInvite E ketText.toInviteProfile) (now : Option ℕ) (binary : List UInt8),
      s.verify now = .ok () → s.canonicalBinary = .ok binary →
        ∃ text, s.toText B ketText = .ok text ∧ fromText B E sha256 ketText text now = .ok s) ∧
      ∀ (text text' : String) (now now' : Option ℕ) (s s' : SignedInvite E ketText.toInviteProfile),
        fromText B E sha256 ketText text now = .ok s →
          fromText B E sha256 ketText text' now' = .ok s' →
            (s = s' ↔ withoutLead "ket:invite:" text = withoutLead "ket:invite:" text') := by
  constructor
  · intro s now binary hverify hbinary
    have htext : s.toText B ketText = .ok (encodeBase64Url B ketText.textLead binary) :=
      bind_eq_ok.mpr ⟨binary, hbinary, rfl⟩
    exact ⟨_, htext, fromText_toText hverify htext⟩
  · intro text text' now now' s s' h h'
    obtain ⟨-, binary, hbinary, hdecode⟩ := fromText_eq_ok.mp h
    obtain ⟨-, binary', hbinary', hdecode'⟩ := fromText_eq_ok.mp h'
    have hencode : B.encode binary = (withoutLead "ket:invite:" text).toList :=
      (decodeBase64Url_eq_ok.mp hbinary).2.2
    have hencode' : B.encode binary' = (withoutLead "ket:invite:" text').toList :=
      (decodeBase64Url_eq_ok.mp hbinary').2.2
    constructor
    · rintro rfl
      have heq : binary = binary' := Except.ok.inj
        ((canonicalBinary_of_decode hdecode).symm.trans (canonicalBinary_of_decode hdecode'))
      rw [← String.toList_inj, ← hencode, ← hencode', heq]
    · intro heq
      rw [heq, ← hencode'] at hencode
      obtain rfl := B.encode_injective hencode
      exact eq_of_decode hdecode hdecode'

theorem texts_one_to_one_toy :
    toyInvite.verify none = .ok () ∧ toyInvite.canonicalBinary = .ok toyBinary ∧
      ∃ text, toyInvite.toText base64Url ketText = .ok text ∧
        fromText base64Url toyEd25519 (fun _ => Vector.replicate 32 0) ketText text none
          = .ok toyInvite := by
  have hverify : toyInvite.verify none = .ok () := by decide +kernel
  have hbinary : toyInvite.canonicalBinary = .ok toyBinary := by decide +kernel
  exact ⟨hverify, hbinary,
    (texts_one_to_one base64Url toyEd25519 _).1 toyInvite none toyBinary hverify hbinary⟩

end SignedInvite

end Ket.Invite
