import Ket.Lib.Numeral
import Ket.Lib.Parser
import Mathlib.Data.List.GetD

/-!
# Encodings of byte strings as texts

An `Encoding` is what is assumed of a library for them: each byte string has one text, and no other
text is decoded to it.  The usual ones cut the bits of the bytes, filled up with zeros, into digits
(`Alphabet.encoding`), and may pad the text (`Encoding.padded`).
-/

namespace Ket.Lib

open List

/-- The characters of the texts and the length of a text are given. -/
structure Encoding (isDigit : Char → Bool) (size : ℕ → ℕ) where
  encode : List UInt8 → List Char
  decode : List Char → Option (List UInt8)
  decode_eq_some_iff {text : List Char} {bytes : List UInt8} :
    decode text = some bytes ↔ encode bytes = text
  isDigit_of_mem {bytes : List UInt8} : ∀ c ∈ encode bytes, isDigit c = true
  length_encode (bytes : List UInt8) : (encode bytes).length = size bytes.length

namespace Encoding

variable {isDigit : Char → Bool} {size : ℕ → ℕ}

lemma encode_injective (E : Encoding isDigit size) : Function.Injective E.encode := by
  intro bytes bytes' h
  exact Option.some.inj ((E.decode_eq_some_iff.mpr h).symm.trans (E.decode_eq_some_iff.mpr rfl))

/-- With `=` up to the end of the last four digits. -/
def padded (E : Encoding isDigit size) (h : isDigit '=' = false) :
    Encoding (fun c => isDigit c || c == '=') (fun n => size n + 2 * n % 3) where
  encode bytes := E.encode bytes ++ replicate (2 * bytes.length % 3) '='
  decode text := (E.decode (text.takeWhile isDigit)).filter fun bytes =>
    E.encode bytes ++ replicate (2 * bytes.length % 3) '=' = text
  decode_eq_some_iff := by
    intro text bytes
    rw [Option.filter_eq_some_iff, decide_eq_true_eq, and_iff_right_iff_imp]
    rintro rfl
    rw [E.decode_eq_some_iff, takeWhile_append_of_pos E.isDigit_of_mem, takeWhile_replicate, h]
    simp
  isDigit_of_mem := by
    intro bytes c hc
    rcases mem_append.mp hc with hc | hc
    · simp [E.isDigit_of_mem c hc]
    · simp [eq_of_mem_replicate hc]
  length_encode bytes := by simp [E.length_encode]

end Encoding

/-- There is a digit for each number of so many bits. -/
abbrev Alphabet.Valid (bits : ℕ) (chars : List Char) : Prop :=
  0 < bits ∧ bits ≤ 8 ∧ chars.length = 2 ^ bits ∧ chars.Nodup

structure Alphabet where
  bits : ℕ
  chars : List Char
  valid : Alphabet.Valid bits chars

namespace Alphabet

/-- The digits of so many bits that `n` bytes take. -/
def size (bits n : ℕ) : ℕ := (8 * n + bits - 1) / bits

variable (A : Alphabet) (n : ℕ) (bytes : List UInt8)

/-- The bits of the last digit that are filled up. -/
def fill : ℕ := A.bits * size A.bits n - 8 * n

def encode : List Char :=
  (digitsOf (2 ^ A.bits) (size A.bits bytes.length)
    (ofBigEndian bytes * 2 ^ A.fill bytes.length)).map fun d => A.chars.getD d 'A'

/-- A text that is not the one of its bytes is refused. -/
def decode (text : List Char) : Option (List UInt8) :=
  let n := text.length * A.bits / 8
  let bytes := toBigEndian n (valueOf (2 ^ A.bits) (text.map A.chars.idxOf) / 2 ^ A.fill n)
  if A.encode bytes = text then some bytes else none

lemma length_encode : (A.encode bytes).length = size A.bits bytes.length := by
  simp [encode, digitsOf]

lemma size_bounds : 8 * n ≤ A.bits * size A.bits n ∧ A.bits * size A.bits n < 8 * n + A.bits := by
  have hpos := A.valid.1
  have hdiv := Nat.div_add_mod (8 * n + A.bits - 1) A.bits
  have hmod := Nat.mod_lt (8 * n + A.bits - 1) hpos
  rw [size]
  omega

lemma filled_lt : ofBigEndian bytes * 2 ^ A.fill bytes.length
    < (2 ^ A.bits) ^ size A.bits bytes.length := by
  have hsize : 8 * bytes.length + A.fill bytes.length = A.bits * size A.bits bytes.length :=
    Nat.add_sub_cancel' (A.size_bounds _).1
  calc ofBigEndian bytes * 2 ^ A.fill bytes.length
      < 256 ^ bytes.length * 2 ^ A.fill bytes.length :=
        Nat.mul_lt_mul_of_pos_right (ofBigEndian_lt bytes) (Nat.two_pow_pos _)
    _ = (2 ^ A.bits) ^ size A.bits bytes.length := by
        rw [show (256 : ℕ) = 2 ^ 8 from rfl, ← pow_mul, ← pow_add, hsize, pow_mul]

lemma lt_length_chars {length m d : ℕ} (h : d ∈ digitsOf (2 ^ A.bits) length m) :
    d < A.chars.length :=
  A.valid.2.2.1 ▸ lt_of_mem_digitsOf (Nat.two_pow_pos _) h

/-- The digits of a text of bytes. -/
lemma map_idxOf_encode : (A.encode bytes).map A.chars.idxOf
    = digitsOf (2 ^ A.bits) (size A.bits bytes.length)
      (ofBigEndian bytes * 2 ^ A.fill bytes.length) := by
  rw [encode, map_map]
  refine (map_congr_left fun d hd => ?_).trans (map_id _)
  rw [Function.comp, getD_eq_getElem _ _ (A.lt_length_chars hd), A.valid.2.2.2.idxOf_getElem, id]

lemma decode_encode : A.decode (A.encode bytes) = some bytes := by
  have hn : (A.encode bytes).length * A.bits / 8 = bytes.length := by
    have hbounds := A.size_bounds bytes.length
    have hle := A.valid.2.1
    rw [length_encode, mul_comm]
    omega
  have hbytes : toBigEndian bytes.length (valueOf (2 ^ A.bits)
      ((A.encode bytes).map A.chars.idxOf) / 2 ^ A.fill bytes.length) = bytes := by
    rw [map_idxOf_encode, valueOf_digitsOf (A.filled_lt bytes),
      Nat.mul_div_cancel _ (Nat.two_pow_pos _), toBigEndian_ofBigEndian]
  simp only [decode, hn, hbytes, if_true]

/-- **One text per byte string.** -/
def encoding {isDigit : Char → Bool} {size : ℕ → ℕ} (hchars : A.chars.all isDigit = true)
    (hsize : ∀ n, Alphabet.size A.bits n = size n) : Encoding isDigit size where
  encode := A.encode
  decode := A.decode
  decode_eq_some_iff := by
    refine ⟨fun h => ?_, fun h => h ▸ A.decode_encode _⟩
    obtain ⟨htext, h⟩ := Option.ite_none_right_eq_some.mp h
    cases h
    exact htext
  isDigit_of_mem := by
    intro bytes c hc
    obtain ⟨d, hd, rfl⟩ := mem_map.mp hc
    rw [getD_eq_getElem _ _ (A.lt_length_chars hd)]
    exact all_eq_true.mp hchars _ (getElem_mem _)
  length_encode bytes := (A.length_encode bytes).trans (hsize _)

end Alphabet

/-! ### Base64 and Base32 -/

/-- The digits of Base64 for URLs. -/
def isBase64Url (c : Char) : Bool := c.isAlphanum || c == '-' || c == '_'

lemma toNat_lt_of_le {c last : Char} (h : c.val ≤ last.val) (hlast : last.toNat < 0x80) :
    c.toNat < 0x80 :=
  Nat.lt_of_le_of_lt (UInt32.le_iff_toNat_le.mp h) hlast

lemma toNat_lt_of_isUpper {c : Char} (h : c.isUpper = true) : c.toNat < 0x80 :=
  toNat_lt_of_le (of_decide_eq_true h).2 (by decide)

lemma toNat_lt_of_isBase64Url {c : Char} (h : isBase64Url c = true) : c.toNat < 0x80 := by
  have h : (c.isUpper || c.isLower || c.isDigit || c == '-' || c == '_') = true := h
  simp only [Bool.or_eq_true, beq_iff_eq] at h
  rcases h with (((h | h) | h) | rfl) | rfl
  · exact toNat_lt_of_isUpper h
  · exact toNat_lt_of_le (of_decide_eq_true (Bool.and_eq_true_iff.mp h).2) (by decide)
  · exact toNat_lt_of_le (of_decide_eq_true (Bool.and_eq_true_iff.mp h).2) (by decide)
  · decide
  · decide

/-- `BASE64URL_NOPAD` and `URL_SAFE_NO_PAD`. -/
abbrev Base64Url : Type := Encoding isBase64Url fun n => (4 * n + 2) / 3

def isBase64Digit (c : Char) : Bool := c.isAlphanum || c == '+' || c == '/'

/-- `STANDARD`. -/
abbrev Base64 : Type :=
  Encoding (fun c => isBase64Digit c || c == '=') fun n => (4 * n + 2) / 3 + 2 * n % 3

def isBase32 (c : Char) : Bool := c.isUpper || decide ('2' ≤ c ∧ c ≤ '7')

lemma toNat_lt_of_isBase32 {c : Char} (h : isBase32 c = true) : c.toNat < 0x80 := by
  rcases (Bool.or_eq_true _ _).mp h with h | h
  · exact toNat_lt_of_isUpper h
  · exact toNat_lt_of_le (of_decide_eq_true h).2 (by decide)

/-- `BASE32_NOPAD`. -/
abbrev Base32 : Type := Encoding isBase32 fun n => (n * 8 + 4) / 5

/-- Letters and digits, and two characters more. -/
def base64Chars (others : String) : List Char :=
  ("ABCDEFGHIJKLMNOPQRSTUVWXYZabcdefghijklmnopqrstuvwxyz0123456789" ++ others).toList

def base32Chars : List Char := "ABCDEFGHIJKLMNOPQRSTUVWXYZ234567".toList

lemma valid_urlChars : Alphabet.Valid 6 (base64Chars "-_") := by decide +kernel

lemma valid_standardChars : Alphabet.Valid 6 (base64Chars "+/") := by decide +kernel

lemma valid_base32Chars : Alphabet.Valid 5 base32Chars := by decide +kernel

lemma isBase64Url_urlChars : (base64Chars "-_").all isBase64Url = true := by decide +kernel

lemma isBase64Digit_standardChars : (base64Chars "+/").all isBase64Digit = true := by
  decide +kernel

lemma isBase32_base32Chars : base32Chars.all isBase32 = true := by decide +kernel

lemma isBase64Digit_pad : isBase64Digit '=' = false := by decide

lemma size_six (n : ℕ) : Alphabet.size 6 n = (4 * n + 2) / 3 := by
  rw [Alphabet.size]
  omega

lemma size_five (n : ℕ) : Alphabet.size 5 n = (n * 8 + 4) / 5 := by
  rw [Alphabet.size]
  omega

def base64Url : Base64Url :=
  Alphabet.encoding ⟨6, _, valid_urlChars⟩ isBase64Url_urlChars size_six

def base64 : Base64 :=
  (Alphabet.encoding ⟨6, _, valid_standardChars⟩ isBase64Digit_standardChars size_six).padded
    isBase64Digit_pad

def base32 : Base32 := Alphabet.encoding ⟨5, _, valid_base32Chars⟩ isBase32_base32Chars size_five

end Ket.Lib
