import Mathlib.Tactic
import Mathlib.Data.List.TakeWhile

/-!
# Strings the way the standard library of Rust sees them

Lean's `String.trim` knows only the ASCII blanks, so the operations whose Unicode behaviour
the code depends on are spelled out here.  A length is a length in UTF-8 bytes.
-/

namespace Ket.Lib

/-! ### ASCII bytes -/

/-- `u8::is_ascii_digit`. -/
def isAsciiDigit (b : UInt8) : Bool := 0x30 ≤ b && b ≤ 0x39

/-- `u8::is_ascii_uppercase`. -/
def isAsciiUppercase (b : UInt8) : Bool := 0x41 ≤ b && b ≤ 0x5a

/-- `u8::is_ascii_lowercase`. -/
def isAsciiLowercase (b : UInt8) : Bool := 0x61 ≤ b && b ≤ 0x7a

/-- `u8::is_ascii_alphanumeric`. -/
def isAsciiAlphanumeric (b : UInt8) : Bool :=
  isAsciiDigit b || isAsciiUppercase b || isAsciiLowercase b

lemma isAsciiDigit_iff {b : UInt8} :
    isAsciiDigit b = true ↔ 0x30 ≤ b.toNat ∧ b.toNat ≤ 0x39 := by
  simp [isAsciiDigit, UInt8.le_iff_toNat_le]

end Ket.Lib

namespace Ket.Lib.Str

open List

/-- `char::is_whitespace`: the Unicode property `White_Space`. -/
def isWhitespace (c : Char) : Bool :=
  let n := c.toNat
  (0x09 ≤ n && n ≤ 0x0d) || n == 0x20 || n == 0x85 || n == 0xa0 || n == 0x1680 ||
    (0x2000 ≤ n && n ≤ 0x200a) || n == 0x2028 || n == 0x2029 || n == 0x202f || n == 0x205f ||
    n == 0x3000

/-- `char::is_control`: the general category `Cc`. -/
def isControl (c : Char) : Bool :=
  c.toNat ≤ 0x1f || (0x7f ≤ c.toNat && c.toNat ≤ 0x9f)

/-- `str::trim`: without the white space at both ends. -/
def trim (s : String) : String :=
  String.ofList ((s.toList.dropWhile isWhitespace).reverse.dropWhile isWhitespace).reverse

/-- `str::len`. -/
def len (s : String) : ℕ := s.utf8ByteSize

/-- `bytes().all(|byte| byte.is_ascii_alphanumeric())`: a byte of a longer character is never
an ASCII letter or digit, so the test may look at the characters. -/
def allAsciiAlphanumeric (s : String) : Bool := s.toList.all Char.isAlphanum

/-! ### Trimming -/

section Trim

variable {p q : Char → Bool} {l : List Char} {c : Char}

/-- A text without such characters at both ends. -/
def trimBy (p : Char → Bool) (l : List Char) : List Char :=
  ((l.dropWhile p).reverse.dropWhile p).reverse

/-- The characters that trimming takes away. -/
def margins (p : Char → Bool) (l : List Char) : List Char :=
  l.takeWhile p ++ (l.dropWhile p).reverse.takeWhile p

lemma toList_trim (s : String) : (trim s).toList = trimBy isWhitespace s.toList :=
  String.toList_ofList

lemma mem_of_mem_margins (h : c ∈ margins p l) : c ∈ l ∧ p c = true := by
  rcases mem_append.mp h with h | h
  · exact ⟨(takeWhile_sublist p).mem h, mem_takeWhile_imp h⟩
  · have hmem := mem_reverse.mp ((takeWhile_sublist p).mem h)
    exact ⟨(dropWhile_sublist p).mem hmem, mem_takeWhile_imp h⟩

lemma mem_dropWhile_of_not (h : c ∈ l) (hp : p c = false) : c ∈ l.dropWhile p := by
  rw [← takeWhile_append_dropWhile (p := p) (l := l)] at h
  refine (mem_append.mp h).resolve_left fun htake => ?_
  exact Bool.false_ne_true (hp.symm.trans (mem_takeWhile_imp htake))

lemma mem_trimBy_of_not (h : c ∈ l) (hp : p c = false) : c ∈ trimBy p l := by
  refine mem_reverse.mpr (mem_dropWhile_of_not (mem_reverse.mpr ?_) hp)
  exact mem_dropWhile_of_not h hp

lemma dropWhile_eq_of_le (hqp : ∀ c, q c = true → p c = true) (h : ∀ c ∈ l.takeWhile p, q c = true) :
    l.dropWhile q = l.dropWhile p := by
  induction l with
  | nil => rfl
  | cons a l ih =>
    cases hp : p a with
    | false =>
      have hq : q a = false :=
        Bool.eq_false_iff.mpr fun hq => Bool.false_ne_true (hp.symm.trans (hqp a hq))
      rw [dropWhile_cons, dropWhile_cons, hp, hq]
      rfl
    | true =>
      rw [takeWhile_cons, hp] at h
      rw [dropWhile_cons, dropWhile_cons, hp, h a mem_cons_self]
      exact ih fun c hc => h c (mem_cons_of_mem a hc)

/-- Trimming by fewer characters is the same where only these are taken away. -/
lemma trimBy_eq_of_margins (hqp : ∀ c, q c = true → p c = true)
    (h : ∀ c ∈ margins p l, q c = true) : trimBy q l = trimBy p l := by
  have hleft : l.dropWhile q = l.dropWhile p :=
    dropWhile_eq_of_le hqp fun c hc => h c (mem_append_left _ hc)
  have hright : (l.dropWhile p).reverse.dropWhile q = (l.dropWhile p).reverse.dropWhile p :=
    dropWhile_eq_of_le hqp fun c hc => h c (mem_append_right _ hc)
  rw [trimBy, hleft, hright, trimBy]

lemma dropWhile_eq_self (h : ∀ c ∈ l.head?, p c = false) : l.dropWhile p = l := by
  cases l with
  | nil => rfl
  | cons a l => rw [dropWhile_cons_of_neg (by simp [h a rfl])]

lemma trimBy_eq_self (hhead : ∀ c ∈ l.head?, p c = false) (hlast : ∀ c ∈ l.getLast?, p c = false) :
    trimBy p l = l := by
  rw [trimBy, dropWhile_eq_self hhead, dropWhile_eq_self (by rwa [head?_reverse]),
    reverse_reverse]

/-- What is left begins with another character. -/
lemma head?_trimBy (h : c ∈ (trimBy p l).head?) : p c = false := by
  have hpre : trimBy p l <+: (l.dropWhile p).reverse.reverse :=
    reverse_prefix.mpr (dropWhile_suffix p)
  rw [reverse_reverse] at hpre
  obtain ⟨rest, hrest⟩ := hpre
  cases htrim : trimBy p l with
  | nil =>
    rw [htrim] at h
    cases h
  | cons a trimmed =>
    rw [htrim] at h hrest
    cases h
    have hfirst := head?_dropWhile_not p l
    rw [← hrest] at hfirst
    exact hfirst

end Trim

/-- `str::trim_end_matches`, for a character. -/
def trimEndMatches (c : Char) (s : String) : String :=
  String.ofList (s.toList.reverse.dropWhile (· == c)).reverse

/-! ### Parts of a text -/

/-- `str::contains`, for a text. -/
def contains (s pattern : String) : Bool := decide (pattern.toList <:+: s.toList)

/-! ### Characters -/

/-- `char::is_ascii_graphic`: the printable characters of ASCII without the space. -/
def isGraphic (c : Char) : Bool := decide (0x21 ≤ c.toNat ∧ c.toNat ≤ 0x7e)

variable {c : Char} {s : String} {u : List UInt8}

lemma isControl_of_isGraphic (h : isGraphic c = true) : isControl c = false := by
  have hrange := of_decide_eq_true h
  simp only [isControl, Bool.or_eq_false_iff, Bool.and_eq_false_iff, decide_eq_false_iff_not]
  omega

lemma isWhitespace_of_isGraphic (h : isGraphic c = true) : isWhitespace c = false := by
  have hrange := of_decide_eq_true h
  simp only [isWhitespace, Bool.or_eq_false_iff, Bool.and_eq_false_iff, decide_eq_false_iff_not,
    beq_eq_false_iff_ne]
  omega

lemma isGraphic_of_isAlphanum (h : c.isAlphanum = true) : isGraphic c = true := by
  have hrange : ∀ low high : Char, (decide (low.val ≤ c.val) && decide (c.val ≤ high.val)) = true →
      low.toNat ≤ c.toNat ∧ c.toNat ≤ high.toNat := by
    intro low high h
    obtain ⟨hlow, hhigh⟩ := Bool.and_eq_true_iff.mp h
    exact ⟨UInt32.le_iff_toNat_le.mp (of_decide_eq_true hlow),
      UInt32.le_iff_toNat_le.mp (of_decide_eq_true hhigh)⟩
  refine decide_eq_true ?_
  rcases Bool.or_eq_true_iff.mp h with halpha | hdigit
  · rcases Bool.or_eq_true_iff.mp halpha with hupper | hlower
    · obtain ⟨hlow, hhigh⟩ := of_decide_eq_true hupper
      have := hrange 'A' 'Z'
        (Bool.and_eq_true_iff.mpr ⟨decide_eq_true hlow, decide_eq_true hhigh⟩)
      simp only [Char.reduceToNat] at this
      omega
    · have := hrange 'a' 'z' hlower
      simp only [Char.reduceToNat] at this
      omega
  · have := hrange '0' '9' hdigit
    simp only [Char.reduceToNat] at this
    omega

lemma lt_of_isAlphanum (h : c.isAlphanum = true) : c.toNat < 0x80 := by
  have hrange := of_decide_eq_true (isGraphic_of_isAlphanum h)
  omega

/-! ### The bytes of a string -/

/-- `str::as_bytes`. -/
def bytes (s : String) : List UInt8 := s.toUTF8.data.toList

lemma bytes_append (s t : String) : bytes (s ++ t) = bytes s ++ bytes t := by
  show (s ++ t).toByteArray.data.toList = s.toByteArray.data.toList ++ t.toByteArray.data.toList
  rw [String.toByteArray_append, ByteArray.data_append, Array.toList_append]

lemma bytes_eq_flatMap (s : String) : bytes s = s.toList.flatMap String.utf8EncodeChar := by
  show s.toByteArray.data.toList = _
  rw [← String.utf8Encode_toList, List.utf8Encode, data_toByteArray]

/-- A character that is not ASCII has no ASCII byte. -/
lemma le_of_mem_utf8EncodeChar (hc : ¬ c.val.toNat ≤ 127) {b : UInt8}
    (hb : b ∈ String.utf8EncodeChar c) : 0x80 ≤ b.toNat := by
  have hbyte : ∀ n : ℕ, 0x80 ≤ n → n < 0x100 → 0x80 ≤ (UInt8.ofNat n).toNat := by
    intro n hle hlt
    rw [UInt8.toNat_ofNat']
    omega
  simp only [String.utf8EncodeChar, if_neg hc] at hb
  split_ifs at hb
  · simp only [mem_cons, not_mem_nil, or_false] at hb
    rcases hb with rfl | rfl
    all_goals exact hbyte _ (by omega) (by omega)
  · simp only [mem_cons, not_mem_nil, or_false] at hb
    rcases hb with rfl | rfl | rfl
    all_goals exact hbyte _ (by omega) (by omega)
  · simp only [mem_cons, not_mem_nil, or_false] at hb
    rcases hb with rfl | rfl | rfl | rfl
    all_goals exact hbyte _ (by omega) (by omega)

/-- A character is an ASCII byte of its own, or starts with a byte that is none. -/
lemma exists_byte_of_mem (h : c ∈ s.toList) :
    ∃ b ∈ bytes s, b.toNat < 0x80 → c.toNat = b.toNat := by
  have hmem : ∀ b ∈ String.utf8EncodeChar c, b ∈ bytes s := by
    intro b hb
    rw [bytes_eq_flatMap]
    exact mem_flatMap.mpr ⟨c, h, hb⟩
  by_cases hascii : c.val.toNat ≤ 127
  · refine ⟨UInt8.ofNat c.val.toNat, hmem _ ?_, fun _ => ?_⟩
    · simp only [String.utf8EncodeChar, if_pos hascii, mem_singleton]
    · show c.val.toNat = _
      rw [UInt8.toNat_ofNat']
      omega
  · obtain ⟨b, hb⟩ := exists_mem_of_ne_nil _ (String.utf8EncodeChar_ne_nil (c := c))
    exact ⟨b, hmem b hb, fun hsmall => absurd (le_of_mem_utf8EncodeChar hascii hb) (by omega)⟩

lemma bytes_of_ascii (h : ∀ c ∈ s.toList, c.toNat < 0x80) :
    bytes s = s.toList.map fun c => UInt8.ofNat c.toNat := by
  rw [bytes_eq_flatMap, map_eq_flatMap]
  refine flatMap_congr fun c hc => ?_
  have hle : c.val.toNat ≤ 127 := Nat.le_of_lt_succ (h c hc)
  simp only [String.utf8EncodeChar, if_pos hle]
  rfl

/-- `str::ends_with`. -/
def endsWith (s t : String) : Bool := (bytes t).isSuffixOf (bytes s)

/-- `str::strip_suffix`. -/
def stripSuffix (s t : String) : Option String :=
  if endsWith s t then some (String.ofList (s.toList.take (s.length - t.length))) else none

/-- The ASCII byte at the end of a text is its last character. -/
lemma concat_of_bytes {s : List Char} (hc : c.toNat < 0x80)
    (h : s.flatMap String.utf8EncodeChar = u ++ [UInt8.ofNat c.toNat]) :
    ∃ r, s = r ++ [c] ∧ r.flatMap String.utf8EncodeChar = u := by
  induction s using List.reverseRecOn with
  | nil => simp at h
  | append_singleton r d _ =>
    rw [flatMap_append, flatMap_singleton] at h
    by_cases hd : d.val.toNat ≤ 127
    · have hencode : String.utf8EncodeChar d = [UInt8.ofNat d.val.toNat] := by
        simp only [String.utf8EncodeChar, if_pos hd]
      rw [hencode] at h
      obtain ⟨hr, hbyte⟩ := append_inj' h rfl
      have hnat : d.val.toNat = c.toNat := by
        have hbyte := congrArg UInt8.toNat (singleton_inj.mp hbyte)
        rw [UInt8.toNat_ofNat', UInt8.toNat_ofNat'] at hbyte
        omega
      obtain rfl : d = c := Char.toNat_inj.mp hnat
      exact ⟨r, rfl, hr⟩
    · -- the last byte of a longer encoding is no ASCII byte
      have hlast : UInt8.ofNat c.toNat ∈ String.utf8EncodeChar d := by
        have hlast := congrArg List.getLast? h
        rw [getLast?_append_of_ne_nil _ String.utf8EncodeChar_ne_nil,
          getLast?_concat] at hlast
        exact mem_of_getLast? hlast
      have hle := le_of_mem_utf8EncodeChar hd hlast
      rw [UInt8.toNat_ofNat'] at hle
      omega

/-- A text ends with ASCII characters where its bytes end with theirs. -/
lemma suffix_of_bytes {s : List Char} {t : List Char} (ht : ∀ c ∈ t, c.toNat < 0x80)
    (h : s.flatMap String.utf8EncodeChar = u ++ t.map fun c => UInt8.ofNat c.toNat) :
    ∃ r, s = r ++ t ∧ r.flatMap String.utf8EncodeChar = u := by
  induction t using List.reverseRecOn generalizing s with
  | nil => exact ⟨s, by simp, by simpa using h⟩
  | append_singleton t c ih =>
    rw [map_append, map_singleton, ← append_assoc] at h
    obtain ⟨r, rfl, hr⟩ := concat_of_bytes (ht c (by simp)) h
    obtain ⟨r', rfl, hr'⟩ := ih (fun d hd => ht d (by simp [hd])) hr
    exact ⟨r', by simp, hr'⟩

lemma stripSuffix_append (r t : String) : stripSuffix (r ++ t) t = some r := by
  have hend : endsWith (r ++ t) t = true := by
    rw [endsWith, bytes_append, isSuffixOf_iff_suffix]
    exact suffix_append _ _
  have hlength : (r ++ t).length - t.length = r.toList.length := by
    rw [String.length_append, String.length_toList]
    omega
  rw [stripSuffix, if_pos hend, hlength, String.toList_append, take_left, String.ofList_toList]

/-- Only what ends with the suffix is stripped of it. -/
lemma stripSuffix_eq_some_iff {t r : String} (ht : ∀ c ∈ t.toList, c.toNat < 0x80) :
    stripSuffix s t = some r ↔ s = r ++ t := by
  refine ⟨fun h => ?_, fun h => h ▸ stripSuffix_append r t⟩
  have hend : endsWith s t = true := by
    by_contra hnot
    rw [stripSuffix, if_neg hnot] at h
    cases h
  obtain ⟨u, hu⟩ := isSuffixOf_iff_suffix.mp hend
  rw [bytes_of_ascii ht, bytes_eq_flatMap] at hu
  obtain ⟨r', hr', -⟩ := suffix_of_bytes ht hu.symm
  obtain rfl : s = String.ofList r' ++ t := by
    apply String.toList_injective
    rw [hr', String.toList_append, String.toList_ofList]
  rw [stripSuffix_append] at h
  rw [Option.some.inj h]

/-- `str::strip_prefix`: where the characters of a text begin those of another, so do its bytes. -/
def stripStart (s t : String) : Option String :=
  if t.toList.isPrefixOf s.toList then some (String.ofList (s.toList.drop t.toList.length)) else none

lemma stripStart_append (t s : String) : stripStart (t ++ s) t = some s := by
  have hstart : t.toList.isPrefixOf (t ++ s).toList = true := by simp
  rw [stripStart, if_pos hstart, String.toList_append, drop_left, String.ofList_toList]

lemma len_of_ascii (h : ∀ c ∈ s.toList, c.toNat < 0x80) : len s = s.toList.length := by
  have hlen : len s = (bytes s).length := by
    rw [len, bytes, Array.length_toList]
    rfl
  rw [hlen, bytes_of_ascii h, length_map]

end Ket.Lib.Str
