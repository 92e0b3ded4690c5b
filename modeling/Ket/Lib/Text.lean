import Mathlib.Data.List.GetD
import Mathlib.Tactic

/-!
# Text in lines, fields and numbers

What a program writes as lines of fields, and reads again: the lines of a text, the fields of a
line, decimal numbers and IPv4 addresses.  A text is a list of characters.
-/

namespace Ket.Lib.Text

open List Option

/-! ### Parts -/

variable {α : Type} {rows : List (List Char)} {c : Char} {n : ℕ}

lemma mem_intercalate {sep : List α} {parts : List (List α)} {x : α} (h : x ∈ sep.intercalate parts)
    : x ∈ sep ∨ ∃ part ∈ parts, x ∈ part := by
  induction parts with
  | nil => simp at h
  | cons part parts ih =>
    cases parts with
    | nil =>
      rw [intercalate_singleton] at h
      exact .inr ⟨part, mem_cons_self, h⟩
    | cons next parts =>
      rw [intercalate_cons_cons, mem_append, mem_append] at h
      rcases h with (h | h) | h
      · exact .inr ⟨part, mem_cons_self, h⟩
      · exact .inl h
      · obtain h | ⟨part', hpart, hx⟩ := ih h
        · exact .inl h
        · exact .inr ⟨part', mem_cons_of_mem _ hpart, hx⟩

/-- What is not the separator stands in a part. -/
lemma mem_splitOn [BEq α] [LawfulBEq α] {l : List α} {a x : α} (h : x ∈ l) :
    x = a ∨ ∃ part ∈ l.splitOn a, x ∈ part := by
  have hparts : x ∈ [a].intercalate (l.splitOn a) := by
    rw [intercalate_splitOn]
    exact h
  rcases mem_intercalate hparts with h | h
  · exact .inl (mem_singleton.mp h)
  · exact .inr h

/-- What stands in a part is not the separator. -/
lemma of_mem_splitOn [BEq α] [LawfulBEq α] {l part : List α} {a x : α} (hpart : part ∈ l.splitOn a)
    (hx : x ∈ part) : x ∈ l ∧ x ≠ a := by
  induction l generalizing part with
  | nil =>
    rw [List.splitOn, splitOnP_nil, mem_singleton] at hpart
    rw [hpart] at hx
    cases hx
  | cons y l ih =>
    rw [List.splitOn, splitOnP_cons_eq_if_modifyHead] at hpart
    split at hpart
    · rcases mem_cons.mp hpart with rfl | hpart
      · cases hx
      · exact (ih hpart hx).imp_left (mem_cons_of_mem _)
    · rename_i hy
      have hne : y ≠ a := by simpa using hy
      cases hsplit : l.splitOnP (· == a) with
      | nil =>
        rw [hsplit] at hpart
        cases hpart
      | cons first rest =>
        have hmem : ∀ part ∈ first :: rest, part ∈ l.splitOn a := by
          intro part h
          rwa [List.splitOn, hsplit]
        rw [hsplit, modifyHead_cons] at hpart
        rcases mem_cons.mp hpart with rfl | hpart
        · rcases mem_cons.mp hx with rfl | hx
          · exact ⟨mem_cons_self, hne⟩
          · exact (ih (hmem first mem_cons_self) hx).imp_left (mem_cons_of_mem _)
        · exact (ih (hmem part (mem_cons_of_mem _ hpart)) hx).imp_left
            (mem_cons_of_mem _)

/-! ### Lines -/

/-- A line without the carriage return at its end. -/
def stripReturn (line : List Char) : List Char :=
  if line.getLast? = some '\r' then line.dropLast else line

/-- `str::lines`: the last line needs no line break, and an empty rest is no line. -/
def lines (text : List Char) : List (List Char) :=
  let parts := text.splitOn '\n'
  (if parts.getLast? = some [] then parts.dropLast else parts).map stripReturn

/-- The lines with a line break after each. -/
def unlines (rows : List (List Char)) : List Char := rows.flatMap fun row => row ++ ['\n']

lemma splitOn_unlines (h : ∀ row ∈ rows, '\n' ∉ row) :
    (unlines rows).splitOn '\n' = rows ++ [[]] := by
  induction rows with
  | nil => rfl
  | cons row rows ih =>
    have hrow : unlines (row :: rows) = row ++ '\n' :: unlines rows := by simp [unlines]
    rw [hrow, splitOn_append_cons_self_of_not_mem (h row mem_cons_self),
      ih fun r hr => h r (mem_cons_of_mem _ hr), cons_append]

lemma stripReturn_of_not_mem {row : List Char} (h : '\r' ∉ row) : stripReturn row = row := by
  unfold stripReturn
  rw [if_neg]
  intro hlast
  exact h (mem_of_getLast? hlast)

/-- The lines of what was written in lines. -/
lemma lines_unlines (h : ∀ row ∈ rows, '\n' ∉ row ∧ '\r' ∉ row) : lines (unlines rows) = rows := by
  unfold lines
  rw [splitOn_unlines fun row hrow => (h row hrow).1]
  simp only [getLast?_concat, if_true, dropLast_concat]
  refine (map_congr_left fun row hrow => ?_).trans (map_id _)
  exact stripReturn_of_not_mem (h row hrow).2

/-! ### Numbers -/

def u64Limit : ℕ := 2 ^ 64

/-- `u64::from_str`: decimal digits after an optional plus sign, of a number below `2 ^ 64`. -/
def parseU64 (text : List Char) : Option ℕ :=
  let digits := match text with
    | '+' :: rest => rest
    | _ => text
  if digits ≠ [] ∧ digits.all Char.isDigit = true ∧ Nat.ofDigitChars 10 digits 0 < u64Limit then
    some (Nat.ofDigitChars 10 digits 0)
  else none

lemma isDigit_of_mem_decimal (h : c ∈ Nat.toDigits 10 n) : c.isDigit = true :=
  Nat.isDigit_of_mem_toDigits (by decide) (by decide) h

lemma parseU64_decimal (h : n < u64Limit) : parseU64 (Nat.toDigits 10 n) = some n := by
  have hdigits : (match Nat.toDigits 10 n with
      | '+' :: rest => rest
      | _ => Nat.toDigits 10 n) = Nat.toDigits 10 n := by
    split
    · rename_i rest heq
      have hplus : ('+' : Char).isDigit = true :=
        isDigit_of_mem_decimal (n := n) (by rw [heq]; exact mem_cons_self)
      cases hplus
    · rfl
  have hall : (Nat.toDigits 10 n).all Char.isDigit = true :=
    all_eq_true.mpr fun c hc => isDigit_of_mem_decimal hc
  unfold parseU64
  rw [hdigits]
  simp only [Nat.ofDigitChars_ten_toDigits]
  rw [if_pos ⟨Nat.toDigits_ne_nil, hall, h⟩]

/-! ### IPv4 addresses -/

structure Ipv4Addr where
  a : UInt8
  b : UInt8
  c : UInt8
  d : UInt8
deriving DecidableEq, Repr

/-- An octet in decimal.  Leading zeros and signs are refused, so its text is the decimal form of the
number. -/
def parseOctet (text : List Char) : Option UInt8 :=
  let n := Nat.ofDigitChars 10 text 0
  if Nat.toDigits 10 n = text ∧ n < 256 then some (UInt8.ofNat n) else none

def octetText (o : UInt8) : List Char := Nat.toDigits 10 o.toNat

lemma parseOctet_octetText (o : UInt8) : parseOctet (octetText o) = some o := by
  unfold parseOctet octetText
  simp only [Nat.ofDigitChars_ten_toDigits]
  rw [if_pos ⟨trivial, o.toNat_lt⟩, UInt8.ofNat_toNat]

lemma octetText_of_parseOctet {text : List Char} {o : UInt8} (h : parseOctet text = some o) :
    octetText o = text := by
  unfold parseOctet at h
  simp only at h
  split at h
  · rename_i hn
    cases h
    rw [octetText, UInt8.toNat_ofNat', Nat.mod_eq_of_lt hn.2]
    exact hn.1
  · cases h

namespace Ipv4Addr

def text (ip : Ipv4Addr) : List Char :=
  ['.'].intercalate [octetText ip.a, octetText ip.b, octetText ip.c, octetText ip.d]

/-- `Ipv4Addr::from_str`. -/
def parse (text : List Char) : Option Ipv4Addr :=
  match text.splitOn '.' with
  | [a, b, c, d] => do return ⟨← parseOctet a, ← parseOctet b, ← parseOctet c, ← parseOctet d⟩
  | _ => none

lemma mem_text {ip : Ipv4Addr} {x : Char} (h : x ∈ ip.text) : x.isDigit = true ∨ x = '.' := by
  have hoctet : ∀ o : UInt8, x ∈ octetText o → x.isDigit = true := fun o ho =>
    isDigit_of_mem_decimal ho
  simp only [text, List.intercalate, List.intersperse, flatten_cons, flatten_nil,
    append_nil, mem_append, mem_singleton] at h
  rcases h with h | h | h | h | h | h | h
  · exact .inl (hoctet _ h)
  · exact .inr h
  · exact .inl (hoctet _ h)
  · exact .inr h
  · exact .inl (hoctet _ h)
  · exact .inr h
  · exact .inl (hoctet _ h)

lemma parse_text (ip : Ipv4Addr) : parse ip.text = some ip := by
  have hsplit : ip.text.splitOn '.'
      = [octetText ip.a, octetText ip.b, octetText ip.c, octetText ip.d] := by
    refine splitOn_intercalate '.' ?_ (by simp)
    intro l hl hdot
    have hdigit : ('.' : Char).isDigit = true := by
      simp only [mem_cons, not_mem_nil, or_false] at hl
      rcases hl with rfl | rfl | rfl | rfl <;> exact isDigit_of_mem_decimal hdot
    cases hdigit
  unfold parse
  rw [hsplit]
  simp [parseOctet_octetText]

/-- An address has one text. -/
lemma text_of_parse {t : List Char} {ip : Ipv4Addr} (h : parse t = some ip) : ip.text = t := by
  unfold parse at h
  split at h
  · rename_i a b c d hsplit
    simp only [bind_eq_bind, bind_eq_some_iff, Option.pure_def,
      Option.some.injEq] at h
    obtain ⟨_, ha, _, hb, _, hc, _, hd, rfl⟩ := h
    rw [text, octetText_of_parseOctet ha, octetText_of_parseOctet hb, octetText_of_parseOctet hc,
      octetText_of_parseOctet hd, ← hsplit, intercalate_splitOn]
  · cases h

end Ipv4Addr

end Ket.Lib.Text
