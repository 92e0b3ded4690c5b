import Ket.Lib.Text

/-!
# Heads of text messages

A message head is a sequence of lines, each with a carriage return and a line feed behind it.  Bytes
may be searched for the line of a field, `hasField`: by the letter of the protocol a line starts
behind a carriage return and a line feed, but readers may also let a line feed alone end a line
(`LineEnd`).  The search goes line by line (`hasField_append_crlf`), whichever of the two ends a line.
-/

namespace Ket.Lib.Head

open List

/-! ### Bytes of ASCII text -/

def cr : UInt8 := 0x0d
def lf : UInt8 := 0x0a
def colon : UInt8 := 0x3a
def space : UInt8 := 0x20

def crlf : List UInt8 := [cr, lf]

/-- `u8::to_ascii_lowercase`. -/
def toLower (b : UInt8) : UInt8 := if 0x41 ≤ b ∧ b ≤ 0x5a then b + 0x20 else b

/-- `str::eq_ignore_ascii_case`. -/
def eqIgnoreCase (s t : List UInt8) : Bool := s.map toLower == t.map toLower

/-- The first position at which the bytes are found. -/
def find (needle : List UInt8) : List UInt8 → Option ℕ
  | [] => if needle = [] then some 0 else none
  | b :: rest => if needle.isPrefixOf (b :: rest) then some 0 else (find needle rest).map (· + 1)

/-- `str::split_once` at a byte. -/
def splitOnce (sep : UInt8) : List UInt8 → Option (List UInt8 × List UInt8)
  | [] => none
  | b :: rest =>
    if b = sep then some ([], rest)
    else (splitOnce sep rest).map fun (before, after) => (b :: before, after)

/-- The bytes between line ends. -/
def splitCrlf : List UInt8 → List (List UInt8)
  | [] => [[]]
  | [b] => [[b]]
  | b :: c :: rest =>
    if b = cr ∧ c = lf then [] :: splitCrlf rest
    else (splitCrlf (c :: rest)).modifyHead (b :: ·)

/-- `str::trim_matches` for a set of bytes. -/
def trimMatches (p : UInt8 → Bool) (s : List UInt8) : List UInt8 :=
  ((s.dropWhile p).reverse.dropWhile p).reverse

variable {b : UInt8} {line s needle : List UInt8} {lines : List (List UInt8)} {n : ℕ}

lemma toLower_eq_iff {c : UInt8} (hc : ¬ (0x61 ≤ c ∧ c ≤ 0x7a)) (hc' : ¬ (0x41 ≤ c ∧ c ≤ 0x5a)) :
    toLower b = c ↔ b = c := by
  unfold toLower
  split
  · rename_i hb
    constructor
    · rintro rfl
      exfalso
      apply hc
      simp only [UInt8.le_iff_toNat_le, UInt8.toNat_add, UInt8.toNat_ofNat] at hb ⊢
      omega
    · rintro rfl
      exact absurd hb hc'
  · rfl

@[simp] lemma toLower_eq_colon : toLower b = colon ↔ b = colon :=
  toLower_eq_iff (by decide) (by decide)

lemma toLower_colon : toLower colon = colon := by decide

/-! ### The line of a field -/

/-- What ends a line. -/
inductive LineEnd where
  | crlf
  | lf
deriving DecidableEq, Repr

def LineEnd.bytes : LineEnd → List UInt8
  | crlf => Head.crlf
  | lf => [Head.lf]

/-- The bytes start with a field name and a colon.  The name is given in lowercase. -/
def startsField (name s : List UInt8) : Bool := (name ++ [colon]).isPrefixOf (s.map toLower)

/-- Behind some line end stands the field. -/
def innerField (e : LineEnd) (name : List UInt8) : List UInt8 → Bool
  | [] => false
  | b :: rest =>
    (e.bytes.isPrefixOf (b :: rest) && startsField name ((b :: rest).drop e.bytes.length)) ||
      innerField e name rest

/-- Some line, the first one included, is one of the field. -/
def hasField (e : LineEnd) (name s : List UInt8) : Bool := startsField name s || innerField e name s

section Field

variable {e : LineEnd} {name s t rest : List UInt8} {b : UInt8}

/-- A byte that is not in the pattern ends the comparison. -/
lemma isPrefixOf_append_cons {p : List UInt8} (hb : b ∉ p) :
    p.isPrefixOf (s ++ b :: rest) = p.isPrefixOf s := by
  induction s generalizing p with
  | nil =>
    cases p with
    | nil => rfl
    | cons c p =>
      have hne : (c == b) = false := beq_false_of_ne fun h => hb (h ▸ mem_cons_self)
      simp [List.isPrefixOf, hne]
  | cons c s ih =>
    cases p with
    | nil => rfl
    | cons d p =>
      simp only [cons_append, List.isPrefixOf]
      rw [ih fun h => hb (mem_cons_of_mem _ h)]

/-- A byte that can be no part of the field's name and its colon. -/
def isBreak (name : List UInt8) (b : UInt8) : Prop :=
  toLower b ∉ name ∧ b ≠ colon

lemma startsField_append_cons (hb : isBreak name b) :
    startsField name (s ++ b :: rest) = startsField name s := by
  have hnot : toLower b ∉ name ++ [colon] := by
    intro h
    rcases mem_append.mp h with h | h
    · exact hb.1 h
    · exact hb.2 (toLower_eq_colon.mp (mem_singleton.mp h))
  rw [startsField, map_append, map_cons, isPrefixOf_append_cons hnot, startsField]

/-- The field of a line `name: value` is its name. -/
lemma startsField_header (hname : colon ∉ name) (hs : colon ∉ s) :
    startsField name (s ++ colon :: rest) = (s.map toLower == name) := by
  have hlower : colon ∉ s.map toLower := by
    intro h
    obtain ⟨b, hb, hcolon⟩ := mem_map.mp h
    exact hs (toLower_eq_colon.mp hcolon ▸ hb)
  rw [Bool.eq_iff_iff, startsField, isPrefixOf_iff_prefix, map_append, map_cons,
    toLower_colon, beq_iff_eq]
  constructor
  · rintro ⟨t, ht⟩
    -- the two texts are the same up to their first colon
    have hleft : ∀ {p q : List UInt8}, colon ∉ p →
        (p ++ colon :: q).takeWhile (fun b => b != colon) = p := by
      intro p q hp
      rw [takeWhile_append_of_pos]
      · simp
      · intro b hb
        have hne : b ≠ colon := fun h => hp (h ▸ hb)
        simpa using hne
    have htake := congrArg (List.takeWhile fun b => b != colon) ht
    rw [append_assoc, singleton_append, hleft hname, hleft hlower] at htake
    exact htake.symm
  · rintro rfl
    exact ⟨rest.map toLower, by simp⟩

/-- A byte in the middle that belongs neither to the name nor to the end of a line end splits the
search. -/
lemma innerField_append_break (hb : isBreak name b) (hlf : b ≠ lf) :
    innerField e name (s ++ b :: rest)
      = (innerField e name s || innerField e name (b :: rest)) := by
  have hstarts : ∀ t, startsField name (t ++ b :: rest) = startsField name t :=
    fun t => startsField_append_cons hb
  have hblf : (lf == b) = false := beq_false_of_ne hlf.symm
  induction s with
  | nil => rfl
  | cons c s ih =>
    have hhead : (e.bytes.isPrefixOf (c :: (s ++ b :: rest)) &&
          startsField name ((c :: (s ++ b :: rest)).drop e.bytes.length))
        = (e.bytes.isPrefixOf (c :: s) && startsField name ((c :: s).drop e.bytes.length)) := by
      cases e with
      | lf => simp [LineEnd.bytes, List.isPrefixOf, hstarts]
      | crlf =>
        cases s with
        | nil => simp [LineEnd.bytes, List.isPrefixOf, crlf, hblf]
        | cons d s => simp [LineEnd.bytes, List.isPrefixOf, crlf, hstarts]
    show ((e.bytes.isPrefixOf (c :: (s ++ b :: rest)) &&
      startsField name ((c :: (s ++ b :: rest)).drop e.bytes.length)) ||
        innerField e name (s ++ b :: rest)) = _
    rw [hhead, ih, ← Bool.or_assoc]
    rfl

/-- A line end in the middle splits the search. -/
lemma innerField_append_crlf (hcr : cr ∉ name) :
    innerField e name (s ++ crlf ++ rest) = (innerField e name s || hasField e name rest) := by
  rw [append_assoc]
  refine (innerField_append_break ⟨hcr, by decide⟩ (by decide)).trans ?_
  cases e <;> simp [innerField, hasField, LineEnd.bytes, List.isPrefixOf, cr, lf, crlf]

/-- **Line by line.**  The field is in the first line or in the rest. -/
lemma hasField_append_crlf (hcr : cr ∉ name) :
    hasField e name (s ++ crlf ++ rest) = (hasField e name s || hasField e name rest) := by
  have hstarts : startsField name (s ++ crlf ++ rest) = startsField name s := by
    rw [append_assoc]
    exact startsField_append_cons ⟨hcr, by decide⟩
  rw [hasField, hstarts, innerField_append_crlf hcr, ← Bool.or_assoc]
  rfl

/-- The lines of a head in front of other bytes. -/
lemma hasField_lines (hcr : cr ∉ name) {lines : List (List UInt8)} :
    hasField e name (lines.flatMap (fun line => line ++ crlf) ++ rest)
      = (lines.any (hasField e name) || hasField e name rest) := by
  induction lines with
  | nil => rfl
  | cons line lines ih =>
    rw [flatMap_cons, append_assoc, hasField_append_crlf hcr, ih, any_cons,
      Bool.or_assoc]

/-! ### Parts of a text -/

lemma isPrefixOf_append {p : List UInt8} (h : p.isPrefixOf s = true) :
    p.isPrefixOf (s ++ t) = true :=
  isPrefixOf_iff_prefix.mpr ((List.isPrefixOf_iff_prefix.mp h).trans (prefix_append s t))

lemma startsField_append (h : startsField name s = true) : startsField name (s ++ t) = true := by
  rw [startsField, map_append]
  exact isPrefixOf_append h

lemma innerField_append (h : innerField e name s = true) : innerField e name (s ++ t) = true := by
  induction s with
  | nil => cases h
  | cons b s ih =>
    simp only [innerField, Bool.or_eq_true, Bool.and_eq_true] at h
    simp only [cons_append, innerField, Bool.or_eq_true, Bool.and_eq_true]
    rcases h with ⟨hend, hfield⟩ | h
    · refine .inl ⟨isPrefixOf_append hend, ?_⟩
      have hlen : e.bytes.length ≤ (b :: s).length :=
        (List.isPrefixOf_iff_prefix.mp hend).length_le
      rw [← cons_append, drop_append_of_le_length hlen]
      exact startsField_append hfield
    · exact .inr (ih h)

/-- More bytes do not hide a field. -/
lemma hasField_append (h : hasField e name s = true) : hasField e name (s ++ t) = true := by
  simp only [hasField, Bool.or_eq_true] at h ⊢
  exact h.imp startsField_append innerField_append

lemma innerField_of_suffix (h : innerField e name t = true) : innerField e name (s ++ t) = true := by
  induction s with
  | nil => exact h
  | cons b s ih =>
    simp only [cons_append, innerField, Bool.or_eq_true]
    exact .inr ih

lemma innerField_of_isInfix (hpart : t <:+: s) (h : innerField e name s = false) :
    innerField e name t = false := by
  obtain ⟨before, after, rfl⟩ := hpart
  by_contra hfield
  rw [innerField_append (innerField_of_suffix (Bool.eq_true_of_not_eq_false hfield))] at h
  cases h

/-- The start of a text without line ends. -/
lemma innerField_append_of_not_mem (hcr : cr ∉ s) (hlf : lf ∉ s) :
    innerField e name (s ++ t) = innerField e name t := by
  induction s with
  | nil => rfl
  | cons b s ih =>
    have hne : e.bytes.isPrefixOf (b :: (s ++ t)) = false := by
      have hbcr : (cr == b) = false := beq_false_of_ne fun h => hcr (h ▸ mem_cons_self)
      have hblf : (lf == b) = false := beq_false_of_ne fun h => hlf (h ▸ mem_cons_self)
      cases e <;> simp [LineEnd.bytes, crlf, List.isPrefixOf, hbcr, hblf]
    simp only [cons_append, innerField, hne, Bool.false_and, Bool.false_or]
    exact ih (fun h => hcr (mem_cons_of_mem _ h)) fun h => hlf (mem_cons_of_mem _ h)

lemma innerField_eq_false (hcr : cr ∉ s) (hlf : lf ∉ s) : innerField e name s = false := by
  have h : innerField e name (s ++ []) = innerField e name [] :=
    innerField_append_of_not_mem hcr hlf
  rw [append_nil] at h
  exact h

/-- A byte in the middle that belongs neither to the name nor to a line end. -/
lemma innerField_append_cons (hb : isBreak name b) (hcr : b ≠ cr) (hlf : b ≠ lf) :
    innerField e name (s ++ b :: rest) = (innerField e name s || innerField e name rest) := by
  have hbcr : (cr == b) = false := beq_false_of_ne hcr.symm
  have hblf : (lf == b) = false := beq_false_of_ne hlf.symm
  rw [innerField_append_break hb hlf]
  cases e <;> simp [innerField, LineEnd.bytes, crlf, List.isPrefixOf, hbcr, hblf]

end Field

/-! ### Splitting -/

lemma splitCrlf_ne_nil (s : List UInt8) : splitCrlf s ≠ [] := by
  fun_induction splitCrlf s with
  | case1 => simp
  | case2 => simp
  | case3 => simp
  | case4 b c rest _ ih =>
    cases h : splitCrlf (c :: rest) with
    | nil => exact absurd h ih
    | cons => simp

lemma prefix_of_splitCrlf (h : splitCrlf s = line :: lines) : line <+: s := by
  fun_induction splitCrlf s generalizing line lines with
  | case1 =>
    cases h
    exact prefix_rfl
  | case2 b =>
    cases h
    exact prefix_rfl
  | case3 =>
    cases h
    exact nil_prefix
  | case4 b c rest _ ih =>
    cases hrest : splitCrlf (c :: rest) with
    | nil => exact absurd hrest (splitCrlf_ne_nil _)
    | cons first more =>
      rw [hrest] at h
      cases h
      exact cons_prefix_cons.mpr ⟨rfl, ih hrest⟩

/-- No line has a line end. -/
lemma innerField_of_mem_splitCrlf {name : List UInt8} (h : line ∈ splitCrlf s) :
    innerField .crlf name line = false := by
  fun_induction splitCrlf s generalizing line with
  | case1 =>
    rw [mem_singleton.mp h]
    rfl
  | case2 b =>
    rw [mem_singleton.mp h]
    simp [innerField, LineEnd.bytes, crlf, List.isPrefixOf]
  | case3 b c rest hend ih =>
    rcases mem_cons.mp h with rfl | h
    · rfl
    · exact ih h
  | case4 b c rest hend ih =>
    cases hrest : splitCrlf (c :: rest) with
    | nil => exact absurd hrest (splitCrlf_ne_nil _)
    | cons first more =>
      rw [hrest] at h ih
      rcases mem_cons.mp h with rfl | h
      · -- the byte in front makes no line end with the first byte of the line
        have hstart : crlf.isPrefixOf (b :: first) = false := by
          have hfirst := prefix_of_splitCrlf hrest
          cases first with
          | nil => simp [crlf, List.isPrefixOf]
          | cons d first =>
            obtain rfl : d = c := (cons_prefix_cons.mp hfirst).1
            rw [Bool.eq_false_iff]
            intro hpre
            simp only [crlf, List.isPrefixOf, Bool.and_true, Bool.and_eq_true,
              beq_iff_eq] at hpre
            exact hend ⟨hpre.1.symm, hpre.2.symm⟩
        show ((crlf.isPrefixOf (b :: first) && _) || innerField .crlf name first) = false
        rw [hstart, ih mem_cons_self]
        rfl
      · exact ih (mem_cons_of_mem _ h)

lemma eq_of_splitOnce {sep : UInt8} {before after : List UInt8}
    (h : splitOnce sep s = some (before, after)) : s = before ++ sep :: after ∧ sep ∉ before := by
  induction s generalizing before with
  | nil => cases h
  | cons b s ih =>
    simp only [splitOnce] at h
    split at h
    · rename_i hb
      cases h
      exact ⟨by rw [hb]; rfl, by simp⟩
    · rename_i hb
      obtain ⟨⟨before', after'⟩, hsplit, heq⟩ := Option.map_eq_some_iff.mp h
      cases heq
      obtain ⟨rfl, hnot⟩ := ih hsplit
      refine ⟨rfl, fun hmem => ?_⟩
      rcases mem_cons.mp hmem with h | h
      · exact hb h.symm
      · exact hnot h

lemma trimMatches_isInfix (p : UInt8 → Bool) (s : List UInt8) : trimMatches p s <:+: s := by
  have hfront : s.dropWhile p <:+ s := dropWhile_suffix p
  have hback : trimMatches p s <+: s.dropWhile p := by
    have := dropWhile_suffix p (l := (s.dropWhile p).reverse)
    rw [← reverse_prefix, reverse_reverse] at this
    exact this
  exact hback.isInfix.trans hfront.isInfix

lemma eq_of_find (h : find needle s = some n) :
    ∃ before after, s = before ++ needle ++ after ∧ before.length = n := by
  induction s generalizing n with
  | nil =>
    simp only [find] at h
    split at h
    · rename_i hnil
      cases h
      exact ⟨[], [], by simp [hnil], rfl⟩
    · cases h
  | cons b s ih =>
    simp only [find] at h
    split at h
    · rename_i hpre
      obtain ⟨after, hafter⟩ := isPrefixOf_iff_prefix.mp hpre
      cases h
      exact ⟨[], after, hafter.symm, rfl⟩
    · obtain ⟨m, hm, rfl⟩ := Option.map_eq_some_iff.mp h
      obtain ⟨before, after, rfl, hlen⟩ := ih hm
      exact ⟨b :: before, after, rfl, by rw [length_cons, hlen]⟩

/-- A text that was found stays the first when more comes behind. -/
lemma find_append {t : List UInt8} (h : find needle s = some n) :
    find needle (s ++ t) = some n := by
  induction s generalizing n with
  | nil =>
    have hnil : needle = [] := by
      by_contra hne
      simp [find, hne] at h
    subst hnil
    cases h
    cases t <;> simp [find]
  | cons b s ih =>
    simp only [find] at h
    simp only [cons_append, find]
    split at h
    · rename_i hpre
      rw [← cons_append, if_pos (isPrefixOf_append hpre)]
      exact h
    · rename_i hpre
      obtain ⟨m, hm, rfl⟩ := Option.map_eq_some_iff.mp h
      have hnot : ¬ needle.isPrefixOf (b :: (s ++ t)) = true := by
        intro hlong
        apply hpre
        -- the text is found in `s`, so it is not longer than `b :: s`
        obtain ⟨before, after, rfl, -⟩ := eq_of_find hm
        refine isPrefixOf_iff_prefix.mpr (prefix_of_prefix_length_le
          (List.isPrefixOf_iff_prefix.mp hlong) (prefix_append (b :: _) t) ?_)
        simp only [length_cons, length_append]
        omega
      rw [if_neg hnot, ih hm]
      rfl

/-- What is found is found first. -/
lemma le_of_find {m : ℕ} (h : find needle s = some n) (hm : needle <+: s.drop m) : n ≤ m := by
  induction s generalizing n m with
  | nil =>
    simp only [find] at h
    split at h
    · cases h
      exact Nat.zero_le m
    · cases h
  | cons b s ih =>
    simp only [find] at h
    split at h
    · cases h
      exact Nat.zero_le m
    · rename_i hnot
      obtain ⟨n', hn', rfl⟩ := Option.map_eq_some_iff.mp h
      cases m with
      | zero => exact absurd (List.isPrefixOf_iff_prefix.mpr hm) hnot
      | succ m => exact Nat.succ_le_succ (ih hn' hm)

lemma not_isInfix_of_find (h : find needle s = none) : ¬ needle <:+: s := by
  induction s with
  | nil =>
    simp only [find, ite_eq_right_iff] at h
    intro hinfix
    cases h (infix_nil.mp hinfix)
  | cons b s ih =>
    simp only [find] at h
    split at h
    · cases h
    · rename_i hnot
      intro hinfix
      rcases infix_cons_iff.mp hinfix with hstart | hinner
      · exact hnot (List.isPrefixOf_iff_prefix.mpr hstart)
      · exact ih (Option.map_eq_none_iff.mp h) hinner

/-! ### Lines that a line feed ends -/

/-- A line without one carriage return at its end. -/
def stripReturn (line : List UInt8) : List UInt8 :=
  if line.getLast? = some cr then line.dropLast else line

/-- The lines that line feeds end, each without a carriage return in front of the line feed. -/
def lfLines (s : List UInt8) : List (List UInt8) := ((s.splitOn lf).dropLast).map stripReturn

/-- What stands behind the last line feed. -/
def lfRest (s : List UInt8) : List UInt8 := (s.splitOn lf).getLast?.getD []

lemma lf_not_mem_of_mem_lfLines (h : line ∈ lfLines s) : lf ∉ line := by
  obtain ⟨part, hpart, rfl⟩ := mem_map.mp h
  intro hlf
  have hmem : lf ∈ part := by
    rw [stripReturn] at hlf
    split at hlf
    · exact mem_of_mem_dropLast hlf
    · exact hlf
  exact (Text.of_mem_splitOn (mem_of_mem_dropLast hpart) hmem).2 rfl

lemma splitOn_lf_lines (h : ∀ line ∈ lines, lf ∉ line) :
    (lines.flatMap fun line => line ++ crlf).splitOn lf = lines.map (· ++ [cr]) ++ [[]] := by
  induction lines with
  | nil => rfl
  | cons line lines ih =>
    obtain ⟨hline, hlines⟩ := forall_mem_cons.mp h
    have hnot : lf ∉ line ++ [cr] := by
      rw [mem_append, mem_singleton]
      exact not_or.mpr ⟨hline, by decide⟩
    have hsplit : (line :: lines).flatMap (fun line => line ++ crlf) =
        (line ++ [cr]) ++ lf :: lines.flatMap fun line => line ++ crlf := by simp [crlf]
    rw [hsplit, splitOn_append_cons_self_of_not_mem hnot, ih hlines, map_cons,
      cons_append]

/-- **Lines without line feeds** are found again. -/
lemma lfLines_lines (h : ∀ line ∈ lines, lf ∉ line) :
    lfLines (lines.flatMap fun line => line ++ crlf) = lines ∧
      lfRest (lines.flatMap fun line => line ++ crlf) = [] := by
  rw [lfLines, lfRest, splitOn_lf_lines h, dropLast_concat, getLast?_concat, map_map]
  refine ⟨(map_congr_left fun line _ => ?_).trans (map_id _), rfl⟩
  rw [Function.comp_apply, stripReturn, getLast?_concat, if_pos rfl, dropLast_concat]
  rfl

end Ket.Lib.Head
