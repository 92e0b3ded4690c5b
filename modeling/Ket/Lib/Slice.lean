import Ket.Lib.Str

/-!
# Slices of a string by byte positions

Indexing a `str` by a range of bytes panics when an end of the range is inside a character.
Around an ASCII byte there is always a boundary.
-/

namespace Ket.Lib.Str

/-- The program stops with a panic. -/
inductive Panic where
  | charBoundary
deriving DecidableEq, Repr

/-- A byte in the middle of a character. -/
def isContinuation (b : UInt8) : Bool := decide (0x80 ≤ b.toNat ∧ b.toNat < 0xc0)

/-- `str::is_char_boundary`. -/
def isCharBoundary (bs : List UInt8) (i : ℕ) : Bool :=
  i == 0 || i == bs.length || bs[i]?.any fun b => !isContinuation b

/-- `&text[from..to]`, by the bytes of the text. -/
def slice (bs : List UInt8) (start stop : ℕ) : Except Panic (List UInt8) :=
  if start ≤ stop ∧ isCharBoundary bs start ∧ isCharBoundary bs stop then
    .ok ((bs.take stop).drop start)
  else .error .charBoundary

/-- The bytes of a character: a first byte, and continuation bytes only if that is not ASCII. -/
lemma utf8EncodeChar_eq_cons (c : Char) :
    ∃ b rest, String.utf8EncodeChar c = b :: rest ∧ isContinuation b = false ∧
      (∀ r ∈ rest, 0x80 ≤ r.toNat) ∧ (b.toNat < 0x80 → rest = []) := by
  unfold String.utf8EncodeChar
  simp only
  split
  · refine ⟨_, [], rfl, ?_, by simp, fun _ => rfl⟩
    simp only [isContinuation, decide_eq_false_iff_not, UInt8.toNat_ofNat']
    omega
  · split
    · refine ⟨_, _, rfl, ?_, ?_, ?_⟩
      all_goals simp [isContinuation]
      all_goals omega
    · split
      · refine ⟨_, _, rfl, ?_, ?_, ?_⟩
        all_goals simp [isContinuation]
        all_goals omega
      · refine ⟨_, _, rfl, ?_, ?_, ?_⟩
        all_goals simp [isContinuation]
        all_goals omega

/-- The byte after an ASCII byte begins a character. -/
lemma not_isContinuation_of_ascii {cs : List Char} {i : ℕ} {b r : UInt8}
    (h : (cs.flatMap String.utf8EncodeChar)[i]? = some b) (hb : b.toNat < 0x80)
    (hr : (cs.flatMap String.utf8EncodeChar)[i + 1]? = some r) : isContinuation r = false := by
  induction cs generalizing i with
  | nil => simp at h
  | cons c cs ih =>
    obtain ⟨first, rest, hc, -, hrest, hascii⟩ := utf8EncodeChar_eq_cons c
    rw [List.flatMap_cons, hc] at h hr
    rcases Nat.lt_or_ge i (first :: rest).length with hlt | hge
    · -- the ASCII byte is in `c`, which then has no other byte
      rw [List.getElem?_append_left hlt] at h
      have hfirst : i = 0 ∧ first.toNat < 0x80 := by
        cases i with
        | zero =>
          cases h
          exact ⟨rfl, hb⟩
        | succ i =>
          have hmem := List.mem_of_getElem? (List.getElem?_cons_succ ▸ h)
          have := hrest b hmem
          omega
      obtain ⟨rfl, hfirst⟩ := hfirst
      rw [hascii hfirst] at hr
      cases cs with
      | nil => simp at hr
      | cons d cs =>
        obtain ⟨next, _, hd, hnext, -⟩ := utf8EncodeChar_eq_cons d
        rw [List.flatMap_cons, hd] at hr
        cases hr
        exact hnext
    · obtain ⟨j, rfl⟩ := Nat.exists_eq_add_of_le hge
      rw [List.getElem?_append_right (Nat.le_add_right _ _), Nat.add_sub_cancel_left] at h
      rw [Nat.add_assoc, List.getElem?_append_right (Nat.le_add_right _ _),
        Nat.add_sub_cancel_left] at hr
      exact ih h hr

/-- There is a boundary before and after an ASCII byte. -/
lemma isCharBoundary_of_ascii {s : String} {i : ℕ} {b : UInt8} (h : (bytes s)[i]? = some b)
    (hb : b.toNat < 0x80) :
    isCharBoundary (bytes s) i = true ∧ isCharBoundary (bytes s) (i + 1) = true := by
  have hascii : isContinuation b = false := decide_eq_false (by omega)
  refine ⟨by simp [isCharBoundary, h, hascii], ?_⟩
  cases hr : (bytes s)[i + 1]? with
  | none =>
    have hend : i + 1 = (bytes s).length :=
      le_antisymm (List.getElem?_eq_some_iff.mp h).1 (List.getElem?_eq_none_iff.mp hr)
    simp [isCharBoundary, hend]
  | some r =>
    have hnext : isContinuation r = false := by
      rw [bytes_eq_flatMap] at h hr
      exact not_isContinuation_of_ascii h hb hr
    simp [isCharBoundary, hr, hnext]

lemma slice_eq {bs : List UInt8} {start stop : ℕ} (hle : start ≤ stop)
    (hstart : isCharBoundary bs start = true) (hstop : isCharBoundary bs stop = true) :
    slice bs start stop = .ok ((bs.take stop).drop start) :=
  if_pos ⟨hle, hstart, hstop⟩

end Ket.Lib.Str
