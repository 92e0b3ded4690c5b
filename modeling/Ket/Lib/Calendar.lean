import Mathlib.Tactic

/-!
# Calendars

The dates of the (proleptic) Gregorian calendar by the lengths of their months, and the month that
follows another.

A timeline is cut into periods by two functions: `first t` is where the period of `t` begins, and
`next t` where the one after it begins.  `Tiles first next t` says that around `t` they do cut it,
without gap or overlap.  Periods given in days are periods in seconds too (`Tiles.scale`).
-/

namespace Ket.Lib

/-- The period of `t` holds `t`, is the period of all its times, and ends where the next one
begins. -/
structure Tiles (first next : ℕ → ℕ) (t : ℕ) : Prop where
  le : first t ≤ t
  lt : t < next t
  same : ∀ u, first t ≤ u → u < next t → first u = first t ∧ next u = next t
  first_next : first (next t) = next t

/-- Periods of units of time are periods of their parts. -/
lemma Tiles.scale {first next : ℕ → ℕ} {unit t : ℕ} (hunit : 0 < unit)
    (h : Tiles first next (t / unit)) :
    Tiles (fun t => first (t / unit) * unit) (fun t => next (t / unit) * unit) t where
  le := (Nat.mul_le_mul_right unit h.le).trans (Nat.div_mul_le_self t unit)
  lt := (Nat.div_lt_iff_lt_mul hunit).mp h.lt
  same := by
    intro u hle hlt
    obtain ⟨hfirst, hnext⟩ := h.same (u / unit) ((Nat.le_div_iff_mul_le hunit).mpr hle)
      ((Nat.div_lt_iff_lt_mul hunit).mpr hlt)
    exact ⟨congrArg (· * unit) hfirst, congrArg (· * unit) hnext⟩
  first_next := by
    simp only [Nat.mul_div_cancel _ hunit, h.first_next]

namespace Gregorian

def isLeap (year : ℕ) : Bool :=
  decide (year % 4 = 0 ∧ (year % 100 ≠ 0 ∨ year % 400 = 0))

/-- The number of days of a month; there are none in a month that does not exist. -/
def daysInMonth (year month : ℕ) : ℕ :=
  if month = 2 then (if isLeap year then 29 else 28)
  else if month = 4 ∨ month = 6 ∨ month = 9 ∨ month = 11 then 30
  else if 1 ≤ month ∧ month ≤ 12 then 31
  else 0

/-- There is such a date. -/
def IsDate (year month day : ℕ) : Prop := 1 ≤ day ∧ day ≤ daysInMonth year month

instance (year month day : ℕ) : Decidable (IsDate year month day) :=
  inferInstanceAs (Decidable (_ ∧ _))

/-- The month after a month. -/
def nextMonth (year month : ℕ) : ℕ × ℕ :=
  if month = 12 then (year + 1, 1) else (year, month + 1)

variable {year month day : ℕ}

lemma isLeap_iff : isLeap year = true ↔ year % 4 = 0 ∧ (year % 100 ≠ 0 ∨ year % 400 = 0) :=
  decide_eq_true_iff

lemma IsDate.month_mem (h : IsDate year month day) : 1 ≤ month ∧ month ≤ 12 := by
  obtain ⟨h1, h2⟩ := h
  unfold daysInMonth at h2
  split_ifs at h2 <;> omega

lemma daysInMonth_le (year month : ℕ) : daysInMonth year month ≤ 31 := by
  unfold daysInMonth
  split_ifs <;> omega

lemma daysInMonth_pos (h1 : 1 ≤ month) (h2 : month ≤ 12) : 28 ≤ daysInMonth year month := by
  unfold daysInMonth
  split_ifs <;> omega

lemma isDate_first (h1 : 1 ≤ month) (h2 : month ≤ 12) : IsDate year month 1 :=
  ⟨le_rfl, le_trans (by decide) (daysInMonth_pos h1 h2)⟩

lemma nextMonth_mem (h1 : 1 ≤ month) (h2 : month ≤ 12) :
    1 ≤ (nextMonth year month).2 ∧ (nextMonth year month).2 ≤ 12 := by
  unfold nextMonth
  split_ifs <;> dsimp only <;> omega

lemma le_nextMonth (year month : ℕ) : year ≤ (nextMonth year month).1 := by
  unfold nextMonth
  split_ifs <;> simp

end Gregorian

end Ket.Lib
