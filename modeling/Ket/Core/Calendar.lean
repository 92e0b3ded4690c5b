import Ket.Core.Allowance
import Ket.Lib.Calendar

/-!
# Days and dates (`ket-core/src/allowance.rs`)

The two conversions between days since 1970-01-01 and dates are inverse to each other, on every
day and every date of the Gregorian calendar from 1970 on.

The formulas count years from March, so that the leap day is the last day of a year, in cycles of
400 years (`era`).  `dayOfMarchYear` is their closed form; the day count of a date goes up by one
from day to day and from the last day of a month to the first of the next one, so that every day
has a date.
-/

namespace Ket.Core

open Ket.Lib.Gregorian

/-- Days from 0000-03-01 to the first of March of `year`. -/
def marchFirst (year : ℕ) : ℕ := 365 * year + year / 4 - year / 100 + year / 400

/-- Days from the first of March to the first of a month, the months counted from March. -/
def monthStart (shiftedMonth : ℕ) : ℕ := (153 * shiftedMonth + 2) / 5

/-- The year of a date when years begin in March. -/
def marchYear (year month : ℕ) : ℕ := if month ≤ 2 then year - 1 else year

/-- The month of a date when years begin in March. -/
def marchMonth (month : ℕ) : ℕ := if 2 < month then month - 3 else month + 9

variable {year month day : ℕ}

lemma marchFirst_eq (year : ℕ) :
    year / 400 * 146097 + (year % 400 * 365 + year % 400 / 4 - year % 400 / 100) =
      marchFirst year := by
  unfold marchFirst
  omega

/-- A year that begins in March ends with the February of the next year. -/
lemma marchFirst_succ (year : ℕ) :
    marchFirst (year + 1) = marchFirst year + if isLeap (year + 1) then 366 else 365 := by
  have hleap : isLeap (year + 1) = true ↔
      4 ∣ year + 1 ∧ (¬ 100 ∣ year + 1 ∨ 400 ∣ year + 1) := by
    rw [isLeap_iff, Nat.dvd_iff_mod_eq_zero, Nat.dvd_iff_mod_eq_zero, Nat.dvd_iff_mod_eq_zero]
  have h100 : 400 ∣ year + 1 → 100 ∣ year + 1 := dvd_trans (by decide)
  have h4 : 100 ∣ year + 1 → 4 ∣ year + 1 := dvd_trans (by decide)
  have hsmall : year / 100 ≤ year := Nat.div_le_self year 100
  simp only [marchFirst, Nat.succ_div, hleap]
  by_cases hd4 : 4 ∣ year + 1 <;> by_cases hd100 : 100 ∣ year + 1 <;>
    by_cases hd400 : 400 ∣ year + 1
  all_goals simp_all
  all_goals omega

lemma marchFirst_mono : Monotone marchFirst :=
  monotone_nat_of_le_succ fun year => by
    rw [marchFirst_succ]
    exact Nat.le_add_right _ _

/-- Days from 0000-03-01 to 1970-01-01. -/
def epochDay : ℕ := 719468

/-- 1970-01-01 is ten months after March of 1969. -/
lemma epochDay_le (hyear : 1970 ≤ year) (hmonth : 1 ≤ month) :
    epochDay ≤ marchFirst (marchYear year month) + monthStart (marchMonth month) := by
  have h1969 : marchFirst 1969 + monthStart 10 = epochDay := by decide
  rcases Nat.lt_or_ge 2 month with hlate | hearly
  · have h1970 : epochDay ≤ marchFirst 1970 := by decide
    have hmono := marchFirst_mono hyear
    rw [marchYear, if_neg (by omega)]
    omega
  · have hmono : marchFirst 1969 ≤ marchFirst (year - 1) := marchFirst_mono (by omega)
    have hstart : monthStart 10 ≤ monthStart (month + 9) := by
      unfold monthStart
      omega
    rw [marchYear, if_pos hearly, marchMonth, if_neg (by omega)]
    omega

/-- The closed form of the day count. -/
lemma daysFromCivil_add (hyear : 1970 ≤ year) (hmonth : 1 ≤ month) (hday : 1 ≤ day) :
    daysFromCivil year month day + epochDay =
      marchFirst (marchYear year month) + monthStart (marchMonth month) + (day - 1) := by
  have hle := epochDay_le hyear hmonth
  have hfirst := marchFirst_eq (marchYear year month)
  have hdays : daysFromCivil year month day =
      marchYear year month / 400 * 146097 + (marchYear year month % 400 * 365 +
        marchYear year month % 400 / 4 - marchYear year month % 400 / 100 +
          (monthStart (marchMonth month) + day - 1)) - epochDay := rfl
  rw [hdays]
  generalize marchYear year month = y at *
  generalize monthStart (marchMonth month) = m at *
  generalize epochDay = n at *
  omega

/-- The day count goes up by one from day to day of a month. -/
lemma daysFromCivil_day (hyear : 1970 ≤ year) (hmonth : 1 ≤ month) (hday : 1 ≤ day) :
    daysFromCivil year month day = daysFromCivil year month 1 + (day - 1) := by
  have hcount := daysFromCivil_add hyear hmonth hday
  have hfirst := daysFromCivil_add hyear hmonth le_rfl
  omega

/-- From the first of a month to the first of the next one.  Only from February to March does the
year that begins in March change. -/
lemma marchFirst_nextMonth (hyear : 1 ≤ year) (h1 : 1 ≤ month) (h12 : month ≤ 12) :
    marchFirst (marchYear (nextMonth year month).1 (nextMonth year month).2) +
        monthStart (marchMonth (nextMonth year month).2) =
      marchFirst (marchYear year month) + monthStart (marchMonth month) +
        daysInMonth year month := by
  by_cases hfebruary : month = 2
  · subst hfebruary
    have hmarch := marchFirst_succ (year - 1)
    rw [Nat.sub_add_cancel hyear] at hmarch
    simp [nextMonth, marchYear, marchMonth, monthStart, daysInMonth, hmarch]
    split_ifs <;> rfl
  · interval_cases month
    all_goals simp [nextMonth, marchYear, marchMonth, monthStart, daysInMonth] at hfebruary ⊢

/-- The day count goes up from one month to the next by the length of the month. -/
lemma daysFromCivil_nextMonth (hyear : 1970 ≤ year) (h1 : 1 ≤ month) (h12 : month ≤ 12) :
    daysFromCivil (nextMonth year month).1 (nextMonth year month).2 1 =
      daysFromCivil year month 1 + daysInMonth year month := by
  have hnext := daysFromCivil_add (le_trans hyear (le_nextMonth year month))
    (@nextMonth_mem year month h1 h12).1 le_rfl
  have hcount := daysFromCivil_add hyear h1 le_rfl
  have hmarch := marchFirst_nextMonth (by omega : 1 ≤ year) h1 h12
  omega

/-- Every day since 1970-01-01 has a date. -/
lemma exists_date (days : ℕ) :
    ∃ year month day, 1970 ≤ year ∧ IsDate year month day ∧ daysFromCivil year month day = days := by
  induction days with
  | zero => exact ⟨1970, 1, 1, le_rfl, by decide, by decide⟩
  | succ days ih =>
    obtain ⟨year, month, day, hyear, hdate, rfl⟩ := ih
    obtain ⟨h1, h12⟩ := hdate.month_mem
    have hday := daysFromCivil_day hyear h1 hdate.1
    rcases Nat.lt_or_ge day (daysInMonth year month) with hlt | hge
    · -- the next day of the same month
      refine ⟨year, month, day + 1, hyear, ⟨by omega, hlt⟩, ?_⟩
      rw [daysFromCivil_day hyear h1 (by omega), hday, Nat.add_sub_cancel]
      have := hdate.1
      omega
    · -- the first day of the next month
      have hlast : day = daysInMonth year month := le_antisymm hdate.2 hge
      obtain ⟨hn1, hn12⟩ := @nextMonth_mem year month h1 h12
      refine ⟨_, _, 1, le_trans hyear (le_nextMonth year month), isDate_first hn1 hn12, ?_⟩
      rw [daysFromCivil_nextMonth hyear h1 h12, hday, ← hlast]
      have := hdate.1
      omega

/-! ### From days to dates -/

/-- The year of a day in the cycle of 400 years: the corrections of the formula take off the leap
days before it. -/
lemma yearOfEra_eq {yearOfEra dayOfYear : ℕ} (hyear : yearOfEra < 400)
    (hday : dayOfYear < if isLeap (yearOfEra + 1) then 366 else 365) :
    let dayOfEra := 365 * yearOfEra + yearOfEra / 4 - yearOfEra / 100 + dayOfYear
    dayOfEra < 146097 ∧
      (dayOfEra - dayOfEra / 1460 + dayOfEra / 36524 - dayOfEra / 146096) / 365 = yearOfEra := by
  intro dayOfEra
  -- centuries, blocks of four years and single years
  obtain ⟨c, q, t, hc, hq, ht, rfl⟩ : ∃ c q t, c < 4 ∧ q < 25 ∧ t < 4 ∧
      yearOfEra = 100 * c + 4 * q + t :=
    ⟨yearOfEra / 100, yearOfEra % 100 / 4, yearOfEra % 4, by omega, by omega, by omega, by omega⟩
  have hlast : dayOfYear ≤ 365 ∧ (dayOfYear = 365 → t = 3 ∧ (q < 24 ∨ c = 3)) := by
    split_ifs at hday with hleap
    · rw [isLeap_iff] at hleap
      omega
    · omega
  have hdays : dayOfEra = 36524 * c + 1461 * q + 365 * t + dayOfYear := by
    omega
  clear_value dayOfEra
  subst hdays
  clear hday
  by_cases hend : c = 3 ∧ q = 24 ∧ t = 3 ∧ dayOfYear = 365
  · -- the very last day of the cycle
    obtain ⟨rfl, rfl, rfl, rfl⟩ := hend
    decide
  · have h146096 : (36524 * c + 1461 * q + 365 * t + dayOfYear) / 146096 = 0 := by omega
    have h36524 : (36524 * c + 1461 * q + 365 * t + dayOfYear) / 36524 = c := by omega
    obtain ⟨leap, h1460, hleap⟩ : ∃ leap,
        (36524 * c + 1461 * q + 365 * t + dayOfYear) / 1460 = 25 * c + q + leap ∧
          leap ≤ dayOfYear ∧ dayOfYear - leap < 365 := by
      by_cases hlate : 1460 ≤ 24 * c + q + 365 * t + dayOfYear
      · exact ⟨1, by omega, by omega, by omega⟩
      · exact ⟨0, by omega, by omega, by omega⟩
    rw [h146096, h36524, h1460]
    omega

/-- The month of a day in a year that begins in March, and the day of that month. -/
lemma month_of_dayOfYear {shiftedMonth day : ℕ} (hmonth : shiftedMonth < 12)
    (hday : day < if shiftedMonth = 11 then 29 else
      monthStart (shiftedMonth + 1) - monthStart shiftedMonth) :
    (5 * (monthStart shiftedMonth + day) + 2) / 153 = shiftedMonth := by
  unfold monthStart at hday ⊢
  interval_cases shiftedMonth
  all_goals
    simp only [reduceIte, Nat.reduceEqDiff, Nat.reduceMul, Nat.reduceAdd, Nat.reduceDiv,
      Nat.reduceSub] at hday ⊢
    omega

/-- A date is in its month of the year that begins in March, and in that year. -/
lemma march_of_isDate (hyear : 1 ≤ year) (h : IsDate year month day) : marchMonth month < 12 ∧
      (day - 1 < if marchMonth month = 11 then 29 else
        monthStart (marchMonth month + 1) - monthStart (marchMonth month)) ∧
      monthStart (marchMonth month) + (day - 1) <
        if isLeap (marchYear year month + 1) then 366 else 365 := by
  obtain ⟨h1, h12⟩ := h.month_mem
  obtain ⟨hmin, hmax⟩ := h
  by_cases hfebruary : month = 2
  · subst hfebruary
    have hsame : year - 1 + 1 = year := Nat.sub_add_cancel hyear
    simp only [marchMonth, marchYear, monthStart, daysInMonth, le_refl, lt_irrefl, if_true,
      if_false, hsame] at hmax ⊢
    split_ifs at hmax ⊢ <;> omega
  · have hlong : 365 ≤ if isLeap (marchYear year month + 1) then 366 else 365 := by
      split_ifs <;> decide
    suffices hshort : marchMonth month < 12 ∧
        (day - 1 < if marchMonth month = 11 then 29 else
          monthStart (marchMonth month + 1) - monthStart (marchMonth month)) ∧
        monthStart (marchMonth month) + (day - 1) < 365 from
      ⟨hshort.1, hshort.2.1, lt_of_lt_of_le hshort.2.2 hlong⟩
    clear hlong
    interval_cases month
    all_goals
      simp [marchMonth, monthStart, daysInMonth] at hfebruary hmax ⊢
      try omega

/-- A date is found again from its day count. -/
theorem civilFromDays_daysFromCivil (hyear : 1970 ≤ year) (h : IsDate year month day) :
    civilFromDays (daysFromCivil year month day) = (year, month, day) := by
  obtain ⟨h1, h12⟩ := h.month_mem
  have hcount := daysFromCivil_add hyear h1 h.1
  obtain ⟨hmonth, hday, hyearday⟩ := march_of_isDate (by omega : 1 ≤ year) h
  have hera : isLeap (marchYear year month % 400 + 1) = isLeap (marchYear year month + 1) := by
    rw [Bool.eq_iff_iff, isLeap_iff, isLeap_iff]
    omega
  rw [← hera] at hyearday
  obtain ⟨hcycle, hyearOfEra⟩ := yearOfEra_eq (Nat.mod_lt _ (by decide)) hyearday
  have hshifted := month_of_dayOfYear hmonth hday
  -- the day in the cycle, and the number of the cycle
  have hdays : daysFromCivil year month day + 719468 = 146097 * (marchYear year month / 400) +
      (365 * (marchYear year month % 400) + marchYear year month % 400 / 4 -
        marchYear year month % 400 / 100 + (monthStart (marchMonth month) + (day - 1))) := by
    have hfirst := marchFirst_eq (marchYear year month)
    rw [epochDay] at hcount
    rw [hcount, ← hfirst, Nat.mul_comm 146097, Nat.mul_comm 365, Nat.add_assoc, Nat.add_assoc]
  have hdiv : (daysFromCivil year month day + 719468) / 146097 = marchYear year month / 400 := by
    rw [hdays, Nat.mul_add_div (by decide), Nat.div_eq_of_lt hcycle, Nat.add_zero]
  have hmod := congrArg (· % 146097) hdays
  simp only [Nat.mul_add_mod, Nat.mod_eq_of_lt hcycle] at hmod
  have hdayOfMonth : monthStart (marchMonth month) + (day - 1) -
      (153 * marchMonth month + 2) / 5 + 1 = day := by
    have := h.1
    rw [← monthStart]
    omega
  have hmonthBack : (if marchMonth month < 10 then marchMonth month + 3
      else marchMonth month - 9) = month := by
    unfold marchMonth
    split_ifs <;> omega
  have hyearBack : marchYear year month % 400 + marchYear year month / 400 * 400 +
      (if month ≤ 2 then 1 else 0) = year := by
    rw [Nat.mul_comm, Nat.mod_add_div]
    unfold marchYear
    split_ifs <;> omega
  unfold civilFromDays
  simp only [hdiv, hmod, hyearOfEra, Nat.add_sub_cancel_left, hshifted, hdayOfMonth, hmonthBack,
    hyearBack]

/-- A day is found again from its date, which is a date of the calendar. -/
theorem daysFromCivil_civilFromDays (days : ℕ) : 1970 ≤ (civilFromDays days).1 ∧
      IsDate (civilFromDays days).1 (civilFromDays days).2.1 (civilFromDays days).2.2 ∧
      daysFromCivil (civilFromDays days).1 (civilFromDays days).2.1 (civilFromDays days).2.2 =
        days := by
  obtain ⟨year, month, day, hyear, hdate, rfl⟩ := exists_date days
  rw [civilFromDays_daysFromCivil hyear hdate]
  exact ⟨hyear, hdate, rfl⟩

end Ket.Core
