import Ket.Core.Calendar

/-!
# The periods of an allowance (`ket-core/src/allowance.rs`)

`AllowancePeriod::start` and `end` cut the time into periods, without gap or overlap, that begin
at midnights, on Mondays and on the first of a month.  Times are natural numbers here: the products
with the seconds of a day are the only large ones, and the end of a period is at most 31 days away.
-/

namespace Ket.Core

open Ket.Lib Ket.Lib.Gregorian

/-- The day of the week, from 0 for Monday; 1970-01-01 was a Thursday. -/
def weekday (day : ℕ) : ℕ := (day + 3) % 7

namespace AllowancePeriod

variable (p : AllowancePeriod)

/-- The first day of the period that holds a day. -/
def firstDay (day : ℕ) : ℕ :=
  match p with
  | .day => day
  | .week => day - weekday day
  | .month => daysFromCivil (civilFromDays day).1 (civilFromDays day).2.1 1

/-- The first day of the period after the one that holds a day. -/
def nextDay (day : ℕ) : ℕ :=
  match p with
  | .day => p.firstDay day + 1
  | .week => p.firstDay day + 7
  | .month =>
    let next := nextMonth (civilFromDays day).1 (civilFromDays day).2.1
    daysFromCivil next.1 next.2 1

lemma start_eq (now : ℕ) : p.start now = p.firstDay (now / secondsPerDay) * secondsPerDay := by
  cases p <;> rfl

lemma endsAt_eq (now : ℕ) : p.endsAt now = p.nextDay (now / secondsPerDay) * secondsPerDay := by
  cases p with
  | day => rw [endsAt, start_eq, nextDay, Nat.succ_mul]
  | week => rw [endsAt, start_eq, nextDay, Nat.add_mul]
  | month => rfl

/-- The first day on which the week is not cut short by the beginning of time. -/
def firstMonday : ℕ := 4

lemma tiles_day (day : ℕ) : Tiles (firstDay .day) (nextDay .day) day := by
  refine ⟨le_rfl, Nat.lt_succ_self day, ?_, rfl⟩
  intro u hle hlt
  obtain rfl : u = day := le_antisymm (Nat.lt_succ_iff.mp hlt) hle
  exact ⟨rfl, rfl⟩

lemma tiles_week {day : ℕ} (h : firstMonday ≤ day) : Tiles (firstDay .week) (nextDay .week) day := by
  simp only [firstMonday] at h
  constructor <;> simp only [nextDay, firstDay, weekday] <;> intros <;> omega

/-- The days of a month, counted from its first. -/
lemma civilFromDays_add {year month k : ℕ} (hyear : 1970 ≤ year) (hk : k < daysInMonth year month) :
    civilFromDays (daysFromCivil year month 1 + k) = (year, month, k + 1) := by
  have hdate : IsDate year month (k + 1) := ⟨by omega, hk⟩
  have hcount := daysFromCivil_day hyear hdate.month_mem.1 hdate.1
  rw [Nat.add_sub_cancel] at hcount
  rw [← hcount, civilFromDays_daysFromCivil hyear hdate]

lemma tiles_month (day : ℕ) : Tiles (firstDay .month) (nextDay .month) day := by
  obtain ⟨year, month, d, hyear, hdate, rfl⟩ := exists_date day
  obtain ⟨h1, h12⟩ := hdate.month_mem
  have hcivil := civilFromDays_daysFromCivil hyear hdate
  have hday := daysFromCivil_day hyear h1 hdate.1
  have hnext := daysFromCivil_nextMonth hyear h1 h12
  obtain ⟨hmin, hmax⟩ := hdate
  have hfirst : firstDay .month (daysFromCivil year month d) = daysFromCivil year month 1 := by
    rw [firstDay, hcivil]
  have hend : nextDay .month (daysFromCivil year month d) =
      daysFromCivil year month 1 + daysInMonth year month := by
    simp only [nextDay, hcivil, hnext]
  refine ⟨?_, ?_, ?_, ?_⟩
  · rw [hfirst]
    omega
  · rw [hend]
    omega
  · intro u hle hlt
    rw [hfirst] at hle ⊢
    rw [hend] at hlt ⊢
    obtain ⟨k, rfl⟩ := Nat.exists_eq_add_of_le hle
    have hu := civilFromDays_add hyear (Nat.lt_of_add_lt_add_left hlt)
    refine ⟨by rw [firstDay, hu], ?_⟩
    simp only [nextDay, hu, hnext]
  · -- the first day of the next month is the first day of its month
    obtain ⟨hn1, hn12⟩ := @nextMonth_mem year month h1 h12
    have hnyear := le_trans hyear (le_nextMonth year month)
    rw [hend, ← hnext, firstDay,
      civilFromDays_daysFromCivil hnyear (isDate_first hn1 hn12)]

lemma tiles_days {p : AllowancePeriod} {day : ℕ} (h : p = .week → firstMonday ≤ day) :
    Tiles p.firstDay p.nextDay day := by
  cases p with
  | day => exact tiles_day day
  | week => exact tiles_week (h rfl)
  | month => exact tiles_month day

lemma nextDay_le (day : ℕ) : p.nextDay day ≤ day + 31 := by
  cases p with
  | day => simp [nextDay, firstDay]
  | week =>
    simp only [nextDay, firstDay]
    omega
  | month =>
    obtain ⟨hyear, hdate, hcount⟩ := daysFromCivil_civilFromDays day
    obtain ⟨h1, h12⟩ := hdate.month_mem
    have hnext := daysFromCivil_nextMonth hyear h1 h12
    have hday := daysFromCivil_day hyear h1 hdate.1
    have hlength := daysInMonth_le (civilFromDays day).1 (civilFromDays day).2.1
    simp only [nextDay]
    omega

/-- **Allowance periods cut the time.**  Around every time, from the first Monday on for weeks, the
periods hold their times and follow each other without gap or overlap; they begin at midnights, on
Mondays and on the first of a month, and end within 31 days. -/
theorem periods_tile (p : AllowancePeriod) (now : ℕ)
    (h : p = .week → firstMonday * secondsPerDay ≤ now) : p.start now ≤ now ∧ now < p.endsAt now ∧
      (∀ t, p.start now ≤ t → t < p.endsAt now →
        p.start t = p.start now ∧ p.endsAt t = p.endsAt now) ∧
      p.start (p.endsAt now) = p.endsAt now ∧ secondsPerDay ∣ p.start now ∧
      (p = .week → weekday (p.start now / secondsPerDay) = 0) ∧
      (p = .month → (civilFromDays (p.start now / secondsPerDay)).2.2 = 1) ∧
      p.endsAt now ≤ now + 31 * secondsPerDay := by
  have hpos : 0 < secondsPerDay := by decide
  have hmonday : p = .week → firstMonday ≤ now / secondsPerDay := fun hp =>
    (Nat.le_div_iff_mul_le hpos).mpr (h hp)
  have htiles : Tiles p.start p.endsAt now := by
    rw [funext p.start_eq, funext p.endsAt_eq]
    exact (tiles_days hmonday).scale hpos
  have hstart : p.start now / secondsPerDay = p.firstDay (now / secondsPerDay) := by
    rw [start_eq, Nat.mul_div_cancel _ hpos]
  refine ⟨htiles.le, htiles.lt, htiles.same, htiles.first_next, ?_, ?_, ?_, ?_⟩
  · rw [start_eq]
    exact Nat.dvd_mul_left _ _
  · rintro rfl
    have hday := hmonday rfl
    rw [hstart]
    simp only [firstDay, weekday, firstMonday] at hday ⊢
    omega
  · rintro rfl
    obtain ⟨hyear, hdate, -⟩ := daysFromCivil_civilFromDays (now / secondsPerDay)
    obtain ⟨h1, h12⟩ := hdate.month_mem
    rw [hstart, firstDay, civilFromDays_daysFromCivil hyear (isDate_first h1 h12)]
  · rw [endsAt_eq]
    calc p.nextDay (now / secondsPerDay) * secondsPerDay
        ≤ (now / secondsPerDay + 31) * secondsPerDay :=
          Nat.mul_le_mul_right _ (p.nextDay_le _)
      _ = now / secondsPerDay * secondsPerDay + 31 * secondsPerDay := Nat.add_mul _ _ _
      _ ≤ now + 31 * secondsPerDay := Nat.add_le_add_right (Nat.div_mul_le_self _ _) _

/-- The month of a leap day, and its week, which ends in the next month. -/
theorem periods_tile_leapDay : (AllowancePeriod.month.start 1709210096 = 1706745600 ∧
      AllowancePeriod.month.endsAt 1709210096 = 1709251200 ∧
      AllowancePeriod.month.start 1709251200 = 1709251200) ∧
    AllowancePeriod.week.start 1709210096 = 1708905600 ∧
      AllowancePeriod.week.endsAt 1709210096 = 1709510400 ∧
      AllowancePeriod.week.start 1709510400 = 1709510400 := by
  have hmonth : AllowancePeriod.month.endsAt 1709210096 = 1709251200 := by decide
  have hweek : AllowancePeriod.week.endsAt 1709210096 = 1709510400 := by decide
  have htile := periods_tile .month 1709210096 (by simp)
  have htile' := periods_tile .week 1709210096 (by decide)
  rw [hmonth] at htile
  rw [hweek] at htile'
  exact ⟨⟨by decide, hmonth, htile.2.2.2.1⟩, by decide, hweek, htile'.2.2.2.1⟩

end AllowancePeriod

end Ket.Core
