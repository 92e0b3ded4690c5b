import Mathlib.Tactic

/-!
# Data allowances and their periods (`ket-core/src/allowance.rs`)

How much an access grant's devices may move together in each UTC calendar day, week (from
Monday) or month.  Times are Unix seconds; days are counted from 1970-01-01.
-/

namespace Ket.Core

/-- `MIN_ALLOWANCE_BYTES`. -/
def minAllowanceBytes : ℕ := 2 ^ 20

/-- `MAX_ALLOWANCE_BYTES`. -/
def maxAllowanceBytes : ℕ := 2 ^ 50

/-- `SECONDS_PER_DAY`. -/
def secondsPerDay : ℕ := 86400

inductive AllowancePeriod where
  | day
  | week
  | month
deriving DecidableEq, Repr

structure DataAllowance where
  bytes : ℕ
  period : AllowancePeriod
deriving DecidableEq, Repr

def DataAllowance.isValid (a : DataAllowance) : Bool :=
  decide (minAllowanceBytes ≤ a.bytes ∧ a.bytes ≤ maxAllowanceBytes)

/-- An allowance and how much of it this period has used. -/
structure AllowanceStatus where
  allowance : DataAllowance
  usedBytes : ℕ
  resetsAt : ℕ
deriving DecidableEq, Repr

def AllowanceStatus.isUsedUp (s : AllowanceStatus) : Bool :=
  decide (s.allowance.bytes ≤ s.usedBytes)

/-- Days since 1970-01-01 to a proleptic Gregorian date, as year, month and day. -/
def civilFromDays (days : ℕ) : ℕ × ℕ × ℕ :=
  let z := days + 719468
  let era := z / 146097
  let dayOfEra := z % 146097
  let yearOfEra := (dayOfEra - dayOfEra / 1460 + dayOfEra / 36524 - dayOfEra / 146096) / 365
  let dayOfYear := dayOfEra - (365 * yearOfEra + yearOfEra / 4 - yearOfEra / 100)
  let shiftedMonth := (5 * dayOfYear + 2) / 153
  let day := dayOfYear - (153 * shiftedMonth + 2) / 5 + 1
  let month := if shiftedMonth < 10 then shiftedMonth + 3 else shiftedMonth - 9
  let year := yearOfEra + era * 400 + (if month ≤ 2 then 1 else 0)
  (year, month, day)

/-- A proleptic Gregorian date, from 1970 on, to days since 1970-01-01. -/
def daysFromCivil (year month day : ℕ) : ℕ :=
  let year := if month ≤ 2 then year - 1 else year
  let era := year / 400
  let yearOfEra := year % 400
  let shiftedMonth := if 2 < month then month - 3 else month + 9
  let dayOfYear := (153 * shiftedMonth + 2) / 5 + day - 1
  let dayOfEra := yearOfEra * 365 + yearOfEra / 4 - yearOfEra / 100 + dayOfYear
  era * 146097 + dayOfEra - 719468

namespace AllowancePeriod

/-- `AllowancePeriod::start`: the start of the period holding `now`. -/
def start (p : AllowancePeriod) (now : ℕ) : ℕ :=
  let day := now / secondsPerDay
  let first := match p with
    | .day => day
    -- 1970-01-01 was a Thursday, so day 4 was a Monday.
    | .week => day - (day + 3) % 7
    | .month =>
      let date := civilFromDays day
      daysFromCivil date.1 date.2.1 1
  first * secondsPerDay

/-- `AllowancePeriod::end`: when the period holding `now` ends and the next one begins. -/
def endsAt (p : AllowancePeriod) (now : ℕ) : ℕ :=
  match p with
  | .day => p.start now + secondsPerDay
  | .week => p.start now + 7 * secondsPerDay
  | .month =>
    let date := civilFromDays (now / secondsPerDay)
    let next := if date.2.1 = 12 then (date.1 + 1, 1) else (date.1, date.2.1 + 1)
    daysFromCivil next.1 next.2 1 * secondsPerDay

end AllowancePeriod

end Ket.Core
