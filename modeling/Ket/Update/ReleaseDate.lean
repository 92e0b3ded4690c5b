import Ket.Core.Calendar
import Ket.Lib.Numeral
import Ket.Lib.Slice

/-!
# The dates of releases (`ket-update/src/manifest.rs`)

`parse_date` reads a release day.  It has a day count of its own, over signed numbers, which is
the one of `ket-core` (`dayNumber_eq`).
-/

namespace Ket.Update

open Ket.Core Ket.Lib Ket.Lib.Gregorian

/-- The length of a month, if there is such a month. -/
def monthDays (year month : ℕ) : Option ℕ :=
  let leap := year % 4 = 0 ∧ (year % 100 ≠ 0 ∨ year % 400 = 0)
  if month ∈ [1, 3, 5, 7, 8, 10, 12] then some 31
  else if month ∈ [4, 6, 9, 11] then some 30
  else if month = 2 ∧ leap then some 29
  else if month = 2 then some 28
  else none

/-- The day count of `parse_date`, over `i64`. -/
def dayNumber (year month day : ℕ) : Option ℕ :=
  let shiftedYear : ℤ := year - if month ≤ 2 then 1 else 0
  let era := shiftedYear / 400
  let yearOfEra := shiftedYear - era * 400
  let month : ℤ := month
  let dayOfYear := (153 * (if 2 < month then month - 3 else month + 9) + 2).tdiv 5 + day - 1
  let dayOfEra := yearOfEra * 365 + yearOfEra.tdiv 4 - yearOfEra.tdiv 100 + dayOfYear
  let days := era * 146097 + dayOfEra - 719468
  if 0 ≤ days then some days.toNat else none

/-- A part of the text as a number. -/
def datePart (value : List UInt8) (start stop : ℕ) : Except Str.Panic (Option ℕ) := do
  let part ← Str.slice value start stop
  return if part.all isAsciiDigit then parseU32 part else none

/-- `parse_date`: days since 1970-01-01 for a strict `YYYY-MM-DD` date. -/
def parseDate (value : String) : Except Str.Panic (Option ℕ) :=
  let bytes := Str.bytes value
  if bytes.length ≠ 10 ∨ bytes[4]? ≠ some 0x2d ∨ bytes[7]? ≠ some 0x2d then .ok none
  else do
    let some year ← datePart bytes 0 4 | return none
    let some month ← datePart bytes 5 7 | return none
    let some day ← datePart bytes 8 10 | return none
    let some days := monthDays year month | return none
    if year < 1970 ∨ day = 0 ∨ days < day then return none
    return dayNumber year month day

/-- The text of a date. -/
def dateText (year month day : ℕ) : List UInt8 :=
  toDecimal 4 year ++ [0x2d] ++ toDecimal 2 month ++ [0x2d] ++ toDecimal 2 day

/-! ### The day count -/

lemma monthDays_eq (year month : ℕ) :
    monthDays year month =
      if daysInMonth year month = 0 then none else some (daysInMonth year month) := by
  by_cases hmonth : 1 ≤ month ∧ month ≤ 12
  · obtain ⟨h1, h12⟩ := hmonth
    interval_cases month <;> simp [monthDays, daysInMonth, isLeap]
    split_ifs <;> simp_all
  · have hnone : daysInMonth year month = 0 := by
      unfold daysInMonth
      split_ifs <;> omega
    rw [if_pos hnone, monthDays]
    simp only [List.mem_cons, List.not_mem_nil, or_false]
    split_ifs <;> first | rfl | omega

/-- A date is accepted if it is one of the calendar. -/
lemma monthDays_eq_some {year month day : ℕ} (hday : 1 ≤ day) :
    (∃ days, monthDays year month = some days ∧ day ≤ days) ↔ IsDate year month day := by
  rw [monthDays_eq]
  constructor
  · rintro ⟨days, hdays, hle⟩
    split_ifs at hdays
    cases hdays
    exact ⟨hday, hle⟩
  · rintro ⟨-, hle⟩
    rw [if_neg (by omega)]
    exact ⟨_, rfl, hle⟩

/-- The two day counts agree on every date from 1970 on. -/
lemma dayNumber_eq {year month day : ℕ} (hyear : 1970 ≤ year) (h : IsDate year month day) :
    dayNumber year month day = some (daysFromCivil year month day) := by
  have hcount := daysFromCivil_add hyear h.month_mem.1 h.1
  have hfirst := marchFirst_eq (marchYear year month)
  have hyears : (year : ℤ) - (if month ≤ 2 then 1 else 0) = (marchYear year month : ℕ) := by
    unfold marchYear
    split_ifs <;> omega
  have hmonths : (if (2 : ℤ) < month then (month : ℤ) - 3 else month + 9) =
      (marchMonth month : ℕ) := by
    unfold marchMonth
    split_ifs <;> omega
  have hstart : (153 * (marchMonth month : ℤ) + 2).tdiv 5 = (monthStart (marchMonth month) : ℕ) := by
    rw [Int.tdiv_eq_ediv_of_nonneg (by omega), monthStart]
    omega
  have hera : ((marchYear year month : ℕ) : ℤ) - ((marchYear year month : ℕ) : ℤ) / 400 * 400 =
      (marchYear year month % 400 : ℕ) := by
    omega
  unfold dayNumber
  simp only [hyears, hmonths, hstart, hera]
  rw [Int.tdiv_eq_ediv_of_nonneg (by omega), Int.tdiv_eq_ediv_of_nonneg (by omega)]
  have hdays : ((marchYear year month : ℕ) : ℤ) / 400 * 146097 +
      (((marchYear year month % 400 : ℕ) : ℤ) * 365 + ((marchYear year month % 400 : ℕ) : ℤ) / 4 -
        ((marchYear year month % 400 : ℕ) : ℤ) / 100 +
          (((monthStart (marchMonth month) : ℕ) : ℤ) + day - 1)) - 719468 =
      (daysFromCivil year month day : ℕ) := by
    have hday := h.1
    rw [epochDay] at hcount
    generalize marchYear year month = y at *
    generalize monthStart (marchMonth month) = m at *
    omega
  rw [hdays, if_pos (Int.natCast_nonneg _), Int.toNat_natCast]

/-! ### The parser -/

section

variable {value : String}

/-- The shape that the first test asks for. -/
def hasDashes (value : String) : Prop :=
  (Str.bytes value).length = 10 ∧ (Str.bytes value)[4]? = some 0x2d ∧
    (Str.bytes value)[7]? = some 0x2d

/-- The number that a part of the text stands for, if it is one. -/
def partValue (part : List UInt8) : Option ℕ := if part.all isAsciiDigit then parseU32 part else none

/-- No part of a text with dashes in the right places begins or ends inside a character. -/
lemma datePart_eq (h : hasDashes value) {start stop : ℕ}
    (hrange : (start = 0 ∧ stop = 4) ∨ (start = 5 ∧ stop = 7) ∨ (start = 8 ∧ stop = 10)) :
    datePart (Str.bytes value) start stop =
      .ok (partValue (((Str.bytes value).take stop).drop start)) := by
  obtain ⟨hlength, h4, h7⟩ := h
  obtain ⟨hb4, hb5⟩ := Str.isCharBoundary_of_ascii h4 (by decide)
  obtain ⟨hb7, hb8⟩ := Str.isCharBoundary_of_ascii h7 (by decide)
  have hb0 : Str.isCharBoundary (Str.bytes value) 0 = true := rfl
  have hb10 : Str.isCharBoundary (Str.bytes value) 10 = true := by
    simp [Str.isCharBoundary, hlength]
  have hslice : Str.slice (Str.bytes value) start stop =
      .ok (((Str.bytes value).take stop).drop start) := by
    rcases hrange with ⟨rfl, rfl⟩ | ⟨rfl, rfl⟩ | ⟨rfl, rfl⟩
    · exact Str.slice_eq (by decide) hb0 hb4
    · exact Str.slice_eq (by decide) hb5 hb7
    · exact Str.slice_eq (by decide) hb8 hb10
  rw [datePart, hslice]
  rfl

/-- A part of `n` digits is read as the number it stands for. -/
lemma partValue_eq_some {part : List UInt8} {n x : ℕ} (hlength : part.length = n) (hn : 0 < n)
    (hmax : n ≤ 4) : partValue part = some x ↔ x < 10 ^ n ∧ part = toDecimal n x := by
  subst hlength
  unfold partValue
  constructor
  · intro h
    split_ifs at h with hdigits
    obtain ⟨hback, hlt⟩ := toDecimal_ofDecimal hdigits
    unfold parseU32 at h
    split_ifs at h
    cases h
    exact ⟨hlt, hback.symm⟩
  · rintro ⟨hlt, hpart⟩
    have hdigits : part.all isAsciiDigit = true := by
      rw [hpart]
      exact all_isAsciiDigit_toDecimal _ _
    have hx : ofDecimal part = x := by
      rw [hpart]
      exact ofDecimal_toDecimal hlt
    have hsmall : x < 2 ^ 32 := by
      have : 10 ^ part.length ≤ 10 ^ 4 := Nat.pow_le_pow_right (by decide) hmax
      omega
    rw [if_pos hdigits, parseU32, hx, if_pos ⟨List.length_pos_iff.mp hn, hdigits, hsmall⟩]

/-- The three parts and the dashes between them. -/
lemma bytes_eq_of_hasDashes {bs : List UInt8} (hlength : bs.length = 10)
    (h4 : bs[4]? = some 0x2d) (h7 : bs[7]? = some 0x2d) :
    bs = (bs.take 4).drop 0 ++ [0x2d] ++ (bs.take 7).drop 5 ++ [0x2d] ++ (bs.take 10).drop 8 := by
  match bs, hlength with
  | [b0, b1, b2, b3, b4, b5, b6, b7, b8, b9], _ =>
    cases h4
    cases h7
    rfl

lemma hasDashes_of_bytes_eq {a b c : List UInt8} (ha : a.length = 4) (hb : b.length = 2)
    (hc : c.length = 2) (h : Str.bytes value = a ++ [0x2d] ++ b ++ [0x2d] ++ c) :
    hasDashes value ∧ ((Str.bytes value).take 4).drop 0 = a ∧
      ((Str.bytes value).take 7).drop 5 = b ∧ ((Str.bytes value).take 10).drop 8 = c := by
  match a, b, c, ha, hb, hc with
  | [_, _, _, _], [_, _], [_, _], _, _, _ =>
    unfold hasDashes
    rw [h]
    exact ⟨⟨rfl, rfl, rfl⟩, rfl, rfl, rfl⟩

/-- What the parser returns once the dashes are in place. -/
lemma parseDate_of_hasDashes (h : hasDashes value) :
    parseDate value = .ok (do
      let year ← partValue (((Str.bytes value).take 4).drop 0)
      let month ← partValue (((Str.bytes value).take 7).drop 5)
      let day ← partValue (((Str.bytes value).take 10).drop 8)
      let days ← monthDays year month
      if year < 1970 ∨ day = 0 ∨ days < day then none else dayNumber year month day) := by
  have hshape : ¬ ((Str.bytes value).length ≠ 10 ∨ (Str.bytes value)[4]? ≠ some 0x2d ∨
      (Str.bytes value)[7]? ≠ some 0x2d) := by
    obtain ⟨hlength, h4, h7⟩ := h
    rw [hlength, h4, h7]
    decide
  unfold parseDate
  simp only [if_neg hshape, datePart_eq h (.inl ⟨rfl, rfl⟩), datePart_eq h (.inr (.inl ⟨rfl, rfl⟩)),
    datePart_eq h (.inr (.inr ⟨rfl, rfl⟩))]
  generalize partValue (((Str.bytes value).take 4).drop 0) = year
  generalize partValue (((Str.bytes value).take 7).drop 5) = month
  generalize partValue (((Str.bytes value).take 10).drop 8) = day
  cases year with
  | none => rfl
  | some year =>
    cases month with
    | none => rfl
    | some month =>
      cases day with
      | none => rfl
      | some day =>
        dsimp only [bind, Except.bind, pure, Except.pure, Option.bind]
        cases monthDays year month with
        | none => rfl
        | some days =>
          dsimp only
          split_ifs <;> rfl

lemma parseDate_of_not_hasDashes (h : ¬ hasDashes value) : parseDate value = .ok none := by
  refine if_pos ?_
  by_contra hshape
  rw [not_or, not_or, not_not, not_not, not_not] at hshape
  exact h hshape

/-- The parser never panics. -/
lemma exists_parseDate (value : String) : ∃ result, parseDate value = .ok result := by
  by_cases h : hasDashes value
  · exact ⟨_, parseDate_of_hasDashes h⟩
  · exact ⟨_, parseDate_of_not_hasDashes h⟩

/-- The parser accepts the texts of the dates from 1970 to 9999. -/
lemma parseDate_eq_some {days : ℕ} :
    parseDate value = .ok (some days) ↔ ∃ year month day, 1970 ≤ year ∧ year ≤ 9999 ∧
      IsDate year month day ∧ Str.bytes value = dateText year month day ∧
        days = daysFromCivil year month day := by
  constructor
  · intro h
    have hdashes : hasDashes value := by
      by_contra hno
      rw [parseDate_of_not_hasDashes hno] at h
      cases h
    rw [parseDate_of_hasDashes hdashes, Except.ok.injEq] at h
    obtain ⟨hlength, h4, h7⟩ := hdashes
    simp only [Option.bind_eq_bind, Option.bind_eq_some_iff] at h
    obtain ⟨year, hyear, month, hmonth, day, hday, n, hn, h⟩ := h
    rw [partValue_eq_some (n := 4) (by simp [hlength]) (by decide) le_rfl] at hyear
    rw [partValue_eq_some (n := 2) (by simp [hlength]) (by decide) (by decide)] at hmonth
    rw [partValue_eq_some (n := 2) (by simp [hlength]) (by decide) (by decide)] at hday
    split_ifs at h with hrefused
    have hdate : IsDate year month day :=
      (monthDays_eq_some (by omega)).mp ⟨n, hn, by omega⟩
    have h1970 : 1970 ≤ year := by omega
    rw [dayNumber_eq h1970 hdate] at h
    refine ⟨year, month, day, h1970, by omega, hdate, ?_, (Option.some.inj h).symm⟩
    rw [bytes_eq_of_hasDashes hlength h4 h7, hyear.2, hmonth.2, hday.2, dateText]
  · rintro ⟨year, month, day, h1970, h9999, hdate, hbytes, hdays⟩
    obtain ⟨hmonth1, hmonth12⟩ := hdate.month_mem
    have hday31 := le_trans hdate.2 (daysInMonth_le year month)
    obtain ⟨hdashes, hyear, hmonth, hday⟩ :=
      hasDashes_of_bytes_eq (by simp) (by simp) (by simp) hbytes
    obtain ⟨n, hn, hle⟩ := (monthDays_eq_some hdate.1).mpr hdate
    have hpos := hdate.1
    rw [parseDate_of_hasDashes hdashes, hyear, hmonth, hday,
      (partValue_eq_some (by simp) (by decide) le_rfl).mpr ⟨by omega, rfl⟩,
      (partValue_eq_some (by simp) (by decide) (by decide)).mpr ⟨by omega, rfl⟩,
      (partValue_eq_some (by simp) (by decide) (by decide)).mpr ⟨by omega, rfl⟩]
    simp only [Option.bind_eq_bind, Option.bind_some, hn]
    rw [if_neg (by omega), dayNumber_eq h1970 hdate, hdays]

end

/-- **The two calendars agree.**  Every day since 1970-01-01 has a date of the Gregorian calendar
and is the day count of that date.  The parser of release dates answers every text, accepts the
texts `YYYY-MM-DD` of dates from 1970 on and no others, and returns the same day count. -/
theorem calendars_agree :
    (∀ days : ℕ, ∃ year month day, civilFromDays days = (year, month, day) ∧
        IsDate year month day ∧ daysFromCivil year month day = days) ∧
      ∀ value : String, (∃ result, parseDate value = .ok result) ∧
        ∀ days, parseDate value = .ok (some days) ↔ ∃ year month day, 1970 ≤ year ∧ year ≤ 9999 ∧
          IsDate year month day ∧ Str.bytes value = dateText year month day ∧
            days = daysFromCivil year month day := by
  refine ⟨fun days => ?_, fun value => ⟨exists_parseDate value, fun days => parseDate_eq_some⟩⟩
  obtain ⟨-, hdate, hdays⟩ := daysFromCivil_civilFromDays days
  exact ⟨_, _, _, rfl, hdate, hdays⟩

end Ket.Update
