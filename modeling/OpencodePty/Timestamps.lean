import Mathlib.Tactic.Common
import OpencodePty.TextEncodings

/-!
# Timestamps of the worker

The worker turns the system clock into an ISO date by itself. Every date it writes before
the year 10000 names a day that exists, in the format that `Date.parse` is documented to
accept.
-/

namespace OpencodePty.Timestamps

open OpencodePty.JsValues OpencodePty.TextEncodings

/-- A date and a time of day, as written in a timestamp. -/
structure DateTime where
  year : Nat
  month : Nat
  day : Nat
  hour : Nat
  minute : Nat
  second : Nat
  millisecond : Nat
  deriving DecidableEq

def DateTime.text (date : DateTime) : List Char :=
  padded 4 date.year ++ '-' :: padded 2 date.month ++ '-' :: padded 2 date.day ++ 'T' ::
    padded 2 date.hour ++ ':' :: padded 2 date.minute ++ ':' :: padded 2 date.second ++ '.' ::
    padded 3 date.millisecond ++ ['Z']

def isLeapYear (year : Nat) : Bool := year % 4 == 0 && (year % 100 != 0 || year % 400 == 0)

def daysInMonth (year month : Nat) : Nat :=
  if month = 2 then if isLeapYear year then 29 else 28
  else if month = 4 ∨ month = 6 ∨ month = 9 ∨ month = 11 then 30 else 31

/-- The date is in the calendar, its year has four digits. -/
structure DateTime.Valid (date : DateTime) : Prop where
  year : date.year ≤ 9999
  month : 1 ≤ date.month ∧ date.month ≤ 12
  day : 1 ≤ date.day ∧ date.day ≤ daysInMonth date.year date.month
  hour : date.hour ≤ 23
  minute : date.minute ≤ 59
  second : date.second ≤ 59
  millisecond : date.millisecond ≤ 999

/-- `Date.parse` returns a time for every date in the format of its specification. -/
def ParsesDates (dateParse : JsString → Option Int) : Prop :=
  ∀ date : DateTime, date.Valid → (dateParse (encode date.text)).isSome

/-- A date in that format. -/
def newYear : JsString := js "2026-01-01T00:00:00.000Z"

/-- `Date.parse`, of that one date. -/
def parseNewYear (text : JsString) : Option Int :=
  if text = newYear then some 1767225600000 else none

/-- The milliseconds within a second are written as literals. -/
instance milliseconds_neZero : NeZero 1000 := ⟨by decide⟩

/-- Two readings of the system clock: the seconds since 1970, and the milliseconds within a
second. A time before 1970 is read as 1970. -/
structure Clock where
  seconds : Nat
  millis : Fin 1000

/-- The first second of the year 10000. -/
def endOfDates : Nat := 253402300800

/-- The year in its era of 400 years, counted from March. -/
def yearOfEra (doe : Nat) : Nat := (doe - doe / 1460 + doe / 36524 - doe / 146096) / 365

/-- The day in its year, counted from March. -/
def dayOfYear (doe : Nat) : Nat :=
  doe - (365 * yearOfEra doe + yearOfEra doe / 4 - yearOfEra doe / 100)

/-- The date of `now`. -/
def date (clock : Clock) : DateTime :=
  let z := clock.seconds / 86400 + 719468
  let era := z / 146097
  let doe := z - era * 146097
  let year := yearOfEra doe + era * 400
  let mp := (5 * dayOfYear doe + 2) / 153
  let month := if mp < 10 then mp + 3 else mp - 9
  let secondsOfDay := clock.seconds % 86400
  { year := year + if month ≤ 2 then 1 else 0
    month := month
    day := dayOfYear doe - (153 * mp + 2) / 5 + 1
    hour := secondsOfDay / 3600
    minute := secondsOfDay % 3600 / 60
    second := secondsOfDay % 60
    millisecond := clock.millis }

def now (clock : Clock) : List Char := (date clock).text

/-- A day of an era is its last one, or lies in a century, in a cycle of four years of it,
and there in one of the years. -/
theorem day_in_cycle {doe : Nat} (inside : doe < 146097) : doe = 146096 ∨
    ∃ century cycle year day, doe = 36524 * century + 1461 * cycle + 365 * year + day ∧
      century ≤ 3 ∧ cycle ≤ 24 ∧ year ≤ 3 ∧ day ≤ 365 ∧
      (day = 365 → year = 3 ∧ cycle ≤ 23) := by
  by_cases last : doe = 146096
  · exact .inl last
  · refine .inr ?_
    have split : doe = 36524 * (doe / 36524) + 1461 * (doe % 36524 / 1461) +
        doe % 36524 % 1461 := by omega
    by_cases leapDay : doe % 36524 % 1461 = 1460
    · refine ⟨doe / 36524, doe % 36524 / 1461, 3, 365, ?_, ?_, ?_, ?_, ?_, ?_⟩ <;> omega
    · refine ⟨doe / 36524, doe % 36524 / 1461, doe % 36524 % 1461 / 365,
        doe % 36524 % 1461 % 365, ?_, ?_, ?_, ?_, ?_, ?_⟩ <;> omega

theorem yearOfEra_eq {century cycle year day : Nat} (centuries : century ≤ 3)
    (cycles : cycle ≤ 24) (years : year ≤ 3) (days : day ≤ 365)
    (leap : day = 365 → year = 3 ∧ cycle ≤ 23) :
    yearOfEra (36524 * century + 1461 * cycle + 365 * year + day) =
      100 * century + 4 * cycle + year := by
  generalize total : 36524 * century + 1461 * cycle + 365 * year + day = doe
  have lowTotal : 1461 * cycle + 365 * year + day ≤ 36523 := by omega
  have ends : doe / 146096 = 0 := by omega
  have hundreds : doe / 36524 = century := by omega
  have fours : doe / 1460 =
      25 * century + cycle + (24 * century + cycle + 365 * year + day) / 1460 := by omega
  rw [yearOfEra, ends, hundreds, fours]
  by_cases small : 24 * century + cycle + 365 * year + day < 1460
  · have none : (24 * century + cycle + 365 * year + day) / 1460 = 0 := by omega
    rw [none]
    omega
  · have one : (24 * century + cycle + 365 * year + day) / 1460 = 1 := by omega
    rw [one]
    omega

/-- A year has 365 days, and 366 if the February at its end is that of a leap year. -/
theorem dayOfYear_le {doe : Nat} (inside : doe < 146097) :
    yearOfEra doe ≤ 399 ∧ dayOfYear doe ≤ 365 ∧
      (dayOfYear doe = 365 → isLeapYear (yearOfEra doe + 1) = true) := by
  obtain rfl | ⟨century, cycle, year, day, rfl, centuries, cycles, years, days, leap⟩ :=
    day_in_cycle inside
  · decide
  · have elapsed := yearOfEra_eq centuries cycles years days leap
    have position :
        dayOfYear (36524 * century + 1461 * cycle + 365 * year + day) = day := by
      have fours : (100 * century + 4 * cycle + year) / 4 = 25 * century + cycle := by omega
      have hundreds : (100 * century + 4 * cycle + year) / 100 = century := by omega
      rw [dayOfYear, elapsed, fours, hundreds]
      omega
    rw [position, elapsed]
    refine ⟨by omega, days, ?_⟩
    intro last
    have bounds := leap last
    simp only [isLeapYear, Bool.and_eq_true, Bool.or_eq_true, beq_iff_eq, bne_iff_ne]
    omega

theorem isLeapYear_era (year era : Nat) : isLeapYear (year + era * 400) = isLeapYear year := by
  have four : (year + era * 400) % 4 = year % 4 := by omega
  have hundred : (year + era * 400) % 100 = year % 100 := by omega
  have all : (year + era * 400) % 400 = year % 400 := by omega
  rw [isLeapYear, isLeapYear, four, hundred, all]

/-- The month and the day of a day counted from March. -/
theorem month_valid {year doy : Nat} (within : doy ≤ 365)
    (leap : doy = 365 → isLeapYear (year + 1) = true) :
    let mp := (5 * doy + 2) / 153
    let month := if mp < 10 then mp + 3 else mp - 9
    let day := doy - (153 * mp + 2) / 5 + 1
    (1 ≤ month ∧ month ≤ 12) ∧ 1 ≤ day ∧
      day ≤ daysInMonth (year + if month ≤ 2 then 1 else 0) month := by
  intro mp month day
  have months : mp ≤ 11 := by omega
  by_cases february : mp = 11
  · have isFebruary : month = 2 := by simp [month, february]
    rw [isFebruary]
    refine ⟨by omega, by omega, ?_⟩
    simp only [daysInMonth, if_pos, Nat.le_refl]
    by_cases last : doy = 365
    · simp only [if_true, leap last]
      omega
    · have early : day ≤ 28 := by omega
      split <;> omega
  · have other : month ≠ 2 := by
      simp only [month]
      split <;> omega
    have range : 1 ≤ month ∧ month ≤ 12 := by
      simp only [month]
      split <;> omega
    refine ⟨range, by omega, ?_⟩
    rw [daysInMonth, if_neg other]
    split
    next short =>
      have position : mp = 1 ∨ mp = 3 ∨ mp = 6 ∨ mp = 8 := by
        simp only [month] at short
        split at short <;> omega
      obtain first | third | sixth | eighth := position <;> omega
    next => omega

/-- The worker writes a date of the calendar, as long as its year has four digits. -/
theorem date_valid (clock : Clock) (dated : clock.seconds < endOfDates) : (date clock).Valid := by
  have limit : clock.seconds < 253402300800 := dated
  have small : clock.millis.val < 1000 := clock.millis.isLt
  generalize days : clock.seconds / 86400 + 719468 = z
  have inside : z - z / 146097 * 146097 < 146097 := by omega
  obtain ⟨years, doys, leap⟩ := dayOfYear_le inside
  have valid := @month_valid (yearOfEra (z - z / 146097 * 146097) + z / 146097 * 400) _ doys
    (by
      intro last
      rw [Nat.add_right_comm, isLeapYear_era]
      exact leap last)
  simp only at valid
  have eras : z / 146097 ≤ 24 := by omega
  refine
    { year := ?_
      month := ?_
      day := ?_
      hour := ?_
      minute := ?_
      second := ?_
      millisecond := ?_ }
  · simp only [date, days]
    by_cases final : z / 146097 = 24 ∧ yearOfEra (z - z / 146097 * 146097) = 399
    · -- The last year ends before January, in the tenth month counted from March.
      obtain ⟨lastEra, lastYear⟩ := final
      have early : dayOfYear (z - z / 146097 * 146097) ≤ 305 := by
        rw [dayOfYear, lastYear]
        omega
      rw [if_pos (by omega : (5 * dayOfYear (z - z / 146097 * 146097) + 2) / 153 < 10),
        if_neg (by omega)]
      omega
    · have carried (month : Nat) : (if month ≤ 2 then 1 else 0) ≤ 1 := by
        split <;> omega
      refine Nat.le_trans (Nat.add_le_add_left (carried _) _) ?_
      omega
  · simpa only [date, days] using valid.1
  · simpa only [date, days] using valid.2
  · simp only [date]
    omega
  · simp only [date]
    omega
  · simp only [date]
    omega
  · simp only [date]
    omega

end OpencodePty.Timestamps
