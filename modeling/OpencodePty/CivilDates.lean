import OpencodePty.Timestamps

/-!
# Days and instants of the calendar

The days of the calendar are counted from the first day of the year 0, by the lengths of the years
and of the months. The date that the worker computes from a clock is the one of its day, and its time
of day that of the clock. A timestamp is read back field by field.
-/

namespace OpencodePty.CivilDates

open OpencodePty.JsValues OpencodePty.TextEncodings OpencodePty.Timestamps

/-- The days before a year. -/
def daysBeforeYear : Nat → Nat
  | 0 => 0
  | year + 1 => daysBeforeYear year + if isLeapYear year then 366 else 365

/-- The days of a year before a month. -/
def daysBeforeMonth (year : Nat) : Nat → Nat
  | 0 => 0
  | 1 => 0
  | month + 2 => daysBeforeMonth year (month + 1) + daysInMonth year (month + 1)

/-- The days before a date. -/
def daysFromCivil (year month day : Nat) : Nat :=
  daysBeforeYear year + daysBeforeMonth year month + (day - 1)

/-- The days before 1970. -/
def epochDays : Nat := 719528

/-- The milliseconds since 1970 that a date and a time of day denote. -/
def instant (date : DateTime) : Int :=
  ((daysFromCivil date.year date.month date.day : Int) - epochDays) * 86400000 +
    (((date.hour * 60 + date.minute) * 60 + date.second) * 1000 + date.millisecond : Nat)

/-- A number of a timestamp, up to the character behind it. -/
def readField (stop : Char) (text : List Char) : Option (Nat × List Char) :=
  match text.takeWhile Char.isDigit, text.dropWhile Char.isDigit with
  | [], _ => none
  | _, [] => none
  | digits, character :: rest =>
    if character = stop then some (Nat.ofDigitChars 10 digits 0, rest) else none

/-- The date and the time of day of a timestamp. -/
def readDate (text : List Char) : Option DateTime := do
  let (year, text) ← readField '-' text
  let (month, text) ← readField '-' text
  let (day, text) ← readField 'T' text
  let (hour, text) ← readField ':' text
  let (minute, text) ← readField ':' text
  let (second, text) ← readField '.' text
  let (millisecond, text) ← readField 'Z' text
  if text = [] then some ⟨year, month, day, hour, minute, second, millisecond⟩ else none

/-- The instant that a timestamp denotes. -/
def denoted (text : List Char) : Option Int := (readDate text).map instant

/-! ## Years from March -/

/-- The leap days up to the end of a year, without that of the year 0. -/
def leapDays (year : Nat) : Nat := year / 4 - year / 100 + year / 400

theorem leapDays_succ (year : Nat) :
    leapDays (year + 1) = leapDays year + if isLeapYear (year + 1) then 1 else 0 := by
  have fewer : year / 100 ≤ year / 4 := Nat.div_le_div_left (by decide) (by decide)
  have leap : isLeapYear (year + 1) = true ↔ 4 ∣ year + 1 ∧ (¬ 100 ∣ year + 1 ∨ 400 ∣ year + 1) := by
    simp [isLeapYear, Nat.dvd_iff_mod_eq_zero]
  have hundred : 100 ∣ year + 1 → 4 ∣ year + 1 := Nat.dvd_trans (by decide)
  have fourHundred : 400 ∣ year + 1 → 100 ∣ year + 1 := Nat.dvd_trans (by decide)
  rw [leapDays, leapDays, Nat.succ_div, Nat.succ_div, Nat.succ_div]
  generalize year / 4 = fours at *
  generalize year / 100 = hundreds at *
  simp only [leap]
  by_cases four : 4 ∣ year + 1
  · by_cases century : 100 ∣ year + 1
    · by_cases era : 400 ∣ year + 1
      · simp only [four, century, era, if_true, not_true, or_true, and_true]
        omega
      · simp only [four, century, era, if_true, if_false, not_true, or_false, and_false]
        omega
    · have none : ¬ 400 ∣ year + 1 := fun era => century (fourHundred era)
      simp only [four, century, none, if_true, if_false, not_false_eq_true, true_or, and_true]
      omega
  · have short : ¬ 100 ∣ year + 1 := fun century => four (hundred century)
    have none : ¬ 400 ∣ year + 1 := fun era => short (fourHundred era)
    simp only [four, short, none, if_false, false_and]
    omega

/-- The days before the March of a year. -/
def daysBeforeMarch (year : Nat) : Nat := 365 * year + leapDays year + 60

theorem daysBeforeYear_succ (year : Nat) :
    daysBeforeYear (year + 1) = daysBeforeMarch year + 306 := by
  induction year with
  | zero => decide
  | succ year inductionHypothesis =>
    rw [daysBeforeYear, inductionHypothesis, daysBeforeMarch, daysBeforeMarch, leapDays_succ]
    split <;> omega

theorem daysBeforeMonth_march (year : Nat) :
    daysBeforeYear year + daysBeforeMonth year 3 = daysBeforeMarch year := by
  have february : daysBeforeMonth year 3 = if isLeapYear year then 60 else 59 := by
    rw [daysBeforeMonth, daysBeforeMonth, daysBeforeMonth]
    simp only [daysInMonth]
    cases isLeapYear year <;> rfl
  cases year with
  | zero => decide
  | succ year =>
    rw [daysBeforeYear_succ, february, daysBeforeMarch, daysBeforeMarch, leapDays_succ]
    split <;> omega

/-- The days before a month that is counted from March. -/
theorem daysBeforeMonth_later (year mp : Nat) (within : mp ≤ 9) :
    daysBeforeMonth year (mp + 3) = daysBeforeMonth year 3 + (153 * mp + 2) / 5 := by
  induction mp with
  | zero => rfl
  | succ mp inductionHypothesis =>
    have earlier := inductionHypothesis (by omega)
    have other : mp + 3 ≠ 2 := by omega
    have lengths : ∀ mp ≤ 8, (153 * mp + 2) / 5 +
        (if mp + 3 = 4 ∨ mp + 3 = 6 ∨ mp + 3 = 9 ∨ mp + 3 = 11 then 30 else 31) =
          (153 * (mp + 1) + 2) / 5 := by decide
    change daysBeforeMonth year (mp + 3) + daysInMonth year (mp + 3) = _
    rw [earlier, daysInMonth, if_neg other, Nat.add_assoc, lengths mp (by omega)]

/-- The month and the day in it are those of a day that is counted from March. -/
theorem daysFromCivil_march {year doy : Nat} (within : doy ≤ 365) :
    let mp := (5 * doy + 2) / 153
    let month := if mp < 10 then mp + 3 else mp - 9
    let day := doy - (153 * mp + 2) / 5 + 1
    daysFromCivil (year + if month ≤ 2 then 1 else 0) month day = daysBeforeMarch year + doy := by
  intro mp month day
  have months : mp ≤ 11 := by omega
  have start : (153 * mp + 2) / 5 ≤ doy := by omega
  have march := daysBeforeMonth_march year
  by_cases early : mp < 10
  · have after : month = mp + 3 := if_pos early
    rw [daysFromCivil, after, if_neg (by omega), Nat.add_zero,
      daysBeforeMonth_later year mp (by omega)]
    omega
  · -- January and February belong to the next year.
    have wrapped : month = mp - 9 := if_neg early
    have next := daysBeforeYear_succ year
    rw [daysFromCivil, if_pos (by omega)]
    obtain january | february : mp = 10 ∨ mp = 11 := by omega
    · have first : month = 1 := by omega
      have none : daysBeforeMonth (year + 1) 1 = 0 := rfl
      rw [first, none]
      omega
    · have second : month = 2 := by omega
      have january : daysBeforeMonth (year + 1) 2 = 31 := rfl
      rw [second, january]
      omega

/-! ## The date of a clock -/

/-- The year and the day in it are those of a day that is counted from the March of the year 0. -/
theorem daysBeforeMarch_era (z : Nat) :
    daysBeforeMarch (yearOfEra (z - z / 146097 * 146097) + z / 146097 * 400) +
      dayOfYear (z - z / 146097 * 146097) = z + 60 := by
  have inside : z - z / 146097 * 146097 < 146097 := by omega
  have parts : z = z / 146097 * 146097 + (z - z / 146097 * 146097) := by omega
  generalize z - z / 146097 * 146097 = doe at *
  generalize z / 146097 = era at *
  have eras (year : Nat) : leapDays (year + era * 400) = leapDays year + era * 97 := by
    have fewer : year / 100 ≤ year / 4 := Nat.div_le_div_left (by decide) (by decide)
    have four : (year + era * 400) / 4 = year / 4 + era * 100 := by omega
    have hundred : (year + era * 400) / 100 = year / 100 + era * 4 := by omega
    have fourHundred : (year + era * 400) / 400 = year / 400 + era := by omega
    rw [leapDays, leapDays, four, hundred, fourHundred]
    omega
  have leaps : 365 * yearOfEra doe + leapDays (yearOfEra doe) + dayOfYear doe = doe := by
    obtain rfl | ⟨century, cycle, year, day, rfl, centuries, cycles, years, days, leap⟩ :=
      day_in_cycle inside
    · decide
    · have elapsed := yearOfEra_eq centuries cycles years days leap
      have fours : (100 * century + 4 * cycle + year) / 4 = 25 * century + cycle := by omega
      have hundreds : (100 * century + 4 * cycle + year) / 100 = century := by omega
      have none : (100 * century + 4 * cycle + year) / 400 = 0 := by omega
      rw [dayOfYear, leapDays, elapsed, fours, hundreds, none]
      omega
  rw [daysBeforeMarch, eras]
  omega

/-- The date of the worker is the day of its clock. -/
theorem daysFromCivil_date (clock : Clock) :
    daysFromCivil (date clock).year (date clock).month (date clock).day =
      clock.seconds / 86400 + epochDays := by
  have inside (z : Nat) : z - z / 146097 * 146097 < 146097 := by omega
  obtain ⟨_, within, _⟩ := dayOfYear_le (inside (clock.seconds / 86400 + 719468))
  have march (year : Nat) := @daysFromCivil_march year _ within
  have counted := march (yearOfEra (clock.seconds / 86400 + 719468 -
    (clock.seconds / 86400 + 719468) / 146097 * 146097) +
      (clock.seconds / 86400 + 719468) / 146097 * 400)
  rw [daysBeforeMarch_era] at counted
  exact counted

/-- The instant of the date of the worker is that of its clock. -/
theorem instant_date (clock : Clock) :
    instant (date clock) = clock.seconds * 1000 + clock.millis := by
  have days := daysFromCivil_date clock
  have time : ((date clock).hour * 60 + (date clock).minute) * 60 + (date clock).second =
      clock.seconds % 86400 := by
    simp only [date]
    omega
  have milliseconds : (date clock).millisecond = clock.millis := rfl
  rw [instant, days, time, milliseconds, epochDays]
  omega

/-! ## Reading a timestamp -/

theorem readField_padded {stop : Char} (plain : stop.isDigit = false) (width value : Nat)
    (rest : List Char) : readField stop (padded width value ++ stop :: rest) = some (value, rest) := by
  have digits : ∀ digit ∈ padded width value, digit.isDigit = true := fun _ => padded_digits
  have taken : (padded width value ++ stop :: rest).takeWhile Char.isDigit = padded width value := by
    rw [List.takeWhile_append_of_pos digits, List.takeWhile_cons, plain]
    simp
  have left : (padded width value ++ stop :: rest).dropWhile Char.isDigit = stop :: rest := by
    rw [List.dropWhile_append_of_pos digits, List.dropWhile_cons, plain]
    simp
  have nonempty : padded width value ≠ [] := by
    simp [padded, Nat.toDigits_ne_nil]
  obtain ⟨first, others, whole⟩ := List.exists_cons_of_ne_nil nonempty
  rw [readField, taken, left]
  rw [whole]
  simp only [if_true]
  rw [← whole, ofDigitChars_padded]

/-- A timestamp is read as the date that it was written from. -/
theorem readDate_text (date : DateTime) : readDate date.text = some date := by
  have text : date.text = padded 4 date.year ++ '-' :: (padded 2 date.month ++ '-' ::
      (padded 2 date.day ++ 'T' :: (padded 2 date.hour ++ ':' :: (padded 2 date.minute ++ ':' ::
        (padded 2 date.second ++ '.' :: (padded 3 date.millisecond ++ 'Z' :: [])))))) := by
    simp [DateTime.text]
  rw [text]
  simp [readDate, readField_padded, Char.isDigit]

theorem denoted_now (clock : Clock) :
    denoted (now clock) = some (clock.seconds * 1000 + clock.millis : Int) := by
  rw [denoted, now, readDate_text, Option.map_some, instant_date]

end OpencodePty.CivilDates
