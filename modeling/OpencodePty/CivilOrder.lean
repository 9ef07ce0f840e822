import Mathlib.Data.List.Lex
import Mathlib.Order.Monotone.Basic
import OpencodePty.CivilDates

/-!
# The order of dates

The dates of the calendar, the seconds they denote and the texts they are written as are in one
order. So the worker writes the only date of the calendar that denotes the seconds of its clock, and
a later second is written as a greater text.
-/

namespace OpencodePty.CivilOrder

open OpencodePty.TextEncodings OpencodePty.Timestamps OpencodePty.CivilDates

/-- The seconds since 1970 that a date and a time of day denote. -/
def civilSeconds (date : DateTime) : Int :=
  ((daysFromCivil date.year date.month date.day : Int) - epochDays) * 86400 +
    ((date.hour * 60 + date.minute) * 60 + date.second : Nat)

/-- The fields of a date, but for the milliseconds, in the order of their weight. -/
def fields (date : DateTime) : List Nat :=
  [date.year, date.month, date.day, date.hour, date.minute, date.second]

/-! ## Years and months -/

theorem daysBeforeYear_monotone : Monotone daysBeforeYear := by
  apply monotone_nat_of_le_succ
  intro year
  exact Nat.le_add_right _ _

theorem daysBeforeMonth_monotone (year : Nat) : Monotone (daysBeforeMonth year) := by
  apply monotone_nat_of_le_succ
  intro month
  cases month with
  | zero => exact Nat.le_refl _
  | succ month => exact Nat.le_add_right _ _

theorem daysBeforeMonth_succ (year : Nat) {month : Nat} (counted : 1 ≤ month) :
    daysBeforeMonth year (month + 1) = daysBeforeMonth year month + daysInMonth year month := by
  obtain ⟨before, rfl⟩ := Nat.exists_eq_add_of_le' counted
  rfl

/-- After its last month a year is over. -/
theorem daysBeforeMonth_last (year : Nat) :
    daysBeforeYear year + daysBeforeMonth year 13 = daysBeforeYear (year + 1) := by
  have december : daysBeforeMonth year 13 = daysBeforeMonth year 12 + 31 := rfl
  have later : daysBeforeMonth year 12 = daysBeforeMonth year 3 + (153 * 9 + 2) / 5 :=
    daysBeforeMonth_later year 9 (Nat.le_refl 9)
  have march := daysBeforeMonth_march year
  rw [daysBeforeYear_succ, december, later]
  omega

/-- A date lies before the end of its month. -/
theorem daysFromCivil_in_month {date : DateTime} (valid : date.Valid) :
    daysFromCivil date.year date.month date.day <
      daysBeforeYear date.year + daysBeforeMonth date.year (date.month + 1) := by
  have length := valid.day
  rw [daysFromCivil, daysBeforeMonth_succ date.year valid.month.1]
  omega

/-- A date lies before the end of its year. -/
theorem daysFromCivil_in_year {date : DateTime} (valid : date.Valid) :
    daysFromCivil date.year date.month date.day < daysBeforeYear (date.year + 1) := by
  have inMonth := daysFromCivil_in_month valid
  have within : daysBeforeMonth date.year (date.month + 1) ≤ daysBeforeMonth date.year 13 :=
    daysBeforeMonth_monotone date.year (Nat.succ_le_succ valid.month.2)
  rw [← daysBeforeMonth_last]
  omega

/-! ## The order of the seconds -/

/-- The time of day is less than a day. -/
theorem timeOfDay_lt {date : DateTime} (valid : date.Valid) :
    (date.hour * 60 + date.minute) * 60 + date.second < 86400 := by
  have hour := valid.hour
  have minute := valid.minute
  have second := valid.second
  omega

theorem civilSeconds_lt_of_days {first second : DateTime} (valid : first.Valid)
    (days : daysFromCivil first.year first.month first.day <
      daysFromCivil second.year second.month second.day) :
    civilSeconds first < civilSeconds second := by
  have time := timeOfDay_lt valid
  simp only [civilSeconds]
  omega

/-- A date with lesser fields denotes an earlier second. -/
theorem civilSeconds_lt {first second : DateTime} (valid : first.Valid) (other : second.Valid)
    (less : fields first < fields second) : civilSeconds first < civilSeconds second := by
  simp only [fields, List.cons_lt_cons_iff, List.not_lt_nil, and_false, or_false] at less
  have minute := valid.minute
  have seconds := valid.second
  have counted := valid.day.1
  have started := other.day.1
  rcases less with year | ⟨year, month | ⟨month, day | ⟨day, time⟩⟩⟩
  · apply civilSeconds_lt_of_days valid
    have ended := daysFromCivil_in_year valid
    have next : daysBeforeYear (first.year + 1) ≤ daysBeforeYear second.year :=
      daysBeforeYear_monotone year
    rw [daysFromCivil.eq_def second.year]
    omega
  · apply civilSeconds_lt_of_days valid
    have ended := daysFromCivil_in_month valid
    have next : daysBeforeMonth first.year (first.month + 1) ≤
        daysBeforeMonth first.year second.month := daysBeforeMonth_monotone first.year month
    rw [daysFromCivil.eq_def second.year, ← year]
    omega
  · apply civilSeconds_lt_of_days valid
    rw [daysFromCivil, daysFromCivil, ← year, ← month]
    omega
  · -- On one day the time decides.
    simp only [civilSeconds, ← year, ← month, ← day]
    omega

/-- Dates that denote one second have the same fields. -/
theorem fields_eq {first second : DateTime} (valid : first.Valid) (other : second.Valid)
    (same : civilSeconds first = civilSeconds second) : fields first = fields second := by
  rcases lt_trichotomy (fields first) (fields second) with less | equal | greater
  · exact absurd same (Int.ne_of_lt (civilSeconds_lt valid other less))
  · exact equal
  · exact absurd same (Int.ne_of_gt (civilSeconds_lt other valid greater))

theorem fields_lt {first second : DateTime} (valid : first.Valid) (other : second.Valid)
    (less : civilSeconds first < civilSeconds second) : fields first < fields second := by
  rcases lt_trichotomy (fields first) (fields second) with before | equal | greater
  · exact before
  · exfalso
    simp only [fields, List.cons.injEq, and_true] at equal
    obtain ⟨year, month, day, hour, minute, second⟩ := equal
    simp only [civilSeconds, year, month, day, hour, minute, second] at less
    omega
  · exact absurd less (Int.lt_asymm (civilSeconds_lt other valid greater))

/-! ## The order of the texts -/

/-- Digits of one length are in the order of their values, from any values before them. -/
theorem digits_lt {first second rest other : List Char} {before prior : Nat}
    (length : first.length = second.length)
    (digits : ∀ digit ∈ first, digit.isDigit = true) (others : ∀ digit ∈ second, digit.isDigit = true)
    (less : Nat.ofDigitChars 10 first before < Nat.ofDigitChars 10 second prior) :
    before < prior ∨ before = prior ∧ first ++ rest < second ++ other := by
  induction first generalizing second before prior with
  | nil =>
    rw [List.eq_nil_of_length_eq_zero length.symm] at less
    exact Or.inl less
  | cons digit first inductionHypothesis =>
    cases second with
    | nil => contradiction
    | cons value second =>
      have low := digit_range (digits digit List.mem_cons_self)
      have high := digit_range (others value List.mem_cons_self)
      rw [Nat.ofDigitChars_cons, Nat.ofDigitChars_cons] at less
      have step := inductionHypothesis (Nat.succ.inj length)
        (fun inside member => digits inside (List.mem_cons_of_mem _ member))
        (fun inside member => others inside (List.mem_cons_of_mem _ member)) less
      rw [List.cons_append, List.cons_append, List.cons_lt_cons_iff]
      have equal : digit.toNat = value.toNat → digit = value := Char.toNat_inj.mp
      have smaller : digit.toNat < value.toNat → digit < value := fun less => less
      have zero : '0'.toNat = 48 := rfl
      rw [zero] at step
      rcases step with below | ⟨level, later⟩
      · by_cases head : before = prior
        · exact Or.inr ⟨head, Or.inl (smaller (by omega))⟩
        · exact Or.inl (by omega)
      · by_cases head : before = prior
        · exact Or.inr ⟨head, Or.inr ⟨equal (by omega), later⟩⟩
        · exact Or.inl (by omega)

/-- A lesser field, or an equal one before a lesser rest, is written as a lesser text. -/
theorem field_lt {width first second : Nat} {stop : Char} {rest other : List Char}
    (positive : 0 < width) (fits : first < 10 ^ width) (otherFits : second < 10 ^ width)
    (less : first < second ∨ first = second ∧ rest < other) :
    padded width first ++ stop :: rest < padded width second ++ stop :: other := by
  rcases less with smaller | ⟨rfl, later⟩
  · have values := smaller
    rw [← ofDigitChars_padded width first, ← ofDigitChars_padded width second] at values
    have length : (padded width first).length = (padded width second).length := by
      rw [length_padded positive fits, length_padded positive otherFits]
    rcases digits_lt length (fun _ => padded_digits) (fun _ => padded_digits) values with
      impossible | ⟨_, ordered⟩
    · omega
    · exact ordered
  · apply List.append_left_lt
    rw [List.cons_lt_cons_iff]
    exact Or.inr ⟨rfl, later⟩

/-- A date with lesser fields is written as a lesser text, whatever its milliseconds. -/
theorem text_lt {first second : DateTime} (valid : first.Valid) (other : second.Valid)
    (less : fields first < fields second) : first.text < second.text := by
  simp only [fields, List.cons_lt_cons_iff, List.not_lt_nil, and_false, or_false] at less
  have short {value : Nat} (small : value ≤ 59) : value < 10 ^ 2 := by omega
  have days {date : DateTime} (valid : date.Valid) : date.day < 10 ^ 2 := by
    have within := valid.day.2
    have longest : daysInMonth date.year date.month ≤ 31 := by
      unfold daysInMonth
      split
      · split <;> omega
      · split <;> omega
    omega
  have year := valid.year
  have otherYear := other.year
  have month := valid.month.2
  have otherMonth := other.month.2
  have hour := valid.hour
  have otherHour := other.hour
  simp only [DateTime.text, List.append_assoc, List.cons_append]
  refine field_lt (by decide) (by omega) (by omega) (less.imp_right (And.imp_right fun less => ?_))
  refine field_lt (by decide) (short (by omega)) (short (by omega))
    (less.imp_right (And.imp_right fun less => ?_))
  refine field_lt (by decide) (days valid) (days other)
    (less.imp_right (And.imp_right fun less => ?_))
  refine field_lt (by decide) (short (by omega)) (short (by omega))
    (less.imp_right (And.imp_right fun less => ?_))
  refine field_lt (by decide) (short valid.minute) (short other.minute)
    (less.imp_right (And.imp_right fun less => ?_))
  exact field_lt (by decide) (short valid.second) (short other.second) (Or.inl less)

/-! ## The date of a clock -/

/-- The seconds of the date of the worker are those of its clock. -/
theorem civilSeconds_date (clock : Clock) : civilSeconds (date clock) = clock.seconds := by
  have days := daysFromCivil_date clock
  have time : ((date clock).hour * 60 + (date clock).minute) * 60 + (date clock).second =
      clock.seconds % 86400 := by
    simp only [date]
    omega
  rw [civilSeconds, days, time, epochDays]
  omega

theorem daysBeforeYear_epoch : daysBeforeYear 1970 = epochDays := daysBeforeYear_succ 1969

theorem daysBeforeYear_end : daysBeforeYear 10000 = 3652425 := daysBeforeYear_succ 9999

/-- The dates from 1970 to 9999 denote the seconds up to the end of the dates. -/
theorem civilSeconds_bounds {date : DateTime} (valid : date.Valid) :
    civilSeconds date < endOfDates ∧ (0 ≤ civilSeconds date ↔ 1970 ≤ date.year) := by
  have time := timeOfDay_lt valid
  have ended := daysFromCivil_in_year valid
  have begun : daysBeforeYear date.year ≤ daysFromCivil date.year date.month date.day := by
    rw [daysFromCivil, Nat.add_assoc]
    exact Nat.le_add_right _ _
  have last : daysBeforeYear (date.year + 1) ≤ daysBeforeYear 10000 :=
    daysBeforeYear_monotone (Nat.succ_le_succ valid.year)
  have epoch := daysBeforeYear_epoch
  rw [daysBeforeYear_end] at last
  simp only [civilSeconds, endOfDates]
  simp only [epochDays] at epoch ⊢
  refine ⟨by omega, ?_⟩
  by_cases since : 1970 ≤ date.year
  · have first : daysBeforeYear 1970 ≤ daysBeforeYear date.year := daysBeforeYear_monotone since
    simp only [since, iff_true]
    omega
  · have first : daysBeforeYear (date.year + 1) ≤ daysBeforeYear 1970 :=
      daysBeforeYear_monotone (Nat.lt_of_not_le since)
    simp only [since, iff_false]
    omega

/-- A date of the calendar is the date of a clock with its seconds and milliseconds. -/
theorem eq_date {civil : DateTime} {clock : Clock} (valid : civil.Valid)
    (dated : clock.seconds < endOfDates) (seconds : civilSeconds civil = clock.seconds)
    (millis : civil.millisecond = clock.millis) : civil = date clock := by
  have same := fields_eq valid (date_valid clock dated) (seconds.trans (civilSeconds_date clock).symm)
  simp only [fields, List.cons.injEq, and_true] at same
  obtain ⟨year, month, day, hour, minute, second⟩ := same
  obtain ⟨_, _, _, _, _, _, _⟩ := civil
  subst year month day hour minute second millis
  rfl

/-- The worker writes the date of its clock. Up to the year 9999 it is the only date of the
calendar with the seconds and the milliseconds of the clock, every date since 1970 is one, and a
later second is written as a greater text. -/
theorem now_exact (clock : Clock) (dated : clock.seconds < endOfDates) :
    now clock = (date clock).text ∧
      (∀ civil : DateTime, civil = date clock ↔
        civil.Valid ∧ civilSeconds civil = clock.seconds ∧ civil.millisecond = clock.millis) ∧
      (∀ civil : DateTime, civil.Valid ∧ 1970 ≤ civil.year ↔
        ∃ other : Clock, other.seconds < endOfDates ∧ civil = date other) ∧
      ∀ earlier : Clock, earlier.seconds < clock.seconds → now earlier < now clock := by
  refine ⟨rfl, ?_, ?_, ?_⟩
  · intro civil
    constructor
    · rintro rfl
      exact ⟨date_valid clock dated, civilSeconds_date clock, rfl⟩
    · rintro ⟨valid, seconds, millis⟩
      exact eq_date valid dated seconds millis
  · intro civil
    constructor
    · rintro ⟨valid, since⟩
      obtain ⟨least, most⟩ := civilSeconds_bounds valid
      have counted := Int.toNat_of_nonneg (most.mpr since)
      have before : (civilSeconds civil).toNat < endOfDates := by omega
      have milliseconds : civil.millisecond < 1000 := Nat.lt_succ_of_le valid.millisecond
      exact ⟨⟨(civilSeconds civil).toNat, ⟨civil.millisecond, milliseconds⟩⟩, before,
        eq_date valid before counted.symm rfl⟩
    · rintro ⟨other, before, rfl⟩
      have valid := date_valid other before
      refine ⟨valid, (civilSeconds_bounds valid).2.mp ?_⟩
      rw [civilSeconds_date]
      exact Int.natCast_nonneg _
  · intro earlier less
    have before : earlier.seconds < endOfDates := Nat.lt_trans less dated
    have valid := date_valid earlier before
    have later := date_valid clock dated
    apply text_lt valid later
    apply fields_lt valid later
    rw [civilSeconds_date, civilSeconds_date]
    exact Int.ofNat_lt.mpr less

/-- The day after the leap day of 2000, a century that is a leap year. -/
theorem now_exact_march :
    date ⟨951868800, 0⟩ = ⟨2000, 3, 1, 0, 0, 0, 0⟩ ∧
      now ⟨951868799, 999⟩ < now ⟨951868800, 0⟩ := by
  obtain ⟨_, _, _, increasing⟩ := now_exact ⟨951868800, 0⟩ (by decide)
  exact ⟨by decide, increasing ⟨951868799, 999⟩ (by decide)⟩

end OpencodePty.CivilOrder
