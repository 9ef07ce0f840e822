import OpencodePty.CivilDates
import OpencodePty.RecordChecks

/-!
# The instants that timestamps denote

One call of `now` reads the clock twice, first for the seconds and then for the milliseconds. A
timestamp lies between the two readings where the second one has no fewer milliseconds in its second
than the first, which is not so where a second ends between them. A clock before 1970 is read as 1970.

A reading is the time in nanoseconds since 1970.
-/

namespace OpencodePty.TimestampInstants

open OpencodePty.JsValues OpencodePty.TextEncodings OpencodePty.Timestamps OpencodePty.CivilDates
open OpencodePty.RecordChecks

/-- `as_secs` since 1970 -/
def asSecs (time : Int) : Nat := time.toNat / 1000000000

/-- `subsec_millis` since 1970 -/
def subsecMillis (time : Int) : Nat := time.toNat % 1000000000 / 1000000

/-- What a call of `now` takes from its two readings. -/
def clockAt (first second : Int) : Clock where
  seconds := asSecs first
  millis := ⟨subsecMillis second, by unfold subsecMillis; omega⟩

/-- The timestamp that a call returns. -/
def stamp (first second : Int) : List Char := now (clockAt first second)

/-- A timestamp denotes an instant between the millisecond of the first reading and the second
reading. -/
def Denotes (first second : Int) : Prop :=
  ∃ instant, denoted (stamp first second) = some instant ∧
    first / 1000000 ≤ instant ∧ instant * 1000000 ≤ second

/-- The readings are such that the seconds of one and the milliseconds of the other fit together. -/
def Agreeing (first second : Int) : Prop :=
  0 ≤ second ∧ subsecMillis first ≤ subsecMillis second

instance (first second : Int) : Decidable (Agreeing first second) :=
  inferInstanceAs (Decidable (_ ∧ _))

/-- One timestamp denotes no later instant than another. -/
def NotLater (first second : List Char) : Prop :=
  ∃ earlier later, denoted first = some earlier ∧ denoted second = some later ∧ earlier ≤ later

/-- `Date.parse` returns the instant of every date in the format of its specification. -/
def ReadsDates (dateParse : JsString → Option Int) : Prop :=
  ∀ date : DateTime, date.Valid → dateParse (encode date.text) = some (instant date)

theorem denoted_stamp (first second : Int) :
    denoted (stamp first second) = some (asSecs first * 1000 + subsecMillis second : Int) :=
  denoted_now (clockAt first second)

/-- The millisecond of a time since 1970. -/
theorem millisecond_eq {time : Int} (since : 0 ≤ time) :
    time / 1000000 = asSecs time * 1000 + subsecMillis time := by
  obtain ⟨count, rfl⟩ := Int.eq_ofNat_of_zero_le since
  rw [asSecs, subsecMillis, Int.toNat_natCast]
  omega

theorem denotes_iff {first second : Int} (ordered : first ≤ second) :
    Denotes first second ↔ Agreeing first second := by
  have seconds : asSecs first ≤ asSecs second := by
    unfold asSecs
    omega
  rw [Denotes, denoted_stamp]
  constructor
  · rintro ⟨instant, same, least, most⟩
    obtain rfl := Option.some.inj same
    have since : 0 ≤ second := by omega
    refine ⟨since, ?_⟩
    by_cases early : first < 0
    · have zero : subsecMillis first = 0 := by
        rw [subsecMillis, Int.toNat_of_nonpos (by omega)]
      omega
    · rw [millisecond_eq (by omega)] at least
      omega
  · rintro ⟨since, fits⟩
    refine ⟨_, rfl, ?_, ?_⟩
    · by_cases early : first < 0
      · omega
      · rw [millisecond_eq (by omega)]
        omega
    · have whole := millisecond_eq since
      omega

/-- A call that begins after another one has ended returns no earlier instant. -/
theorem notLater_stamp {first second third fourth : Int} (earlier : Denotes first second)
    (between : second ≤ third) (later : Denotes third fourth) :
    NotLater (stamp first second) (stamp third fourth) := by
  obtain ⟨instant, reads, _, most⟩ := earlier
  obtain ⟨next, readsNext, least, _⟩ := later
  exact ⟨instant, next, reads, readsNext, by omega⟩

/-- A date of the worker is not before one that the daemon took earlier. -/
theorem notAfter_stamp {dateParse : JsString → Option Int} (reads : ReadsDates dateParse)
    {created : List Char} {time first second : Int}
    (parsed : dateParse (encode created) = some (time / 1000000)) (after : time ≤ first)
    (denotes : Denotes first second) (dated : first < (endOfDates : Int) * 1000000000) :
    notAfter dateParse (some (.str (encode created)))
      (some (.str (encode (stamp first second)))) = true := by
  obtain ⟨instant, same, least, _⟩ := denotes
  have early : (clockAt first second).seconds < endOfDates := by
    change first.toNat / 1000000000 < endOfDates
    rw [endOfDates] at dated ⊢
    omega
  have text : dateParse (encode (stamp first second)) = some instant := by
    rw [stamp, denoted_now, ← instant_date] at same
    rw [stamp, now, reads _ (date_valid _ early), same]
  have ordered : time / 1000000 ≤ instant := by omega
  simp [notAfter, OutputJournal.text, validText_encode, parsed, text, ordered]

/-- A reading of text that parses timestamps as dates. -/
def readTimestamp (text : JsString) : Option Int :=
  denoted (text.map fun unit => Char.ofNat unit.toNat)

theorem text_ascii (date : DateTime) : ∀ character ∈ date.text, character.toNat < 128 := by
  have digits {width value : Nat} : ∀ digit ∈ padded width value, digit.toNat < 128 := by
    intro digit member
    have range := digit_range (padded_digits member)
    omega
  simp only [DateTime.text, List.forall_mem_append, List.forall_mem_cons]
  have punctuation : ('-'.toNat < 128 ∧ 'T'.toNat < 128 ∧ ':'.toNat < 128) ∧
      '.'.toNat < 128 ∧ 'Z'.toNat < 128 := by decide
  simp only [punctuation, true_and, List.not_mem_nil, false_implies, implies_true, and_true]
  exact ⟨⟨⟨⟨⟨⟨digits, digits⟩, digits⟩, digits⟩, digits⟩, digits⟩, digits⟩

theorem readsDates_readTimestamp : ReadsDates readTimestamp := by
  intro date _
  rw [readTimestamp, encode_ascii (text_ascii date), denoted, readDate_text, Option.map_some]

/-- A timestamp denotes an instant between its two readings just where these fit together. From
calls whose readings do, timestamps never decrease, and no date of an exit is before the date at
which the daemon created the session earlier. -/
theorem timestamps_denote (first second : Int) (ordered : first ≤ second) :
    (Denotes first second ↔ Agreeing first second) ∧
    (Agreeing first second →
      (∀ third fourth, second ≤ third → third ≤ fourth → Agreeing third fourth →
        NotLater (stamp first second) (stamp third fourth)) ∧
      ∀ (dateParse : JsString → Option Int) (created : List Char) (time : Int),
        ReadsDates dateParse → dateParse (encode created) = some (time / 1000000) →
        time ≤ first → first < (endOfDates : Int) * 1000000000 →
        notAfter dateParse (some (.str (encode created)))
          (some (.str (encode (stamp first second)))) = true) := by
  refine ⟨denotes_iff ordered, fun fits => ⟨?_, ?_⟩⟩
  · intro third fourth between later fitsLater
    exact notLater_stamp ((denotes_iff ordered).mpr fits) between ((denotes_iff later).mpr fitsLater)
  · intro dateParse created time reads parsed after dated
    exact notAfter_stamp reads parsed after ((denotes_iff ordered).mpr fits) dated

/-- A call within one second, with one behind it and a session created before it. -/
theorem timestamps_second :
    (Denotes 5998000000 5999000000 ↔ Agreeing 5998000000 5999000000) ∧
    NotLater (stamp 5998000000 5999000000) (stamp 6000000000 6001000000) ∧
    notAfter readTimestamp (some (.str (encode (now ⟨5, 900⟩))))
      (some (.str (encode (stamp 5998000000 5999000000)))) = true :=
  have denoted := timestamps_denote 5998000000 5999000000 (by decide)
  have later := denoted.2 (by decide)
  have created : readTimestamp (encode (now ⟨5, 900⟩)) = some (5900000000 / 1000000) := by
    rw [now, readsDates_readTimestamp _ (date_valid _ (by decide)), instant_date]
    rfl
  ⟨denoted.1, later.1 6000000000 6001000000 (by decide) (by decide) (by decide),
    later.2 readTimestamp (now ⟨5, 900⟩) 5900000000 readsDates_readTimestamp created
      (by decide) (by decide)⟩

/-- A second ends between the two readings: the timestamp is almost a second too early. -/
theorem second_boundary :
    ¬ ∀ first second : Int, first ≤ second → Denotes first second := by
  intro always
  have denotes := always 5999000000 6001000000 (by decide)
  rw [denotes_iff (by decide)] at denotes
  exact absurd denotes (by decide)

end OpencodePty.TimestampInstants
