import OpencodePty.EntityEscapes
import OpencodePty.JsValues

/-!
# The escape sequences of written data

The tool that writes to a session replaces the escape sequences of its data by the units that they
stand for, from the left, and leaves everything else as it is: a backslash that begins no sequence
stays. A sequence is never read as the beginning of another, and so every text can be sent as
printable ASCII.
-/

namespace OpencodePty.EscapeSequences

open JsValues
open EntityEscapes (replace)

/-- The unit that begins a sequence. -/
def backslash : UInt16 := 0x5c

/-- `[0-9A-Fa-f]`, and its value. -/
def hexDigit (unit : UInt16) : Option Nat :=
  if 0x30 ≤ unit ∧ unit ≤ 0x39 then some (unit.toNat - 0x30)
  else if 0x41 ≤ unit ∧ unit ≤ 0x46 then some (unit.toNat - 0x37)
  else if 0x61 ≤ unit ∧ unit ≤ 0x66 then some (unit.toNat - 0x57)
  else none

/-- `parseInt(digits, 16)` of hexadecimal digits. -/
def parseInt (digits : JsString) : Nat :=
  digits.foldl (fun value unit => value * 16 + (hexDigit unit).getD 0) 0

/-- The letters that begin a number, each with its count of digits. -/
def numbers : List (UInt16 × Nat) := [(0x78, 2), (0x75, 4)]

/-- `[nrt\\]`, and what each stands for. -/
def names : List (UInt16 × UInt16) :=
  [(0x6e, 0x0a), (0x72, 0x0d), (0x74, 0x09), (backslash, backslash)]

/-- The match behind a backslash: what it stands for, and how long it is. -/
def matched : JsString → Option (UInt16 × Nat)
  | [] => none
  | unit :: rest =>
    match numbers.lookup unit with
    | some count =>
      let digits := rest.take count
      if digits.length = count ∧ digits.all fun digit => (hexDigit digit).isSome then
        some (UInt16.ofNat (parseInt digits), count + 1)
      else none
    | none => (names.lookup unit).map fun decoded => (decoded, 1)

/-- The units that are part of a match are passed by. -/
def replaceFrom : Nat → JsString → JsString
  | _, [] => []
  | skip + 1, _ :: rest => replaceFrom skip rest
  | 0, unit :: rest =>
    if unit = backslash then
      match matched rest with
      | some (decoded, length) => decoded :: replaceFrom length rest
      | none => unit :: replaceFrom 0 rest
    else unit :: replaceFrom 0 rest

/-- All sequences of the input are replaced by what they stand for. -/
def parseEscapeSequences (input : JsString) : JsString := replaceFrom 0 input

example : parseEscapeSequences (js "ls\\n\\x1b[A\\q") = js "ls\n" ++ [0x1b] ++ js "[A\\q" := by
  decide

/-- How much of an input its preview shows. -/
def previewMaxChars : Nat := 50

/-- The preview of an input. -/
def writePreview (decoded : JsString) : JsString :=
  let substituted :=
    replace 0x0d (js "\\r") (replace 0x0a (js "\\n") (replace 0x03 (js "^C") decoded))
  if previewMaxChars < substituted.length then substituted.take previewMaxChars ++ js "..."
  else substituted

/-! ## What is written -/

/-- A sequence behind its backslash, and what it stands for. -/
inductive Sequence : JsString → UInt16 → Prop
  | number {letter : UInt16} {digits : JsString} (letters : (letter, digits.length) ∈ numbers)
      (hexadecimal : ∀ digit ∈ digits, (hexDigit digit).isSome) :
      Sequence (letter :: digits) (UInt16.ofNat (parseInt digits))
  | name {letter unit : UInt16} (named : (letter, unit) ∈ names) : Sequence [letter] unit

/-- The input is a way of writing the output. -/
inductive Written : JsString → JsString → Prop
  | nil : Written [] []
  | plain {unit : UInt16} {input output : JsString} (other : unit ≠ backslash)
      (later : Written input output) : Written (unit :: input) (unit :: output)
  | escaped {sequence input output : JsString} {unit : UInt16} (stands : Sequence sequence unit)
      (later : Written input output) :
      Written (backslash :: (sequence ++ input)) (unit :: output)
  | lone {input output : JsString}
      (free : ∀ sequence unit, Sequence sequence unit → ¬ sequence <+: input)
      (later : Written input output) : Written (backslash :: input) (backslash :: output)

/-- Where each key has one value, a lookup finds it. -/
theorem lookup_iff {α β : Type} [BEq α] [LawfulBEq α] {entries : List (α × β)}
    (distinct : (entries.map Prod.fst).Nodup) {key : α} {value : β} :
    entries.lookup key = some value ↔ (key, value) ∈ entries := by
  rw [List.lookup_eq_some_iff]
  constructor
  · rintro ⟨before, after, rfl, _⟩
    exact List.mem_append_right _ List.mem_cons_self
  · intro member
    obtain ⟨before, after, rfl⟩ := List.append_of_mem member
    refine ⟨before, after, rfl, fun entry earlier => ?_⟩
    rw [List.map_append, List.map_cons, List.nodup_append] at distinct
    have apart := distinct.2.2 entry.1 (List.mem_map_of_mem earlier) key List.mem_cons_self
    simpa [bne_iff_ne] using Ne.symm apart

/-- A letter has the number of digits that is listed for it. -/
theorem lookup_numbers {letter : UInt16} {count : Nat} :
    numbers.lookup letter = some count ↔ (letter, count) ∈ numbers := lookup_iff (by decide)

/-- A letter has the unit that is listed for it. -/
theorem lookup_names {letter unit : UInt16} :
    names.lookup letter = some unit ↔ (letter, unit) ∈ names := lookup_iff (by decide)

/-- No name begins a number. -/
theorem name_no_number {letter unit : UInt16} (named : (letter, unit) ∈ names) :
    numbers.lookup letter = none := by
  simp only [names, List.mem_cons, Prod.mk.injEq, List.not_mem_nil, or_false, backslash] at named
  rcases named with ⟨rfl, _⟩ | ⟨rfl, _⟩ | ⟨rfl, _⟩ | ⟨rfl, _⟩ <;> rfl

/-- A sequence is matched whatever is behind it. -/
theorem matched_sequence {sequence : JsString} {unit : UInt16} (stands : Sequence sequence unit)
    (rest : JsString) : matched (sequence ++ rest) = some (unit, sequence.length) := by
  cases stands with
  | number letters hexadecimal =>
    rename_i letter digits
    have digit : digits.all (fun digit => (hexDigit digit).isSome) = true :=
      List.all_eq_true.mpr hexadecimal
    rw [List.cons_append, matched, lookup_numbers.mpr letters]
    simp only [List.take_left, digit, and_self, if_true, List.length_cons]
  | name named =>
    rename_i letter
    rw [List.cons_append, matched, name_no_number named, lookup_names.mpr named]
    rfl

/-- What is matched is a sequence. -/
theorem sequence_of_matched {text : JsString} {unit : UInt16} {length : Nat}
    (found : matched text = some (unit, length)) :
    ∃ sequence rest,
      text = sequence ++ rest ∧ sequence.length = length ∧ Sequence sequence unit := by
  cases text with
  | nil => cases found
  | cons letter rest =>
    rw [matched] at found
    cases number : numbers.lookup letter with
    | some count =>
      simp only [number] at found
      split at found
      case isTrue digits =>
        obtain ⟨rfl, rfl⟩ := Prod.mk.inj (Option.some.inj found)
        obtain ⟨exact, hexadecimal⟩ := digits
        refine ⟨letter :: rest.take count, rest.drop count, ?_, by rw [List.length_cons, exact], ?_⟩
        · rw [List.cons_append, List.take_append_drop]
        · have letters := lookup_numbers.mp number
          rw [← exact] at letters
          exact .number letters (List.all_eq_true.mp hexadecimal)
      case isFalse => cases found
    | none =>
      simp only [number] at found
      obtain ⟨decoded, named, same⟩ := Option.map_eq_some_iff.mp found
      obtain ⟨rfl, rfl⟩ := Prod.mk.inj same
      exact ⟨[letter], rest, rfl, rfl, .name (lookup_names.mp named)⟩

/-- Units that are skipped are dropped. -/
theorem replaceFrom_skip (skip : Nat) (text : JsString) :
    replaceFrom skip text = replaceFrom 0 (text.drop skip) := by
  induction text generalizing skip with
  | nil => cases skip <;> rfl
  | cons unit rest inductionHypothesis =>
    cases skip with
    | zero => rfl
    | succ skip => exact inductionHypothesis skip

/-- A sequence is replaced by the unit it stands for. -/
theorem replaceFrom_sequence {sequence : JsString} {unit : UInt16}
    (stands : Sequence sequence unit) (rest : JsString) :
    replaceFrom 0 (backslash :: (sequence ++ rest)) = unit :: replaceFrom 0 rest := by
  rw [replaceFrom, if_pos rfl, matched_sequence stands]
  simp only
  rw [replaceFrom_skip, List.drop_left]

/-- A backslash that begins no sequence stays. -/
theorem replaceFrom_lone {rest : JsString} (free : matched rest = none) :
    replaceFrom 0 (backslash :: rest) = backslash :: replaceFrom 0 rest := by
  rw [replaceFrom, if_pos rfl, free]

/-- Any other unit stays. -/
theorem replaceFrom_plain {unit : UInt16} (other : unit ≠ backslash) (rest : JsString) :
    replaceFrom 0 (unit :: rest) = unit :: replaceFrom 0 rest := by
  rw [replaceFrom, if_neg other]

/-- No sequence matches where none begins the text. -/
theorem matched_none {text : JsString} :
    matched text = none ↔ ∀ sequence unit, Sequence sequence unit → ¬ sequence <+: text := by
  constructor
  · rintro free sequence unit stands ⟨rest, rfl⟩
    rw [matched_sequence stands] at free
    cases free
  · intro free
    cases found : matched text with
    | none => rfl
    | some result =>
      obtain ⟨sequence, rest, rfl, _, stands⟩ := sequence_of_matched found
      exact absurd (List.prefix_append sequence rest) (free sequence result.1 stands)

/-- What is parsed is a reading of the input. -/
theorem written_parse (input : JsString) : Written input (parseEscapeSequences input) := by
  -- On the length, because a sequence is passed by as a whole.
  induction length : input.length using Nat.strong_induction_on generalizing input with
  | _ length inductionHypothesis =>
    subst length
    cases input with
    | nil => exact .nil
    | cons unit rest =>
      have later : ∀ shorter : JsString, shorter.length ≤ rest.length →
          Written shorter (replaceFrom 0 shorter) := fun shorter less =>
        inductionHypothesis shorter.length (Nat.lt_succ_of_le less) shorter rfl
      rw [parseEscapeSequences]
      by_cases same : unit = backslash
      · subst same
        cases found : matched rest with
        | none =>
          rw [replaceFrom_lone found]
          exact .lone (matched_none.mp found) (later rest (Nat.le_refl _))
        | some result =>
          obtain ⟨sequence, behind, rfl, _, stands⟩ := sequence_of_matched found
          rw [replaceFrom_sequence stands]
          exact .escaped stands (later behind (by rw [List.length_append]; omega))
      · rw [replaceFrom_plain same]
        exact .plain same (later rest (Nat.le_refl _))

/-- What the tool sends is what its data is a way of writing. -/
theorem parse_iff_written (input output : JsString) :
    parseEscapeSequences input = output ↔ Written input output := by
  constructor
  · rintro rfl
    exact written_parse input
  · intro written
    rw [parseEscapeSequences]
    induction written with
    | nil => rfl
    | plain other later inductionHypothesis => rw [replaceFrom_plain other, inductionHypothesis]
    | escaped stands later inductionHypothesis =>
      rw [replaceFrom_sequence stands, inductionHypothesis]
    | lone free later inductionHypothesis =>
      rw [replaceFrom_lone (matched_none.mpr free), inductionHypothesis]

/-! ## What can be sent -/

/-- A lower case digit. -/
def digit (value : Nat) : UInt16 := UInt16.ofNat (if value < 10 then 0x30 + value else 0x57 + value)

/-- The four digits of a unit. -/
def digits (unit : UInt16) : JsString :=
  [unit.toNat / 0x1000, unit.toNat / 0x100 % 0x10, unit.toNat / 0x10 % 0x10, unit.toNat % 0x10].map
    digit

/-- A digit can be printed and is read back. -/
theorem digit_printable {value : Nat} (small : value < 16) :
    hexDigit (digit value) = some value ∧ 0x20 ≤ digit value ∧ digit value ≤ 0x7e := by
  have every : ∀ value : Fin 16, hexDigit (digit value) = some value.val ∧
      0x20 ≤ digit value ∧ digit value ≤ 0x7e := by decide
  exact every ⟨value, small⟩

/-- The digits of a unit can be printed. -/
theorem digits_printable (unit : UInt16) :
    ∀ one ∈ digits unit, (hexDigit one).isSome ∧ 0x20 ≤ one ∧ one ≤ 0x7e := by
  have bound := unit.toNat_lt
  intro one member
  obtain ⟨value, among, rfl⟩ := List.mem_map.mp member
  have small : value < 16 := by
    simp only [List.mem_cons, List.not_mem_nil, or_false] at among
    omega
  obtain ⟨read, printable⟩ := digit_printable small
  exact ⟨read ▸ rfl, printable⟩

/-- The digits of a unit are read back as that unit. -/
theorem parseInt_digits (unit : UInt16) : parseInt (digits unit) = unit.toNat := by
  have bound := unit.toNat_lt
  have first := (@digit_printable (unit.toNat / 0x1000) (by omega)).1
  have second := (@digit_printable (unit.toNat / 0x100 % 0x10) (by omega)).1
  have third := (@digit_printable (unit.toNat / 0x10 % 0x10) (by omega)).1
  have last := (@digit_printable (unit.toNat % 0x10) (by omega)).1
  simp only [parseInt, digits, List.map_cons, List.map_nil, List.foldl_cons, List.foldl_nil, first,
    second, third, last, Option.getD_some]
  omega

/-- Every unit has a sequence of printable ASCII. -/
theorem sequence_digits (unit : UInt16) : Sequence (0x75 :: digits unit) unit := by
  have stands : Sequence (0x75 :: digits unit) (UInt16.ofNat (parseInt (digits unit))) :=
    .number (List.mem_cons_of_mem _ List.mem_cons_self) fun one member =>
      (digits_printable unit one member).1
  rwa [parseInt_digits, UInt16.ofNat_toNat] at stands

/-- Every text of UTF-16 units can be sent as printable ASCII, control characters and lone
surrogates among them. -/
theorem every_text_can_be_sent (text : JsString) :
    ∃ data : JsString, (∀ unit ∈ data, 0x20 ≤ unit ∧ unit ≤ 0x7e) ∧
      parseEscapeSequences data = text := by
  induction text with
  | nil => exact ⟨[], by simp, rfl⟩
  | cons unit rest inductionHypothesis =>
    obtain ⟨data, printable, sent⟩ := inductionHypothesis
    refine ⟨backslash :: (0x75 :: digits unit ++ data), ?_, ?_⟩
    · intro one member
      rcases List.mem_cons.mp member with rfl | member
      · decide
      · rcases List.mem_append.mp member with member | member
        · rcases List.mem_cons.mp member with rfl | member
          · decide
          · exact (digits_printable unit one member).2
        · exact printable one member
    · rw [parseEscapeSequences, replaceFrom_sequence (sequence_digits unit)]
      exact congrArg (unit :: ·) sent

/-! ## What is shown -/

/-- A unit behind a replacement is a new one or an old one that stayed. -/
theorem mem_replace {unit other : UInt16} {replacement text : JsString}
    (member : other ∈ replace unit replacement text) :
    other ∈ replacement ∨ other ∈ text ∧ other ≠ unit := by
  obtain ⟨source, among, becomes⟩ := List.mem_flatMap.mp member
  split at becomes
  · exact .inl becomes
  · rename_i apart
    rw [List.mem_singleton] at becomes
    exact .inr ⟨becomes ▸ among, becomes ▸ apart⟩

/-- The end of text, and the ends of lines. -/
def hidden : JsString := [0x03, 0x0a, 0x0d]

/-- A text without hidden units shows all of itself. -/
theorem shown_of {text : JsString} (plain : (text.all fun unit => !hidden.contains unit) = true) :
    ∀ unit ∈ text, unit ∉ hidden := by
  intro unit member
  simpa using List.all_eq_true.mp plain unit member

/-- What is shown of what was sent is one short line, and has no end of text. -/
theorem writePreview_line (decoded : JsString) :
    (∀ unit ∈ writePreview decoded, unit ∉ hidden) ∧
      (writePreview decoded).length ≤ previewMaxChars + 3 := by
  have shown : ∀ unit ∈ replace 0x0d (js "\\r")
      (replace 0x0a (js "\\n") (replace 0x03 (js "^C") decoded)), unit ∉ hidden := by
    intro unit member
    rcases mem_replace member with written | ⟨member, third⟩
    · exact shown_of (by decide) unit written
    rcases mem_replace member with written | ⟨member, second⟩
    · exact shown_of (by decide) unit written
    rcases mem_replace member with written | ⟨_, first⟩
    · exact shown_of (by decide) unit written
    simp [hidden, first, second, third]
  rw [writePreview]
  split
  case isTrue long =>
    constructor
    · intro unit member
      rcases List.mem_append.mp member with member | member
      · exact shown unit (List.mem_of_mem_take member)
      · exact shown_of (by decide) unit member
    · rw [List.length_append]
      exact Nat.add_le_add (List.length_take_le _ _) (Nat.le_refl 3)
  case isFalse short => exact ⟨shown, by omega⟩

end OpencodePty.EscapeSequences
