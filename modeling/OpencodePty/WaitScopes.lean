import OpencodePty.JournalLags
import OpencodePty.ExitMatches

/-!
# The scope of a wait

A wait that follows an input looks for its literal behind the sequence at which the input was
accepted. It counts that sequence from the first sequence of the record, in the text that it finds on
disk. Where the worker has evicted output since the record was made, it leaves out more than what
stands before the sequence, and may cut a character, of which replacement characters remain.
-/

namespace OpencodePty.WaitScopes

open OpencodePty.JsValues OpencodePty.TextEncodings OpencodePty.WorkerJournal
  OpencodePty.OutputRetention OpencodePty.ExitMatches

/-- Of every literal, a wait reports just whether it stands in the retained output at or after a
sequence. -/
def ScopeExact (text : List Char) (first recorded after : Nat) : Prop :=
  ∀ literal, literal ≠ [] →
    ((waitMatch text recorded ⟨literal, some after⟩).isSome = true ↔
      Occurs ⟨first, text⟩ ⟨literal, some after⟩)

/-- The bytes that a wait leaves out too many leave its scope as it is: there are none, there is
nothing to leave out, or they cut replacement characters of which as many remain. -/
def Harmless (rest : List Char) (bytes : Nat) : Prop :=
  bytes = 0 ∨ rest = [] ∨ bytes = 2 ∧ ['\uFFFD'] <+: rest ∨
    bytes = 4 ∧ ['\uFFFD', '\uFFFD'] <+: rest

/-! ## Cuts -/

/-- What is left of a text without a number of bytes. -/
inductive Cut : List Char → Nat → List Char → Prop where
  | between (before rest : List Char) : Cut (before ++ rest) (textLength before) rest
  | beyond {text : List Char} {count : Nat} (short : textLength text < count) : Cut text count []
  | inside (before rest : List Char) {character : Char} {count : Nat}
      (behind : textLength before < count)
      (within : count < textLength before + character.utf8Size) :
      Cut (before ++ character :: rest) count
        (List.replicate (textLength before + character.utf8Size - count) '\uFFFD' ++ rest)

theorem subarray_front (front rest : List Char) (count : Nat) :
    subarray (front ++ rest) (textLength front + count) = subarray rest count := by
  induction front with
  | nil => rw [List.nil_append, textLength_nil, Nat.zero_add]
  | cons character front inductionHypothesis =>
    have positive := character.utf8Size_pos
    obtain ⟨bytes, all⟩ : ∃ bytes, textLength (character :: front) + count = bytes + 1 :=
      ⟨textLength (character :: front) + count - 1, by rw [textLength_cons]; omega⟩
    rw [all, List.cons_append, subarray]
    rw [textLength_cons] at all
    rw [if_pos (by omega), ← inductionHypothesis]
    congr 1
    omega

theorem cut_subarray (text : List Char) (count : Nat) : Cut text count (subarray text count) := by
  induction text generalizing count with
  | nil =>
    cases count with
    | zero => exact .between [] []
    | succ count => exact .beyond (Nat.succ_pos count)
  | cons character rest inductionHypothesis =>
    cases count with
    | zero => exact .between [] (character :: rest)
    | succ count =>
      rw [subarray]
      split_ifs with whole
      · have later := inductionHypothesis (count + 1 - character.utf8Size)
        generalize bytes : count + 1 - character.utf8Size = left at later
        generalize subarray rest left = kept at later
        have all : count + 1 = textLength [character] + left := by
          simp only [textLength_cons, textLength_nil]
          omega
        rw [all]
        cases later with
        | between before rest =>
          rw [← textLength_append]
          exact .between (character :: before) kept
        | beyond short =>
          refine .beyond ?_
          simp only [textLength_cons, textLength_nil]
          omega
        | @inside before rest other _ behind within =>
          have same : textLength before + other.utf8Size - left =
              textLength (character :: before) + other.utf8Size -
                (textLength [character] + left) := by
            simp only [textLength_cons, textLength_nil]
            omega
          rw [same]
          refine .inside (character :: before) rest ?_ ?_
          · simp only [textLength_cons, textLength_nil]
            omega
          · simp only [textLength_cons, textLength_nil]
            omega
      · have cut := @Cut.inside [] rest character (count + 1) (Nat.succ_pos count)
          (by simpa using whole)
        simpa using cut

/-- Replacement characters before a text that are as much as some characters before it. -/
theorem replicate_replaces {before rest : List Char} {character : Char} {count : Nat}
    (same : List.replicate count '\uFFFD' ++ rest = before ++ character :: rest) :
    before ++ [character] = List.replicate count '\uFFFD' := by
  have whole : List.replicate count '\uFFFD' ++ rest = (before ++ [character]) ++ rest := by
    rw [same, List.append_assoc]
    rfl
  exact (List.append_cancel_right whole).symm

theorem textLength_replicate (count : Nat) :
    textLength (List.replicate count '\uFFFD') = 3 * count := by
  have size : Char.utf8Size '\uFFFD' = 3 := by decide
  induction count with
  | zero => rfl
  | succ count inductionHypothesis =>
    rw [List.replicate_succ, textLength_cons, inductionHypothesis, size]
    omega

/-- A cut leaves a text as it is just where it is harmless. -/
theorem subarray_eq_self (text : List Char) (count : Nat) :
    subarray text count = text ↔ Harmless text count := by
  constructor
  · intro same
    have cut := cut_subarray text count
    generalize kept : subarray text count = left at same cut
    cases cut with
    | between before rest =>
      have nothing : before = [] := List.append_left_eq_self.mp same.symm
      rw [nothing]
      exact .inl rfl
    | beyond short => exact .inr (.inl same.symm)
    | @inside before rest character _ behind within =>
      have all := replicate_replaces same
      have size := congrArg textLength all
      rw [textLength_append, textLength_replicate, textLength_cons, textLength_nil] at size
      have last : character = '\uFFFD' := by
        have member : character ∈ before ++ [character] := by simp
        rw [all] at member
        exact List.eq_of_mem_replicate member
      have width : character.utf8Size = 3 := by
        rw [last]
        decide
      rw [← same]
      obtain one | two : textLength before + character.utf8Size - count = 1 ∨
          textLength before + character.utf8Size - count = 2 := by omega
      · rw [one]
        exact .inr (.inr (.inl ⟨by omega, List.prefix_append _ rest⟩))
      · rw [two]
        exact .inr (.inr (.inr ⟨by omega, List.prefix_append _ rest⟩))
  · rintro (zero | nothing | ⟨two, rest, rfl⟩ | ⟨four, rest, rfl⟩)
    · rw [zero]
      cases text <;> rfl
    · rw [nothing]
      cases count <;> rfl
    · rw [two]
      rfl
    · rw [four]
      rfl

/-! ## Scopes -/

/-- Two texts in which the same literals stand are the same. -/
theorem eq_of_literals {first second : JsString}
    (same : ∀ literal, literal ≠ [] → (literal <:+: first ↔ literal <:+: second)) :
    first = second := by
  by_cases nothing : first = []
  · by_contra different
    have present : second ≠ [] := fun empty => different (nothing.trans empty.symm)
    have inside := (same second present).mpr List.infix_rfl
    rw [nothing, List.infix_nil] at inside
    exact present inside
  · have inside := (same first nothing).mp List.infix_rfl
    have present : second ≠ [] := by
      rintro rfl
      exact nothing (List.infix_nil.mp inside)
    have around := (same second present).mpr List.infix_rfl
    exact inside.eq_of_length_le around.length_le

/-- A literal stands at or after a sequence just where it stands in what begins there. -/
theorem occurs_iff {front rest : List Char} {first after : Nat} {literal : JsString}
    (length : textLength front = after - first) :
    Occurs ⟨first, front ++ rest⟩ ⟨literal, some after⟩ ↔ literal <:+: encode rest := by
  constructor
  · rintro ⟨before, others, split, behind, found⟩
    simp only [Option.getD_some] at split behind found
    have later : others <:+ rest := by
      obtain ⟨more, rfl, rfl⟩ | ⟨more, rfl, rfl⟩ := List.append_eq_append_iff.mp split
      · exact List.suffix_append more others
      · rw [textLength_append] at length
        have none : more = [] := textLength_eq_zero.mp (by omega)
        rw [none]
        exact List.suffix_rfl
    obtain ⟨more, rfl⟩ := later
    rw [encode_append]
    exact found.trans (List.suffix_append _ _).isInfix
  · intro found
    refine ⟨front, rest, rfl, ?_, found⟩
    simp only [Option.getD_some]
    omega

/-- What a wait finds in a text of which it leaves out too much. -/
theorem waitMatch_iff {front rest : List Char} {first recorded after : Nat} {literal : JsString}
    (behind : recorded ≤ first) (length : textLength front = after - first) :
    (waitMatch (front ++ rest) recorded ⟨literal, some after⟩).isSome = true ↔
      literal <:+: encode (subarray rest (min after first - recorded)) := by
  have scope : (if after ≤ recorded then front ++ rest
      else subarray (front ++ rest) (after - recorded)) =
        subarray rest (min after first - recorded) := by
    split
    next early =>
      have none : front = [] := textLength_eq_zero.mp (by omega)
      have nothing : min after first - recorded = 0 := by omega
      rw [none, nothing]
      cases rest <;> rfl
    next late =>
      have bytes : after - recorded = textLength front + (min after first - recorded) := by omega
      rw [bytes, subarray_front]
  simp only [waitMatch, Option.getD_some, scope, includes, decide_eq_true_eq]
  split_ifs with found <;> simp [found]

/-- A wait reports exactly what stands in its scope just where what it leaves out too much is
harmless. -/
theorem scopeExact_iff {front rest : List Char} {first recorded after : Nat}
    (behind : recorded ≤ first) (length : textLength front = after - first) :
    ScopeExact (front ++ rest) first recorded after ↔
      Harmless rest (min after first - recorded) := by
  rw [← subarray_eq_self]
  constructor
  · intro exact'
    apply encode_injective
    apply eq_of_literals
    intro literal nonempty
    rw [← waitMatch_iff behind length, exact' literal nonempty, occurs_iff length]
  · intro same literal _
    rw [waitMatch_iff behind length, occurs_iff length, same]

/-- What a run retains behind a sequence that the worker had reached. -/
theorem retained_behind {worker boundary : Worker} {stream written : List Char}
    (retains : Retains worker stream) (past : Past worker boundary stream written) :
    ∃ front rest, retained worker.state.chunks = front ++ rest ∧
      textLength front = boundary.state.nextSequence - worker.state.firstRetainedSequence := by
  obtain ⟨lost, split, length⟩ := retains.suffix
  have reached := past.next
  obtain ⟨more, whole⟩ := past.before
  rw [split] at whole
  obtain ⟨between, rfl, _⟩ | ⟨between, rfl, kept⟩ := List.append_eq_append_iff.mp whole
  · refine ⟨[], retained worker.state.chunks, rfl, ?_⟩
    rw [textLength_append] at length
    rw [textLength_nil]
    omega
  · refine ⟨between, more, kept, ?_⟩
    rw [textLength_append] at reached
    omega

/-- After any calls on a disk that works, with a record of one earlier state and an input that was
accepted in another one, a wait reports exactly the literals that stand in the retained output behind
the input, just where the bytes that were evicted since the record, up to the input, are harmless for
what is retained behind the input. -/
theorem wait_scope_iff {dateParse : JsString → Option Int} {mode : Mode}
    {maxOutputBytes recorded accepted : Nat} {calls : List WorkerJournal.Call}
    (working : ∀ call ∈ calls, call.disk = .working) {worker earlier boundary : Worker}
    {stream emitted written : List Char}
    (run : appendAll (started mode maxOutputBytes) calls = some (worker, stream))
    (record : appendAll (started mode maxOutputBytes) (calls.take recorded) =
      some (earlier, emitted))
    (write : appendAll (started mode maxOutputBytes) (calls.take accepted) =
      some (boundary, written))
    {directory : OutputJournal.Directory} (listed : directory.Perm (listing worker.files))
    {output : JsString} (read : OutputJournal.readOutput dateParse directory = .ok output) :
    ∃ front rest, output = encode (front ++ rest) ∧
      textLength front = boundary.state.nextSequence - worker.state.firstRetainedSequence ∧
      (ScopeExact (front ++ rest) worker.state.firstRetainedSequence
          earlier.state.firstRetainedSequence boundary.state.nextSequence ↔
        Harmless rest (min boundary.state.nextSequence worker.state.firstRetainedSequence -
          earlier.state.firstRetainedSequence)) := by
  obtain ⟨retains, past⟩ := past_of_run working run record
  obtain ⟨_, reached⟩ := past_of_run working run write
  obtain ⟨front, rest, split, length⟩ := retained_behind retains reached
  have text := readOutput_retained retains.described listed read
  rw [split] at text
  exact ⟨front, rest, text, length, scopeExact_iff past.first length⟩

theorem wait_scope_iff_pieces :
    ∃ worker stream, appendAll (started .pty 3) pieces = some (worker, stream) ∧
      ∃ front rest, encode "ef\n".toList = encode (front ++ rest) ∧
        textLength front =
          (started .pty 3).state.nextSequence - worker.state.firstRetainedSequence ∧
        (ScopeExact (front ++ rest) worker.state.firstRetainedSequence
            (started .pty 3).state.firstRetainedSequence (started .pty 3).state.nextSequence ↔
          Harmless rest (min (started .pty 3).state.nextSequence
            worker.state.firstRetainedSequence -
              (started .pty 3).state.firstRetainedSequence)) := by
  obtain ⟨worker, run, _, _, _, read⟩ := pieces_run
  exact ⟨worker, _, run, @wait_scope_iff (fun _ => some 0) .pty 3 0 0 pieces pieces_working
    worker (started .pty 3) (started .pty 3) _ [] [] run rfl rfl _ .rfl _ read⟩

/-- An input is accepted behind the first two of three pieces, and all of the third is retained. The
record from before the pieces leaves it out. -/
theorem reply_missed :
    ¬ ∀ (dateParse : JsString → Option Int) (mode : Mode) (maxOutputBytes recorded accepted : Nat)
      (calls : List WorkerJournal.Call) (worker earlier boundary : Worker)
      (stream emitted written : List Char) (directory : OutputJournal.Directory)
      (text : List Char),
      (∀ call ∈ calls, call.disk = .working) →
      appendAll (started mode maxOutputBytes) calls = some (worker, stream) →
      appendAll (started mode maxOutputBytes) (calls.take recorded) = some (earlier, emitted) →
      appendAll (started mode maxOutputBytes) (calls.take accepted) = some (boundary, written) →
      directory.Perm (listing worker.files) →
      OutputJournal.readOutput dateParse directory = .ok (encode text) →
      ScopeExact text worker.state.firstRetainedSequence earlier.state.firstRetainedSequence
        boundary.state.nextSequence := by
  intro always
  obtain ⟨worker, run, retains, whole, first, read⟩ := pieces_run
  obtain ⟨_, boundary, _, _, ran, kept, _⟩ :=
    @two_pieces 3 "ab".toList "cd".toList (by decide) (by decide) (by decide) (by decide) (by decide)
      (by decide)
  have four : boundary.state.nextSequence = 4 := kept.next
  have exact' := always (fun _ => some 0) .pty 3 0 2 pieces worker (started .pty 3) boundary _ [] _
    _ "ef\n".toList pieces_working run rfl ran .rfl read
  rw [first, four] at exact'
  have harmless := (@scopeExact_iff [] "ef\n".toList 4 0 4 (by decide) rfl).mp exact'
  obtain zero | nothing | ⟨two, _⟩ | ⟨_, others⟩ := harmless
  · exact absurd zero (by decide)
  · exact absurd nothing (by decide)
  · exact absurd two (by decide)
  · exact absurd others (by decide)

end OpencodePty.WaitScopes
