import OpencodePty.NativeSnapshots
import OpencodePty.TextEncodings
import OpencodePty.Transitions
import Mathlib.Data.List.Infix
import Mathlib.Logic.Function.Basic

/-!
# Output waits at the end of a session

A wait for a literal reads the journal and looks for the literal in what it has read, from a
sequence on that is counted from the first retained sequence of the record. The read takes time:
while it is under way the worker appends and evicts output, and its snapshots move the cursors of
the record and end the session. A wait that is registered is checked again when the session has
ended, on a read that begins after that. The first check of a wait looks for the literal in the
read that it began with, and only then at the status of the session.

A session is also given up where its record cannot be written. Its waits end, but its worker stays
attached until it is rolled back, and may tell later, with other cursors, that it is lost.
-/

namespace OpencodePty.ExitMatches

open JsValues TextEncodings NativeSnapshots Transitions

/-! ## Scoped matches -/

/-- `Buffer.from(output).subarray(count).toString('utf8')`. A character that is cut leaves its
continuation bytes, and each of them is decoded as a replacement character. -/
def subarray : List Char → Nat → List Char
  | text, 0 => text
  | [], _ + 1 => []
  | character :: rest, count + 1 =>
    if character.utf8Size ≤ count + 1 then subarray rest (count + 1 - character.utf8Size)
    else List.replicate (character.utf8Size - (count + 1)) '\uFFFD' ++ rest

/-- A text stands somewhere in another one. -/
def includes (haystack needle : JsString) : Bool := decide (needle <:+: haystack)

/-- An output condition with a literal. -/
structure Condition where
  literal : JsString
  afterSequence : Option Nat

/-- The literal, where the output has it from the sequence of the condition on. -/
def waitMatch (output : List Char) (firstRetainedSequence : Nat) (condition : Condition) :
    Option JsString :=
  let after := condition.afterSequence.getD firstRetainedSequence
  let scope := if after ≤ firstRetainedSequence then output
    else subarray output (after - firstRetainedSequence)
  if includes (encode scope) condition.literal then some condition.literal else none

/-! ## The session and its waits -/

/-- The output on disk, from the first retained sequence on. -/
structure Journal where
  first : Nat
  text : List Char

/-- The sequence after the last byte. -/
def Journal.next (journal : Journal) : Nat := journal.first + textLength journal.text

/-- What a snapshot tells of a session, and the record keeps. A record that runs has one of the
active statuses. -/
structure Report where
  status : WorkerStatus
  firstRetainedSequence : Nat
  nextSequence : Nat

/-- The session still runs. -/
def Report.activeStatus (report : Report) : Bool := report.status = .running

/-- What a wait returns. -/
inductive Result where
  /-- `satisfied` with reason `output`. -/
  | output (matched : JsString)
  /-- Not `satisfied`, with reason `exit`. -/
  | exit
  | deadline

/-- How far a wait has got. -/
inductive Call where
  | idle
  /-- The first check, with the journal as it was read. -/
  | checking (condition : Condition) (read : Option Journal)
  | registered (condition : Condition)
  | returned (condition : Condition) (result : Result)
  | rejected

/-- A later read for a registered wait. The one that `resolveExitWaits` makes is an ending one. -/
structure Read where
  call : Nat
  journal : Journal
  ending : Bool

/-- The session with its output, its record and its waits. -/
structure Watch where
  journal : Journal
  /-- The final output is on disk. -/
  finished : Bool
  record : Report
  /-- The worker is attached to the session. -/
  attached : Bool
  pendingCleanup : Bool
  /-- The snapshots that the worker took and nobody has applied. -/
  reports : List Report
  calls : Nat → Call
  reads : List Read

/-- What happens next. -/
inductive Action where
  | append (added : List Char)
  /-- The worker evicts the oldest characters. -/
  | evict (count : Nat)
  /-- The readers of the worker have come to the end of the output. -/
  | finish
  /-- The worker takes a snapshot. -/
  | take (status : WorkerStatus)
  /-- `finishNativeVersion` with a snapshot that was taken. -/
  | apply (index : Nat)
  /-- The session is given up without a snapshot: a failed write leaves its worker attached, and a
  rollback detaches it. -/
  | abandon (rollback : Bool)
  | markCleanup
  | wait (call : Nat) (condition : Condition)
  /-- The first read of a wait returns, or fails. -/
  | read (call : Nat) (succeeds : Bool)
  /-- A wait goes on after its first read; `admitted` tells whether the registry has room. -/
  | check (call : Nat) (admitted : Bool)
  /-- A later read for a registered wait returns. -/
  | recheck (call : Nat) (ending : Bool)
  /-- The code after a later read goes on. -/
  | resume (index : Nat)
  | deadline (call : Nat)

namespace Watch

variable (watch : Watch)

/-- A wait comes to another stage. -/
def goto (call : Nat) (stage : Call) : Watch :=
  { watch with calls := Function.update watch.calls call stage }

/-- The worker takes a snapshot under the lock of its state. It calls a session exited only once
its readers have ended without a failure. -/
def take (status : WorkerStatus) : Watch :=
  if status = .exited ∧ watch.finished = false then watch
  else { watch with
    reports := watch.reports ++ [⟨status, watch.journal.first, watch.journal.next⟩] }

/-- The lifecycle takes a snapshot: any of an active session, and of one that was given up with its
worker attached that the worker is lost. -/
def accepts (report : Report) : Bool :=
  watch.record.activeStatus || (watch.attached && report.status == .lost)

/-- A snapshot that ends the session detaches the worker. -/
def apply (index : Nat) : Watch :=
  match watch.reports[index]? with
  | none => watch
  | some report =>
    if watch.accepts report then
      { watch with
        record := report
        attached := watch.attached && report.activeStatus
        reports := watch.reports.eraseIdx index }
    else { watch with reports := watch.reports.eraseIdx index }

/-- `wait` up to its first read. -/
def wait (call : Nat) (condition : Condition) : Watch :=
  match watch.calls call with
  | .idle =>
    if watch.pendingCleanup ∨ watch.record.status = .lost then watch.goto call .rejected
    else watch.goto call (.checking condition none)
  | _ => watch

/-- The first read of a wait returns the journal of this moment, or fails. -/
def read (call : Nat) (succeeds : Bool) : Watch :=
  match watch.calls call with
  | .checking condition none =>
    if succeeds then watch.goto call (.checking condition (some watch.journal))
    else watch.goto call .rejected
  | _ => watch

/-- `wait` after its first read. -/
def check (call : Nat) (admitted : Bool) : Watch :=
  match watch.calls call with
  | .checking condition (some read) =>
    match waitMatch read.text watch.record.firstRetainedSequence condition with
    | some matched => watch.goto call (.returned condition (.output matched))
    | none =>
      if watch.record.activeStatus = false then watch.goto call (.returned condition .exit)
      else if admitted then watch.goto call (.registered condition)
      else watch.goto call .rejected
  | _ => watch

/-- A read for `resolveOutputWaits`, or for the check after a registration, at any time; one for
`resolveExitWaits` when the session has ended. -/
def recheck (call : Nat) (ending : Bool) : Watch :=
  match watch.calls call with
  | .registered _ =>
    if ending && watch.record.activeStatus then watch
    else { watch with reads := watch.reads ++ [⟨call, watch.journal, ending⟩] }
  | _ => watch

/-- What a later read settles. -/
def settle (read : Read) : Watch :=
  match watch.calls read.call with
  | .registered condition =>
    match waitMatch read.journal.text watch.record.firstRetainedSequence condition with
    | some matched => watch.goto read.call (.returned condition (.output matched))
    | none =>
      if read.ending then watch.goto read.call (.returned condition .exit) else watch
  | _ => watch

/-- The code behind a later read goes on. -/
def resume (index : Nat) : Watch :=
  match watch.reads[index]? with
  | none => watch
  | some read => settle { watch with reads := watch.reads.eraseIdx index } read

/-- One action; what is not possible changes nothing. -/
def step : Action → Watch
  | .append added =>
    if watch.finished then watch
    else { watch with journal := ⟨watch.journal.first, watch.journal.text ++ added⟩ }
  | .evict count =>
    if watch.finished then watch
    else { watch with
      journal := ⟨watch.journal.first + textLength (watch.journal.text.take count),
        watch.journal.text.drop count⟩ }
  | .finish => { watch with finished := true }
  | .take status => watch.take status
  | .apply index => watch.apply index
  | .abandon rollback =>
    { watch with
      record := { watch.record with status := .lost }
      attached := watch.attached && !rollback }
  | .markCleanup => { watch with pendingCleanup := true }
  | .wait call condition => watch.wait call condition
  | .read call succeeds => watch.read call succeeds
  | .check call admitted => watch.check call admitted
  | .recheck call ending => watch.recheck call ending
  | .resume index => watch.resume index
  | .deadline call =>
    match watch.calls call with
    | .registered condition => watch.goto call (.returned condition .deadline)
    | _ => watch

/-- A session whose worker has written nothing yet. -/
def opened : Watch where
  journal := ⟨0, []⟩
  finished := false
  record := ⟨.running, 0, 0⟩
  attached := true
  pendingCleanup := false
  reports := []
  calls := fun _ => .idle
  reads := []

/-- The cursors of the record are those of the journal. -/
def InSync : Prop :=
  watch.record.firstRetainedSequence = watch.journal.first ∧
    watch.record.nextSequence = watch.journal.next

end Watch

/-- The literal stands in the retained output at or after the sequence of the condition. -/
def Occurs (journal : Journal) (condition : Condition) : Prop :=
  ∃ before rest, journal.text = before ++ rest ∧
    condition.afterSequence.getD journal.first ≤ journal.first + textLength before ∧
    condition.literal <:+: encode rest

/-- With the final output on disk and the cursors in sync, no wait that ended with the session has
missed its literal. -/
def NoMissedMatch (watch : Watch) : Prop :=
  watch.finished = true → watch.InSync → ∀ call condition,
    watch.calls call = .returned condition .exit → ¬ Occurs watch.journal condition

/-- A read reaches the record if it holds the output up to the next sequence of the record. -/
def Call.reaches (record : Report) : Call → Bool
  | .checking _ (some read) => record.nextSequence ≤ read.next
  | _ => true

/-- A snapshot has the cursors of the record. -/
def Report.agrees (report record : Report) : Bool :=
  report.firstRetainedSequence == record.firstRetainedSequence &&
    report.nextSequence == record.nextSequence

/-- A first check that finds the session ended has made a read that reaches the record, and a
snapshot that is applied to a session that was given up has the cursors of the record. -/
def Reaches (watch : Watch) : Action → Prop
  | .check call _ => watch.record.activeStatus = false →
    (watch.calls call).reaches watch.record = true
  | .apply index => watch.record.activeStatus = false → watch.attached = true →
    (watch.reports[index]?.all fun report =>
      report.status != .lost || report.agrees watch.record) = true
  | _ => True

instance decidableReaches (watch : Watch) (action : Action) : Decidable (Reaches watch action) :=
  match action with
  | .check _ _ => inferInstanceAs (Decidable (_ = false → _ = true))
  | .apply _ => inferInstanceAs (Decidable (_ = false → _ = true → _ = true))
  | .append _ | .evict _ | .finish | .take _ | .abandon _ | .markCleanup | .wait _ _
  | .read _ _ | .recheck _ _ | .resume _ | .deadline _ => inferInstanceAs (Decidable True)

/-! ## What a read misses -/

/-- Where no more is cut than stands before them, the last characters stay. -/
theorem subarray_append (front rest : List Char) (count : Nat) (within : count ≤ textLength front) :
    ∃ left, subarray (front ++ rest) count = left ++ rest := by
  induction front generalizing count with
  | nil =>
    have none : count = 0 := Nat.le_zero.mp within
    subst none
    exact ⟨[], by cases rest <;> rfl⟩
  | cons character front inductionHypothesis =>
    cases count with
    | zero => exact ⟨character :: front, rfl⟩
    | succ count =>
      rw [List.cons_append, subarray]
      split_ifs with whole
      · apply inductionHypothesis
        rw [textLength, List.map_cons, List.sum_cons] at within
        rw [textLength]
        omega
      · exact ⟨List.replicate (character.utf8Size - (count + 1)) '\uFFFD' ++ front, by simp⟩

/-- A check that finds nothing leaves no literal behind what stands before its sequence. -/
theorem waitMatch_none {front rest : List Char} {first : Nat} {condition : Condition}
    (nothing : waitMatch (front ++ rest) first condition = none)
    (within : condition.afterSequence.getD first ≤ first + textLength front) :
    ¬ condition.literal <:+: encode rest := by
  intro found
  have scope : ∃ left, (if condition.afterSequence.getD first ≤ first then front ++ rest
      else subarray (front ++ rest) (condition.afterSequence.getD first - first)) =
        left ++ rest := by
    split_ifs
    · exact ⟨front, rfl⟩
    · apply subarray_append
      omega
  obtain ⟨left, kept⟩ := scope
  simp only [waitMatch, kept, encode_append, includes] at nothing
  have there : condition.literal <:+: encode left ++ encode rest :=
    found.trans (List.suffix_append _ _).isInfix
  simp [there] at nothing

/-- The journal went on from an older one, by appends and evictions. -/
def Since (old new : Journal) : Prop :=
  ∃ dropped added, old.text ++ added = dropped ++ new.text ∧
    new.first = old.first + textLength dropped

/-- A journal went on from itself. -/
theorem Since.refl (journal : Journal) : Since journal journal :=
  ⟨[], [], by simp, by simp [textLength]⟩

/-- A journal that went on goes on. -/
theorem Since.trans {old between new : Journal} (first : Since old between)
    (second : Since between new) : Since old new := by
  obtain ⟨dropped, added, text, start⟩ := first
  obtain ⟨droppedLater, addedLater, textLater, startLater⟩ := second
  refine ⟨dropped ++ droppedLater, added ++ addedLater, ?_, ?_⟩
  · rw [← List.append_assoc, text, List.append_assoc, textLater, List.append_assoc]
  · rw [startLater, start, textLength_append, Nat.add_assoc]

/-- An append lets the journal go on. -/
theorem Since.append (journal : Journal) (added : List Char) :
    Since journal ⟨journal.first, journal.text ++ added⟩ :=
  ⟨[], added, by simp, by simp [textLength]⟩

/-- An eviction lets the journal go on. -/
theorem Since.evict (journal : Journal) (count : Nat) :
    Since journal ⟨journal.first + textLength (journal.text.take count),
      journal.text.drop count⟩ :=
  ⟨journal.text.take count, [], by simp, rfl⟩

/-- The appended text is what the next sequences differ by. -/
theorem Since.next_le {old new : Journal} (since : Since old new) : old.next ≤ new.next := by
  obtain ⟨dropped, added, text, start⟩ := since
  have lengths := congrArg textLength text
  rw [textLength_append, textLength_append] at lengths
  rw [Journal.next, Journal.next, start]
  omega

/-- A journal that has not grown is the end of the older one. -/
theorem Since.suffix {old new : Journal} (since : Since old new) (reached : new.next ≤ old.next) :
    ∃ dropped, old.text = dropped ++ new.text := by
  obtain ⟨dropped, added, text, start⟩ := since
  have lengths := congrArg textLength text
  rw [textLength_append, textLength_append] at lengths
  rw [Journal.next, Journal.next, start] at reached
  have none : added = [] := textLength_eq_zero.mp (by omega)
  rw [none, List.append_nil] at text
  exact ⟨dropped, text⟩

/-- A failed check on a read that reaches the last cursors of the record has missed nothing. -/
theorem missed_nothing {read journal : Journal} {condition : Condition} {first : Nat}
    (since : Since read journal) (reached : journal.next ≤ read.next)
    (synced : first = journal.first)
    (nothing : waitMatch read.text first condition = none) : ¬ Occurs journal condition := by
  rintro ⟨before, rest, split, within, found⟩
  obtain ⟨dropped, text⟩ := since.suffix reached
  rw [text, split, ← List.append_assoc] at nothing
  refine waitMatch_none nothing ?_ found
  rw [synced, textLength_append]
  omega

/-! ## What every step keeps -/

/-- The check that ended a wait was made on a read that reaches the cursors of the record. -/
def Checked (watch : Watch) (condition : Condition) : Prop :=
  watch.record.activeStatus = false ∧ ∃ read : Journal, Since read watch.journal ∧
    watch.record.nextSequence ≤ read.next ∧
    waitMatch read.text watch.record.firstRetainedSequence condition = none

/-- What every step keeps: what was read is older than the journal, and what ended a wait was
checked. -/
structure Sound (watch : Watch) : Prop where
  record : watch.record.nextSequence ≤ watch.journal.next
  reports : ∀ report ∈ watch.reports, report.nextSequence ≤ watch.journal.next
  checking : ∀ call condition read, watch.calls call = .checking condition (some read) →
    Since read watch.journal
  reads : ∀ read ∈ watch.reads, Since read.journal watch.journal ∧
    (read.ending = true → watch.record.activeStatus = false ∧
      watch.record.nextSequence ≤ read.journal.next)
  ended : ∀ call condition, watch.calls call = .returned condition .exit → Checked watch condition

variable {watch : Watch}

/-- A session starts so. -/
theorem opened_sound : Sound Watch.opened where
  record := Nat.zero_le _
  reports _ member := nomatch member
  checking _ _ _ stage := nomatch stage
  reads _ member := nomatch member
  ended _ _ stage := nomatch stage

/-- The output goes on. -/
theorem Sound.grow (sound : Sound watch) {journal : Journal} (since : Since watch.journal journal) :
    Sound { watch with journal } where
  record := sound.record.trans since.next_le
  reports report member := (sound.reports report member).trans since.next_le
  checking call condition read stage := (sound.checking call condition read stage).trans since
  reads read member := ⟨(sound.reads read member).1.trans since, (sound.reads read member).2⟩
  ended call condition stage := by
    obtain ⟨inactive, read, before, reached, nothing⟩ := sound.ended call condition stage
    exact ⟨inactive, read, before.trans since, reached, nothing⟩

/-- A wait comes to another stage. -/
theorem Sound.goto (sound : Sound watch) {call : Nat} {stage : Call}
    (checking : ∀ condition read, stage = .checking condition (some read) →
      Since read watch.journal)
    (ended : ∀ condition, stage = .returned condition .exit → Checked watch condition) :
    Sound (watch.goto call stage) where
  record := sound.record
  reports := sound.reports
  checking other condition read reached := by
    by_cases same : other = call
    · subst same
      exact checking condition read (by simpa [Watch.goto] using reached)
    · exact sound.checking other condition read (by simpa [Watch.goto, same] using reached)
  reads := sound.reads
  ended other condition reached := by
    by_cases same : other = call
    · subst same
      exact ended condition (by simpa [Watch.goto] using reached)
    · exact sound.ended other condition (by simpa [Watch.goto, same] using reached)

/-- Later reads and snapshots are given up. -/
theorem Sound.fewer (sound : Sound watch) {reports : List Report} {reads : List Read}
    (fewerReports : ∀ report ∈ reports, report ∈ watch.reports)
    (fewerReads : ∀ read ∈ reads, read ∈ watch.reads) :
    Sound { watch with reports, reads } where
  record := sound.record
  reports report member := sound.reports report (fewerReports report member)
  checking := sound.checking
  reads read member := sound.reads read (fewerReads read member)
  ended := sound.ended

/-- A snapshot does not exceed the journal. -/
theorem Sound.take (sound : Sound watch) (status : WorkerStatus) : Sound (watch.take status) := by
  unfold Watch.take
  split_ifs
  · exact sound
  · refine ⟨sound.record, ?_, sound.checking, sound.reads, sound.ended⟩
    intro report member
    rcases List.mem_append.mp member with known | new
    · exact sound.reports report known
    · rw [List.mem_singleton.mp new]

/-- The cursors of an active session may change, since no wait has ended with it. -/
theorem Sound.observe (sound : Sound watch) (active : watch.record.activeStatus = true)
    {report : Report} (known : report.nextSequence ≤ watch.journal.next) (attached : Bool) :
    Sound { watch with record := report, attached } where
  record := known
  reports := sound.reports
  checking := sound.checking
  reads read member := by
    refine ⟨(sound.reads read member).1, ?_⟩
    intro ending
    have inactive := ((sound.reads read member).2 ending).1
    rw [active] at inactive
    cases inactive
  ended call condition stage := by
    have inactive := (sound.ended call condition stage).1
    rw [active] at inactive
    cases inactive

/-- A session that is lost keeps its cursors. -/
theorem Sound.lost (sound : Sound watch) {record : Report} (lost : record.status = .lost)
    (agrees : record.agrees watch.record = true) (attached : Bool) :
    Sound { watch with record, attached } := by
  have inactive : record.activeStatus = false := by
    simp [Report.activeStatus, lost]
  obtain ⟨first, next⟩ := Bool.and_eq_true_iff.mp agrees
  have sameFirst := eq_of_beq first
  have sameNext := eq_of_beq next
  constructor
  · exact sameNext ▸ sound.record
  · exact sound.reports
  · exact sound.checking
  · intro read member
    refine ⟨(sound.reads read member).1, fun ending => ⟨inactive, ?_⟩⟩
    exact sameNext ▸ ((sound.reads read member).2 ending).2
  · intro call condition stage
    obtain ⟨_, read, since, reached, nothing⟩ := sound.ended call condition stage
    exact ⟨inactive, read, since, sameNext ▸ reached, sameFirst ▸ nothing⟩

/-- A snapshot that is applied keeps it so, where it has the cursors of a session that was given up. -/
theorem Sound.apply (sound : Sound watch) {index : Nat} (reaches : Reaches watch (.apply index)) :
    Sound (watch.apply index) := by
  unfold Watch.apply
  split
  · exact sound
  next report found =>
    have fewer : Sound { watch with reports := watch.reports.eraseIdx index } :=
      sound.fewer (fun _ member => List.mem_of_mem_eraseIdx member) (fun _ member => member)
    split_ifs with accepted
    · cases active : watch.record.activeStatus with
      | true => exact fewer.observe active (sound.reports report (List.mem_of_getElem? found)) _
      | false =>
        rw [Watch.accepts, active, Bool.false_or, Bool.and_eq_true, beq_iff_eq] at accepted
        have agrees := reaches active accepted.1
        rw [found, Option.all_some, accepted.2] at agrees
        exact fewer.lost accepted.2 agrees _
    · exact fewer

/-- A session that is given up keeps its cursors. -/
theorem Sound.abandon (sound : Sound watch) (rollback : Bool) :
    Sound (watch.step (.abandon rollback)) :=
  sound.lost rfl (by simp [Report.agrees]) _

/-- A wait may begin. -/
theorem Sound.wait (sound : Sound watch) (call : Nat) (condition : Condition) :
    Sound (watch.wait call condition) := by
  unfold Watch.wait
  split
  · split_ifs <;> exact sound.goto (by simp) (by simp)
  · exact sound

/-- A first read returns the journal as it is. -/
theorem Sound.read (sound : Sound watch) (call : Nat) (succeeds : Bool) :
    Sound (watch.read call succeeds) := by
  unfold Watch.read
  split
  · split_ifs
    · refine sound.goto ?_ (by simp)
      rintro condition read stage
      cases stage
      exact .refl watch.journal
    · exact sound.goto (by simp) (by simp)
  · exact sound

/-- The first check ends a wait only on a read that reaches the record. -/
theorem Sound.check (sound : Sound watch) {call : Nat} {admitted : Bool}
    (reaches : Reaches watch (.check call admitted)) : Sound (watch.check call admitted) := by
  unfold Watch.check
  split
  next condition read stage =>
    split
    · exact sound.goto (by simp) (by simp)
    next nothing =>
      split_ifs with inactive
      · refine sound.goto (by simp) ?_
        rintro other same
        cases same
        have reached := reaches inactive
        rw [stage] at reached
        exact ⟨inactive, read, sound.checking call condition read stage,
          of_decide_eq_true reached, nothing⟩
      · exact sound.goto (by simp) (by simp)
      · exact sound.goto (by simp) (by simp)
  · exact sound

/-- A read that begins after the end of the session reaches the record. -/
theorem Sound.recheck (sound : Sound watch) (call : Nat) (ending : Bool) :
    Sound (watch.recheck call ending) := by
  unfold Watch.recheck
  split
  · split_ifs with early
    · exact sound
    · refine ⟨sound.record, sound.reports, sound.checking, ?_, sound.ended⟩
      intro read member
      rcases List.mem_append.mp member with known | new
      · exact sound.reads read known
      · rw [List.mem_singleton.mp new]
        refine ⟨.refl watch.journal, ?_⟩
        rintro rfl
        exact ⟨by simpa using early, sound.record⟩
  · exact sound

/-- A wait is ended by an ending read only where it reaches the record. -/
theorem Sound.settle (sound : Sound watch) {read : Read}
    (since : Since read.journal watch.journal)
    (ended : read.ending = true → watch.record.activeStatus = false ∧
      watch.record.nextSequence ≤ read.journal.next) : Sound (watch.settle read) := by
  unfold Watch.settle
  split
  next condition stage =>
    split
    · exact sound.goto (by simp) (by simp)
    next nothing =>
      split_ifs with ending
      · refine sound.goto (by simp) ?_
        rintro other same
        cases same
        obtain ⟨inactive, reached⟩ := ended ending
        exact ⟨inactive, read.journal, since, reached, nothing⟩
      · exact sound
  · exact sound

/-- The code behind a later read keeps it so. -/
theorem Sound.resume (sound : Sound watch) (index : Nat) : Sound (watch.resume index) := by
  unfold Watch.resume
  split
  · exact sound
  next read found =>
    have fewer : Sound { watch with reads := watch.reads.eraseIdx index } :=
      sound.fewer (fun _ member => member) (fun _ member => List.mem_of_mem_eraseIdx member)
    have known := sound.reads read (List.mem_of_getElem? found)
    exact fewer.settle known.1 known.2

/-- One step keeps it so. -/
theorem step_sound (sound : Sound watch) {action : Action} (reaches : Reaches watch action) :
    Sound (watch.step action) := by
  cases action with
  | append added =>
    simp only [Watch.step]
    split_ifs
    · exact sound
    · exact sound.grow (.append watch.journal added)
  | evict count =>
    simp only [Watch.step]
    split_ifs
    · exact sound
    · exact sound.grow (.evict watch.journal count)
  | finish => exact ⟨sound.record, sound.reports, sound.checking, sound.reads, sound.ended⟩
  | take status => exact sound.take status
  | apply index => exact sound.apply reaches
  | abandon rollback => exact sound.abandon rollback
  | markCleanup => exact ⟨sound.record, sound.reports, sound.checking, sound.reads, sound.ended⟩
  | wait call condition => exact sound.wait call condition
  | read call succeeds => exact sound.read call succeeds
  | check call admitted => exact sound.check reaches
  | recheck call ending => exact sound.recheck call ending
  | resume index => exact sound.resume index
  | deadline call =>
    simp only [Watch.step]
    split
    · exact sound.goto (by simp) (by simp)
    · exact sound

/-- What the checks that ended waits read is the final output. -/
theorem Sound.noMissedMatch (sound : Sound watch) : NoMissedMatch watch := by
  intro _ inSync call condition stage
  obtain ⟨_, read, since, reached, nothing⟩ := sound.ended call condition stage
  exact missed_nothing since (inSync.2 ▸ reached) inSync.1 nothing

/-! ## Exited sessions -/

/-- An exited session was reported with its final output on disk, up to the cursors. -/
def Closed (watch : Watch) (report : Report) : Prop :=
  report.status = .exited → watch.finished = true ∧
    report.firstRetainedSequence = watch.journal.first ∧ report.nextSequence = watch.journal.next

/-- What every step keeps of the record and of the snapshots that nobody has applied. -/
structure Settled (watch : Watch) : Prop where
  record : Closed watch watch.record
  reports : ∀ report ∈ watch.reports, Closed watch report

/-- A step that changes only waits and reads. -/
theorem Settled.same (settled : Settled watch) {after : Watch}
    (journal : after.journal = watch.journal)
    (finished : watch.finished = true → after.finished = true)
    (record : after.record = watch.record)
    (reports : ∀ report ∈ after.reports, report ∈ watch.reports) : Settled after := by
  have kept {report : Report} (closed : Closed watch report) : Closed after report := by
    intro exited
    rw [journal]
    exact ⟨finished (closed exited).1, (closed exited).2⟩
  constructor
  · rw [record]
    exact kept settled.record
  · intro report member
    exact kept (settled.reports report (reports report member))

/-- The output goes on only while nothing was reported to have exited. -/
theorem Settled.grow (settled : Settled watch) (journal : Journal) (going : watch.finished ≠ true) :
    Settled { watch with journal } where
  record exited := absurd (settled.record exited).1 going
  reports report member exited := absurd (settled.reports report member exited).1 going

/-- A snapshot of an exited worker is taken with the final output on disk. -/
theorem Settled.take (settled : Settled watch) (status : WorkerStatus) :
    Settled (watch.take status) := by
  unfold Watch.take
  split_ifs with early
  · exact settled
  · refine ⟨settled.record, ?_⟩
    intro report member
    rcases List.mem_append.mp member with known | new
    · exact settled.reports report known
    · rw [List.mem_singleton.mp new]
      intro exited
      rw [not_and, Bool.not_eq_false] at early
      exact ⟨early exited, rfl, rfl⟩

/-- What is applied was taken so. -/
theorem Settled.apply (settled : Settled watch) (index : Nat) : Settled (watch.apply index) := by
  unfold Watch.apply
  split
  · exact settled
  next report found =>
    split_ifs
    · refine ⟨settled.reports report (List.mem_of_getElem? found), ?_⟩
      intro other member
      exact settled.reports other (List.mem_of_mem_eraseIdx member)
    · exact settled.same rfl id rfl (fun _ member => List.mem_of_mem_eraseIdx member)

/-- Waits and reads change nothing here. -/
theorem Settled.waits (settled : Settled watch) {after : Watch}
    (kept : ∃ calls reads, after = { watch with calls, reads }) : Settled after := by
  obtain ⟨calls, reads, rfl⟩ := kept
  exact settled.same rfl id rfl (fun _ member => member)

/-- One step keeps it so. -/
theorem step_settled (settled : Settled watch) (action : Action) : Settled (watch.step action) := by
  cases action with
  | append added =>
    simp only [Watch.step]
    split_ifs with ended
    · exact settled
    · exact settled.grow _ ended
  | evict count =>
    simp only [Watch.step]
    split_ifs with ended
    · exact settled
    · exact settled.grow _ ended
  | finish => exact settled.same rfl (fun _ => rfl) rfl (fun _ member => member)
  | take status => exact settled.take status
  | apply index => exact settled.apply index
  | abandon rollback => exact ⟨fun exited => (nomatch exited), settled.reports⟩
  | markCleanup => exact settled.same rfl id rfl (fun _ member => member)
  | wait call condition =>
    apply settled.waits
    simp only [Watch.step, Watch.wait]
    split
    · split_ifs <;> exact ⟨_, _, rfl⟩
    · exact ⟨_, _, rfl⟩
  | read call succeeds =>
    apply settled.waits
    simp only [Watch.step, Watch.read]
    split
    · split_ifs <;> exact ⟨_, _, rfl⟩
    · exact ⟨_, _, rfl⟩
  | check call admitted =>
    apply settled.waits
    simp only [Watch.step, Watch.check]
    split
    · split
      · exact ⟨_, _, rfl⟩
      · split_ifs <;> exact ⟨_, _, rfl⟩
    · exact ⟨_, _, rfl⟩
  | recheck call ending =>
    apply settled.waits
    simp only [Watch.step, Watch.recheck]
    split
    · split_ifs <;> exact ⟨_, _, rfl⟩
    · exact ⟨_, _, rfl⟩
  | resume index =>
    apply settled.waits
    simp only [Watch.step, Watch.resume, Watch.settle]
    split
    · exact ⟨_, _, rfl⟩
    · split
      · split
        · exact ⟨_, _, rfl⟩
        · split_ifs <;> exact ⟨_, _, rfl⟩
      · exact ⟨_, _, rfl⟩
  | deadline call =>
    apply settled.waits
    simp only [Watch.step]
    split <;> exact ⟨_, _, rfl⟩

/-- Nothing has exited at first. -/
theorem opened_settled : Settled Watch.opened where
  record exited := nomatch exited
  reports _ member := nomatch member

/-- The snapshot of an exited worker brings the cursors of the record in sync for good. -/
theorem exited_in_sync (actions : List Action)
    (exited : (run Watch.step Watch.opened actions).record.status = .exited) :
    (run Watch.step Watch.opened actions).finished = true ∧
      (run Watch.step Watch.opened actions).InSync := by
  have settled : Settled (run Watch.step Watch.opened actions) :=
    @run_preserves _ _ Watch.step Settled (fun _ action settled => step_settled settled action)
      Watch.opened actions opened_settled
  exact settled.record exited

/-! ## No missed match -/

/-- Where every first check that finds the session ended has made a read that reaches the record,
and no snapshot moves the cursors of a session that was given up, no wait misses its literal at the
end of the session. The snapshot of an exited worker finds the final output on disk, and brings the
cursors in sync. -/
theorem no_missed_match (actions : List Action)
    (reaches : Along Watch.step Reaches Watch.opened actions) :
    NoMissedMatch (run Watch.step Watch.opened actions) ∧
      ((run Watch.step Watch.opened actions).record.status = .exited →
        (run Watch.step Watch.opened actions).finished = true ∧
          (run Watch.step Watch.opened actions).InSync) := by
  have sound : Sound (run Watch.step Watch.opened actions) :=
    @run_preserves_along _ _ Watch.step Reaches Sound
      (fun _ _ sound reaches => step_sound sound reaches) Watch.opened actions opened_sound reaches
  exact ⟨sound.noMissedMatch, exited_in_sync actions⟩

/-- One wait is registered before the child writes, another begins after its exit. -/
def lateReads : List Action :=
  [.wait 0 ⟨js "no", none⟩, .read 0 true, .check 0 true, .append "ok".toList, .finish,
    .take .exited, .apply 0, .recheck 0 true, .resume 0, .wait 1 ⟨js "no", some 1⟩, .read 1 true,
    .check 1 true]

/-- Every read of this run reaches the record. -/
theorem no_missed_match_late_reads :
    Along Watch.step Reaches Watch.opened lateReads ∧
      NoMissedMatch (run Watch.step Watch.opened lateReads) :=
  ⟨by decide, (no_missed_match lateReads (by decide)).1⟩

/-- The child writes and exits while the first check of a wait has its read under way. -/
def earlyRead : List Action :=
  [.wait 0 ⟨js "ok", none⟩, .read 0 true, .append "ok".toList, .finish, .take .exited, .apply 0,
    .check 0 true]

/-- The record of a session is not written while a wait is registered; the child writes afterwards,
and then its worker tells that it is lost. -/
def givenUp : List Action :=
  [.wait 0 ⟨js "ok", none⟩, .read 0 true, .check 0 true, .abandon false, .recheck 0 true, .resume 0,
    .append "ok".toList, .finish, .take .lost, .apply 0]

/-- In both runs the wait returns that the session has ended, and the literal is in its journal. -/
theorem early_read_misses :
    ¬ NoMissedMatch (run Watch.step Watch.opened earlyRead) ∧
      ¬ NoMissedMatch (run Watch.step Watch.opened givenUp) := by
  have occurs : Occurs ⟨0, "ok".toList⟩ ⟨js "ok", none⟩ :=
    ⟨[], "ok".toList, rfl, Nat.le_refl 0, List.infix_rfl⟩
  constructor
  · exact fun kept => kept rfl ⟨rfl, rfl⟩ 0 ⟨js "ok", none⟩ rfl occurs
  · exact fun kept => kept rfl ⟨rfl, rfl⟩ 0 ⟨js "ok", none⟩ rfl occurs

end OpencodePty.ExitMatches
