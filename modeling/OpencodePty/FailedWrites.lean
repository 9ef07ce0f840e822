import OpencodePty.TextBudgets

/-!
# Failed writes of the journal

The worker joins new output to the last chunk in memory before it writes the file. When the write
fails, the state describes what is on disk as before, unless the output was joined: the chunk in
memory then holds output that was never stored, and the snapshot reports its last line.
-/

namespace OpencodePty.FailedWrites

open OpencodePty.TextEncodings OpencodePty.Timestamps OpencodePty.WorkerJournal
  OpencodePty.TextBudgets

/-- What a call is about to store. -/
def toStore (worker : Worker) (call : Call) : List Char :=
  match worker.mode with
  | .exec => fitting (worker.maxOutputBytes - worker.state.retainedBytes) call.data
  | .pty => call.data

/-- The journal is as before, and the state describes what is on disk. -/
structure Unaffected (worker next : Worker) : Prop where
  described : Described next
  chunks : next.state.chunks = worker.state.chunks
  nextSequence : next.state.nextSequence = worker.state.nextSequence
  retainedBytes : next.state.retainedBytes = worker.state.retainedBytes
  retainedNewlines : next.state.retainedNewlines = worker.state.retainedNewlines
  outputLineCount : next.state.outputLineCount = worker.state.outputLineCount
  outputHasPartialLine : next.state.outputHasPartialLine = worker.state.outputHasPartialLine

/-- The last chunk does not take what is about to be stored. -/
def Apart (worker : Worker) (call : Call) : Prop :=
  ∀ previous, worker.state.chunks.getLast? = some previous →
    64 * 1024 < textLength previous.data + textLength (toStore worker call)

theorem kept_toStore (worker : Worker) (call : Call) :
    kept worker call.data = some (toStore worker call) := by
  rw [kept_eq]
  unfold available toStore
  cases worker.mode with
  | exec => rfl
  | pty => rw [fitting_self (Nat.le_refl _)]

/-- A failed write changes the chunks as they were placed, and the flags. -/
theorem appendOutput_failing {worker : Worker} (free : worker.state.storageFailure = none)
    {call : Call} {error : List Char} (failing : call.disk.write = some error)
    (attempted : toStore worker call ≠ []) :
    ∃ next, appendOutput worker call = some next ∧ next.files = worker.files ∧
      next.state.chunks = (place worker.state.chunks worker.state.nextSequence
        (toStore worker call) (now call.clock)).1 ∧
      next.state.firstRetainedSequence = worker.state.firstRetainedSequence ∧
      next.state.nextSequence = worker.state.nextSequence ∧
      next.state.retainedBytes = worker.state.retainedBytes ∧
      next.state.retainedNewlines = worker.state.retainedNewlines := by
  have present : call.data.isEmpty = false := by
    cases data : call.data with
    | nil =>
      refine absurd ?_ attempted
      unfold toStore
      rw [data]
      cases worker.mode <;> rfl
    | cons => rfl
  have some : (toStore worker call).isEmpty = false := by simpa using attempted
  simp only [appendOutput, present, free, kept_toStore, some, store, failing, Option.isSome_none,
    Bool.false_or, Bool.false_eq_true, if_false, Option.bind_eq_bind, Option.bind_some]
  refine ⟨_, rfl, rfl, ?_⟩
  unfold State.truncate State.fail
  split_ifs <;> exact ⟨rfl, rfl, rfl, rfl, rfl⟩

/-- A write that fails leaves the state as it was, and a description of what is on disk, just where
the last chunk does not take the output. -/
theorem failed_write_unaffected_iff {worker : Worker} (described : Described worker)
    (free : worker.state.storageFailure = none) {call : Call} {error : List Char}
    (failing : call.disk.write = some error) (attempted : toStore worker call ≠ []) :
    ∃ next, appendOutput worker call = some next ∧
      (Unaffected worker next ↔ Apart worker call) := by
  obtain ⟨next, appended, files, chunks, first, sequence, bytes, lines⟩ :=
    appendOutput_failing free failing attempted
  refine ⟨next, appended, ?_⟩
  obtain ⟨before, previous, last, close, joined⟩ | ⟨apart, fresh⟩ :=
    place_joins described.chained (toStore worker call) (now call.clock)
  · rw [joined] at chunks
    apply iff_of_false
    · intro unaffected
      have same := unaffected.chunks
      rw [chunks, last] at same
      have final := congrArg List.getLast? same
      rw [List.getLast?_concat, List.getLast?_concat, Option.some.injEq] at final
      have data : previous.data ++ toStore worker call = previous.data :=
        congrArg JournalChunk.data final
      exact attempted (List.append_right_eq_self.mp data)
    · intro apart
      have far := apart previous (by rw [last, List.getLast?_concat])
      omega
  · rw [fresh] at chunks
    apply iff_of_true
    · constructor
      · constructor
        · rw [first, chunks, sequence]
          exact described.chained
        · rw [bytes, chunks]
          exact described.bytes
        · rw [lines, chunks]
          exact described.lines
        · rw [files, chunks]
          exact described.files
      · exact chunks
      · exact sequence
      · exact bytes
      · exact lines
      · simp only [State.outputLineCount, State.outputHasPartialLine, chunks, bytes, lines]
        rfl
      · simp only [State.outputHasPartialLine, chunks, bytes]
    · exact apart

/-- A worker with one line of output, at the beginning of 1970. -/
def oneLine : Worker :=
  { started .pty 10 with
    state :=
      { (started .pty 10).state with
        nextSequence := 2
        retainedBytes := 2
        retainedNewlines := 1
        chunks := [⟨0, 2, [], "a\n".toList⟩] }
    files := [chunkFile ⟨0, 2, [], "a\n".toList⟩] }

theorem oneLine_described : Described oneLine where
  chained := ⟨rfl, by decide, rfl, rfl⟩
  bytes := by decide
  lines := by decide
  files := rfl

/-- A call whose write fails. -/
def unwritten (data : List Char) : Call :=
  ⟨true, data, ⟨0, 0⟩, ⟨some "no space left on device".toList, fun _ => none⟩⟩

theorem failed_write_unaffected_iff_oneLine :
    ∃ next, appendOutput oneLine (unwritten "b".toList) = some next ∧
      (Unaffected oneLine next ↔ Apart oneLine (unwritten "b".toList)) :=
  failed_write_unaffected_iff oneLine_described rfl rfl (by decide)

/-- After a line on disk, a character that could not be written is reported as a line of its own. -/
theorem failed_write_reported :
    ¬ ∀ (worker next : Worker) (call : Call) (error : List Char), Described worker →
      worker.state.storageFailure = none → call.disk.write = some error →
      toStore worker call ≠ [] → appendOutput worker call = some next →
      Unaffected worker next := by
  intro always
  obtain ⟨next, appended, _, chunks, _, _, bytes, _⟩ :=
    @appendOutput_failing oneLine rfl (unwritten "b".toList) _ rfl (by decide)
  have unaffected := always oneLine next _ _ oneLine_described rfl rfl (by decide) appended
  have before : oneLine.state.outputHasPartialLine = false := by decide
  have after : next.state.outputHasPartialLine = true := by
    rw [State.outputHasPartialLine, chunks, bytes]
    decide
  have same := unaffected.outputHasPartialLine
  rw [before, after] at same
  cases same

end OpencodePty.FailedWrites
