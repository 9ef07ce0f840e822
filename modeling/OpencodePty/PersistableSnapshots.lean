import OpencodePty.RecordChecks
import OpencodePty.WorkerJournalRuns
import OpencodePty.WorkerReports

/-!
# Snapshots that the daemon can store

The daemon stores the counters and diagnostics of a snapshot only if they fit together. The
worker keeps them so, whatever its readers report and whichever file operations fail, with
two exceptions. When the first removal of a chunk fails, the chunk is gone while the output
does not count as truncated. And a diagnostic that was cut to its length before the
redaction can grow beyond it, since a marker may be longer than the secret it stands for.
-/

namespace OpencodePty.PersistableSnapshots

open OpencodePty.JsValues OpencodePty.Redaction OpencodePty.Substitution
open OpencodePty.TextEncodings OpencodePty.Timestamps
open OpencodePty.WorkerJournal OpencodePty.WorkerReports

/-- What the daemon requires of the fields of a snapshot. -/
structure Persistable (reporter : Reporter) (jobEmpty : Bool) : Prop where
  ordered : reporter.worker.state.firstRetainedSequence ≤ reporter.worker.state.nextSequence
  truncated : 0 < reporter.worker.state.firstRetainedSequence →
    reporter.worker.state.outputTruncated = true
  total : reporter.worker.mode = .exec →
    outputBytes reporter.worker =
      reporter.worker.state.stdoutBytes + reporter.worker.state.stderrBytes
  stdout : textLength reporter.worker.state.stdout ≤ reporter.worker.state.stdoutBytes
  stderr : textLength reporter.worker.state.stderr ≤ reporter.worker.state.stderrBytes
  few : (reporter.snapshotDiagnostics jobEmpty).length ≤ 4
  short : ∀ diagnostic ∈ reporter.snapshotDiagnostics jobEmpty, diagnostic.length ≤ 512

/-- `diagnostics` of the record, from a snapshot. -/
def diagnosticsField (diagnostics : List (List Char)) : Js :=
  .arr (diagnostics.map fun diagnostic => .str (encode diagnostic))

/-- The diagnostics pass the check of the record. -/
theorem Persistable.diagnostics_valid {reporter : Reporter} {jobEmpty : Bool}
    (persistable : Persistable reporter jobEmpty) :
    RecordChecks.validDiagnostics
      (some (diagnosticsField (reporter.snapshotDiagnostics jobEmpty))) = true := by
  simp only [RecordChecks.validDiagnostics, RecordChecks.everyItem, diagnosticsField,
    Bool.and_eq_true, List.all_eq_true, List.mem_map, List.length_map, decide_eq_true_eq]
  refine ⟨?_, persistable.few⟩
  rintro _ ⟨diagnostic, member, rfl⟩
  have short := persistable.short diagnostic member
  simpa [RecordChecks.validDiagnostic, OutputJournal.text, validText_encode,
    codePoints_encode] using short

/-! ## The journal when file operations fail -/

/-- The counters of a worker fit together, and as long as no file operation failed, they
describe its chunks. -/
structure Steady (worker : Worker) : Prop where
  ordered : worker.state.firstRetainedSequence ≤ worker.state.nextSequence
  truncated : 0 < worker.state.firstRetainedSequence → worker.state.outputTruncated = true
  stdout : textLength worker.state.stdout = worker.state.stdoutBytes
  stderr : textLength worker.state.stderr = worker.state.stderrBytes
  chained : worker.state.storageFailure = none →
    Chained worker.state.firstRetainedSequence worker.state.chunks worker.state.nextSequence
  bytes : worker.state.storageFailure = none →
    worker.state.retainedBytes = textLength (retained worker.state.chunks)

/-- The fields of a worker that the eviction of chunks leaves as they are. -/
structure SameStreams (worker next : Worker) : Prop where
  mode : next.mode = worker.mode
  limit : next.maxOutputBytes = worker.maxOutputBytes
  stdout : next.state.stdout = worker.state.stdout
  stderr : next.state.stderr = worker.state.stderr
  stdoutBytes : next.state.stdoutBytes = worker.state.stdoutBytes
  stderrBytes : next.state.stderrBytes = worker.state.stderrBytes
  nextSequence : next.state.nextSequence = worker.state.nextSequence

/-- The eviction of chunks from a list leaves a rest of it, and either it went well or the
removal of a file failed. -/
structure Evicted (remove : List Char → Option (List Char)) (chunks gone : List JournalChunk)
    (worker next : Worker) : Prop where
  same : SameStreams worker next
  parts : chunks = gone ++ next.state.chunks
  kept : gone = [] → next.state.outputTruncated = worker.state.outputTruncated
  failure : next.state.storageFailure = worker.state.storageFailure ∧
      next.state.retainedBytes = textLength (retained next.state.chunks) ∨
    ∃ name error, remove name = some error ∧ next.state.storageFailure = some error
  truncated : gone ≠ [] → next.state.outputTruncated = true ∨
    ∃ removed error, gone.head? = some removed ∧
      remove (fileName removed.startSequence) = some error

/-- An eviction drops the oldest chunks, as many as it can remove. -/
theorem evict_evicted {limit first last : Nat} {remove : List Char → Option (List Char)}
    {chunks : List JournalChunk} {worker : Worker} (chained : Chained first chunks last)
    (bytes : worker.state.retainedBytes = textLength (retained chunks)) :
    ∃ next gone, evict limit remove chunks worker = some next ∧
      Evicted remove chunks gone worker next ∧
      (gone ≠ [] → limit < worker.state.retainedBytes) ∧
      (worker.state.outputTruncated = true → next.state.outputTruncated = true) := by
  induction chunks generalizing first worker with
  | nil =>
    have empty : worker.state.retainedBytes ≤ limit := by
      rw [bytes]
      exact Nat.zero_le _
    rw [evict, if_pos empty]
    refine ⟨_, [], rfl, ⟨⟨rfl, rfl, rfl, rfl, rfl, rfl, rfl⟩, rfl, fun _ => rfl, ?_, ?_⟩, ?_, id⟩
    · exact Or.inl ⟨rfl, bytes⟩
    · exact fun proper => absurd rfl proper
    · exact fun proper => absurd rfl proper
  | cons removed rest inductionHypothesis =>
    by_cases small : worker.state.retainedBytes ≤ limit
    · rw [evict, if_pos small]
      refine ⟨_, [], rfl, ⟨⟨rfl, rfl, rfl, rfl, rfl, rfl, rfl⟩, rfl, fun _ => rfl, ?_, ?_⟩, ?_, id⟩
      · exact Or.inl ⟨rfl, bytes⟩
      · exact fun proper => absurd rfl proper
      · exact fun proper => absurd rfl proper
    · rw [evict, if_neg small]
      simp only
      cases removal : remove (fileName removed.startSequence) with
      | some error =>
        refine ⟨_, [removed], rfl, ⟨⟨rfl, rfl, rfl, rfl, rfl, rfl, rfl⟩, rfl, ?_, ?_, ?_⟩, ?_, id⟩
        · exact fun none => absurd none (List.cons_ne_nil _ _)
        · exact Or.inr ⟨_, error, removal, rfl⟩
        · exact fun _ => Or.inr ⟨removed, error, rfl, removal⟩
        · exact fun _ => Nat.lt_of_not_le small
      | none =>
        obtain ⟨_, _, _, later⟩ := chained
        rw [retained_cons, textLength_append] at bytes
        obtain ⟨next, gone, evicted, outcome, _, stays⟩ := @inductionHypothesis
          removed.endSequence
          { worker with
            files := removeFile worker.files (fileName removed.startSequence)
            state :=
              { worker.state with
                retainedBytes := worker.state.retainedBytes - textLength removed.data
                retainedNewlines :=
                  worker.state.retainedNewlines - (asBytes removed.data).count 10
                outputTruncated := true } }
          later (by simp only [bytes]; omega)
        have streams := outcome.same
        refine ⟨next, removed :: gone, evicted, ⟨?_, ?_, ?_, outcome.failure, ?_⟩, ?_, ?_⟩
        · exact ⟨streams.mode, streams.limit, streams.stdout, streams.stderr,
            streams.stdoutBytes, streams.stderrBytes, streams.nextSequence⟩
        · rw [List.cons_append, ← outcome.parts]
        · exact fun none => absurd none (List.cons_ne_nil _ _)
        · exact fun _ => Or.inl (stays rfl)
        · exact fun _ => Nat.lt_of_not_le small
        · exact fun _ => stays rfl

/-- The error of a file operation in a call. -/
def Failed (worker : Worker) (call : Call) (error : List Char) : Prop :=
  call.disk.write = some error ∨
    worker.mode = .pty ∧ ∃ name, call.disk.remove name = some error

/-- The call has to remove a chunk, and none was removed before. -/
def FirstRemoval (worker : Worker) (call : Call) : Prop :=
  worker.mode = .pty ∧ worker.state.outputTruncated = false ∧ call.disk.write = none ∧
    worker.maxOutputBytes < worker.state.retainedBytes + textLength call.data

/-- What a call makes of a worker whose counters fit together. -/
structure Stored (worker : Worker) (call : Call) (next : Worker) : Prop where
  steady : Steady next
  mode : next.mode = worker.mode
  failure : next.state.storageFailure = worker.state.storageFailure ∨
    ∃ error, next.state.storageFailure = some error ∧ Failed worker call error

/-- The chunks that are left after an eviction and the counters fit together. -/
theorem steady_of_evicted {remove : List Char → Option (List Char)} {first last : Nat}
    {pushed gone : List JournalChunk} {worker next : Worker}
    (chained : Chained first pushed last) (reached : worker.state.nextSequence = last)
    (evicted : Evicted remove pushed gone worker next)
    (stdout : textLength worker.state.stdout = worker.state.stdoutBytes)
    (stderr : textLength worker.state.stderr = worker.state.stderrBytes)
    (truncated : 0 < first → worker.state.outputTruncated = true)
    (stays : worker.state.outputTruncated = true → next.state.outputTruncated = true)
    (removal : worker.state.outputTruncated = false → gone ≠ [] →
      remove (fileName first) = none) :
    Steady { next with state := next.state.refirst } := by
  rw [evicted.parts] at chained
  obtain ⟨middle, front, back⟩ := chained_append.mp chained
  have sequence : next.state.nextSequence = last := evicted.same.nextSequence.trans reached
  have start : next.state.refirst.firstRetainedSequence = middle := by
    rw [← chained_first back, ← sequence]
    rfl
  refine ⟨?_, ?_, ?_, ?_, ?_, ?_⟩
  · change next.state.refirst.firstRetainedSequence ≤ next.state.nextSequence
    have reaches := back.length
    rw [start, sequence]
    omega
  · change 0 < next.state.refirst.firstRetainedSequence → next.state.outputTruncated = true
    rw [start]
    intro positive
    cases before : worker.state.outputTruncated with
    | true => exact stays before
    | false =>
      have zero : first = 0 := by
        by_contra positive
        exact absurd (truncated (Nat.pos_of_ne_zero positive)) (by simp [before])
      cases gone with
      | nil =>
        have same : first = middle := front
        omega
      | cons removed others =>
        obtain marked | ⟨_, error, head, failed⟩ := evicted.truncated (List.cons_ne_nil _ _)
        · exact marked
        · -- The chunk that could not be removed is the first one.
          rw [← Option.some.inj head, front.1, removal before (List.cons_ne_nil _ _)] at failed
          exact nomatch failed
  · change textLength next.state.stdout = next.state.stdoutBytes
    rw [evicted.same.stdout, evicted.same.stdoutBytes, stdout]
  · change textLength next.state.stderr = next.state.stderrBytes
    rw [evicted.same.stderr, evicted.same.stderrBytes, stderr]
  · intro _
    rw [start]
    change Chained middle next.state.chunks next.state.nextSequence
    rw [sequence]
    exact back
  · intro none
    change next.state.storageFailure = Option.none at none
    obtain ⟨_, bytes⟩ | ⟨_, error, _, failed⟩ := evicted.failure
    · exact bytes
    · rw [failed] at none
      exact nomatch none

/-- A store adds the text and evicts what is above the limit. -/
theorem store_stored {worker : Worker} (steady : Steady worker)
    (working : worker.state.storageFailure = none) {call : Call} {added : List Char}
    (nonempty : added ≠ [])
    (removal : worker.mode = .pty → worker.state.outputTruncated = false →
      call.disk.write = none → worker.maxOutputBytes < worker.state.retainedBytes + textLength added →
      call.disk.remove (fileName worker.state.firstRetainedSequence) = none) :
    ∃ next, store worker call added = some next ∧ Stored worker call next := by
  generalize placement : place worker.state.chunks worker.state.nextSequence added
    (now call.clock) = placed
  cases write : call.disk.write with
  | some error =>
    have stored : store worker call added =
        some { worker with state := { worker.state with chunks := placed.1 }.fail error } := by
      simp only [store, placement, write]
    refine ⟨_, stored, ⟨?_, rfl, ?_⟩⟩
    · refine ⟨steady.ordered, steady.truncated, steady.stdout, steady.stderr, ?_, ?_⟩ <;>
        intro working <;> cases working
    · exact Or.inr ⟨error, rfl, Or.inl write⟩
  | none =>
    obtain ⟨pushed, push, chained, whole, _, _⟩ :=
      place_chained (steady.chained working) nonempty (now call.clock) placement
    have bytes : worker.state.retainedBytes + textLength added = textLength (retained pushed) := by
      rw [whole, textLength_append, ← steady.bytes working]
    cases mode : worker.mode with
    | exec =>
      have stored : store worker call added = some
          { worker with
            files := writeFile worker.files (fileName placed.2.startSequence) placed.2.json
            state :=
              { (worker.state.count added).stream call.stdout added with chunks := pushed }.refirst
          } := by
        simp only [store, placement, write, push]
        rw [settle_exec]
        · rfl
        · exact mode
      have reaches := chained.length
      have streams :
          ((worker.state.count added).stream call.stdout added).nextSequence =
              worker.state.nextSequence + textLength added ∧
            ((worker.state.count added).stream call.stdout added).retainedBytes =
              worker.state.retainedBytes + textLength added ∧
            ((worker.state.count added).stream call.stdout added).storageFailure = none ∧
            ((worker.state.count added).stream call.stdout added).outputTruncated =
              worker.state.outputTruncated := by
        rw [State.stream]
        split <;> exact ⟨rfl, rfl, working, rfl⟩
      obtain ⟨sequence, counted, failure, truncated⟩ := streams
      have start := chained_first chained
      refine ⟨_, stored, ⟨⟨?_, ?_, ?_, ?_, fun _ => ?_, fun _ => ?_⟩, rfl,
        Or.inl (failure.trans working.symm)⟩⟩
      · simp only [State.refirst, sequence, start]
        omega
      · simp only [State.refirst, sequence, start, truncated]
        exact steady.truncated
      · have same := steady.stdout
        simp only [State.refirst, State.stream]
        split
        · simp only [State.count, textLength_append]
          omega
        · exact same
      · have same := steady.stderr
        simp only [State.refirst, State.stream]
        split
        · exact same
        · simp only [State.count, textLength_append]
          omega
      · simp only [State.refirst, sequence, start]
        exact chained
      · simp only [State.refirst, counted]
        exact bytes
    | pty =>
      obtain ⟨next, gone, evicted, outcome, size, stays⟩ := @evict_evicted
        worker.maxOutputBytes _ _ call.disk.remove pushed
        { worker with
          files := writeFile worker.files (fileName placed.2.startSequence) placed.2.json
          state := worker.state.count added }
        chained bytes
      have stored : store worker call added = some { next with state := next.state.refirst } := by
        simp only [store, placement, write, push]
        rw [settle_pty]
        · rw [evicted]
          rfl
        · exact mode
      refine ⟨_, stored, ⟨?_, outcome.same.mode, ?_⟩⟩
      · exact steady_of_evicted chained rfl outcome steady.stdout steady.stderr
          steady.truncated stays fun fresh proper =>
            removal mode fresh write (size proper)
      · obtain ⟨same, _⟩ | ⟨name, error, removed, failed⟩ := outcome.failure
        · exact Or.inl same
        · exact Or.inr ⟨error, failed, Or.inr ⟨mode, name, removed⟩⟩

/-- The flags of a cut leave the counters as they are. -/
theorem Steady.truncate {worker : Worker} (steady : Steady worker) (cut stdout : Bool) :
    Steady
      { worker with state := if cut then worker.state.truncate stdout else worker.state } := by
  cases cut with
  | false => exact steady
  | true =>
    unfold State.truncate
    cases stdout <;>
      exact ⟨steady.ordered, fun _ => rfl, steady.stdout, steady.stderr, steady.chained,
        steady.bytes⟩

/-- A call of `append_output` ends, and keeps the counters, if the first removal of a chunk
does not fail. -/
theorem appendOutput_stored {worker : Worker} (steady : Steady worker) {call : Call}
    (removal : FirstRemoval worker call →
      call.disk.remove (fileName worker.state.firstRetainedSequence) = none) :
    ∃ next, appendOutput worker call = some next ∧ Stored worker call next := by
  by_cases idle : (call.data.isEmpty || worker.state.storageFailure.isSome) = true
  · rw [appendOutput, if_pos idle]
    exact ⟨worker, rfl, steady, rfl, Or.inl rfl⟩
  · have working : worker.state.storageFailure = none := by
      simp only [Bool.or_eq_true, not_or, Option.isSome_iff_ne_none, ne_eq, not_not] at idle
      exact idle.2
    obtain ⟨added, rest, sliced, split⟩ := kept_some worker call.data
    have marked := steady.truncate (textLength added != textLength call.data) call.stdout
    generalize flags : (if (textLength added != textLength call.data) = true then
      worker.state.truncate call.stdout else worker.state) = state at marked
    have same : state.storageFailure = none ∧ state.retainedBytes = worker.state.retainedBytes ∧
        state.firstRetainedSequence = worker.state.firstRetainedSequence := by
      rw [← flags]
      unfold State.truncate
      split
      · split <;> exact ⟨working, rfl, rfl⟩
      · exact ⟨working, rfl, rfl⟩
    rw [appendOutput, if_neg idle]
    simp only [sliced, Option.bind_eq_bind, Option.bind_some, flags]
    by_cases nothing : added = []
    · subst nothing
      exact ⟨_, rfl, marked, rfl, Or.inl (same.1.trans working.symm)⟩
    · have present : added.isEmpty = false := by simpa using nothing
      obtain ⟨next, stored, outcome⟩ := @store_stored { worker with state := state } marked same.1
        call added nothing (by
          intro pty fresh write full
          -- In pty mode nothing is cut off, so that no flag was set.
          have whole : added = call.data :=
            Option.some.inj (sliced.symm.trans (@kept_pty worker pty call.data))
          subst whole
          simp only [bne_self_eq_false, Bool.false_eq_true, if_false] at flags
          subst flags
          exact removal ⟨pty, fresh, write, full⟩)
      refine ⟨next, by simpa [present] using stored, outcome.steady, outcome.mode, ?_⟩
      obtain none | failed := outcome.failure
      · exact Or.inl (none.trans (same.1.trans working.symm))
      · exact Or.inr failed

/-! ## Diagnostics -/

/-- By how much the redaction makes a text longer: the marker takes the place of every
occurrence of a secret. -/
def growth : List (List Char) → List Char → Int
  | [], _ => 0
  | secret :: rest, text =>
    if byteLength secret ≥ 4 then
      occurrences secret text * ((marker.length : Int) - secret.length) +
        growth rest (replaceAll secret marker text)
    else growth rest text

/-- A redaction changes the length by the growth of what it hides. -/
theorem length_redact (secrets : List (List Char)) (text : List Char) :
    ((redact text secrets).length : Int) = text.length + growth secrets text := by
  induction secrets generalizing text with
  | nil => simp [redact, growth]
  | cons secret rest inductionHypothesis =>
    by_cases long : byteLength secret ≥ 4
    · have proper : secret ≠ [] := by
        rintro rfl
        exact absurd long (by decide)
      have replaced := @length_replaceAll _ _ secret marker proper text
      have later := inductionHypothesis (replaceAll secret marker text)
      have step : redact text (secret :: rest) = redact (replaceAll secret marker text) rest := by
        simp only [redact, List.foldl_cons, if_pos long]
      rw [step, later, growth, if_pos long, Int.mul_sub]
      omega
    · have step : redact text (secret :: rest) = redact text rest := by
        simp only [redact, List.foldl_cons, if_neg long]
      rw [step, inductionHypothesis, growth, if_neg long]

/-- There is room for a message: the diagnostics are full, or the first 512 characters of the
message do not grow beyond that number. -/
def Fits (reporter : Reporter) (message : List Char) : Prop :=
  reporter.diagnostics.length < reporter.limit →
    ((message.take 512).length : Int) + growth reporter.secrets (message.take 512) ≤ 512

/-- What a worker has to report fits together. -/
structure Sound (reporter : Reporter) : Prop where
  steady : Steady reporter.worker
  few : reporter.diagnostics.length ≤ reporter.limit
  short : ∀ diagnostic ∈ reporter.diagnostics, diagnostic.length ≤ 512

/-- A diagnostic that fits keeps the reporter sound. -/
theorem pushDiagnostic_sound {reporter : Reporter} (sound : Sound reporter) {message : List Char}
    (fits : Fits reporter message) : Sound (reporter.pushDiagnostic message) := by
  unfold Reporter.pushDiagnostic
  by_cases room : reporter.diagnostics.length < reporter.limit
  · rw [if_pos room]
    refine ⟨sound.steady, ?_, ?_⟩
    · change (reporter.diagnostics ++ [_]).length ≤ reporter.limit
      rw [List.length_append, List.length_singleton]
      omega
    · intro diagnostic member
      rcases List.mem_append.mp member with old | new
      · exact sound.short diagnostic old
      · rw [List.mem_singleton] at new
        have length := length_redact reporter.secrets (message.take 512)
        have bound := fits room
        rw [new]
        omega
  · rw [if_neg room]
    exact sound

/-! ## Runs -/

/-- The condition on an action of a reader. -/
def Condition (reporter : Reporter) : Action → Prop
  | .append call =>
    call.data ≠ [] → reporter.worker.state.storageFailure = none →
      (FirstRemoval reporter.worker call →
        call.disk.remove (fileName reporter.worker.state.firstRetainedSequence) = none) ∧
      ∀ error, Failed reporter.worker call error → Fits reporter (storageMessage error)
  | .readerFailure stdout error => Fits reporter (readerMessage stdout error)

/-- Every action of a run meets the condition in the state before it. -/
def Met : Reporter → List Action → Prop
  | _, [] => True
  | reporter, action :: rest =>
    Condition reporter action ∧ ∀ next, reporter.act action = some next → Met next rest

/-- One action that meets its condition keeps the reporter sound. -/
theorem act_sound {reporter : Reporter} (sound : Sound reporter) {action : Action}
    (condition : Condition reporter action) :
    ∃ next, reporter.act action = some next ∧ Sound next := by
  cases action with
  | readerFailure stdout error =>
    refine ⟨_, rfl, pushDiagnostic_sound ?_ ?_⟩
    · cases stdout <;> exact ⟨sound.steady, sound.few, sound.short⟩
    · cases stdout <;> exact condition
  | append call =>
    by_cases idle : call.data = [] ∨ reporter.worker.state.storageFailure ≠ none
    · have unchanged : appendOutput reporter.worker call = some reporter.worker := by
        rw [appendOutput, if_pos]
        simpa only [Bool.or_eq_true, List.isEmpty_iff, Option.isSome_iff_ne_none] using idle
      refine ⟨reporter, ?_, sound⟩
      simp only [Reporter.act, Reporter.appendOutput, unchanged, Option.bind_eq_bind,
        Option.bind_some]
      split
      next failure none => cases failure.symm.trans none
      · rfl
    · simp only [not_or, ne_eq, not_not] at idle
      obtain ⟨removal, fits⟩ := condition idle.1 idle.2
      obtain ⟨next, appended, stored⟩ := appendOutput_stored sound.steady removal
      have kept : Sound { reporter with worker := next } :=
        ⟨stored.steady, sound.few, sound.short⟩
      simp only [Reporter.act, Reporter.appendOutput, appended, Option.bind_eq_bind,
        Option.bind_some, idle.2]
      obtain same | ⟨error, failure, failed⟩ := stored.failure
      · rw [same, idle.2]
        exact ⟨_, rfl, kept⟩
      · rw [failure]
        exact ⟨_, rfl, pushDiagnostic_sound kept (fits error failed)⟩

/-- Actions that meet their conditions keep the reporter sound. -/
theorem actAll_sound {reporter : Reporter} (sound : Sound reporter) {actions : List Action}
    (met : Met reporter actions) : ∃ last, reporter.actAll actions = some last ∧ Sound last := by
  induction actions generalizing reporter with
  | nil => exact ⟨reporter, rfl, sound⟩
  | cons action rest inductionHypothesis =>
    obtain ⟨next, acted, kept⟩ := act_sound sound met.1
    obtain ⟨last, run, final⟩ := inductionHypothesis kept (met.2 next acted)
    refine ⟨last, ?_, final⟩
    simp only [Reporter.actAll, acted, Option.bind_eq_bind, Option.bind_some, run]

/-! ## The diagnostic of a Windows terminal -/

/-- A number below a power of ten has no more digits than its exponent. -/
theorem length_digits {number width : Nat} (positive : 0 < width) (small : number < 10 ^ width) :
    (digits number).length ≤ width :=
  (Nat.length_toDigits_le_iff (by decide) positive).mpr small

/-- A count has no more than twenty digits. -/
theorem length_count (value : UInt64) : (count value).length ≤ 20 :=
  length_digits (by decide) (Nat.lt_trans value.toNat_lt (by decide))

/-- A flag has no more than five characters. -/
theorem length_flag (value : Bool) : (flag value).length ≤ 5 := by
  cases value <;> decide

/-- A value that may be null is no longer than its bound. -/
theorem length_nullable {α : Type} {json : α → List Char} {bound : Nat} (four : 4 ≤ bound)
    (short : ∀ value, (json value).length ≤ bound) (value : Option α) :
    (nullable json value).length ≤ bound := by
  cases value with
  | none => exact four
  | some present => exact short present

/-- A number with a sign has one character more. -/
theorem length_signed {number : Int} {width : Nat} (positive : 0 < width)
    (small : number.natAbs < 10 ^ width) : (signed number).length ≤ width + 1 := by
  have size := length_digits positive small
  unfold signed
  split
  · exact Nat.succ_le_succ size
  · exact Nat.le_succ_of_le size

/-- A status has no more than seventeen characters. -/
theorem length_status (status : IoStatus) : status.text.length ≤ 17 := by
  cases status with
  | error code =>
    have small : code.toInt.natAbs < 10 ^ 10 := by
      have below := code.toInt_lt
      have above := code.le_toInt
      omega
    exact List.length_append.trans_le
      (Nat.add_le_add (Nat.le_refl 6) (length_signed (by decide) small))
  | _ => decide

/-- An outcome has no more than seven characters. -/
theorem length_outcome (outcome : ReaderOutcome) : outcome.text.length ≤ 7 := by
  cases outcome <;> decide

/-- A member has its name, its value and three characters more. -/
theorem length_member {key : String} {value : List Char} {bound : Nat}
    (short : value.length ≤ bound) :
    (member key value).length ≤ key.toList.length + 3 + bound := by
  simp only [member, quoted, List.length_append, List.length_cons, List.length_nil]
  omega

/-- A quoted text has two characters more. -/
theorem length_quoted {text : List Char} {bound : Nat} (short : text.length ≤ bound) :
    (quoted text).length ≤ bound + 2 := by
  simp only [quoted, List.length_append, List.length_cons, List.length_nil]
  omega

/-- The diagnostic of Windows has no more than 512 characters. -/
theorem length_json (diagnostic : WindowsPtyDiagnostic) : diagnostic.json.length ≤ 512 := by
  have hpcon := @length_member "hpconNonzero" _ _ (length_flag diagnostic.hpconNonzero)
  have started := @length_member "readerStarted" _ _ (length_flag diagnostic.readerStarted)
  have reads := @length_member "readerReads" _ _ (length_count diagnostic.readerReads)
  have bytes := @length_member "readerBytes" _ _ (length_count diagnostic.readerBytes)
  have last := @length_member "readerLastBytes" _ _
    (length_nullable (by decide) length_count diagnostic.readerLastBytes)
  have status := @length_member "readerLastStatus" _ _
    (length_quoted (length_status diagnostic.readerLastStatus))
  have outcome := @length_member "readerOutcome" _ _
    (length_quoted (length_outcome diagnostic.readerOutcome))
  have calls := @length_member "writeCalls" _ _ (length_count diagnostic.writeCalls)
  have written := @length_member "writeBytes" _ _ (length_count diagnostic.writeBytes)
  have write := @length_member "writeLastStatus" _ _
    (length_quoted (length_status diagnostic.writeLastStatus))
  have exit := @length_member "directChildExitObserved" _ _
    (length_flag diagnostic.directChildExitObserved)
  have empty := @length_member "jobEmptyObserved" _ _ (length_flag diagnostic.jobEmptyObserved)
  have release := @length_member "terminalReleaseInvoked" _ _
    (length_flag diagnostic.terminalReleaseInvoked)
  have active := @length_member "releaseReaderActive" _ _
    (length_nullable (by decide) length_flag diagnostic.releaseReaderActive)
  have output := @length_member "releaseOutputBytes" _ _
    (length_nullable (by decide) length_count diagnostic.releaseOutputBytes)
  have keys : "hpconNonzero".toList.length = 12 ∧ "readerStarted".toList.length = 13 ∧
      "readerReads".toList.length = 11 ∧ "readerBytes".toList.length = 11 ∧
      "readerLastBytes".toList.length = 15 ∧ "readerLastStatus".toList.length = 16 ∧
      "readerOutcome".toList.length = 13 ∧ "writeCalls".toList.length = 10 ∧
      "writeBytes".toList.length = 10 ∧ "writeLastStatus".toList.length = 15 ∧
      "directChildExitObserved".toList.length = 23 ∧ "jobEmptyObserved".toList.length = 16 ∧
      "terminalReleaseInvoked".toList.length = 22 ∧ "releaseReaderActive".toList.length = 19 ∧
      "releaseOutputBytes".toList.length = 18 := by decide
  simp only [WindowsPtyDiagnostic.json, WindowsPtyDiagnostic.members, List.intercalate,
    List.intersperse, List.flatten_cons, List.flatten_nil, List.length_append, List.length_cons,
    List.length_nil]
  omega

/-- What a sound reporter reports can be persisted. -/
theorem Sound.persistable {reporter : Reporter} (sound : Sound reporter) (jobEmpty : Bool) :
    Persistable reporter jobEmpty := by
  have few := sound.few
  unfold Reporter.limit at few
  refine ⟨sound.steady.ordered, sound.steady.truncated, ?_, sound.steady.stdout.le,
    sound.steady.stderr.le, ?_, ?_⟩
  · intro exec
    rw [outputBytes, exec]
  · unfold Reporter.snapshotDiagnostics
    cases terminal : reporter.windowsPtyDiagnostic with
    | none =>
      rw [terminal] at few
      exact few
    | some diagnostic =>
      rw [terminal] at few
      rw [List.length_append, List.length_singleton]
      exact Nat.succ_le_succ few
  · intro diagnostic member
    unfold Reporter.snapshotDiagnostics at member
    cases terminal : reporter.windowsPtyDiagnostic with
    | none =>
      rw [terminal] at member
      exact sound.short diagnostic member
    | some _ =>
      rw [terminal] at member
      rcases List.mem_append.mp member with kept | added
      · exact sound.short diagnostic kept
      · rw [List.mem_singleton.mp added]
        exact length_json _

/-- A reporter that was just started is sound. -/
theorem started_sound (mode : Mode) (maxOutputBytes : Nat) (secrets : List (List Char))
    (windowsPtyDiagnostic : Option WindowsPtyDiagnostic) :
    Sound (started mode maxOutputBytes secrets windowsPtyDiagnostic) where
  steady :=
    { ordered := Nat.le_refl 0
      truncated := fun positive => absurd positive (Nat.lt_irrefl 0)
      stdout := rfl
      stderr := rfl
      chained := fun _ => rfl
      bytes := fun _ => rfl }
  few := Nat.zero_le _
  short := fun _ member => absurd member List.not_mem_nil

/-- Whatever the readers report and whichever file operations fail, the daemon can store the
snapshot, as long as the first removal of a chunk does not fail and every diagnostic has room
for its markers. -/
theorem snapshot_persistable (mode : Mode) (maxOutputBytes : Nat) (secrets : List (List Char))
    (windowsPtyDiagnostic : Option WindowsPtyDiagnostic) {actions : List Action}
    (met : Met (started mode maxOutputBytes secrets windowsPtyDiagnostic) actions)
    (jobEmpty : Bool) :
    ∃ last, (started mode maxOutputBytes secrets windowsPtyDiagnostic).actAll actions =
      some last ∧ Persistable last jobEmpty := by
  obtain ⟨last, run, sound⟩ :=
    actAll_sound (started_sound mode maxOutputBytes secrets windowsPtyDiagnostic) met
  exact ⟨last, run, sound.persistable jobEmpty⟩

/-- A reader that fails, with a secret in the text of its error. -/
def failingReader : Action := .readerFailure true "open /home/anne/.token".toList

/-- Output on a disk that refuses to remove files where it does so. -/
def output (data : String) (refused : Option String) : Action :=
  .append ⟨true, data.toList, ⟨0, 0⟩, ⟨none, fun _ => refused.map String.toList⟩⟩

/-- The first removal succeeds, and the second one fails. -/
theorem refused_later_met :
    Met (started .pty 1 ["anne".toList] none)
      [failingReader, output "ab" none, output "cd" (some "denied")] := by
  refine ⟨fun _ => by decide, fun marked same => ?_⟩
  obtain rfl := Option.some.inj same
  refine ⟨fun _ _ => ⟨fun _ => rfl, ?_⟩, fun next run => ⟨fun _ _ => ?_, fun _ _ => trivial⟩⟩
  · rintro error (failed | ⟨_, _, failed⟩) <;> cases failed
  · have reached : (Reporter.act
        ((started .pty 1 ["anne".toList] none).markReaderFailure true
          "open /home/anne/.token".toList) (output "ab" none)).map
          (fun reporter => (reporter.worker.state.outputTruncated, reporter.secrets)) =
        some (true, ["anne".toList]) := by decide
    rw [run] at reached
    simp only [Option.map_some, Option.some.injEq, Prod.mk.injEq] at reached
    refine ⟨fun first => ?_, ?_⟩
    · rw [first.2.1] at reached
      cases reached.1
    · rintro error (failed | ⟨_, _, failed⟩)
      · cases failed
      · obtain rfl := Option.some.inj failed
        rw [Fits, reached.2]
        exact fun _ => by decide

/-- What these actions leave passes the checks of the record. -/
theorem snapshot_persistable_refused_later :
    ∃ last, (started .pty 1 ["anne".toList] none).actAll
        [failingReader, output "ab" none, output "cd" (some "denied")] = some last ∧
      Persistable last false ∧
      RecordChecks.validDiagnostics (some (diagnosticsField (last.snapshotDiagnostics false))) =
        true := by
  obtain ⟨last, run, persistable⟩ := @snapshot_persistable .pty 1 ["anne".toList] none
    [failingReader, output "ab" none, output "cd" (some "denied")] refused_later_met false
  exact ⟨last, run, persistable, persistable.diagnostics_valid⟩

/-- A short secret that is repeated in the error of a reader makes a diagnostic grow beyond
the limit. -/
theorem diagnostic_grows {number : Nat} (many : 50 ≤ number) (fits : number ≤ 122) :
    ¬ Persistable ((started .pty 2 ["4321".toList] none).markReaderFailure true
      (List.replicate number "4321".toList).flatten) false := by
  intro persistable
  have short := persistable.short _ (List.mem_singleton_self _)
  have proper : "4321".toList ≠ [] := by decide
  have foreign : Foreign "stdout reader error: ".toList "4321".toList := by decide
  have whole : readerMessage true (List.replicate number "4321".toList).flatten =
      "stdout reader error: ".toList ++ (List.replicate number "4321".toList).flatten := rfl
  have size (text : List Char) : (List.replicate number text).flatten.length =
      number * text.length := by
    simp [List.length_flatten]
  have cut : (readerMessage true (List.replicate number "4321".toList).flatten).take 512 =
      "stdout reader error: ".toList ++ (List.replicate number "4321".toList).flatten := by
    rw [whole, List.take_of_length_le]
    rw [List.length_append, size]
    change 21 + number * 4 ≤ 512
    omega
  have redacted (text : List Char) :
      redact ("stdout reader error: ".toList ++ text) ["4321".toList] =
        "stdout reader error: ".toList ++ replaceAll "4321".toList marker text := by
    rw [← replaceAll_marker proper foreign]
    rfl
  change (redact (List.take 512 _) ["4321".toList]).length ≤ 512 at short
  rw [cut, redacted, replaceAll_replicate proper, List.length_append, size] at short
  change 21 + number * 10 ≤ 512 at short
  omega

/-- The first chunk cannot be removed: the output does not count as truncated, though it no
longer starts at its beginning. And a secret that is repeated in the error of a reader makes a
diagnostic too long. -/
theorem failed_first_removal :
    (¬ ∀ (mode : Mode) (maxOutputBytes : Nat) (secrets : List (List Char))
        (windowsPtyDiagnostic : Option WindowsPtyDiagnostic) (actions : List Action)
        (jobEmpty : Bool),
      ∃ last, (started mode maxOutputBytes secrets windowsPtyDiagnostic).actAll actions =
        some last ∧ Persistable last jobEmpty) ∧
      ¬ Persistable ((started .pty 2 ["4321".toList] none).markReaderFailure true
        (List.replicate 50 "4321".toList).flatten) false := by
  refine ⟨fun persistable => ?_, diagnostic_grows (Nat.le_refl 50) (by decide)⟩
  obtain ⟨last, run, accepted⟩ := persistable .pty 1 [] none [output "ab" (some "denied")] false
  have reached : ((started .pty 1 [] none).actAll [output "ab" (some "denied")]).map
      (fun reporter => (reporter.worker.state.firstRetainedSequence,
        reporter.worker.state.outputTruncated)) = some (2, false) := by decide
  rw [run] at reached
  simp only [Option.map_some, Option.some.injEq, Prod.mk.injEq] at reached
  have truncated := accepted.truncated (by rw [reached.1]; exact Nat.two_pos)
  rw [reached.2] at truncated
  exact nomatch truncated

end OpencodePty.PersistableSnapshots
