import OpencodePty.ContainmentHistories
import OpencodePty.Transitions
import OpencodePty.WorkerVerdicts

/-!
# What a snapshot of an exited child proves

The threads of the worker take turns at the lock of its state. A containment report is made
without the lock, so that the exit can be recorded between the report and its use; the
snapshot makes a report of its own and reads the state later. Every report that was made may
be used at any time after.

The operating system answers truthfully: as long as the child was not reaped, a complete scan
lists it, and a job with a running child is not empty. On Linux and Windows a drained report
was therefore made after the exit of the child. On macOS no report is consulted, and the one
at hand may be older than the exit.
-/

namespace OpencodePty.ExitedSnapshots

open OpencodePty.ProcessScans OpencodePty.Timestamps OpencodePty.Transitions
open OpencodePty.WorkerJournal (Call)
open OpencodePty.WorkerReports (Reporter)
open OpencodePty.WorkerVerdicts

/-- The direct child for the operating system. -/
inductive Child where
  | running
  | exited
  | reaped
  deriving DecidableEq

/-- A containment report, and whether the child had exited when it was made. -/
structure Taken where
  report : ContainmentReport
  afterExit : Bool

/-- The worker with its child, the reports that its threads have made, and the report that the
termination was last confirmed with. -/
structure System where
  state : State
  containment : Containment
  child : Child
  taken : List Taken
  confirmedBy : Option Taken

/-- What happens next. The numbers are those of the reports in the order in which they were
made. -/
inductive Action where
  | childExits
  | reap
  | recordExit (exit : ExitStatus) (clock : Clock) (time : Nat)
  | takeReport (look : Look)
  | refresh (number : Nat)
  | confirmTermination (number : Nat) (drained : Option Bool)
  | requestTermination (reason : List Char)
  | append (call : Call)
  | readerEof (stdout : Bool)
  | readerFailure (stdout : Bool) (error : List Char)
  | pushDiagnostic (message : List Char)
  | updateReaderDrain (time : Nat)
  | terminalReaderStarts
  | terminalReaderEvent
  | terminalReaderFinishes
  | releaseTerminal (time : Nat)

/-- Confirm the termination, or not, with a report. -/
def System.confirm (system : System) (taken : Taken) (state : State) : System :=
  { system with
    state := state
    confirmedBy := if state.terminationConfirmed then some taken else none }

/-- An operation of a thread that has the lock. -/
def System.update (system : System) (change : State → State) : System :=
  { system with state := change system.state }

/-- An operation on what the worker reports. -/
def System.report (system : System) (change : Reporter → Reporter) : System :=
  system.update fun state => { state with reporter := change state.reporter }

/-- One action; what is not possible changes nothing. -/
def step (platform : Platform) (system : System) : Action → System
  | .childExits => if system.child = .running then { system with child := .exited } else system
  | .reap => if system.child = .exited then { system with child := .reaped } else system
  | .recordExit exit clock time =>
    if system.child = .reaped then system.update (recordExit platform exit clock time) else system
  | .takeReport look =>
    let (containment, report) := containmentReport platform system.containment look
    { system with
      containment := containment
      taken := system.taken ++ [⟨report, decide (system.child ≠ .running)⟩] }
  | .refresh number =>
    match system.taken[number]? with
    | some taken =>
      system.confirm taken (refreshTerminationConfirmed platform taken.report system.state)
    | none => system
  | .confirmTermination number drained =>
    match platform, system.taken[number]? with
    | .windows, some taken =>
      system.confirm taken (confirmTermination taken.report drained system.state)
    | _, _ => system
  | .requestTermination reason => system.update (requestTermination reason)
  | .append call =>
    system.report fun reporter => (reporter.appendOutput call).getD reporter
  | .readerEof stdout => system.update (markReaderEof stdout)
  | .readerFailure stdout error =>
    system.report fun reporter => reporter.markReaderFailure stdout error
  | .pushDiagnostic message => system.report fun reporter => reporter.pushDiagnostic message
  | .updateReaderDrain time => system.update (updateReaderDrain platform time)
  | .terminalReaderStarts =>
    system.update fun state => { state with terminal := { state.terminal with readerActive := true } }
  | .terminalReaderEvent => system.update markTerminalReaderEvent
  | .terminalReaderFinishes => system.update finishTerminalReader
  | .releaseTerminal time => system.update (releaseWindowsTerminal time)

/-- The operating system answers truthfully about the child. -/
def Truthful (platform : Platform) (system : System) : Action → Prop
  | .takeReport look =>
    match platform with
    | .linux => system.child ≠ .reaped → ∀ scan ∈ look.scan, scan.unreadablePids = [] →
        ∃ process ∈ scan.processes, process.pid = system.containment.rootPid
    | .windows => look.job = some true → system.child ≠ .running
    | .macos => True
  | _ => True

/-- A worker whose child was just started. -/
def start (reporter : Reporter) (containment : Containment) : System where
  state := started reporter
  containment := containment
  child := .running
  taken := []
  confirmedBy := none

/-! ## The invariant -/

/-- What holds between the flags of the worker and its child. -/
structure Recorded (system : System) : Prop where
  recorded : system.state.rootExited = true → system.child = .reaped
  confirmed : system.state.terminationConfirmed = true → system.state.rootExited = true

/-- What holds between the flags of the worker, its child and its reports. -/
structure Inv (platform : Platform) (system : System) : Prop extends Recorded system where
  drained : platform ≠ .macos → ∀ taken ∈ system.taken,
    containmentDrained taken.report = true → taken.afterExit = true
  backed : platform ≠ .macos → system.state.terminationConfirmed = true →
    ∃ taken ∈ system.taken, system.confirmedBy = some taken ∧
      containmentDrained taken.report = true

/-- Two states with the same flags about the exit and its confirmation. -/
structure SameVerdict (state next : State) : Prop where
  rootExited : next.rootExited = state.rootExited
  terminationConfirmed : next.terminationConfirmed = state.terminationConfirmed

/-- A request to terminate leaves the flags about the exit. -/
theorem requestTermination_same (reason : List Char) (state : State) :
    SameVerdict state (requestTermination reason state) := by
  unfold requestTermination
  split <;> exact ⟨rfl, rfl⟩

/-- The end of a stream leaves them. -/
theorem markReaderEof_same (stdout : Bool) (state : State) :
    SameVerdict state (markReaderEof stdout state) := by
  cases stdout <;> exact ⟨rfl, rfl⟩

/-- The release of the terminal leaves them. -/
theorem releaseWindowsTerminal_same (time : Nat) (state : State) :
    SameVerdict state (releaseWindowsTerminal time state) := by
  unfold releaseWindowsTerminal
  split <;> exact ⟨rfl, rfl⟩

/-- Output that is given up leaves them. -/
theorem updateReaderDrain_same (platform : Platform) (time : Nat) (state : State) :
    SameVerdict state (updateReaderDrain platform time state) := by
  have unix : SameVerdict state (updateReaderDrainState time state) := by
    unfold updateReaderDrainState
    split <;> exact ⟨rfl, rfl⟩
  cases platform with
  | linux => exact unix
  | macos => exact unix
  | windows =>
    simp only [updateReaderDrain, updateReaderDrainWindows]
    split
    · split <;> exact ⟨rfl, rfl⟩
    · split <;> split <;> exact ⟨rfl, rfl⟩

/-- Behind the record of the exit the child has exited. -/
theorem recordExit_rootExited (platform : Platform) (exit : ExitStatus) (clock : Clock)
    (time : Nat) (state : State) :
    (recordExit platform exit clock time state).rootExited = true := by
  unfold recordExit
  split
  next already => exact already
  · cases platform <;> rfl

/-- The record of the exit does not confirm the termination. -/
theorem recordExit_confirmed (platform : Platform) (exit : ExitStatus) (clock : Clock)
    (time : Nat) (state : State) :
    (recordExit platform exit clock time state).terminationConfirmed =
      state.terminationConfirmed := by
  unfold recordExit
  split
  · rfl
  · cases platform <;> simp only <;> split <;> rfl

/-- On Linux a drained report is made from a scan, and says that nothing is left. -/
theorem drained_linux {containment : Containment} {look : Look}
    (drained : containmentDrained (containmentReport .linux containment look).2 = true) :
    ∃ scan, look.scan = some scan ∧
      statusOf containment ⟨look.clock, scan⟩ = .posixBestEffortEmpty := by
  cases looked : look.scan with
  | none => simp [containmentReport, looked, containmentDrained, Containment.report] at drained
  | some scan =>
    refine ⟨scan, rfl, ?_⟩
    have status : ContainmentHistories.fromScan
        (containmentReportFromScan look.clock containment scan).2.status = true :=
      ContainmentHistories.statusOf_fromScan containment ⟨look.clock, scan⟩
    simp only [containmentReport, looked, containmentDrained, Bool.or_eq_true,
      beq_iff_eq] at drained
    rcases drained with (empty | job) | inapplicable
    · exact empty
    · rw [job] at status
      exact absurd status Bool.false_ne_true
    · rw [inapplicable] at status
      exact absurd status Bool.false_ne_true

/-- A drained report is made after the exit. -/
theorem drained_afterExit {platform : Platform} (other : platform ≠ .macos) {system : System}
    {look : Look} (truthful : Truthful platform system (.takeReport look))
    (drained : containmentDrained (containmentReport platform system.containment look).2 = true) :
    system.child ≠ .running := by
  cases platform with
  | macos => exact absurd rfl other
  | linux =>
    intro running
    obtain ⟨scan, looked, empty⟩ := drained_linux drained
    obtain ⟨complete, _, _, absent⟩ := ContainmentHistories.statusOf_eq_empty.mp empty
    have unreaped : system.child ≠ .reaped := by
      rw [running]
      exact nofun
    obtain ⟨process, inside, root⟩ := truthful unreaped scan looked complete
    exact absent process inside (Or.inl root)
  | windows =>
    apply truthful
    cases job : look.job with
    | none => simp [containmentReport, job, containmentDrained, Containment.report] at drained
    | some empty =>
      cases empty with
      | true => rfl
      | false => simp [containmentReport, job, containmentDrained, Containment.report] at drained

/-- A worker starts so. -/
theorem start_inv (platform : Platform) (reporter : Reporter) (containment : Containment) :
    Inv platform (start reporter containment) where
  recorded := nofun
  confirmed := nofun
  drained _ _ member := absurd member List.not_mem_nil
  backed _ := nofun

/-- What an action does to the flags about the exit: it leaves them as they are, records the
exit of a child that was reaped, or uses a report that was made. -/
inductive Effect (platform : Platform) (system next : System) : Prop where
  | same (state : SameVerdict system.state next.state)
      (child : system.child = .reaped → next.child = .reaped)
      (kept : ∀ taken ∈ system.taken, taken ∈ next.taken)
      (confirmedBy : next.confirmedBy = system.confirmedBy)
  | recorded (reaped : next.child = .reaped) (exited : next.state.rootExited = true)
      (confirmed : next.state.terminationConfirmed = system.state.terminationConfirmed)
      (kept : ∀ taken ∈ system.taken, taken ∈ next.taken)
      (confirmedBy : next.confirmedBy = system.confirmedBy)
  | used (taken : Taken) (made : taken ∈ next.taken) (child : next.child = system.child)
      (exited : next.state.rootExited = system.state.rootExited)
      (evidence : next.state.terminationConfirmed = true → next.state.rootExited = true ∧
        next.confirmedBy = some taken ∧
        (platform ≠ .macos → containmentDrained taken.report = true))

/-- An operation on other flags has no effect. -/
theorem Effect.update {platform : Platform} {system : System} {change : State → State}
    (same : SameVerdict system.state (change system.state)) :
    Effect platform system (system.update change) :=
  .same same id (fun _ => id) rfl

/-- An operation on what is reported has no effect. -/
theorem Effect.report (platform : Platform) (system : System) (change : Reporter → Reporter) :
    Effect platform system (system.report change) :=
  .same ⟨rfl, rfl⟩ id (fun _ => id) rfl

/-- Nothing has no effect. -/
theorem Effect.refl (platform : Platform) (system : System) : Effect platform system system :=
  .same ⟨rfl, rfl⟩ id (fun _ => id) rfl

/-- Every action has one of these effects. -/
theorem step_effect (platform : Platform) (system : System) (action : Action) :
    Effect platform system (step platform system action) := by
  cases action with
  | childExits =>
    rw [step]
    split
    next running =>
      refine .same ⟨rfl, rfl⟩ (fun reaped => ?_) (fun _ => id) rfl
      exact nomatch running.symm.trans reaped
    · exact .refl _ _
  | reap =>
    rw [step]
    split
    · exact .same ⟨rfl, rfl⟩ (fun _ => rfl) (fun _ => id) rfl
    · exact .refl _ _
  | recordExit exit clock time =>
    rw [step]
    split
    next reaped =>
      exact .recorded reaped (recordExit_rootExited _ _ _ _ _) (recordExit_confirmed _ _ _ _ _)
        (fun _ => id) rfl
    · exact .refl _ _
  | takeReport look =>
    exact .same ⟨rfl, rfl⟩ id (fun _ => List.mem_append_left _) rfl
  | refresh number =>
    rw [step]
    cases found : system.taken[number]? with
    | none => exact .refl _ _
    | some taken =>
      refine .used taken (List.mem_of_getElem? found) rfl rfl fun confirmed => ?_
      obtain ⟨exited, evidence⟩ := Bool.and_eq_true_iff.mp confirmed
      refine ⟨exited, if_pos confirmed, fun other => ?_⟩
      simpa [other] using evidence
  | confirmTermination number drained =>
    cases platform with
    | linux => exact .refl _ _
    | macos => exact .refl _ _
    | windows =>
      simp only [step]
      cases found : system.taken[number]? with
      | none => exact .refl _ _
      | some taken =>
        refine .used taken (List.mem_of_getElem? found) rfl rfl fun confirmed => ?_
        obtain ⟨exited, evidence⟩ := Bool.and_eq_true_iff.mp confirmed
        refine ⟨exited, if_pos confirmed, fun _ => ?_⟩
        cases drained with
        | none => exact nomatch evidence
        | some empty =>
          cases empty with
          | false => exact nomatch evidence
          | true =>
            simp only [beq_iff_eq] at evidence
            simp [containmentDrained, evidence]
  | requestTermination reason => exact .update (requestTermination_same reason _)
  | append call => exact .report _ _ _
  | readerEof stdout => exact .update (markReaderEof_same stdout _)
  | readerFailure stdout error =>
    exact .report platform system fun reporter => reporter.markReaderFailure stdout error
  | pushDiagnostic message => exact .report _ _ _
  | updateReaderDrain time => exact .update (updateReaderDrain_same platform time _)
  | terminalReaderStarts => exact .same ⟨rfl, rfl⟩ id (fun _ => id) rfl
  | terminalReaderEvent => exact .same ⟨rfl, rfl⟩ id (fun _ => id) rfl
  | terminalReaderFinishes => exact .same ⟨rfl, rfl⟩ id (fun _ => id) rfl
  | releaseTerminal time => exact .update (releaseWindowsTerminal_same time _)

/-- An action confirms the termination only after the exit was recorded. -/
theorem step_recorded {platform : Platform} {system : System} (action : Action)
    (before : Recorded system) : Recorded (step platform system action) := by
  cases step_effect platform system action with
  | same state child kept confirmedBy =>
    refine ⟨fun exited => ?_, fun confirmed => ?_⟩
    · exact child (before.recorded (state.rootExited.symm.trans exited))
    · have earlier := before.confirmed (state.terminationConfirmed.symm.trans confirmed)
      exact state.rootExited.trans earlier
  | recorded reaped exited confirmed kept confirmedBy => exact ⟨fun _ => reaped, fun _ => exited⟩
  | used taken made child exited evidence =>
    refine ⟨fun now => ?_, fun confirmed => (evidence confirmed).1⟩
    exact child.trans (before.recorded (exited.symm.trans now))

/-- Whatever happens, the termination is confirmed only after the exit was recorded. -/
theorem run_recorded (platform : Platform) (reporter : Reporter) (containment : Containment)
    (actions : List Action) :
    Recorded (run (step platform) (start reporter containment) actions) :=
  run_preserves (fun _ action before => step_recorded action before) _ actions
    (start_inv platform reporter containment).toRecorded

/-- A report that there is after an action was there before, or it is made by the action. -/
theorem taken_of_step {platform : Platform} {system : System} {action : Action} {taken : Taken}
    (made : taken ∈ (step platform system action).taken) :
    taken ∈ system.taken ∨ ∃ look, action = .takeReport look ∧
      taken = ⟨(containmentReport platform system.containment look).2,
        decide (system.child ≠ .running)⟩ := by
  cases action with
  | takeReport look =>
    rcases List.mem_append.mp made with old | new
    · exact Or.inl old
    · exact Or.inr ⟨look, rfl, List.mem_singleton.mp new⟩
  | childExits =>
    rw [step] at made
    split at made <;> exact Or.inl made
  | reap =>
    rw [step] at made
    split at made <;> exact Or.inl made
  | recordExit exit clock time =>
    rw [step] at made
    split at made <;> exact Or.inl made
  | refresh number =>
    rw [step] at made
    split at made <;> exact Or.inl made
  | confirmTermination number drained =>
    cases platform with
    | linux => exact Or.inl made
    | macos => exact Or.inl made
    | windows =>
      simp only [step] at made
      split at made <;> exact Or.inl made
  | _ => exact Or.inl made

/-- One action keeps the invariant, where the answers are truthful. -/
theorem step_inv {platform : Platform} {system : System} (action : Action)
    (inv : Inv platform system) (truthful : Truthful platform system action) :
    Inv platform (step platform system action) where
  toRecorded := step_recorded action inv.toRecorded
  drained other taken made drained := by
    rcases taken_of_step made with old | ⟨look, rfl, rfl⟩
    · exact inv.drained other taken old drained
    · exact decide_eq_true (drained_afterExit other truthful drained)
  backed other confirmed := by
    cases step_effect platform system action with
    | same state child kept confirmedBy =>
      obtain ⟨taken, made, backed, drained⟩ :=
        inv.backed other (state.terminationConfirmed.symm.trans confirmed)
      exact ⟨taken, kept taken made, confirmedBy.trans backed, drained⟩
    | recorded reaped exited same kept confirmedBy =>
      obtain ⟨taken, made, backed, drained⟩ := inv.backed other (same.symm.trans confirmed)
      exact ⟨taken, kept taken made, confirmedBy.trans backed, drained⟩
    | used taken made child exited evidence =>
      obtain ⟨_, backed, drained⟩ := evidence confirmed
      exact ⟨taken, made, backed, drained other⟩

/-! ## Errors of the readers and the journal -/

/-- A reader has failed. -/
def ReadersFailed (reporter : Reporter) : Prop :=
  reporter.stdoutReaderError.isSome = true ∨ reporter.stderrReaderError.isSome = true

/-- A file operation of the journal has failed. -/
def JournalFailed (reporter : Reporter) : Prop :=
  reporter.worker.state.storageFailure.isSome = true

/-- Two reporters with the same errors. -/
structure SameErrors (reporter next : Reporter) : Prop where
  stdoutReaderError : next.stdoutReaderError = reporter.stdoutReaderError
  stderrReaderError : next.stderrReaderError = reporter.stderrReaderError
  storageFailure : next.worker.state.storageFailure = reporter.worker.state.storageFailure

/-- What an action does to the errors: it leaves them as they are, appends output, or notes that
a reader has failed. -/
inductive Reported (reporter next : Reporter) : Prop where
  | same (errors : SameErrors reporter next)
  | appended (call : Call) (result : next = (reporter.appendOutput call).getD reporter)
  | failed (stdout : Bool) (error : List Char)
      (result : next = reporter.markReaderFailure stdout error)

/-- A diagnostic is no error. -/
theorem pushDiagnostic_errors (reporter : Reporter) (message : List Char) :
    SameErrors reporter (reporter.pushDiagnostic message) := by
  unfold Reporter.pushDiagnostic
  split <;> exact ⟨rfl, rfl, rfl⟩

/-- To record the exit sets a reason, and no error. -/
theorem recordExit_errors (platform : Platform) (exit : ExitStatus) (clock : Clock) (time : Nat)
    (state : State) :
    SameErrors state.reporter (recordExit platform exit clock time state).reporter := by
  unfold recordExit
  split
  · exact ⟨rfl, rfl, rfl⟩
  · cases platform <;> simp only <;> split <;> exact ⟨rfl, rfl, rfl⟩

/-- Output that is given up as incomplete is no error of a reader. -/
theorem updateReaderDrain_errors (platform : Platform) (time : Nat) (state : State) :
    SameErrors state.reporter (updateReaderDrain platform time state).reporter := by
  have unix : SameErrors state.reporter (updateReaderDrainState time state).reporter := by
    unfold updateReaderDrainState
    split
    · have pushed := pushDiagnostic_errors { state.incomplete.reporter with secrets := [] }
        "reader drain deadline elapsed".toList
      exact ⟨pushed.stdoutReaderError, pushed.stderrReaderError, pushed.storageFailure⟩
    · exact ⟨rfl, rfl, rfl⟩
  cases platform with
  | linux => exact unix
  | macos => exact unix
  | windows =>
    simp only [updateReaderDrain, updateReaderDrainWindows]
    split
    · split <;> exact ⟨rfl, rfl, rfl⟩
    · split <;> split <;> exact ⟨rfl, rfl, rfl⟩

/-- One action of the worker, for its errors. -/
theorem step_reported (platform : Platform) (system : System) (action : Action) :
    Reported system.state.reporter (step platform system action).state.reporter := by
  cases action with
  | childExits =>
    rw [step]
    split <;> exact .same ⟨rfl, rfl, rfl⟩
  | reap =>
    rw [step]
    split <;> exact .same ⟨rfl, rfl, rfl⟩
  | recordExit exit clock time =>
    rw [step]
    split
    · exact .same (recordExit_errors _ _ _ _ _)
    · exact .same ⟨rfl, rfl, rfl⟩
  | takeReport look => exact .same ⟨rfl, rfl, rfl⟩
  | refresh number =>
    rw [step]
    split <;> exact .same ⟨rfl, rfl, rfl⟩
  | confirmTermination number drained =>
    cases platform with
    | linux => exact .same ⟨rfl, rfl, rfl⟩
    | macos => exact .same ⟨rfl, rfl, rfl⟩
    | windows =>
      simp only [step]
      split <;> exact .same ⟨rfl, rfl, rfl⟩
  | requestTermination reason =>
    simp only [step, System.update, requestTermination]
    split <;> exact .same ⟨rfl, rfl, rfl⟩
  | append call => exact .appended call rfl
  | readerEof stdout => cases stdout <;> exact .same ⟨rfl, rfl, rfl⟩
  | readerFailure stdout error => exact .failed stdout error rfl
  | pushDiagnostic message => exact .same (pushDiagnostic_errors _ message)
  | updateReaderDrain time => exact .same (updateReaderDrain_errors platform time _)
  | terminalReaderStarts => exact .same ⟨rfl, rfl, rfl⟩
  | terminalReaderEvent => exact .same ⟨rfl, rfl, rfl⟩
  | terminalReaderFinishes => exact .same ⟨rfl, rfl, rfl⟩
  | releaseTerminal time =>
    simp only [step, System.update, releaseWindowsTerminal]
    split <;> exact .same ⟨rfl, rfl, rfl⟩

/-- A reader that fails has failed. -/
theorem markReaderFailure_readers (reporter : Reporter) (stdout : Bool) (error : List Char) :
    ReadersFailed (reporter.markReaderFailure stdout error) := by
  cases stdout
  · have same := pushDiagnostic_errors { reporter with
      stderrReaderError := some (WorkerReports.readerMessage false error)
      outputIncomplete := true } (WorkerReports.readerMessage false error)
    exact Or.inr (congrArg Option.isSome same.stderrReaderError)
  · have same := pushDiagnostic_errors { reporter with
      stdoutReaderError := some (WorkerReports.readerMessage true error)
      outputIncomplete := true } (WorkerReports.readerMessage true error)
    exact Or.inl (congrArg Option.isSome same.stdoutReaderError)

/-- The failure of a reader is none of the journal. -/
theorem markReaderFailure_storage (reporter : Reporter) (stdout : Bool) (error : List Char) :
    (reporter.markReaderFailure stdout error).worker.state.storageFailure =
      reporter.worker.state.storageFailure := by
  unfold Reporter.markReaderFailure
  rw [(pushDiagnostic_errors _ _).storageFailure]
  cases stdout <;> rfl

/-- Appended output leaves the errors of the readers. -/
theorem appendOutput_readers {reporter : Reporter} (failed : ReadersFailed reporter)
    (call : Call) : ReadersFailed ((reporter.appendOutput call).getD reporter) := by
  unfold Reporter.appendOutput
  cases WorkerJournal.appendOutput reporter.worker call with
  | none => exact failed
  | some next =>
    simp only [Option.bind_eq_bind, Option.bind_some]
    split
    · have same := fun message => pushDiagnostic_errors { reporter with worker := next } message
      simpa [ReadersFailed, (same _).stdoutReaderError, (same _).stderrReaderError] using failed
    · exact failed

/-- Nothing is appended to a journal that has failed. -/
theorem appendOutput_failed {reporter : Reporter} (failed : JournalFailed reporter) (call : Call) :
    reporter.appendOutput call = some reporter := by
  unfold Reporter.appendOutput WorkerJournal.appendOutput
  obtain ⟨error, storageFailure⟩ := Option.isSome_iff_exists.mp failed
  simp [storageFailure]

/-- The error of a reader stays. -/
theorem Reported.readers {reporter next : Reporter} (reported : Reported reporter next)
    (failed : ReadersFailed reporter) : ReadersFailed next := by
  cases reported with
  | same errors => rwa [ReadersFailed, errors.stdoutReaderError, errors.stderrReaderError]
  | appended call result => exact result ▸ appendOutput_readers failed call
  | failed stdout error result => exact result ▸ markReaderFailure_readers reporter stdout error

/-- The failure of the journal stays. -/
theorem Reported.storage {reporter next : Reporter} (reported : Reported reporter next)
    (failed : JournalFailed reporter) : JournalFailed next := by
  cases reported with
  | same errors => rwa [JournalFailed, errors.storageFailure]
  | appended call result =>
    rw [appendOutput_failed failed] at result
    exact result ▸ failed
  | failed stdout error result => rwa [result, JournalFailed, markReaderFailure_storage]

/-- A reader that failed in a run has failed in the state that it reaches. -/
theorem run_readers {platform : Platform} {system : System} {actions : List Action}
    {stdout : Bool} {error : List Char} (happened : Action.readerFailure stdout error ∈ actions) :
    ReadersFailed (run (step platform) system actions).state.reporter := by
  obtain ⟨before, after, rfl⟩ := List.append_of_mem happened
  rw [run_append, run_cons]
  refine @run_preserves _ _ (step platform) (fun reached => ReadersFailed reached.state.reporter)
    (fun reached action failed => (step_reported platform reached action).readers failed) _ after ?_
  exact markReaderFailure_readers _ stdout error

/-- A journal that has failed at some time of a run has failed at its end. -/
theorem run_storage {platform : Platform} {system : System} {before actions : List Action}
    (earlier : before <+: actions)
    (failed : JournalFailed (run (step platform) system before).state.reporter) :
    JournalFailed (run (step platform) system actions).state.reporter := by
  obtain ⟨after, rfl⟩ := earlier
  rw [run_append]
  exact @run_preserves _ _ (step platform) (fun reached => JournalFailed reached.state.reporter)
    (fun reached action failed => (step_reported platform reached action).storage failed) _ after
    failed

/-! ## Snapshots -/

/-- What a snapshot that says that the child exited stands for. -/
structure ExitProven (system : System) (snapshot : Snapshot) : Prop where
  childExited : system.child ≠ .running
  directChildExited : snapshot.directChildExited = true
  stdoutEof : snapshot.stdoutEof = true
  stderrEof : snapshot.stderrEof = true
  noReaderError : snapshot.readerFailure = none
  noStorageFailure : snapshot.storageFailure = none
  complete : snapshot.outputIncomplete = false
  confirmed : snapshot.terminationConfirmed = true

/-- The termination was confirmed with a report that was made after the exit, on Linux and
Windows a drained one. -/
def ConfirmedAfterExit (platform : Platform) (system : System) : Prop :=
  ∃ taken ∈ system.taken, system.confirmedBy = some taken ∧ taken.afterExit = true ∧
    (platform ≠ .macos → containmentDrained taken.report = true)

/-- What a snapshot may say after a run. -/
structure Verdict (platform : Platform) (system : System) (actions : List Action)
    (snapshot : Snapshot) : Prop where
  exited : snapshot.status = .exited → ExitProven system snapshot
  confirmed : platform ≠ .macos → snapshot.status = .exited → ConfirmedAfterExit platform system
  noReaderError : ∀ stdout error, Action.readerFailure stdout error ∈ actions →
    snapshot.status ≠ .exited
  settled : snapshot.status ≠ .running →
    system.child ≠ .running ∧ snapshot.directChildExited = true

/-- Where a reader has failed the output is not complete. -/
theorem readersFailed_incomplete {state : State} (failed : ReadersFailed state.reporter) :
    outputComplete state = false := by
  unfold outputComplete
  rcases failed with stdout | stderr
  · rw [Option.isNone_eq_false_iff.mpr stdout, Bool.and_false, Bool.false_and]
  · rw [Option.isNone_eq_false_iff.mpr stderr, Bool.and_false]

/-- Where the snapshot says that the child exited, everything is proven. -/
theorem Inv.proven {platform : Platform} {system : System} (inv : Inv platform system)
    {report : ContainmentReport} {time : Nat}
    (exited : snapshotStatus platform system.state report time = .exited) :
    ExitProven system (readSnapshot platform system.state report time) := by
  obtain ⟨confirmed, complete, noFailure, whole⟩ := exited_state exited
  have recorded := inv.confirmed confirmed
  simp only [outputComplete, Bool.and_eq_true, Option.isNone_iff_eq_none] at complete
  obtain ⟨⟨⟨stdoutEof, stderrEof⟩, stdout⟩, stderr⟩ := complete
  refine ⟨?_, recorded, stdoutEof, stderrEof, ?_, noFailure, whole, confirmed⟩
  · rw [inv.recorded recorded]
    exact nofun
  · change readerFailure system.state.reporter = none
    rw [readerFailure, stdout, stderr]

/-- After every run, whatever report a snapshot makes and whenever it reads the state: if it
says that the child exited, everything is proven, on Linux and Windows with a drained report
from after the exit; it does not say so after a reader error or once the journal has failed at
any time of the run, and it says that the child runs as long as it does. -/
theorem snapshot_verdict {platform : Platform} (reporter : Reporter) (containment : Containment)
    {actions : List Action}
    (truthful : Along (step platform) (Truthful platform) (start reporter containment) actions)
    (report : ContainmentReport) (time : Nat) :
    Verdict platform (run (step platform) (start reporter containment) actions) actions
        (readSnapshot platform (run (step platform) (start reporter containment) actions).state
          report time) ∧
      ∀ before, before <+: actions →
        JournalFailed (run (step platform) (start reporter containment) before).state.reporter →
          (readSnapshot platform (run (step platform) (start reporter containment) actions).state
            report time).status ≠ .exited := by
  have inv := @run_preserves_along _ _ (step platform) (Truthful platform) (Inv platform)
    (fun system action inv truthful => step_inv action inv truthful) _ actions
    (start_inv platform reporter containment) truthful
  refine ⟨⟨inv.proven, ?_, ?_, ?_⟩, ?_⟩
  · intro other exited
    obtain ⟨taken, made, confirmedBy, drained⟩ := inv.backed other (exited_state exited).1
    exact ⟨taken, made, confirmedBy, inv.drained other taken made drained, fun _ => drained⟩
  · intro stdout error happened exited
    have failed := @run_readers platform (start reporter containment) _ _ _ happened
    have complete := (exited_state exited).2.1
    rw [readersFailed_incomplete failed] at complete
    exact nomatch complete
  · intro settled
    have recorded : (run (step platform) (start reporter containment) actions).state.rootExited =
        true := by
      rcases settled_state settled with confirmed | recorded
      · exact inv.confirmed confirmed
      · exact recorded
    refine ⟨?_, recorded⟩
    rw [inv.recorded recorded]
    exact nofun
  · intro before earlier failedThen exited
    have failed : JournalFailed _ := run_storage earlier failedThen
    have none : State.storageFailure _ = none := (exited_state exited).2.2.1
    rw [JournalFailed, ← State.storageFailure, none] at failed
    exact nomatch failed

/-- The scans of a child with the number ten: as long as it runs, and when it is gone. -/
def runningLook : Look := ⟨⟨0, 0⟩, some ⟨[⟨10, 1, 10, 10, "5".toList⟩], []⟩, none⟩

/-- A scan that does not list the child any more. -/
def goneLook : Look := ⟨⟨0, 0⟩, some ⟨[], []⟩, none⟩

/-- On Linux: a first scan lists the child; then the streams end, the child exits and is reaped,
a scan no longer lists it, and the report of this scan confirms the termination. -/
def drainedRun : List Action :=
  [.takeReport runningLook, .refresh 0, .readerEof true, .readerEof false, .childExits, .reap,
    .recordExit ⟨some 0, none⟩ ⟨0, 0⟩ 5, .takeReport goneLook, .refresh 1]

/-- The containment of this child. -/
def childOfTen : Containment := ⟨10, some 10, some 10, "posix:10:5".toList, [], []⟩

/-- A worker for a command that has written nothing. -/
def execReporter : Reporter := WorkerReports.started .exec 100 [] none

/-- A report that nothing is left. -/
def emptyReport : ContainmentReport :=
  childOfTen.report ⟨0, 0⟩ .posixBestEffortEmpty false [] [] []

/-- These scans are truthful. -/
theorem drainedRun_truthful :
    Along (step .linux) (Truthful .linux) (start execReporter childOfTen) drainedRun := by
  refine ⟨?_, trivial, trivial, trivial, trivial, trivial, trivial, ?_, trivial, trivial⟩
  · intro unreaped scan looked complete
    rw [← Option.some.inj looked]
    exact ⟨_, List.mem_cons_self, rfl⟩
  · exact fun unreaped => absurd rfl unreaped

/-- The child of this run is said to have exited, with everything proven. -/
theorem snapshot_verdict_drained :
    (readSnapshot .linux (run (step .linux) (start execReporter childOfTen) drainedRun).state
        emptyReport 6).status = .exited ∧
      ExitProven (run (step .linux) (start execReporter childOfTen) drainedRun)
        (readSnapshot .linux (run (step .linux) (start execReporter childOfTen) drainedRun).state
          emptyReport 6) ∧
      ConfirmedAfterExit .linux (run (step .linux) (start execReporter childOfTen) drainedRun) := by
  have exited : (readSnapshot .linux
      (run (step .linux) (start execReporter childOfTen) drainedRun).state
        emptyReport 6).status = .exited := by
    decide
  obtain ⟨verdict, _⟩ :=
    snapshot_verdict execReporter childOfTen drainedRun_truthful emptyReport 6
  exact ⟨exited, verdict.exited exited, verdict.confirmed (by decide) exited⟩

/-- A look without a scan. -/
def blindLook : Look := ⟨⟨0, 0⟩, none, none⟩

/-- On macOS a thread makes its report, and so does a snapshot, the child exits and its exit
is recorded, and only then the thread confirms the termination. -/
def staleRun : List Action :=
  [.readerEof true, .readerEof false, .takeReport blindLook, .takeReport blindLook, .childExits,
    .reap, .recordExit ⟨some 0, none⟩ ⟨0, 0⟩ 5, .refresh 0]

/-- On macOS a snapshot can say that the child exited while all reports that were made, its own
among them, are older than the exit. -/
theorem stale_report_macos :
    ¬ ∀ (platform : Platform) (reporter : Reporter) (containment : Containment)
        (actions : List Action) (report : ContainmentReport) (time : Nat),
      Along (step platform) (Truthful platform) (start reporter containment) actions →
        (readSnapshot platform (run (step platform) (start reporter containment) actions).state
            report time).status = .exited →
          ConfirmedAfterExit platform (run (step platform) (start reporter containment) actions) := by
  intro confirmed
  have exited : (readSnapshot .macos
      (run (step .macos) (start execReporter childOfTen) staleRun).state
        (containmentReport .macos childOfTen blindLook).2 6).status = .exited := by
    decide
  obtain ⟨taken, made, _, afterExit, _⟩ :=
    confirmed .macos execReporter childOfTen staleRun _ 6
      ⟨trivial, trivial, trivial, trivial, trivial, trivial, trivial, trivial, trivial⟩ exited
  have older : ∀ taken ∈ (run (step .macos) (start execReporter childOfTen) staleRun).taken,
      taken.afterExit = false := by
    intro taken made
    rcases List.mem_cons.mp made with rfl | made
    · rfl
    · rcases List.mem_singleton.mp made with rfl
      rfl
  rw [older taken made] at afterExit
  exact nomatch afterExit

end OpencodePty.ExitedSnapshots
