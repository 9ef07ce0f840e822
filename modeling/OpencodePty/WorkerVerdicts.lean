import OpencodePty.ProcessScans
import OpencodePty.WorkerReports

/-!
# The verdict of the worker on its child

The worker derives the status of a snapshot from flags: whether the direct child exited,
whether a containment report confirmed the termination, whether both streams came to their
end, and what failed. It observes the exit, asks for containment reports and reads the
streams in threads of their own; what one of them does under the lock of the state is one
function here. A snapshot also has the counters and the text of the output, which are left
out.

Times are milliseconds. On Windows the reader of a terminal has flags of its own, and a job
takes the place of the process scans; on macOS there is no verification of descendants.
-/

namespace OpencodePty.WorkerVerdicts

open OpencodePty.ProcessScans OpencodePty.Timestamps OpencodePty.WorkerJournal
open OpencodePty.WorkerReports

inductive Platform where
  | linux
  | macos
  | windows
  deriving DecidableEq

/-- `READER_DRAIN_TIMEOUT` -/
def readerDrainTimeout : Nat := 2000

/-- `READER_CANCEL_TIMEOUT` -/
def readerCancelTimeout : Nat := 1000

/-- The flags about the reader of a Windows terminal. -/
structure WindowsTerminal where
  readerActive : Bool
  readerDone : Bool
  readerCompletions : Nat
  readerExitCompletion : Option Nat
  readerPostExitCompletion : Bool
  closeStarted : Bool
  readerCancelRequested : Bool
  readerCancelDeadline : Option Nat

/-- The state of a worker, with its journal and reports in `reporter`. -/
structure State where
  reporter : Reporter
  exitCode : Option Nat
  exitSignal : Option (List Char)
  exitedAt : Option (List Char)
  timedOut : Bool
  terminationRequested : Bool
  terminationConfirmed : Bool
  rootExited : Bool
  stdoutEof : Bool
  stderrEof : Bool
  readerDrainDeadline : Option Nat
  terminal : WindowsTerminal

/-- How the direct child ended. -/
structure ExitStatus where
  code : Option Int
  signal : Option Nat

/-- What a containment report is made from: a scan, which can fail, or whether the job is
empty, which may be unknown. -/
structure Look where
  clock : Clock
  scan : Option ProcessScan
  job : Option Bool

/-- `containment_report` -/
def containmentReport (platform : Platform) (containment : Containment) (look : Look) :
    Containment × ContainmentReport :=
  match platform with
  | .linux =>
    match look.scan with
    | some scan => containmentReportFromScan look.clock containment scan
    | none => (containment, containment.report look.clock .posixContainmentUnknown false [] [] [])
  | .macos =>
    (containment,
      { containment.report look.clock .posixContainmentUnknown false [] [] [] with
        platform := .posixVerificationUnavailable
        observedEscapedDescendants := [] })
  | .windows =>
    let status : ContainmentStatus :=
      match look.job with
      | some true => .windowsJobEmpty
      | some false => .windowsJobProcessesRemaining
      | none => .windowsJobUnknown
    (containment,
      { containment.report look.clock status look.job.isSome [] [] [] with
        platform := .windowsJob
        processGroupId := none
        sessionId := none
        observedEscapedDescendants := [] })

/-- `containment_drained` -/
def containmentDrained (report : ContainmentReport) : Bool :=
  report.status == .posixBestEffortEmpty || report.status == .windowsJobEmpty ||
    report.status == .notApplicable

/-- What `refresh_termination_confirmed` does with a report, once it has the lock. -/
def refreshTerminationConfirmed (platform : Platform) (report : ContainmentReport)
    (state : State) : State :=
  { state with
    terminationConfirmed :=
      state.rootExited && (containmentDrained report || platform == .macos) }

/-- What `terminate_contained` does with its last report on Windows, after it waited for the
job to drain. -/
def confirmTermination (report : ContainmentReport) (drained : Option Bool) (state : State) :
    State :=
  let status : ContainmentStatus :=
    match drained with
    | some true => report.status
    | some false => .windowsJobProcessesRemaining
    | none => .windowsJobUnknown
  { state with terminationConfirmed := state.rootExited && status == .windowsJobEmpty }

/-- The reason of the exit, which is kept with the journal. -/
def State.exitReason (state : State) : Option (List Char) := state.reporter.worker.state.exitReason

def State.setExitReason (state : State) (reason : List Char) : State :=
  { state with
    reporter :=
      { state.reporter with
        worker :=
          { state.reporter.worker with
            state := { state.reporter.worker.state with exitReason := some reason } } } }

/-- What `terminate_contained` does first. -/
def requestTermination (reason : List Char) (state : State) : State :=
  if state.terminationRequested then state
  else
    { state.setExitReason reason with
      terminationRequested := true
      timedOut := reason == "timeout".toList }

/-- `exit_signal` -/
def exitSignal (platform : Platform) (exit : ExitStatus) : Option (List Char) :=
  match platform with
  | .windows => none
  | _ => exit.signal.map fun signal => "SIG".toList ++ digits signal

/-- The code of an exit, where it is a number that is not negative. -/
def exitCode (exit : ExitStatus) : Option Nat :=
  exit.code.bind fun code => if 0 ≤ code then some code.toNat else none

/-- `record_exit` up to the release of the lock. -/
def recordExit (platform : Platform) (exit : ExitStatus) (clock : Clock) (time : Nat)
    (state : State) : State :=
  if state.rootExited then state
  else
    let signal := exitSignal platform exit
    let reason := match signal with
      | some signal => "signal:".toList ++ signal
      | none => "code".toList
    let reasoned := if state.exitReason.isNone then state.setExitReason reason else state
    let exited :=
      { reasoned with
        exitCode := exitCode exit
        exitSignal := signal
        exitedAt := some (now clock)
        rootExited := true
        readerDrainDeadline := some (time + readerDrainTimeout) }
    match platform with
    | .windows =>
      { exited with
        terminal :=
          { exited.terminal with readerExitCompletion := some exited.terminal.readerCompletions }
        reporter :=
          { exited.reporter with
            windowsPtyDiagnostic := exited.reporter.windowsPtyDiagnostic.map fun diagnostic =>
              { diagnostic with directChildExitObserved := true } } }
    | _ => exited

/-- `mark_reader_eof` -/
def markReaderEof (stdout : Bool) (state : State) : State :=
  if stdout then { state with stdoutEof := true } else { state with stderrEof := true }

/-- `output_complete` -/
def outputComplete (state : State) : Bool :=
  state.stdoutEof && state.stderrEof && state.reporter.stdoutReaderError.isNone &&
    state.reporter.stderrReaderError.isNone

/-- A deadline was set and has passed. -/
def passed (deadline : Option Nat) (time : Nat) : Bool := deadline.any fun limit => limit ≤ time

/-- Mark the output as incomplete. -/
def State.incomplete (state : State) : State :=
  { state with reporter := { state.reporter with outputIncomplete := true } }

/-- `update_reader_drain_state`; its diagnostic is pushed without secrets. -/
def updateReaderDrainState (time : Nat) (state : State) : State :=
  if state.terminationConfirmed && !outputComplete state &&
      passed state.readerDrainDeadline time && !state.reporter.outputIncomplete then
    let bare := { state.incomplete.reporter with secrets := [] }
    { state with
      reporter :=
        { bare.pushDiagnostic "reader drain deadline elapsed".toList with
          secrets := state.reporter.secrets } }
  else state

/-- `update_reader_drain` on Windows. -/
def updateReaderDrainWindows (time : Nat) (state : State) : State :=
  match state.reporter.worker.mode with
  | .exec =>
    if state.terminationConfirmed && !outputComplete state &&
        passed state.readerDrainDeadline time then state.incomplete
    else state
  | .pty =>
    let cancelled :=
      if state.terminal.closeStarted && state.terminal.readerActive &&
          passed state.terminal.readerCancelDeadline time &&
          !state.terminal.readerCancelRequested then
        { state with terminal := { state.terminal with readerCancelRequested := true } }
      else state
    if cancelled.terminal.readerCancelRequested && cancelled.terminal.readerDone &&
        !outputComplete cancelled then cancelled.incomplete
    else cancelled

/-- `update_reader_drain` -/
def updateReaderDrain (platform : Platform) (time : Nat) (state : State) : State :=
  match platform with
  | .windows => updateReaderDrainWindows time state
  | _ => updateReaderDrainState time state

/-- `mark_terminal_reader_event` -/
def markTerminalReaderEvent (state : State) : State :=
  let completions := state.terminal.readerCompletions + 1
  { state with
    terminal :=
      { state.terminal with
        readerCompletions := completions
        readerPostExitCompletion :=
          state.terminal.readerExitCompletion.any fun completion => completion < completions } }

/-- The last thing that the reader of a Windows terminal does. -/
def finishTerminalReader (state : State) : State :=
  let marked := markTerminalReaderEvent state
  { marked with terminal := { marked.terminal with readerActive := false, readerDone := true } }

/-- `windows_terminal_should_close` -/
def windowsTerminalShouldClose (time : Nat) (state : State) : Bool :=
  state.terminationConfirmed &&
    (state.terminal.readerPostExitCompletion || passed state.readerDrainDeadline time)

/-- `release_windows_terminal` -/
def releaseWindowsTerminal (time : Nat) (state : State) : State :=
  if state.reporter.worker.mode == .pty && windowsTerminalShouldClose time state &&
      !state.terminal.closeStarted then
    { state with
      terminal :=
        { state.terminal with
          closeStarted := true
          readerCancelDeadline := some (time + readerCancelTimeout) } }
  else state

/-! ## The snapshot -/

inductive Status where
  | running
  | exited
  | lost
  deriving DecidableEq

structure Snapshot where
  status : Status
  exitCode : Option Nat
  exitSignal : Option (List Char)
  exitReason : Option (List Char)
  exitedAt : Option (List Char)
  timedOut : Bool
  terminationRequested : Bool
  terminationConfirmed : Bool
  directChildExited : Bool
  storageFailure : Option (List Char)
  stdoutEof : Bool
  stderrEof : Bool
  readerFailure : Option (List Char)
  outputComplete : Bool
  outputIncomplete : Bool
  diagnostics : List (List Char)
  containment : ContainmentReport

/-- `storage_failure`, which is kept with the journal. -/
def State.storageFailure (state : State) : Option (List Char) :=
  state.reporter.worker.state.storageFailure

/-- The errors of the readers in one text. -/
def readerFailure (reporter : Reporter) : Option (List Char) :=
  match reporter.stdoutReaderError, reporter.stderrReaderError with
  | some stdout, some stderr => some (stdout ++ "; ".toList ++ stderr)
  | some stdout, none => some stdout
  | none, some stderr => some stderr
  | none, none => none

/-- The child has ended and there is no more output to come. -/
def terminal (platform : Platform) (state : State) : Bool :=
  state.terminationConfirmed && (outputComplete state || state.reporter.outputIncomplete) &&
    (state.reporter.worker.mode != .pty || platform != .windows || state.terminal.readerDone)

/-- `macos_direct_exit` -/
def macosDirectExit (platform : Platform) (state : State) : Bool :=
  platform == .macos && state.rootExited

/-- The containment was not confirmed until the deadline. -/
def containmentUnresolved (platform : Platform) (state : State) (report : ContainmentReport)
    (time : Nat) : Bool :=
  state.rootExited && !containmentDrained report && !macosDirectExit platform state &&
    passed state.readerDrainDeadline time

def containmentUnavailable (report : ContainmentReport) : Bool :=
  report.status == .posixContainmentUnknown || report.status == .windowsJobUnknown

/-- The status of a snapshot, from its own report. -/
def snapshotStatus (platform : Platform) (state : State) (report : ContainmentReport)
    (time : Nat) : Status :=
  if (terminal platform state || containmentUnresolved platform state report time) &&
      (state.storageFailure.isSome || state.reporter.outputIncomplete ||
        containmentUnresolved platform state report time ||
        containmentUnavailable report && !macosDirectExit platform state) then .lost
  else if terminal platform state then .exited
  else .running

/-- What `snapshot` reads under the lock, with its own report. -/
def readSnapshot (platform : Platform) (state : State) (report : ContainmentReport)
    (time : Nat) : Snapshot where
  status := snapshotStatus platform state report time
  exitCode := state.exitCode
  exitSignal := state.exitSignal
  exitReason := state.exitReason
  exitedAt := state.exitedAt
  timedOut := state.timedOut
  terminationRequested := state.terminationRequested
  terminationConfirmed := state.terminationConfirmed
  directChildExited := state.rootExited
  storageFailure := state.storageFailure
  stdoutEof := state.stdoutEof
  stderrEof := state.stderrEof
  readerFailure := readerFailure state.reporter
  outputComplete := outputComplete state
  outputIncomplete := state.reporter.outputIncomplete
  diagnostics := state.reporter.snapshotDiagnostics (report.status == .windowsJobEmpty)
  containment := report

/-- A worker whose child was just started. -/
def started (reporter : Reporter) : State where
  reporter := reporter
  exitCode := none
  exitSignal := none
  exitedAt := none
  timedOut := false
  terminationRequested := false
  terminationConfirmed := false
  rootExited := false
  stdoutEof := false
  stderrEof := false
  readerDrainDeadline := none
  terminal := ⟨false, false, 0, none, false, false, false, none⟩

/-! ## What a snapshot tells of the state -/

/-- A snapshot that says that the child exited was read in a terminal state in which nothing
had failed. -/
theorem exited_state {platform : Platform} {state : State} {report : ContainmentReport}
    {time : Nat} (exited : snapshotStatus platform state report time = .exited) :
    state.terminationConfirmed = true ∧ outputComplete state = true ∧
      state.storageFailure = none ∧ state.reporter.outputIncomplete = false := by
  unfold snapshotStatus at exited
  split at exited
  · exact nomatch exited
  · rename_i notLost
    split at exited
    · rename_i final
      have fine : (state.storageFailure.isSome || state.reporter.outputIncomplete) = false := by
        rw [Bool.eq_false_iff]
        intro failed
        apply notLost
        rw [final, Bool.true_or, Bool.true_and, Bool.or_eq_true, Bool.or_eq_true]
        exact Or.inl (Or.inl failed)
      obtain ⟨noFailure, whole⟩ := Bool.or_eq_false_iff.mp fine
      simp only [terminal, Bool.and_eq_true, Bool.or_eq_true] at final
      refine ⟨final.1.1, final.1.2.resolve_right ?_, ?_, whole⟩
      · rw [whole]
        exact Bool.false_ne_true
      · exact Option.isSome_eq_false_iff.mp noFailure |> Option.isNone_iff_eq_none.mp
    · exact nomatch exited

/-- A snapshot that does not say that the child runs was read after the exit was recorded, or
after the termination was confirmed. -/
theorem settled_state {platform : Platform} {state : State} {report : ContainmentReport}
    {time : Nat} (settled : snapshotStatus platform state report time ≠ .running) :
    state.terminationConfirmed = true ∨ state.rootExited = true := by
  unfold snapshotStatus at settled
  split at settled
  · rename_i lost
    simp only [Bool.and_eq_true, Bool.or_eq_true] at lost
    obtain ⟨final | unresolved, _⟩ := lost
    · simp only [terminal, Bool.and_eq_true] at final
      exact Or.inl final.1.1
    · simp only [containmentUnresolved, Bool.and_eq_true] at unresolved
      exact Or.inr unresolved.1.1.1
  · split at settled
    · rename_i final
      simp only [terminal, Bool.and_eq_true] at final
      exact Or.inl final.1.1
    · exact absurd rfl settled

end OpencodePty.WorkerVerdicts
