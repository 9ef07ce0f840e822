import OpencodePty.LifecycleRuns

/-!
# Worker snapshots

A worker answers the supervisor with snapshots of its session. `finishNativeVersion` copies what a
snapshot reports into the session record, together with the lifecycle event that the snapshot
stands for, and does neither where the lifecycle rejects the event. The other changes of a
started record are modelled beside it: a stop request, a finalization that failed, a rollback,
the mark of a conversation that is cleaned up, and the refresh that precedes every write.

The texts that only describe a failure are arguments. A timestamp that nothing reads is left out.
-/

namespace OpencodePty.NativeSnapshots

open JsValues Lifecycle LifecycleRuns

/-- What a worker says of its session. -/
inductive WorkerStatus where
  | running
  | exited
  | lost
  deriving DecidableEq

/-- The reason that a worker gives for the end of its child. -/
inductive WorkerExitReason where
  | code
  | signal (name : JsString)
  | timeout
  | outputLimit
  | stopped
  | storageFailure
  deriving DecidableEq

/-- `WorkerSnapshot`. A member that may be `null` is absent then, which every reader treats
alike. -/
structure WorkerSnapshot where
  status : WorkerStatus
  pid : Nat
  stdout : Option JsString
  stderr : Option JsString
  stdoutBytes : Nat
  stderrBytes : Nat
  stdoutTruncated : Bool
  stderrTruncated : Bool
  nextSequence : Nat
  firstRetainedSequence : Nat
  outputTruncated : Bool
  outputLineCount : Nat
  outputHasPartialLine : Bool
  exitCode : Option Int
  exitSignal : Option JsString
  exitReason : Option WorkerExitReason
  exitedAt : Option JsString
  timedOut : Bool
  terminationRequested : Bool
  terminationConfirmed : Bool
  directChildExited : Bool
  storageFailure : Option JsString
  outputIncomplete : Bool
  readerFailure : Option JsString
  diagnostics : Option (List JsString)
  containment : Js
  termination : Option Js

/-- The kind of a session. -/
inductive Mode where
  | exec
  | pty
  deriving DecidableEq

/-- The part of a session record that snapshots change. -/
structure SessionRecord where
  mode : Mode
  state : SessionState
  fields : LifecycleProjection
  nextSequence : Nat
  firstRetainedSequence : Nat
  outputTruncated : Bool
  outputBytes : Int
  lineCount : Nat
  outputHasPartialLine : Bool

namespace WorkerSnapshot

variable (result : WorkerSnapshot)

/-- The event that a snapshot stands for. -/
def workerEvent : LifecycleEvent :=
  match result.status with
  | .lost => .unreachable
  | .running => .workerReady
  | .exited =>
    if result.exitReason = some .outputLimit then .outputLimited
    else if result.timedOut then .timedOut
    else .childExited

/-- The snapshot proves that the session has ended. -/
def nativeTerminalProof (darwin : Bool) : Bool :=
  result.terminationConfirmed && result.status ≠ .running && result.directChildExited &&
    (containmentDrained (some result.containment) || darwin)

/-- Nothing follows this snapshot. -/
def nativeTerminal (darwin : Bool) : Bool :=
  result.status = .lost || result.nativeTerminalProof darwin

/-- A text that is present and not empty. -/
def reported (text : Option JsString) : Bool := text.any (!·.isEmpty)

/-- The output of the session could not be stored or was not read to its end. -/
def outputFailed : Bool :=
  reported result.storageFailure || reported result.readerFailure || result.outputIncomplete

/-- The failure that `finishNativeVersion` raises after it has stored the record. -/
def raises : Bool :=
  reported result.storageFailure ||
    ((reported result.readerFailure || result.outputIncomplete) && result.terminationConfirmed)

/-- A reason without a message. -/
def kindOnly (kind : String) : Js := record [("kind", some (.text kind))]

/-- The reason of an end that is not known, with a message. -/
def unknownReason (message : JsString) : Js :=
  record [("kind", some (.text "unknown")), ("message", some (.str message))]

/-- `exitReason(exitCode, signal)`. -/
def childExitReason (exitCode : Option Int) (signal : Option JsString) : Js :=
  match exitCode with
  | some code => record [("kind", some (.text "code")), ("code", some (.int code))]
  | none =>
    if reported signal then
      record [("kind", some (.text "signal")), ("signal", signal.map .str)]
    else kindOnly "unknown"

/-- The reason that the record keeps for the end of its child. -/
def recordedReason : Js :=
  if result.outputFailed then
    unknownReason <|
      if reported result.storageFailure then
        js "Native worker storage failure: " ++ result.storageFailure.getD []
      else if reported result.readerFailure then
        js "Native worker output incomplete: " ++ result.readerFailure.getD []
      else js "Native worker output incomplete: reader drain deadline elapsed."
  else match result.exitReason with
    | some .timeout => kindOnly "timeout"
    | some .outputLimit => kindOnly "output_limit"
    | some .stopped => kindOnly "stopped"
    | some (.signal name) =>
      record [("kind", some (.text "signal")), ("signal", some (.str (result.exitSignal.getD name)))]
    | _ =>
      if result.terminationConfirmed then childExitReason result.exitCode result.exitSignal
      else kindOnly "unknown"

/-- The output of a structured command, where the snapshot has both streams. -/
def execOutput : Option Js :=
  match result.stdout, result.stderr with
  | some stdout, some stderr =>
    some (record
      [("stdout", some (.str stdout)),
        ("stderr", some (.str stderr)),
        ("stdoutBytes", some (.int result.stdoutBytes)),
        ("stderrBytes", some (.int result.stderrBytes)),
        ("stdoutTruncated", some (.bool result.stdoutTruncated)),
        ("stderrTruncated", some (.bool result.stderrTruncated)),
        ("containment", some result.containment),
        ("termination", result.termination)])
  | _, _ => none

end WorkerSnapshot

namespace SessionRecord

variable (darwin : Bool) (record : SessionRecord)

/-- The session starts, runs or stops. -/
def activeStatus : Bool := isOneOf record.fields.status ["starting", "running", "stopping"]

/-- The session is lost. -/
def lost : Bool := isText record.fields.status "lost"

/-- The child of the session has ended, as its record proves. -/
def terminalDirectChild : Bool :=
  truthy record.fields.terminationConfirmed && isBool record.fields.directChildExited true &&
    (containmentDrained record.fields.containment || darwin)

/-- The session has ended, and its record proves it. -/
def isTerminal : Bool := !record.activeStatus && record.terminalDirectChild darwin

/-- The output that the record keeps after a snapshot. -/
def outputOf (result : WorkerSnapshot) : Option Js :=
  if record.mode = .exec then result.execOutput <|> record.fields.execOutput
  else record.fields.execOutput

/-- `{ ...record, ...observations }`. -/
def observe (result : WorkerSnapshot) : SessionRecord :=
  { record with
    nextSequence := result.nextSequence
    firstRetainedSequence := result.firstRetainedSequence
    outputTruncated := result.outputTruncated
    outputBytes := if record.mode = .exec then result.stdoutBytes + result.stderrBytes
      else (result.nextSequence : Int) - result.firstRetainedSequence
    lineCount := result.outputLineCount
    outputHasPartialLine := result.outputHasPartialLine
    fields := { record.fields with
      pid := some (.int result.pid)
      timedOut := some (.bool result.timedOut)
      execOutput := record.outputOf result
      exitCode := result.exitCode.map .int
      exitSignal := result.exitSignal.map .str
      terminationRequested := some (.bool result.terminationRequested)
      terminationConfirmed := some (.bool result.terminationConfirmed)
      directChildExited := some (.bool result.directChildExited)
      containment := some result.containment
      termination := result.termination
      storageFailure := result.storageFailure.map .str
      diagnostics := match result.diagnostics with
        | none | some [] => none
        | some texts => some (.arr (texts.map .str))
      streamDrain := some (.text
        (if WorkerSnapshot.reported result.readerFailure || result.outputIncomplete then "unknown"
          else "drained"))
      exitReason := some result.recordedReason
      exitedAt := result.exitedAt.map .str } }

/-- `transition(record, event, observations)`, for a record that holds the observations. Nothing
where the event is rejected. -/
def transition (event : LifecycleEvent) (observed : SessionRecord) : Option SessionRecord :=
  (reduceSessionState darwin (refreshSessionState darwin record.state observed.fields) event).map
    fun state => { observed with state, fields := projectSessionState state }

/-- `finishNativeVersion` up to its write. -/
def finishNativeVersion (result : WorkerSnapshot) : Option SessionRecord :=
  (record.transition darwin result.workerEvent (record.observe result)).map fun next =>
    { next with fields := { next.fields with execOutput := next.outputOf result } }

/-- The transition of a record that observes nothing new; a rejected event changes nothing. -/
def moved (event : LifecycleEvent) : SessionRecord :=
  (record.transition darwin event record).getD record

/-- `persistNativeFinalizationFailure` up to its write. -/
def failFinalization (result : WorkerSnapshot) (message : JsString) : SessionRecord :=
  let next := record.moved darwin .unreachable
  { next with fields := { next.fields with
      exitCode := (result.exitCode.filter fun (code : Int) => 0 ≤ code ∧ code ≤ maxSafeInteger).map .int
      storageFailure := some (.str message)
      exitReason := some (WorkerSnapshot.unknownReason message) } }

/-- `rollbackNativeInLane` up to its write, with what the rollback of the worker reported. -/
def rollBack (requested confirmed : Bool) (message : JsString) : SessionRecord :=
  let next := record.moved darwin .unreachable
  { next with fields := { next.fields with
      terminationRequested := some (.bool requested)
      terminationConfirmed := some (.bool confirmed)
      exitReason := some (WorkerSnapshot.unknownReason message) } }

/-- `stop` up to its write. -/
def requestStop : SessionRecord :=
  moved darwin
    { record with fields := { record.fields with terminationRequested := some (.bool true) } }
    .stopRequested

/-- `cleanupConversation` up to its write. -/
def markCleanup : SessionRecord :=
  { record with fields := { record.fields with pendingCleanup := some (.bool true) } }

/-- The result of a wait is kept in the record. -/
def keepWaitResult (result : Js) : SessionRecord :=
  { record with fields := { record.fields with lastWaitResult := some result } }

/-- `writeSession` rebuilds the state from the flat fields, and these from the state, before it
writes. -/
def refreshed : SessionRecord :=
  let state := refreshSessionState darwin record.state record.fields
  { record with state, fields := projectSessionState state }

end SessionRecord

/-! ## Live states -/

/-- The status of the state is one of those of a session whose child may still run. -/
def Live : SessionState → Bool
  | .active _ _ => true
  | .cleaning .creating _ _ _ _ | .cleaning .running _ _ _ _ | .cleaning .stopping _ _ _ _ => true
  | _ => false

/-- Only the names of the three active kinds are active statuses. -/
theorem live_status {state : SessionState} (tagged : WellTagged state) :
    isOneOf (projectedStatus state) ["starting", "running", "stopping"] = Live state := by
  have outcomes {outcome : TerminalSessionOutcome} (named : outcome.Named) :
      isOneOf outcome.toJs ["starting", "running", "stopping"] = false := by
    cases outcome with
    | other raw => exact named.elim
    | _ => decide
  cases state with
  | active kind evidence =>
    cases kind <;> simp only [projectedStatus, Live] <;> decide
  | terminal outcome evidence => exact outcomes tagged
  | unreachable known terminal evidence =>
    simp only [projectedStatus, Live]
    decide
  | cleaning target outcome known terminal evidence =>
    cases target with
    | terminal => exact outcomes (tagged.1 rfl).1
    | _ =>
      simp only [projectedStatus, Live]
      decide

section Live

variable (darwin : Bool)

/-- A refresh keeps a session alive or not. -/
theorem refresh_live (state : SessionState) (fields : LifecycleProjection) :
    Live (refreshSessionState darwin state fields) = Live state := by
  cases state with
  | active kind evidence =>
    simp only [refreshSessionState]
    split
    · cases kind <;> rfl
    · rfl
  | terminal outcome evidence =>
    simp only [refreshSessionState]
    split <;> split <;> rfl
  | unreachable known terminal evidence =>
    simp only [refreshSessionState]
    split <;> rfl
  | cleaning target outcome known terminal evidence =>
    cases target with
    | terminal =>
      rw [refresh_cleaning_terminal]
      split <;> rfl
    | _ => rfl

/-- An unreachable session is not alive. -/
theorem toUnreachable_live (state : SessionState) (cleaning : Bool) :
    Live (toUnreachable state cleaning) = false := by
  cases cleaning <;> rfl

/-- Nor is one that has ended. -/
theorem terminalOrUnreachable_live (state : SessionState) (outcome : TerminalSessionOutcome)
    (cleaning : Bool) : Live (terminalOrUnreachable darwin state outcome cleaning) = false := by
  obtain ⟨_, after⟩ | ⟨_, after⟩ := terminalOrUnreachable_cases darwin state outcome cleaning <;>
    rw [after] <;> cases cleaning <;> rfl

/-- A session that is not live becomes so only by the event that reports its recovery. -/
theorem reduce_live {state next : SessionState} {event : LifecycleEvent}
    (tagged : WellTagged state) (notRecovered : event ≠ .recovered) (settled : Live state = false)
    (reduced : reduceSessionState darwin state event = some next) : Live next = false := by
  rcases reduce_cases darwin tagged reduced with ⟨_, rfl⟩ | ⟨recovered, _⟩ |
    ⟨outcome, _, _, _, rfl⟩ | rfl | ⟨_, evidence, rfl, _⟩ | ⟨kind, evidence, rfl, _⟩ |
    ⟨target, outcome, known, evidence, rfl, _, rfl⟩
  · exact toUnreachable_live state _
  · exact absurd recovered notRecovered
  · exact terminalOrUnreachable_live darwin state outcome _
  · exact settled
  · cases settled
  · cases settled
  · -- only a live target may be asked to stop
    cases event <;> cases target <;> simp_all [reduceSessionState, terminalEvent, Live] <;>
      have tags := congrArg Live reduced <;>
      simp only [terminalOrUnreachable_live, toUnreachable_live] at tags <;>
      exact absurd tags (by simp [Live])

end Live

/-! ## Records over time -/

namespace SessionRecord

variable {darwin : Bool} {record next observed : SessionRecord} {event : LifecycleEvent}

/-- The flat status is that of the state, and the tags of the state agree. -/
structure Consistent (record : SessionRecord) : Prop where
  tagged : WellTagged record.state
  status : record.fields.status = projectedStatus record.state

/-- The status of a consistent record is active as long as its state is alive. -/
theorem Consistent.activeStatus (consistent : record.Consistent) :
    record.activeStatus = Live record.state := by
  rw [SessionRecord.activeStatus, consistent.status]
  exact live_status consistent.tagged

/-- What every change keeps of a record: it stays consistent, and once it is not active it never
is again. -/
structure Follows (before after : SessionRecord) : Prop where
  consistent : before.Consistent → after.Consistent
  inactive : before.Consistent → before.activeStatus = false → after.activeStatus = false

/-- A record follows itself. -/
theorem Follows.refl (record : SessionRecord) : Follows record record :=
  ⟨id, fun _ inactive => inactive⟩

/-- What follows a record that follows another one follows that one too. -/
theorem Follows.trans {before between after : SessionRecord} (first : Follows before between)
    (second : Follows between after) : Follows before after where
  consistent start := second.consistent (first.consistent start)
  inactive start ended := second.inactive (first.consistent start) (first.inactive start ended)

/-- A change of fields that keeps the state and the flat status. -/
theorem Follows.ofFields {before after : SessionRecord} (state : after.state = before.state)
    (status : after.fields.status = before.fields.status) : Follows before after where
  consistent start := ⟨state ▸ start.tagged, by rw [status, state]; exact start.status⟩
  inactive _ ended := by
    rw [SessionRecord.activeStatus, status]
    exact ended

/-- An event other than a recovery leads to a record that follows. -/
theorem transition_follows (notRecovered : event ≠ .recovered)
    (moved : record.transition darwin event observed = some next) : Follows record next := by
  obtain ⟨state, reduced, rfl⟩ := Option.map_eq_some_iff.mp moved
  have consistent (start : record.Consistent) :
      SessionRecord.Consistent { observed with state, fields := projectSessionState state } :=
    ⟨reduce_tagged darwin (refresh_tagged darwin _ _ start.tagged) reduced, rfl⟩
  refine ⟨consistent, ?_⟩
  intro start ended
  rw [(consistent start).activeStatus]
  rw [start.activeStatus] at ended
  refine reduce_live darwin (refresh_tagged darwin _ _ start.tagged) notRecovered ?_ reduced
  rw [refresh_live]
  exact ended

/-- An event that is refused leaves the record. -/
theorem moved_follows (notRecovered : event ≠ .recovered) :
    Follows record (record.moved darwin event) := by
  cases moved : record.transition darwin event record with
  | none =>
    rw [SessionRecord.moved, moved]
    exact .refl record
  | some next =>
    rw [SessionRecord.moved, moved]
    exact transition_follows notRecovered moved

/-- An unreachable session is not active. -/
theorem moved_unreachable (consistent : record.Consistent) :
    (record.moved darwin .unreachable).activeStatus = false := by
  have after := (@moved_follows darwin record .unreachable (by decide)).consistent consistent
  rw [after.activeStatus]
  simp only [moved, transition, reduceSessionState, ↓reduceIte, Option.map_some, Option.getD_some]
  exact toUnreachable_live _ _

/-- No snapshot stands for a recovery. -/
theorem workerEvent_ne_recovered (result : WorkerSnapshot) : result.workerEvent ≠ .recovered := by
  unfold WorkerSnapshot.workerEvent
  split
  · decide
  · decide
  · split_ifs <;> decide

/-- A snapshot leads to a record that follows. -/
theorem finishNativeVersion_follows {result : WorkerSnapshot}
    (finished : record.finishNativeVersion darwin result = some next) : Follows record next := by
  obtain ⟨moved, transitioned, rfl⟩ := Option.map_eq_some_iff.mp finished
  exact (transition_follows (workerEvent_ne_recovered result) transitioned).trans
    (.ofFields rfl rfl)

/-- A failed finalization leads to a record that follows. -/
theorem failFinalization_follows (result : WorkerSnapshot) (message : JsString) :
    Follows record (record.failFinalization darwin result message) :=
  (@moved_follows darwin record .unreachable (by decide)).trans (.ofFields rfl rfl)

/-- A rollback leads to a record that follows. -/
theorem rollBack_follows (requested confirmed : Bool) (message : JsString) :
    Follows record (record.rollBack darwin requested confirmed message) :=
  (@moved_follows darwin record .unreachable (by decide)).trans (.ofFields rfl rfl)

/-- Behind a rollback the session is not active. -/
theorem rollBack_inactive (consistent : record.Consistent) (requested confirmed : Bool)
    (message : JsString) :
    (record.rollBack darwin requested confirmed message).activeStatus = false :=
  moved_unreachable consistent

/-- A request to stop leads to a record that follows. -/
theorem requestStop_follows : Follows record (record.requestStop darwin) := by
  refine Follows.trans ?_ (moved_follows (by decide))
  exact .ofFields rfl rfl

/-- A mark for the cleanup leads to a record that follows. -/
theorem markCleanup_follows : Follows record record.markCleanup := .ofFields rfl rfl

/-- The result of a wait leads to a record that follows. -/
theorem keepWaitResult_follows (result : Js) : Follows record (record.keepWaitResult result) :=
  .ofFields rfl rfl

/-- A write leads to a record that follows. -/
theorem refreshed_follows : Follows record (record.refreshed darwin) := by
  have consistent (start : record.Consistent) : (record.refreshed darwin).Consistent :=
    ⟨refresh_tagged darwin _ _ start.tagged, rfl⟩
  refine ⟨consistent, ?_⟩
  intro start ended
  rw [(consistent start).activeStatus]
  rw [start.activeStatus] at ended
  exact (refresh_live darwin _ _).trans ended

/-- A write leaves a session active or not. -/
theorem refreshed_active (consistent : record.Consistent) :
    (record.refreshed darwin).activeStatus = record.activeStatus := by
  rw [((@refreshed_follows darwin record).consistent consistent).activeStatus,
    consistent.activeStatus]
  exact refresh_live darwin _ _

/-- A session that is asked to stop stays active until its child has ended. -/
theorem requestStop_active (consistent : record.Consistent) (active : record.activeStatus = true) :
    (record.requestStop darwin).activeStatus = true := by
  have after := (@requestStop_follows darwin record).consistent consistent
  rw [after.activeStatus]
  rw [consistent.activeStatus] at active
  unfold requestStop moved
  generalize observation :
    { record with fields := { record.fields with terminationRequested := some (.bool true) } } =
      asked
  have same : asked.state = record.state := by rw [← observation]
  cases moved : asked.transition darwin .stopRequested asked with
  | none =>
    simp only [Option.getD_none]
    rw [same]
    exact active
  | some next =>
    obtain ⟨state, reduced, rfl⟩ := Option.map_eq_some_iff.mp moved
    have tagged : WellTagged (refreshSessionState darwin asked.state asked.fields) := by
      rw [same]
      exact refresh_tagged darwin _ _ consistent.tagged
    have live : Live (refreshSessionState darwin asked.state asked.fields) = true := by
      rw [refresh_live, same]
      exact active
    simp only [Option.getD_some]
    rcases reduce_cases darwin tagged reduced with ⟨event, _⟩ | ⟨event, _⟩ | ⟨_, event, _⟩ | rfl |
      ⟨event, _⟩ | ⟨_, _, _, rfl⟩ | ⟨_, _, _, _, _, _, rfl⟩
    · cases event
    · cases event
    · cases event
    · exact live
    · cases event
    · rfl
    · rfl

/-! ## Cursors -/

/-- The cursors of an accepted snapshot become those of the record. -/
theorem finishNativeVersion_cursors {result : WorkerSnapshot}
    (finished : record.finishNativeVersion darwin result = some next) :
    next.nextSequence = result.nextSequence ∧
      next.firstRetainedSequence = result.firstRetainedSequence := by
  obtain ⟨moved, transitioned, rfl⟩ := Option.map_eq_some_iff.mp finished
  obtain ⟨state, _, rfl⟩ := Option.map_eq_some_iff.mp transitioned
  exact ⟨rfl, rfl⟩

/-- An event without observations leaves the cursors alone. -/
theorem moved_cursors (event : LifecycleEvent) :
    (record.moved darwin event).nextSequence = record.nextSequence ∧
      (record.moved darwin event).firstRetainedSequence = record.firstRetainedSequence := by
  cases moved : record.transition darwin event record with
  | none => simp [SessionRecord.moved, moved]
  | some next =>
    obtain ⟨state, _, rfl⟩ := Option.map_eq_some_iff.mp moved
    simp [SessionRecord.moved, moved]

end SessionRecord

end OpencodePty.NativeSnapshots
