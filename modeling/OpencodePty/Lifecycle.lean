import OpencodePty.JsValues

/-!
# The session lifecycle

A session carries one tagged lifecycle state and a flat projection of it. The
functions of `src/daemon/lifecycle.ts` are modelled here: the reducer over
lifecycle events, the projection to the flat view, and the refresh that rebuilds
the evidence of a state from an observed flat view.

The tags of a state are inductive. What the lifecycle only copies is kept as the
dynamic value it is, so that a state read from disk and a state built in memory
are the same kind of thing. A target, a last known kind or an outcome may be
absent, and one read from disk may be a value that is none of the declared names,
since the decoder's check converts it to a string first. Both are kept as `other`.

Whether the platform is Darwin is a parameter: there no containment report can
prove that a process tree is empty.
-/

namespace OpencodePty.Lifecycle

open JsValues

/-- The kinds of a session whose child may still run. -/
inductive ActiveKind where
  | creating
  | running
  | stopping
deriving DecidableEq

/-- `TerminalSessionOutcome`. -/
inductive TerminalSessionOutcome where
  | exited
  | timedOut
  | spawnFailed
  | outputLimited
  | other (raw : Option Js)

/-- `SessionStateTarget`, which is also the type of a last known kind. -/
inductive SessionStateTarget where
  | creating
  | running
  | stopping
  | terminal
  | unreachable
  | other (raw : Option Js)

/-- The legacy part of the evidence, present only in migrated sessions. -/
structure Legacy where
  tombstone : Option Js
  outputCleanupPending : Option Js

/-- `SessionStateEvidence`. The members of `child` and `termination` are fields of
their own, since both objects are always present. -/
structure Evidence where
  pid : Option Js
  directExited : Option Js
  startedAt : Option Js
  exitedAt : Option Js
  timedOut : Option Js
  terminationRequested : Option Js
  terminationConfirmed : Option Js
  terminationResult : Option Js
  containment : Option Js
  exitCode : Option Js
  exitSignal : Option Js
  exitReason : Option Js
  worker : Option Js
  prestart : Option Js
  startAttempted : Option Js
  streamDrain : Option Js
  execOutput : Option Js
  storageFailure : Option Js
  diagnostics : Option Js
  lastWaitResult : Option Js
  legacy : Option Legacy

/-- Evidence without any member set. -/
def Evidence.empty : Evidence :=
  ⟨none, none, none, none, none, none, none, none, none, none, none, none, none, none, none,
    none, none, none, none, none, none⟩

/-- `TerminalSessionPayload`: a terminal outcome that is remembered while its
session is unreachable. -/
structure TerminalSessionPayload where
  outcome : TerminalSessionOutcome
  evidence : Evidence

/-- `SessionState`, the authority on a session's lifecycle. -/
inductive SessionState where
  | active (kind : ActiveKind) (evidence : Evidence)
  | terminal (outcome : TerminalSessionOutcome) (evidence : Evidence)
  | unreachable (lastKnown : SessionStateTarget) (terminal : Option TerminalSessionPayload)
      (evidence : Evidence)
  | cleaning (target : SessionStateTarget) (outcome : TerminalSessionOutcome)
      (lastKnown : SessionStateTarget) (terminal : Option TerminalSessionPayload)
      (evidence : Evidence)

inductive LifecycleEvent where
  | workerReady
  | stopRequested
  | childExited
  | timedOut
  | outputLimited
  | spawnFailed
  | unreachable
  | recovered
deriving DecidableEq

/-- The flat fields of a session record that repeat its lifecycle state. -/
structure LifecycleProjection where
  status : Option Js
  pid : Option Js
  startedAt : Option Js
  exitedAt : Option Js
  timedOut : Option Js
  terminationRequested : Option Js
  terminationConfirmed : Option Js
  pendingCleanup : Option Js
  directChildExited : Option Js
  exitCode : Option Js
  exitSignal : Option Js
  exitReason : Option Js
  worker : Option Js
  workerPrestart : Option Js
  workerStartAttempted : Option Js
  containment : Option Js
  termination : Option Js
  execOutput : Option Js
  storageFailure : Option Js
  diagnostics : Option Js
  lastWaitResult : Option Js
  legacyTombstone : Option Js
  legacyOutputCleanupPending : Option Js
  streamDrain : Option Js
  lastKnown : Option Js

namespace TerminalSessionOutcome

def toJs : TerminalSessionOutcome → Option Js
  | exited => some (.text "exited")
  | timedOut => some (.text "timed_out")
  | spawnFailed => some (.text "spawn_failed")
  | outputLimited => some (.text "output_limited")
  | other raw => raw

/-- The outcome property of a state that has none. -/
def absent : TerminalSessionOutcome := other none

/-- The outcome that a value denotes under strict comparison. -/
def ofJs (value : Option Js) : TerminalSessionOutcome :=
  if isText value "exited" then exited
  else if isText value "timed_out" then timedOut
  else if isText value "spawn_failed" then spawnFailed
  else if isText value "output_limited" then outputLimited
  else other value

/-- Strict equality. Two values outside the declared names are objects, and these
are never identical. -/
def same : TerminalSessionOutcome → TerminalSessionOutcome → Bool
  | exited, exited | timedOut, timedOut => true
  | spawnFailed, spawnFailed | outputLimited, outputLimited => true
  | _, _ => false

/-- The outcome is one of the declared names, hence a non-empty string. -/
def Named : TerminalSessionOutcome → Prop
  | other _ => False
  | _ => True

end TerminalSessionOutcome

namespace SessionStateTarget

def toJs : SessionStateTarget → Option Js
  | creating => some (.text "creating")
  | running => some (.text "running")
  | stopping => some (.text "stopping")
  | terminal => some (.text "terminal")
  | unreachable => some (.text "unreachable")
  | other raw => raw

/-- The kind property of a state that has none. -/
def absent : SessionStateTarget := other none

/-- The kind that a value denotes under strict comparison. -/
def ofJs (value : Option Js) : SessionStateTarget :=
  if isText value "creating" then creating
  else if isText value "running" then running
  else if isText value "stopping" then stopping
  else if isText value "terminal" then terminal
  else if isText value "unreachable" then unreachable
  else other value

/-- The kind is one of the declared names. -/
def Named : SessionStateTarget → Prop
  | other _ => False
  | _ => True

end SessionStateTarget

def ActiveKind.target : ActiveKind → SessionStateTarget
  | creating => .creating
  | running => .running
  | stopping => .stopping

namespace SessionState

/-- The evidence of a state, without its tags. -/
def evidence : SessionState → Evidence
  | active _ evidence | terminal _ evidence => evidence
  | unreachable _ _ evidence => evidence
  | cleaning _ _ _ _ evidence => evidence

def isActive : SessionState → Bool
  | active _ _ => true
  | _ => false

def isCleaning : SessionState → Bool
  | cleaning .. => true
  | _ => false

/-- The states that the declared type admits: every tag that is present is one of
its names, and only the optional ones are absent. -/
def Declared : SessionState → Prop
  | active _ _ => True
  | terminal outcome _ => outcome.Named
  | unreachable known remembered _ =>
    known.Named ∧ ∀ payload, remembered = some payload → payload.outcome.Named
  | cleaning target outcome known remembered _ =>
    target.Named ∧ (outcome = .absent ∨ outcome.Named) ∧ (known = .absent ∨ known.Named) ∧
      ∀ payload, remembered = some payload → payload.outcome.Named

end SessionState

/-- The remembered or recorded terminal outcome of a state, with its evidence. -/
def terminalPayload : SessionState → Option TerminalSessionPayload
  | .terminal outcome evidence => some ⟨outcome, evidence⟩
  | .cleaning .terminal outcome _ terminal evidence =>
    if truthy outcome.toJs then some ⟨outcome, evidence⟩ else terminal
  | .unreachable _ terminal _ | .cleaning _ _ _ terminal _ => terminal
  | .active _ _ => none

/-- The kind to remember when a state becomes unreachable. -/
def lastKnown : SessionState → SessionStateTarget
  | .cleaning .unreachable _ known _ _ =>
    match known with
    | .other none | .other (some .null) => .unreachable
    | kind => kind
  | .cleaning target _ _ _ _ => target
  | .active kind _ => kind.target
  | .terminal _ _ => .terminal
  | .unreachable _ _ _ => .unreachable

section Platform

variable (darwin : Bool)

/-- A containment report that shows an empty process tree. -/
def containmentDrained (containment : Option Js) : Bool :=
  isOneOf (field containment "status")
    ["posix_best_effort_empty", "windows_job_empty", "not_applicable"]

/-- The worker reported that no child was ever started. -/
def noChildStarted (exitReason : Option Js) : Bool :=
  isText (field exitReason "kind") "spawn_error" &&
    isBool (field (field exitReason "cleanup") "directChildStarted") false &&
    truthy (field (field exitReason "cleanup") "terminationConfirmed")

/-- The evidence proves that the process tree of the session is gone. -/
def terminalProven (state : SessionState) : Bool :=
  (match state with
    | .terminal .spawnFailed evidence => noChildStarted evidence.exitReason
    | _ => false) ||
  (truthy state.evidence.terminationConfirmed &&
    isBool state.evidence.directExited true &&
    (containmentDrained state.evidence.containment || darwin))

/-- Record an outcome as terminal where the evidence proves it, and otherwise
remember it in an unreachable state. -/
def terminalOrUnreachable (state : SessionState) (outcome : TerminalSessionOutcome)
    (cleaning : Bool) : SessionState :=
  let evidence := state.evidence
  if terminalProven darwin (.terminal outcome evidence) then
    if cleaning then .cleaning .terminal outcome .absent none evidence
    else .terminal outcome evidence
  else
    let payload : TerminalSessionPayload := ⟨outcome, evidence⟩
    if cleaning then .cleaning .unreachable .absent .terminal (some payload) evidence
    else .unreachable .terminal (some payload) evidence

/-- `unreachable(state, cleaning)`. -/
def toUnreachable (state : SessionState) (cleaning : Bool) : SessionState :=
  let terminal := terminalPayload state
  let known := if terminal.isSome then .terminal else lastKnown state
  if cleaning then .cleaning .unreachable .absent known terminal state.evidence
  else .unreachable known terminal state.evidence

/-- `cleaning(state)`. -/
def toCleaning : SessionState → SessionState
  | .cleaning target outcome known terminal evidence =>
    .cleaning target outcome known terminal evidence
  | .terminal outcome evidence => .cleaning .terminal outcome .absent none evidence
  | .unreachable known terminal evidence =>
    .cleaning .unreachable .absent known terminal evidence
  | .active kind evidence => .cleaning kind.target .absent .absent none evidence

def terminalEvent : LifecycleEvent → Option TerminalSessionOutcome
  | .childExited => some .exited
  | .timedOut => some .timedOut
  | .outputLimited => some .outputLimited
  | .spawnFailed => some .spawnFailed
  | _ => none

/-- The state after an event, or nothing where the transition is invalid. -/
def reduceSessionState (current : SessionState) (event : LifecycleEvent) :
    Option SessionState :=
  if event = .unreachable then some (toUnreachable current current.isCleaning)
  else match current with
    | .unreachable known _ evidence =>
      match event, known with
      | .recovered, .terminal | .recovered, .unreachable => none
      | .recovered, _ => some (.active .running evidence)
      | _, _ => none
    | .cleaning target _ _ _ evidence =>
      match terminalEvent event, target with
      | some _, .terminal | some _, .unreachable => none
      | some outcome, _ => some (terminalOrUnreachable darwin current outcome true)
      | none, .running | none, .stopping =>
        if event = .stopRequested then some (.cleaning .stopping .absent .absent none evidence)
        else none
      | none, _ => none
    | .active .creating evidence =>
      if event = .workerReady then some (.active .running evidence)
      else if event = .spawnFailed then
        some (terminalOrUnreachable darwin current .spawnFailed false)
      else none
    | .active kind evidence =>
      if event = .workerReady ∧ kind = .running then some current
      else if event = .stopRequested then some (.active .stopping evidence)
      else (terminalEvent event).map (terminalOrUnreachable darwin current · false)
    | .terminal outcome _ =>
      if (terminalEvent event).any (·.same outcome) then some current else none

/-- The status that the flat view shows for a state. -/
def projectedStatus : SessionState → Option Js
  | .active .creating _ => some (.text "starting")
  | .active kind _ => kind.target.toJs
  | .terminal outcome _ => outcome.toJs
  | .unreachable _ _ _ => some (.text "lost")
  | .cleaning .creating _ _ _ _ => some (.text "starting")
  | .cleaning .running _ _ _ _ => some (.text "running")
  | .cleaning .stopping _ _ _ _ => some (.text "stopping")
  | .cleaning .terminal outcome _ _ _ => outcome.toJs
  | .cleaning _ _ _ _ _ => some (.text "lost")

/-- The last known kind that the flat view shows for the tags of a state. -/
def projectedLastKnown : SessionState → Option Js
  | .unreachable known _ _ => known.toJs
  | .cleaning .unreachable _ known _ _ => known.toJs
  | _ => none

def projectSessionState (state : SessionState) : LifecycleProjection :=
  let evidence := state.evidence
  let tombstone := evidence.legacy.bind (·.tombstone)
  { status := projectedStatus state
    pid := evidence.pid
    startedAt := evidence.startedAt
    exitedAt := evidence.exitedAt
    timedOut := evidence.timedOut
    terminationRequested := evidence.terminationRequested
    terminationConfirmed := evidence.terminationConfirmed
    pendingCleanup := if state.isCleaning then some (.bool true) else none
    directChildExited := evidence.directExited
    exitCode := evidence.exitCode
    exitSignal := evidence.exitSignal
    exitReason := evidence.exitReason
    worker := evidence.worker
    workerPrestart := evidence.prestart
    workerStartAttempted := evidence.startAttempted
    containment := evidence.containment
    termination := evidence.terminationResult
    execOutput := evidence.execOutput
    storageFailure := evidence.storageFailure
    diagnostics := evidence.diagnostics
    lastWaitResult := evidence.lastWaitResult
    legacyTombstone := tombstone
    legacyOutputCleanupPending := evidence.legacy.bind (·.outputCleanupPending)
    streamDrain := evidence.streamDrain
    lastKnown := orElse (projectedLastKnown state) (field tombstone "lastKnown") }

/-- The legacy object that a flat view gives rise to. -/
def observedLegacy (tombstone outputCleanupPending : Option Js) : Option Legacy :=
  if truthy tombstone || truthy outputCleanupPending then
    some ⟨whenTruthy tombstone, if truthy outputCleanupPending then some (.bool true) else none⟩
  else none

/-- The evidence that a flat view gives rise to. -/
def observedEvidence (record : LifecycleProjection) : Evidence where
  pid := record.pid
  directExited := record.directChildExited
  startedAt := record.startedAt
  exitedAt := record.exitedAt
  timedOut := record.timedOut
  terminationRequested := record.terminationRequested
  terminationConfirmed := record.terminationConfirmed
  terminationResult := whenTruthy record.termination
  containment := whenTruthy record.containment
  exitCode := record.exitCode
  exitSignal := record.exitSignal
  exitReason := whenTruthy record.exitReason
  worker := whenTruthy record.worker
  prestart := whenTruthy record.workerPrestart
  startAttempted := record.workerStartAttempted
  streamDrain := orElse record.streamDrain (some (.text "unknown"))
  execOutput := whenTruthy record.execOutput
  storageFailure := whenTruthy record.storageFailure
  diagnostics := whenTruthy record.diagnostics
  lastWaitResult := whenTruthy record.lastWaitResult
  legacy := observedLegacy record.legacyTombstone record.legacyOutputCleanupPending

/-- `{ ...state, ...evidence }`: a member that the second object lacks keeps its
value from the first. Only `child`, `timedOut`, `termination` and `streamDrain`
are members of every evidence object. -/
def Evidence.spread (stored observed : Evidence) : Evidence where
  pid := observed.pid
  directExited := observed.directExited
  startedAt := observed.startedAt <|> stored.startedAt
  exitedAt := observed.exitedAt <|> stored.exitedAt
  timedOut := observed.timedOut
  terminationRequested := observed.terminationRequested
  terminationConfirmed := observed.terminationConfirmed
  terminationResult := observed.terminationResult
  containment := observed.containment <|> stored.containment
  exitCode := observed.exitCode <|> stored.exitCode
  exitSignal := observed.exitSignal <|> stored.exitSignal
  exitReason := observed.exitReason <|> stored.exitReason
  worker := observed.worker <|> stored.worker
  prestart := observed.prestart <|> stored.prestart
  startAttempted := observed.startAttempted <|> stored.startAttempted
  streamDrain := observed.streamDrain
  execOutput := observed.execOutput <|> stored.execOutput
  storageFailure := observed.storageFailure <|> stored.storageFailure
  diagnostics := observed.diagnostics <|> stored.diagnostics
  lastWaitResult := observed.lastWaitResult <|> stored.lastWaitResult
  legacy := observed.legacy <|> stored.legacy

/-- Rebuild the evidence of a state from an observed flat view. -/
def refreshSessionState (state : SessionState) (record : LifecycleProjection) :
    SessionState :=
  let evidence := observedEvidence record
  match state with
  | .terminal outcome _ =>
    let refreshed := if terminalProven darwin (.terminal outcome evidence)
      then SessionState.terminal outcome evidence
      else .unreachable .terminal (some ⟨outcome, evidence⟩) evidence
    if truthy record.pendingCleanup then toCleaning refreshed else refreshed
  | .active kind stored =>
    if truthy record.pendingCleanup then toCleaning (.active kind (stored.spread evidence))
    else .active kind evidence
  | .unreachable known terminal stored =>
    if truthy record.pendingCleanup then
      toCleaning (.unreachable known terminal (stored.spread evidence))
    else .unreachable known terminal evidence
  | .cleaning target outcome known terminal _ =>
    let next := SessionState.cleaning target (if truthy outcome.toJs then outcome else .absent)
      (if truthy known.toJs then known else .absent) terminal evidence
    match target with
    | .terminal => terminalOrUnreachable darwin next outcome true
    | _ => next

/-- The state of a record that has only the flat view of a session. -/
def sessionStateFromCompatibility (record : LifecycleProjection) : SessionState :=
  let evidence : Evidence :=
    { Evidence.empty with
      pid := record.pid
      timedOut := record.timedOut
      terminationRequested := record.terminationRequested
      terminationConfirmed := record.terminationConfirmed
      streamDrain := orElse record.streamDrain (some (.text "unknown")) }
  let initial : SessionState :=
    if isText record.status "starting" then .active .creating evidence
    else if isText record.status "running" then .active .running evidence
    else if isText record.status "stopping" then .active .stopping evidence
    else if isText record.status "lost" then
      let known := orElse record.lastKnown
        (orElse (field record.legacyTombstone "lastKnown") (some (.text "unreachable")))
      .unreachable (SessionStateTarget.ofJs known) none evidence
    else .terminal (TerminalSessionOutcome.ofJs record.status) evidence
  let state := refreshSessionState darwin initial record
  let settled := match state with
    | .terminal outcome evidence =>
      if terminalProven darwin state then state
      else .unreachable .terminal (some ⟨outcome, evidence⟩) evidence
    | _ => state
  if truthy record.pendingCleanup then toCleaning settled else settled

/-- Where an outcome is recorded as terminal, its evidence proves it; elsewhere it
is remembered under the last known kind `terminal`. -/
theorem terminalOrUnreachable_cases (state : SessionState) (outcome : TerminalSessionOutcome)
    (cleaning : Bool) :
    (terminalProven darwin (.terminal outcome state.evidence) = true ∧
      terminalOrUnreachable darwin state outcome cleaning =
        if cleaning then .cleaning .terminal outcome .absent none state.evidence
        else .terminal outcome state.evidence) ∨
    (terminalProven darwin (.terminal outcome state.evidence) = false ∧
      terminalOrUnreachable darwin state outcome cleaning =
        if cleaning then
          .cleaning .unreachable .absent .terminal (some ⟨outcome, state.evidence⟩) state.evidence
        else .unreachable .terminal (some ⟨outcome, state.evidence⟩) state.evidence) := by
  by_cases proven : terminalProven darwin (.terminal outcome state.evidence) = true
  · exact .inl ⟨proven, by simp [terminalOrUnreachable, proven]⟩
  · have unproven := Bool.eq_false_iff.mpr proven
    exact .inr ⟨unproven, by simp [terminalOrUnreachable, unproven]⟩

theorem terminalOrUnreachable_cleaning (state : SessionState)
    (outcome : TerminalSessionOutcome) (cleaning : Bool) :
    (terminalOrUnreachable darwin state outcome cleaning).isCleaning = cleaning := by
  obtain ⟨_, settled⟩ | ⟨_, settled⟩ := terminalOrUnreachable_cases darwin state outcome cleaning <;>
    rw [settled] <;> cases cleaning <;> rfl

/-- An outcome is recorded with the evidence of its state. -/
theorem terminalOrUnreachable_evidence (state : SessionState) (outcome : TerminalSessionOutcome)
    (cleaning : Bool) :
    (terminalOrUnreachable darwin state outcome cleaning).evidence = state.evidence := by
  unfold terminalOrUnreachable
  simp only
  split <;> split <;> rfl

end Platform

end OpencodePty.Lifecycle
