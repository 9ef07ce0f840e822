import OpencodePty.NativeSnapshots
import OpencodePty.TaskChains
import OpencodePty.Transitions
import Mathlib.Logic.Function.Basic

/-!
# The lanes of a session

The supervisor runs many calls for one session at once. Whatever changes the record waits for its
turn in the mutation lane of the session, and holds the lane until it has returned; the persist
lane is entered only by the holder of the mutation lane, so it never delays anyone. Outside the
lanes stand the polls of the monitor, the snapshots that `get` and `execOutput` ask for, and the
waits, whose results are written through the queue that all sessions share.

A step is what happens between two awaits. The environment chooses which call goes on next, and
what a storage write, a journal read or a worker answers; a worker takes a snapshot before it is
delivered, and snapshots of different requests may be delivered in any order. The session is one
whose start has returned.
-/

namespace OpencodePty.SessionLanes

open JsValues NativeSnapshots TaskChains

/-- A snapshot with its place among all that the worker took. -/
structure Taken where
  snapshot : WorkerSnapshot
  position : Nat

/-- The tasks that wait in the mutation lane. -/
inductive Task where
  /-- `finishNative`, with the version of its call. -/
  | finish (result : Taken) (version : Nat)
  | finalize (result : Taken)
  | rollback
  | stop
  /-- The mark that `cleanupConversation` leaves. -/
  | markCleanup
  | delete
  /-- The input of a `sendWait`. -/
  | input (call : Nat)

/-- What the holder of the mutation lane awaits. -/
inductive Running where
  /-- `finishNativeVersion` writes the record, on its own or within a finalization. -/
  | finishWrite (result : Taken) (finalizing : Bool)
  /-- That write failed, and `persistNativeFinalizationFailure` writes. -/
  | failureWrite (result : Taken) (finalizing : Bool)
  | finalSnapshot (result : Taken) (version : Nat) (answer : Option Taken)
  /-- The finalization failed, and `persistNativeFinalizationFailure` writes. -/
  | finalizationWrite (final : Taken)
  | shutdown (rejected : Bool)
  | rollbackWorker (version : Nat)
  | rollbackWrite
  | stopWrite
  | stopWorker (answer : Option Taken)
  | markWrite
  | deleting
  | inputting (call : Nat)

/-- Who called a task of the lane. Only the monitor goes on with a task of its own afterwards. -/
inductive Caller where
  | monitorFinish
  | monitorFinalize
  | monitorRollback
  | other

/-- What the monitor of a worker does. -/
inductive Monitor where
  | polling (answer : Option Taken)
  | working
  | stopped

/-- A `syncNative` that awaits its snapshot, with the version of its call. -/
structure Sync where
  version : Nat
  answer : Option Taken

/-- The stages of a `wait` before it is registered, with whether it holds a reservation. -/
inductive Call where
  | idle
  /-- `sendWait` holds a reservation and has its input in the lane. -/
  | sending
  | flushing (reserved : Bool) (position : Nat)
  /-- `waitMatch` reads the journal for the first time. -/
  | matching (reserved : Bool)
  | done

/-- The callback of `resolveExitWaits`. -/
inductive Exit where
  | awaiting (position : Nat)
  | settling (remaining : List Nat)

/-- A write in the queue that all sessions share. -/
inductive Write where
  | own
  | other
  deriving DecidableEq

/-- A session with its record, its lanes, its waits and its worker. -/
structure Session where
  record : SessionRecord
  /-- `records.get(id) === record`. -/
  present : Bool
  /-- `nativeWorkers.get(id) === worker`. -/
  attached : Bool
  version : Nat
  /-- `nativeFinalizations.get(id)` is a rejected promise. -/
  finalizationRejected : Bool
  /-- The directory of the session holds its metadata. -/
  stored : Bool
  /-- The snapshots that the worker took, in order. -/
  taken : List WorkerSnapshot
  /-- How many snapshots the worker had taken with the one that the record got last. -/
  applied : Nat
  monitor : Monitor
  syncs : Nat → Option Sync
  lane : List (Caller × Task)
  running : Option (Caller × Running)
  calls : Nat → Call
  /-- The entry of the session in the map of pending waits. -/
  waits : List Nat
  /-- The waits with a reservation in the registry. -/
  reserved : List Nat
  persistQueue : Chain Write
  exits : List Exit

/-- Who awaits a snapshot. -/
inductive Requester where
  | monitor
  | sync (call : Nat)
  | lane

/-- What a read of the journal for a wait gives. -/
inductive Match where
  | found (result : Js)
  /-- Nothing matched; `ended` is the result where the session is not active. -/
  | nothing (ended : Js)
  | failed

/-- What happens next. -/
inductive Action where
  /-- The worker takes the snapshot that somebody asked for. -/
  | take (requester : Requester) (snapshot : WorkerSnapshot)
  /-- The snapshot that was taken arrives. -/
  | deliver (requester : Requester)
  /-- The request for a snapshot fails. -/
  | lose (requester : Requester) (message : JsString)
  | sync (call : Nat)
  | stop
  | markCleanup
  /-- `cleanup` has passed its checks. -/
  | cleanup
  /-- The next task of the lane begins. -/
  | turn
  /-- What the holder of the lane awaits returns or fails. -/
  | answer (succeeds : Bool) (message : JsString)
  /-- The rollback of the worker returns. -/
  | rolledBack (requested confirmed : Bool) (message : JsString)
  | wait (call : Nat)
  | sendWait (call : Nat)
  /-- A wait goes on after its flush. -/
  | flushed (call : Nat)
  /-- The first read of a wait returns; `admitted` tells whether the registry has room. -/
  | matched (call : Nat) (found : Match) (admitted : Bool)
  /-- A registered wait is settled by a later read or by its deadline. -/
  | settle (call : Nat) (result : Js)
  /-- A callback of `resolveExitWaits` goes on; a read of the journal gives a result or fails. -/
  | exit (index : Nat) (result : Option Js)
  /-- A wait of another session is settled. -/
  | otherWait
  /-- The write whose turn it is in the shared queue returns or fails. -/
  | queueWrite (succeeds : Bool)

namespace Session

variable (darwin : Bool) (session : Session)

/-- A task is added to the lane of mutations. -/
def enqueue (caller : Caller) (task : Task) : Session :=
  { session with lane := session.lane ++ [(caller, task)] }

/-! ## Waits -/

/-- The reservation of a wait is given back. -/
def releaseWait (call : Nat) : Session :=
  { session with reserved := session.reserved.filter (· ≠ call) }

/-- A wait comes to another stage. -/
def goto (call : Nat) (stage : Call) : Session :=
  { session with calls := Function.update session.calls call stage }

/-- A wait that is not registered ends, and gives back its reservation. -/
def endCall (call : Nat) (reserved : Bool) : Session :=
  (if reserved then session.releaseWait call else session).goto call .done

/-- A wait has its result, which is noted in the record and queued to be written. -/
def finishWait (result : Js) : Session :=
  { session with
    record := session.record.keepWaitResult result
    persistQueue := TaskChains.enqueue session.persistQueue .own }

/-- `settle` of a pending wait, which does nothing the second time. -/
def settleWait (call : Nat) (result : Js) : Session :=
  if call ∈ session.waits then
    finishWait
      { session with
        waits := session.waits.filter (· ≠ call)
        reserved := session.reserved.filter (· ≠ call) }
      result
  else session

/-- A wait is registered. -/
def registerWait (call : Nat) : Session :=
  { session with
    waits := session.waits ++ [call]
    reserved := if call ∈ session.reserved then session.reserved else session.reserved ++ [call]
    calls := Function.update session.calls call .done }

/-- The waits that are registered are going to be looked at again. -/
def resolveExitWaits : Session :=
  if session.waits = [] then session
  else { session with exits := session.exits ++ [.awaiting session.persistQueue.length] }

/-- `wait` after its flush. -/
def enterWait (call : Nat) (reserved : Bool) : Session :=
  if session.present = false then session.endCall call reserved
  else if truthy session.record.fields.pendingCleanup || session.record.lost then
    session.endCall call reserved
  else session.goto call (.matching reserved)

/-- `wait` after its first read of the journal. -/
def afterMatch (call : Nat) (reserved : Bool) (found : Match) (admitted : Bool) : Session :=
  match found with
  | .failed => session.endCall call reserved
  | .found result => (session.endCall call reserved).finishWait result
  | .nothing ended =>
    if session.record.activeStatus = false then (session.endCall call reserved).finishWait ended
    else if reserved || admitted then session.registerWait call
    else session.endCall call reserved

/-- A wait that is looked at at the end of the session gets its result. -/
def stepExit (index : Nat) (result : Option Js) : Session :=
  match session.exits[index]? with
  | none => session
  | some (.awaiting position) =>
    match awaited session.persistQueue position with
    | .queued => session
    | .rejected => { session with exits := session.exits.eraseIdx index }
    | .fulfilled => { session with exits := session.exits.set index (.settling session.waits) }
  | some (.settling []) => { session with exits := session.exits.eraseIdx index }
  | some (.settling (call :: rest)) =>
    match result with
    | none => { session with exits := session.exits.eraseIdx index }
    | some result => { session with exits := session.exits.set index (.settling rest) }.settleWait
        call result

/-- The next write of the queue ends. -/
def stepQueueWrite (succeeds : Bool) : Session :=
  { session with
    persistQueue := TaskChains.settle succeeds session.persistQueue
    record := if current session.persistQueue = some .own then session.record.refreshed darwin
      else session.record
    stored := session.stored || (succeeds && current session.persistQueue = some .own) }

/-! ## The mutation lane -/

/-- The holder of the lane awaits something else. -/
def await (caller : Caller) (running : Running) : Session :=
  { session with running := some (caller, running) }

/-- The holder of the lane begins to write the record. -/
def beginWrite (caller : Caller) (record : SessionRecord) (running : Running) : Session :=
  { session with record := record.refreshed darwin, running := some (caller, running) }

/-- The monitor catches an error. -/
def monitorFailed : Session :=
  if session.attached then
    { session.enqueue .monitorRollback .rollback with monitor := .working }
  else { session with monitor := .stopped }

/-- The holder of the lane returns or fails, and its caller goes on. -/
def complete (caller : Caller) (succeeded : Bool) : Session :=
  let released := { session with running := none }
  match caller, succeeded with
  | .monitorFinish, true => { released with monitor := .polling none }
  | .monitorFinish, false | .monitorFinalize, false => released.monitorFailed
  | .monitorFinalize, true | .monitorRollback, _ => { released with monitor := .stopped }
  | .other, _ => released

/-- Snapshots that were asked for before are out of date. -/
def bumpVersion : Session := { session with version := session.version + 1 }

/-- The end of `finalizeNativeVersion`: only a promise that was rejected is kept. -/
def finalized (caller : Caller) (rejected : Bool) : Session :=
  complete { session with finalizationRejected := rejected } caller !rejected

/-- The `finally` of `finalizeNativeVersion`. -/
def shutDown (caller : Caller) (final : Taken) (rejected : Bool) : Session :=
  if final.snapshot.nativeTerminal darwin then session.await caller (.shutdown rejected)
  else session.finalized caller rejected

/-- `finishNativeVersion` has returned or failed. -/
def finished (caller : Caller) (result : Taken) (finalizing succeeded : Bool)
    (message : JsString) : Session :=
  if finalizing then
    let bumped := if result.snapshot.nativeTerminal darwin then session.bumpVersion else session
    if succeeded then bumped.shutDown darwin caller result false
    else bumped.beginWrite darwin caller
      (bumped.record.failFinalization darwin result.snapshot message) (.finalizationWrite result)
  else session.complete caller succeeded

/-- A snapshot is taken into the record, where it is not out of date. -/
def finishNativeInLane (caller : Caller) (result : Taken) (version : Nat) (finalizing : Bool)
    (message : JsString) : Session :=
  if session.present = false ∨ version ≠ session.version then
    if finalizing then session.shutDown darwin caller result false
    else session.complete caller true
  else match session.record.finishNativeVersion darwin result.snapshot with
    | none => session.finished darwin caller result finalizing true message
    | some record =>
      beginWrite darwin { session with applied := result.position + 1 } caller record
        (.finishWrite result finalizing)

/-- A session is finalized with a snapshot, where its worker is still attached. -/
def finalizeNativeInLane (caller : Caller) (result : Taken) (message : JsString) : Session :=
  if session.attached = false then session.complete caller true
  else if session.finalizationRejected then session.complete caller false
  else if result.snapshot.nativeTerminal darwin then
    session.bumpVersion.await caller (.finalSnapshot result (session.version + 1) none)
  else session.bumpVersion.finishNativeInLane darwin caller result (session.version + 1) true
    message

/-- A task of the lane begins. -/
def begin (caller : Caller) (task : Task) : Session :=
  match task with
  | .finish result version => session.finishNativeInLane darwin caller result version false []
  | .finalize result => session.finalizeNativeInLane darwin caller result []
  | .rollback =>
    if session.attached then
      session.bumpVersion.await caller (.rollbackWorker (session.version + 1))
    else session.complete caller true
  | .stop =>
    if session.attached && session.present then
      session.beginWrite darwin caller (session.record.requestStop darwin) .stopWrite
    else session.complete caller false
  | .markCleanup => session.beginWrite darwin caller session.record.markCleanup .markWrite
  | .delete =>
    if session.present then
      { session.bumpVersion with attached := false }.await caller .deleting
    else session.complete caller true
  | .input call =>
    if session.attached && session.present && isText session.record.fields.status "running" &&
        !truthy session.record.fields.pendingCleanup then
      session.await caller (.inputting call)
    else (session.endCall call true).complete caller false

/-- The next task of the lane begins, where none runs. -/
def turn : Session :=
  match session.running, session.lane with
  | none, (caller, task) :: rest => begin darwin { session with lane := rest } caller task
  | _, _ => session

/-- `finishNativeVersion` after its write. -/
def afterFinishWrite : Session :=
  if session.record.activeStatus then { session with stored := true }
  else resolveExitWaits { session with stored := true }

/-- `persistNativeFinalizationFailure` after its write. -/
def afterFailureWrite (succeeds : Bool) : Session :=
  if succeeds then resolveExitWaits { session with stored := true } else session

/-- What the holder of the lane awaits, other than a snapshot or a rollback, returns or fails. -/
def answer (succeeds : Bool) (message : JsString) : Session :=
  match session.running with
  | some (caller, .finishWrite result finalizing) =>
    if succeeds then
      session.afterFinishWrite.finished darwin caller result finalizing (!result.snapshot.raises)
        message
    else session.beginWrite darwin caller
      (session.record.failFinalization darwin result.snapshot message)
      (.failureWrite result finalizing)
  | some (caller, .failureWrite result finalizing) =>
    (session.afterFailureWrite succeeds).finished darwin caller result finalizing false message
  | some (caller, .finalizationWrite final) =>
    (session.afterFailureWrite succeeds).shutDown darwin caller final true
  | some (caller, .shutdown rejected) => finalized { session with attached := false } caller rejected
  | some (caller, .rollbackWrite) =>
    if succeeds then
      complete { session.bumpVersion with stored := true, attached := false } caller true
    else session.complete caller false
  | some (caller, .stopWrite) =>
    if succeeds then await { session with stored := true } caller (.stopWorker none)
    else session.complete caller false
  | some (caller, .markWrite) =>
    complete { session with stored := session.stored || succeeds } caller succeeds
  | some (caller, .deleting) =>
    if succeeds then complete { session with stored := false, present := false } caller true
    else session.complete caller false
  | some (caller, .inputting call) =>
    if succeeds then
      (session.goto call (.flushing true session.persistQueue.length)).complete caller true
    else (session.endCall call true).complete caller false
  | _ => session

/-- `rollbackNativeInLane` after the rollback of the worker. -/
def rolledBack (requested confirmed : Bool) (message : JsString) : Session :=
  match session.running with
  | some (caller, .rollbackWorker version) =>
    let record := session.record.rollBack darwin requested confirmed message
    if session.present = false ∨ version ≠ session.version then
      complete { session with record, attached := false } caller true
    else session.beginWrite darwin caller record .rollbackWrite
  | _ => session

/-! ## Snapshots -/

/-- The worker takes a snapshot for somebody who awaits one. -/
def take (requester : Requester) (snapshot : WorkerSnapshot) : Session :=
  let answer : Taken := ⟨snapshot, session.taken.length⟩
  let recorded := { session with taken := session.taken ++ [snapshot] }
  match requester with
  | .monitor =>
    match session.monitor with
    | .polling none => { recorded with monitor := .polling (some answer) }
    | _ => session
  | .sync call =>
    match session.syncs call with
    | some ⟨version, none⟩ =>
      { recorded with syncs := Function.update session.syncs call (some ⟨version, some answer⟩) }
    | _ => session
  | .lane =>
    match session.running with
    | some (caller, .finalSnapshot result version none) =>
      recorded.await caller (.finalSnapshot result version (some answer))
    | some (caller, .stopWorker none) => recorded.await caller (.stopWorker (some answer))
    | _ => session

/-- A snapshot arrives. -/
def deliver (requester : Requester) : Session :=
  match requester with
  | .monitor =>
    match session.monitor with
    | .polling (some result) =>
      if result.snapshot.nativeTerminal darwin then
        { session.enqueue .monitorFinalize (.finalize result) with monitor := .working }
      else
        { session.enqueue .monitorFinish (.finish result session.version) with monitor := .working }
    | _ => session
  | .sync call =>
    match session.syncs call with
    | some ⟨version, some result⟩ =>
      let received := { session with syncs := Function.update session.syncs call none }
      if session.attached = false then received
      else if result.snapshot.nativeTerminal darwin then received.enqueue .other (.finalize result)
      else received.enqueue .other (.finish result version)
    | _ => session
  | .lane =>
    match session.running with
    | some (caller, .finalSnapshot _ version (some final)) =>
      session.finishNativeInLane darwin caller final version true []
    | some (caller, .stopWorker (some result)) =>
      session.finalizeNativeInLane darwin caller result []
    | _ => session

/-- A request for a snapshot fails. -/
def lose (requester : Requester) (message : JsString) : Session :=
  match requester with
  | .monitor =>
    match session.monitor with
    | .polling _ => session.monitorFailed
    | _ => session
  | .sync call => { session with syncs := Function.update session.syncs call none }
  | .lane =>
    match session.running with
    | some (caller, .finalSnapshot result _ _) =>
      session.beginWrite darwin caller
        (session.record.failFinalization darwin result.snapshot message) (.finalizationWrite result)
    | some (caller, .stopWorker _) => session.complete caller false
    | _ => session

/-! ## Steps -/

/-- One action; what is not possible changes nothing. -/
def step : Action → Session
  | .take requester snapshot => session.take requester snapshot
  | .deliver requester => session.deliver darwin requester
  | .lose requester message => session.lose darwin requester message
  | .sync call =>
    if session.present && session.attached then
      { session with syncs := Function.update session.syncs call (some ⟨session.version, none⟩) }
    else session
  | .stop => session.enqueue .other .stop
  | .markCleanup => if session.present then session.enqueue .other .markCleanup else session
  | .cleanup =>
    -- every check that `cleanup` passes for a started session excludes the active statuses
    if session.present && !session.record.activeStatus then session.enqueue .other .delete
    else session
  | .turn => session.turn darwin
  | .answer succeeds message => session.answer darwin succeeds message
  | .rolledBack requested confirmed message => session.rolledBack darwin requested confirmed message
  | .wait call =>
    match session.calls call with
    | .idle => session.goto call (.flushing false session.persistQueue.length)
    | _ => session
  | .sendWait call =>
    match session.calls call with
    | .idle =>
      if session.present then
        { session.enqueue .other (.input call) with
          calls := Function.update session.calls call .sending
          reserved := session.reserved ++ [call] }
      else session
    | _ => session
  | .flushed call =>
    match session.calls call with
    | .flushing reserved position =>
      match awaited session.persistQueue position with
      | .queued => session
      | .rejected => session.endCall call reserved
      | .fulfilled => session.enterWait call reserved
    | _ => session
  | .matched call found admitted =>
    match session.calls call with
    | .matching reserved => session.afterMatch call reserved found admitted
    | _ => session
  | .settle call result => session.settleWait call result
  | .exit index result => session.stepExit index result
  | .otherWait => { session with persistQueue := TaskChains.enqueue session.persistQueue .other }
  | .queueWrite succeeds => session.stepQueueWrite darwin succeeds

end Session

/-- The evidence of a session whose worker has started its child. -/
def workerEvidence : Lifecycle.Evidence :=
  { Lifecycle.Evidence.empty with
    pid := some (.int 7)
    directExited := some (.bool false)
    startedAt := some (.text "2026-01-01T00:00:00.000Z")
    timedOut := some (.bool false)
    terminationRequested := some (.bool false)
    terminationConfirmed := some (.bool false)
    worker := some (record
      [("protocolVersion", some (.int 5)),
        ("pid", some (.int 6)),
        ("endpoint", some (.text "/run/worker.sock")),
        ("startIdentity", some (.text "s")),
        ("processIdentity", some (.text "p")),
        ("tokenFingerprint", some (.text "t"))])
    startAttempted := some (.bool true)
    streamDrain := some (.text "unknown") }

/-- A session under way, with a worker and nothing in its lane. -/
def startedSession : Session where
  record :=
    { mode := .pty
      state := .active .running workerEvidence
      fields := Lifecycle.projectSessionState (.active .running workerEvidence)
      nextSequence := 0
      firstRetainedSequence := 0
      outputTruncated := false
      outputBytes := 0
      lineCount := 0
      outputHasPartialLine := false }
  present := true
  attached := true
  version := 0
  finalizationRejected := false
  stored := true
  taken := []
  applied := 0
  monitor := .polling none
  syncs := fun _ => none
  lane := []
  running := none
  calls := fun _ => .idle
  waits := []
  reserved := []
  persistQueue := []
  exits := []

/-- A snapshot of a running child with the given cursor. -/
def runningSnapshot (nextSequence : Nat) : WorkerSnapshot where
  status := .running
  pid := 7
  stdout := none
  stderr := none
  stdoutBytes := 0
  stderrBytes := 0
  stdoutTruncated := false
  stderrTruncated := false
  nextSequence := nextSequence
  firstRetainedSequence := 0
  outputTruncated := false
  outputLineCount := 0
  outputHasPartialLine := false
  exitCode := none
  exitSignal := none
  exitReason := none
  exitedAt := none
  timedOut := false
  terminationRequested := false
  terminationConfirmed := false
  directChildExited := false
  storageFailure := none
  outputIncomplete := false
  readerFailure := none
  diagnostics := none
  containment := record [("status", some (.text "posix_best_effort"))]
  termination := none

/-- The last snapshot of a child that has ended and left nothing behind. -/
def exitedSnapshot (nextSequence : Nat) : WorkerSnapshot :=
  { runningSnapshot nextSequence with
    status := .exited
    exitCode := some 0
    exitReason := some .code
    terminationConfirmed := true
    directChildExited := true
    containment := record [("status", some (.text "posix_best_effort_empty"))] }

/-! ## What the holder of the lane leaves alone -/

/-- Only the record, the lane and the callers of its tasks change. -/
structure Within (before after : Session) : Prop where
  present : after.present = before.present
  attached : after.attached = before.attached
  stored : after.stored = before.stored
  taken : after.taken = before.taken
  syncs : after.syncs = before.syncs
  calls : after.calls = before.calls
  waits : after.waits = before.waits
  reserved : after.reserved = before.reserved
  persistQueue : after.persistQueue = before.persistQueue
  exits : after.exits = before.exits

/-- What stays within a session stays within what that one is within. -/
theorem Within.trans {first second third : Session} (one : Within first second)
    (two : Within second third) : Within first third where
  present := two.present.trans one.present
  attached := two.attached.trans one.attached
  stored := two.stored.trans one.stored
  taken := two.taken.trans one.taken
  syncs := two.syncs.trans one.syncs
  calls := two.calls.trans one.calls
  waits := two.waits.trans one.waits
  reserved := two.reserved.trans one.reserved
  persistQueue := two.persistQueue.trans one.persistQueue
  exits := two.exits.trans one.exits

/-- The holder of the lane settles the waits of an inactive session when it has written. -/
def Running.resolves : Running → Bool
  | .finishWrite _ _ | .failureWrite _ _ | .finalizationWrite _ => true
  | _ => false

/-- The holder of the lane goes on: it does not delete the session, and a session that leaves the
active statuses does so on the way to settle its waits. -/
structure Continues (before after : Session) : Prop extends Within before after where
  follows : SessionRecord.Follows before.record after.record
  leaves : after.record.activeStatus = false → before.record.activeStatus = false ∨
    ∃ caller running, after.running = some (caller, running) ∧ running.resolves = true
  lane : ∀ entry ∈ after.lane, entry ∈ before.lane ∨ entry.2 = .rollback
  calm : ∀ caller, after.running ≠ some (caller, .deleting)

/-- The metadata was written and waits may be about to be settled; nothing else changes. -/
structure Written (before after : Session) : Prop where
  record : after.record = before.record
  present : after.present = before.present
  attached : after.attached = before.attached
  version : after.version = before.version
  taken : after.taken = before.taken
  applied : after.applied = before.applied
  syncs : after.syncs = before.syncs
  monitor : after.monitor = before.monitor
  lane : after.lane = before.lane
  running : after.running = before.running
  calls : after.calls = before.calls
  waits : after.waits = before.waits
  reserved : after.reserved = before.reserved
  persistQueue : after.persistQueue = before.persistQueue

section Within

variable (darwin : Bool) (session : Session) (caller : Caller)

/-- A record that was written lets the waits be looked at again. -/
theorem resolveExitWaits_written :
    Written session (Session.resolveExitWaits { session with stored := true }) := by
  unfold Session.resolveExitWaits
  split_ifs <;> exact ⟨rfl, rfl, rfl, rfl, rfl, rfl, rfl, rfl, rfl, rfl, rfl, rfl, rfl, rfl⟩

/-- What follows a write of a snapshot is allowed to what was written. -/
theorem afterFinishWrite_written : Written session session.afterFinishWrite := by
  unfold Session.afterFinishWrite
  split_ifs
  · exact ⟨rfl, rfl, rfl, rfl, rfl, rfl, rfl, rfl, rfl, rfl, rfl, rfl, rfl, rfl⟩
  · exact resolveExitWaits_written session

/-- What follows the write of a failure is allowed to what was written. -/
theorem afterFailureWrite_written (succeeds : Bool) :
    Written session (session.afterFailureWrite succeeds) := by
  unfold Session.afterFailureWrite
  split_ifs
  · exact resolveExitWaits_written session
  · exact ⟨rfl, rfl, rfl, rfl, rfl, rfl, rfl, rfl, rfl, rfl, rfl, rfl, rfl, rfl⟩

/-- A new version changes nothing else. -/
theorem bumpVersion_within : Within session session.bumpVersion :=
  ⟨rfl, rfl, rfl, rfl, rfl, rfl, rfl, rfl, rfl, rfl⟩

/-- The version does not matter. -/
theorem Continues.bumped {after : Session} (continues : Continues session.bumpVersion after) :
    Continues session after where
  toWithin := (bumpVersion_within session).trans continues.toWithin
  follows := continues.follows
  leaves := continues.leaves
  lane := continues.lane
  calm := continues.calm

/-- A task that awaits something else goes on. -/
theorem await_continues {running : Running} (goesOn : running ≠ .deleting) :
    Continues session (session.await caller running) where
  toWithin := ⟨rfl, rfl, rfl, rfl, rfl, rfl, rfl, rfl, rfl, rfl⟩
  follows := .refl session.record
  leaves := .inl
  lane _ member := .inl member
  calm holder deleting := by
    simp only [Session.await, Option.some.injEq, Prod.mk.injEq] at deleting
    exact goesOn deleting.2

/-- A task that begins to write a record that follows goes on. -/
theorem beginWrite_continues {record : SessionRecord} {running : Running}
    (goesOn : running ≠ .deleting) (follows : SessionRecord.Follows session.record record)
    (leaves : (record.refreshed darwin).activeStatus = false →
      session.record.activeStatus = false ∨ running.resolves = true) :
    Continues session (session.beginWrite darwin caller record running) where
  toWithin := ⟨rfl, rfl, rfl, rfl, rfl, rfl, rfl, rfl, rfl, rfl⟩
  follows := follows.trans SessionRecord.refreshed_follows
  leaves inactive := (leaves inactive).imp_right fun resolves => ⟨caller, running, rfl, resolves⟩
  lane _ member := .inl member
  calm holder deleting := by
    simp only [Session.beginWrite, Option.some.injEq, Prod.mk.injEq] at deleting
    exact goesOn deleting.2

/-- A monitor that fails leaves the rest. -/
theorem monitorFailed_within : Within session session.monitorFailed := by
  unfold Session.monitorFailed
  split_ifs <;> exact ⟨rfl, rfl, rfl, rfl, rfl, rfl, rfl, rfl, rfl, rfl⟩

/-- A monitor that fails leaves the record. -/
theorem monitorFailed_record : session.monitorFailed.record = session.record := by
  unfold Session.monitorFailed
  split_ifs <;> rfl

/-- A monitor that fails leaves the task that runs. -/
theorem monitorFailed_running : session.monitorFailed.running = session.running := by
  unfold Session.monitorFailed
  split_ifs <;> rfl

/-- A monitor that fails adds only a rollback. -/
theorem monitorFailed_lane :
    ∀ entry ∈ session.monitorFailed.lane, entry ∈ session.lane ∨ entry.2 = .rollback := by
  intro entry member
  unfold Session.monitorFailed at member
  split_ifs at member
  · simp only [Session.enqueue, List.mem_append, List.mem_singleton] at member
    rcases member with known | rfl
    · exact .inl known
    · exact .inr rfl
  · exact .inl member

/-- A task that has returned or failed gives the lane free and leaves the record as it is. -/
theorem complete_cases (succeeded : Bool) :
    session.complete caller succeeded = Session.monitorFailed { session with running := none } ∨
      ∃ monitor, session.complete caller succeeded = { session with running := none, monitor } := by
  cases caller <;> cases succeeded <;>
    first
      | exact .inl rfl
      | exact .inr ⟨_, rfl⟩

/-- Behind a task no task runs. -/
theorem complete_free (succeeded : Bool) : (session.complete caller succeeded).running = none := by
  rcases complete_cases session caller succeeded with same | ⟨monitor, same⟩
  · rw [same, monitorFailed_running]
  · rw [same]

/-- The end of a task leaves the rest. -/
theorem complete_within (succeeded : Bool) :
    Within session (session.complete caller succeeded) := by
  rcases complete_cases session caller succeeded with same | ⟨monitor, same⟩
  · rw [same]
    exact @Within.trans session { session with running := none } _
      ⟨rfl, rfl, rfl, rfl, rfl, rfl, rfl, rfl, rfl, rfl⟩ (monitorFailed_within _)
  · rw [same]
    exact ⟨rfl, rfl, rfl, rfl, rfl, rfl, rfl, rfl, rfl, rfl⟩

/-- The end of a task leaves the record. -/
theorem complete_record (succeeded : Bool) :
    (session.complete caller succeeded).record = session.record := by
  rcases complete_cases session caller succeeded with same | ⟨monitor, same⟩
  · rw [same, monitorFailed_record]
  · rw [same]

/-- The end of a task lets the session go on. -/
theorem complete_continues (succeeded : Bool) :
    Continues session (session.complete caller succeeded) where
  toWithin := complete_within session caller succeeded
  follows := by
    rw [complete_record]
    exact .refl session.record
  leaves inactive := by
    rw [complete_record] at inactive
    exact .inl inactive
  lane := by
    rcases complete_cases session caller succeeded with same | ⟨monitor, same⟩
    · rw [same]
      exact monitorFailed_lane { session with running := none }
    · rw [same]
      exact fun _ member => .inl member
  calm holder deleting := by
    rw [complete_free] at deleting
    cases deleting

/-- The end of a finalization lets the session go on. -/
theorem finalized_continues (rejected : Bool) :
    Continues session (session.finalized caller rejected) := by
  have continues := complete_continues { session with finalizationRejected := rejected } caller
    (!rejected)
  exact
    { toWithin := @Within.trans session { session with finalizationRejected := rejected } _
        ⟨rfl, rfl, rfl, rfl, rfl, rfl, rfl, rfl, rfl, rfl⟩ continues.toWithin
      follows := continues.follows
      leaves := continues.leaves
      lane := continues.lane
      calm := continues.calm }

/-- The shutdown of a worker lets the session go on. -/
theorem shutDown_continues (final : Taken) (rejected : Bool) :
    Continues session (session.shutDown darwin caller final rejected) := by
  unfold Session.shutDown
  split_ifs
  · exact await_continues session caller (by simp)
  · exact finalized_continues session caller rejected

/-- A finalization that failed is recorded before the waits are settled. -/
theorem failed_continues (result : WorkerSnapshot) (message : JsString) {running : Running}
    (resolves : running.resolves = true) :
    Continues session (session.beginWrite darwin caller
      (session.record.failFinalization darwin result message) running) :=
  beginWrite_continues darwin session caller (by rintro rfl; cases resolves)
    (SessionRecord.failFinalization_follows result message) fun _ => .inr resolves

/-- The end of a snapshot lets the session go on. -/
theorem finished_continues (result : Taken) (finalizing succeeded : Bool) (message : JsString) :
    Continues session (session.finished darwin caller result finalizing succeeded message) := by
  unfold Session.finished
  split_ifs
  · exact (shutDown_continues darwin session.bumpVersion caller result false).bumped
  · exact (failed_continues darwin session.bumpVersion caller result.snapshot message rfl).bumped
  · exact shutDown_continues darwin session caller result false
  · exact failed_continues darwin session caller result.snapshot message rfl
  · exact complete_continues session caller succeeded

/-- A snapshot that is taken lets the session go on. -/
theorem finishNativeInLane_continues (result : Taken) (version : Nat) (finalizing : Bool)
    (message : JsString) :
    Continues session
      (session.finishNativeInLane darwin caller result version finalizing message) := by
  unfold Session.finishNativeInLane
  split_ifs
  · exact shutDown_continues darwin session caller result false
  · exact complete_continues session caller true
  · split
    · exact finished_continues darwin session caller result finalizing true message
    next record accepted =>
      have continues := beginWrite_continues darwin
        { session with applied := result.position + 1 } caller
        (by simp : Running.finishWrite result finalizing ≠ .deleting)
        (SessionRecord.finishNativeVersion_follows accepted) fun _ => .inr rfl
      exact
        { toWithin := @Within.trans session { session with applied := result.position + 1 } _
            ⟨rfl, rfl, rfl, rfl, rfl, rfl, rfl, rfl, rfl, rfl⟩ continues.toWithin
          follows := continues.follows
          leaves := continues.leaves
          lane := continues.lane
          calm := continues.calm }

/-- A finalization that begins lets the session go on. -/
theorem finalizeNativeInLane_continues (result : Taken) (message : JsString) :
    Continues session (session.finalizeNativeInLane darwin caller result message) := by
  unfold Session.finalizeNativeInLane
  split_ifs
  · exact complete_continues session caller true
  · exact complete_continues session caller false
  · exact (await_continues session.bumpVersion caller (by simp)).bumped
  · exact (finishNativeInLane_continues darwin session.bumpVersion caller result _ true
      message).bumped

end Within

end OpencodePty.SessionLanes
