import OpencodePty.NativeSnapshots
import OpencodePty.RegistrySessions

/-!
# Session starts

`spawn` and `nativeExecStart` reserve a slot, write the record of a new session, prepare a worker,
start it and register its client. One catch block serves every failure after the first write: it
takes what is known of the clean-up from the error or from a rollback, moves the record, writes it
once more, frees the slot where no child was started, and deletes the session where there was no
worker at all. The bodies of the two functions are the same; they differ in the texts of the
errors and in a field of the new record.

What the calls outside answer is an argument: the worker and its rollback, and each write. The
checks before the reservation and the timestamps that nothing reads are left out. The id of the
session is random.
-/

namespace OpencodePty.SessionStarts

open JsValues Lifecycle LifecycleRuns NativeSnapshots KeyedMaps
open SessionRegistry (SessionTables SessionLimits ContainmentStatus)

/-- The ways in which a worker is cleaned up after a failed start. -/
inductive CleanupMethod where
  | shutdown
  | rollback
  | kill
  | none
  deriving DecidableEq

/-- The method, as it is written into the reason. -/
def CleanupMethod.text : CleanupMethod → String
  | shutdown => "shutdown"
  | rollback => "rollback"
  | kill => "kill"
  | none => "none"

/-- What is known of a worker and its child after a failure. -/
structure SpawnCleanup where
  requested : Bool
  terminationConfirmed : Bool
  method : CleanupMethod
  directChildStarted : Option Bool
  directChildPid : Option Nat
  message : Option JsString

/-- The cleanup, as it is written into the reason. -/
def SpawnCleanup.toJs (cleanup : SpawnCleanup) : Js :=
  record
    [("requested", some (.bool cleanup.requested)),
      ("terminationConfirmed", some (.bool cleanup.terminationConfirmed)),
      ("method", some (.text cleanup.method.text)),
      ("directChildStarted", cleanup.directChildStarted.map .bool),
      ("directChildPid", cleanup.directChildPid.map fun pid => .int pid),
      ("message", cleanup.message.map .str)]

/-- The cleanup shows that no child was started. -/
def noChildCleanup (cleanup : SpawnCleanup) : Bool :=
  cleanup.terminationConfirmed && cleanup.directChildStarted = some false

/-- Nothing was requested and nothing is confirmed. -/
def unconfirmedCleanup (message : Option JsString) : SpawnCleanup where
  requested := false
  terminationConfirmed := false
  method := .none
  directChildStarted := none
  directChildPid := none
  message := message

/-- An exception: its message, and its conversion to a string. -/
structure Thrown where
  message : JsString
  text : JsString

/-- `WorkerStartError` -/
structure WorkerStartError extends Thrown where
  cleanup : SpawnCleanup
  prestartReference : Option Js
  noWorkerSpawned : Bool

/-- What a start fails with. -/
inductive Failure where
  | workerStart (error : WorkerStartError)
  | other (error : Thrown)

/-- The failure, as the caller sees it. -/
def Failure.thrown : Failure → Thrown
  | workerStart error => error.toThrown
  | other error => error

/-- The worker that an error refers to. -/
def Failure.prestartReference : Failure → Option Js
  | workerStart error => error.prestartReference
  | other _ => none

/-- The error says that there was no worker. -/
def Failure.noWorkerSpawned : Failure → Bool
  | workerStart error => error.noWorkerSpawned
  | other _ => false

/-- The error for a failure before a worker process exists. -/
def noWorkerError (error : Thrown) : WorkerStartError where
  toThrown := error
  cleanup :=
    { unconfirmedCleanup none with terminationConfirmed := true, directChildStarted := some false }
  prestartReference := none
  noWorkerSpawned := true

/-- What the calls outside answer, in the order in which they are made. A step that only may fail
answers with its error. -/
structure Answers where
  /-- The first write of the record. -/
  created : Option Thrown
  /-- The check of the secrets of the bootstrap. -/
  secrets : Option Thrown
  /-- The bootstrap text and the command of the worker. -/
  bootstrap : Option Thrown
  authority : Js
  /-- The write of the authority of the worker. -/
  authorized : Option Thrown
  /-- The creation of the worker process. -/
  spawned : Option Thrown
  /-- The worker reports that it is ready, which gives a reference to it. -/
  handshake : Except WorkerStartError Js
  /-- The write of the reference. -/
  referenced : Option Thrown
  /-- The write of the mark that a start is attempted. -/
  attempted : Option Thrown
  start : Except Failure WorkerSnapshot
  /-- The write of the started record. -/
  started : Option Thrown
  rollback : Except Thrown SpawnCleanup
  /-- The write of the failed record. -/
  failed : Option Thrown
  /-- The removal of the files of the session. -/
  deleted : Option Thrown

/-- The options of a call that decide about its record and its place in the registry. -/
structure Options where
  parentSessionId : String
  ownerProjectDirectory : String
  ownerCapabilityHash : String
  outputLimitBytes : Int
  maxSessionsPerOwner : Nat

/-- What a call has at hand: which function it is, its options, the id and the time it chose. -/
structure Call extends Options where
  mode : Mode
  id : String
  now : JsString

/-- The part of the supervisor that a start changes: the ids in the map of records, the ids with a
client in the router, and the registry. -/
structure Supervisor where
  records : Finset String
  nativeWorkers : Finset String
  registry : SessionTables

/-- The record of the call, which the map of records shares, and the supervisor. -/
structure Progress where
  session : SessionRecord
  supervisor : Supervisor

/-! ## The record in the registry -/

/-- The names of the containment statuses. -/
def containmentNames : List (String × ContainmentStatus) :=
  [("posix_best_effort_empty", .posixBestEffortEmpty),
    ("posix_processes_remaining", .posixProcessesRemaining),
    ("posix_escape_observed", .posixEscapeObserved),
    ("posix_containment_unknown", .posixContainmentUnknown),
    ("windows_job_empty", .windowsJobEmpty),
    ("windows_job_processes_remaining", .windowsJobProcessesRemaining),
    ("windows_job_unknown", .windowsJobUnknown),
    ("not_applicable", .notApplicable)]

/-- The containment status that a report names. -/
def containmentStatus (containment : Option Js) : Option ContainmentStatus :=
  (containmentNames.find? fun entry => isText (field containment "status") entry.1).map (·.2)

/-- A boolean property. -/
def boolean : Option Js → Option Bool
  | some (.bool value) => some value
  | _ => none

/-- The reason for an end as the registry reads it, which looks at no reason but a failed spawn. -/
def exitReason (reason : Option Js) : Option SessionRegistry.ExitReason :=
  if isText (field reason "kind") "spawn_error" then
    let cleanup := field reason "cleanup"
    some (.spawnError "" (cleanup.map fun _ =>
      ⟨truthy (field cleanup "terminationConfirmed"),
        boolean (field cleanup "directChildStarted")⟩))
  else reason.map fun _ => .unknown none

/-- What the registry reads of the record of a call. -/
def registryRecord (call : Call) (session : SessionRecord) : SessionRegistry.SessionRecord where
  id := call.id
  parentSessionId := call.parentSessionId
  ownerProjectDirectory := call.ownerProjectDirectory
  ownerCapabilityHash := call.ownerCapabilityHash
  outputBytes := session.outputBytes
  outputLimitBytes := some call.outputLimitBytes
  containment := containmentStatus session.fields.containment
  terminationConfirmed := truthy session.fields.terminationConfirmed
  directChildExited := boolean session.fields.directChildExited
  exitReason := exitReason session.fields.exitReason

/-- The key of the owner that asks for the session. -/
def Call.owner (call : Call) : String :=
  call.parentSessionId ++ "\x00" ++ call.ownerProjectDirectory ++ "\x00" ++ call.ownerCapabilityHash

/-! ## A start -/

section Start

variable (darwin : Bool) (call : Call) (answers : Answers)

/-- The fields of a record without any observation. -/
def blankFields : LifecycleProjection :=
  ⟨none, none, none, none, none, none, none, none, none, none, none, none, none, none, none, none,
    none, none, none, none, none, none, none, none, none⟩

/-- The record of a new session. Only `spawn` notes that the child has not exited. -/
def newRecord : SessionRecord :=
  let exited : Option Js := match call.mode with
    | .pty => some (.bool false)
    | .exec => none
  { mode := call.mode
    state := .active .creating
      { Evidence.empty with
        pid := some (.int 0)
        directExited := exited
        startedAt := some (.str call.now)
        timedOut := some (.bool false)
        terminationRequested := some (.bool false)
        terminationConfirmed := some (.bool false)
        streamDrain := some (.text "unknown") }
    fields :=
      { blankFields with
        status := some (.text "starting")
        pid := some (.int 0)
        startedAt := some (.str call.now)
        timedOut := some (.bool false)
        terminationRequested := some (.bool false)
        terminationConfirmed := some (.bool false)
        directChildExited := exited }
    nextSequence := 0
    firstRetainedSequence := 0
    outputTruncated := false
    outputBytes := 0
    lineCount := 0
    outputHasPartialLine := false }

namespace Progress

/-- Assignments to fields of the record. -/
def assign (progress : Progress) (change : LifecycleProjection → LifecycleProjection) : Progress :=
  { progress with session := { progress.session with fields := change progress.session.fields } }

/-- The lifecycle takes an event. -/
def transition (progress : Progress) (event : LifecycleEvent) : Progress :=
  { progress with session := progress.session.moved darwin event }

/-- `nativeWorkers.set` -/
def register (progress : Progress) (id : String) : Progress :=
  { progress with
    supervisor := { progress.supervisor with
      nativeWorkers := insert id progress.supervisor.nativeWorkers } }

/-- `writeSession` changes the record before it writes, and may then fail. -/
def writeSession (progress : Progress) : Progress :=
  { progress with session := progress.session.refreshed darwin }

end Progress

/-- The authority of a worker that is about to be created. -/
def withPrestart (authority : Js) (fields : LifecycleProjection) : LifecycleProjection :=
  { fields with workerPrestart := some authority, workerStartAttempted := some (.bool false) }

/-- A worker that was not asked to start. -/
def withWorker (reference : Js) (fields : LifecycleProjection) : LifecycleProjection :=
  { fields with worker := some reference, workerStartAttempted := some (.bool false) }

/-- The mark of an attempted start is set. -/
def withAttempt (attempted : Bool) (fields : LifecycleProjection) : LifecycleProjection :=
  { fields with workerStartAttempted := some (.bool attempted) }

/-- What the record takes from the first snapshot. -/
def withSnapshot (initial : WorkerSnapshot) (fields : LifecycleProjection) : LifecycleProjection :=
  { fields with
    pid := some (.int initial.pid)
    containment := some initial.containment
    termination := initial.termination }

/-- The reason that a failed start leaves in the record. -/
def spawnErrorReason (message : JsString) (cleanup : SpawnCleanup) : Js :=
  record
    [("kind", some (.text "spawn_error")), ("message", some (.str message)),
      ("cleanup", some cleanup.toJs)]

/-- What the record takes from a failure. -/
def withFailure (message : JsString) (cleanup : SpawnCleanup) (fields : LifecycleProjection) :
    LifecycleProjection :=
  { fields with
    terminationRequested := some (.bool cleanup.requested)
    terminationConfirmed := some (.bool cleanup.terminationConfirmed)
    exitReason := some (spawnErrorReason message cleanup) }

/-- The callback through which `prepare` reports the authority of the worker, up to its write. -/
def persistPrestart (progress : Progress) : Progress :=
  (progress.assign (withPrestart answers.authority)).writeSession darwin

/-- `WorkerClient.prepare`: a reference to the worker, or the error. -/
def prepare (progress : Progress) : Except Failure Js × Progress :=
  match answers.secrets with
  | some error => (.error (.other error), progress)
  | none =>
    match answers.bootstrap with
    | some error => (.error (.workerStart (noWorkerError error)), progress)
    | none =>
      let progress := persistPrestart darwin answers progress
      match answers.authorized with
      | some error => (.error (.workerStart (noWorkerError error)), progress)
      | none =>
        match answers.spawned with
        | some error => (.error (.workerStart (noWorkerError error)), progress)
        | none =>
          match answers.handshake with
          | .error error => (.error (.workerStart error), progress)
          | .ok reference => (.ok reference, progress)

/-- What the try block leaves: its error if it has one, whether there is a prepared worker, and
what was changed. -/
structure Attempt where
  failure : Option Failure
  prepared : Bool
  progress : Progress

/-- The try block. -/
def attempt (progress : Progress) : Attempt :=
  match prepare darwin answers progress with
  | (.error failure, progress) => ⟨some failure, false, progress⟩
  | (.ok reference, progress) =>
    let progress := (progress.assign (withWorker reference)).writeSession darwin
    match answers.referenced with
    | some error => ⟨some (.other error), true, progress⟩
    | none =>
      let progress := (progress.assign (withAttempt true)).writeSession darwin
      match answers.attempted with
      | some error => ⟨some (.other error), true, progress.assign (withAttempt false)⟩
      | none =>
        match answers.start with
        | .error failure => ⟨some failure, true, progress⟩
        | .ok initial =>
          let progress := (progress.assign (withSnapshot initial)).transition darwin .workerReady
          let progress := (progress.register call.id).writeSession darwin
          ⟨answers.started.map .other, true, progress⟩

/-- What is known of the worker after a failure. A prepared worker whose error says nothing is
rolled back. -/
def cleanupOf (failure : Failure) (prepared : Bool) : SpawnCleanup :=
  match failure with
  | .workerStart error => error.cleanup
  | .other _ =>
    if prepared then
      match answers.rollback with
      | .ok cleanup => cleanup
      | .error error => unconfirmedCleanup (some error.text)
    else unconfirmedCleanup none

/-- The message that the record keeps of the error. -/
def reasonMessage (failure : Failure) : JsString :=
  match call.mode with
  | .pty => failure.thrown.message
  | .exec => failure.thrown.text

/-- The message of the error that the call raises. -/
def processMessage (failure : Failure) : JsString :=
  match call.mode with
  | .pty => js "Failed to spawn PTY '" ++ js call.id ++ js "': " ++ failure.thrown.message
  | .exec => failure.thrown.text

/-- `deleteNativeSession`: its failure is ignored. -/
def deleteNativeSession (supervisor : Supervisor) : Supervisor :=
  if call.id ∉ supervisor.records then supervisor
  else
    let supervisor := { supervisor with nativeWorkers := supervisor.nativeWorkers.erase call.id }
    match answers.deleted with
    | some _ => supervisor
    | none =>
      { supervisor with
        registry := supervisor.registry.release call.id
        records := supervisor.records.erase call.id }

/-- The error that a call raises. -/
inductive Rejection where
  | limit (failure : SessionRegistry.Failure)
  | storage (error : Thrown)
  | process (message : JsString) (cleanup : SpawnCleanup)

/-- The record of a failed start up to its write. -/
def failRecord (failure : Failure) (prepared : Bool) (progress : Progress) : Progress :=
  let cleanup := cleanupOf answers failure prepared
  let progress := match prepared, failure.prestartReference with
    | false, some reference => progress.assign (withWorker reference)
    | _, _ => progress
  (progress.assign (withFailure (reasonMessage call failure) cleanup)).transition darwin
    (if noChildCleanup cleanup then .spawnFailed else .unreachable)

/-- The catch block. -/
def recover (failure : Failure) (prepared : Bool) (progress : Progress) : Rejection × Progress :=
  let progress := (failRecord darwin call answers failure prepared progress).writeSession darwin
  match answers.failed with
  | some error => (.storage error, progress)
  | none =>
    let supervisor := { progress.supervisor with
      registry := progress.supervisor.registry.releaseIfSettled darwin
        (registryRecord call progress.session) }
    let supervisor := if failure.noWorkerSpawned then deleteNativeSession call answers supervisor
      else supervisor
    (.process (processMessage call failure) (cleanupOf answers failure prepared),
      { progress with supervisor })

/-- The two functions from the reservation on: the error if the call rejects, and what it
leaves. -/
def startSession (limits : SessionLimits) (supervisor : Supervisor) :
    Option Rejection × Progress :=
  let session := newRecord call
  match supervisor.registry.reserve limits darwin call.maxSessionsPerOwner
      (registryRecord call session) with
  | (.error failure, registry) => (some (.limit failure), ⟨session, { supervisor with registry }⟩)
  | (.ok reservation, registry) =>
    let progress : Progress :=
      ⟨session, { supervisor with records := insert call.id supervisor.records, registry }⟩
    let progress := progress.writeSession darwin
    match answers.created with
    | some error =>
      let released := SessionRegistry.releaseReservation registry
        { reservation with state := .committed }
      (some (.storage error), { progress with
        supervisor := { progress.supervisor with
          records := progress.supervisor.records.erase call.id
          registry := released.2 } })
    | none =>
      match attempt darwin call answers progress with
      | ⟨none, _, progress⟩ => (none, progress)
      | ⟨some failure, prepared, progress⟩ =>
        let recovered := recover darwin call answers failure prepared progress
        (some recovered.1, recovered.2)

end Start

section Functions

variable (darwin : Bool) (limits : SessionLimits) (answers : Answers) (supervisor : Supervisor)

/-- The start of a terminal session. -/
def spawn (options : Options) (id : String) (now : JsString) : Option Rejection × Progress :=
  startSession darwin ⟨options, .pty, id, now⟩ answers limits supervisor

/-- The start of an execution. -/
def nativeExecStart (options : Options) (id : String) (now : JsString) :
    Option Rejection × Progress :=
  startSession darwin ⟨options, .exec, id, now⟩ answers limits supervisor

end Functions

/-! ## The slot of the session -/

section Slot

variable (darwin : Bool) (call : Call)

/-- The registry sees a drained containment just where the lifecycle does. -/
theorem drained_view (containment : Option Js) :
    (containmentStatus containment = some .posixBestEffortEmpty ∨
      containmentStatus containment = some .windowsJobEmpty ∨
      containmentStatus containment = some .notApplicable) ↔
    containmentDrained containment = true := by
  unfold containmentStatus containmentDrained
  generalize field containment "status" = status
  by_cases known : ∃ entry ∈ containmentNames, isText status entry.1 = true
  · obtain ⟨entry, listed, named⟩ := known
    rw [isText_iff.mp named]
    clear named
    revert entry
    decide
  · have unnamed (entry) (listed : entry ∈ containmentNames) : isText status entry.1 = false :=
      Bool.eq_false_iff.mpr fun named => known ⟨entry, listed, named⟩
    have missing : containmentNames.find? (fun entry => isText status entry.1) = none := by
      rw [List.find?_eq_none]
      intro entry listed
      simp [unnamed entry listed]
    simp only [containmentNames, List.forall_mem_cons] at unnamed
    simp [missing, isOneOf, unnamed]

/-- A value is read as a boolean where it is that boolean. -/
theorem boolean_view {value : Option Js} (literal : Bool) :
    boolean value = some literal ↔ isBool value literal = true := by
  cases value with
  | none => simp [boolean, isBool]
  | some present => cases present <;> simp [boolean, isBool]

/-- The registry reads the reason as the lifecycle does. -/
theorem reason_view (reason : Option Js) (record : SessionRegistry.SessionRecord)
    (seen : record.exitReason = exitReason reason) :
    SessionRegistry.noChildStarted record = noChildStarted reason := by
  rw [Bool.eq_iff_iff]
  simp only [SessionRegistry.noChildStarted, seen, exitReason, noChildStarted, Bool.and_eq_true]
  by_cases failed : isText (field reason "kind") "spawn_error" = true
  · rw [if_pos failed]
    cases field reason "cleanup" with
    | none => simp [field, isBool]
    | some cleanup => simp [failed, boolean_view]
  · rw [if_neg failed]
    cases reason <;> simp [failed]

/-- A record keeps its slot in the registry until it is terminal or known to have no child. -/
theorem occupies_view (session : SessionRecord) :
    SessionRegistry.occupiesSlot darwin (registryRecord call session) =
      !(session.terminalDirectChild darwin || noChildStarted session.fields.exitReason) := by
  have drained : SessionRegistry.containmentDrained (registryRecord call session) =
      containmentDrained session.fields.containment := by
    rw [Bool.eq_iff_iff]
    simp only [SessionRegistry.containmentDrained, Bool.or_eq_true, decide_eq_true_eq, or_assoc]
    exact drained_view session.fields.containment
  have exited : decide ((registryRecord call session).directChildExited = some true) =
      isBool session.fields.directChildExited true := by
    rw [Bool.eq_iff_iff, decide_eq_true_eq]
    exact boolean_view true
  rw [SessionRegistry.occupiesSlot, SessionRegistry.terminalDirectChild, drained, exited,
    reason_view session.fields.exitReason _ rfl]
  rfl

/-- The session has a slot of its owner. -/
structure Holds (registry : SessionTables) : Prop where
  owner : SessionTables.known registry.slotOwnerBySessionId call.id = some call.owner
  member : call.id ∈ members registry.ownerSlots call.owner

/-- The slot of the session is released. -/
structure Free (registry : SessionTables) : Prop where
  owner : SessionTables.known registry.slotOwnerBySessionId call.id = none
  member : call.id ∉ members registry.ownerSlots call.owner

variable {darwin call} {registry : SessionTables}

/-- The accounts of the output leave the slots as they are. -/
theorem updateOutput_slots (darwin : Bool) (registry : SessionTables)
    (record : SessionRegistry.SessionRecord) :
    (registry.updateOutput darwin record).ownerSlots = registry.ownerSlots ∧
      (registry.updateOutput darwin record).slotOwnerBySessionId =
        registry.slotOwnerBySessionId := by
  unfold SessionTables.updateOutput
  split
  · exact ⟨rfl, rfl⟩
  · exact ⟨rfl, rfl⟩

/-- The release of a record leaves the slots as they are. -/
theorem releaseRecord_slots (registry : SessionTables) (id : String) :
    (registry.releaseRecord id).ownerSlots = registry.ownerSlots ∧
      (registry.releaseRecord id).slotOwnerBySessionId = registry.slotOwnerBySessionId := by
  unfold SessionTables.releaseRecord
  split
  · exact ⟨rfl, rfl⟩
  · exact ⟨rfl, rfl⟩

/-- A session that gives back its slot is free of it. -/
theorem Holds.releaseActive (holds : Holds call registry) :
    Free call (registry.releaseActive call.id) := by
  simp only [SessionTables.releaseActive, holds.owner]
  constructor
  · simp [SessionTables.known]
  · simp [members_removeMember]

/-- A session without a slot has none to give back. -/
theorem Free.releaseActive (free : Free call registry) :
    registry.releaseActive call.id = registry := by
  simp only [SessionTables.releaseActive, free.owner]

/-- A release leaves the slot free, and may come twice. -/
theorem release_free (held : Holds call registry ∨ Free call registry) :
    Free call (registry.release call.id) := by
  have active : Free call (registry.releaseActive call.id) := by
    rcases held with holds | free
    · exact holds.releaseActive
    · rw [free.releaseActive]
      exact free
  obtain ⟨slots, owners⟩ := releaseRecord_slots (registry.releaseActive call.id) call.id
  constructor
  · rw [SessionTables.release, owners]
    exact active.owner
  · rw [SessionTables.release, slots]
    exact active.member

/-- A session keeps its slot exactly as long as its record occupies one. -/
theorem Holds.releaseIfSettled (holds : Holds call registry) (darwin : Bool)
    (record : SessionRegistry.SessionRecord) (own : record.id = call.id) :
    if SessionRegistry.occupiesSlot darwin record then
      Holds call (registry.releaseIfSettled darwin record)
    else Free call (registry.releaseIfSettled darwin record) := by
  unfold SessionTables.releaseIfSettled
  rw [own]
  split
  · obtain ⟨slots, owners⟩ := updateOutput_slots darwin registry record
    exact ⟨by rw [owners]; exact holds.owner, by rw [slots]; exact holds.member⟩
  · obtain ⟨slots, owners⟩ := updateOutput_slots darwin
      (registry.releaseActive call.id) record
    have free := holds.releaseActive
    exact ⟨by rw [owners]; exact free.owner, by rw [slots]; exact free.member⟩

/-- A reservation takes a slot. -/
theorem reserve_holds {limits : SessionLimits} {session : SessionRecord}
    {reservation : SessionRegistry.SessionReservation} {after : SessionTables}
    (reserved : registry.reserve limits darwin call.maxSessionsPerOwner
      (registryRecord call session) = (.ok reservation, after)) :
    Holds call after ∧ reservation.id = call.id := by
  obtain ⟨failure, failed⟩ | ⟨_, admitted⟩ := SessionRegistry.reserve_cases registry limits darwin
    call.maxSessionsPerOwner (registryRecord call session)
  · rw [failed] at reserved
    cases reserved
  · rw [admitted] at reserved
    cases reserved
    have named : call.owner ≠ "" := SessionRegistry.ownerKey_named (registryRecord call session)
    refine ⟨⟨?_, ?_⟩, rfl⟩
    · change SessionTables.known (Finmap.insert call.id call.owner _) call.id = _
      simp [SessionTables.known, Option.filter, named]
    · change call.id ∈ members (addMember _ call.owner call.id) call.owner
      simp [members_addMember]

end Slot

end OpencodePty.SessionStarts
