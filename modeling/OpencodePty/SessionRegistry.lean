import Mathlib.Data.String.Basic
import OpencodePty.KeyedMaps

/-!
# The session registry

The daemon's registry budgets active sessions, records, retained output, pending waits
and queued input, for each owner and for all of them. Its tables are grouped here by
what changes together: the tables of sessions, of waits and of queued input.

A call either returns or throws; both carry the registry after the call. The caller
keeps the reservation objects it was given, and may release one more than once, so a
whole run also has the list of issued reservations of each kind. Byte counts are
unbounded integers. The durable records themselves are outside: a call brings the
record as it is at that moment.
-/

namespace OpencodePty.SessionRegistry

open OpencodePty.KeyedMaps

/-- `MAX_OUTPUT_BYTES` of the limits module. -/
def maxOutputBytes : Int := 64 * 1024 * 1024

/-- The limits that the registry enforces. -/
structure SessionLimits where
  maxActiveSessions : Nat
  maxRecordsPerOwner : Nat
  maxRecords : Nat
  maxPendingWaitsPerSession : Nat
  maxPendingWaitsPerOwner : Nat
  maxPendingWaits : Nat
  maxQueuedInputBytesPerSession : Nat
  maxQueuedInputBytesPerOwner : Nat
  maxQueuedInputBytes : Nat
  maxRetainedOutputBytesPerOwner : Nat
  maxRetainedOutputBytes : Nat

/-- The statuses of a containment report. -/
inductive ContainmentStatus where
  | posixBestEffortEmpty
  | posixProcessesRemaining
  | posixEscapeObserved
  | posixContainmentUnknown
  | windowsJobEmpty
  | windowsJobProcessesRemaining
  | windowsJobUnknown
  | notApplicable
  deriving DecidableEq

/-- What is known of the clean-up after a failed spawn. -/
structure SpawnCleanup where
  terminationConfirmed : Bool
  directChildStarted : Option Bool
  deriving DecidableEq

/-- Why a session ended. -/
inductive ExitReason where
  | code (code : Int)
  | signal (signal : String)
  | timeout (message : Option String)
  | stopped
  | spawnError (message : String) (cleanup : Option SpawnCleanup)
  | outputLimit (message : Option String)
  | unknown (message : Option String)
  deriving DecidableEq

/-- The fields of a session record that the registry reads. -/
structure SessionRecord where
  id : String
  parentSessionId : String
  ownerProjectDirectory : String
  ownerCapabilityHash : String
  outputBytes : Int
  outputLimitBytes : Option Int
  containment : Option ContainmentStatus
  terminationConfirmed : Bool
  directChildExited : Option Bool
  exitReason : Option ExitReason
  deriving DecidableEq

/-- An error as the registry throws it: a message, and a code for daemon errors. -/
structure Failure where
  message : String
  code : Option String
  deriving DecidableEq

/-- Where a reservation stands. -/
inductive ReservationState where
  | reserved
  | committed
  | released
  deriving DecidableEq

/-- The place that is reserved for a session. -/
structure SessionReservation where
  id : String
  ownerKey : String
  state : ReservationState
  deriving DecidableEq

/-- The place that is reserved for a wait. -/
structure WaitReservation where
  id : Nat
  sessionId : String
  ownerKey : String
  released : Bool
  deriving DecidableEq

/-- The room that is reserved for an input. -/
structure InputReservation where
  sessionId : String
  ownerKey : String
  bytes : Nat
  released : Bool
  deriving DecidableEq

/-- Slots, records and retained output. -/
structure SessionTables where
  ownerSlots : Map String (Finset String)
  slotOwnerBySessionId : Map String String
  recordsByOwner : Map String (Finset String)
  recordOwnerBySessionId : Map String String
  outputBySessionId : Map String Int
  outputByOwner : Map String Int
  outputTotal : Int

/-- Pending waits. -/
structure WaitTables where
  waitsBySession : Map String (Finset Nat)
  waitsByOwner : Map String (Finset Nat)
  waits : Finset Nat
  nextWaitId : Nat

/-- Queued input. -/
structure InputTables where
  inputBytesBySession : Map String Int
  inputBytesByOwner : Map String Int
  inputBytes : Int

/-- The registry. -/
structure Registry extends SessionTables, WaitTables, InputTables

/-- A new registry. -/
def Registry.empty : Registry where
  ownerSlots := ∅
  slotOwnerBySessionId := ∅
  recordsByOwner := ∅
  recordOwnerBySessionId := ∅
  outputBySessionId := ∅
  outputByOwner := ∅
  outputTotal := 0
  waitsBySession := ∅
  waitsByOwner := ∅
  waits := ∅
  nextWaitId := 0
  inputBytesBySession := ∅
  inputBytesByOwner := ∅
  inputBytes := 0

/-! ## Records -/

/-- Nothing is left in the containment. -/
def containmentDrained (record : SessionRecord) : Bool :=
  record.containment = some .posixBestEffortEmpty ||
    record.containment = some .windowsJobEmpty ||
    record.containment = some .notApplicable

/-- The direct child ended and its containment is drained, which no report shows on
Darwin. -/
def terminalDirectChild (darwin : Bool) (record : SessionRecord) : Bool :=
  record.terminationConfirmed && record.directChildExited = some true &&
    (containmentDrained record || darwin)

/-- A spawn that failed with proof that no child was started. -/
def noChildStarted (record : SessionRecord) : Bool :=
  match record.exitReason with
  | some (.spawnError _ (some cleanup)) =>
    cleanup.directChildStarted = some false && cleanup.terminationConfirmed
  | _ => false

/-- The session counts against its owner. -/
def occupiesSlot (darwin : Bool) (record : SessionRecord) : Bool :=
  !(terminalDirectChild darwin record || noChildStarted record)

/-- The name under which a session is counted. -/
def ownerKey (record : SessionRecord) : String :=
  record.parentSessionId ++ "\x00" ++ record.ownerProjectDirectory ++ "\x00" ++
    record.ownerCapabilityHash

/-- The output bytes a record is charged with. -/
def outputReservation (darwin : Bool) (record : SessionRecord) : Int :=
  if occupiesSlot darwin record then
    max (record.outputLimitBytes.getD maxOutputBytes) record.outputBytes
  else record.outputBytes

/-! ## Session tables -/

namespace SessionTables

variable (tables : SessionTables)

/-- The session takes a slot. -/
def addActive (id ownerKey : String) : SessionTables :=
  { tables with
    ownerSlots := addMember tables.ownerSlots ownerKey id
    slotOwnerBySessionId := tables.slotOwnerBySessionId.insert id ownerKey }

/-- The session is recorded under its owner. -/
def addRecord (id ownerKey : String) : SessionTables :=
  { tables with
    recordsByOwner := addMember tables.recordsByOwner ownerKey id
    recordOwnerBySessionId := tables.recordOwnerBySessionId.insert id ownerKey }

/-- The owner of a session, where an empty key counts as none. -/
def known (owners : Map String String) (id : String) : Option String :=
  (owners.lookup id).filter (· ≠ "")

/-- The session gives back its slot. -/
def releaseActive (id : String) : SessionTables :=
  match known tables.slotOwnerBySessionId id with
  | none => tables
  | some ownerKey =>
    { tables with
      ownerSlots := removeMember tables.ownerSlots ownerKey id
      slotOwnerBySessionId := tables.slotOwnerBySessionId.erase id }

/-- The output of the session is counted. -/
def setOutput (id ownerKey : String) (bytes : Int) : SessionTables :=
  let delta := bytes - amount tables.outputBySessionId id
  { tables with
    outputBySessionId := store tables.outputBySessionId id bytes
    outputTotal := tables.outputTotal + delta
    outputByOwner :=
      store tables.outputByOwner ownerKey (amount tables.outputByOwner ownerKey + delta) }

/-- The output of the record is counted, where the session is known. -/
def updateOutput (darwin : Bool) (record : SessionRecord) : SessionTables :=
  match known tables.recordOwnerBySessionId record.id with
  | none => tables
  | some ownerKey => tables.setOutput record.id ownerKey (outputReservation darwin record)

/-- The part of `release` after the slot is free. -/
def releaseRecord (id : String) : SessionTables :=
  match known tables.recordOwnerBySessionId id with
  | none => tables
  | some ownerKey =>
    let removed : SessionTables :=
      { tables with
        recordsByOwner := removeMember tables.recordsByOwner ownerKey id
        recordOwnerBySessionId := tables.recordOwnerBySessionId.erase id }
    removed.setOutput id ownerKey 0

/-- The session gives back all it has. -/
def release (id : String) : SessionTables := (tables.releaseActive id).releaseRecord id

/-- A session that is settled gives back its slot. -/
def releaseIfSettled (darwin : Bool) (record : SessionRecord) : SessionTables :=
  (if occupiesSlot darwin record then tables else tables.releaseActive record.id).updateOutput
    darwin record

/-- The checks of `reserve`, in their order. -/
def reserveError (limits : SessionLimits) (darwin : Bool) (maxSessionsPerOwner : Nat)
    (record : SessionRecord) : Option Failure :=
  let owner := ownerKey record
  let output := outputReservation darwin record
  if (members tables.ownerSlots owner).card ≥ maxSessionsPerOwner ||
      tables.slotOwnerBySessionId.keys.card ≥ limits.maxActiveSessions then
    some ⟨"Session limit exceeded.", some "limit"⟩
  else if (members tables.recordsByOwner owner).card ≥ limits.maxRecordsPerOwner ||
      tables.recordOwnerBySessionId.keys.card ≥ limits.maxRecords then
    some ⟨"Session record limit exceeded.", some "limit"⟩
  else if amount tables.outputByOwner owner + output > limits.maxRetainedOutputBytesPerOwner ||
      tables.outputTotal + output > limits.maxRetainedOutputBytes then
    some ⟨"Retained output limit exceeded.", some "limit"⟩
  else none

/-- A place is reserved, where the limits leave room. -/
def reserve (limits : SessionLimits) (darwin : Bool) (maxSessionsPerOwner : Nat)
    (record : SessionRecord) : Except Failure SessionReservation × SessionTables :=
  match tables.reserveError limits darwin maxSessionsPerOwner record with
  | some failure => (.error failure, tables)
  | none =>
    (.ok ⟨record.id, ownerKey record, .reserved⟩,
      ((tables.addActive record.id (ownerKey record)).addRecord record.id
        (ownerKey record)).setOutput record.id (ownerKey record)
          (outputReservation darwin record))

/-- One record of `rebuildSlots`. -/
def restore (darwin : Bool) (record : SessionRecord) : SessionTables :=
  let added := tables.addRecord record.id (ownerKey record)
  (if occupiesSlot darwin record then added.addActive record.id (ownerKey record)
    else added).setOutput record.id (ownerKey record) (outputReservation darwin record)

end SessionTables

/-- The tables for the records that a daemon finds when it starts. -/
def rebuildSlots (darwin : Bool) (records : List SessionRecord) : SessionTables :=
  records.foldl (fun tables record => tables.restore darwin record) Registry.empty.toSessionTables

/-! ## Waits and queued input -/

/-- A wait is reserved, where the limits leave room. -/
def WaitTables.reserveWait (tables : WaitTables) (limits : SessionLimits)
    (record : SessionRecord) : Except Failure WaitReservation × WaitTables :=
  let owner := ownerKey record
  if (members tables.waitsBySession record.id).card ≥ limits.maxPendingWaitsPerSession ||
      (members tables.waitsByOwner owner).card ≥ limits.maxPendingWaitsPerOwner ||
      tables.waits.card ≥ limits.maxPendingWaits then
    (.error ⟨"Pending wait limit exceeded.", some "limit"⟩, tables)
  else
    (.ok ⟨tables.nextWaitId, record.id, owner, false⟩,
      { waitsBySession := addMember tables.waitsBySession record.id tables.nextWaitId
        waitsByOwner := addMember tables.waitsByOwner owner tables.nextWaitId
        waits := insert tables.nextWaitId tables.waits
        nextWaitId := tables.nextWaitId + 1 })

/-- A wait gives back its place, once. -/
def WaitTables.releaseWait (tables : WaitTables) (reservation : WaitReservation) :
    WaitReservation × WaitTables :=
  if reservation.released then (reservation, tables)
  else
    ({ reservation with released := true },
      { tables with
        waits := tables.waits.erase reservation.id
        waitsBySession :=
          removeMember tables.waitsBySession reservation.sessionId reservation.id
        waitsByOwner := removeMember tables.waitsByOwner reservation.ownerKey reservation.id })

/-- An input is reserved, where the limits leave room. -/
def InputTables.reserveInput (tables : InputTables) (limits : SessionLimits)
    (record : SessionRecord) (bytes : Nat) : Except Failure InputReservation × InputTables :=
  let owner := ownerKey record
  let sessionBytes := amount tables.inputBytesBySession record.id
  let ownerBytes := amount tables.inputBytesByOwner owner
  if sessionBytes + bytes > limits.maxQueuedInputBytesPerSession ||
      ownerBytes + bytes > limits.maxQueuedInputBytesPerOwner ||
      tables.inputBytes + bytes > limits.maxQueuedInputBytes then
    (.error ⟨"Queued input limit exceeded.", some "limit"⟩, tables)
  else
    (.ok ⟨record.id, owner, bytes, false⟩,
      { inputBytesBySession := tables.inputBytesBySession.insert record.id (sessionBytes + bytes)
        inputBytesByOwner := tables.inputBytesByOwner.insert owner (ownerBytes + bytes)
        inputBytes := tables.inputBytes + bytes })

/-- An input gives back its room, once. -/
def InputTables.releaseInput (tables : InputTables) (reservation : InputReservation) :
    InputReservation × InputTables :=
  if reservation.released then (reservation, tables)
  else
    ({ reservation with released := true },
      { inputBytesBySession :=
          subtract tables.inputBytesBySession reservation.sessionId reservation.bytes
        inputBytesByOwner :=
          subtract tables.inputBytesByOwner reservation.ownerKey reservation.bytes
        inputBytes := tables.inputBytes - reservation.bytes })

/-! ## Reservations and runs -/

/-- The session is there, and its place stays its own. -/
def commit (reservation : SessionReservation) : Except Failure SessionReservation :=
  if reservation.state ≠ .reserved then
    .error ⟨"Session reservation is no longer valid.", none⟩
  else .ok { reservation with state := .committed }

/-- A place that was not committed is given back. -/
def releaseReservation (tables : SessionTables) (reservation : SessionReservation) :
    SessionReservation × SessionTables :=
  if reservation.state = .released then (reservation, tables)
  else ({ reservation with state := .released }, tables.release reservation.id)

/-- The registry and the reservation objects it has issued. -/
structure World where
  registry : Registry
  sessions : List SessionReservation
  waits : List WaitReservation
  inputs : List InputReservation

/-- The registry of a daemon that starts with given records, none for a new data
directory. No reservation is issued yet. -/
def World.start (darwin : Bool) (records : List SessionRecord) : World where
  registry := { Registry.empty with toSessionTables := rebuildSlots darwin records }
  sessions := []
  waits := []
  inputs := []

/-- A call on the registry. Reservations are named by the order in which they were
issued, and records are given as they are when the call is made. -/
inductive Operation where
  | reserve (record : SessionRecord)
  | commit (reservation : Nat)
  | releaseReservation (reservation : Nat)
  | releaseIfSettled (record : SessionRecord)
  | release (id : String)
  | reserveWait (record : SessionRecord)
  | releaseWait (reservation : Nat)
  | reserveInput (record : SessionRecord) (bytes : Nat)
  | releaseInput (reservation : Nat)

/-- What the calls of one daemon have in common. -/
structure Settings where
  limits : SessionLimits
  maxSessionsPerOwner : Nat
  darwin : Bool

/-- One call: the error it throws, if any, and what is there afterwards. A reservation
that was never issued cannot be passed to a call. -/
def call (settings : Settings) (world : World) : Operation → Option Failure × World
  | .reserve record =>
    match world.registry.toSessionTables.reserve settings.limits settings.darwin
        settings.maxSessionsPerOwner record with
    | (.error failure, tables) =>
      (some failure, { world with registry := { world.registry with toSessionTables := tables } })
    | (.ok reservation, tables) =>
      (none, { world with
        registry := { world.registry with toSessionTables := tables }
        sessions := world.sessions ++ [reservation] })
  | .commit index =>
    match world.sessions[index]? with
    | none => (none, world)
    | some reservation =>
      match commit reservation with
      | .error failure => (some failure, world)
      | .ok committed => (none, { world with sessions := world.sessions.set index committed })
  | .releaseReservation index =>
    match world.sessions[index]? with
    | none => (none, world)
    | some reservation =>
      let result := releaseReservation world.registry.toSessionTables reservation
      (none, { world with
        registry := { world.registry with toSessionTables := result.2 }
        sessions := world.sessions.set index result.1 })
  | .releaseIfSettled record =>
    (none, { world with
      registry := { world.registry with
        toSessionTables :=
          world.registry.toSessionTables.releaseIfSettled settings.darwin record } })
  | .release id =>
    (none, { world with
      registry := { world.registry with
        toSessionTables := world.registry.toSessionTables.release id } })
  | .reserveWait record =>
    match world.registry.toWaitTables.reserveWait settings.limits record with
    | (.error failure, tables) =>
      (some failure, { world with registry := { world.registry with toWaitTables := tables } })
    | (.ok reservation, tables) =>
      (none, { world with
        registry := { world.registry with toWaitTables := tables }
        waits := world.waits ++ [reservation] })
  | .releaseWait index =>
    match world.waits[index]? with
    | none => (none, world)
    | some reservation =>
      let result := world.registry.toWaitTables.releaseWait reservation
      (none, { world with
        registry := { world.registry with toWaitTables := result.2 }
        waits := world.waits.set index result.1 })
  | .reserveInput record bytes =>
    match world.registry.toInputTables.reserveInput settings.limits record bytes with
    | (.error failure, tables) =>
      (some failure, { world with registry := { world.registry with toInputTables := tables } })
    | (.ok reservation, tables) =>
      (none, { world with
        registry := { world.registry with toInputTables := tables }
        inputs := world.inputs ++ [reservation] })
  | .releaseInput index =>
    match world.inputs[index]? with
    | none => (none, world)
    | some reservation =>
      let result := world.registry.toInputTables.releaseInput reservation
      (none, { world with
        registry := { world.registry with toInputTables := result.2 }
        inputs := world.inputs.set index result.1 })

/-- What is there after a sequence of calls. -/
def run (settings : Settings) (world : World) (operations : List Operation) : World :=
  operations.foldl (fun world operation => (call settings world operation).2) world

end OpencodePty.SessionRegistry
