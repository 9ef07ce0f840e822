import OpencodePty.OverlappingWrites
import OpencodePty.TextEncodings
import OpencodePty.Transitions

/-!
# The start of a worker

`spawn` and `nativeExecStart` write the record of a session ahead of what they do. The authority
that a receipt of the worker is checked against is on disk before the worker is launched, and the
mark that a start was attempted is on disk before the start frame goes out. The worker creates a
child only after a start frame, and instead of a start frame it takes anything else, or the end of
its input, as the order to leave a receipt that it has no child. A later daemon deletes the session
on such a receipt where the record has no start attempted.

The start is not the only one that writes the record. `writeSession` copies the record, makes the
directory of the session, and only then joins the queue of the file. While the session is being
started, a wait that settles or a conversation that is cleaned up writes the record too, and its
copy may be overtaken by a write of the start.

Either program may die at any point, and a write that fails may have landed. The command of the
session runs with the rights of the worker, and writes to the session directory what it likes.
-/

namespace OpencodePty.StartProtocol

open JsValues OverlappingWrites TextEncodings Transitions

/-! ## Authorities and receipts -/

/-- `NATIVE_WORKER_PROTOCOL_VERSION`. -/
def nativeWorkerProtocolVersion : Nat := 5

/-- What a receipt is checked against before the worker has told who it is. -/
structure WorkerPrestartAuthority where
  workerId : JsString
  tokenFingerprint : JsString
  protocolVersion : Nat
  deriving DecidableEq

/-- What the record keeps of a worker that has told who it is. -/
structure WorkerReference where
  pid : Nat
  startIdentity : JsString
  processIdentity : JsString
  endpoint : JsString
  tokenFingerprint : Option JsString
  protocolVersion : Nat

/-- What a receipt is checked against: the reference where there is one. -/
inductive Authority where
  | prestart (authority : WorkerPrestartAuthority)
  | reference (reference : WorkerReference)

/-- What a worker writes that ends without a child. -/
structure PrestartNoChildReceipt where
  receiptVersion : Nat
  kind : JsString
  workerId : JsString
  workerPid : Nat
  workerProcessIdentity : JsString
  workerEndpoint : JsString
  workerProtocolVersion : Nat
  workerControlToken : JsString

/-- What `prepare` chooses for a worker, and what the system gives it. -/
structure Launch where
  workerId : JsString
  workerControlToken : JsString
  pid : Nat
  processIdentity : JsString
  endpoint : JsString

/-- `/^[a-f0-9]{64}$/`. -/
def isFingerprint (text : JsString) : Bool :=
  text.length = 64 && text.all fun unit => isDigit unit || (0x61 ≤ unit && unit ≤ 0x66)

section Receipts

variable (fingerprint : JsString → JsString) (launch : Launch)

/-- The authority that `prepare` hands to the callback before it launches the worker. -/
def Launch.authority : WorkerPrestartAuthority :=
  ⟨launch.workerId, fingerprint launch.workerControlToken, nativeWorkerProtocolVersion⟩

/-- The reference that `prepare` makes from the descriptor of the worker. -/
def Launch.reference : WorkerReference :=
  ⟨launch.pid, launch.workerId, launch.processIdentity, launch.endpoint,
    some (fingerprint launch.workerControlToken), nativeWorkerProtocolVersion⟩

/-- `write_prestart_no_child`. -/
def Launch.receipt : PrestartNoChildReceipt :=
  ⟨1, js "prestart_no_child", launch.workerId, launch.pid, launch.processIdentity, launch.endpoint,
    nativeWorkerProtocolVersion, launch.workerControlToken⟩

/-- The checks that both kinds of authorities share. -/
def verifiedCommon (receipt : PrestartNoChildReceipt) (workerId : JsString)
    (tokenFingerprint : Option JsString) (protocolVersion : Nat) : Bool :=
  receipt.receiptVersion = 1 && receipt.kind = js "prestart_no_child" &&
    receipt.workerId = workerId &&
    receipt.workerProtocolVersion = nativeWorkerProtocolVersion &&
    protocolVersion = nativeWorkerProtocolVersion &&
    tokenFingerprint.any fun expected =>
      isFingerprint expected && fingerprint receipt.workerControlToken = expected

/-- A receipt is checked against the authority, and against what the reference tells in addition. -/
def verifiedPrestartNoChildReceipt (receipt : PrestartNoChildReceipt) : Authority → Bool
  | .prestart authority =>
    verifiedCommon fingerprint receipt authority.workerId authority.tokenFingerprint
      authority.protocolVersion
  | .reference reference =>
    verifiedCommon fingerprint receipt reference.startIdentity reference.tokenFingerprint
      reference.protocolVersion &&
    receipt.workerPid = reference.pid &&
    receipt.workerProcessIdentity = reference.processIdentity &&
    receipt.workerEndpoint = reference.endpoint

end Receipts

/-! ## The two programs -/

/-- The statuses of a session that the start tells apart. -/
inductive Status where
  | starting
  | running
  | lost
  | spawnFailed
  | ended
  deriving DecidableEq

/-- What the start reads and writes of a record. -/
structure SessionRecord where
  status : Status
  workerPrestart : Option WorkerPrestartAuthority
  worker : Option WorkerReference
  workerStartAttempted : Option Bool

/-- What the order of the writes is about. -/
structure Marks where
  workerStartAttempted : Option Bool
  workerPrestart : Option WorkerPrestartAuthority
  deriving DecidableEq

def SessionRecord.marks (record : SessionRecord) : Marks :=
  ⟨record.workerStartAttempted, record.workerPrestart⟩

/-- The mark does not say that no start was attempted. -/
def Marks.attempted (marks : Marks) : Prop := marks.workerStartAttempted ≠ some false

/-- The second record has the attempt and the authority that the first one has. -/
def SessionRecord.carried (first second : SessionRecord) : Prop :=
  (first.marks.attempted → second.marks.attempted) ∧
    (first.workerPrestart ≠ none → second.workerPrestart = first.workerPrestart)

instance (marks : Marks) : Decidable marks.attempted :=
  inferInstanceAs (Decidable (_ ≠ _))

instance (first second : SessionRecord) : Decidable (first.carried second) :=
  inferInstanceAs (Decidable (_ ∧ _))

/-- The authority that a receipt for the record is checked against, while no start was attempted. -/
def SessionRecord.prestartReceiptAuthority (record : SessionRecord) : Option Authority :=
  if record.workerStartAttempted = some false ∧ (record.status = .starting ∨
      record.status = .lost ∨ record.status = .spawnFailed) then
    record.worker.map .reference <|> record.workerPrestart.map .prestart
  else none

/-- The worker speaks another version of the protocol. -/
def SessionRecord.incompatibleWorker (record : SessionRecord) : Bool :=
  record.worker.any (·.protocolVersion ≠ nativeWorkerProtocolVersion)

/-- What the daemon does for the session. A stage of a write ends with the answer of the storage. -/
inductive Daemon where
  /-- The first write of the record. -/
  | creating
  /-- `prepare` up to the callback that keeps the authority. -/
  | preparing
  /-- The write of the authority. -/
  | authorizing
  | launching
  /-- `prepare` up to the bootstrap frame. -/
  | identifying
  /-- `prepare` awaits that the worker is ready. -/
  | bootstrapping
  /-- The write of the reference. -/
  | referencing
  /-- The write of the attempt. -/
  | attempting
  /-- The start frame is to be sent. -/
  | starting
  /-- `start` awaits the health and the first snapshot. -/
  | awaiting
  /-- The write of the started session. -/
  | readying
  | rollingBack
  /-- The error was caught, and cleaned up after. -/
  | caught (noWorkerSpawned : Bool)
  /-- The last write of a failed start. -/
  | failing (noWorkerSpawned : Bool)
  | deleting
  /-- The start has returned or failed. -/
  | returned
  | dead
  /-- A later daemon has loaded the sessions. -/
  | restarted

/-- A frame on the input of the worker. -/
inductive Frame where
  | bootstrap
  | start
  | rollback
  /-- A frame that was not written to its end. -/
  | torn
  deriving DecidableEq

/-- How far the worker has got. -/
inductive Worker where
  | absent
  | booting
  /-- The worker is ready, and reads its control frame. -/
  | controlling
  /-- The start frame was read. -/
  | spawning
  | running
  | ended
  deriving DecidableEq

/-- The two programs, what is on disk, and what is on its way there. -/
structure System where
  daemon : Daemon
  /-- The record that `spawn` or a later daemon holds. -/
  record : SessionRecord
  /-- `records.get(id) === record`. -/
  listed : Bool
  /-- The record on disk. -/
  durable : Option SessionRecord
  /-- The calls of `writeSession`. The start awaits its own. -/
  writes : Writes SessionRecord
  pipe : List Frame
  closed : Bool
  worker : Worker
  /-- The file of the receipt. -/
  receipt : Option PrestartNoChildReceipt
  /-- The daemon has begun to send a start frame. -/
  startSent : Bool
  /-- The worker has created a child. -/
  childCreated : Bool
  /-- The worker has written a receipt. -/
  receiptWritten : Bool
  /-- The session was deleted on a receipt. -/
  deletedOnReceipt : Bool

/-- What can happen next. -/
inductive Action where
  /-- A call of `writeSession` has made the directory of the session, and joins the queue. -/
  | enter (index : Nat)
  /-- A call of `writeSession` fails before it joins the queue. -/
  | miss (index : Nat)
  /-- The first write in the queue returns or fails; one that fails may have landed. -/
  | written (succeeds lands : Bool)
  /-- Another request than the start writes the record. Once the worker answers requests it may
  change the status. -/
  | request (status : Option Status)
  | prepare (succeeds : Bool)
  /-- `Bun.spawn`, and the check of the error stream after it. -/
  | launch (launched captured : Bool)
  | bootstrap (succeeds : Bool)
  /-- The worker is ready and verified; where it is not, its descriptor may have been read. -/
  | ready (verified described : Bool)
  | start (succeeds : Bool)
  | started (succeeds : Bool)
  | rollback (succeeds : Bool)
  /-- The failed start is recorded, with the status that the lifecycle gives it: `spawn_failed` with
  proof that there is no child, `lost` without, and what it was where the event is rejected. -/
  | settle (status : Status)
  | remove (succeeds : Bool)
  /-- The daemon dies; a write under way may have landed. -/
  | crash (lands : Bool)
  | restart
  | reconcile (deletes : Bool)
  | cleanup (deletes : Bool)
  /-- The session is deleted on other evidence, which a session has once its start was attempted or
  has failed. -/
  | discard
  | boot (succeeds : Bool)
  | control (stores : Bool)
  | spawnChild (succeeds : Bool)
  /-- The worker dies. -/
  | die
  /-- The command writes a receipt, or removes one. -/
  | tamper (receipt : Option PrestartNoChildReceipt)

/-- The call that joins the queue. -/
def Action.entering : Action → Option Nat
  | .enter index => some index
  | _ => none

/-- The start awaits a write. -/
def Daemon.writes : Daemon → Bool
  | .creating | .authorizing | .referencing | .attempting | .readying | .failing _ => true
  | _ => false

/-- Requests are answered for the worker, which is in `nativeWorkers` from the last write on. -/
def Daemon.serves : Daemon → Bool
  | .readying | .rollingBack | .caught false | .failing false | .returned | .restarted => true
  | _ => false

def Daemon.alive : Daemon → Bool
  | .dead => false
  | _ => true

namespace System

variable (fingerprint : JsString → JsString) (launched : Launch) (system : System)

/-- The start comes to a stage. Where it writes there, it takes a copy of the record. -/
def goto (daemon : Daemon) : System :=
  { system with
    daemon
    writes := if daemon.writes then system.writes.make system.record true else system.writes }

/-- A write of the start has returned. -/
def afterWrite : System :=
  match system.daemon with
  | .creating => system.goto .preparing
  | .authorizing => system.goto .launching
  | .referencing =>
    { system with record := { system.record with workerStartAttempted := some true } }.goto
      .attempting
  | .attempting => system.goto .starting
  | .readying => system.goto .returned
  | .failing noWorkerSpawned => system.goto (if noWorkerSpawned then .deleting else .returned)
  | _ => system

/-- A write of the start has failed. -/
def afterFailedWrite : System :=
  match system.daemon with
  | .creating => { system with listed := false }.goto .returned
  | .authorizing => system.goto (.caught true)
  | .referencing | .readying => system.goto .rollingBack
  | .attempting =>
    { system with record := { system.record with workerStartAttempted := some false } }.goto
      .rollingBack
  | .failing _ => system.goto .returned
  | _ => system

/-- The copy of the first write in the queue is on disk, or the disk is as it was. -/
def land (lands : Bool) : System :=
  match system.writes.queue with
  | call :: _ => if lands then { system with durable := some call.copy } else system
  | [] => system

/-- The start goes on where the call that is over was its own. -/
def resume (call : Call SessionRecord) (succeeds : Bool) : System :=
  if call.awaited then if succeeds then system.afterWrite else system.afterFailedWrite
  else system

/-- The turn of the first write in the queue is over. -/
def written (succeeds lands : Bool) : System :=
  match system.writes.queue with
  | call :: _ =>
    { system.land (succeeds || lands) with writes := system.writes.next }.resume call succeeds
  | [] => system

/-- A call of `writeSession` fails before it comes to the queue. -/
def miss (index : Nat) : System :=
  match system.writes.calls[index]? with
  | some call => { system with writes := system.writes.miss index }.resume call false
  | none => system

/-- Another request changes the record and calls `writeSession`. -/
def request (status : Option Status) : System :=
  let record := if system.daemon.serves then
    { system.record with status := status.getD system.record.status } else system.record
  if system.daemon.alive then
    { system with record, writes := system.writes.make record false }
  else system

/-- A deletion of the session. What is on its way to the disk is not held up. -/
def delete : System := { system with durable := none, listed := false }

/-- A frame is put into the pipe. -/
def send (frame : Frame) : System := { system with pipe := system.pipe ++ [frame] }

/-- The steps of `spawn` between its writes. -/
def spawn : Action → System
  | .prepare succeeds =>
    match system.daemon with
    | .preparing =>
      if succeeds then
        { system with
          record := { system.record with
            workerPrestart := some (launched.authority fingerprint)
            workerStartAttempted := some false } }.goto .authorizing
      else system.goto (.caught true)
    | _ => system
  | .launch spawned captured =>
    match system.daemon with
    | .launching =>
      if spawned then
        { system with worker := .booting }.goto (if captured then .identifying else .caught true)
      else system.goto (.caught true)
    | _ => system
  | .bootstrap succeeds =>
    match system.daemon with
    | .identifying =>
      if succeeds then
        (system.send .bootstrap).goto .bootstrapping
      else { system with closed := true }.goto (.caught false)
    | _ => system
  | .ready verified described =>
    match system.daemon with
    | .bootstrapping =>
      let referenced : SessionRecord := { system.record with
        worker := some (launched.reference fingerprint), workerStartAttempted := some false }
      if verified then { system with record := referenced }.goto .referencing
      else
        { system with
          closed := true
          record := if described then referenced else system.record }.goto (.caught false)
    | _ => system
  | .start succeeds =>
    match system.daemon with
    | .starting =>
      { system.send (if succeeds then .start else .torn) with startSent := true }.goto
        (if succeeds then .awaiting else .rollingBack)
    | _ => system
  | .started succeeds =>
    match system.daemon with
    | .awaiting =>
      if succeeds then
        { system with record := { system.record with status := .running } }.goto .readying
      else system.goto .rollingBack
    | _ => system
  | .rollback succeeds =>
    match system.daemon with
    | .rollingBack =>
      if succeeds then
        { system.send .rollback with closed := true }.goto (.caught false)
      else system.goto (.caught false)
    | _ => system
  | .settle status =>
    match system.daemon with
    | .caught noWorkerSpawned =>
      { system with record := { system.record with status } }.goto (.failing noWorkerSpawned)
    | _ => system
  | .remove succeeds =>
    match system.daemon with
    | .deleting => if succeeds then system.delete.goto .returned else system.goto .returned
    | _ => system
  | _ => system

/-- `hasVerifiedPrestartNoChildReceipt` for the authority of the record. -/
def receiptVerified : Bool :=
  match system.record.prestartReceiptAuthority, system.receipt with
  | some authority, some receipt => verifiedPrestartNoChildReceipt fingerprint receipt authority
  | _, _ => false

/-- The session is deleted if its receipt is verified. -/
def deleteOnReceipt (deletes : Bool) : System :=
  if system.listed && system.receiptVerified fingerprint && deletes then
    { system.delete with deletedOnReceipt := true }
  else system

/-- Reading a frame on the input of the worker. Nothing where it waits. -/
def readFrame : Option (Option Frame × List Frame) :=
  match system.pipe with
  | frame :: rest => some (some frame, rest)
  | [] => if system.closed then some (none, []) else none

/-- `main` of the worker up to its control frame. -/
def boot (succeeds : Bool) : System :=
  match system.worker, system.readFrame with
  | .booting, some (some .bootstrap, rest) =>
    { system with pipe := rest, worker := if succeeds then .controlling else .ended }
  | .booting, some (_, rest) => { system with pipe := rest, worker := .ended }
  | _, _ => system

/-- The control frame of the worker. Whatever is not a start frame leaves a receipt. -/
def control (stores : Bool) : System :=
  match system.worker, system.readFrame with
  | .controlling, some (some .start, rest) => { system with pipe := rest, worker := .spawning }
  | .controlling, some (_, rest) =>
    if stores then
      { system with
        pipe := rest
        worker := .ended
        receipt := some launched.receipt
        receiptWritten := true }
    else { system with pipe := rest, worker := .ended }
  | _, _ => system

def spawnChild (succeeds : Bool) : System :=
  match system.worker with
  | .spawning =>
    if succeeds then { system with worker := .running, childCreated := true }
    else { system with worker := .ended }
  | _ => system

/-- A daemon that dies takes along what was not in the hands of the system. A later one that finds
no record does not know the session. -/
def step (action : Action) : System :=
  match action with
  | .enter index => { system with writes := system.writes.enter index }
  | .miss index => system.miss index
  | .written succeeds lands => system.written succeeds lands
  | .request status => system.request status
  | .crash lands =>
    { system.land lands with daemon := .dead, closed := true, writes := .idle }
  | .restart =>
    match system.daemon, system.durable with
    | .dead, some record => { system with daemon := .restarted, record, listed := true }
    | _, _ => system
  | .reconcile deletes =>
    match system.daemon with
    | .restarted =>
      if system.record.incompatibleWorker then system
      else system.deleteOnReceipt fingerprint deletes
    | _ => system
  | .cleanup deletes =>
    if system.daemon.alive then system.deleteOnReceipt fingerprint deletes else system
  | .discard =>
    if system.daemon.alive ∧ system.listed ∧
        (system.record.status ≠ .starting ∨ system.record.workerStartAttempted = some true) then
      system.delete
    else system
  | .boot succeeds => system.boot succeeds
  | .control stores => system.control launched stores
  | .spawnChild succeeds => system.spawnChild succeeds
  | .die => if system.worker = .absent then system else { system with worker := .ended }
  | .tamper receipt => if system.childCreated then { system with receipt } else system
  | _ => system.spawn fingerprint launched action

/-- A session that `spawn` is about to write for the first time. -/
def opened : System where
  daemon := .creating
  record := ⟨.starting, none, none, none⟩
  listed := true
  durable := none
  writes := Writes.idle.make ⟨.starting, none, none, none⟩ true
  pipe := []
  closed := false
  worker := .absent
  receipt := none
  startSent := false
  childCreated := false
  receiptWritten := false
  deletedOnReceipt := false

/-- A write of the start overtakes no call of `writeSession` whose copy lacks the attempt or the
authority that its own has. -/
def InOrder (action : Action) : Prop :=
  ∀ index ∈ action.entering, system.writes.InOrder SessionRecord.carried index

instance (action : Action) : Decidable (system.InOrder action) :=
  inferInstanceAs (Decidable (∀ _ ∈ _, _))

end System

/-- What the order of the writes gives. -/
structure WriteAhead (fingerprint : JsString → JsString) (launched : Launch) (system : System) :
    Prop where
  /-- A record on disk without an attempted start means that no start frame was sent. -/
  unattempted : ∀ record, system.durable = some record →
    record.workerStartAttempted = some false → system.startSent = false
  /-- Whatever step launches the worker finds its authority on disk. -/
  authorized : ∀ action, system.worker = .absent →
    (system.step fingerprint launched action).worker ≠ .absent →
    ∃ record, system.durable = some record ∧
      record.workerPrestart = some (launched.authority fingerprint)
  /-- A worker that wrote a receipt has no child and never creates one. -/
  receipt : system.receiptWritten = true →
    ∀ later, (run (System.step fingerprint launched) system later).childCreated = false
  /-- A session is deleted on a receipt only if its worker has no child and never creates one. -/
  deleted : system.deletedOnReceipt = true →
    ∀ later, (run (System.step fingerprint launched) system later).childCreated = false

end OpencodePty.StartProtocol
