import OpencodePty.RecordChecks
import OpencodePty.StartSafety
import OpencodePty.TerminalPruning

/-!
# Deletion on evidence

With its directory a session loses the descriptor and the receipts of its worker, which are all
that could still stop the worker. Three functions of the supervisor delete the directory: the
initialization for a session that was never activated, the reconciliation for one whose worker
left a receipt that it has no child, and `cleanup` for these and for a session whose child is
proven to be gone. Each of them is compared here with the evidence that permits it.

The receipts and the descriptor are files that anybody with the rights of the daemon may have
written, so they are read as any value, or as nothing where they are missing or not parsed. The
digest of a token is a parameter. Reconciliation polls the files a number of times, and each poll
reads them anew.
-/

namespace OpencodePty.EvidencedDeletion

open JsValues Lifecycle NativeSnapshots SessionLanes TerminalPruning
open StartProtocol (isFingerprint)

/-! ## What a worker leaves -/

/-- The files of a worker in its session directory. -/
structure WorkerFiles where
  /-- `worker.json`. -/
  descriptor : Option Js
  /-- `prestart-no-child.json`. -/
  prestartNoChild : Option Js
  /-- `spawn-failure.json`. -/
  spawnFailure : Option Js

/-- The string that a value of type `string` is. -/
def string : Option Js → Option JsString
  | some (.str value) => some value
  | _ => none

/-- An object with exactly the listed properties. -/
def hasExactly (value : Js) (names : List String) : Bool :=
  match value with
  | .obj fields =>
    (fields.map Prod.fst).dedup.length = names.length &&
      names.all fun name => (value.get name).isSome
  | _ => false

section Files

variable (fingerprint : JsString → JsString)

/-- The digest of the token is the expected one. -/
def tokenMatches (token expected : Option Js) : Bool :=
  (string token).any fun token => same (some (.str (fingerprint token))) expected

/-- `TOKEN_FINGERPRINT.test(value)`, for a value that is a string. -/
def validFingerprint (value : Option Js) : Bool := (string value).any isFingerprint

def verifiedPrestartNoChildReceipt (receipt authority : Js) : Bool :=
  let prestart := (authority.get "workerId").isSome
  let workerId := if prestart then authority.get "workerId" else authority.get "startIdentity"
  hasExactly receipt ["receiptVersion", "kind", "workerId", "workerPid", "workerProcessIdentity",
      "workerEndpoint", "workerProtocolVersion", "workerControlToken"] &&
    isInt (receipt.get "receiptVersion") 1 &&
    isText (receipt.get "kind") "prestart_no_child" &&
    same (receipt.get "workerId") workerId &&
    isInt (receipt.get "workerProtocolVersion") nativeWorkerProtocolVersion &&
    isInt (authority.get "protocolVersion") nativeWorkerProtocolVersion &&
    validFingerprint (authority.get "tokenFingerprint") &&
    tokenMatches fingerprint (receipt.get "workerControlToken") (authority.get "tokenFingerprint") &&
    (prestart ||
      same (receipt.get "workerPid") (authority.get "pid") &&
        same (receipt.get "workerProcessIdentity") (authority.get "processIdentity") &&
        same (receipt.get "workerEndpoint") (authority.get "endpoint"))

def hasVerifiedPrestartNoChildReceipt (files : WorkerFiles) (authority : Js) : Bool :=
  files.prestartNoChild.any (verifiedPrestartNoChildReceipt fingerprint · authority)

def validDescriptor (descriptor : Js) : Bool :=
  descriptor.isObject && RecordChecks.positiveInteger (descriptor.get "pid") &&
    (string (descriptor.get "startIdentity")).isSome &&
    (string (descriptor.get "processIdentity")).isSome &&
    (string (descriptor.get "endpoint")).isSome &&
    (string (descriptor.get "token")).any (16 ≤ ·.length) &&
    isInt (descriptor.get "protocolVersion") nativeWorkerProtocolVersion

/-- The descriptor is that of the referenced worker. -/
def namesWorker (descriptor reference : Js) : Bool :=
  same (descriptor.get "pid") (reference.get "pid") &&
    same (descriptor.get "startIdentity") (reference.get "startIdentity") &&
    same (descriptor.get "processIdentity") (reference.get "processIdentity") &&
    same (descriptor.get "endpoint") (reference.get "endpoint") &&
    tokenMatches fingerprint (descriptor.get "token") (reference.get "tokenFingerprint")

def descriptorMatchesReference (descriptor reference : Js) : Bool :=
  isInt (reference.get "protocolVersion") nativeWorkerProtocolVersion &&
    validFingerprint (reference.get "tokenFingerprint") &&
    namesWorker fingerprint descriptor reference

/-- `spawn-failure.json` says that the referenced worker has no child. -/
def verifiedSpawnFailure (receipt reference : Js) : Bool :=
  hasExactly receipt ["workerId", "workerPid", "workerProcessIdentity", "workerControlToken",
      "directChildStarted", "directChildPid", "terminationConfirmed", "message"] &&
    same (receipt.get "workerId") (reference.get "startIdentity") &&
    same (receipt.get "workerPid") (reference.get "pid") &&
    same (receipt.get "workerProcessIdentity") (reference.get "processIdentity") &&
    tokenMatches fingerprint (receipt.get "workerControlToken") (reference.get "tokenFingerprint") &&
    isBool (receipt.get "directChildStarted") false &&
    same (receipt.get "directChildPid") (some .null) &&
    isBool (receipt.get "terminationConfirmed") true &&
    (string (receipt.get "message")).isSome

def hasVerifiedNoChildSpawnFailureReceipt (files : WorkerFiles) (reference : Js) : Bool :=
  isInt (reference.get "protocolVersion") nativeWorkerProtocolVersion &&
    (files.descriptor.any fun descriptor =>
      validDescriptor descriptor && descriptorMatchesReference fingerprint descriptor reference) &&
    files.spawnFailure.any (verifiedSpawnFailure fingerprint · reference)

/-- What a worker answers to `health`. -/
structure Health where
  protocolVersion : Option Js
  pid : Option Js
  processIdentity : Option Js

/-- `reconnect` returns a client. There is no health where the request fails. -/
def reconnects (files : WorkerFiles) (health : Option Health) (reference : Js) : Bool :=
  isInt (reference.get "protocolVersion") nativeWorkerProtocolVersion &&
    files.descriptor.any fun descriptor =>
      validDescriptor descriptor && namesWorker fingerprint descriptor reference &&
        truthy (reference.get "tokenFingerprint") &&
        health.any fun health =>
          same health.protocolVersion (descriptor.get "protocolVersion") &&
            same health.pid (reference.get "pid") &&
            same health.processIdentity (reference.get "processIdentity")

end Files

/-! ## The files of the start protocol -/

/-- The file of a receipt. -/
def receiptFile (receipt : StartProtocol.PrestartNoChildReceipt) : Js :=
  record [("receiptVersion", some (.int receipt.receiptVersion)), ("kind", some (.str receipt.kind)),
    ("workerId", some (.str receipt.workerId)), ("workerPid", some (.int receipt.workerPid)),
    ("workerProcessIdentity", some (.str receipt.workerProcessIdentity)),
    ("workerEndpoint", some (.str receipt.workerEndpoint)),
    ("workerProtocolVersion", some (.int receipt.workerProtocolVersion)),
    ("workerControlToken", some (.str receipt.workerControlToken))]

/-- The authority as the record has it. -/
def authorityValue : StartProtocol.Authority → Js
  | .prestart authority =>
    record [("workerId", some (.str authority.workerId)),
      ("tokenFingerprint", some (.str authority.tokenFingerprint)),
      ("protocolVersion", some (.int authority.protocolVersion))]
  | .reference reference =>
    record [("pid", some (.int reference.pid)), ("startIdentity", some (.str reference.startIdentity)),
      ("processIdentity", some (.str reference.processIdentity)),
      ("endpoint", some (.str reference.endpoint)),
      ("tokenFingerprint", reference.tokenFingerprint.map .str),
      ("protocolVersion", some (.int reference.protocolVersion))]

/-- A version of the protocol, as a value and as a number. -/
theorem isInt_natural (number expected : Nat) :
    isInt (some (.int number)) expected = true ↔ number = expected := by
  simp only [isInt, Js.int, beq_iff_eq]
  omega

theorem same_natural (first second : Nat) :
    same (some (.int first)) (some (.int second)) = true ↔ first = second := by
  simp only [same, Js.int, beq_iff_eq, JsNumber.integer.injEq]
  omega

theorem same_string (first second : JsString) :
    same (some (.str first)) (some (.str second)) = true ↔ first = second := by
  simp [same]

/-- The properties of the file of a receipt. -/
theorem get_receiptFile (receipt : StartProtocol.PrestartNoChildReceipt) :
    (receiptFile receipt).get "receiptVersion" = some (.int receipt.receiptVersion) ∧
      (receiptFile receipt).get "kind" = some (.str receipt.kind) ∧
      (receiptFile receipt).get "workerId" = some (.str receipt.workerId) ∧
      (receiptFile receipt).get "workerPid" = some (.int receipt.workerPid) ∧
      (receiptFile receipt).get "workerProcessIdentity" =
        some (.str receipt.workerProcessIdentity) ∧
      (receiptFile receipt).get "workerEndpoint" = some (.str receipt.workerEndpoint) ∧
      (receiptFile receipt).get "workerProtocolVersion" =
        some (.int receipt.workerProtocolVersion) ∧
      (receiptFile receipt).get "workerControlToken" = some (.str receipt.workerControlToken) :=
  ⟨rfl, rfl, rfl, rfl, rfl, rfl, rfl, rfl⟩

/-- The check of a file is the check of the receipt in it. -/
theorem verified_file (fingerprint : JsString → JsString)
    (receipt : StartProtocol.PrestartNoChildReceipt) (authority : StartProtocol.Authority) :
    verifiedPrestartNoChildReceipt fingerprint (receiptFile receipt) (authorityValue authority) =
      StartProtocol.verifiedPrestartNoChildReceipt fingerprint receipt authority := by
  have exactly : hasExactly (receiptFile receipt) ["receiptVersion", "kind", "workerId", "workerPid",
      "workerProcessIdentity", "workerEndpoint", "workerProtocolVersion", "workerControlToken"] =
        true := by
    have distinct : ["receiptVersion", "kind", "workerId", "workerPid", "workerProcessIdentity",
        "workerEndpoint", "workerProtocolVersion", "workerControlToken"].dedup.length = 8 := by
      decide
    simp only [hasExactly, receiptFile, record, List.filterMap_cons, List.filterMap_nil,
      Option.map_some, List.map_cons, List.map_nil, distinct]
    simp [Js.get]
  have kind (text : JsString) : isText (some (.str text)) "prestart_no_child" = true ↔
      text = js "prestart_no_child" := by simp [isText]
  have first (number : Nat) : isInt (some (.int number)) 1 = true ↔ number = 1 :=
    isInt_natural number 1
  have version (number : Nat) :
      isInt (some (.int number)) nativeWorkerProtocolVersion = true ↔
        number = StartProtocol.nativeWorkerProtocolVersion :=
    isInt_natural number StartProtocol.nativeWorkerProtocolVersion
  obtain ⟨receiptVersion, kindRead, workerId, pid, identity, endpoint, protocol, token⟩ :=
    get_receiptFile receipt
  rw [Bool.eq_iff_iff]
  cases authority with
  | prestart authority =>
    have name : (authorityValue (.prestart authority)).get "workerId" =
        some (.str authority.workerId) := rfl
    have spoken : (authorityValue (.prestart authority)).get "protocolVersion" =
        some (.int authority.protocolVersion) := rfl
    have expected : (authorityValue (.prestart authority)).get "tokenFingerprint" =
        some (.str authority.tokenFingerprint) := rfl
    simp only [verifiedPrestartNoChildReceipt, exactly, receiptVersion, kindRead, workerId, protocol,
      token, name, spoken, expected, Option.isSome_some, if_true, first, kind, version, same_string,
      validFingerprint, tokenMatches, string, Option.any_some, Bool.and_eq_true, true_and,
      StartProtocol.verifiedPrestartNoChildReceipt, StartProtocol.verifiedCommon, decide_eq_true_eq,
      Bool.true_or, and_true, and_assoc]
  | reference reference =>
    have unnamed : (authorityValue (.reference reference)).get "workerId" = none := by
      cases held : reference.tokenFingerprint <;> simp only [authorityValue, held] <;> rfl
    have name : (authorityValue (.reference reference)).get "startIdentity" =
        some (.str reference.startIdentity) := rfl
    have known : (authorityValue (.reference reference)).get "pid" = some (.int reference.pid) := rfl
    have process : (authorityValue (.reference reference)).get "processIdentity" =
        some (.str reference.processIdentity) := rfl
    have reached : (authorityValue (.reference reference)).get "endpoint" =
        some (.str reference.endpoint) := rfl
    have spoken : (authorityValue (.reference reference)).get "protocolVersion" =
        some (.int reference.protocolVersion) := by
      cases held : reference.tokenFingerprint <;> simp only [authorityValue, held] <;> rfl
    have expected : (authorityValue (.reference reference)).get "tokenFingerprint" =
        reference.tokenFingerprint.map .str := by
      cases held : reference.tokenFingerprint <;> simp only [authorityValue, held] <;> rfl
    simp only [verifiedPrestartNoChildReceipt, exactly, receiptVersion, kindRead, workerId, protocol,
      token, pid, identity, endpoint, unnamed, name, known, process, reached, spoken, expected,
      Option.isSome_none, Bool.false_eq_true, if_false, first, kind, version, same_string,
      same_natural, validFingerprint, tokenMatches, Bool.and_eq_true, true_and, Bool.false_or,
      StartProtocol.verifiedPrestartNoChildReceipt, StartProtocol.verifiedCommon, decide_eq_true_eq,
      and_assoc]
    cases reference.tokenFingerprint with
    | none => simp [string]
    | some expected => simp [string, same, and_assoc]

/-! ## The three functions -/

/-- What a cleanup or a reconciliation of a session finds and is answered. -/
structure Found where
  files : WorkerFiles
  health : Option Health
  /-- What the worker answers to `shutdown`. -/
  shutdown : Option WorkerSnapshot
  flushed : Bool
  /-- What comes of a finalization that is under way. -/
  finalized : Bool

section Functions

variable (darwin : Bool) (fingerprint : JsString → JsString)

/-- The answers that the receipts and the descriptor amount to, where the deletion succeeds. -/
def Found.answers (found : Found) (record : SessionRecord) : Answers where
  flushed := found.flushed
  finalized := found.finalized
  prestartReceipt := (prestartReceiptAuthority record).any
    (hasVerifiedPrestartNoChildReceipt fingerprint found.files)
  spawnFailureReceipt := record.fields.worker.any
    (hasVerifiedNoChildSpawnFailureReceipt fingerprint found.files)
  reconnects := record.fields.worker.any (reconnects fingerprint found.files found.health)
  shutdown := found.shutdown
  deletes := some true

/-- `cleanup` goes on to delete the session. -/
def cleanupDeletes (entry : Entry) (found : Found) : Bool :=
  entry.cleanup darwin (found.answers fingerprint entry.session.record) = .returned true

/-- A session of which no worker was ever launched. -/
def neverLaunched (record : SessionRecord) : Bool :=
  isText record.fields.status "starting" && !truthy record.fields.worker &&
    !truthy record.fields.workerPrestart

/-- `initialize` goes on to delete the session. -/
def initializeDeletes (record : SessionRecord) : Bool :=
  noChildSpawnFailure record || neverLaunched record

/-- The record of a loaded session, with what `initialize` does about an incompatible worker. -/
def initializeRecord (record : SessionRecord) (message : JsString) : SessionRecord :=
  if truthy record.fields.worker &&
      !isInt (field record.fields.worker "protocolVersion") nativeWorkerProtocolVersion &&
      !record.terminalDirectChild darwin then
    let next := record.moved darwin .unreachable
    { next with fields := { next.fields with
        terminationConfirmed := some (.bool false)
        exitReason := some (WorkerSnapshot.unknownReason message) } }
  else record

/-- `initialize` for one loaded session. Nothing is left where it was deleted; a deletion that
fails leaves the session as if it had not been tried. -/
def initializeLoaded (record : SessionRecord) (deletes : Bool) (message : JsString) :
    Option SessionRecord :=
  if initializeDeletes record && deletes then none else some (initializeRecord darwin record message)

/-- The filter of `reconcileWorkers`. -/
def reconciled (entry : Entry) : Bool :=
  let record := entry.session.record
  !incompatibleWorker record &&
    (!truthy record.fields.legacyTombstone || isBool record.fields.pendingCleanup true) &&
    ((prestartReceiptAuthority record).isSome || postStartNoChildFailureEligible record ||
      !entry.conversation && (record.activeStatus || record.lost) ||
      isBool record.fields.pendingCleanup true && (record.activeStatus || record.lost))

/-- What `reconcileWorker` does for a session. -/
inductive Reconciliation where
  | skipped
  | deletes
  /-- The worker is connected, and `cleanupConversation` goes on. -/
  | cleansUp
  /-- A lost session came back with this snapshot. -/
  | recovers (record : SessionRecord) (snapshot : WorkerSnapshot)
  /-- The snapshot of the connected worker failed. -/
  | rejected
  /-- The worker is connected and monitored. -/
  | monitors
  /-- The worker could not be reached. The record is written as lost, with what is left of its
  output counted anew. -/
  | loses (record : SessionRecord)

/-- What `storage.readOutput` finds of the output of a session. -/
structure OutputLeft where
  bytes : Nat
  lines : Nat
  partialLine : Bool

/-- `reconcileWorker`. Every poll finds the files anew; the receipt of a spawn failure is read once,
before the polls that try to reconnect. -/
def reconcileWorker (entry : Entry) (found : Found) (polls : List Found)
    (snapshot : Option WorkerSnapshot) (output : OutputLeft) : Reconciliation :=
  let record := entry.session.record
  if incompatibleWorker record then .skipped
  else match prestartReceiptAuthority record with
    | some authority =>
      if polls.any fun poll => hasVerifiedPrestartNoChildReceipt fingerprint poll.files authority then
        .deletes
      else .skipped
    | none =>
      if postStartNoChildFailureEligible record && record.fields.worker.any
          (hasVerifiedNoChildSpawnFailureReceipt fingerprint found.files) then .deletes
      else if record.fields.worker.any fun reference =>
          polls.any fun poll => reconnects fingerprint poll.files poll.health reference then
        if truthy record.fields.pendingCleanup then .cleansUp
        else if record.lost then
          match snapshot with
          | none => .rejected
          | some result =>
            if result.status = .lost then .skipped
            else match record.transition darwin .recovered record with
              | none => .skipped
              | some recovered => .recovers recovered result
        else .monitors
      else
        let next := record.moved darwin .unreachable
        .loses { next with
          fields := { next.fields with exitReason := some (WorkerSnapshot.kindOnly "unknown") }
          outputBytes := output.bytes
          lineCount := output.lines
          outputHasPartialLine := output.partialLine }

/-- `reconcileWorkers` for one session. -/
def reconcile (entry : Entry) (found : Found) (polls : List Found)
    (snapshot : Option WorkerSnapshot) (output : OutputLeft) : Reconciliation :=
  if reconciled entry then reconcileWorker darwin fingerprint entry found polls snapshot output
  else .skipped

end Functions

/-! ## Evidence -/

section Evidence

variable (darwin : Bool) (fingerprint : JsString → JsString)

/-- A terminal conversation whose worker has to show anew that its child is gone: it is not lost,
this daemon holds no client for its worker, and has not seen its worker shut down. -/
structure NeedsFreshResponse (entry : Entry) : Prop where
  conversation : entry.conversation = true
  present : entry.session.record.lost = false
  worker : entry.session.record.fields.worker.isSome = true
  detached : entry.session.attached = false
  unconfirmed : entry.shutdownConfirmed = false

/-- What permits the deletion of a session. -/
inductive Evidence (entry : Entry) (found : Found) : Prop where
  | spawnFailure (failed : noChildSpawnFailure entry.session.record = true)
  | neverLaunched (starting : neverLaunched entry.session.record = true)
  | prestartReceipt (authority receipt : Js)
      (known : prestartReceiptAuthority entry.session.record = some authority)
      (left : found.files.prestartNoChild = some receipt)
      (verified : verifiedPrestartNoChildReceipt fingerprint receipt authority = true)
  | spawnFailureReceipt (reference : Js)
      (known : entry.session.record.fields.worker = some reference)
      (started : postStartNoChildFailureEligible entry.session.record = true)
      (verified : hasVerifiedNoChildSpawnFailureReceipt fingerprint found.files reference = true)
  | recorded (shown : entry.session.record.terminalDirectChild darwin = true)
      (settled : ¬ NeedsFreshResponse entry)
  | answered (snapshot : WorkerSnapshot) (response : found.shutdown = some snapshot)
      (authenticated : entry.session.attached = true ∨ ∃ reference,
        entry.session.record.fields.worker = some reference ∧
          reconnects fingerprint found.files found.health reference = true)
      (shown : snapshot.nativeTerminalProof darwin = true)

/-- The worker of the record speaks another version of the protocol. -/
def Incompatible (record : SessionRecord) : Prop :=
  truthy record.fields.worker = true ∧
    isInt (field record.fields.worker "protocolVersion") nativeWorkerProtocolVersion = false

/-- The deletion of a session is permitted, and no incompatible worker is lost by it whose session
is not proven to be over. -/
structure Permitted (entry : Entry) (found : Found) : Prop where
  evidence : Evidence darwin fingerprint entry found
  compatible : Incompatible entry.session.record →
    entry.session.record.terminalDirectChild darwin = true

end Evidence

section Proofs

variable {darwin : Bool} {fingerprint : JsString → JsString} {entry : Entry} {found : Found}

/-- A record without a worker has no incompatible one. -/
theorem compatible_without {record : SessionRecord} (without : truthy record.fields.worker = false) :
    ¬ Incompatible record := by
  intro incompatible
  rw [incompatible.1] at without
  cases without

/-- A worker that is compatible in the words of the code is so. -/
theorem compatible_of {record : SessionRecord} (compatible : incompatibleWorker record = false) :
    ¬ Incompatible record := by
  intro incompatible
  obtain ⟨present, differs⟩ := incompatible
  cases worker : record.fields.worker with
  | none => simp [worker, truthy] at present
  | some reference =>
    rw [incompatibleWorker, differs, worker] at compatible
    cases compatible

/-- The authority of a receipt is the worker, where there is one. -/
theorem authority_worker {record : SessionRecord} {authority : Js}
    (known : prestartReceiptAuthority record = some authority)
    (present : truthy record.fields.worker = true) : record.fields.worker = some authority := by
  unfold prestartReceiptAuthority at known
  split at known
  · cases worker : record.fields.worker with
    | none => simp [worker, truthy] at present
    | some reference =>
      rw [worker] at known present
      cases reference with
      | null => cases present
      | _ => exact known
  · cases known

/-- A verified receipt is about a worker that speaks the protocol of this daemon. -/
theorem verified_compatible {record : SessionRecord} {authority receipt : Js}
    (known : prestartReceiptAuthority record = some authority)
    (verified : verifiedPrestartNoChildReceipt fingerprint receipt authority = true) :
    ¬ Incompatible record := by
  rintro ⟨present, differs⟩
  have worker := authority_worker known present
  have version : isInt (authority.get "protocolVersion") nativeWorkerProtocolVersion = true := by
    simp only [verifiedPrestartNoChildReceipt, Bool.and_eq_true] at verified
    exact verified.1.1.1.2
  rw [worker, field, Option.bind_some, version] at differs
  cases differs

/-- `initialize` deletes on evidence. -/
theorem initialize_permitted (deletes : initializeDeletes entry.session.record = true) :
    Permitted darwin fingerprint entry found := by
  simp only [initializeDeletes, Bool.or_eq_true] at deletes
  obtain failed | starting := deletes
  · refine ⟨.spawnFailure failed, ?_⟩
    simp only [noChildSpawnFailure, Bool.and_eq_true, Bool.not_eq_true'] at failed
    exact fun incompatible => absurd incompatible (compatible_without failed.1.1)
  · refine ⟨.neverLaunched starting, ?_⟩
    simp only [neverLaunched, Bool.and_eq_true, Bool.not_eq_true'] at starting
    exact fun incompatible => absurd incompatible (compatible_without starting.1.2)

/-- A receipt that was found for the session permits its deletion. -/
theorem prestart_permitted {authority : Js}
    (known : prestartReceiptAuthority entry.session.record = some authority)
    (left : hasVerifiedPrestartNoChildReceipt fingerprint found.files authority = true) :
    Permitted darwin fingerprint entry found := by
  obtain ⟨receipt, stored, verified⟩ := Option.any_eq_true _ _ |>.mp left
  exact ⟨.prestartReceipt authority receipt known stored verified,
    fun incompatible => absurd incompatible (verified_compatible known verified)⟩

theorem spawnFailure_permitted (compatible : incompatibleWorker entry.session.record = false)
    (started : postStartNoChildFailureEligible entry.session.record = true)
    (left : (entry.session.record.fields.worker.any
      (hasVerifiedNoChildSpawnFailureReceipt fingerprint found.files)) = true) :
    Permitted darwin fingerprint entry found := by
  obtain ⟨reference, known, verified⟩ := Option.any_eq_true _ _ |>.mp left
  exact ⟨.spawnFailureReceipt reference known started verified,
    fun incompatible => absurd incompatible (compatible_of compatible)⟩

theorem recorded_permitted (shown : entry.session.record.terminalDirectChild darwin = true)
    (settled : ¬ NeedsFreshResponse entry) : Permitted darwin fingerprint entry found :=
  ⟨.recorded shown settled, fun _ => shown⟩

/-- The session is connected to its worker. -/
theorem connected_authenticated
    (connected : (entry.session.attached || entry.session.record.fields.worker.any
      (reconnects fingerprint found.files found.health)) = true) :
    entry.session.attached = true ∨ ∃ reference,
      entry.session.record.fields.worker = some reference ∧
        reconnects fingerprint found.files found.health reference = true := by
  rw [Bool.or_eq_true, Option.any_eq_true] at connected
  exact connected

/-- The cleanup of a lost session deletes it on evidence. -/
theorem cleanupLost_permitted (lost : entry.session.record.lost = true)
    (deletes : entry.cleanupLost darwin (found.answers fingerprint entry.session.record) =
      .returned true) : Permitted darwin fingerprint entry found := by
  unfold Entry.cleanupLost at deletes
  simp only at deletes
  split at deletes
  next shown =>
    refine recorded_permitted shown ?_
    intro fresh
    rw [fresh.present] at lost
    cases lost
  next =>
    split at deletes
    · cases deletes
    next compatible =>
      split at deletes
      · cases deletes
      next connected =>
        split at deletes
        next snapshot response =>
          split at deletes
          next shown =>
            have authenticated := @connected_authenticated fingerprint entry found (by
              simp only [Found.answers] at connected
              revert connected
              cases entry.session.attached <;> simp)
            exact ⟨.answered snapshot response authenticated shown,
              fun incompatible => absurd incompatible
                (compatible_of (Bool.eq_false_iff.mpr compatible))⟩
          · cases deletes
        · cases deletes

/-- The cleanup of a session that is not lost deletes it on evidence. -/
theorem cleanupTerminal_permitted
    (deletes : entry.cleanupTerminal darwin (found.answers fingerprint entry.session.record) =
      .returned true) : Permitted darwin fingerprint entry found := by
  unfold Entry.cleanupTerminal at deletes
  simp only at deletes
  split at deletes
  · cases deletes
  next terminal =>
    have shown : entry.session.record.terminalDirectChild darwin = true := by
      simp only [SessionRecord.isTerminal, Bool.not_eq_true', Bool.not_eq_false,
        Bool.and_eq_true] at terminal
      exact terminal.2
    -- Whether a fresh response is needed, in the words of the code.
    generalize required : (entry.conversation && entry.session.record.fields.worker.isSome &&
      !entry.session.attached && !entry.shutdownConfirmed) = requires at deletes
    have settled (unneeded : requires = false) : ¬ NeedsFreshResponse entry := by
      intro fresh
      rw [unneeded] at required
      simp [fresh.conversation, fresh.worker, fresh.detached, fresh.unconfirmed] at required
    split at deletes
    · cases deletes
    next reached =>
      split at deletes
      next connected =>
        split at deletes
        next snapshot response =>
          split at deletes
          next proven =>
            have authenticated := @connected_authenticated fingerprint entry found (by
              simp only [Found.answers] at connected
              revert connected
              cases entry.session.attached <;> simp)
            exact ⟨.answered snapshot response authenticated proven, fun _ => shown⟩
          · cases deletes
        next =>
          split at deletes
          · cases deletes
          next unneeded =>
            simp only [Bool.or_eq_true, not_or, Bool.not_eq_true] at unneeded
            exact recorded_permitted shown (settled unneeded.1)
      next unconnected =>
        refine recorded_permitted shown (settled ?_)
        cases requires with
        | false => rfl
        | true =>
          rw [Bool.true_and, Bool.not_eq_true'] at reached
          exact absurd (Bool.eq_false_iff.mpr unconnected) reached

/-- `cleanup` deletes on evidence. -/
theorem cleanup_permitted (deletes : cleanupDeletes darwin fingerprint entry found = true) :
    Permitted darwin fingerprint entry found := by
  have deletes := of_decide_eq_true deletes
  unfold Entry.cleanup at deletes
  simp only at deletes
  split at deletes
  · cases deletes
  split at deletes
  · cases deletes
  split at deletes
  next failed => exact initialize_permitted (by rw [initializeDeletes, failed, Bool.true_or])
  split at deletes
  · cases deletes
  split at deletes
  next receipt =>
    obtain ⟨authority, known⟩ := Option.isSome_iff_exists.mp (Bool.and_eq_true_iff.mp receipt).1
    have left := (Bool.and_eq_true_iff.mp receipt).2
    simp only [Found.answers, known, Option.any_some] at left
    exact prestart_permitted known left
  split at deletes
  next receipt =>
    simp only [Bool.and_eq_true, Bool.not_eq_true'] at receipt
    obtain ⟨⟨compatible, started⟩, left⟩ := receipt
    exact spawnFailure_permitted compatible started left
  split at deletes
  next lost => exact cleanupLost_permitted lost deletes
  next => exact cleanupTerminal_permitted deletes

/-- `reconcileWorker` deletes on evidence that one of its polls found. -/
theorem reconcile_permitted {polls : List Found} {snapshot : Option WorkerSnapshot}
    {output : OutputLeft}
    (deletes : reconcileWorker darwin fingerprint entry found polls snapshot output = .deletes) :
    ∃ poll ∈ found :: polls, Permitted darwin fingerprint entry poll := by
  unfold reconcileWorker at deletes
  simp only at deletes
  split at deletes
  · cases deletes
  next compatible =>
    split at deletes
    next authority known =>
      split at deletes
      next left =>
        obtain ⟨poll, member, verified⟩ := List.any_eq_true.mp left
        exact ⟨poll, List.mem_cons_of_mem _ member, prestart_permitted known verified⟩
      · cases deletes
    next =>
      split at deletes
      next receipt =>
        obtain ⟨started, left⟩ := Bool.and_eq_true_iff.mp receipt
        exact ⟨found, List.mem_cons_self,
          spawnFailure_permitted (Bool.eq_false_iff.mpr compatible) started left⟩
      next =>
        split at deletes
        · split at deletes
          · cases deletes
          · split at deletes
            · split at deletes
              · cases deletes
              · split at deletes
                · cases deletes
                · split at deletes <;> cases deletes
            · cases deletes
        · cases deletes

/-- A refresh keeps a worker that the record has. -/
theorem refresh_worker (state : SessionState) (fields : LifecycleProjection)
    (present : truthy fields.worker = true) :
    (refreshSessionState darwin state fields).evidence.worker = fields.worker := by
  have kept : (observedEvidence fields).worker = fields.worker := by
    cases worker : fields.worker with
    | none => simp [worker, truthy] at present
    | some reference =>
      rw [worker] at present
      have truthful : reference.truthy = true := present
      simp [observedEvidence, worker, whenTruthy, Option.filter, truthful]
  have spread (stored : Lifecycle.Evidence) :
      (stored.spread (observedEvidence fields)).worker = fields.worker := by
    simp only [Evidence.spread, kept]
    cases worker : fields.worker with
    | none => simp [worker, truthy] at present
    | some reference => rfl
  cases state with
  | active kind stored =>
    simp only [refreshSessionState]
    split
    · exact spread stored
    · exact kept
  | terminal outcome stored =>
    simp only [refreshSessionState]
    split <;> split <;> exact kept
  | unreachable known payload stored =>
    simp only [refreshSessionState]
    split
    · exact spread stored
    · exact kept
  | cleaning target outcome known payload stored =>
    cases target with
    | terminal =>
      rw [LifecycleRuns.refresh_cleaning_terminal]
      split <;> exact kept
    | _ => exact kept

/-- A session that is found unreachable keeps its worker. -/
theorem moved_worker {record : SessionRecord} (present : truthy record.fields.worker = true) :
    (record.moved darwin .unreachable).fields.worker = record.fields.worker := by
  have reduced : (record.transition darwin .unreachable record) =
      some { record with
        state := toUnreachable (refreshSessionState darwin record.state record.fields)
          (refreshSessionState darwin record.state record.fields).isCleaning
        fields := projectSessionState
          (toUnreachable (refreshSessionState darwin record.state record.fields)
            (refreshSessionState darwin record.state record.fields).isCleaning) } := rfl
  rw [SessionRecord.moved, reduced, Option.getD_some]
  have kept := @refresh_worker darwin record.state record.fields present
  simp only [projectSessionState, toUnreachable]
  split <;> exact kept

/-- A session with an incompatible worker that is not proven to be over is left by
`initialize` as one. -/
theorem initialize_incompatible {record : SessionRecord} (deletes : Bool) (message : JsString)
    (incompatible : Incompatible record) (unproven : record.terminalDirectChild darwin = false) :
    ∃ next, initializeLoaded darwin record deletes message = some next ∧ Incompatible next ∧
      next.terminalDirectChild darwin = false := by
  have stays : initializeDeletes record = false := by
    rw [Bool.eq_false_iff]
    intro gone
    simp only [initializeDeletes, noChildSpawnFailure, neverLaunched, incompatible.1, Bool.not_true,
      Bool.and_false, Bool.false_and, Bool.or_self] at gone
    cases gone
  have worker := @moved_worker darwin record incompatible.1
  refine ⟨initializeRecord darwin record message, ?_, ?_⟩
  · rw [initializeLoaded, stays, Bool.false_and, if_neg Bool.false_ne_true]
  · rw [initializeRecord, if_pos (by rw [incompatible.1, incompatible.2, unproven]; rfl)]
    constructor
    · exact ⟨by rw [worker]; exact incompatible.1, by rw [worker]; exact incompatible.2⟩
    · rfl

end Proofs

/-- The initialization, a reconciliation and a cleanup delete a session only on evidence, whatever
its record is, whatever its worker answers and whatever the files of its directory hold. A session
with an incompatible worker that is not proven to be over is deleted by none of them, and the
initialization leaves it so. -/
theorem deletion_evidenced (darwin : Bool) (fingerprint : JsString → JsString) (entry : Entry) :
    (initializeDeletes entry.session.record = true →
      ∀ found, Permitted darwin fingerprint entry found) ∧
    (∀ found polls snapshot output,
      reconcile darwin fingerprint entry found polls snapshot output = .deletes →
        ∃ poll ∈ found :: polls, Permitted darwin fingerprint entry poll) ∧
    (∀ found, cleanupDeletes darwin fingerprint entry found = true →
      Permitted darwin fingerprint entry found) ∧
    (Incompatible entry.session.record → entry.session.record.terminalDirectChild darwin = false →
      ∀ deletes message, ∃ next,
        initializeLoaded darwin entry.session.record deletes message = some next ∧
          Incompatible next ∧ next.terminalDirectChild darwin = false) := by
  refine ⟨fun deletes found => initialize_permitted deletes, ?_,
    fun found => cleanup_permitted, fun incompatible unproven deletes message =>
      initialize_incompatible deletes message incompatible unproven⟩
  intro found polls snapshot output deletes
  unfold reconcile at deletes
  split at deletes
  · exact reconcile_permitted deletes
  · cases deletes

/-- Nothing is left by the worker, and it does not answer. -/
def nothingFound : Found := ⟨⟨none, none, none⟩, none, none, true, true⟩

/-- The authority of a worker that is being started, and has not told who it is. -/
def prestartAuthority : Js :=
  authorityValue (.prestart (StartProtocol.listening.authority StartProtocol.listeningFingerprint))

/-- What the record has of such a worker. -/
def prestartEvidence (authority : Js) : Lifecycle.Evidence :=
  { workerEvidence with
    worker := none
    prestart := some authority
    startAttempted := some (.bool false) }

/-- A session that is being started. -/
def startingEntry (authority : Js) : Entry where
  conversation := false
  updatedAt := Timestamps.newYear
  shutdownConfirmed := false
  session :=
    { startedSession with
      attached := false
      record := { startedSession.record with
        state := .active .creating (prestartEvidence authority)
        fields := projectSessionState (.active .creating (prestartEvidence authority)) } }

/-- The worker has left its receipt, and does not answer. -/
def receiptFound : Found :=
  { nothingFound with
    files := ⟨none, some (receiptFile StartProtocol.listening.receipt), none⟩ }

/-- The receipt in the file is the one that the worker writes, for the authority of the record. -/
theorem receiptFound_verified :
    hasVerifiedPrestartNoChildReceipt StartProtocol.listeningFingerprint receiptFound.files
      prestartAuthority = true := by
  have verified : StartProtocol.verifiedPrestartNoChildReceipt StartProtocol.listeningFingerprint
      StartProtocol.listening.receipt (.prestart
        (StartProtocol.listening.authority StartProtocol.listeningFingerprint)) = true := by decide
  simp only [hasVerifiedPrestartNoChildReceipt, receiptFound, Option.any_some, prestartAuthority,
    verified_file, verified]

/-- A session that is being started is deleted on a verified receipt. -/
theorem starting_deleted {fingerprint : JsString → JsString} {fields : List (String × Js)}
    (verified : hasVerifiedPrestartNoChildReceipt fingerprint receiptFound.files (.obj fields) =
      true) :
    cleanupDeletes false fingerprint (startingEntry (.obj fields)) receiptFound = true := by
  have authority : prestartReceiptAuthority (startingEntry (.obj fields)).session.record =
      some (.obj fields) := rfl
  have failure : noChildSpawnFailure (startingEntry (.obj fields)).session.record = false := rfl
  have present : (startingEntry (.obj fields)).session.present = true := rfl
  have returns (answers : Answers) :
      (startingEntry (.obj fields)).finalizationReturns answers = true := rfl
  have receipt : (receiptFound.answers fingerprint
      (startingEntry (.obj fields)).session.record).prestartReceipt = true := by
    simp only [Found.answers, authority, Option.any_some, verified]
  have flushed : (receiptFound.answers fingerprint
      (startingEntry (.obj fields)).session.record).flushed = true := rfl
  simp only [cleanupDeletes, Entry.cleanup, flushed, present, failure, returns, authority, receipt,
    Bool.not_true, Bool.false_eq_true, if_false, Option.isSome_some, Bool.and_self, if_true]
  rfl

/-- A session whose child has exited is deleted on the evidence of its record, and one whose worker
has left its receipt on that. -/
theorem deletion_evidenced_after_exit :
    (cleanupDeletes false id (endedEntry (exitedSnapshot 3)) nothingFound = true ∧
      Permitted false id (endedEntry (exitedSnapshot 3)) nothingFound) ∧
    cleanupDeletes false StartProtocol.listeningFingerprint (startingEntry prestartAuthority)
        receiptFound = true ∧
      Permitted false StartProtocol.listeningFingerprint (startingEntry prestartAuthority)
        receiptFound := by
  have exited : cleanupDeletes false id (endedEntry (exitedSnapshot 3)) nothingFound = true := by
    decide
  have left : cleanupDeletes false StartProtocol.listeningFingerprint
      (startingEntry prestartAuthority) receiptFound = true :=
    starting_deleted receiptFound_verified
  exact ⟨⟨exited, (deletion_evidenced false id _).2.2.1 nothingFound exited⟩, left,
    (deletion_evidenced false StartProtocol.listeningFingerprint _).2.2.1 receiptFound left⟩

end OpencodePty.EvidencedDeletion
