import Mathlib.Data.List.Dedup
import Mathlib.Tactic.MkIffOfInductiveProp
import OpencodePty.EvidencedDeletion

/-!
# The receipts of the worker

The worker writes its receipts as structures of the other language, whose fields are renamed when
they are turned into objects. The daemon reads them as any values, and compares them with the
authority it keeps, or with the reference that it has made from the descriptor. A receipt of a
worker is accepted for that worker alone, and an object that is accepted is such a receipt in all
that is compared.
-/

namespace OpencodePty.WorkerReceipts

open JsValues TextEncodings EvidencedDeletion
open StartProtocol (isFingerprint)
open TerminalPruning (nativeWorkerProtocolVersion)

/-! ## What the worker writes -/

/-- `PROTOCOL_VERSION` of the worker -/
def protocolVersion : Nat := 5

/-- `rename_all = "camelCase"` for the name of a field. -/
def camelCase : List Char → List Char
  | [] => []
  | '_' :: next :: rest => next.toUpper :: camelCase rest
  | character :: rest => character :: camelCase rest

/-- The object that a structure is serialized as. -/
def serialize (fields : List (String × Js)) : Js :=
  .obj (fields.map fun field => (String.ofList (camelCase field.1.toList), field.2))

/-- What the worker uses of its bootstrap for a receipt. -/
structure Bootstrap where
  workerControlToken : List Char
  workerId : List Char

/-- What the worker says of itself in its receipts. -/
structure Descriptor where
  pid : Nat
  startIdentity : List Char
  processIdentity : List Char
  endpoint : List Char
  token : List Char
  protocolVersion : Nat

/-- The text of `worker.json`. -/
def Descriptor.toJs (descriptor : Descriptor) : Js :=
  serialize [("pid", .int descriptor.pid),
    ("start_identity", .str (encode descriptor.startIdentity)),
    ("process_identity", .str (encode descriptor.processIdentity)),
    ("endpoint", .str (encode descriptor.endpoint)), ("token", .str (encode descriptor.token)),
    ("protocol_version", .int descriptor.protocolVersion)]

/-- `write_spawn_failure` -/
def writeSpawnFailure (processId : Nat) (bootstrap : Bootstrap) (descriptor : Descriptor)
    (directChildStarted : Bool) (directChildPid : Option Nat) (terminationConfirmed : Bool)
    (message : List Char) : Js :=
  serialize [("worker_id", .str (encode bootstrap.workerId)), ("worker_pid", .int processId),
    ("worker_process_identity", .str (encode descriptor.processIdentity)),
    ("worker_control_token", .str (encode bootstrap.workerControlToken)),
    ("direct_child_started", .bool directChildStarted),
    -- `None` is written as `null`.
    ("direct_child_pid", (directChildPid.map fun pid => Js.int pid).getD .null),
    ("termination_confirmed", .bool terminationConfirmed), ("message", .str (encode message))]

/-- `write_prestart_no_child` -/
def writePrestartNoChild (processId : Nat) (bootstrap : Bootstrap) (descriptor : Descriptor) : Js :=
  serialize [("receipt_version", .int 1), ("kind", .text "prestart_no_child"),
    ("worker_id", .str (encode bootstrap.workerId)), ("worker_pid", .int processId),
    ("worker_process_identity", .str (encode descriptor.processIdentity)),
    ("worker_endpoint", .str (encode descriptor.endpoint)),
    ("worker_protocol_version", .int descriptor.protocolVersion),
    ("worker_control_token", .str (encode bootstrap.workerControlToken))]

/-- The properties of the objects are named as the daemon reads them. -/
theorem toJs_eq (descriptor : Descriptor) : descriptor.toJs =
    .obj [("pid", .int descriptor.pid), ("startIdentity", .str (encode descriptor.startIdentity)),
      ("processIdentity", .str (encode descriptor.processIdentity)),
      ("endpoint", .str (encode descriptor.endpoint)), ("token", .str (encode descriptor.token)),
      ("protocolVersion", .int descriptor.protocolVersion)] := by
  simp [Descriptor.toJs, serialize, camelCase]

/-- The members of a receipt of a failed start. -/
theorem writeSpawnFailure_eq (processId : Nat) (bootstrap : Bootstrap) (descriptor : Descriptor)
    (directChildStarted : Bool) (directChildPid : Option Nat) (terminationConfirmed : Bool)
    (message : List Char) :
    writeSpawnFailure processId bootstrap descriptor directChildStarted directChildPid
        terminationConfirmed message =
      .obj [("workerId", .str (encode bootstrap.workerId)), ("workerPid", .int processId),
        ("workerProcessIdentity", .str (encode descriptor.processIdentity)),
        ("workerControlToken", .str (encode bootstrap.workerControlToken)),
        ("directChildStarted", .bool directChildStarted),
        ("directChildPid", (directChildPid.map fun pid => Js.int pid).getD .null),
        ("terminationConfirmed", .bool terminationConfirmed),
        ("message", .str (encode message))] := by
  simp [writeSpawnFailure, serialize, camelCase]

/-- The members of a receipt that no child was started. -/
theorem writePrestartNoChild_eq (processId : Nat) (bootstrap : Bootstrap)
    (descriptor : Descriptor) :
    writePrestartNoChild processId bootstrap descriptor =
      .obj [("receiptVersion", .int 1), ("kind", .text "prestart_no_child"),
        ("workerId", .str (encode bootstrap.workerId)), ("workerPid", .int processId),
        ("workerProcessIdentity", .str (encode descriptor.processIdentity)),
        ("workerEndpoint", .str (encode descriptor.endpoint)),
        ("workerProtocolVersion", .int descriptor.protocolVersion),
        ("workerControlToken", .str (encode bootstrap.workerControlToken))] := by
  simp [writePrestartNoChild, serialize, camelCase]

/-- What a call of `write_spawn_failure` in `main` says about the child. -/
inductive SpawnFailure where
  | noChild (message : List Char)
  | childStarted (pid : Nat) (terminationConfirmed : Bool) (message : List Char)

/-- Whether the child had been started when the start failed. -/
def SpawnFailure.directChildStarted : SpawnFailure → Bool
  | .noChild _ => false
  | .childStarted _ _ _ => true

/-- Whether the child is known to have ended. -/
def SpawnFailure.terminationConfirmed : SpawnFailure → Bool
  | .noChild _ => true
  | .childStarted _ terminationConfirmed _ => terminationConfirmed

/-- Two UUIDs in hexadecimal digits, without their dashes: what `prepare` takes for a token. -/
def generated (token : List Char) : Bool :=
  token.length = 64 && token.all fun digit => digit.isDigit || ('a' ≤ digit && digit ≤ 'f')

/-- A worker that has started, with the descriptor that `main` builds from its bootstrap. -/
structure WorkerProcess where
  processId : Nat
  bootstrap : Bootstrap
  descriptor : Descriptor
  positive : 0 < processId
  small : processId < 2 ^ 32
  token : generated bootstrap.workerControlToken = true
  describesPid : descriptor.pid = processId
  describesIdentity : descriptor.startIdentity = bootstrap.workerId
  describesToken : descriptor.token = bootstrap.workerControlToken
  describesVersion : descriptor.protocolVersion = protocolVersion

namespace WorkerProcess

variable (worker : WorkerProcess)

/-- The receipt that the worker writes where it starts no child. -/
def prestartReceipt : Js :=
  writePrestartNoChild worker.processId worker.bootstrap worker.descriptor

/-- The receipt that the worker writes where the start fails. -/
def failureReceipt : SpawnFailure → Js
  | .noChild message =>
    writeSpawnFailure worker.processId worker.bootstrap worker.descriptor false none true message
  | .childStarted pid terminationConfirmed message =>
    writeSpawnFailure worker.processId worker.bootstrap worker.descriptor true (some pid)
      terminationConfirmed message

/-- The token of the worker, as the supervisor knows it. -/
def controlToken : JsString := encode worker.bootstrap.workerControlToken

end WorkerProcess

/-! ## What the daemon derives -/

/-- `workerReference` -/
def workerReference (fingerprint : JsString → JsString) (descriptor : Js)
    (executable : Option JsString) : Js :=
  record [("pid", descriptor.get "pid"), ("startIdentity", descriptor.get "startIdentity"),
    ("processIdentity", descriptor.get "processIdentity"), ("endpoint", descriptor.get "endpoint"),
    ("tokenFingerprint",
      (string (descriptor.get "token")).map fun token => .str (fingerprint token)),
    ("protocolVersion", descriptor.get "protocolVersion"),
    ("executable", whenTruthy (executable.map .str))]

namespace WorkerProcess

variable (fingerprint : JsString → JsString) (worker : WorkerProcess)

/-- The authority that `prepare` has kept before it launches the worker. -/
def authority : Js :=
  authorityValue (.prestart ⟨encode worker.bootstrap.workerId, fingerprint worker.controlToken,
    StartProtocol.nativeWorkerProtocolVersion⟩)

/-- The reference that the daemon makes from the descriptor. -/
def reference (executable : Option JsString) : Js :=
  workerReference fingerprint worker.descriptor.toJs executable

end WorkerProcess

/-! ## Objects that are accepted -/

/-- The value is an object with exactly these properties. -/
def Properties (value : Js) (names : List String) : Prop :=
  (∃ fields, value = .obj fields) ∧ ∀ key, (value.get key).isSome = true ↔ key ∈ names

/-- The value is an object with the properties of a receipt, and agrees with it in those that are
compared. -/
@[mk_iff]
structure Agrees (value receipt : Js) (names compared : List String) : Prop where
  properties : Properties value names
  values : ∀ name ∈ compared, value.get name = receipt.get name

/-- The worker id of an authority or of a reference. -/
def expectedWorker (expected : Js) : Option Js :=
  if (expected.get "workerId").isSome then expected.get "workerId"
  else expected.get "startIdentity"

/-- The members that the supervisor asks of a receipt of no child. -/
def prestartFields : List String :=
  ["receiptVersion", "kind", "workerId", "workerPid", "workerProcessIdentity", "workerEndpoint",
    "workerProtocolVersion", "workerControlToken"]

/-- The properties that are compared with a prestart authority, which knows no process. -/
def authorityFields : List String :=
  ["receiptVersion", "kind", "workerId", "workerProtocolVersion", "workerControlToken"]

/-- The properties that are compared with a reference. -/
def referenceFields : List String :=
  authorityFields ++ ["workerPid", "workerProcessIdentity", "workerEndpoint"]

/-- The members that the supervisor asks of a receipt of a failed start. -/
def spawnFailureFields : List String :=
  ["workerId", "workerPid", "workerProcessIdentity", "workerControlToken", "directChildStarted",
    "directChildPid", "terminationConfirmed", "message"]

/-- The properties of a spawn failure that are compared. The message may be any string. -/
def failureFields : List String :=
  ["workerId", "workerPid", "workerProcessIdentity", "workerControlToken", "directChildStarted",
    "directChildPid", "terminationConfirmed"]

/-- A member is found where it is listed. -/
theorem isSome_get {fields : List (String × Js)} {key : String} :
    ((Js.obj fields).get key).isSome = true ↔ key ∈ fields.map Prod.fst := by
  simp [Js.get]

/-- The count of the properties and a look at each of the listed ones find every other one. -/
theorem hasExactly_iff {value : Js} {names : List String} (distinct : names.Nodup) :
    hasExactly value names = true ↔ Properties value names := by
  cases value with
  | obj fields =>
    simp only [hasExactly, Bool.and_eq_true, decide_eq_true_eq, List.all_eq_true, isSome_get,
      Properties]
    constructor
    · rintro ⟨count, present⟩
      have inside : names ⊆ (fields.map Prod.fst).dedup := fun name listed =>
        List.mem_dedup.mpr (present name listed)
      have same := (List.subperm_of_subset distinct inside).perm_of_length_le (Nat.le_of_eq count)
      exact ⟨⟨fields, rfl⟩, fun key => by rw [← List.mem_dedup, same.mem_iff]⟩
    · rintro ⟨_, listed⟩
      refine ⟨?_, fun name member => (listed name).mpr member⟩
      apply List.Perm.length_eq
      refine (List.perm_ext_iff_of_nodup (List.nodup_dedup _) distinct).mpr ?_
      intro key
      rw [List.mem_dedup, listed]
  | _ => simp [hasExactly, Properties]

/-- A text is the same as that text only. -/
theorem same_str_iff {value : Option Js} {expected : JsString} :
    same value (some (.str expected)) = true ↔ value = some (.str expected) := by
  cases value with
  | none => simp [same]
  | some value => cases value <;> simp [same]

/-- A number is the same as that number only. -/
theorem same_int_iff {value : Option Js} {expected : Int} :
    same value (some (.int expected)) = true ↔ value = some (.int expected) := by
  cases value with
  | none => simp [same, Js.int]
  | some value => cases value <;> simp [same, Js.int]

/-- Null is the same as null only. -/
theorem same_null_iff {value : Option Js} :
    same value (some .null) = true ↔ value = some .null := by
  cases value with
  | none => simp [same]
  | some value => cases value <;> simp [same]

/-- Only the same text is the text that is expected. -/
theorem same_expected_iff {text : JsString} {expected : Option Js} :
    same (some (.str text)) expected = true ↔ expected = some (.str text) := by
  cases expected with
  | none => simp [same]
  | some expected =>
    cases expected with
    | str other =>
      simp only [same, beq_iff_eq, Option.some.injEq, Js.str.injEq]
      exact eq_comm
    | _ => simp [same]

/-- A token is the one of a fingerprint that no other token has. -/
theorem tokenMatches_iff {fingerprint : JsString → JsString} {token : JsString}
    (alone : ∀ other, fingerprint other = fingerprint token → other = token)
    {value : Option Js} :
    tokenMatches fingerprint value (some (.str (fingerprint token))) = true ↔
      value = some (.str token) := by
  cases value with
  | none => simp [tokenMatches, string]
  | some value =>
    cases value with
    | str text =>
      simp only [tokenMatches, string, Option.any_some, same_str_iff, Option.some.injEq,
        Js.str.injEq]
      exact ⟨alone text, congrArg fingerprint⟩
    | _ => simp [tokenMatches, string]

/-! ## The receipts of one worker -/

section Worker

variable {fingerprint : JsString → JsString} {worker : WorkerProcess}

/-- The properties of a prestart receipt. -/
theorem prestartReceipt_get :
    worker.prestartReceipt.get "receiptVersion" = some (.int 1) ∧
      worker.prestartReceipt.get "kind" = some (.text "prestart_no_child") ∧
      worker.prestartReceipt.get "workerId" = some (.str (encode worker.bootstrap.workerId)) ∧
      worker.prestartReceipt.get "workerPid" = some (.int worker.processId) ∧
      worker.prestartReceipt.get "workerProcessIdentity" =
        some (.str (encode worker.descriptor.processIdentity)) ∧
      worker.prestartReceipt.get "workerEndpoint" =
        some (.str (encode worker.descriptor.endpoint)) ∧
      worker.prestartReceipt.get "workerProtocolVersion" = some (.int protocolVersion) ∧
      worker.prestartReceipt.get "workerControlToken" = some (.str worker.controlToken) := by
  rw [← worker.describesVersion, WorkerProcess.prestartReceipt, writePrestartNoChild_eq]
  exact ⟨rfl, rfl, rfl, rfl, rfl, rfl, rfl, rfl⟩

/-- The properties of a spawn failure without a child. -/
theorem noChild_get (message : List Char) :
    (worker.failureReceipt (.noChild message)).get "workerId" =
        some (.str (encode worker.bootstrap.workerId)) ∧
      (worker.failureReceipt (.noChild message)).get "workerPid" = some (.int worker.processId) ∧
      (worker.failureReceipt (.noChild message)).get "workerProcessIdentity" =
        some (.str (encode worker.descriptor.processIdentity)) ∧
      (worker.failureReceipt (.noChild message)).get "workerControlToken" =
        some (.str worker.controlToken) ∧
      (worker.failureReceipt (.noChild message)).get "directChildStarted" = some (.bool false) ∧
      (worker.failureReceipt (.noChild message)).get "directChildPid" = some .null ∧
      (worker.failureReceipt (.noChild message)).get "terminationConfirmed" = some (.bool true) ∧
      (worker.failureReceipt (.noChild message)).get "message" = some (.str (encode message)) := by
  rw [WorkerProcess.failureReceipt, writeSpawnFailure_eq]
  exact ⟨rfl, rfl, rfl, rfl, rfl, rfl, rfl, rfl⟩

/-- The properties of the descriptor. -/
theorem descriptor_get :
    worker.descriptor.toJs.get "pid" = some (.int worker.processId) ∧
      worker.descriptor.toJs.get "startIdentity" =
        some (.str (encode worker.bootstrap.workerId)) ∧
      worker.descriptor.toJs.get "processIdentity" =
        some (.str (encode worker.descriptor.processIdentity)) ∧
      worker.descriptor.toJs.get "endpoint" = some (.str (encode worker.descriptor.endpoint)) ∧
      worker.descriptor.toJs.get "token" = some (.str worker.controlToken) ∧
      worker.descriptor.toJs.get "protocolVersion" = some (.int nativeWorkerProtocolVersion) := by
  have version : nativeWorkerProtocolVersion = (worker.descriptor.protocolVersion : Int) := by
    rw [worker.describesVersion]
    rfl
  rw [version, ← worker.describesPid, ← worker.describesIdentity, WorkerProcess.controlToken,
    ← worker.describesToken, toJs_eq]
  exact ⟨rfl, rfl, rfl, rfl, rfl, rfl⟩

/-- The properties of an authority. -/
theorem authority_get :
    (worker.authority fingerprint).get "workerId" =
        some (.str (encode worker.bootstrap.workerId)) ∧
      (worker.authority fingerprint).get "tokenFingerprint" =
        some (.str (fingerprint worker.controlToken)) ∧
      (worker.authority fingerprint).get "protocolVersion" =
        some (.int nativeWorkerProtocolVersion) :=
  ⟨rfl, rfl, rfl⟩

/-- The properties of a reference. -/
theorem reference_get (executable : Option JsString) :
    (worker.reference fingerprint executable).get "workerId" = none ∧
      (worker.reference fingerprint executable).get "pid" = some (.int worker.processId) ∧
      (worker.reference fingerprint executable).get "startIdentity" =
        some (.str (encode worker.bootstrap.workerId)) ∧
      (worker.reference fingerprint executable).get "processIdentity" =
        some (.str (encode worker.descriptor.processIdentity)) ∧
      (worker.reference fingerprint executable).get "endpoint" =
        some (.str (encode worker.descriptor.endpoint)) ∧
      (worker.reference fingerprint executable).get "tokenFingerprint" =
        some (.str (fingerprint worker.controlToken)) ∧
      (worker.reference fingerprint executable).get "protocolVersion" =
        some (.int nativeWorkerProtocolVersion) := by
  have version : nativeWorkerProtocolVersion = (worker.descriptor.protocolVersion : Int) := by
    rw [worker.describesVersion]
    rfl
  rw [version, ← worker.describesPid, ← worker.describesIdentity, WorkerProcess.controlToken,
    ← worker.describesToken, WorkerProcess.reference, toJs_eq]
  refine ⟨?_, rfl, rfl, rfl, rfl, rfl, rfl⟩
  unfold workerReference
  cases whenTruthy (executable.map .str) <;> rfl

/-- The check of the receipt of no child asks for its members and no others. -/
theorem hasExactly_prestart (receipt : Js) :
    hasExactly receipt ["receiptVersion", "kind", "workerId", "workerPid",
      "workerProcessIdentity", "workerEndpoint", "workerProtocolVersion", "workerControlToken"] =
        true ↔ Properties receipt prestartFields := hasExactly_iff (by decide)

/-- The check of the receipt of a failed start asks for its members and no others. -/
theorem hasExactly_failure (receipt : Js) :
    hasExactly receipt ["workerId", "workerPid", "workerProcessIdentity", "workerControlToken",
      "directChildStarted", "directChildPid", "terminationConfirmed", "message"] =
        true ↔ Properties receipt spawnFailureFields := hasExactly_iff (by decide)

/-- The version that the worker writes is the one the supervisor speaks. -/
theorem spoken_version :
    isInt (some (.int nativeWorkerProtocolVersion)) nativeWorkerProtocolVersion = true :=
  isInt_iff.mpr rfl

/-- The worker speaks the version that the daemon expects. -/
theorem own_version : (protocolVersion : Int) = nativeWorkerProtocolVersion := rfl

/-- The receipts of the worker have their own properties. -/
theorem prestart_properties : Properties worker.prestartReceipt prestartFields := by
  refine ⟨⟨_, writePrestartNoChild_eq ..⟩, fun key => ?_⟩
  rw [WorkerProcess.prestartReceipt, writePrestartNoChild_eq, isSome_get]
  rfl

/-- The receipt of a failed start has the members that are asked for. -/
theorem failure_properties (failure : SpawnFailure) :
    Properties (worker.failureReceipt failure) spawnFailureFields := by
  cases failure with
  | noChild message =>
    refine ⟨⟨_, writeSpawnFailure_eq ..⟩, fun key => ?_⟩
    rw [WorkerProcess.failureReceipt, writeSpawnFailure_eq, isSome_get]
    rfl
  | childStarted pid terminationConfirmed message =>
    refine ⟨⟨_, writeSpawnFailure_eq ..⟩, fun key => ?_⟩
    rw [WorkerProcess.failureReceipt, writeSpawnFailure_eq, isSome_get]
    rfl

/-- What accepts the receipt has the identity and the token of the worker. -/
theorem accepted_names {expected : Js}
    (accepted : verifiedPrestartNoChildReceipt fingerprint worker.prestartReceipt expected = true) :
    expectedWorker expected = some (.str (encode worker.bootstrap.workerId)) ∧
      expected.get "tokenFingerprint" = some (.str (fingerprint worker.controlToken)) := by
  obtain ⟨_, _, workerId, _, _, _, _, token⟩ := @prestartReceipt_get worker
  simp only [verifiedPrestartNoChildReceipt, workerId, token, tokenMatches, string,
    Option.any_some, Bool.and_eq_true] at accepted
  obtain ⟨⟨⟨⟨⟨⟨⟨⟨_, _⟩, _⟩, named⟩, _⟩, _⟩, _⟩, matched⟩, _⟩ := accepted
  exact ⟨(same_expected_iff.mp named), same_expected_iff.mp matched⟩

section Own

variable (digest : isFingerprint (fingerprint worker.controlToken) = true)
  (alone : ∀ other, fingerprint other = fingerprint worker.controlToken →
    other = worker.controlToken)

include digest alone

/-- A receipt is accepted for the authority of the worker where it agrees with its own. -/
theorem verified_authority_iff (receipt : Js) :
    verifiedPrestartNoChildReceipt fingerprint receipt (worker.authority fingerprint) = true ↔
      Agrees receipt worker.prestartReceipt prestartFields authorityFields := by
  obtain ⟨name, expected, spoken⟩ := @authority_get fingerprint worker
  obtain ⟨version, kind, workerId, _, _, _, protocol, token⟩ := @prestartReceipt_get worker
  rw [own_version] at protocol
  have digest' : validFingerprint (some (.str (fingerprint worker.controlToken))) = true := digest
  rw [agrees_iff]
  simp only [authorityFields, List.forall_mem_cons, List.not_mem_nil, IsEmpty.forall_iff,
    forall_const, and_true, version, kind, workerId, protocol, token,
    verifiedPrestartNoChildReceipt, name, spoken, expected, Option.isSome_some, if_true,
    Bool.true_or, Bool.and_true, Bool.and_eq_true, hasExactly_prestart, isInt_iff, isText_iff,
    same_str_iff, spoken_version, digest', tokenMatches_iff alone, and_assoc]

/-- A receipt is accepted for the reference of the worker where it agrees with its own. -/
theorem verified_reference_iff (executable : Option JsString) (receipt : Js) :
    verifiedPrestartNoChildReceipt fingerprint receipt (worker.reference fingerprint executable) =
        true ↔
      Agrees receipt worker.prestartReceipt prestartFields referenceFields := by
  obtain ⟨unnamed, known, name, process, reached, expected, spoken⟩ :=
    @reference_get fingerprint worker executable
  obtain ⟨version, kind, workerId, pid, identity, endpoint, protocol, token⟩ :=
    @prestartReceipt_get worker
  rw [own_version] at protocol
  have digest' : validFingerprint (some (.str (fingerprint worker.controlToken))) = true := digest
  rw [agrees_iff]
  simp only [referenceFields, authorityFields, List.cons_append, List.nil_append,
    List.forall_mem_cons, List.not_mem_nil, IsEmpty.forall_iff, forall_const, and_true, version,
    kind, workerId, pid, identity, endpoint, protocol, token,
    verifiedPrestartNoChildReceipt, unnamed, known, name, process, reached, spoken, expected,
    Option.isSome_none, Bool.false_eq_true, if_false, Bool.false_or, Bool.and_eq_true,
    hasExactly_prestart, isInt_iff, isText_iff, same_str_iff, same_int_iff, spoken_version, digest',
    tokenMatches_iff alone, and_assoc]

omit digest in
/-- A spawn failure is accepted for the reference of the worker where it agrees with the one that
the worker writes when there is no child. -/
theorem verified_failure_iff (executable : Option JsString) (message : List Char) (receipt : Js) :
    verifiedSpawnFailure fingerprint receipt (worker.reference fingerprint executable) = true ↔
      Agrees receipt (worker.failureReceipt (.noChild message)) spawnFailureFields failureFields ∧
        (string (receipt.get "message")).isSome = true := by
  obtain ⟨_, known, name, process, _, expected, _⟩ := @reference_get fingerprint worker executable
  obtain ⟨workerId, pid, identity, token, started, childPid, confirmed, _⟩ :=
    @noChild_get worker message
  rw [agrees_iff]
  simp only [failureFields, List.forall_mem_cons, List.not_mem_nil, IsEmpty.forall_iff,
    forall_const, and_true, workerId, pid, identity, token, started, childPid, confirmed,
    verifiedSpawnFailure, known, name, process, expected, Bool.and_eq_true, hasExactly_failure,
    isBool_iff, same_str_iff, same_int_iff, same_null_iff, tokenMatches_iff alone, and_assoc]

/-- The worker's own descriptor belongs to its reference. -/
theorem own_descriptor (executable : Option JsString) :
    validDescriptor worker.descriptor.toJs = true ∧
      descriptorMatchesReference fingerprint worker.descriptor.toJs
        (worker.reference fingerprint executable) = true := by
  obtain ⟨_, known, name, process, reached, expected, spoken⟩ :=
    @reference_get fingerprint worker executable
  have digest' : validFingerprint (some (.str (fingerprint worker.controlToken))) = true := digest
  have fields := @descriptor_get worker
  obtain ⟨pid, identity, processIdentity, endpoint, token, version⟩ := fields
  constructor
  · have known : RecordChecks.positiveInteger (some (.int worker.processId)) = true := by
      have small := worker.small
      have safe : worker.processId ≤ maxSafeInteger := by
        unfold maxSafeInteger
        omega
      simpa [RecordChecks.positiveInteger, OutputJournal.nonnegativeInteger, Js.int,
        JsNumber.isSafeInteger, safe] using worker.positive
    have long : 16 ≤ worker.controlToken.length := by
      have shape := worker.token
      simp only [generated, Bool.and_eq_true, decide_eq_true_eq] at shape
      have units := length_le_encode worker.bootstrap.workerControlToken
      exact (by omega : 16 ≤ (encode worker.bootstrap.workerControlToken).length)
    have object : worker.descriptor.toJs.isObject = true := rfl
    simp only [validDescriptor, pid, identity, processIdentity, endpoint, token, version, object,
      known, long, string, spoken_version, Option.any_some, Option.isSome_some, Bool.and_self,
      decide_true]
  · simp only [descriptorMatchesReference, namesWorker, known, name, process, reached, expected,
      spoken, pid, identity, processIdentity, endpoint, token, digest', spoken_version,
      same_str_iff, same_int_iff, tokenMatches_iff alone, Bool.and_eq_true, and_self]

omit digest in
/-- The failures that are accepted from a worker say that it has no child. -/
theorem own_failure_iff (executable : Option JsString) (failure : SpawnFailure) :
    verifiedSpawnFailure fingerprint (worker.failureReceipt failure)
        (worker.reference fingerprint executable) = true ↔
      failure.directChildStarted = false ∧ failure.terminationConfirmed = true := by
  cases failure with
  | noChild message =>
    have spoken := (@noChild_get worker message).2.2.2.2.2.2.2
    have accepted : verifiedSpawnFailure fingerprint (worker.failureReceipt (.noChild message))
        (worker.reference fingerprint executable) = true := by
      apply (verified_failure_iff alone executable message _).mpr
      refine ⟨⟨failure_properties _, fun _ _ => rfl⟩, ?_⟩
      rw [spoken]
      rfl
    exact iff_of_true accepted ⟨rfl, rfl⟩
  | childStarted pid terminationConfirmed message =>
    apply iff_of_false
    · intro accepted
      obtain ⟨agrees, _⟩ := (verified_failure_iff alone executable [] _).mp accepted
      have same := agrees.values "directChildStarted" (by decide)
      rw [(@noChild_get worker []).2.2.2.2.1, WorkerProcess.failureReceipt,
        writeSpawnFailure_eq] at same
      have started : some (Js.bool true) = some (Js.bool false) := same
      simp at started
    · rintro ⟨started, _⟩
      exact absurd started (by simp [SpawnFailure.directChildStarted])

/-- A spawn failure beside the worker's own descriptor is checked by its fields. -/
theorem spawnFailure_iff (executable : Option JsString) (prestart : Option Js) (receipt : Js) :
    hasVerifiedNoChildSpawnFailureReceipt fingerprint
        ⟨some worker.descriptor.toJs, prestart, some receipt⟩
        (worker.reference fingerprint executable) = true ↔
      verifiedSpawnFailure fingerprint receipt (worker.reference fingerprint executable) = true := by
  obtain ⟨valid, matched⟩ := own_descriptor digest alone executable
  have spoken := (@reference_get fingerprint worker executable).2.2.2.2.2.2
  simp only [hasVerifiedNoChildSpawnFailureReceipt, spoken, spoken_version, Option.any_some, valid,
    matched, Bool.and_self, Bool.true_and]

end Own

end Worker

/-- The receipts of a worker are accepted for that worker, and for no other worker id or control
token. A spawn failure of the worker is accepted where it says that there is no child. The values
that are accepted are the objects with exactly the properties of such a receipt which agree with it
in those that are compared. -/
theorem receipts_exact (fingerprint : JsString → JsString) (worker : WorkerProcess)
    (executable : Option JsString)
    (digest : isFingerprint (fingerprint worker.controlToken) = true)
    (alone : ∀ other, fingerprint other = fingerprint worker.controlToken →
      other = worker.controlToken) :
    (verifiedPrestartNoChildReceipt fingerprint worker.prestartReceipt
        (worker.authority fingerprint) = true ∧
      verifiedPrestartNoChildReceipt fingerprint worker.prestartReceipt
        (worker.reference fingerprint executable) = true) ∧
    (∀ expected, verifiedPrestartNoChildReceipt fingerprint worker.prestartReceipt expected = true →
      expectedWorker expected = some (.str (encode worker.bootstrap.workerId)) ∧
        ∀ token, expected.get "tokenFingerprint" = some (.str (fingerprint token)) →
          token = worker.controlToken) ∧
    (∀ prestart failure,
      hasVerifiedNoChildSpawnFailureReceipt fingerprint
          ⟨some worker.descriptor.toJs, prestart, some (worker.failureReceipt failure)⟩
          (worker.reference fingerprint executable) = true ↔
        failure.directChildStarted = false ∧ failure.terminationConfirmed = true) ∧
    (∀ receipt,
      verifiedPrestartNoChildReceipt fingerprint receipt (worker.authority fingerprint) = true ↔
        Agrees receipt worker.prestartReceipt prestartFields authorityFields) ∧
    (∀ receipt,
      verifiedPrestartNoChildReceipt fingerprint receipt
          (worker.reference fingerprint executable) = true ↔
        Agrees receipt worker.prestartReceipt prestartFields referenceFields) ∧
    (∀ prestart message receipt,
      hasVerifiedNoChildSpawnFailureReceipt fingerprint
          ⟨some worker.descriptor.toJs, prestart, some receipt⟩
          (worker.reference fingerprint executable) = true ↔
        Agrees receipt (worker.failureReceipt (.noChild message)) spawnFailureFields
            failureFields ∧
          (string (receipt.get "message")).isSome = true) := by
  have authority := verified_authority_iff digest alone
  have reference := verified_reference_iff digest alone executable
  refine ⟨⟨?_, ?_⟩, ?_, ?_, authority, reference, ?_⟩
  · exact (authority _).mpr ⟨prestart_properties, fun _ _ => rfl⟩
  · exact (reference _).mpr ⟨prestart_properties, fun _ _ => rfl⟩
  · intro expected accepted
    obtain ⟨named, known⟩ := accepted_names accepted
    refine ⟨named, fun token held => alone token ?_⟩
    have same := Js.str.inj (Option.some.inj (known.symm.trans held))
    exact same.symm
  · intro prestart failure
    rw [spawnFailure_iff digest alone]
    exact own_failure_iff alone executable failure
  · intro prestart message receipt
    rw [spawnFailure_iff digest alone]
    exact verified_failure_iff alone executable message receipt

/-- A worker with its descriptor. -/
def listener : WorkerProcess where
  processId := 4821
  bootstrap :=
    ⟨"0123456789abcdef0123456789abcdef0123456789abcdef0123456789abcdef".toList,
      "0b54a3d2-6b0e-4c55-9d0f-1f2f6d3c9a10".toList⟩
  descriptor :=
    ⟨4821, "0b54a3d2-6b0e-4c55-9d0f-1f2f6d3c9a10".toList, "4821:98213345".toList,
      "http://127.0.0.1:49152".toList,
      "0123456789abcdef0123456789abcdef0123456789abcdef0123456789abcdef".toList, 5⟩
  positive := by decide
  small := by decide
  token := by decide
  describesPid := rfl
  describesIdentity := rfl
  describesToken := rfl
  describesVersion := rfl

/-- The digest of one token. -/
def digestOf (token : JsString) : JsString :=
  if token = listener.controlToken then
    js "a8ae6e6ee929abea3afcfc5258c8ccd6f85273e0d4626d26c7279f3250f77c8e"
  else js ""

/-- The receipts of one worker. -/
theorem receipts_exact_listener :
    verifiedPrestartNoChildReceipt digestOf listener.prestartReceipt (listener.authority digestOf) =
      true := by
  have own : digestOf listener.controlToken =
      js "a8ae6e6ee929abea3afcfc5258c8ccd6f85273e0d4626d26c7279f3250f77c8e" := if_pos rfl
  have digest : isFingerprint (digestOf listener.controlToken) = true := by
    rw [own]
    decide
  refine (receipts_exact digestOf listener none digest fun other same => ?_).1.1
  by_contra different
  rw [own, digestOf, if_neg different] at same
  exact absurd same (by decide)

end OpencodePty.WorkerReceipts
