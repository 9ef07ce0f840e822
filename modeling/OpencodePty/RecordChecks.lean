import OpencodePty.OutputJournal

/-!
# The checks of a session record

A session record that is read from disk, or that is about to be written, is checked field by
field. The checks are those of `validSession` in `src/daemon/storage.ts`, over a record that
is seen as a function from field names to values. A check converts some values with `String`,
which raises for an object that has a `toString` of its own; the checks stand in the order of
the source, so that what is evaluated before such a conversion is evaluated before it here.
-/

namespace OpencodePty.RecordChecks

open OpencodePty.JsValues OpencodePty.OutputJournal

/-- The fields of a record, by name. -/
abbrev View := String → Option Js

/-- A text. -/
def validText (value : Option Js) : Bool := (text value).isSome

/-- A text with a character. -/
def nonemptyText (value : Option Js) : Bool := (text value).any fun present => !present.isEmpty

/-- A safe integer that is not negative. -/
def validNonnegativeInteger (value : Option Js) : Bool := (nonnegativeInteger value).isSome

/-- A lower case hexadecimal digit. -/
def isHexDigit (unit : UInt16) : Bool :=
  TextEncodings.isDigit unit || 0x61 ≤ unit && unit ≤ 0x66

/-- `/^[a-f0-9]{64}$/` -/
def validCapabilityHash : Option Js → Bool
  | some (.str value) => value.length == 64 && value.all isHexDigit
  | _ => false

/-- `value === undefined || check(value)` -/
def optional (check : Option Js → Bool) (value : Option Js) : Bool := value.isNone || check value

/-- `Array.isArray(value) && value.every(check)` -/
def everyItem (check : Option Js → Bool) : Option Js → Bool
  | some (.arr items) => items.all fun item => check (some item)
  | _ => false

/-- A check of an optional object by its properties. -/
def optionalObject (check : View → Bool) : Option Js → Bool
  | none => true
  | some value => value.isObject && check value.get

/-- The names of the kinds of a session that a record may remember. -/
def lastKnownNames : List String := ["creating", "running", "stopping", "terminal", "unreachable"]

/-- The statuses that a record may have. -/
def statusNames : List String :=
  ["starting", "running", "stopping", "exited", "timed_out", "lost", "spawn_failed",
    "output_limited"]

/-- The statuses of a session that has ended. -/
def terminalNames : List String := ["exited", "timed_out", "output_limited", "spawn_failed"]

/-- `MAX_OUTPUT_BYTES` -/
def maxOutputBytes : Nat := 64 * 1024 * 1024

/-- The version of a record that has only the flat view. -/
inductive LegacyVersion where
  | v0
  | v1
  deriving DecidableEq

section Fields

variable (dateParse : JsString → Option Int)

/-- A text that can be read as a date. -/
def validTimestamp (value : Option Js) : Bool := (timestamp dateParse value).isSome

/-- A cleanup that is left to do. -/
def validCleanup : Option Js → Bool :=
  optionalObject fun cleanup =>
    isBoolean (cleanup "requested") && isBoolean (cleanup "terminationConfirmed") &&
      isOneOf (cleanup "method") ["shutdown", "rollback", "kill", "none"] &&
      optional validNonnegativeInteger (cleanup "directChildPid") &&
      optional validText (cleanup "message")

/-- The reason why a session ended. -/
def validExitReason : Option Js → Bool :=
  optionalObject fun reason =>
    validText (reason "kind") &&
      (isText (reason "kind") "code" && validNonnegativeInteger (reason "code") ||
        isText (reason "kind") "signal" && validText (reason "signal") ||
        isOneOf (reason "kind") ["timeout", "output_limit"] &&
          optional validText (reason "message") ||
        isText (reason "kind") "stopped" ||
        isText (reason "kind") "spawn_error" && validText (reason "message") &&
          validCleanup (reason "cleanup") ||
        isText (reason "kind") "unknown" && optional validText (reason "message"))

/-- Variables with texts. -/
def validEnvironment : Option Js → Bool :=
  optionalObject fun environment =>
    isOneOf (environment "kind") ["safe", "inherit"] && everyItem validText (environment "keys") &&
      validText (environment "fingerprint") && isBoolean (environment "sensitive")

/-- The bytes that were counted for a stream are at least those that were kept. -/
def counts (bytes kept : Option Js) : Bool :=
  match nonnegativeInteger bytes, text kept with
  | some bytes, some kept => byteLength kept ≤ bytes
  | _, _ => false

/-- The output of an execution. -/
def validExecOutput : Option Js → Bool :=
  optionalObject fun output =>
    counts (output "stdoutBytes") (output "stdout") &&
      counts (output "stderrBytes") (output "stderr") &&
      isBoolean (output "stdoutTruncated") && isBoolean (output "stderrTruncated")

/-- The signal that ended a child. -/
def validExitSignal (value : Option Js) : Bool := validNonnegativeInteger value || validText value

/-- The result of a wait. -/
def validWait : Option Js → Bool :=
  optionalObject fun wait =>
    isBoolean (wait "satisfied") && isOneOf (wait "reason") ["output", "exit", "deadline"] &&
      validTimestamp dateParse (wait "observedAt") && optional validText (wait "matched") &&
      optional validNonnegativeInteger (wait "exitCode") &&
      optional validExitSignal (wait "exitSignal") && isBoolean (wait "outputTruncated")

/-- A safe integer above zero. -/
def positiveInteger (value : Option Js) : Bool := (nonnegativeInteger value).any fun number =>
  0 < number

/-- The worker of a session. -/
def validWorker : Option Js → Bool :=
  optionalObject fun worker =>
    positiveInteger (worker "pid") && validText (worker "startIdentity") &&
      validText (worker "processIdentity") && validText (worker "endpoint") &&
      positiveInteger (worker "protocolVersion") && optional validText (worker "tokenFingerprint")

/-- The worker that has not been started. -/
def validWorkerPrestart : Option Js → Bool :=
  optionalObject fun authority =>
    validText (authority "workerId") && validCapabilityHash (authority "tokenFingerprint") &&
      positiveInteger (authority "protocolVersion")

/-- An observed descendant of a contained process. -/
def validDescendant : Option Js → Bool
  | none => false
  | some value =>
    value.isObject && validNonnegativeInteger (value.get "pid") &&
      validText (value.get "startIdentity")

/-- The platforms of a containment. -/
def containmentPlatforms : List String :=
  ["linux_proc", "windows_job", "posix_verification_unavailable", "not_applicable"]

/-- The statuses of a containment. -/
def containmentStatuses : List String :=
  ["posix_best_effort_empty", "posix_processes_remaining", "posix_escape_observed",
    "posix_containment_unknown", "windows_job_empty", "windows_job_processes_remaining",
    "windows_job_unknown", "not_applicable"]

/-- `names.includes(String(value))` -/
def convertsTo (names : List String) (value : Option Js) : Check :=
  ⟨!coercible value, coercesToOneOf value names⟩

/-- An optional process id that may also be `null`. -/
def nullableInteger (value : Option Js) : Bool :=
  same value (some .null) || optional validNonnegativeInteger value

/-- `validContainment` -/
def containmentChecks : Option Js → List Check
  | none => []
  | some value =>
    [plain value.isObject, convertsTo containmentPlatforms (value.get "platform"),
      convertsTo containmentStatuses (value.get "status"),
      plain (validNonnegativeInteger (value.get "rootPid") &&
        nullableInteger (value.get "processGroupId") && nullableInteger (value.get "sessionId") &&
        validText (value.get "rootStartIdentity") &&
        optional isBoolean (value.get "rootIdentityVerified") &&
        everyItem validNonnegativeInteger (value.get "observedGroupPids") &&
        everyItem validNonnegativeInteger (value.get "observedSessionPids") &&
        everyItem validNonnegativeInteger (value.get "observedEscapedDescendantPids") &&
        optional (everyItem validDescendant) (value.get "observedEscapedDescendants") &&
        validTimestamp dateParse (value.get "verifiedAt"))]

/-- `validTermination`, which accepts `null`. -/
def terminationChecks : Option Js → List Check
  | none | some .null => []
  | some value =>
    plain (value.isObject && isBoolean (value.get "requested") &&
        isBoolean (value.get "termSignalSent") && isBoolean (value.get "killSignalSent") &&
        isBoolean (value.get "rootExited") &&
        optional isBoolean (value.get "directChildExited")) ::
      containmentChecks dateParse (value.get "containment")

/-- `validLegacyTombstone`. A tombstone of version 1 is accepted in the flat view only. -/
def tombstoneChecks (allowV1 : Bool) : Option Js → List Check
  | none => []
  | some value =>
    [plain (value.isObject && (isInt (value.get "sourceRecordVersion") 0 ||
        allowV1 && isInt (value.get "sourceRecordVersion") 1)),
      convertsTo lastKnownNames (value.get "lastKnown")]

/-! ## The record -/

/-- The owner, as records of the version have it. -/
def validOwner (read : View) : LegacyVersion → Bool
  | .v1 =>
    nonemptyText (read "ownerProjectDirectory") &&
      validCapabilityHash (read "ownerCapabilityHash") && nonemptyText (read "parentSessionId")
  | .v0 =>
    optional validText (read "ownerProjectDirectory") &&
      optional validText (read "ownerCapabilityHash") && optional validText (read "parentSessionId")

/-- The id, the version, the command and the owner. -/
def validIdentity (read : View) (id : JsString) (version : LegacyVersion) : Bool :=
  (match version with
    | .v0 => (read "recordVersion").isNone
    | .v1 => isInt (read "recordVersion") 1) &&
    same (read "id") (some (.str id)) && validText (read "title") && validText (read "command") &&
    everyItem validText (read "args") && optional validText (read "description") &&
    optional validText (read "name") && optional validText (read "idempotencyKey") &&
    validText (read "workdir") && validOwner read version && optional validText (read "parentAgent")

/-- A field that version 1 requires. -/
def required (version : LegacyVersion) (check : Option Js → Bool) (value : Option Js) : Bool :=
  match version with
  | .v1 => check value
  | .v0 => optional check value

/-- The status and what belongs to it. -/
def validLifecycleFields (read : View) (version : LegacyVersion) : Bool :=
  isOneOf (read "status") statusNames && validNonnegativeInteger (read "pid") &&
    validTimestamp dateParse (read "createdAt") && validTimestamp dateParse (read "updatedAt") &&
    optional (validTimestamp dateParse) (read "startedAt") &&
    optional (validTimestamp dateParse) (read "exitedAt") &&
    optional (validTimestamp dateParse) (read "lastOutputAt") &&
    optional positiveInteger (read "timeoutSeconds") && isBoolean (read "timedOut") &&
    required version isBoolean (read "terminationRequested") &&
    required version isBoolean (read "terminationConfirmed") &&
    optional isBoolean (read "pendingCleanup") && optional isBoolean (read "directChildExited") &&
    optional validNonnegativeInteger (read "exitCode") &&
    optional validExitSignal (read "exitSignal") && validExitReason (read "exitReason")

/-- The fields of the output. -/
def validOutputFields (read : View) (version : LegacyVersion) : Bool :=
  validNonnegativeInteger (read "nextSequence") &&
    validNonnegativeInteger (read "firstRetainedSequence") &&
    validNonnegativeInteger (read "outputBytes") &&
    optional (fun limit => (nonnegativeInteger limit).any fun bytes =>
      0 < bytes && bytes ≤ maxOutputBytes) (read "outputLimitBytes") &&
    isBoolean (read "outputTruncated") && validNonnegativeInteger (read "lineCount") &&
    isBoolean (read "outputHasPartialLine") &&
    required version (isInt · 2) (read "outputJournalVersion")

/-- The mode, the environment and the worker of the session. -/
def validExecution (read : View) (version : LegacyVersion) : Bool :=
  required version (isOneOf · ["pty", "exec"]) (read "mode") &&
    required version (isOneOf · ["conversation", "persistent"]) (read "lifecycle") &&
    validEnvironment (read "environment") &&
    (version != .v1 || (read "environment").isSome) && validExecOutput (read "execOutput") &&
    validWorker (read "worker") && validWorkerPrestart (read "workerPrestart") &&
    optional (fun attempted => isBoolean attempted &&
      ((read "worker").isSome || (read "workerPrestart").isSome)) (read "workerStartAttempted")

/-- A diagnostic of at most 512 code points. -/
def validDiagnostic (value : Option Js) : Bool := (text value).any fun present =>
  codePoints present ≤ 512

/-- A list of diagnostics. -/
def validDiagnostics (value : Option Js) : Bool :=
  everyItem validDiagnostic value &&
    match value with
    | some (.arr items) => items.length ≤ 4
    | _ => false

/-- A tombstone stands only in the record of a session that is lost and to be cleaned up. -/
def tombstoneAgrees (read : View) : Bool :=
  (read "legacyTombstone").isNone ||
    isText (read "status") "lost" && isText (read "lifecycle") "conversation" &&
      isBool (read "pendingCleanup") true && isBool (read "terminationConfirmed") false &&
      !isBool (read "directChildExited") true

/-- The authority before the start is that of the worker. -/
def authorityAgrees (read : View) : Bool :=
  (read "worker").isNone || (read "workerPrestart").isNone ||
    same (field (read "worker") "startIdentity") (field (read "workerPrestart") "workerId") &&
      same (field (read "worker") "protocolVersion")
        (field (read "workerPrestart") "protocolVersion") &&
      same (field (read "worker") "tokenFingerprint")
        (field (read "workerPrestart") "tokenFingerprint")

/-- The output file of a legacy record is removed only for a proven terminal session. -/
def cleanupAgrees (read : View) : Bool :=
  !isBool (read "legacyOutputCleanupPending") true ||
    (read "legacyTombstone").isNone && isOneOf (read "status") terminalNames &&
      isBool (read "terminationConfirmed") true

/-- The first date is not after the second. -/
def notAfter (first second : Option Js) : Bool :=
  match (text first).bind dateParse, (text second).bind dateParse with
  | some earlier, some later => earlier ≤ later
  | _, _ => false

/-- The number of a field that was checked to be one. -/
def number (value : Option Js) : Nat := (nonnegativeInteger value).getD 0

/-- The dates and the counts of the record agree with one another. -/
def sequencesAgree (read : View) : Bool :=
  notAfter dateParse (read "createdAt") (read "updatedAt") &&
    optional (notAfter dateParse (read "createdAt")) (read "startedAt") &&
    optional (notAfter dateParse (read "createdAt")) (read "exitedAt") &&
    number (read "firstRetainedSequence") ≤ number (read "nextSequence") &&
    (isBool (read "outputTruncated") true || number (read "firstRetainedSequence") == 0) &&
    if isText (read "mode") "exec" then
      ((read "worker").isSome ||
        number (read "firstRetainedSequence") == 0 && number (read "nextSequence") == 0) &&
      ((read "execOutput").isNone || number (read "outputBytes") ==
        number (field (read "execOutput") "stdoutBytes") +
          number (field (read "execOutput") "stderrBytes"))
    else
      number (read "outputBytes") ≤
        number (read "nextSequence") - number (read "firstRetainedSequence")

/-- `validSession` -/
def sessionChecks (read : View) (id : JsString) (version : LegacyVersion) (allowV1 : Bool) :
    List Check :=
  plain (validIdentity read id version && validLifecycleFields dateParse read version &&
      validOutputFields read version && validExecution read version) ::
    containmentChecks dateParse (read "containment") ++
    terminationChecks dateParse (read "termination") ++
    plain (optional validText (read "storageFailure") &&
      optional validDiagnostics (read "diagnostics") &&
      validWait dateParse (read "lastWaitResult")) ::
    tombstoneChecks allowV1 (read "legacyTombstone") ++
    [plain (optional isBoolean (read "legacyOutputCleanupPending") &&
      (version != .v0 || (read "legacyTombstone").isNone) && tombstoneAgrees read &&
      authorityAgrees read && cleanupAgrees read && sequencesAgree dateParse read)]

/-- `validCompatibilitySession`: the flat view of a current record, checked like a record of
version 1. -/
def compatibilityChecks (read : View) (id : JsString) : List Check :=
  sessionChecks dateParse
      (fun key => if key = "recordVersion" then some (.int 1) else read key) id .v1 true ++
    [plain (optional (isOneOf · ["drained", "unknown"]) (read "streamDrain") &&
      optional (isOneOf · lastKnownNames) (read "lastKnown"))]

end Fields

end OpencodePty.RecordChecks
