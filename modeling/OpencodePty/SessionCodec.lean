import OpencodePty.Lifecycle
import OpencodePty.RecordChecks

/-!
# The codec of session records

A session record is written as its metadata and its tagged lifecycle state; the flat view of
the lifecycle is left out and projected again when the record is read. Before a record is
written its state is refreshed from the flat view, and both the flat view and the JSON value
are checked.

JSON texts are compared by the values they denote, in which the order of properties does not
count. The members of a state that the lifecycle does not know are no part of a record here: no
check reads them, and a whole record has them beside what is known of it.
-/

namespace OpencodePty.SessionCodec

open OpencodePty.JsValues OpencodePty.Lifecycle OpencodePty.RecordChecks

/-! ## States as JSON values -/

/-- The members of an old record that are kept. -/
def legacyJson (legacy : Legacy) : Js :=
  record [("tombstone", legacy.tombstone), ("outputCleanupPending", legacy.outputCleanupPending)]

/-- The properties of the evidence of a state. -/
def evidenceFields (evidence : Evidence) : List (String × Option Js) :=
  [("child", some (record [("pid", evidence.pid), ("directExited", evidence.directExited)])),
    ("startedAt", evidence.startedAt), ("exitedAt", evidence.exitedAt),
    ("timedOut", evidence.timedOut),
    ("termination", some (record [("requested", evidence.terminationRequested),
      ("confirmed", evidence.terminationConfirmed), ("result", evidence.terminationResult)])),
    ("containment", evidence.containment), ("exitCode", evidence.exitCode),
    ("exitSignal", evidence.exitSignal), ("exitReason", evidence.exitReason),
    ("worker", evidence.worker), ("prestart", evidence.prestart),
    ("startAttempted", evidence.startAttempted), ("streamDrain", evidence.streamDrain),
    ("execOutput", evidence.execOutput), ("storageFailure", evidence.storageFailure),
    ("diagnostics", evidence.diagnostics), ("lastWaitResult", evidence.lastWaitResult),
    ("legacy", evidence.legacy.map legacyJson)]

/-- The payload as it is written. -/
def payloadJson (payload : TerminalSessionPayload) : Js :=
  record [("outcome", payload.outcome.toJs), ("evidence", some (record (evidenceFields payload.evidence)))]

/-- The properties of a state beside its evidence. -/
structure Tags where
  kind : Option Js
  target : Option Js
  outcome : Option Js
  lastKnown : Option Js
  terminal : Option Js

/-- The names of a state and of its phase. -/
def tags : SessionState → Tags
  | .active kind _ => ⟨kind.target.toJs, none, none, none, none⟩
  | .terminal outcome _ => ⟨some (.text "terminal"), none, outcome.toJs, none, none⟩
  | .unreachable known terminal _ =>
    ⟨some (.text "unreachable"), none, none, known.toJs, terminal.map payloadJson⟩
  | .cleaning target outcome known terminal _ =>
    ⟨some (.text "cleaning"), target.toJs, outcome.toJs, known.toJs, terminal.map payloadJson⟩

/-- The members of a state, in the order they are written. -/
def stateFields (state : SessionState) : List (String × Option Js) :=
  evidenceFields state.evidence ++
    [("kind", (tags state).kind), ("target", (tags state).target),
      ("outcome", (tags state).outcome), ("lastKnown", (tags state).lastKnown),
      ("terminal", (tags state).terminal)]

/-- The state as it is written. -/
def stateJson (state : SessionState) : Js := record (stateFields state)

/-- The members of an old record that are kept. -/
def readLegacy (value : Js) : Legacy := ⟨value.get "tombstone", value.get "outputCleanupPending"⟩

/-- The evidence of a terminal state. -/
def readEvidence (read : View) : Evidence where
  pid := field (read "child") "pid"
  directExited := field (read "child") "directExited"
  startedAt := read "startedAt"
  exitedAt := read "exitedAt"
  timedOut := read "timedOut"
  terminationRequested := field (read "termination") "requested"
  terminationConfirmed := field (read "termination") "confirmed"
  terminationResult := field (read "termination") "result"
  containment := read "containment"
  exitCode := read "exitCode"
  exitSignal := read "exitSignal"
  exitReason := read "exitReason"
  worker := read "worker"
  prestart := read "prestart"
  startAttempted := read "startAttempted"
  streamDrain := read "streamDrain"
  execOutput := read "execOutput"
  storageFailure := read "storageFailure"
  diagnostics := read "diagnostics"
  lastWaitResult := read "lastWaitResult"
  legacy := (read "legacy").map readLegacy

/-- The payload as it is read. -/
def readPayload (value : Js) : TerminalSessionPayload where
  outcome := .ofJs (value.get "outcome")
  evidence := readEvidence fun key => field (value.get "evidence") key

/-- The state that a value denotes. A value whose kind is none of the declared ones is taken
for that of a session that is created; no such value passes the checks. -/
def readState (value : Js) : SessionState :=
  let evidence := readEvidence value.get
  let known := SessionStateTarget.ofJs (value.get "lastKnown")
  let outcome := TerminalSessionOutcome.ofJs (value.get "outcome")
  let payload := (value.get "terminal").map readPayload
  match SessionStateTarget.ofJs (value.get "kind") with
  | .running => .active .running evidence
  | .stopping => .active .stopping evidence
  | .terminal => .terminal outcome evidence
  | .unreachable => .unreachable known payload evidence
  | _ =>
    if isText (value.get "kind") "cleaning" then
      .cleaning (.ofJs (value.get "target")) outcome known payload evidence
    else .active .creating evidence

/-! ## Records -/

/-- `V2_ROOT_LIFECYCLE_FIELDS` -/
def lifecycleFields : List String :=
  ["status", "pid", "startedAt", "exitedAt", "timedOut", "terminationRequested",
    "terminationConfirmed", "pendingCleanup", "directChildExited", "exitCode", "exitSignal",
    "exitReason", "worker", "workerPrestart", "workerStartAttempted", "containment",
    "termination", "execOutput", "storageFailure", "diagnostics", "lastWaitResult",
    "legacyTombstone", "legacyOutputCleanupPending", "streamDrain", "lastKnown"]

/-- The fields that are no metadata. -/
def reservedFields : List String := "recordVersion" :: "state" :: lifecycleFields

/-- The fields of a record that have nothing to do with its lifecycle, by name. -/
structure Metadata where
  fields : List (String × Js)
  free : ∀ entry ∈ fields, entry.1 ∉ reservedFields

/-- The metadata among the properties of an object. -/
def Metadata.among (fields : List (String × Js)) : Metadata where
  fields := fields.filter fun entry => !reservedFields.contains entry.1
  free := by
    intro entry member
    simpa using (List.mem_filter.mp member).2

/-- A session record: its version is always the current one. -/
structure SessionRecord where
  metadata : Metadata
  state : SessionState
  flat : LifecycleProjection

/-- A field of the flat view of the lifecycle. -/
def flatField (flat : LifecycleProjection) : String → Option Js
  | "status" => flat.status
  | "pid" => flat.pid
  | "startedAt" => flat.startedAt
  | "exitedAt" => flat.exitedAt
  | "timedOut" => flat.timedOut
  | "terminationRequested" => flat.terminationRequested
  | "terminationConfirmed" => flat.terminationConfirmed
  | "pendingCleanup" => flat.pendingCleanup
  | "directChildExited" => flat.directChildExited
  | "exitCode" => flat.exitCode
  | "exitSignal" => flat.exitSignal
  | "exitReason" => flat.exitReason
  | "worker" => flat.worker
  | "workerPrestart" => flat.workerPrestart
  | "workerStartAttempted" => flat.workerStartAttempted
  | "containment" => flat.containment
  | "termination" => flat.termination
  | "execOutput" => flat.execOutput
  | "storageFailure" => flat.storageFailure
  | "diagnostics" => flat.diagnostics
  | "lastWaitResult" => flat.lastWaitResult
  | "legacyTombstone" => flat.legacyTombstone
  | "legacyOutputCleanupPending" => flat.legacyOutputCleanupPending
  | "streamDrain" => flat.streamDrain
  | "lastKnown" => flat.lastKnown
  | _ => none

/-- A field of a record that the checks of the flat view read. -/
def SessionRecord.read (record : SessionRecord) : View := fun key =>
  if lifecycleFields.contains key then flatField record.flat key
  else record.metadata.fields.lookup key

/-! ## Checks of a written record -/

section Checks

variable (dateParse : JsString → Option Int) (darwin : Bool)

/-- `Object.hasOwn(value, key)` -/
def hasOwn (value : Js) (key : String) : Bool := (value.get key).isSome

/-- A property read of a value that may be `null`: it raises for `null` only. -/
def raisesOnRead (value : Option Js) : Bool := same value (some .null)

/-- The outcomes of a session. -/
def outcomeNames : List String := ["exited", "timed_out", "spawn_failed", "output_limited"]

/-- What is known of the containment at the end. -/
def drainNames : List String := ["drained", "unknown"]

/-- The properties `pid` and `directExited` of a child. -/
def validChild (child : Option Js) : Bool :=
  validNonnegativeInteger (field child "pid") && optional isBoolean (field child "directExited")

/-- The properties `requested` and `confirmed` of a termination. -/
def validTermination (termination : Option Js) : Bool :=
  isBoolean (field termination "requested") && isBoolean (field termination "confirmed")

/-- `validTerminalPayload` -/
def payloadChecks (payload : Js) : List Check :=
  let evidence := payload.get "evidence"
  let child := field evidence "child"
  let termination := field evidence "termination"
  [plain payload.isObject, convertsTo outcomeNames (payload.get "outcome"),
    plain (isObject evidence && ["kind", "target", "outcome", "lastKnown", "terminal"].all
      (fun key => !evidence.any (hasOwn · key)) && child.isSome),
    ⟨raisesOnRead child, validChild child && termination.isSome⟩,
    ⟨raisesOnRead termination, validTermination termination &&
      isBoolean (field evidence "timedOut") && isOneOf (field evidence "streamDrain") drainNames⟩]

/-- The legacy object of a state. -/
def legacyChecks (legacy : Option Js) : List Check :=
  match legacy with
  | none => []
  | some value =>
    plain (value.isObject && optional (isBool · true) (value.get "outputCleanupPending")) ::
      match value.get "tombstone" with
      | none => []
      | some tombstone =>
        [plain (tombstone.isObject && (isInt (tombstone.get "sourceRecordVersion") 0 ||
            isInt (tombstone.get "sourceRecordVersion") 1)),
          convertsTo lastKnownNames (tombstone.get "lastKnown")]

/-- `validV2TerminalProof` -/
def terminalProof (read : View) : Bool :=
  let cleanup := field (read "exitReason") "cleanup"
  isText (read "outcome") "spawn_failed" &&
      isText (field (read "exitReason") "kind") "spawn_error" && isBool (field cleanup "directChildStarted") false &&
      isBool (field cleanup "terminationConfirmed") true ||
    isBool (field (read "child") "directExited") true &&
      (containmentDrained (read "containment") || darwin)

/-- A state is terminal, or to be cleaned up after it was. -/
def claimsTerminal (read : View) : Bool :=
  isText (read "kind") "terminal" ||
    isText (read "kind") "cleaning" && isText (read "target") "terminal"

/-- The checks on the tags of each kind of state. -/
def kindChecks (read : View) : List Check :=
  let hasPayload := (read "terminal").isSome
  if isText (read "kind") "terminal" then
    [plain ((read "target").isNone && (read "lastKnown").isNone && !hasPayload)]
  else if isText (read "kind") "unreachable" then
    [plain ((read "target").isNone && (read "outcome").isNone),
      convertsTo lastKnownNames (read "lastKnown"),
      plain (isText (read "lastKnown") "terminal" == hasPayload)]
  else if isText (read "kind") "cleaning" then
    let unreachable := isText (read "target") "unreachable"
    let tombstone := field (read "legacy") "tombstone"
    [convertsTo lastKnownNames (read "target"),
      plain (isText (read "target") "terminal" == (read "outcome").isSome &&
        unreachable == (read "lastKnown").isSome &&
        hasPayload == (unreachable && isText (read "lastKnown") "terminal") &&
        (tombstone.isNone ||
          unreachable && same (field tombstone "lastKnown") (read "lastKnown")))]
  else
    [plain (isOneOf (read "kind") ["creating", "running", "stopping"] &&
      (read "target").isNone && (read "outcome").isNone && (read "lastKnown").isNone &&
      !hasPayload && (read "legacy").isNone)]

/-- `validV2State` -/
def stateChecks (state : Option Js) : List Check :=
  let read := field state
  plain (isObject state && isObject (read "child") && validChild (read "child") &&
      isObject (read "termination") && validTermination (read "termination") &&
      isBoolean (read "timedOut") && isOneOf (read "streamDrain") drainNames) ::
    legacyChecks (read "legacy") ++
    ((read "terminal").map payloadChecks).getD [] ++
    (if claimsTerminal read then
      [convertsTo outcomeNames (read "outcome"),
        plain (isBool (field (read "termination") "confirmed") true && terminalProof darwin read)]
    else []) ++
    plain (!isBool (field (read "legacy") "outputCleanupPending") true || claimsTerminal read) ::
    kindChecks read

/-- The properties of an object. -/
def properties : Js → List (String × Js)
  | .obj fields => fields
  | _ => []

/-- `toV2Session` -/
def toV2Session (record : SessionRecord) : Js :=
  .obj (record.metadata.fields ++
    [("recordVersion", .int 2), ("state", stateJson record.state)])

/-- `fromV2Session` -/
def fromV2Session (source : Js) : SessionRecord :=
  let state := readState ((source.get "state").getD .null)
  ⟨.among (properties source), state, projectSessionState state⟩

/-- `validV2Session` -/
def v2Checks (source : Js) (id : JsString) : List Check :=
  plain (isInt (source.get "recordVersion") 2 && !lifecycleFields.any (hasOwn source)) ::
    stateChecks darwin (source.get "state") ++
    compatibilityChecks dateParse (fromV2Session source).read id

/-- The errors of `writeSession`. -/
inductive WriteError where
  | typeError
  | invalidSession
  | invalidV2Session
  deriving DecidableEq

/-- The messages of the errors that the source raises by itself. -/
def WriteError.message : WriteError → Option String
  | .typeError => none
  | .invalidSession => some "Refusing to persist invalid PTY session."
  | .invalidV2Session => some "Refusing to persist an invalid V2 PTY session."

/-- The result of checks, with the error for those that fail. -/
def require (checks : List Check) (failure : WriteError) : Except WriteError Unit :=
  match runChecks checks with
  | none => .error .typeError
  | some true => .ok ()
  | some false => .error failure

/-- The id of a record, which names its directory. -/
def SessionRecord.id (record : SessionRecord) : JsString :=
  match record.read "id" with
  | some (.str id) => id
  | _ => []

/-- The record as `writeSession` leaves it: with its state refreshed from the flat view, and
the flat view projected from that state. -/
def SessionRecord.refreshed (record : SessionRecord) : SessionRecord :=
  let state := refreshSessionState darwin record.state record.flat
  { record with state := state, flat := projectSessionState state }

/-- `writeSession`: the record after the write, and the value that is persisted. -/
def writeSession (record : SessionRecord) : Except WriteError (SessionRecord × Js) := do
  let written := record.refreshed darwin
  require (compatibilityChecks dateParse written.read record.id) .invalidSession
  let persisted := toV2Session written
  require (v2Checks dateParse darwin persisted record.id) .invalidV2Session
  return (written, persisted)

/-! ## Decoding -/

/-- Why an owner of a legacy record is not taken over: the messages of
`UnsupportedSessionError`. -/
inductive Unsupported where
  | version (version : Nat)
  | incompleteOwner
  | unverifiableOwner
  | noncanonicalOwner
  deriving DecidableEq

/-- Why a record cannot be read. -/
def Unsupported.message (id : JsString) : Unsupported → JsString
  | .version found =>
    js "Unsupported PTY session record version " ++ encode (Nat.toDigits 10 found) ++
      js "; it was left unchanged."
  | .incompleteOwner =>
    js "Legacy PTY session '" ++ id ++
      js "' lacks a complete owner identity and was left unchanged."
  | .unverifiableOwner =>
    js "Legacy PTY session '" ++ id ++
      js "' has an unverifiable owner project directory and was left unchanged."
  | .noncanonicalOwner =>
    js "Legacy PTY session '" ++ id ++
      js "' has a noncanonical owner project directory and was left unchanged."

/-- The errors of `decodeSession`: `InvalidSessionError`, `UnsupportedSessionError`, and an
error of neither kind. -/
inductive DecodeError where
  | typeError
  | invalid
  | unsupported (reason : Unsupported)
  deriving DecidableEq

/-- A record as it is read, with its version. -/
structure DecodedSession where
  record : SessionRecord
  forceMetadataWrite : Bool
  importLegacyOutput : Bool
  removeLegacyOutput : Bool

/-- The result of checks of a record that is read. -/
def accept (checks : List Check) : Except DecodeError Unit :=
  match runChecks checks with
  | none => .error .typeError
  | some true => .ok ()
  | some false => .error .invalid

/-- `legacyLastKnown` -/
def legacyLastKnown (status : Option Js) : String :=
  if isText status "starting" then "creating"
  else if isText status "running" then "running"
  else if isText status "stopping" then "stopping"
  else if isText status "lost" then "unreachable"
  else "terminal"

/-- The version of the record, as a number. -/
def sourceRecordVersion : LegacyVersion → Int
  | .v0 => 0
  | .v1 => 1

/-- The evidence of a legacy record proves that its session ended. -/
def legacyTerminal (source : Js) : Bool :=
  isOneOf (source.get "status") terminalNames && isBool (source.get "terminationConfirmed") true &&
    isBool (source.get "directChildExited") true && containmentDrained (source.get "containment")

/-- The tombstone of a legacy record of which no end is proven. -/
def legacyTombstone (source : Js) (version : LegacyVersion) : Option Js :=
  orElse (source.get "legacyTombstone") (some (record
    [("sourceRecordVersion", some (.int (sourceRecordVersion version))),
      ("lastKnown", some (.text (legacyLastKnown (source.get "status"))))]))

/-- The output file of a proven terminal record that is still to be imported or removed. -/
def legacyCleanup (source : Js) : LegacyVersion → Bool
  | .v0 => legacyTerminal source && !isInt (source.get "outputJournalVersion") 2
  | .v1 => legacyTerminal source && isBool (source.get "legacyOutputCleanupPending") true

/-- The flat view of a legacy record. -/
def legacyFlat (source : Js) (version : LegacyVersion) : LifecycleProjection :=
  let terminal := legacyTerminal source
  { status := if terminal then source.get "status" else some (.text "lost")
    pid := source.get "pid"
    startedAt := source.get "startedAt"
    exitedAt := source.get "exitedAt"
    timedOut := some (.bool (isBool (source.get "timedOut") true))
    terminationRequested := some (.bool (isBool (source.get "terminationRequested") true))
    terminationConfirmed :=
      some (.bool (terminal && isBool (source.get "terminationConfirmed") true))
    pendingCleanup := if terminal then source.get "pendingCleanup" else some (.bool true)
    directChildExited := some (.bool (terminal && isBool (source.get "directChildExited") true))
    exitCode := source.get "exitCode"
    exitSignal := source.get "exitSignal"
    exitReason := source.get "exitReason"
    worker := source.get "worker"
    workerPrestart := source.get "workerPrestart"
    workerStartAttempted := source.get "workerStartAttempted"
    containment := source.get "containment"
    termination := source.get "termination"
    execOutput := source.get "execOutput"
    storageFailure := source.get "storageFailure"
    diagnostics := source.get "diagnostics"
    lastWaitResult := source.get "lastWaitResult"
    legacyTombstone :=
      if terminal then source.get "legacyTombstone" else legacyTombstone source version
    legacyOutputCleanupPending :=
      if legacyCleanup source version then some (.bool true)
      else source.get "legacyOutputCleanupPending"
    streamDrain := if terminal then some (.text "unknown") else none
    lastKnown := source.get "lastKnown" }

/-- The properties with the given ones in place of those of the same names. -/
def override (fields : List (String × Js)) (changes : List (String × Js)) : List (String × Js) :=
  changes ++ fields.filter fun entry => (changes.lookup entry.1).isNone

/-- The metadata of a legacy record, with the defaults of older versions. -/
def legacyMetadata (source : Js) : Metadata :=
  let terminal := legacyTerminal source
  let lifecycle := (orElse (source.get "lifecycle") (some (.text "conversation"))).getD .null
  let environment := record [("kind", some (.text "safe")), ("keys", some (.arr [])),
    ("fingerprint", some (.text "")), ("sensitive", some (.bool false))]
  .among (override (properties source)
    [("mode", (orElse (source.get "mode") (some (.text "pty"))).getD .null),
      ("lifecycle", if terminal then lifecycle else .text "conversation"),
      ("environment", (orElse (source.get "environment") (some environment)).getD .null),
      ("outputJournalVersion", .int 2)])

/-- `decodeLegacySession`, with `realpath` as a parameter that may fail. -/
def decodeLegacySession (realpath : JsString → Option JsString) (source : Js) (id : JsString)
    (version : LegacyVersion) : Except DecodeError DecodedSession :=
  if !nonemptyText (source.get "parentSessionId") ||
      !nonemptyText (source.get "ownerProjectDirectory") ||
      !validCapabilityHash (source.get "ownerCapabilityHash") then
    .error (.unsupported .incompleteOwner)
  else
    match (OutputJournal.text (source.get "ownerProjectDirectory")).map fun directory =>
      (directory, realpath directory) with
    | none | some (_, none) => .error (.unsupported .unverifiableOwner)
    | some (directory, some canonical) =>
      if canonical != directory then .error (.unsupported .noncanonicalOwner)
      else do
        let flat := legacyFlat source version
        let status := if isOneOf (source.get "status") terminalNames then source.get "status"
          else flat.status
        let state := sessionStateFromCompatibility darwin { flat with status := status }
        let converted := ⟨legacyMetadata source, state, flat⟩
        accept (compatibilityChecks dateParse converted.read id)
        return {
          record := converted
          forceMetadataWrite := true
          importLegacyOutput :=
            version == .v0 && !isInt (source.get "outputJournalVersion") 2
          removeLegacyOutput := legacyCleanup source version }

/-- `decodeV0Session` -/
def decodeV0Session (realpath : JsString → Option JsString) (source : Js) (id : JsString) :
    Except DecodeError DecodedSession :=
  if same (source.get "parentSessionId") (some .null) ||
      same (source.get "ownerProjectDirectory") (some .null) ||
      same (source.get "ownerCapabilityHash") (some .null) then
    .error (.unsupported .incompleteOwner)
  else do
    accept (sessionChecks dateParse source.get id .v0 false)
    decodeLegacySession dateParse darwin realpath source id .v0

/-- `decodeV1Session` -/
def decodeV1Session (realpath : JsString → Option JsString) (source : Js) (id : JsString) :
    Except DecodeError DecodedSession := do
  accept (sessionChecks dateParse source.get id .v1 false)
  decodeLegacySession dateParse darwin realpath source id .v1

/-- The decoding of a record of the current version. -/
def decodeV2Session (source : Js) (id : JsString) : Except DecodeError DecodedSession := do
  accept (v2Checks dateParse darwin source id)
  let record := fromV2Session source
  return {
    record := record
    forceMetadataWrite := false
    importLegacyOutput := false
    removeLegacyOutput := isBool record.flat.legacyOutputCleanupPending true }

/-- `decodeSession` -/
def decodeSession (realpath : JsString → Option JsString) (source : Js) (id : JsString) :
    Except DecodeError DecodedSession :=
  if !source.isObject then .error .invalid
  else
    let version := source.get "recordVersion"
    if version.isNone then decodeV0Session dateParse darwin realpath source id
    else if isInt version 1 then decodeV1Session dateParse darwin realpath source id
    else if isInt version 2 then decodeV2Session dateParse darwin source id
    else
      match OutputJournal.nonnegativeInteger version with
      | some version => .error (.unsupported (.version version))
      | none => .error .invalid

end Checks

end OpencodePty.SessionCodec
