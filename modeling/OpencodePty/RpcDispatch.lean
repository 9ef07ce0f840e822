import Mathlib.Data.List.Infix
import OpencodePty.FixedWindows
import OpencodePty.OwnershipSecrets
import OpencodePty.PayloadChecks

/-!
# Requests to the daemon

A request comes over HTTP with the token of the daemon. It is a JSON object with an id, the
version of the protocol, an operation, the owner and a payload. The daemon authenticates the
owner by a hash over the ownership secret, checks the payload, sees that the owner owns the
session it names, and only then calls on the supervisor. Input to sessions has a budget for
each owner.

Parsing and decoding a body, canonical directories and the hash are parameters. Whether an
owner owns a session is asked of the supervisor.
-/

namespace OpencodePty.RpcDispatch

open OpencodePty.JsValues OpencodePty.PayloadChecks OpencodePty.FixedWindows
open OpencodePty.Approvals (Failure requiredString optionalNonnegativeInteger
  requiredPositiveInteger maxApprovalExpirySeconds)

/-- The version of the protocol that the daemon speaks. -/
def daemonProtocolVersion : Int := 8
/-- The longest id, in units. -/
def maxIdLength : Nat := 128
/-- The longest input of one call, in bytes. -/
def maxInputBytes : Nat := 64 * 1024
/-- What one owner may send in a minute, in bytes. -/
def maxInputBytesPerMinute : Nat := 256 * 1024
/-- The longest time an execution may take. -/
def maxExecRuntimeSeconds : Int := 3600

/-! ## Owners -/

/-- The owner that a request is authenticated as. -/
structure OwnerContext where
  parentSessionId : JsString
  projectDirectory : JsString
  capability : JsString
  deriving DecidableEq

/-- What the daemon computes of texts. -/
structure Environment where
  ownershipSecret : JsString
  sha256 : JsString → JsString
  realpath : JsString → Option JsString

/-- Texts with a zero between each of them and the next one. -/
def joined : List JsString → JsString
  | [] => []
  | [text] => text
  | text :: rest => text ++ 0 :: joined rest

namespace Environment

variable (environment : Environment)

/-- What a request of this owner must carry. -/
def capability (parentSessionId projectDirectory : JsString) : JsString :=
  environment.sha256 (joined [environment.ownershipSecret, parentSessionId, projectDirectory])

/-- What an approval of this owner must carry. -/
def approvalCapability (parentSessionId projectDirectory : JsString) : JsString :=
  environment.sha256
    (joined [js "approval", environment.ownershipSecret, parentSessionId, projectDirectory])

/-- `typeof value === 'string' && value` -/
def present : Option Js → Option JsString
  | some (.str value) => if value.isEmpty then none else some value
  | _ => none

/-- The owner of a request, where its capability is the one of that owner. -/
def owner (request : Js) : Except Failure OwnerContext :=
  let owner := request.get "owner"
  match present (field owner "parentSessionId"), present (field owner "projectDirectory"),
    present (field owner "capability") with
  | some parentSessionId, some projectDirectory, some capability =>
    if !OwnershipSecrets.isSecret capability then
      .error (.validation "A valid owner context is required.")
    else
      match environment.realpath projectDirectory with
      | none => .error (.validation "Owner project directory must exist.")
      | some projectDirectory =>
        if capability ≠ environment.capability parentSessionId projectDirectory then
          .error (.daemon "Owner is not authorized." "authorization")
        else .ok ⟨parentSessionId, projectDirectory, capability⟩
  | _, _, _ => .error (.validation "A valid owner context is required.")

/-- The owner of an approval, where its capability is the one of that owner. -/
def approvalOwner (request : Js) : Except Failure OwnerContext := do
  let owner ← environment.owner request
  match request.get "approvalCapability" with
  | some (.str capability) =>
    if capability.length ≠ 64 ||
        capability ≠ environment.approvalCapability owner.parentSessionId owner.projectDirectory
    then .error (.daemon "Owner is not authorized." "authorization")
    else return owner
  | _ => .error (.daemon "Owner is not authorized." "authorization")

end Environment

/-! ## Input -/

/-- The budget for the input of an owner. -/
def inputLimit : Limit := ⟨60000, maxInputBytesPerMinute⟩

/-- The name under which the inputs of the owner are counted. -/
def OwnerContext.inputKey (owner : OwnerContext) : JsString :=
  joined [owner.parentSessionId, owner.projectDirectory, owner.capability]

/-- What an input uses up of the budget of its owner. -/
def OwnerContext.input (owner : OwnerContext) (data : JsString) (now : Int) : Use JsString :=
  ⟨owner.inputKey, byteLength data, now⟩

/-- An input is counted, where the budget has room for it. -/
def useInput (usage : Windows JsString) (owner : OwnerContext) (data : JsString) (now : Int) :
    Except Failure (Windows JsString) :=
  if byteLength data > maxInputBytes then
    .error (.daemon "Input size limit exceeded." "limit")
  else if inputLimit.admits usage (owner.input data now) then
    .ok (inputLimit.spend usage (owner.input data now))
  else .error (.daemon "Input rate limit exceeded." "limit")

/-! ## Dispatch -/

/-- What the daemon does for a request: a call on the supervisor or on the approvals. -/
inductive Call where
  | health
  | diagnostics (owner : OwnerContext)
  | spawn (options : SpawnOptions) (owner : OwnerContext)
  | nativeExec (options : ExecOptions) (owner : OwnerContext)
  | nativeExecStart (options : ExecOptions) (owner : OwnerContext)
  | nativeExecWait (id : JsString) (timeoutSeconds : Int)
  | write (id data : JsString)
  | resize (id : JsString) (cols rows : Int)
  | wait (id : JsString) (condition : WaitCondition) (timeoutSeconds : Int)
  | sendWait (id data : JsString) (condition : WaitCondition) (timeoutSeconds : Int)
  | read (id : JsString) (offset limit sequence : Option Int)
  | search (id pattern : JsString) (ignoreCase : Bool) (offset limit sequence : Option Int)
  /-- The sessions that the owner owns. -/
  | list (owner : OwnerContext)
  | get (id : JsString)
  | rawOutput (id : JsString)
  | execOutput (id : JsString)
  | stop (id : JsString)
  | cleanup (id : JsString)
  | cleanupByParentSession (owner : OwnerContext)
  | approval (owner : OwnerContext) (operation : Approvals.Operation)
  | approvalWait (owner : OwnerContext) (id : JsString) (timeoutSeconds : Int)

/-- `owns` of the supervisor. -/
abbrev Ownership := JsString → OwnerContext → Bool

/-- The session is one of the owner. -/
def authorize (owns : Ownership) (owner : OwnerContext) (id : JsString) : Except Failure Unit :=
  if owns id owner then .ok () else .error (.daemon "Owner is not authorized." "authorization")

/-- The session that a payload names, for its owner. -/
def ownSession (owns : Ownership) (owner : OwnerContext) (payload : Option Js)
    (fields : List String) : Except Failure (Js × JsString) := do
  let value ← fieldsPayload payload fields
  let id ← requiredString value "id"
  authorize owns owner id
  return (value, id)

/-- An operation on a session that needs nothing but its id. -/
def onSession (owns : Ownership) (owner : OwnerContext) (payload : Option Js)
    (call : JsString → Call) : Except Failure Call := do
  let (_, id) ← ownSession owns owner payload ["id"]
  return call id

/-- A wait for an execution. -/
def execWait (owns : Ownership) (owner : OwnerContext) (payload : Option Js) :
    Except Failure Call := do
  let (value, id) ← ownSession owns owner payload ["id", "timeoutSeconds"]
  return .nativeExecWait id (← requiredPositiveInteger value "timeoutSeconds")

/-- A new size of a terminal. -/
def resize (owns : Ownership) (owner : OwnerContext) (payload : Option Js) :
    Except Failure Call := do
  let (value, id) ← ownSession owns owner payload ["id", "cols", "rows"]
  return .resize id (← requiredBoundedInteger value "cols" 1000)
    (← requiredBoundedInteger value "rows" 1000)

/-- A wait for output or for the end. -/
def wait (owns : Ownership) (owner : OwnerContext) (payload : Option Js) :
    Except Failure Call := do
  let (value, id) ← ownSession owns owner payload ["id", "condition", "timeoutSeconds"]
  return .wait id (← waitCondition (value.get "condition"))
    (← requiredPositiveInteger value "timeoutSeconds")

/-- A read of the output. -/
def read (owns : Ownership) (owner : OwnerContext) (payload : Option Js) :
    Except Failure Call := do
  let (value, id) ← ownSession owns owner payload ["id", "offset", "limit", "sequence"]
  return .read id (← optionalNonnegativeInteger value "offset")
    (← optionalNonnegativeInteger value "limit") (← optionalSequence value "sequence")

/-- A search in the output. -/
def search (owns : Ownership) (owner : OwnerContext) (payload : Option Js) :
    Except Failure Call := do
  let (value, id) ← ownSession owns owner payload
    ["id", "pattern", "ignoreCase", "offset", "limit", "sequence"]
  return .search id (← requiredString value "pattern")
    ((← optionalBoolean value "ignoreCase").getD false)
    (← optionalNonnegativeInteger value "offset") (← optionalNonnegativeInteger value "limit")
    (← optionalSequence value "sequence")

/-- The session and the data of an input. -/
def inputPayload (owns : Ownership) (owner : OwnerContext) (payload : Option Js)
    (fields : List String) : Except Failure (Js × JsString × JsString) := do
  let value ← fieldsPayload payload fields
  let id ← requiredString value "id"
  let data ← requiredString value "data"
  authorize owns owner id
  return (value, id, data)

/-- An input to a session uses up the budget of its owner, also where a later check fails. -/
def withInput (owns : Ownership) (usage : Windows JsString) (owner : OwnerContext)
    (payload : Option Js) (fields : List String) (now : Int)
    (call : Js → JsString → JsString → Except Failure Call) :
    Except Failure Call × Windows JsString :=
  match inputPayload owns owner payload fields with
  | .error failure => (.error failure, usage)
  | .ok (value, id, data) =>
    match useInput usage owner data now with
    | .error failure => (.error failure, usage)
    | .ok usage => (call value id data, usage)

/-- An input. -/
def write (owns : Ownership) (usage : Windows JsString) (owner : OwnerContext)
    (payload : Option Js) (now : Int) : Except Failure Call × Windows JsString :=
  withInput owns usage owner payload ["id", "data"] now fun _ id data => return .write id data

/-- An input with a wait for what it causes. -/
def sendWait (owns : Ownership) (usage : Windows JsString) (owner : OwnerContext)
    (payload : Option Js) (now : Int) : Except Failure Call × Windows JsString :=
  withInput owns usage owner payload ["id", "data", "condition", "timeoutSeconds"] now
    fun value id data => do
      let condition ← waitCondition (value.get "condition")
      return .sendWait id data condition (← requiredPositiveInteger value "timeoutSeconds")

/-- A cleanup of all sessions of the owner. -/
def cleanupByParentSession (owner : OwnerContext) (payload : Option Js) : Except Failure Call := do
  let value ← fieldsPayload payload ["parentSessionId"]
  let parentSessionId ← requiredString value "parentSessionId"
  if parentSessionId ≠ owner.parentSessionId then
    .error (.daemon "Owner is not authorized." "authorization")
  else return .cleanupByParentSession owner

/-- The options of a command with the limit of its time: of `exec` and `execStart`. -/
def runtimeLimited (payload : Option Js) : Except Failure ExecOptions := do
  let options ← execPayload payload
  if options.timeoutSeconds.getD 0 > maxExecRuntimeSeconds then
    .error (.daemon "Exec runtime limit exceeded." "limit")
  else return options

/-- A wait for the decision on an approval. -/
def approvalWait (owner : OwnerContext) (payload : Option Js) : Except Failure Call := do
  let value ← fieldsPayload payload ["id", "timeoutSeconds"]
  let id ← requiredString value "id"
  let timeoutSeconds ← requiredPositiveInteger value "timeoutSeconds"
  if timeoutSeconds > maxApprovalExpirySeconds then
    .error (.validation "Approval wait exceeds the limit.")
  else return .approvalWait owner id timeoutSeconds

/-- The approval operations other than `approvalWait`. -/
def approvalOperation (payload : Js) : String → Option Approvals.Operation
  | "approvalCreate" => some (.create payload)
  | "approvalPrepare" => some (.prepare payload)
  | "approvalClaim" => some (.claim payload)
  | "approvalDecide" => some (.decide payload)
  | "approvalConsume" => some (.consume payload)
  | "approvalNativeApprove" => some (.nativeApprove payload)
  | "approvalListGrants" => some .listGrants
  | "approvalListRequests" => some .listRequests
  | "approvalRevokeGrant" => some (.revokeGrant payload)
  | "approvalCancel" => some (.cancel payload)
  | "approvalCleanupByParentSession" => some (.cleanupByParentSession payload)
  | _ => none

/-- The options of a session as the daemon hands them on: with the owner's session for the one
in the payload. -/
def ownedBy (owner : OwnerContext) (options : SpawnOptions) : SpawnOptions :=
  { options with parentSessionId := owner.parentSessionId }

/-- The execution in the name of the owner that was authenticated. -/
def execOwnedBy (owner : OwnerContext) (options : ExecOptions) : ExecOptions :=
  { options with parentSessionId := owner.parentSessionId }

/-- The operations for an owner that use up no budget. -/
def ownerCall (environment : Environment) (owns : Ownership) (request : Js)
    (owner : OwnerContext) (operation : String) : Except Failure Call :=
  let payload := request.get "payload"
  match operation with
  | "spawn" => return .spawn (ownedBy owner (← spawnPayload payload)) owner
  | "exec" => return .nativeExec (execOwnedBy owner (← runtimeLimited payload)) owner
  | "execStart" => return .nativeExecStart (execOwnedBy owner (← runtimeLimited payload)) owner
  | "execWait" => execWait owns owner payload
  | "resize" => resize owns owner payload
  | "wait" => wait owns owner payload
  | "read" => read owns owner payload
  | "search" => search owns owner payload
  | "list" => return .list owner
  | "get" => onSession owns owner payload .get
  | "rawOutput" => onSession owns owner payload .rawOutput
  | "execOutput" => onSession owns owner payload .execOutput
  | "stop" => onSession owns owner payload .stop
  | "cleanup" => onSession owns owner payload .cleanup
  | "cleanupByParentSession" => cleanupByParentSession owner payload
  | "approvalWait" => do
    let _ ← environment.approvalOwner request
    approvalWait owner payload
  | operation =>
    match approvalOperation (payload.getD .null) operation with
    | some approval => do
      let _ ← environment.approvalOwner request
      return .approval owner approval
    | none => .error (.validation ("Unsupported RPC operation '" ++ operation ++ "'."))

/-- What a request asks for, and what is used up of the budgets for input. -/
def dispatch (environment : Environment) (owns : Ownership) (usage : Windows JsString)
    (request : Js) (operation : String) (now : Int) : Except Failure Call × Windows JsString :=
  if operation = "health" then
    (do
      let _ ← fieldsPayload (orElse (request.get "payload") (some (.obj []))) []
      return .health, usage)
  else
    match environment.owner request with
    | .error failure => (.error failure, usage)
    | .ok owner =>
      match operation with
      | "diagnostics" => (.ok (.diagnostics owner), usage)
      | "write" => write owns usage owner (request.get "payload") now
      | "sendWait" => sendWait owns usage owner (request.get "payload") now
      | operation => (ownerCall environment owns request owner operation, usage)

/-! ## Requests over HTTP -/

/-- A request as it comes, with its body in pieces. -/
structure HttpRequest where
  method : String
  pathname : String
  authorization : Option JsString
  contentLength : Option JsString
  body : Option (List (List UInt8))

/-- An error that a call throws. -/
inductive Thrown where
  | validation (message : String)
  | daemon (message code : String)
  | process (message : String) (spawnFailure : Option Js)
  /-- An error of the system, with its code. -/
  | system (message code : String)
  | other (message : String)

/-- What the daemon answers. -/
inductive Response where
  | notFound
  | failure (status : Nat) (id : JsString) (code message : String) (spawnFailure : Option Js)
  | success (id : JsString) (result : Js)

/-- `message.includes(part)` -/
def includes (message part : String) : Bool := part.toList <:+: message.toList

/-- The text of what was thrown. -/
def Thrown.message : Thrown → String
  | validation message | daemon message _ | process message _ | system message _
  | other message => message

/-- The code of an error without one, by its message. -/
def classifyMessage (process : Bool) (message : String) : String :=
  if includes message "not authorized" then "authorization"
  else if includes message "limit" then "limit"
  else if process then "process"
  else if includes message "not found" then "not_found"
  else if includes message "closed" then "session_closed"
  else "internal"

/-- `/^E[A-Z]+$/` -/
def isStorageCode (code : String) : Bool :=
  match code.toList with
  | 'E' :: rest => !rest.isEmpty && rest.all fun letter => 'A' ≤ letter && letter ≤ 'Z'
  | _ => false

/-- The code under which a failure is answered. -/
def classifyRpcFailure : Thrown → String
  | .validation _ => "validation"
  | .daemon _ code => code
  | .process message _ => classifyMessage true message
  | .system message code => if isStorageCode code then "storage" else classifyMessage false message
  | .other message => classifyMessage false message

/-- What is answered of a start that failed. -/
def Thrown.spawnFailure : Thrown → Option Js
  | process _ spawnFailure => spawnFailure
  | _ => none

/-- The response to a request that was dispatched and threw. -/
def failed (id : JsString) (thrown : Thrown) : Response :=
  let code := classifyRpcFailure thrown
  .failure (if code = "not_found" then 404 else 400) id code thrown.message thrown.spawnFailure

/-- What a failed check throws. -/
def thrownBy : Failure → Thrown
  | .validation message => .validation message
  | .daemon message code => .daemon message code
  | .other message => .other message

/-- `Number(text)` of decimal digits. -/
def decimal (text : JsString) : Nat := text.foldl (fun value unit => 10 * value + (unit.toNat - 48)) 0

/-- `!contentLength`, or a number that is not too large. -/
def lengthAllowed : Option JsString → Bool
  | none => true
  | some text =>
    text.isEmpty || text.all TextEncodings.isDigit && decimal text ≤ maxRequestBytes

/-- The bytes of a body, unless they become too many. -/
def readPieces : List UInt8 → List (List UInt8) → Option (List UInt8)
  | bytes, [] => some bytes
  | bytes, piece :: rest =>
    if (bytes ++ piece).length > maxRequestBytes then none else readPieces (bytes ++ piece) rest

/-- The body of a request, where it is complete and fits. -/
def requestBody (request : HttpRequest) : Option (List UInt8) :=
  if lengthAllowed request.contentLength then readPieces [] (request.body.getD []) else none

/-- The text of code units. Half of a surrogate pair is replaced. -/
def literal : JsString → List Char
  | [] => []
  | [unit] =>
    [if isHighSurrogate unit || isLowSurrogate unit then '\uFFFD' else Char.ofNat unit.toNat]
  | high :: low :: rest =>
    if isHighSurrogate high && isLowSurrogate low then
      Char.ofNat (0x10000 + (high.toNat - 0xd800) * 0x400 + (low.toNat - 0xdc00)) :: literal rest
    else
      (if isHighSurrogate high || isLowSurrogate high then '\uFFFD' else Char.ofNat high.toNat) ::
        literal (low :: rest)

/-- The id and the operation of a request of the right form and version. -/
def envelope (request : Js) : Except Response (JsString × String) :=
  match request with
  | .obj _ =>
    match Environment.present (request.get "id"), request.get "version",
      Environment.present (request.get "operation") with
    | some id, some (.num version), some operation =>
      if id.length > maxIdLength || operation.length > 64 then
        .error (.failure 400 [] "validation" "Invalid RPC request." none)
      else if version ≠ .integer daemonProtocolVersion then
        .error (.failure 400 id "protocol" "Invalid RPC protocol version." none)
      else .ok (id, String.ofList (literal operation))
    | _, _, _ => .error (.failure 400 [] "validation" "Invalid RPC request." none)
  | _ => .error (.failure 400 [] "validation" "RPC request must be an object." none)

/-- A daemon that serves: what it knows and the token of its descriptor. -/
structure Server extends Environment where
  token : JsString
  /-- What `TextDecoder` and `JSON.parse` make of a body. -/
  parse : List UInt8 → Option Js

/-- The call that a request leads to, with its id. -/
def accept (server : Server) (owns : Ownership) (usage : Windows JsString) (request : HttpRequest)
    (now : Int) : Except Response (JsString × Call) × Windows JsString :=
  if request.method ≠ "POST" || request.pathname ≠ "/rpc" then (.error .notFound, usage)
  else if request.authorization ≠ some (js "Bearer " ++ server.token) then
    (.error (.failure 401 [] "authentication" "Invalid daemon credential." none), usage)
  else
    match requestBody request with
    | none =>
      (.error (.failure 413 [] "validation" "Request body is too large." none), usage)
    | some body =>
      match server.parse body with
      | none =>
        (.error (.failure 400 [] "validation" "Request body must be JSON." none), usage)
      | some rpcRequest =>
        match envelope rpcRequest with
        | .error response => (.error response, usage)
        | .ok (id, operation) =>
          match dispatch server.toEnvironment owns usage rpcRequest operation now with
          | (.error failure, usage) => (.error (failed id (thrownBy failure)), usage)
          | (.ok call, usage) => (.ok (id, call), usage)

/-- The response to a request, with what the supervisor answers to a call. -/
def handle (server : Server) (owns : Ownership) (usage : Windows JsString) (request : HttpRequest)
    (now : Int) (perform : Call → Except Thrown Js) : Response × Windows JsString :=
  match accept server owns usage request now with
  | (.error response, usage) => (response, usage)
  | (.ok (id, call), usage) =>
    match perform call with
    | .ok result => (.success id result, usage)
    | .error thrown => (failed id thrown, usage)

end OpencodePty.RpcDispatch
