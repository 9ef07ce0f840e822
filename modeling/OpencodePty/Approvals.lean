import Mathlib.Logic.Function.Basic
import OpencodePty.JsValues

/-!
# The approval ledger of the daemon

A command that needs approval is entered in a durable ledger, is claimed by a user
interface or falls back to a native question, is decided, and is consumed when the
command is run. An approval for the whole session leaves a grant behind. Claim tokens
are held in memory only and are lost when the daemon restarts.

The calls on the ledger are serialized by `withApprovals`: each reads the ledger, changes
it and writes it back, and a call that throws or whose write fails leaves the ledger on
disk as it was. Changes of the claim tokens made in between stay. Two changes of the
tokens are made after the ledger is released, so other calls can come before them; they
are kept as a list of changes that are still to be made.

Times are milliseconds, each reading of the clock is a reading of its own, and a call is
given the one UUID that it draws at most. Normalization of texts, canonical directories and
the digest of an intent are parameters.
-/

namespace OpencodePty.Approvals

open OpencodePty.JsValues

/-- What has become of a request for an approval. -/
inductive ApprovalStatus where
  | pending
  | claimed
  | nativeFallback
  | approvedOnce
  | approvedSession
  | rejected
  | cancelled
  | expired
  | consumed
  deriving DecidableEq

/-- A request for the approval of a command, with its claim and the times it depends on. -/
structure ApprovalRequest where
  id : JsString
  parentSessionId : JsString
  projectDirectory : JsString
  digest : JsString
  command : JsString
  reason : Option JsString
  capability : JsString
  workdir : JsString
  status : ApprovalStatus
  createdAt : Int
  updatedAt : Int
  expiresAt : Int
  uiEligible : Option Bool
  uiExpiresAt : Option Int
  claimExpiresAt : Option Int
  deriving DecidableEq

/-- The right to run a command again without being asked. -/
structure ApprovalGrant where
  id : JsString
  parentSessionId : JsString
  projectDirectory : JsString
  digest : JsString
  capability : JsString
  workdir : JsString
  createdAt : Int
  expiresAt : Int
  deriving DecidableEq

/-- All requests and grants that a daemon knows. -/
structure ApprovalLedger where
  requests : List ApprovalRequest
  grants : List ApprovalGrant
  deriving DecidableEq

/-- The owner of a request: a parent session in a project directory. -/
structure OwnerContext where
  parentSessionId : JsString
  projectDirectory : JsString
  deriving DecidableEq

/-- What a request asks to run. -/
structure Intent where
  command : JsString
  reason : Option JsString
  capability : JsString
  workdir : JsString
  deriving DecidableEq

/-- An error as a call throws it. -/
inductive Failure where
  | validation (message : String)
  | daemon (message : String) (code : String)
  | other (message : String)
  deriving DecidableEq

/-- The successive readings of the clock during a call. -/
abbrev Clock := Nat → Int

/-- The claim tokens in memory. -/
abbrev Tokens := JsString → Option JsString

/-- What the daemon computes outside the ledger. -/
structure Environment where
  normalize : JsString → JsString
  realpath : JsString → Option JsString
  digest : Intent → JsString

/-- How long a text may be. -/
def maxStringLength : Nat := 16 * 1024
/-- How long a command may be. -/
def maxCommandLength : Nat := 4096
/-- The bound of numbers that have none of their own. -/
def maxPageSize : Int := 10000
/-- The longest time for which a request waits. -/
def maxApprovalExpirySeconds : Int := 3600
/-- The longest time for which a grant holds. -/
def maxSessionGrantSeconds : Int := 24 * 60 * 60
/-- How long a claim holds without a decision. -/
def claimLeaseMs : Int := 5000
/-- The shortest lease of a user interface. -/
def minUiLeaseSeconds : Int := 2
/-- The longest lease of a user interface. -/
def maxUiLeaseSeconds : Int := 5

/-! ## Payloads -/

/-- A text that is needed, not empty and not too long. -/
def requiredString (payload : Js) (key : String) : Except Failure JsString :=
  match payload.get key with
  | some (.str value) =>
    if value.isEmpty || value.length > maxStringLength then
      .error (.validation
        ("RPC field '" ++ key ++ "' must be a non-empty string within the size limit."))
    else .ok value
  | _ =>
    .error (.validation
      ("RPC field '" ++ key ++ "' must be a non-empty string within the size limit."))

/-- A number that may be absent, from zero to the bound. -/
def optionalNonnegativeInteger (payload : Js) (key : String) : Except Failure (Option Int) :=
  match payload.get key with
  | none => .ok none
  | some (.num (.integer value)) =>
    if value < 0 then
      .error (.validation ("RPC field '" ++ key ++ "' must be a non-negative integer."))
    else if value > maxPageSize then
      .error (.validation ("RPC field '" ++ key ++ "' exceeds the size limit."))
    else .ok (some value)
  | some _ => .error (.validation ("RPC field '" ++ key ++ "' must be a non-negative integer."))

/-- A number that is needed, from one to the bound. -/
def requiredPositiveInteger (payload : Js) (key : String) : Except Failure Int :=
  match optionalNonnegativeInteger payload key with
  | .error failure => .error failure
  | .ok none | .ok (some 0) => .error (.validation ("RPC field '" ++ key ++ "' must be positive."))
  | .ok (some value) => .ok value

/-- `approvalPayload`: an object with no other fields than those listed. -/
def approvalPayload (payload : Js) (fields : List String) : Except Failure Js :=
  match payload with
  | .obj entries =>
    match entries.find? fun entry => !fields.contains entry.1 with
    | some entry => .error (.validation ("RPC field '" ++ entry.1 ++ "' is not supported."))
    | none => .ok payload
  | _ => .error (.validation "RPC payload must be an object.")

/-- A text of a request, normalized, not too long and without a null character. -/
def approvalText (environment : Environment) (payload : Js) (key : String) (maximum : Nat) :
    Except Failure JsString := do
  let value := environment.normalize (← requiredString payload key)
  if value.length > maximum || value.contains 0 then
    .error (.validation ("RPC field '" ++ key ++ "' is invalid for approval intent."))
  else .ok value

/-- The canonical path of the working directory, which must exist. -/
def canonicalApprovalWorkdir (environment : Environment) (workdir : JsString) :
    Except Failure JsString :=
  match environment.realpath workdir with
  | some path => .ok path
  | none => .error (.validation "Approval workdir must exist.")

/-- What a request asks to approve. -/
def approvalIntent (environment : Environment) (payload : Js) : Except Failure Intent := do
  let command ← approvalText environment payload "command" maxCommandLength
  let capability ← approvalText environment payload "capability" 1024
  let workdir ← canonicalApprovalWorkdir environment
    (← approvalText environment payload "workdir" maxStringLength)
  match payload.get "reason" with
  | none => return ⟨command, none, capability, workdir⟩
  | some _ =>
    let reason ← approvalText environment payload "reason" maxStringLength
    return ⟨command, some reason, capability, workdir⟩

/-- For how many seconds a user interface may claim a request, if it may. -/
def approvalUiLease (payload : Js) : Except Failure (Option Int) := do
  match ← optionalNonnegativeInteger payload "uiLeaseSeconds" with
  | none => return none
  | some seconds =>
    if seconds < minUiLeaseSeconds || seconds > maxUiLeaseSeconds then
      .error (.validation "Approval UI lease must be between 2 and 5 seconds.")
    else return some seconds

/-- What the user decides about a request. -/
inductive Decision where
  | approveOnce
  | approveSession
  | reject
  deriving DecidableEq

/-- The decision that a payload names. -/
def approvalDecision (payload : Js) : Except Failure Decision := do
  let decision ← requiredString payload "decision"
  if decision = js "approve_once" then return .approveOnce
  else if decision = js "approve_session" then return .approveSession
  else if decision = js "reject" then return .reject
  else .error (.validation "Approval decision is invalid.")

/-- The status that a decision gives to a claimed request. -/
def Decision.status : Decision → ApprovalStatus
  | .approveOnce => .approvedOnce
  | .approveSession => .approvedSession
  | .reject => .rejected

/-! ## The ledger -/

/-- The request was made by this owner. -/
def OwnerContext.ownsRequest (owner : OwnerContext) (request : ApprovalRequest) : Bool :=
  request.parentSessionId = owner.parentSessionId &&
    request.projectDirectory = owner.projectDirectory

/-- The grant was given to this owner. -/
def OwnerContext.ownsGrant (owner : OwnerContext) (grant : ApprovalGrant) : Bool :=
  grant.parentSessionId = owner.parentSessionId &&
    grant.projectDirectory = owner.projectDirectory

/-- The request with an id, the first one of the ledger. -/
def ApprovalLedger.find (ledger : ApprovalLedger) (id : JsString) : Option ApprovalRequest :=
  ledger.requests.find? fun request => request.id = id

/-- The request with an id, where the owner has it. -/
def approvalOwned (ledger : ApprovalLedger) (owner : OwnerContext) (id : JsString) :
    Except Failure ApprovalRequest :=
  match ledger.find id with
  | none => .error (.daemon "Approval request not found." "not_found")
  | some request =>
    if owner.ownsRequest request then .ok request
    else .error (.daemon "Owner is not authorized." "authorization")

/-- The statuses of a request that can still expire or be cancelled. -/
def ApprovalStatus.isOpen : ApprovalStatus → Bool
  | .pending | .claimed | .nativeFallback | .approvedOnce => true
  | _ => false

/-- `refreshApproval`: the request as it stands now, and whether its claim token is
dropped. -/
def refreshApproval (clock : Clock) (request : ApprovalRequest) : ApprovalRequest × Bool :=
  if request.status.isOpen && request.expiresAt ≤ clock 0 then
    ({ request with status := .expired, claimExpiresAt := none, updatedAt := clock 3 }, true)
  else if request.status = .pending && request.uiEligible = some true &&
      request.uiExpiresAt.any (· ≤ clock 1) then
    ({ request with
        status := .nativeFallback, uiEligible := some false, uiExpiresAt := none,
        updatedAt := clock 3 }, false)
  else if request.status = .claimed && request.claimExpiresAt.any (· ≤ clock 2) then
    ({ request with
        status := .nativeFallback, uiEligible := some false, uiExpiresAt := none,
        claimExpiresAt := none, updatedAt := clock 3 }, true)
  else (request, false)

/-- Drop a claim token. -/
def Tokens.delete (tokens : Tokens) (id : JsString) : Tokens := Function.update tokens id none

/-- The claim tokens after a refresh. -/
def Tokens.refresh (tokens : Tokens) (clock : Clock) (request : ApprovalRequest) : Tokens :=
  if (refreshApproval clock request).2 then tokens.delete request.id else tokens

/-- A request that was read from the ledger is changed in place. -/
def replaceRequest (changed : ApprovalRequest) : List ApprovalRequest → List ApprovalRequest
  | [] => []
  | request :: rest =>
    if request.id = changed.id then changed :: rest else request :: replaceRequest changed rest

/-- What a call returns. -/
inductive Reply where
  | request (request : ApprovalRequest)
  | claim (request : ApprovalRequest) (claimToken : JsString)
  | approvedSession
  | grants (grants : List ApprovalGrant)
  | requests (requests : List ApprovalRequest)
  | done
  deriving DecidableEq

/-- A change of the ledger under the lock: the claim tokens after it, and what it throws or
returns with the ledger to be written. -/
abbrev Update := ApprovalLedger → Tokens → Tokens × Except Failure (Reply × ApprovalLedger)

/-- The clock after a number of readings. -/
def Clock.after (clock : Clock) (readings : Nat) : Clock := fun index => clock (readings + index)

/-- The new request of `approvalCreate` and `approvalPrepare`. -/
def newRequest (environment : Environment) (owner : OwnerContext) (intent : Intent)
    (expirySeconds : Int) (uiLeaseSeconds : Option Int) (clock : Clock) (uuid : JsString) :
    ApprovalRequest where
  id := uuid
  parentSessionId := owner.parentSessionId
  projectDirectory := owner.projectDirectory
  digest := environment.digest intent
  command := intent.command
  reason := intent.reason
  capability := intent.capability
  workdir := intent.workdir
  status := .pending
  createdAt := clock 0
  updatedAt := clock 0
  expiresAt := clock 0 + expirySeconds * 1000
  uiEligible := uiLeaseSeconds.map fun _ => true
  uiExpiresAt := uiLeaseSeconds.map fun seconds => clock 0 + seconds * 1000
  claimExpiresAt := none

/-- The checked fields of `approvalCreate` and `approvalPrepare`. -/
def approvalTerms (environment : Environment) (payload : Js) :
    Except Failure (Int × Intent × Option Int) := do
  let value ← approvalPayload payload
    ["command", "reason", "capability", "workdir", "expirySeconds", "uiLeaseSeconds"]
  let expirySeconds ← requiredPositiveInteger value "expirySeconds"
  if expirySeconds > maxApprovalExpirySeconds then
    .error (.validation "Approval expiry exceeds the limit.")
  else
    let intent ← approvalIntent environment value
    let uiLeaseSeconds ← approvalUiLease value
    return (expirySeconds, intent, uiLeaseSeconds)

/-- Whether a grant covers a digest, a capability and a directory for an owner. -/
def ApprovalGrant.covers (grant : ApprovalGrant) (owner : OwnerContext)
    (digest capability workdir : JsString) : Bool :=
  owner.ownsGrant grant && grant.digest = digest && grant.capability = capability &&
    grant.workdir = workdir

/-- Enter a request. -/
def approvalCreate (environment : Environment) (owner : OwnerContext) (payload : Js)
    (clock : Clock) (uuid : JsString) : Except Failure Update := do
  let (expirySeconds, intent, uiLeaseSeconds) ← approvalTerms environment payload
  return fun ledger tokens =>
    let request := newRequest environment owner intent expirySeconds uiLeaseSeconds clock uuid
    (tokens, .ok (.request request, { ledger with requests := ledger.requests ++ [request] }))

/-- Enter a request, unless a grant covers what it asks for. -/
def approvalPrepare (environment : Environment) (owner : OwnerContext) (payload : Js)
    (clock : Clock) (uuid : JsString) : Except Failure Update := do
  let (expirySeconds, intent, uiLeaseSeconds) ← approvalTerms environment payload
  return fun ledger tokens =>
    let grants := ledger.grants.filter fun grant => grant.expiresAt > clock 0
    if grants.any fun grant =>
        grant.covers owner (environment.digest intent) intent.capability intent.workdir then
      (tokens, .ok (.approvedSession, { ledger with grants := grants }))
    else
      let request := newRequest environment owner intent expirySeconds uiLeaseSeconds clock uuid
      (tokens, .ok (.request request, ⟨ledger.requests ++ [request], grants⟩))

/-- What a call makes of a refreshed request, the grants and the claim tokens. -/
abbrev Body := ApprovalRequest → List ApprovalGrant → Tokens →
  Tokens × Except Failure (Reply × ApprovalRequest × List ApprovalGrant)

/-- The common part of the calls on one request: it is looked up for its owner and
refreshed, and what the call makes of it goes back into the ledger. -/
def withRequest (owner : OwnerContext) (payload : Js) (clock : Clock) (body : Body) : Update :=
  fun ledger tokens =>
    match requiredString payload "id" >>= approvalOwned ledger owner with
    | .error failure => (tokens, .error failure)
    | .ok request =>
      match body (refreshApproval clock request).1 ledger.grants (tokens.refresh clock request) with
      | (tokens, .error failure) => (tokens, .error failure)
      | (tokens, .ok (reply, changed, grants)) =>
        (tokens, .ok (reply, ⟨replaceRequest changed ledger.requests, grants⟩))

/-- A user interface claims a pending request, as long as it may. -/
def claimBody (clock : Clock) (uuid : JsString) : Body := fun request grants tokens =>
  if request.status = .pending && request.uiEligible = some true &&
      request.uiExpiresAt.any (· > clock 4) then
    let claimed :=
      { request with
        status := .claimed, claimExpiresAt := some (clock 5 + claimLeaseMs),
        updatedAt := clock 6 }
    (tokens, .ok (.claim claimed uuid, claimed, grants))
  else (tokens, .ok (.request request, request, grants))

/-- Claim a request of the owner for a decision. -/
def approvalClaim (owner : OwnerContext) (payload : Js) (clock : Clock) (uuid : JsString) :
    Except Failure Update := do
  let value ← approvalPayload payload ["id"]
  return withRequest owner value clock (claimBody clock uuid)

/-- The grant that an approval for the session leaves behind. -/
def newGrant (owner : OwnerContext) (request : ApprovalRequest) (clock : Clock)
    (uuid : JsString) : ApprovalGrant where
  id := uuid
  parentSessionId := owner.parentSessionId
  projectDirectory := owner.projectDirectory
  digest := request.digest
  capability := request.capability
  workdir := request.workdir
  createdAt := clock 4
  expiresAt := clock 5 + maxSessionGrantSeconds * 1000

/-- Decide a claimed request, with the token of its claim. -/
def decideBody (owner : OwnerContext) (payload : Js) (decision : Decision) (clock : Clock)
    (uuid : JsString) : Body := fun request grants tokens =>
  match requiredString payload "claimToken" with
  | .error failure => (tokens, .error failure)
  | .ok claimToken =>
    if tokens request.id ≠ some claimToken then
      (tokens, .error (.daemon "Approval claim token is not authorized." "authorization"))
    else if request.status ≠ .claimed then (tokens, .ok (.request request, request, grants))
    else
      let decided :=
        { request with
          status := decision.status, claimExpiresAt := none, updatedAt := clock 4 }
      let granted :=
        if decision = .approveSession then grants ++ [newGrant owner request clock uuid]
        else grants
      (tokens, .ok (.request decided, decided, granted))

/-- Decide a request of the owner. -/
def approvalDecide (owner : OwnerContext) (payload : Js) (clock : Clock) (uuid : JsString) :
    Except Failure Update := do
  let value ← approvalPayload payload ["id", "decision", "claimToken"]
  let decision ← approvalDecision value
  return withRequest owner value clock (decideBody owner value decision clock uuid)

/-- One pass of `approvalWait`, which waits for a status that is neither pending nor
claimed. -/
def approvalStatus (owner : OwnerContext) (payload : Js) (clock : Clock) : Update :=
  withRequest owner payload clock fun request grants tokens =>
    (tokens, .ok (.request request, request, grants))

/-- Use an approval for the intent that it was asked for. One that was given once is used up; for
the others a grant is needed. -/
def consumeBody (environment : Environment) (owner : OwnerContext) (intent : Intent)
    (clock : Clock) : Body := fun request grants tokens =>
  if request.digest ≠ environment.digest intent then
    (tokens, .error (.daemon "Approval is not authorized." "authorization"))
  else
    match request.status with
    | .rejected | .cancelled | .expired => (tokens, .ok (.request request, request, grants))
    | .approvedOnce =>
      let consumed := { request with status := .consumed, updatedAt := clock 4 }
      (tokens, .ok (.request consumed, consumed, grants))
    | .consumed => (tokens, .error (.validation "Approval has already been consumed."))
    | .pending | .claimed | .nativeFallback | .approvedSession =>
      if grants.zipIdx.any fun (grant, index) =>
          grant.covers owner request.digest request.capability request.workdir &&
            grant.expiresAt > clock (4 + index) then
        (tokens, .ok (.request { request with status := .approvedSession }, request, grants))
      else (tokens, .ok (.request { request with status := .rejected }, request, grants))

/-- Use an approval of the owner for an intent. -/
def approvalConsume (environment : Environment) (owner : OwnerContext) (payload : Js)
    (clock : Clock) : Except Failure Update := do
  let value ← approvalPayload payload ["id", "command", "reason", "capability", "workdir"]
  let intent ← approvalIntent environment value
  return withRequest owner value clock (consumeBody environment owner intent clock)

/-- The host approves a request that is left to it. -/
def nativeBody (clock : Clock) : Body := fun request grants tokens =>
  if request.status = .nativeFallback ||
      (request.status = .pending && request.uiEligible ≠ some true) then
    let approved := { request with status := .approvedOnce, updatedAt := clock 4 }
    (tokens, .ok (.request approved, approved, grants))
  else (tokens, .ok (.request request, request, grants))

/-- Take an approval of the host for a request of the owner. -/
def approvalNativeApprove (owner : OwnerContext) (payload : Js) (clock : Clock) :
    Except Failure Update := do
  let value ← approvalPayload payload ["id"]
  return withRequest owner value clock (nativeBody clock)

/-- The grants of the owner. Those that have expired are removed. -/
def approvalListGrants (owner : OwnerContext) (clock : Clock) : Update := fun ledger tokens =>
  let grants := (ledger.grants.zipIdx.filter fun (grant, index) =>
    grant.expiresAt > clock index).map Prod.fst
  (tokens, .ok (.grants (grants.filter owner.ownsGrant), { ledger with grants := grants }))

/-- Refresh all requests, one after the other. -/
def refreshAll : Clock → List ApprovalRequest → Tokens → List ApprovalRequest × Tokens
  | _, [], tokens => ([], tokens)
  | clock, request :: rest, tokens =>
    let remaining := refreshAll (clock.after 4) rest (tokens.refresh clock request)
    ((refreshApproval clock request).1 :: remaining.1, remaining.2)

/-- All requests are refreshed, and those of the owner are listed. -/
def approvalListRequests (owner : OwnerContext) (clock : Clock) : Update := fun ledger tokens =>
  let refreshed := refreshAll clock ledger.requests tokens
  (refreshed.2, .ok (.requests (refreshed.1.filter owner.ownsRequest),
    { ledger with requests := refreshed.1 }))

/-- Take a grant back from the owner. -/
def approvalRevokeGrant (owner : OwnerContext) (payload : Js) : Except Failure Update := do
  let value ← approvalPayload payload ["id"]
  let id ← requiredString value "id"
  return fun ledger tokens =>
    if ledger.grants.any fun grant => grant.id = id && owner.ownsGrant grant then
      (tokens, .ok (.done,
        { ledger with
          grants := ledger.grants.eraseP fun grant => grant.id = id && owner.ownsGrant grant }))
    else (tokens, .error (.daemon "Approval grant not found." "not_found"))

/-- Cancel a request that is still open. -/
def cancelBody (clock : Clock) : Body := fun request grants tokens =>
  if request.status.isOpen then
    let cancelled :=
      { request with status := .cancelled, claimExpiresAt := none, updatedAt := clock 4 }
    (tokens.delete request.id, .ok (.request cancelled, cancelled, grants))
  else (tokens, .ok (.request request, request, grants))

/-- Cancel a request of the owner. -/
def approvalCancel (owner : OwnerContext) (payload : Js) (clock : Clock) :
    Except Failure Update := do
  let value ← approvalPayload payload ["id"]
  return withRequest owner value clock (cancelBody clock)

/-- Remove the requests and grants of the parent session, which has to be the own one. -/
def approvalCleanupByParentSession (owner : OwnerContext) (payload : Js) :
    Except Failure Update := do
  let value ← approvalPayload payload ["parentSessionId"]
  let parentSessionId ← requiredString value "parentSessionId"
  if parentSessionId ≠ owner.parentSessionId then
    .error (.daemon "Owner is not authorized." "authorization")
  else return fun ledger tokens =>
    let tokens := (ledger.requests.filter owner.ownsRequest).foldl
      (fun tokens request => tokens.delete request.id) tokens
    (tokens, .ok (.done,
      { requests := ledger.requests.filter fun request => !owner.ownsRequest request
        grants := ledger.grants.filter fun grant => !owner.ownsGrant grant }))

/-! ## The daemon -/

/-- What `readApprovals` asks of a request. -/
def ApprovalRequest.wellFormed (request : ApprovalRequest) : Bool :=
  validText request.id && validText request.parentSessionId &&
    validText request.projectDirectory && validText request.digest &&
    validText request.capability && validText request.workdir &&
    request.reason.all validText && validText request.command

/-- What `readApprovals` asks of a grant. -/
def ApprovalGrant.wellFormed (grant : ApprovalGrant) : Bool :=
  validText grant.id && validText grant.parentSessionId && validText grant.projectDirectory &&
    validText grant.digest && validText grant.capability && validText grant.workdir

/-- The checks of `readApprovals` on a ledger that the daemon wrote; its times are always
valid. -/
def ApprovalLedger.wellFormed (ledger : ApprovalLedger) : Bool :=
  ledger.requests.all ApprovalRequest.wellFormed && ledger.grants.all ApprovalGrant.wellFormed

/-- A change of the claim tokens that is made after the ledger is released. -/
structure TokenChange where
  id : JsString
  claimToken : Option JsString

/-- The ledger on disk, the claim tokens, and the changes of tokens that are due. -/
structure Daemon where
  ledger : ApprovalLedger
  tokens : Tokens
  changes : List TokenChange

/-- A daemon on a new data directory. -/
def Daemon.initial : Daemon := ⟨⟨[], []⟩, fun _ => none, []⟩

/-- The calls of approvals with their payloads. -/
inductive Operation where
  | create (payload : Js)
  | prepare (payload : Js)
  | claim (payload : Js)
  | decide (payload : Js)
  | status (payload : Js)
  | consume (payload : Js)
  | nativeApprove (payload : Js)
  | listGrants
  | listRequests
  | revokeGrant (payload : Js)
  | cancel (payload : Js)
  | cleanupByParentSession (payload : Js)

/-- A call of an owner: the readings of the clock it makes, the UUID it draws if it draws
one, and whether the ledger can be written. -/
structure Call where
  owner : OwnerContext
  operation : Operation
  clock : Clock
  uuid : JsString
  written : Bool

/-- What a call does before it waits for the ledger. -/
def Call.update (environment : Environment) (call : Call) : Except Failure Update :=
  match call.operation with
  | .create payload => approvalCreate environment call.owner payload call.clock call.uuid
  | .prepare payload => approvalPrepare environment call.owner payload call.clock call.uuid
  | .claim payload => approvalClaim call.owner payload call.clock call.uuid
  | .decide payload => approvalDecide call.owner payload call.clock call.uuid
  | .status payload => .ok (approvalStatus call.owner payload call.clock)
  | .consume payload => approvalConsume environment call.owner payload call.clock
  | .nativeApprove payload => approvalNativeApprove call.owner payload call.clock
  | .listGrants => .ok (approvalListGrants call.owner call.clock)
  | .listRequests => .ok (approvalListRequests call.owner call.clock)
  | .revokeGrant payload => approvalRevokeGrant call.owner payload
  | .cancel payload => approvalCancel call.owner payload call.clock
  | .cleanupByParentSession payload => approvalCleanupByParentSession call.owner payload

/-- What `approvalClaim` and `approvalDecide` do to the claim tokens after the ledger is
released. -/
def tokenChange : Operation → Reply → List TokenChange
  | .claim _, .claim request claimToken => [⟨request.id, some claimToken⟩]
  | .decide _, .request request => if request.status ≠ .claimed then [⟨request.id, none⟩] else []
  | _, _ => []

/-- One change under the lock: `withApprovals`. -/
def withApprovals (daemon : Daemon) (written : Bool) (update : Update) :
    Except Failure Reply × Daemon :=
  if !daemon.ledger.wellFormed then (.error (.other "Approval ledger is invalid."), daemon)
  else
    match update daemon.ledger daemon.tokens with
    | (tokens, .error failure) => (.error failure, { daemon with tokens := tokens })
    | (tokens, .ok (reply, ledger)) =>
      if written then (.ok reply, { daemon with ledger := ledger, tokens := tokens })
      else (.error (.other "Approval ledger could not be written."),
        { daemon with tokens := tokens })

/-- One call of an owner: what it gets, and the daemon afterwards. -/
def perform (environment : Environment) (daemon : Daemon) (call : Call) :
    Except Failure Reply × Daemon :=
  match call.update environment with
  | .error failure => (.error failure, daemon)
  | .ok update =>
    match withApprovals daemon call.written update with
    | (.error failure, after) => (.error failure, after)
    | (.ok reply, after) =>
      (.ok reply,
        { after with changes := after.changes ++ tokenChange call.operation reply })

/-- A daemon takes calls, makes the changes of claim tokens that are due, in any order, and
restarts. -/
inductive Move where
  | call (call : Call)
  | settle (index : Nat)
  | restart

/-- Make one of the changes of claim tokens that are due. -/
def Daemon.settle (daemon : Daemon) (index : Nat) : Daemon :=
  match daemon.changes[index]? with
  | none => daemon
  | some change =>
    { daemon with
      tokens := Function.update daemon.tokens change.id change.claimToken
      changes := daemon.changes.eraseIdx index }

/-- One move: what the caller gets, if there is one, and the daemon afterwards. -/
def step (environment : Environment) (daemon : Daemon) :
    Move → Option (Except Failure Reply) × Daemon
  | .call call =>
    (some (perform environment daemon call).1, (perform environment daemon call).2)
  | .settle index => (none, daemon.settle index)
  | .restart => (none, { daemon with tokens := fun _ => none, changes := [] })

end OpencodePty.Approvals
