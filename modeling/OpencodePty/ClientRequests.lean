import OpencodePty.RpcRuns

/-!
# Requests of the client

Each method of the client sends one request: an operation, the owner with the capability that the
client computes of the ownership secret, and its arguments as the payload. Approvals also take the
capability for approvals. The client and the daemon of a user have the same ownership secret.

The daemon does for a request just what the method and its arguments mean, or refuses it.

A field that is `undefined` is not written. Arguments that are numbers are integers here, as the
checks of the daemon take nothing else.
-/

namespace OpencodePty.ClientRequests

open OpencodePty.JsValues OpencodePty.PayloadChecks OpencodePty.FixedWindows
open OpencodePty.RpcDispatch
open OpencodePty.Approvals (Failure requiredString optionalNonnegativeInteger
  requiredPositiveInteger maxStringLength)

/-! ## Records -/

/-- The object with the fields that are not `undefined`. -/
def record (fields : List (String × Option Js)) : Js :=
  .obj (fields.filterMap fun field => field.2.map (field.1, ·))

/-- A text, where there is one. -/
def optionalText (value : Option JsString) : Option Js := value.map .str

/-- A number, where there is one. -/
def optionalNumber (value : Option Int) : Option Js := value.map .int

/-- Each field is found under its key. -/
theorem record_get {fields : List (String × Option Js)}
    (distinct : (fields.map Prod.fst).Nodup) {key : String} {value : Option Js}
    (inside : (key, value) ∈ fields) : (record fields).get key = value := by
  simp only [record, Js.get]
  induction fields with
  | nil => cases inside
  | cons first rest inductionHypothesis =>
    obtain ⟨fresh, distinct'⟩ := List.nodup_cons.mp distinct
    -- A field that comes later has another key.
    have absent (skipped : key ∉ rest.map Prod.fst) :
        (rest.filterMap fun field => field.2.map (field.1, ·)).lookup key = none := by
      rw [List.lookup_eq_none_iff]
      intro entry inside'
      obtain ⟨source, member, made⟩ := List.mem_filterMap.mp inside'
      obtain ⟨_, _, rfl⟩ := Option.map_eq_some_iff.mp made
      refine bne_iff_ne.mpr ?_
      rintro rfl
      exact skipped (List.mem_map_of_mem member)
    obtain ⟨name, held⟩ := first
    rcases List.mem_cons.mp inside with same | later
    · obtain ⟨rfl, rfl⟩ := Prod.mk.inj same
      cases value with
      | none => simpa using absent fresh
      | some value => simp
    · have other : key ≠ name := by
        rintro rfl
        exact fresh (List.mem_map.mpr ⟨(key, value), later, rfl⟩)
      cases held with
      | none => simpa using inductionHypothesis distinct' later
      | some held =>
        have different : (key == name) = false := by simpa using other
        simpa [List.lookup_cons, different] using inductionHypothesis distinct' later

/-- A record of known fields is taken as it is. -/
theorem record_fields {fields : List (String × Option Js)} {names : List String}
    (known : ∀ key ∈ fields.map Prod.fst, key ∈ names) {value : Js} :
    fieldsPayload (some (record fields)) names = .ok value ↔ value = record fields := by
  rw [fieldsPayload_ok]
  constructor
  · rintro ⟨same, _⟩
    exact (Option.some.inj same).symm
  · rintro rfl
    refine ⟨rfl, _, rfl, fun entry inside => ?_⟩
    obtain ⟨source, member, made⟩ := List.mem_filterMap.mp inside
    obtain ⟨_, _, rfl⟩ := Option.map_eq_some_iff.mp made
    exact known source.1 (List.mem_map_of_mem member)

/-! ## Methods -/

/-- The calls of a client. -/
inductive Method where
  | spawn (options : SpawnOptions)
  | exec (options : ExecOptions)
  | execStart (options : ExecOptions)
  | execWait (id : JsString) (timeoutSeconds : Int)
  | wait (id : JsString) (condition : WaitCondition) (timeoutSeconds : Int)
  | sendWait (id data : JsString) (condition : WaitCondition) (timeoutSeconds : Int)
  | write (id data : JsString)
  | resize (id : JsString) (cols rows : Int)
  | read (id : JsString) (offset limit sequence : Option Int)
  | search (id pattern : JsString) (ignoreCase : Bool) (offset limit sequence : Option Int)
  | list
  | get (id : JsString)
  | getRawBuffer (id : JsString)
  | stop (id : JsString)
  | cleanup (id : JsString)
  /-- The two requests of `cleanupBySession`. -/
  | cleanupSessions
  | cleanupApprovals
  | createApproval (request : List (String × Option Js))
  | prepareApproval (request : List (String × Option Js))
  | claimApproval (id : JsString)
  | decideApproval (id decision claimToken : JsString)
  | waitForApproval (id : JsString) (timeoutSeconds : Int)
  | consumeApproval (id command : JsString) (reason : Option JsString)
      (capability workdir : JsString)
  | listApprovalGrants
  | listApprovalRequests
  | revokeApprovalGrant (id : JsString)
  | cancelApproval (id : JsString)
  | approveNativeApproval (id : JsString)

/-- The fields of a start. -/
def spawnEntries (options : SpawnOptions) : List (String × Option Js) :=
  [("command", some (.str options.command)),
    ("args", options.args.map fun args => .arr (args.map .str)),
    ("description", optionalText options.description),
    ("workdir", optionalText options.workdir),
    ("env", options.env.map fun entries => .obj (entries.map fun entry => (entry.1, .str entry.2))),
    ("inheritEnv", options.inheritEnv.map .bool),
    ("lifecycle", options.lifecycle.map fun lifecycle => .text lifecycle.name),
    ("title", optionalText options.title),
    ("parentSessionId", some (.str options.parentSessionId)),
    ("parentAgent", optionalText options.parentAgent),
    ("timeoutSeconds", optionalNumber options.timeoutSeconds),
    ("name", optionalText options.name),
    ("idempotencyKey", optionalText options.idempotencyKey)]

/-- The fields of an execution. -/
def execEntries (options : ExecOptions) : List (String × Option Js) :=
  spawnEntries options.toSpawnOptions ++ [("maxOutputBytes", optionalNumber options.maxOutputBytes)]

/-- The fields of a condition. -/
def conditionEntries : WaitCondition → List (String × Option Js)
  | .exit => [("kind", some (.text "exit"))]
  | .output literal regex =>
    [("kind", some (.text "output")), ("literal", optionalText literal),
      ("regex", optionalText regex)]

namespace Method

/-- The name of a call. -/
def operation : Method → String
  | spawn _ => "spawn"
  | exec _ => "exec"
  | execStart _ => "execStart"
  | execWait _ _ => "execWait"
  | wait _ _ _ => "wait"
  | sendWait _ _ _ _ => "sendWait"
  | write _ _ => "write"
  | resize _ _ _ => "resize"
  | read _ _ _ _ => "read"
  | search _ _ _ _ _ _ => "search"
  | list => "list"
  | get _ => "get"
  | getRawBuffer _ => "rawOutput"
  | stop _ => "stop"
  | cleanup _ => "cleanup"
  | cleanupSessions => "cleanupByParentSession"
  | cleanupApprovals => "approvalCleanupByParentSession"
  | createApproval _ => "approvalCreate"
  | prepareApproval _ => "approvalPrepare"
  | claimApproval _ => "approvalClaim"
  | decideApproval _ _ _ => "approvalDecide"
  | waitForApproval _ _ => "approvalWait"
  | consumeApproval _ _ _ _ _ => "approvalConsume"
  | listApprovalGrants => "approvalListGrants"
  | listApprovalRequests => "approvalListRequests"
  | revokeApprovalGrant _ => "approvalRevokeGrant"
  | cancelApproval _ => "approvalCancel"
  | approveNativeApproval _ => "approvalNativeApprove"

/-- The fields of the payload. -/
def entries (owner : OwnerContext) : Method → List (String × Option Js)
  | spawn options => spawnEntries options
  | exec options | execStart options => execEntries options
  | execWait id timeoutSeconds =>
    [("id", some (.str id)), ("timeoutSeconds", some (.int timeoutSeconds))]
  | wait id condition timeoutSeconds =>
    [("id", some (.str id)), ("condition", some (record (conditionEntries condition))),
      ("timeoutSeconds", some (.int timeoutSeconds))]
  | sendWait id data condition timeoutSeconds =>
    [("id", some (.str id)), ("data", some (.str data)),
      ("condition", some (record (conditionEntries condition))),
      ("timeoutSeconds", some (.int timeoutSeconds))]
  | write id data => [("id", some (.str id)), ("data", some (.str data))]
  | resize id cols rows =>
    [("id", some (.str id)), ("cols", some (.int cols)), ("rows", some (.int rows))]
  | read id offset limit sequence =>
    [("id", some (.str id)), ("offset", optionalNumber offset), ("limit", optionalNumber limit),
      ("sequence", optionalNumber sequence)]
  | search id pattern ignoreCase offset limit sequence =>
    [("id", some (.str id)), ("pattern", some (.str pattern)),
      ("ignoreCase", some (.bool ignoreCase)), ("offset", optionalNumber offset),
      ("limit", optionalNumber limit), ("sequence", optionalNumber sequence)]
  | list | listApprovalGrants | listApprovalRequests => []
  | get id | getRawBuffer id | stop id | cleanup id | claimApproval id | revokeApprovalGrant id
  | cancelApproval id | approveNativeApproval id => [("id", some (.str id))]
  | cleanupSessions | cleanupApprovals => [("parentSessionId", some (.str owner.parentSessionId))]
  | createApproval request | prepareApproval request => request
  | decideApproval id decision claimToken =>
    [("id", some (.str id)), ("decision", some (.str decision)),
      ("claimToken", some (.str claimToken))]
  | waitForApproval id timeoutSeconds =>
    [("id", some (.str id)), ("timeoutSeconds", some (.int timeoutSeconds))]
  | consumeApproval id command reason capability workdir =>
    [("id", some (.str id)), ("command", some (.str command)), ("reason", optionalText reason),
      ("capability", some (.str capability)), ("workdir", some (.str workdir))]

/-- The payload of a call. -/
def payload (owner : OwnerContext) (method : Method) : Js := record (method.entries owner)

/-- Whether the client presents the capability for approvals. -/
def approval : Method → Bool
  | cleanupApprovals | createApproval _ | prepareApproval _ | claimApproval _
  | decideApproval _ _ _ | waitForApproval _ _ | consumeApproval _ _ _ _ _ | listApprovalGrants
  | listApprovalRequests | revokeApprovalGrant _ | cancelApproval _ | approveNativeApproval _ =>
    true
  | _ => false

end Method

/-! ## Requests -/

/-- The owner in a session of the plugin. Its capability is computed with each request. -/
def ownerContext (environment : Environment) (parentSessionId projectDirectory : JsString) :
    Option OwnerContext :=
  if parentSessionId.isEmpty || projectDirectory.isEmpty then none
  else
    (environment.realpath projectDirectory).map fun directory => ⟨parentSessionId, directory, []⟩

/-- The owner with its capability. -/
def authorized (environment : Environment) (owner : OwnerContext) : OwnerContext :=
  { owner with
    capability := environment.capability owner.parentSessionId owner.projectDirectory }

/-- The fields that name the owner. -/
def ownerEntries (owner : OwnerContext) : List (String × Option Js) :=
  [("parentSessionId", some (.str owner.parentSessionId)),
    ("projectDirectory", some (.str owner.projectDirectory)),
    ("capability", some (.str owner.capability))]

/-- The fields of the request that `call` sends under a new id. -/
def requestEntries (environment : Environment) (owner : OwnerContext) (id : JsString)
    (method : Method) : List (String × Option Js) :=
  [("id", some (.str id)), ("version", some (.int daemonProtocolVersion)),
    ("operation", some (.text method.operation)),
    ("owner", some (record (ownerEntries (authorized environment owner)))),
    ("approvalCapability",
      if method.approval then
        some (.str (environment.approvalCapability owner.parentSessionId owner.projectDirectory))
      else none),
    ("payload", some (method.payload owner))]

/-- The request of a call. -/
def request (environment : Environment) (owner : OwnerContext) (id : JsString)
    (method : Method) : Js := record (requestEntries environment owner id method)

/-- The request over HTTP to the daemon of a descriptor, with the body in pieces. -/
def httpRequest (token : JsString) (contentLength : Option JsString)
    (pieces : List (List UInt8)) : HttpRequest :=
  ⟨"POST", "/rpc", some (js "Bearer " ++ token), contentLength, some pieces⟩

/-! ## What the methods mean -/

namespace Method

/-- The call that a method asks for. -/
def call (owner : OwnerContext) : Method → Call
  | spawn options => .spawn (ownedBy owner options) owner
  | exec options => .nativeExec (execOwnedBy owner options) owner
  | execStart options => .nativeExecStart (execOwnedBy owner options) owner
  | execWait id timeoutSeconds => .nativeExecWait id timeoutSeconds
  | wait id condition timeoutSeconds => .wait id condition timeoutSeconds
  | sendWait id data condition timeoutSeconds => .sendWait id data condition timeoutSeconds
  | write id data => .write id data
  | resize id cols rows => .resize id cols rows
  | read id offset limit sequence => .read id offset limit sequence
  | search id pattern ignoreCase offset limit sequence =>
    .search id pattern ignoreCase offset limit sequence
  | list => .list owner
  | get id => .get id
  | getRawBuffer id => .rawOutput id
  | stop id => .stop id
  | cleanup id => .cleanup id
  | cleanupSessions => .cleanupByParentSession owner
  | cleanupApprovals =>
    .approval owner (.cleanupByParentSession (cleanupApprovals.payload owner))
  | createApproval request => .approval owner (.create (record request))
  | prepareApproval request => .approval owner (.prepare (record request))
  | claimApproval id => .approval owner (.claim ((claimApproval id).payload owner))
  | decideApproval id decision claimToken =>
    .approval owner (.decide ((decideApproval id decision claimToken).payload owner))
  | waitForApproval id timeoutSeconds => .approvalWait owner id timeoutSeconds
  | consumeApproval id command reason capability workdir =>
    .approval owner
      (.consume ((consumeApproval id command reason capability workdir).payload owner))
  | listApprovalGrants => .approval owner .listGrants
  | listApprovalRequests => .approval owner .listRequests
  | revokeApprovalGrant id =>
    .approval owner (.revokeGrant ((revokeApprovalGrant id).payload owner))
  | cancelApproval id => .approval owner (.cancel ((cancelApproval id).payload owner))
  | approveNativeApproval id =>
    .approval owner (.nativeApprove ((approveNativeApproval id).payload owner))

/-- What the daemon checks of a payload that is not part of the call: the session id that it
replaces by the one of the owner, and that a command to be executed has no name. -/
def Checked (owner : OwnerContext) : Method → Prop
  | spawn options => options.parentSessionId.length ≤ maxStringLength
  | exec options | execStart options =>
    options.parentSessionId.length ≤ maxStringLength ∧ options.name = none ∧
      options.idempotencyKey = none
  | cleanupSessions => Required owner.parentSessionId
  | _ => True

/-- The conditions under which the daemon does what a method asks for. -/
structure Granted (owns : Ownership) (usage : Windows JsString) (owner : OwnerContext) (now : Int)
    (method : Method) : Prop where
  bounded : (method.call owner).Bounded
  session : ∀ id ∈ (method.call owner).session, owns id owner = true
  input : ∀ data ∈ (method.call owner).data,
    inputLimit.admits usage (owner.input data now) = true
  checked : method.Checked owner

end Method

end OpencodePty.ClientRequests
