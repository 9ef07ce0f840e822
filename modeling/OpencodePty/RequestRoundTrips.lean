import OpencodePty.RequestMeanings

/-!
# From a method of the client to the call of the daemon

A request of the client authenticates as the owner it was made for. The daemon then does what the
method asks for, with the arguments it was given, if and only if the arguments are within their
limits, the owner owns the session, and input is within the budget.
-/

namespace OpencodePty.ClientRequests

open OpencodePty.JsValues OpencodePty.PayloadChecks OpencodePty.FixedWindows
open OpencodePty.RpcDispatch
open OpencodePty.Approvals (Failure requiredString optionalNonnegativeInteger
  requiredPositiveInteger maxStringLength maxApprovalExpirySeconds)

/-! ## The operations -/

section
variable {owns : Ownership} {owner : OwnerContext} {usage : Windows JsString} {now : Int}

/-- The request for a wait for an execution is read back. -/
theorem execWait_request (id : JsString) (timeoutSeconds : Int) :
    Accepts (execWait owns owner (some ((Method.execWait id timeoutSeconds).payload owner)))
      (.nativeExecWait id timeoutSeconds)
      ((Required id ∧ owns id owner = true) ∧ Seconds timeoutSeconds ∧ True) := by
  have distinct : (((Method.execWait id timeoutSeconds).entries owner).map Prod.fst).Nodup := by
    simp [Method.entries]
  exact .bind (ownSession_record distinct (by simp [Method.entries]) (by simp [Method.entries]))
    (.bind (seconds_record distinct (by simp [Method.entries])) (.pure _))

/-- The request for a new size is read back. -/
theorem resize_request (id : JsString) (cols rows : Int) :
    Accepts (resize owns owner (some ((Method.resize id cols rows).payload owner)))
      (.resize id cols rows)
      ((Required id ∧ owns id owner = true) ∧ (1 ≤ cols ∧ cols ≤ 1000) ∧
        (1 ≤ rows ∧ rows ≤ 1000) ∧ True) := by
  have distinct : (((Method.resize id cols rows).entries owner).map Prod.fst).Nodup := by
    simp [Method.entries]
  exact .bind (ownSession_record distinct (by simp [Method.entries]) (by simp [Method.entries]))
    (.bind (size_record distinct (by simp [Method.entries]))
      (.bind (size_record distinct (by simp [Method.entries])) (.pure _)))

/-- A condition is read back from the request that it was written to. -/
theorem condition_request {fields : List (String × Option Js)}
    (distinct : (fields.map Prod.fst).Nodup) (condition : WaitCondition)
    (inside : ("condition", some (record (conditionEntries condition))) ∈ fields) :
    Accepts (waitCondition ((record fields).get "condition")) condition
      (ConditionBounded condition) := by
  rw [record_get distinct inside]
  exact waitCondition_record condition

/-- The request for a wait is read back. -/
theorem wait_request (id : JsString) (condition : WaitCondition) (timeoutSeconds : Int) :
    Accepts (wait owns owner (some ((Method.wait id condition timeoutSeconds).payload owner)))
      (.wait id condition timeoutSeconds)
      ((Required id ∧ owns id owner = true) ∧ ConditionBounded condition ∧
        Seconds timeoutSeconds ∧ True) := by
  have distinct :
      (((Method.wait id condition timeoutSeconds).entries owner).map Prod.fst).Nodup := by
    simp [Method.entries]
  exact .bind (ownSession_record distinct (by simp [Method.entries]) (by simp [Method.entries]))
    (.bind (condition_request distinct condition (by simp [Method.entries]))
      (.bind (seconds_record distinct (by simp [Method.entries])) (.pure _)))

/-- The request for a read is read back. -/
theorem read_request (id : JsString) (offset limit sequence : Option Int) :
    Accepts (read owns owner (some ((Method.read id offset limit sequence).payload owner)))
      (.read id offset limit sequence)
      ((Required id ∧ owns id owner = true) ∧ Page offset ∧ Page limit ∧
        RpcDispatch.Sequence sequence ∧ True) := by
  have distinct :
      (((Method.read id offset limit sequence).entries owner).map Prod.fst).Nodup := by
    simp [Method.entries]
  exact .bind (ownSession_record distinct (by simp [Method.entries]) (by simp [Method.entries]))
    (.bind (page_record distinct (by simp [Method.entries]))
      (.bind (page_record distinct (by simp [Method.entries]))
        (.bind (sequence_record distinct (by simp [Method.entries])) (.pure _))))

/-- The request for a search is read back. -/
theorem search_request (id pattern : JsString) (ignoreCase : Bool)
    (offset limit sequence : Option Int) :
    Accepts
      (search owns owner
        (some ((Method.search id pattern ignoreCase offset limit sequence).payload owner)))
      (.search id pattern ignoreCase offset limit sequence)
      ((Required id ∧ owns id owner = true) ∧ Required pattern ∧ True ∧ Page offset ∧
        Page limit ∧ RpcDispatch.Sequence sequence ∧ True) := by
  have distinct : (((Method.search id pattern ignoreCase offset limit sequence).entries
      owner).map Prod.fst).Nodup := by
    simp [Method.entries]
  exact .bind (ownSession_record distinct (by simp [Method.entries]) (by simp [Method.entries]))
    (.bind (requiredString_record distinct (by simp [Method.entries]))
      (.bind (@optionalBoolean_record _ "ignoreCase" distinct (some ignoreCase)
          (by simp [Method.entries]))
        (.bind (page_record distinct (by simp [Method.entries]))
          (.bind (page_record distinct (by simp [Method.entries]))
            (.bind (sequence_record distinct (by simp [Method.entries])) (.pure _))))))

/-- The operations that ask for nothing but a session. -/
theorem onSession_request (id : JsString) (make : JsString → Call) :
    Accepts (onSession owns owner (some (record [("id", some (.str id))])) make) (make id)
      ((Required id ∧ owns id owner = true) ∧ True) := by
  have distinct : (([("id", some (.str id))] : List (String × Option Js)).map Prod.fst).Nodup := by
    simp
  exact .bind (ownSession_record distinct (by simp) (by simp)) (.pure _)

/-- The request for a cleanup is read back. -/
theorem cleanupByParentSession_request :
    Accepts (cleanupByParentSession owner (some (Method.cleanupSessions.payload owner)))
      (.cleanupByParentSession owner) (Required owner.parentSessionId) := by
  have distinct : ((Method.cleanupSessions.entries owner).map Prod.fst).Nodup := by
    simp [Method.entries]
  refine Accepts.imp (.bind (fieldsPayload_record (by simp [Method.entries]))
    (.bind (@requiredString_record _ "parentSessionId" distinct owner.parentSessionId
        (by simp [Method.entries]))
      (.unless (.pure _)))) ?_
  simp

/-- The request for a wait for an approval is read back. -/
theorem approvalWait_request (id : JsString) (timeoutSeconds : Int) :
    Accepts (approvalWait owner (some ((Method.waitForApproval id timeoutSeconds).payload owner)))
      (.approvalWait owner id timeoutSeconds)
      (Required id ∧ 1 ≤ timeoutSeconds ∧ timeoutSeconds ≤ maxApprovalExpirySeconds) := by
  have distinct :
      (((Method.waitForApproval id timeoutSeconds).entries owner).map Prod.fst).Nodup := by
    simp [Method.entries]
  have shorter : (maxApprovalExpirySeconds : Int) ≤ Approvals.maxPageSize := by decide
  refine Accepts.imp (.bind (fieldsPayload_record (by simp [Method.entries]))
    (.bind (requiredString_record distinct (by simp [Method.entries]))
      (.bind (seconds_record distinct (by simp [Method.entries])) (.unless (.pure _))))) ?_
  simp only [Seconds]
  constructor
  · rintro ⟨_, required, within, short, _⟩
    exact ⟨required, within.1, by omega⟩
  · rintro ⟨required, positive, short⟩
    exact ⟨trivial, required, ⟨positive, by omega⟩, by omega, trivial⟩

/-- Input that is accepted is within the limit of one input and the budget of its owner. -/
theorem withInput_record {fields : List (String × Option Js)} {names : List String}
    (distinct : (fields.map Prod.fst).Nodup)
    (known : ∀ key ∈ fields.map Prod.fst, key ∈ names) {id data : JsString}
    (about : ("id", some (.str id)) ∈ fields) (sends : ("data", some (.str data)) ∈ fields)
    {make : Js → JsString → JsString → Except Failure Call} {call : Call} {condition : Prop}
    (rest : Accepts (make (record fields) id data) call condition) :
    Accepts (withInput owns usage owner (some (record fields)) names now make).1 call
      ((Required id ∧ Required data ∧ owns id owner = true) ∧
        (byteLength data ≤ maxInputBytes ∧
          inputLimit.admits usage (owner.input data now) = true) ∧ condition) := by
  have reads : Accepts (inputPayload owns owner (some (record fields)) names)
      (record fields, id, data) (Required id ∧ Required data ∧ owns id owner = true) := by
    refine Accepts.imp (.bind (fieldsPayload_record known)
      (.bind (requiredString_record distinct about)
        (.bind (requiredString_record distinct sends)
          (.bind authorize_accepts (.pure (record fields, id, data)))))) ?_
    simp
  intro accepted
  unfold withInput
  split
  next failure refused =>
    refine ⟨fun returned => absurd returned (by simp), ?_⟩
    rintro ⟨_, holds, _⟩
    have passed := (reads _).mpr ⟨rfl, holds⟩
    rw [refused] at passed
    cases passed
  next value id' data' passed =>
    obtain ⟨same, holds⟩ := (reads _).mp passed
    obtain ⟨rfl, rfl, rfl⟩ : value = record fields ∧ id' = id ∧ data' = data := by
      simpa using same
    split
    next failure refused =>
      refine ⟨fun returned => absurd returned (by simp), ?_⟩
      rintro ⟨_, _, fits, _⟩
      have used := useInput_ok.mpr ⟨fits.1, fits.2, rfl⟩
      rw [refused] at used
      cases used
    next after used =>
      obtain ⟨small, admitted, _⟩ := useInput_ok.mp used
      rw [rest accepted]
      exact and_congr_right fun _ => (and_iff_right holds).symm.trans
        (and_congr_right fun _ => (and_iff_right ⟨small, admitted⟩).symm)

/-- The request for an input is read back, where the budget has room for it. -/
theorem write_request (id data : JsString) :
    Accepts (write owns usage owner (some ((Method.write id data).payload owner)) now).1
      (.write id data)
      ((Required id ∧ Required data ∧ owns id owner = true) ∧
        (byteLength data ≤ maxInputBytes ∧
          inputLimit.admits usage (owner.input data now) = true) ∧ True) := by
  have distinct : (((Method.write id data).entries owner).map Prod.fst).Nodup := by
    simp [Method.entries]
  exact withInput_record distinct (by simp [Method.entries]) (by simp [Method.entries])
    (by simp [Method.entries]) (.pure _)

/-- The request for an input with a wait is read back, where the budget has room for it. -/
theorem sendWait_request (id data : JsString) (condition : WaitCondition)
    (timeoutSeconds : Int) :
    Accepts
      (sendWait owns usage owner
        (some ((Method.sendWait id data condition timeoutSeconds).payload owner)) now).1
      (.sendWait id data condition timeoutSeconds)
      ((Required id ∧ Required data ∧ owns id owner = true) ∧
        (byteLength data ≤ maxInputBytes ∧
          inputLimit.admits usage (owner.input data now) = true) ∧
        ConditionBounded condition ∧ Seconds timeoutSeconds ∧ True) := by
  have distinct : (((Method.sendWait id data condition timeoutSeconds).entries
      owner).map Prod.fst).Nodup := by
    simp [Method.entries]
  exact withInput_record distinct (by simp [Method.entries]) (by simp [Method.entries])
    (by simp [Method.entries])
    (.bind (condition_request distinct condition (by simp [Method.entries]))
      (.bind (seconds_record distinct (by simp [Method.entries])) (.pure _)))

end

/-! ## The owner of a request -/

/-- What is known of the system: a canonical directory is the canonical one of itself and is not
empty, and hashes are written in hexadecimal. -/
structure Documented (environment : Environment) : Prop where
  canonical : ∀ directory found, environment.realpath directory = some found →
    environment.realpath found = some found ∧ found ≠ []
  hexadecimal : ∀ text, OwnershipSecrets.isSecret (environment.sha256 text) = true

section
variable {environment : Environment} {owner : OwnerContext} {id : JsString} {method : Method}

/-- A request has each field once. -/
theorem request_distinct :
    ((requestEntries environment owner id method).map Prod.fst).Nodup := by
  simp [requestEntries]

/-- Each field of a request is read back. -/
theorem request_get {key : String} {value : Option Js}
    (inside : (key, value) ∈ requestEntries environment owner id method) :
    (request environment owner id method).get key = value :=
  record_get request_distinct inside

/-- The daemon takes the owner of a request for the one that the client was made for. -/
theorem request_owner (documented : Documented environment)
    {parentSessionId projectDirectory : JsString}
    (made : ownerContext environment parentSessionId projectDirectory = some owner) :
    environment.owner (request environment owner id method) =
      .ok (authorized environment owner) := by
  unfold ownerContext at made
  split at made
  next => cases made
  next given' =>
    obtain ⟨directory, found, rfl⟩ := Option.map_eq_some_iff.mp made
    simp only [Bool.or_eq_true, List.isEmpty_iff, not_or] at given'
    obtain ⟨same, nonempty⟩ := documented.canonical _ _ found
    have distinct : ((ownerEntries (authorized environment
        ⟨parentSessionId, directory, []⟩)).map Prod.fst).Nodup := by
      simp [ownerEntries]
    have named : (request environment ⟨parentSessionId, directory, []⟩ id method).get "owner" =
        some (record (ownerEntries (authorized environment ⟨parentSessionId, directory, []⟩))) :=
      request_get (by simp [requestEntries])
    refine owner_ok.mpr ⟨directory, ?_, given'.1, ?_, nonempty, ?_, documented.hexadecimal _, same,
      rfl⟩
    · rw [named]
      exact @record_get _ distinct "parentSessionId" _ (by simp [ownerEntries, authorized])
    · rw [named]
      exact @record_get _ distinct "projectDirectory" _ (by simp [ownerEntries, authorized])
    · rw [named]
      exact @record_get _ distinct "capability" _ (by simp [ownerEntries])

/-- A capability has 64 characters. -/
theorem isSecret_length {text : JsString} (secret : OwnershipSecrets.isSecret text = true) :
    text.length = 64 := by
  simp only [OwnershipSecrets.isSecret, Bool.and_eq_true] at secret
  simpa using secret.1

/-- A request about approvals presents the capability for them. -/
theorem request_approvalOwner (documented : Documented environment)
    {parentSessionId projectDirectory : JsString}
    (made : ownerContext environment parentSessionId projectDirectory = some owner)
    (approval : method.approval = true) :
    environment.approvalOwner (request environment owner id method) =
      .ok (authorized environment owner) := by
  have authenticated := @request_owner environment owner id method documented _ _ made
  have presented : (request environment owner id method).get "approvalCapability" =
      some (.str (environment.approvalCapability owner.parentSessionId
        owner.projectDirectory)) := by
    refine request_get ?_
    simp [requestEntries, approval]
  have length := isSecret_length (documented.hexadecimal (joined [js "approval",
    environment.ownershipSecret, owner.parentSessionId, owner.projectDirectory]))
  have whole : (environment.approvalCapability owner.parentSessionId
      owner.projectDirectory).length = 64 := length
  simp only [Environment.approvalOwner, authenticated, presented, bind, Except.bind, authorized,
    whole, ne_eq, not_true_eq_false, decide_false, Bool.or_self, Bool.false_eq_true, if_false, pure,
    Except.pure]

/-- The payload of a request is that of its method. -/
theorem request_payload :
    (request environment owner id method).get "payload" = some (method.payload owner) :=
  request_get (by simp [requestEntries])

end

/-! ## Dispatch -/

section
variable {environment : Environment} {owns : Ownership} {usage : Windows JsString}
  {owner : OwnerContext} {now : Int} {id : JsString} {method : Method}

/-- A method is granted where its call is bounded, owned, within the budget and checked. -/
theorem granted_iff :
    method.Granted owns usage owner now ↔
      (method.call owner).Bounded ∧ (∀ id ∈ (method.call owner).session, owns id owner = true) ∧
        (∀ data ∈ (method.call owner).data,
          inputLimit.admits usage (owner.input data now) = true) ∧ method.Checked owner :=
  ⟨fun granted => ⟨granted.bounded, granted.session, granted.input, granted.checked⟩,
    fun ⟨bounded, session, input, checked⟩ => ⟨bounded, session, input, checked⟩⟩

/-- Every other operation is a call of an owner. -/
theorem dispatch_ownerCall {rpcRequest : Js} (authenticated : environment.owner rpcRequest = .ok owner)
    {operation : String} (plain : operation ∉ ["health", "diagnostics", "write", "sendWait"]) :
    dispatch environment owns usage rpcRequest operation now =
      (ownerCall environment owns rpcRequest owner operation, usage) := by
  simp only [List.mem_cons, List.not_mem_nil, or_false, not_or] at plain
  unfold dispatch
  rw [if_neg plain.1, authenticated]
  dsimp only
  split
  next => exact absurd rfl plain.2.1
  next => exact absurd rfl plain.2.2.1
  next => exact absurd rfl plain.2.2.2
  next => rfl

/-- The payload does not depend on the capability of the owner. -/
theorem payload_authorized :
    method.payload (authorized environment owner) = method.payload owner := by
  cases method <;> rfl

/-- An approval operation is called with its payload, after the capability was seen. -/
theorem approval_accepts {rpcRequest : Js} (approved : environment.approvalOwner rpcRequest = .ok owner)
    (operation : Approvals.Operation) :
    Accepts (do
      let _ ← environment.approvalOwner rpcRequest
      return Call.approval owner operation) (.approval owner operation) True := by
  rw [approved]
  exact .pure _

/-- The request for a session is read back. -/
theorem spawn_request (options : SpawnOptions) :
    Accepts
      (do
        let checked ← spawnPayload (some ((Method.spawn options).payload owner))
        return Call.spawn (ownedBy owner checked) owner)
      (.spawn (ownedBy owner options) owner)
      ((SpawnBounded options ∧ options.parentSessionId.length ≤ maxStringLength) ∧ True) := by
  have distinct : ((spawnEntries options).map Prod.fst).Nodup := by simp [spawnEntries]
  have known : ∀ key ∈ (spawnEntries options).map Prod.fst, key ∈ spawnFields := by
    simp [spawnEntries, spawnFields]
  exact .bind (describes_record distinct (fun _ inside => inside) known) (.pure _)

/-- The request for an execution is read back. -/
theorem exec_request (options : ExecOptions) (make : ExecOptions → Call) :
    Accepts
      (do
        let checked ← runtimeLimited (some (record (execEntries options)))
        return make (execOwnedBy owner checked))
      (make (execOwnedBy owner options))
      ((ExecBounded options ∧ options.parentSessionId.length ≤ maxStringLength ∧
        options.name = none ∧ options.idempotencyKey = none) ∧ True) :=
  .bind (runtimeLimited_record options) (.pure _)

/-- The session that the owner is put into does not count for the limits. -/
theorem spawnBounded_ownedBy {options : SpawnOptions} :
    SpawnBounded (ownedBy owner options) ↔ SpawnBounded options :=
  ⟨fun bounded => { bounded with }, fun bounded => bounded.ownedBy owner⟩

/-- The owner changes no bound of an execution. -/
theorem execBounded_ownedBy {options : ExecOptions} :
    ExecBounded (execOwnedBy owner options) ↔ ExecBounded options :=
  ⟨fun bounded => { spawnBounded_ownedBy.mp bounded.toSpawnBounded with
      runtime := bounded.runtime, output := bounded.output }, fun bounded => bounded.ownedBy owner⟩

/-- The operations other than those that send input. -/
theorem ownerCall_request {rpcRequest : Js}
    (payload : rpcRequest.get "payload" = some (method.payload owner))
    (approved : method.approval = true → environment.approvalOwner rpcRequest = .ok owner)
    (quiet : (method.call owner).data = none) :
    Accepts (ownerCall environment owns rpcRequest owner method.operation) (method.call owner)
      (method.Granted owns usage owner now) := by
  have approval (make : Js → Approvals.Operation) (presents : method.approval = true) :
      Accepts (do
        let _ ← environment.approvalOwner rpcRequest
        return Call.approval owner (make ((rpcRequest.get "payload").getD .null)))
        (.approval owner (make (method.payload owner))) True := by
    rw [payload]
    exact approval_accepts (approved presents) _
  have plain (operation : Approvals.Operation) (presents : method.approval = true) :
      Accepts (do
        let _ ← environment.approvalOwner rpcRequest
        return Call.approval owner operation) (.approval owner operation) True :=
    approval_accepts (approved presents) operation
  rw [granted_iff, quiet]
  cases method with
  | spawn options =>
    change Accepts (rpcRequest.get "payload" |> fun payload => do
      let checked ← spawnPayload payload
      return Call.spawn (ownedBy owner checked) owner) _ _
    rw [payload]
    refine Accepts.imp (spawn_request options) ?_
    simp [Method.call, Call.Bounded, Call.session, Method.Checked, spawnBounded_ownedBy]
  | exec options =>
    change Accepts (rpcRequest.get "payload" |> fun payload => do
      let checked ← runtimeLimited payload
      return Call.nativeExec (execOwnedBy owner checked) owner) _ _
    rw [payload]
    refine Accepts.imp (exec_request options fun checked => .nativeExec checked owner) ?_
    simp [Method.call, Call.Bounded, Call.session, Method.Checked, execBounded_ownedBy]
  | execStart options =>
    change Accepts (rpcRequest.get "payload" |> fun payload => do
      let checked ← runtimeLimited payload
      return Call.nativeExecStart (execOwnedBy owner checked) owner) _ _
    rw [payload]
    refine Accepts.imp (exec_request options fun checked => .nativeExecStart checked owner) ?_
    simp [Method.call, Call.Bounded, Call.session, Method.Checked, execBounded_ownedBy]
  | execWait id timeoutSeconds =>
    change Accepts (execWait owns owner (rpcRequest.get "payload")) _ _
    rw [payload]
    refine Accepts.imp (execWait_request id timeoutSeconds) ?_
    simp [Method.call, Call.Bounded, Call.session, Method.Checked]
    tauto
  | wait id condition timeoutSeconds =>
    change Accepts (wait owns owner (rpcRequest.get "payload")) _ _
    rw [payload]
    refine Accepts.imp (wait_request id condition timeoutSeconds) ?_
    simp [Method.call, Call.Bounded, Call.session, Method.Checked]
    tauto
  | sendWait id data condition timeoutSeconds => cases quiet
  | write id data => cases quiet
  | resize id cols rows =>
    change Accepts (resize owns owner (rpcRequest.get "payload")) _ _
    rw [payload]
    refine Accepts.imp (resize_request id cols rows) ?_
    simp [Method.call, Call.Bounded, Call.session, Method.Checked]
    tauto
  | read id offset limit sequence =>
    change Accepts (read owns owner (rpcRequest.get "payload")) _ _
    rw [payload]
    refine Accepts.imp (read_request id offset limit sequence) ?_
    simp [Method.call, Call.Bounded, Call.session, Method.Checked]
    tauto
  | search id pattern ignoreCase offset limit sequence =>
    change Accepts (search owns owner (rpcRequest.get "payload")) _ _
    rw [payload]
    refine Accepts.imp (search_request id pattern ignoreCase offset limit sequence) ?_
    simp [Method.call, Call.Bounded, Call.session, Method.Checked]
    tauto
  | list =>
    refine Accepts.imp (.pure (Call.list owner)) ?_
    simp [Method.call, Call.Bounded, Call.session, Method.Checked]
  | get id =>
    change Accepts (onSession owns owner (rpcRequest.get "payload") .get) _ _
    rw [payload]
    refine Accepts.imp (onSession_request id .get) ?_
    simp [Method.call, Call.Bounded, Call.session, Method.Checked]
  | getRawBuffer id =>
    change Accepts (onSession owns owner (rpcRequest.get "payload") .rawOutput) _ _
    rw [payload]
    refine Accepts.imp (onSession_request id .rawOutput) ?_
    simp [Method.call, Call.Bounded, Call.session, Method.Checked]
  | stop id =>
    change Accepts (onSession owns owner (rpcRequest.get "payload") .stop) _ _
    rw [payload]
    refine Accepts.imp (onSession_request id .stop) ?_
    simp [Method.call, Call.Bounded, Call.session, Method.Checked]
  | cleanup id =>
    change Accepts (onSession owns owner (rpcRequest.get "payload") .cleanup) _ _
    rw [payload]
    refine Accepts.imp (onSession_request id .cleanup) ?_
    simp [Method.call, Call.Bounded, Call.session, Method.Checked]
  | cleanupSessions =>
    change Accepts (cleanupByParentSession owner (rpcRequest.get "payload")) _ _
    rw [payload]
    refine Accepts.imp cleanupByParentSession_request ?_
    simp [Method.call, Call.Bounded, Call.session, Method.Checked]
  | waitForApproval id timeoutSeconds =>
    change Accepts (rpcRequest.get "payload" |> fun payload => do
      let _ ← environment.approvalOwner rpcRequest
      approvalWait owner payload) _ _
    rw [payload, approved rfl]
    refine Accepts.imp (approvalWait_request id timeoutSeconds) ?_
    simp [Method.call, Call.Bounded, Call.session, Method.Checked]
  | cleanupApprovals =>
    refine Accepts.imp (approval .cleanupByParentSession rfl) ?_
    simp [Method.call, Call.Bounded, Call.session, Method.Checked]
  | createApproval request =>
    refine Accepts.imp (approval .create rfl) ?_
    simp [Method.call, Call.Bounded, Call.session, Method.Checked]
  | prepareApproval request =>
    refine Accepts.imp (approval .prepare rfl) ?_
    simp [Method.call, Call.Bounded, Call.session, Method.Checked]
  | claimApproval id =>
    refine Accepts.imp (approval .claim rfl) ?_
    simp [Method.call, Call.Bounded, Call.session, Method.Checked]
  | decideApproval id decision claimToken =>
    refine Accepts.imp (approval .decide rfl) ?_
    simp [Method.call, Call.Bounded, Call.session, Method.Checked]
  | consumeApproval id command reason capability workdir =>
    refine Accepts.imp (approval .consume rfl) ?_
    simp [Method.call, Call.Bounded, Call.session, Method.Checked]
  | revokeApprovalGrant id =>
    refine Accepts.imp (approval .revokeGrant rfl) ?_
    simp [Method.call, Call.Bounded, Call.session, Method.Checked]
  | cancelApproval id =>
    refine Accepts.imp (approval .cancel rfl) ?_
    simp [Method.call, Call.Bounded, Call.session, Method.Checked]
  | approveNativeApproval id =>
    refine Accepts.imp (approval .nativeApprove rfl) ?_
    simp [Method.call, Call.Bounded, Call.session, Method.Checked]
  | listApprovalGrants =>
    refine Accepts.imp (plain .listGrants rfl) ?_
    simp [Method.call, Call.Bounded, Call.session, Method.Checked]
  | listApprovalRequests =>
    refine Accepts.imp (plain .listRequests rfl) ?_
    simp [Method.call, Call.Bounded, Call.session, Method.Checked]

/-- The daemon does for a request what the method asks for, if this is granted. -/
theorem dispatch_request (documented : Documented environment)
    {parentSessionId projectDirectory : JsString}
    (made : ownerContext environment parentSessionId projectDirectory = some owner) :
    Accepts
      (dispatch environment owns usage (request environment owner id method) method.operation now).1
      (method.call (authorized environment owner))
      (method.Granted owns usage (authorized environment owner) now) := by
  have authenticated := @request_owner environment owner id method documented _ _ made
  have approved (approval : method.approval = true) :=
    @request_approvalOwner environment owner id method documented _ _ made approval
  have payload : (request environment owner id method).get "payload" =
      some (method.payload (authorized environment owner)) := by
    rw [request_payload, payload_authorized]
  generalize request environment owner id method = rpcRequest at *
  generalize authorized environment owner = me at *
  by_cases quiet : (method.call me).data = none
  · have plain : method.operation ∉ ["health", "diagnostics", "write", "sendWait"] := by
      cases method with
      | write id data => cases quiet
      | sendWait id data condition timeoutSeconds => cases quiet
      | _ => simp [Method.operation]
    rw [dispatch_ownerCall authenticated plain]
    exact ownerCall_request payload approved quiet
  · rw [granted_iff]
    cases method with
    | write id data =>
      have same : dispatch environment owns usage rpcRequest "write" now =
          write owns usage me (rpcRequest.get "payload") now := by
        simp only [dispatch, authenticated]
        rfl
      rw [Method.operation, same, payload]
      refine Accepts.imp (write_request id data) ?_
      simp [Method.call, Call.Bounded, Call.session, Call.data, Method.Checked]
      tauto
    | sendWait id data condition timeoutSeconds =>
      have same : dispatch environment owns usage rpcRequest "sendWait" now =
          sendWait owns usage me (rpcRequest.get "payload") now := by
        simp only [dispatch, authenticated]
        rfl
      rw [Method.operation, same, payload]
      refine Accepts.imp (sendWait_request id data condition timeoutSeconds) ?_
      simp [Method.call, Call.Bounded, Call.session, Call.data, Method.Checked]
      tauto
    | _ => exact absurd rfl quiet

end

/-! ## Over HTTP -/

/-- A body is read where it is not too large, whatever its pieces are. -/
theorem readPieces_ok {bytes body : List UInt8} {pieces : List (List UInt8)}
    (small : bytes.length ≤ maxRequestBytes) :
    readPieces bytes pieces = some body ↔
      body = bytes ++ pieces.flatten ∧ body.length ≤ maxRequestBytes := by
  induction pieces generalizing bytes with
  | nil =>
    simp only [readPieces, Option.some.injEq, List.flatten_nil, List.append_nil]
    constructor
    · rintro rfl
      exact ⟨rfl, small⟩
    · rintro ⟨rfl, _⟩
      rfl
  | cons piece rest inductionHypothesis =>
    rw [readPieces]
    split
    next large =>
      refine ⟨fun read => absurd read (by simp), ?_⟩
      rintro ⟨rfl, fits⟩
      simp only [List.flatten_cons, List.length_append] at fits large
      omega
    next fits =>
      rw [inductionHypothesis (by omega)]
      simp

/-- The length that a request states is that of its body. -/
def Stated (contentLength : Option JsString) (body : List UInt8) : Prop :=
  ∀ text ∈ contentLength, text.all TextEncodings.isDigit = true ∧ decimal text = body.length

/-- The body of a request is all its pieces, where they fit the limit. -/
theorem requestBody_ok {token : JsString} {contentLength : Option JsString}
    {pieces : List (List UInt8)} (stated : Stated contentLength pieces.flatten)
    {body : List UInt8} :
    requestBody (httpRequest token contentLength pieces) = some body ↔
      body = pieces.flatten ∧ body.length ≤ maxRequestBytes := by
  have read := @readPieces_ok [] body pieces (Nat.zero_le _)
  rw [List.nil_append] at read
  have allowed (fits : pieces.flatten.length ≤ maxRequestBytes) :
      lengthAllowed contentLength = true := by
    cases contentLength with
    | none => rfl
    | some text =>
      obtain ⟨digits, length⟩ := stated text rfl
      simp only [lengthAllowed, digits, length, Bool.true_and, Bool.or_eq_true, decide_eq_true_eq]
      exact .inr fits
  have unfolded : requestBody (httpRequest token contentLength pieces) =
      if lengthAllowed contentLength = true then readPieces [] pieces else none := rfl
  rw [unfolded]
  by_cases passes : lengthAllowed contentLength = true
  · rw [if_pos passes]
    exact read
  · rw [if_neg passes]
    refine ⟨fun read => absurd read (by simp), ?_⟩
    rintro ⟨rfl, fits⟩
    exact absurd (allowed fits) passes

/-- The code units of a name of an operation are read as that name. -/
theorem literal_operation (method : Method) :
    (js method.operation).length ≤ 64 ∧ js method.operation ≠ [] ∧
      String.ofList (literal (js method.operation)) = method.operation := by
  cases method <;> (simp only [Method.operation]; decide)

/-- The envelope of a request names its id and its operation. -/
theorem envelope_request {environment : Environment} {owner : OwnerContext} {id : JsString}
    (named : id ≠ [] ∧ id.length ≤ maxIdLength) (method : Method) :
    envelope (request environment owner id method) = .ok (id, method.operation) := by
  obtain ⟨short, nonempty, same⟩ := literal_operation method
  have name : (request environment owner id method).get "id" = some (.str id) :=
    request_get (by simp [requestEntries])
  have version : (request environment owner id method).get "version" =
      some (.num (.integer daemonProtocolVersion)) :=
    request_get (by simp [requestEntries, Js.int])
  have operation : (request environment owner id method).get "operation" =
      some (.str (js method.operation)) :=
    request_get (by simp [requestEntries, Js.text])
  have first := present_some.mpr ⟨name, named.1⟩
  have second := present_some.mpr ⟨operation, nonempty⟩
  have fits : ¬ id.length > maxIdLength := by omega
  have fits' : ¬ (js method.operation).length > 64 := by omega
  unfold request record at *
  simp only [envelope, first, second, version, fits, fits', same, decide_false, Bool.or_self,
    Bool.false_eq_true, if_false, ne_eq, not_true_eq_false]

/-- The daemon does for a request of the client what the method means, with the arguments it was
given and for the owner that the client was made for, exactly where the client has the token of
the daemon, the body is not too large, and the conditions of the method hold. Otherwise it does
nothing for the request. -/
theorem client_call_accepted {server : Server} (documented : Documented server.toEnvironment)
    {parentSessionId projectDirectory : JsString} {owner : OwnerContext}
    (made : ownerContext server.toEnvironment parentSessionId projectDirectory = some owner)
    {id : JsString} (named : id ≠ [] ∧ id.length ≤ maxIdLength) {method : Method}
    {pieces : List (List UInt8)}
    (parsed : server.parse pieces.flatten = some (request server.toEnvironment owner id method))
    {contentLength : Option JsString} (stated : Stated contentLength pieces.flatten)
    (owns : Ownership) (usage : Windows JsString) (now : Int) (token : JsString)
    (accepted : JsString × Call) :
    (accept server owns usage (httpRequest token contentLength pieces) now).1 = .ok accepted ↔
      accepted = (id, method.call (authorized server.toEnvironment owner)) ∧
        token = server.token ∧ pieces.flatten.length ≤ maxRequestBytes ∧
          method.Granted owns usage (authorized server.toEnvironment owner) now := by
  have dispatched := @dispatch_request server.toEnvironment owns usage owner now id method
    documented _ _ made
  have target : ¬ ((httpRequest token contentLength pieces).method ≠ "POST" ||
      (httpRequest token contentLength pieces).pathname ≠ "/rpc") = true := by
    simp [httpRequest]
  have credential : (httpRequest token contentLength pieces).authorization =
      some (js "Bearer " ++ server.token) ↔ token = server.token := by
    simp [httpRequest]
  unfold accept
  rw [if_neg target]
  split
  next wrong =>
    refine ⟨fun answered => absurd answered (by simp), ?_⟩
    rintro ⟨_, same, _⟩
    exact absurd (credential.mpr same) wrong
  next right =>
    rw [and_iff_right (credential.mp (not_not.mp right))]
    split
    next large =>
      refine ⟨fun answered => absurd answered (by simp), ?_⟩
      rintro ⟨_, fits, _⟩
      have read := (@requestBody_ok token _ _ stated _).mpr ⟨rfl, fits⟩
      rw [large] at read
      cases read
    next body read =>
      obtain ⟨rfl, fits⟩ := (requestBody_ok stated).mp read
      rw [and_iff_right fits]
      simp only [parsed, envelope_request named method]
      split
      next failure usage' refused =>
        refine ⟨fun answered => absurd answered (by simp), ?_⟩
        rintro ⟨_, granted⟩
        have done := (dispatched _).mpr ⟨rfl, granted⟩
        rw [refused] at done
        cases done
      next call usage' done =>
        rw [done] at dispatched
        simp only [Except.ok.injEq]
        constructor
        · rintro rfl
          obtain ⟨rfl, granted⟩ := (dispatched call).mp rfl
          exact ⟨rfl, granted⟩
        · rintro ⟨rfl, granted⟩
          have same := (dispatched _).mpr ⟨rfl, granted⟩
          cases same
          rfl

/-- The owner whose client sends a request, and what it asks for. -/
def demoClient : OwnerContext := ⟨js "p", js "/d", []⟩

/-- An input for a session. -/
def demoWrite : Method := .write (js "s") (js "ab")

/-- The host of this daemon does what is documented. -/
theorem demo_documented : Documented demoServer.toEnvironment where
  canonical directory found canonical := by
    simp only [demoServer] at canonical ⊢
    split at canonical
    next known =>
      cases canonical
      exact ⟨if_pos known, known ▸ by decide⟩
    next => cases canonical
  hexadecimal text := by
    simp only [demoServer, demoDigest]
    split
    · decide
    · split <;> decide

/-- The input is granted. -/
theorem demo_granted :
    demoWrite.Granted (fun _ _ => true) (fun _ => none)
      (authorized demoServer.toEnvironment demoClient) 0 where
  bounded := by
    refine ⟨⟨?_, ?_⟩, ⟨?_, ?_⟩, ?_⟩ <;> decide
  session _ _ := rfl
  input data sent := by
    cases sent
    decide
  checked := trivial

set_option maxRecDepth 4000 in
/-- The daemon reads of the bytes the request that the client has made. -/
theorem demo_parsed : demoServer.parse [demoWritten.take 40, demoWritten.drop 40].flatten =
    some (request demoServer.toEnvironment demoClient (js "1") demoWrite) := by
  rfl

set_option maxRecDepth 4000 in
/-- A client writes to a session, with a body in two pieces. -/
theorem client_write_accepted :
    (accept demoServer (fun _ _ => true) (fun _ => none)
      (httpRequest (js "t") (some (js "211")) [demoWritten.take 40, demoWritten.drop 40]) 0).1 =
        .ok (js "1", .write (js "s") (js "ab")) := by
  have made : ownerContext demoServer.toEnvironment (js "p") (js "/d") = some demoClient := by rfl
  have stated : Stated (some (js "211")) [demoWritten.take 40, demoWritten.drop 40].flatten := by
    rintro _ ⟨rfl⟩
    decide
  exact (@client_call_accepted demoServer demo_documented (js "p") (js "/d") demoClient made
    (js "1") (by decide) demoWrite [demoWritten.take 40, demoWritten.drop 40] demo_parsed
    (some (js "211")) stated (fun _ _ => true) (fun _ => none) 0 (js "t")
    (js "1", .write (js "s") (js "ab"))).mpr ⟨rfl, rfl, by decide, demo_granted⟩

end OpencodePty.ClientRequests
