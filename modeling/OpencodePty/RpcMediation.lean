import OpencodePty.RpcDispatch

/-!
# What a request can reach

A request leads to a call on the supervisor or on the approvals only with the token of the
daemon, for an owner that it authenticates as, on sessions that this owner owns, and with
arguments within their limits. Every other request is answered without a call.
-/

namespace OpencodePty.RpcDispatch

open OpencodePty.JsValues OpencodePty.PayloadChecks OpencodePty.FixedWindows
open OpencodePty.Approvals (Failure requiredString optionalNonnegativeInteger
  requiredPositiveInteger maxApprovalExpirySeconds maxStringLength maxCommandLength maxPageSize)

/-! ## Limits -/

/-- A text that a payload must give. -/
def Required (text : JsString) : Prop := text ≠ [] ∧ text.length ≤ maxStringLength

/-- A number of seconds that a payload must give. -/
def Seconds (seconds : Int) : Prop := 1 ≤ seconds ∧ seconds ≤ maxPageSize

/-- An offset or a number of lines that a payload may give. -/
def Page (number : Option Int) : Prop := ∀ value ∈ number, 0 ≤ value ∧ value ≤ maxPageSize

/-- A position in the output that a payload may give. -/
def Sequence (sequence : Option Int) : Prop :=
  ∀ value ∈ sequence, 0 ≤ value ∧ value ≤ maxSafeInteger

/-- A text that a payload may give. -/
def Short (text : Option JsString) : Prop := ∀ value ∈ text, value.length ≤ maxStringLength

/-- The options of a session are within their bounds. -/
structure SpawnBounded (options : SpawnOptions) : Prop where
  command : options.command ≠ [] ∧ options.command.length ≤ maxCommandLength
  args : ∀ args ∈ options.args, ArgsFit args
  env : ∀ entries ∈ options.env, EnvFits entries
  timeoutSeconds : ∀ seconds ∈ options.timeoutSeconds, Seconds seconds
  description : Short options.description
  workdir : Short options.workdir
  title : Short options.title
  parentAgent : Short options.parentAgent
  name : Short options.name
  idempotencyKey : Short options.idempotencyKey

/-- The options of an execution are within their bounds. -/
structure ExecBounded (options : ExecOptions) : Prop extends
    SpawnBounded options.toSpawnOptions where
  runtime : ∀ seconds ∈ options.timeoutSeconds, seconds ≤ maxExecRuntimeSeconds
  output : ∀ bytes ∈ options.maxOutputBytes, 1 ≤ bytes ∧ bytes ≤ maxRequestBytes

/-- What a wait waits for: the exit, or one text that is not empty. -/
def ConditionBounded : WaitCondition → Prop
  | .exit => True
  | .output literal regex => Short literal ∧ Short regex ∧ given literal ≠ given regex

/-- The arguments of a call are within their limits. -/
def Call.Bounded : Call → Prop
  | .spawn options _ => SpawnBounded options
  | .nativeExec options _ | .nativeExecStart options _ => ExecBounded options
  | .nativeExecWait id timeoutSeconds => Required id ∧ Seconds timeoutSeconds
  | .write id data => Required id ∧ Required data ∧ byteLength data ≤ maxInputBytes
  | .resize id cols rows =>
    Required id ∧ (1 ≤ cols ∧ cols ≤ 1000) ∧ 1 ≤ rows ∧ rows ≤ 1000
  | .wait id condition timeoutSeconds =>
    Required id ∧ ConditionBounded condition ∧ Seconds timeoutSeconds
  | .sendWait id data condition timeoutSeconds =>
    Required id ∧ Required data ∧ byteLength data ≤ maxInputBytes ∧ ConditionBounded condition ∧
      Seconds timeoutSeconds
  | .read id offset limit sequence => Required id ∧ Page offset ∧ Page limit ∧ Sequence sequence
  | .search id pattern _ offset limit sequence =>
    Required id ∧ Required pattern ∧ Page offset ∧ Page limit ∧ Sequence sequence
  | .get id | .rawOutput id | .execOutput id | .stop id | .cleanup id => Required id
  | .approvalWait _ id timeoutSeconds =>
    Required id ∧ 1 ≤ timeoutSeconds ∧ timeoutSeconds ≤ maxApprovalExpirySeconds
  | .health | .diagnostics _ | .list _ | .cleanupByParentSession _ | .approval _ _ => True

/-- The session that a call is about. -/
def Call.session : Call → Option JsString
  | .nativeExecWait id _ | .write id _ | .resize id _ _ | .wait id _ _ | .sendWait id _ _ _
  | .read id _ _ _ | .search id _ _ _ _ _ | .get id | .rawOutput id | .execOutput id | .stop id
  | .cleanup id => some id
  | _ => none

/-- The owner that a call is made for. -/
def Call.owner : Call → Option OwnerContext
  | .diagnostics owner | .spawn _ owner | .nativeExec _ owner | .nativeExecStart _ owner
  | .list owner | .cleanupByParentSession owner | .approval owner _ | .approvalWait owner _ _ =>
    some owner
  | _ => none

/-- The call is one of the approvals. -/
def Call.onApprovals : Call → Bool
  | .approval _ _ | .approvalWait _ _ _ => true
  | _ => false

/-- What stands behind a call: the request is authenticated for an owner, which the call is made
for and which owns the session, and the arguments are within their limits. -/
structure Granted (environment : Environment) (owns : Ownership) (request : Js)
    (owner : OwnerContext) (call : Call) : Prop where
  authenticated : environment.owner request = .ok owner
  session : ∀ id ∈ call.session, owns id owner = true
  madeFor : ∀ other ∈ call.owner, other = owner
  approvals : call.onApprovals = true → environment.approvalOwner request = .ok owner
  bounded : call.Bounded

/-! ## The checks of each operation -/

section
variable {environment : Environment} {owns : Ownership} {owner : OwnerContext} {request : Js}
  {call : Call}

/-- A field is present where it is a text that is not empty. -/
theorem present_some {value : Option Js} {text : JsString} :
    Environment.present value = some text ↔ value = some (.str text) ∧ text ≠ [] := by
  unfold Environment.present
  split
  next found =>
    split
    next empty =>
      simp only [Option.some.injEq, Js.str.injEq]
      refine ⟨fun read => absurd read (by simp), ?_⟩
      rintro ⟨rfl, nonempty⟩
      exact absurd (List.isEmpty_iff.mp empty) nonempty
    next nonempty =>
      simp only [Option.some.injEq, Js.str.injEq]
      constructor
      · rintro rfl
        exact ⟨rfl, by simpa using nonempty⟩
      · exact And.left
  next other =>
    refine ⟨fun read => absurd read (by simp), ?_⟩
    rintro ⟨rfl, _⟩
    exact (other text rfl).elim

/-- The owner of a request presents the hash of the secret and of its own names. -/
theorem owner_ok :
    environment.owner request = .ok owner ↔
      ∃ directory,
        field (request.get "owner") "parentSessionId" = some (.str owner.parentSessionId) ∧
        owner.parentSessionId ≠ [] ∧
        field (request.get "owner") "projectDirectory" = some (.str directory) ∧
        directory ≠ [] ∧
        field (request.get "owner") "capability" = some (.str owner.capability) ∧
        OwnershipSecrets.isSecret owner.capability = true ∧
        environment.realpath directory = some owner.projectDirectory ∧
        owner.capability =
          environment.capability owner.parentSessionId owner.projectDirectory := by
  constructor
  · intro authenticated
    simp only [Environment.owner] at authenticated
    split at authenticated
    next parentSessionId directory capability parent project presented =>
      obtain ⟨parent, parent'⟩ := present_some.mp parent
      obtain ⟨project, project'⟩ := present_some.mp project
      obtain ⟨presented, _⟩ := present_some.mp presented
      split at authenticated
      next => cases authenticated
      next secret =>
        split at authenticated
        next => cases authenticated
        next canonical found =>
          split at authenticated
          next => cases authenticated
          next same =>
            cases authenticated
            exact ⟨directory, parent, parent', project, project', presented, by simpa using secret,
              found, not_not.mp same⟩
    next => cases authenticated
  · rintro ⟨directory, parent, parent', project, project', presented, secret, found, same⟩
    have nonempty : owner.capability ≠ [] := by
      intro empty
      rw [empty] at secret
      cases secret
    have first := present_some.mpr ⟨parent, parent'⟩
    have second := present_some.mpr ⟨project, project'⟩
    have third := present_some.mpr ⟨presented, nonempty⟩
    simp only [Environment.owner, first, second, third, secret, found, ← same, Bool.not_true,
      Bool.false_eq_true, if_false, ne_eq, not_true_eq_false]

/-- A call about a session is admitted from its owner. -/
theorem authorize_ok {id : JsString} :
    authorize owns owner id = .ok () ↔ owns id owner = true := by
  unfold authorize
  split
  next owned => simp [owned]
  next foreign => simp [foreign]

/-- The session of a call is named in its payload, and is the owner's. -/
theorem ownSession_ok {payload : Option Js} {fields : List String} {value : Js} {id : JsString} :
    ownSession owns owner payload fields = .ok (value, id) ↔
      fieldsPayload payload fields = .ok value ∧ requiredString value "id" = .ok id ∧
        owns id owner = true := by
  constructor
  · intro accepted
    obtain ⟨object, fields', rest⟩ := bind_ok accepted
    obtain ⟨name, read, rest⟩ := bind_ok rest
    obtain ⟨_, allowed, rest⟩ := bind_ok rest
    cases rest
    exact ⟨fields', read, authorize_ok.mp allowed⟩
  · rintro ⟨fields', read, owned⟩
    have allowed := authorize_ok.mpr owned
    simp only [ownSession, fields', read, allowed, bind, Except.bind, pure, Except.pure]

/-- A call on a session that its owner owns. -/
theorem granted_session (authenticated : environment.owner request = .ok owner) {id : JsString}
    (about : call.session = some id) (owned : owns id owner = true) (unowned : call.owner = none)
    (plain : call.onApprovals = false) (bounded : call.Bounded) :
    Granted environment owns request owner call where
  authenticated := authenticated
  session other inside := by
    rw [about, Option.mem_some_iff] at inside
    rw [← inside]
    exact owned
  madeFor other inside := by
    rw [unowned] at inside
    cases inside
  approvals now := by
    rw [plain] at now
    cases now
  bounded := bounded

/-- A call for an owner, not about one session. -/
theorem granted_owner (authenticated : environment.owner request = .ok owner)
    (unnamed : call.session = none) (own : call.owner = some owner)
    (approvals : call.onApprovals = true → environment.approvalOwner request = .ok owner)
    (bounded : call.Bounded) : Granted environment owns request owner call where
  authenticated := authenticated
  session other inside := by
    rw [unnamed] at inside
    cases inside
  madeFor other inside := by
    rw [own, Option.mem_some_iff] at inside
    exact inside.symm
  approvals := approvals
  bounded := bounded

/-- A call about a session is granted where it is accepted. -/
theorem onSession_granted (authenticated : environment.owner request = .ok owner)
    {payload : Option Js} {make : JsString → Call}
    (about : ∀ id, (make id).session = some id ∧ (make id).owner = none ∧
      (make id).onApprovals = false ∧ ((make id).Bounded ↔ Required id))
    (accepted : onSession owns owner payload make = .ok call) :
    Granted environment owns request owner call := by
  obtain ⟨⟨value, id⟩, own, rest⟩ := bind_ok accepted
  obtain ⟨_, read, owned⟩ := ownSession_ok.mp own
  obtain ⟨session, unowned, plain, bounded⟩ := about id
  cases rest
  exact granted_session authenticated session owned unowned plain
    (bounded.mpr (requiredString_ok.mp read).2)

/-- A wait for an execution is granted where it is accepted. -/
theorem execWait_granted (authenticated : environment.owner request = .ok owner)
    {payload : Option Js} (accepted : execWait owns owner payload = .ok call) :
    Granted environment owns request owner call := by
  obtain ⟨⟨value, id⟩, own, rest⟩ := bind_ok accepted
  obtain ⟨_, read, owned⟩ := ownSession_ok.mp own
  obtain ⟨seconds, checked, rest⟩ := bind_ok rest
  cases rest
  exact granted_session authenticated rfl owned rfl rfl
    ⟨(requiredString_ok.mp read).2, (requiredPositiveInteger_ok.mp checked).2⟩

/-- A new size is granted where it is accepted. -/
theorem resize_granted (authenticated : environment.owner request = .ok owner)
    {payload : Option Js} (accepted : resize owns owner payload = .ok call) :
    Granted environment owns request owner call := by
  have safe : (1000 : Int) ≤ maxSafeInteger := by decide
  obtain ⟨⟨value, id⟩, own, rest⟩ := bind_ok accepted
  obtain ⟨_, read, owned⟩ := ownSession_ok.mp own
  obtain ⟨cols, cols', rest⟩ := bind_ok rest
  obtain ⟨rows, rows', rest⟩ := bind_ok rest
  cases rest
  exact granted_session authenticated rfl owned rfl rfl
    ⟨(requiredString_ok.mp read).2, ((requiredBoundedInteger_ok safe).mp cols').2,
      ((requiredBoundedInteger_ok safe).mp rows').2⟩

/-- An optional text that is read is not too long. -/
theorem short_of_ok {value : Js} {key : String} {text : Option JsString}
    (read : optionalString value key = .ok text) : Short text := (optionalString_ok.mp read).2

/-- A condition that is read is within its bounds. -/
theorem condition_bounded {payload : Option Js} {condition : WaitCondition}
    (accepted : waitCondition payload = .ok condition) : ConditionBounded condition := by
  obtain ⟨value, _, _, given'⟩ := waitCondition_ok.mp accepted
  cases condition with
  | exit => trivial
  | output literal regex => exact ⟨short_of_ok given'.1, short_of_ok given'.2.1, given'.2.2⟩

/-- A wait is granted where it is accepted. -/
theorem wait_granted (authenticated : environment.owner request = .ok owner)
    {payload : Option Js} (accepted : wait owns owner payload = .ok call) :
    Granted environment owns request owner call := by
  obtain ⟨⟨value, id⟩, own, rest⟩ := bind_ok accepted
  obtain ⟨_, read, owned⟩ := ownSession_ok.mp own
  obtain ⟨condition, condition', rest⟩ := bind_ok rest
  obtain ⟨seconds, seconds', rest⟩ := bind_ok rest
  cases rest
  exact granted_session authenticated rfl owned rfl rfl
    ⟨(requiredString_ok.mp read).2, condition_bounded condition',
      (requiredPositiveInteger_ok.mp seconds').2⟩

/-- A read is granted where it is accepted. -/
theorem read_granted (authenticated : environment.owner request = .ok owner)
    {payload : Option Js} (accepted : read owns owner payload = .ok call) :
    Granted environment owns request owner call := by
  obtain ⟨⟨value, id⟩, own, rest⟩ := bind_ok accepted
  obtain ⟨_, name, owned⟩ := ownSession_ok.mp own
  obtain ⟨offset, offset', rest⟩ := bind_ok rest
  obtain ⟨limit, limit', rest⟩ := bind_ok rest
  obtain ⟨sequence, sequence', rest⟩ := bind_ok rest
  cases rest
  exact granted_session authenticated rfl owned rfl rfl
    ⟨(requiredString_ok.mp name).2, (optionalNonnegativeInteger_ok.mp offset').2,
      (optionalNonnegativeInteger_ok.mp limit').2, (optionalSequence_ok.mp sequence').2⟩

/-- A search is granted where it is accepted. -/
theorem search_granted (authenticated : environment.owner request = .ok owner)
    {payload : Option Js} (accepted : search owns owner payload = .ok call) :
    Granted environment owns request owner call := by
  obtain ⟨⟨value, id⟩, own, rest⟩ := bind_ok accepted
  obtain ⟨_, name, owned⟩ := ownSession_ok.mp own
  obtain ⟨pattern, pattern', rest⟩ := bind_ok rest
  obtain ⟨ignoreCase, _, rest⟩ := bind_ok rest
  obtain ⟨offset, offset', rest⟩ := bind_ok rest
  obtain ⟨limit, limit', rest⟩ := bind_ok rest
  obtain ⟨sequence, sequence', rest⟩ := bind_ok rest
  cases rest
  exact granted_session authenticated rfl owned rfl rfl
    ⟨(requiredString_ok.mp name).2, (requiredString_ok.mp pattern').2,
      (optionalNonnegativeInteger_ok.mp offset').2, (optionalNonnegativeInteger_ok.mp limit').2,
      (optionalSequence_ok.mp sequence').2⟩

/-- The input of a call is read with its session, which is the owner's. -/
theorem inputPayload_ok {payload : Option Js} {fields : List String} {value : Js}
    {id data : JsString} :
    inputPayload owns owner payload fields = .ok (value, id, data) ↔
      fieldsPayload payload fields = .ok value ∧ requiredString value "id" = .ok id ∧
        requiredString value "data" = .ok data ∧ owns id owner = true := by
  constructor
  · intro accepted
    obtain ⟨object, fields', rest⟩ := bind_ok accepted
    obtain ⟨name, read, rest⟩ := bind_ok rest
    obtain ⟨text, data', rest⟩ := bind_ok rest
    obtain ⟨_, allowed, rest⟩ := bind_ok rest
    cases rest
    exact ⟨fields', read, data', authorize_ok.mp allowed⟩
  · rintro ⟨fields', read, data', owned⟩
    have allowed := authorize_ok.mpr owned
    simp only [inputPayload, fields', read, data', allowed, bind, Except.bind, pure, Except.pure]

/-- Input is accepted where it fits into what is left of the budget of its owner. -/
theorem useInput_ok {usage after : Windows JsString} {data : JsString} {now : Int} :
    useInput usage owner data now = .ok after ↔
      byteLength data ≤ maxInputBytes ∧ inputLimit.admits usage (owner.input data now) = true ∧
        after = inputLimit.spend usage (owner.input data now) := by
  unfold useInput
  split
  next large =>
    refine ⟨fun accepted => absurd accepted (by simp), fun fits => ?_⟩
    omega
  next small =>
    split
    next admitted =>
      simp only [Except.ok.injEq, admitted, true_and]
      constructor
      · rintro rfl
        exact ⟨by omega, rfl⟩
      · rintro ⟨_, rfl⟩
        rfl
    next refused => simp [refused]

/-- Input that leads to a call: it is for a session of its owner, and fits the budget. -/
theorem withInput_ok {usage after : Windows JsString} {payload : Option Js} {fields : List String}
    {now : Int} {make : Js → JsString → JsString → Except Failure Call}
    (accepted : withInput owns usage owner payload fields now make = (.ok call, after)) :
    ∃ value id data, inputPayload owns owner payload fields = .ok (value, id, data) ∧
      useInput usage owner data now = .ok after ∧ make value id data = .ok call := by
  unfold withInput at accepted
  split at accepted
  next => cases accepted
  next value id data read =>
    split at accepted
    next => cases accepted
    next usage' used =>
      obtain ⟨made, rfl⟩ := Prod.mk.inj accepted
      exact ⟨value, id, data, read, used, made⟩

/-- An input is granted where it is accepted. -/
theorem write_granted (authenticated : environment.owner request = .ok owner)
    {usage after : Windows JsString} {payload : Option Js} {now : Int}
    (accepted : write owns usage owner payload now = (.ok call, after)) :
    Granted environment owns request owner call := by
  obtain ⟨value, id, data, read, used, rest⟩ := withInput_ok accepted
  obtain ⟨_, name, data', owned⟩ := inputPayload_ok.mp read
  cases rest
  exact granted_session authenticated rfl owned rfl rfl
    ⟨(requiredString_ok.mp name).2, (requiredString_ok.mp data').2, (useInput_ok.mp used).1⟩

/-- An input with a wait is granted where it is accepted. -/
theorem sendWait_granted (authenticated : environment.owner request = .ok owner)
    {usage after : Windows JsString} {payload : Option Js} {now : Int}
    (accepted : sendWait owns usage owner payload now = (.ok call, after)) :
    Granted environment owns request owner call := by
  obtain ⟨value, id, data, read, used, rest⟩ := withInput_ok accepted
  obtain ⟨_, name, data', owned⟩ := inputPayload_ok.mp read
  obtain ⟨condition, condition', rest⟩ := bind_ok rest
  obtain ⟨seconds, seconds', rest⟩ := bind_ok rest
  cases rest
  exact granted_session authenticated rfl owned rfl rfl
    ⟨(requiredString_ok.mp name).2, (requiredString_ok.mp data').2, (useInput_ok.mp used).1,
      condition_bounded condition', (requiredPositiveInteger_ok.mp seconds').2⟩

/-- Options of a session that are read are within their bounds. -/
theorem spawn_bounded {payload : Option Js} {options : SpawnOptions}
    (accepted : spawnPayload payload = .ok options) : SpawnBounded options := by
  obtain ⟨value, _, described⟩ := spawnPayload_ok.mp accepted
  exact
    { command := (spawnCommand_ok.mp described.command).2
      args := (spawnArgs_ok.mp described.args).2
      env := (spawnEnv_ok.mp described.env).2
      timeoutSeconds := (spawnTimeout_ok.mp described.timeoutSeconds).2
      description := short_of_ok described.description
      workdir := short_of_ok described.workdir
      title := short_of_ok described.title
      parentAgent := short_of_ok described.parentAgent
      name := short_of_ok described.name
      idempotencyKey := short_of_ok described.idempotencyKey }

/-- The owner changes no bound of a session. -/
theorem SpawnBounded.ownedBy {options : SpawnOptions} (bounded : SpawnBounded options)
    (owner : OwnerContext) : SpawnBounded (ownedBy owner options) := { bounded with }

/-- Options of an execution that are read are within their bounds. -/
theorem exec_bounded {payload : Option Js} {options : ExecOptions}
    (accepted : runtimeLimited payload = .ok options) : ExecBounded options := by
  obtain ⟨checked, read, rest⟩ := bind_ok accepted
  obtain ⟨value, _, spawned, _, output⟩ := execPayload_ok.mp read
  split at rest
  next => cases rest
  next short =>
    cases rest
    refine { spawn_bounded spawned with runtime := ?_, output := output }
    intro seconds given'
    rw [Option.mem_def] at given'
    simp only [given', Option.getD_some] at short
    omega

/-- The owner changes no bound of an execution. -/
theorem ExecBounded.ownedBy {options : ExecOptions} (bounded : ExecBounded options)
    (owner : OwnerContext) : ExecBounded (execOwnedBy owner options) :=
  { bounded.toSpawnBounded.ownedBy owner with runtime := bounded.runtime, output := bounded.output }

/-- The approvals ask for a capability of their own. -/
theorem approvalOwner_same (authenticated : environment.owner request = .ok owner)
    {other : OwnerContext} (approved : environment.approvalOwner request = .ok other) :
    environment.approvalOwner request = .ok owner := by
  obtain ⟨same, first, rest⟩ := bind_ok approved
  rw [authenticated] at first
  cases first
  split at rest
  next =>
    split at rest
    next => cases rest
    next =>
      cases rest
      exact approved
  next => cases rest

/-- A wait for an approval is granted where it is accepted. -/
theorem approvalWait_granted (authenticated : environment.owner request = .ok owner)
    (approved : environment.approvalOwner request = .ok owner) {payload : Option Js}
    (accepted : approvalWait owner payload = .ok call) :
    Granted environment owns request owner call := by
  obtain ⟨value, _, rest⟩ := bind_ok accepted
  obtain ⟨id, name, rest⟩ := bind_ok rest
  obtain ⟨seconds, checked, rest⟩ := bind_ok rest
  split at rest
  next => cases rest
  next short =>
    cases rest
    exact granted_owner authenticated rfl rfl (fun _ => approved)
      ⟨(requiredString_ok.mp name).2, (requiredPositiveInteger_ok.mp checked).2.1, by omega⟩

/-- A cleanup is granted where it is accepted. -/
theorem cleanupByParentSession_granted (authenticated : environment.owner request = .ok owner)
    {payload : Option Js} (accepted : cleanupByParentSession owner payload = .ok call) :
    Granted environment owns request owner call := by
  obtain ⟨value, _, rest⟩ := bind_ok accepted
  obtain ⟨parentSessionId, _, rest⟩ := bind_ok rest
  split at rest
  next => cases rest
  next =>
    cases rest
    exact granted_owner authenticated rfl rfl (by simp [Call.onApprovals]) trivial

/-- The approvals are called for the owner that also presents the hash for them. -/
theorem approval_granted (authenticated : environment.owner request = .ok owner)
    {other : OwnerContext} (approved : environment.approvalOwner request = .ok other)
    (operation : Approvals.Operation) :
    Granted environment owns request owner (.approval owner operation) :=
  granted_owner authenticated rfl rfl (fun _ => approvalOwner_same authenticated approved) trivial

/-- A call of an owner is granted where it is accepted. -/
theorem ownerCall_granted (authenticated : environment.owner request = .ok owner)
    {operation : String}
    (accepted : ownerCall environment owns request owner operation = .ok call) :
    Granted environment owns request owner call := by
  have unapproved {call : Call} (plain : call.onApprovals = false) :
      call.onApprovals = true → environment.approvalOwner request = .ok owner := by
    simp [plain]
  have named (make : JsString → Call) (about : ∀ id, (make id).session = some id ∧
      (make id).owner = none ∧ (make id).onApprovals = false ∧ ((make id).Bounded ↔ Required id))
      (accepted : onSession owns owner (request.get "payload") make = .ok call) :=
    onSession_granted authenticated about accepted
  simp only [ownerCall] at accepted
  split at accepted
  case h_1 =>
    obtain ⟨options, read, rest⟩ := bind_ok accepted
    cases rest
    exact granted_owner authenticated rfl rfl (unapproved rfl) ((spawn_bounded read).ownedBy owner)
  case h_2 =>
    obtain ⟨options, read, rest⟩ := bind_ok accepted
    cases rest
    exact granted_owner authenticated rfl rfl (unapproved rfl) ((exec_bounded read).ownedBy owner)
  case h_3 =>
    obtain ⟨options, read, rest⟩ := bind_ok accepted
    cases rest
    exact granted_owner authenticated rfl rfl (unapproved rfl) ((exec_bounded read).ownedBy owner)
  case h_4 => exact execWait_granted authenticated accepted
  case h_5 => exact resize_granted authenticated accepted
  case h_6 => exact wait_granted authenticated accepted
  case h_7 => exact read_granted authenticated accepted
  case h_8 => exact search_granted authenticated accepted
  case h_9 =>
    cases accepted
    exact granted_owner authenticated rfl rfl (unapproved rfl) trivial
  case h_10 => exact named .get (fun _ => ⟨rfl, rfl, rfl, Iff.rfl⟩) accepted
  case h_11 => exact named .rawOutput (fun _ => ⟨rfl, rfl, rfl, Iff.rfl⟩) accepted
  case h_12 => exact named .execOutput (fun _ => ⟨rfl, rfl, rfl, Iff.rfl⟩) accepted
  case h_13 => exact named .stop (fun _ => ⟨rfl, rfl, rfl, Iff.rfl⟩) accepted
  case h_14 => exact named .cleanup (fun _ => ⟨rfl, rfl, rfl, Iff.rfl⟩) accepted
  case h_15 => exact cleanupByParentSession_granted authenticated accepted
  case h_16 =>
    obtain ⟨other, approved, rest⟩ := bind_ok accepted
    exact approvalWait_granted authenticated (approvalOwner_same authenticated approved) rest
  case h_17 =>
    split at accepted
    next approval _ =>
      obtain ⟨other, approved, rest⟩ := bind_ok accepted
      cases rest
      exact approval_granted authenticated approved approval
    next => cases accepted

/-- A request that is dispatched to a call other than the question for health has an owner, and
all that stands behind the call. -/
theorem dispatch_granted {usage after : Windows JsString} {operation : String} {now : Int}
    (accepted : dispatch environment owns usage request operation now = (.ok call, after)) :
    call = .health ∨ ∃ owner, Granted environment owns request owner call := by
  unfold dispatch at accepted
  split at accepted
  next =>
    obtain ⟨answered, _⟩ := Prod.mk.inj accepted
    obtain ⟨_, _, rest⟩ := bind_ok answered
    cases rest
    exact .inl rfl
  next =>
    split at accepted
    next => cases accepted
    next owner authenticated =>
      refine .inr ⟨owner, ?_⟩
      split at accepted
      next =>
        cases accepted
        exact granted_owner authenticated rfl rfl (by simp [Call.onApprovals]) trivial
      next => exact write_granted authenticated accepted
      next => exact sendWait_granted authenticated accepted
      next => exact ownerCall_granted authenticated (Prod.mk.inj accepted).1

end

/-- A body that is read has no more bytes than a request may have. -/
theorem readPieces_bounded {bytes body : List UInt8} {pieces : List (List UInt8)}
    (small : bytes.length ≤ maxRequestBytes) (read : readPieces bytes pieces = some body) :
    body.length ≤ maxRequestBytes ∧ body = bytes ++ pieces.flatten := by
  induction pieces generalizing bytes with
  | nil =>
    cases read
    exact ⟨small, by simp⟩
  | cons piece rest inductionHypothesis =>
    rw [readPieces] at read
    split at read
    next => cases read
    next fits =>
      obtain ⟨bounded, same⟩ := inductionHypothesis (by omega) read
      exact ⟨bounded, by simp [same]⟩

/-- A request has an id and the version of the protocol. -/
theorem envelope_ok {request : Js} {id : JsString} {operation : String}
    (accepted : envelope request = .ok (id, operation)) :
    request.get "id" = some (.str id) ∧ id ≠ [] ∧ id.length ≤ maxIdLength ∧
      request.get "version" = some (.int daemonProtocolVersion) := by
  unfold envelope at accepted
  split at accepted
  next entries =>
    split at accepted
    next name version text read versioned _ =>
      obtain ⟨read, nonempty⟩ := present_some.mp read
      split at accepted
      next => cases accepted
      next short =>
        split at accepted
        next => cases accepted
        next same =>
          cases accepted
          simp only [Bool.or_eq_true, decide_eq_true_eq, not_or] at short
          rw [not_not] at same
          refine ⟨read, nonempty, by omega, ?_⟩
          rw [versioned, same]
          rfl
    next => cases accepted
  next => cases accepted

/-- What stands behind a request that leads to a call. -/
structure Admitted (server : Server) (owns : Ownership) (request : HttpRequest) (id : JsString)
    (call : Call) (rpcRequest : Js) : Prop where
  target : request.method = "POST" ∧ request.pathname = "/rpc"
  credential : request.authorization = some (js "Bearer " ++ server.token)
  body : (request.body.getD []).flatten.length ≤ maxRequestBytes ∧
    server.parse (request.body.getD []).flatten = some rpcRequest
  id : rpcRequest.get "id" = some (.str id) ∧ id ≠ [] ∧ id.length ≤ maxIdLength
  version : rpcRequest.get "version" = some (.int daemonProtocolVersion)
  granted : call = .health ∨ ∃ owner, Granted server.toEnvironment owns rpcRequest owner call

/-- A request leads to a call only where it has the token of the daemon, the form and the version
of the protocol, and where its owner is authenticated, owns the session that the call is about,
and keeps to the limits. The daemon reads the body in pieces, whatever these are. -/
theorem accept_admitted {server : Server} {owns : Ownership} {usage after : Windows JsString}
    {request : HttpRequest} {now : Int} {id : JsString} {call : Call}
    (accepted : accept server owns usage request now = (.ok (id, call), after)) :
    ∃ rpcRequest, Admitted server owns request id call rpcRequest := by
  unfold accept at accepted
  split at accepted
  next => cases accepted
  next target =>
    split at accepted
    next => cases accepted
    next credential =>
      split at accepted
      next => cases accepted
      next body read =>
        split at accepted
        next => cases accepted
        next rpcRequest parsed =>
          split at accepted
          next => cases accepted
          next id' operation enveloped =>
            split at accepted
            next => cases accepted
            next call' usage' dispatched =>
              cases accepted
              unfold requestBody at read
              split at read
              next =>
                obtain ⟨bounded, same⟩ := readPieces_bounded (Nat.zero_le _) read
                rw [List.nil_append] at same
                obtain ⟨name, nonempty, short, version⟩ := envelope_ok enveloped
                simp only [Bool.or_eq_true, decide_eq_true_eq, not_or, not_not] at target
                exact ⟨rpcRequest,
                  { target := target
                    credential := not_not.mp credential
                    body := by rw [← same]; exact ⟨bounded, parsed⟩
                    id := ⟨name, nonempty, short⟩
                    version := version
                    granted := dispatch_granted dispatched }⟩
              next => cases read

/-! ## One daemon -/

/-- The ownership secret of a user. -/
def demoSecret : JsString := List.replicate 64 0x62

/-- The digests, in hexadecimal, of the two texts that are hashed for one owner. Every other text
has the digest of the empty one here. -/
def demoDigest (text : JsString) : JsString :=
  if text = joined [demoSecret, js "p", js "/d"] then
    js "9e452933d38e782ace821b6e346ef5d701588991c3aa8d9fa6cf0cd6a64dec7a"
  else if text = joined [js "approval", demoSecret, js "p", js "/d"] then
    js "265c437567a0637b954436f0f19a5cce05a93baf80bfcb39cc1fbe5c6f21b279"
  else js "e3b0c44298fc1c149afbf4c8996fb92427ae41e4649b934ca495991b7852b855"

/-- The capability of the owner. -/
def demoCapability : JsString := demoDigest (joined [demoSecret, js "p", js "/d"])

/-- The bytes that `JSON.stringify` makes of a request of the owner. -/
def demoBytes (operation payload : String) : List UInt8 :=
  (js "\x7b\"id\":\"1\",\"version\":8,\"operation\":\"" ++ js operation ++
    js "\",\"owner\":\x7b\"parentSessionId\":\"p\",\"projectDirectory\":\"/d\",\"capability\":\"" ++
    demoCapability ++ js "\"\x7d,\"payload\":" ++ js payload ++ js "\x7d").map UInt16.toUInt8

/-- The value of which these bytes are the text. -/
def demoValue (operation : String) (payload : List (String × Js)) : Js :=
  .obj [("id", .text "1"), ("version", .int 8), ("operation", .text operation),
    ("owner", .obj [("parentSessionId", .text "p"), ("projectDirectory", .text "/d"),
      ("capability", .str demoCapability)]),
    ("payload", .obj payload)]

/-- A request for a session. -/
def demoGet : List UInt8 := demoBytes "get" "\x7b\"id\":\"s\"\x7d"

/-- A request for a new session. -/
def demoSpawn : List UInt8 :=
  demoBytes "spawn" "\x7b\"command\":\"c\",\"parentSessionId\":\"p\"\x7d"

/-- A request with an input. -/
def demoWritten : List UInt8 := demoBytes "write" "\x7b\"id\":\"s\",\"data\":\"ab\"\x7d"

/-- A daemon with one directory, which gets three bodies. -/
def demoServer : Server where
  ownershipSecret := demoSecret
  sha256 := demoDigest
  realpath := fun directory => if directory = js "/d" then some directory else none
  token := js "t"
  parse := fun body =>
    if body = demoGet then some (demoValue "get" [("id", .text "s")])
    else if body = demoSpawn then
      some (demoValue "spawn" [("command", .text "c"), ("parentSessionId", .text "p")])
    else if body = demoWritten then
      some (demoValue "write" [("id", .text "s"), ("data", .text "ab")])
    else none

/-- A request whose body comes in two pieces. -/
def demoRequest (body : List UInt8) : HttpRequest :=
  ⟨"POST", "/rpc", some (js "Bearer t"), none, some [body.take 40, body.drop 40]⟩

set_option maxRecDepth 4000 in
/-- A request for a session of its owner. -/
theorem get_admitted :
    ∃ rpcRequest, Admitted demoServer (fun id _ => id == js "s") (demoRequest demoGet) (js "1")
      (.get (js "s")) rpcRequest :=
  accept_admitted (show accept demoServer (fun id _ => id == js "s") (fun _ => none)
    (demoRequest demoGet) 0 = (.ok (js "1", .get (js "s")), fun _ => none) by rfl)

end OpencodePty.RpcDispatch
