import Mathlib.Data.List.Induction
import OpencodePty.BashTool

/-!
# A shell command starts only where it was approved

In every run of the tool, whatever the daemon and the host answer and whenever the tool is
aborted, the command is started at most once, and only after the local policy allowed it, the
session had approved it, or the approval that was prepared for it was consumed. An approval
that was prepared and not consumed is cancelled before the tool ends.
-/

namespace OpencodePty.BashApprovals

open JsValues AbortablePrograms BashTool
open Approvals (ApprovalRequest Intent OwnerContext)

/-- The calls that were made and what they returned, in order. -/
abbrev History := List (Entry Call Call.Reply Failure)

/-! ## Histories -/

/-- The options that a command was started with. -/
def Entry.start? : Entry Call Call.Reply Failure → Option ExecOptions
  | .called (.execStart options _) _ => some options
  | _ => none

/-- The request that an approval was prepared with. -/
def Entry.request? : Entry Call Call.Reply Failure → Option ApprovalRequest
  | .returned (.prepareApproval _ _ _ _) (.ok preparation) =>
    ApprovalPreparation.unapproved preparation
  | _ => none

/-- The starts of a command. -/
def starts (history : History) : List ExecOptions := history.filterMap Entry.start?

/-- The requests that were prepared and are still to be approved. -/
def requests (history : History) : List ApprovalRequest := history.filterMap Entry.request?

/-- A request was consumed, and the reply lets the command run. -/
def Consumed (history : History) (request : ApprovalRequest) : Prop :=
  ∃ details owner consumed, granted consumed = true ∧
    .returned (.consumeApproval request.id details owner) (.ok consumed) ∈ history

/-- The cancellation of a request was asked for. -/
def Cancelled (history : History) (request : ApprovalRequest) : Prop :=
  ∃ owner aborted, .called (.cancelApproval request.id owner) aborted ∈ history

variable (host : Host) (args : BashArgs) (ctx : ToolContext)

/-- The boundary of the project: the top level of its repository, or the project itself where
that is not found. -/
def Bounded (history : History) (resolvedProject boundary : JsString) : Prop :=
  (∃ stdout, .returned (.gitToplevel resolvedProject) (.ok stdout) ∈ history ∧
    .returned (.realpath (host.trim stdout)) (.ok boundary) ∈ history) ∨
  boundary = resolvedProject ∧ ∃ call failure, .returned call (.error failure) ∈ history ∧
    (call = .gitToplevel resolvedProject ∨ ∃ stdout, call = .realpath (host.trim stdout))

/-- The policy that the authorizer found with the configuration and the directories that it was
answered. -/
def Authorized (history : History) (policy : Policy) : Prop :=
  ∃ permissions resolvedWorkdir resolvedProject boundary,
    .returned .configGet (.ok permissions) ∈ history ∧
    .returned (.realpaths (args.workdir.getD host.directory) host.directory)
      (.ok (resolvedWorkdir, resolvedProject)) ∈ history ∧
    Bounded host history resolvedProject boundary ∧
    bashPolicy (evaluate host permissions ctx.agent (js "bash") args.command)
      (resolveWorkdir host permissions ctx.agent resolvedWorkdir boundary) = some policy

/-- A question of the host that the user approved. -/
def Asked (history : History) (permission : String) (pattern : JsString) : Prop :=
  .returned (.ask (askRequest (js permission) pattern)) (.ok ()) ∈ history

/-- An approval was prepared for what the tool is going to run. -/
def Prepared (history : History) (policy : Policy) (owner : OwnerContext)
    (preparation : ApprovalPreparation) : Prop :=
  .returned (.prepareApproval (bashIntent host args ctx policy) approvalExpirySeconds
    approvalUiLeaseSeconds owner) (.ok preparation) ∈ history

/-- The wait for a request returned it. -/
def Waited (history : History) (owner : OwnerContext) (request waiting : ApprovalRequest) : Prop :=
  .returned (.waitForApproval request.id approvalExpirySeconds owner) (.ok waiting) ∈ history

/-- Where the daemon left the approval to the host, the user approved the command before the
daemon was told so. -/
def Native (history : History) (owner : OwnerContext) (request waiting : ApprovalRequest) : Prop :=
  waiting.status = .nativeFallback → ∃ earlier aborted approved later,
    history = earlier ++ .called (.approveNativeApproval request.id owner) aborted ::
      .returned (.approveNativeApproval request.id owner) (.ok approved) :: later ∧
    Asked earlier "bash" args.command

/-- The prepared request was approved and consumed. -/
structure Granted (history : History) (policy : Policy) (owner : OwnerContext)
    (request : ApprovalRequest) : Prop where
  waited : ∃ waiting, Waited history owner request waiting ∧ Native args history owner request waiting
  consumed : ∃ consumed, granted consumed = true ∧
    .returned (.consumeApproval request.id (bashIntent host args ctx policy) owner)
      (.ok consumed) ∈ history

/-- The approval that a policy asks for. -/
def Approved (history : History) (policy : Policy) (owner : OwnerContext) : Prop :=
  policy.action = .allow ∨
    ∃ preparation, Prepared host args ctx history policy owner preparation ∧
      ∀ request, preparation.unapproved = some request →
        Granted host args ctx history policy owner request

/-- The approval of a directory outside the project. -/
def ExternallyApproved (history : History) (policy : Policy) : Prop :=
  ∀ pattern, policy.externalPattern = some pattern → policy.externalAction ≠ some .allow →
    Asked history "external_directory" pattern

/-- A start that the tool may make. -/
structure Startable (history : History) (options : ExecOptions) (owner : OwnerContext) : Prop where
  unstarted : starts history = []
  owned : ownerContext host ctx.sessionID ctx.directory = .ok owner
  approved : ∃ policy argv timeoutSeconds,
    Authorized host args ctx history policy ∧ bashArgv host args.command = .ok argv ∧
    bashTimeout args.timeout = .ok timeoutSeconds ∧
    options = execOptions ctx policy argv timeoutSeconds ∧
    Approved host args ctx history policy owner ∧ ExternallyApproved history policy

/-- A step from the preparation of a request to its consumption, after steps that succeeded. -/
inductive Proceeds (history : History) (request : ApprovalRequest) : Call → Prop
  | wait (owner : OwnerContext) :
      Proceeds history request (.waitForApproval request.id approvalExpirySeconds owner)
  | ask {owner : OwnerContext} {waiting : ApprovalRequest} :
      Waited history owner request waiting → waiting.status = .nativeFallback →
      Proceeds history request (.ask (askRequest (js "bash") args.command))
  | approve {owner : OwnerContext} :
      Asked history "bash" args.command →
      Proceeds history request (.approveNativeApproval request.id owner)
  | consume {policy : Policy} {owner : OwnerContext} {waiting : ApprovalRequest} :
      Waited history owner request waiting → Native args history owner request waiting →
      Proceeds history request
        (.consumeApproval request.id (bashIntent host args ctx policy) owner)

/-- What may be called after a history. -/
structure Permitted (aborted : Bool) (history : History) (call : Call) : Prop where
  started : ∀ options owner, call = .execStart options owner →
    aborted = false ∧ Startable host args ctx history options owner
  native : ∀ id owner, call = .approveNativeApproval id owner → Asked history "bash" args.command
  followed : ∀ request ∈ requests history,
    Consumed history request ∨ Cancelled history request ∨
      (∃ owner, call = .cancelApproval request.id owner) ∨
      Proceeds host args ctx history request call

/-- Every request that was prepared is settled. -/
def Closed (history : History) : Prop :=
  ∀ request ∈ requests history, Consumed history request ∨ Cancelled history request

variable {host args ctx}

/-! ## What an exchange adds -/

/-- A call that neither prepares an approval nor starts a command. -/
def Call.plain : Call → Bool
  | .prepareApproval _ _ _ _ | .execStart _ _ => false
  | _ => true

/-- What the history of an await adds. -/
abbrev exchange (call : Call) (aborted : Bool) (outcome : Except Failure call.Reply) : History :=
  [.called call aborted, .returned call outcome]

/-- A call that starts nothing adds no start. -/
theorem starts_exchange {call : Call} (plain : Call.plain call = true) (history : History)
    (aborted : Bool) (outcome : Except Failure call.Reply) :
    starts (history ++ exchange call aborted outcome) = starts history := by
  rw [starts, List.filterMap_append]
  cases call with
  | execStart options owner => cases plain
  | _ => exact List.append_nil _

/-- A call that prepares nothing adds no request. -/
theorem requests_exchange {call : Call} (plain : Call.plain call = true) (history : History)
    (aborted : Bool) (outcome : Except Failure call.Reply) :
    requests (history ++ exchange call aborted outcome) = requests history := by
  rw [requests, List.filterMap_append]
  cases call with
  | prepareApproval intent expiry lease owner => cases plain
  | _ => exact List.append_nil _

/-- A request that was used up stays so. -/
theorem Consumed.append {history : History} {request : ApprovalRequest}
    (consumed : Consumed history request) (more : History) :
    Consumed (history ++ more) request := by
  obtain ⟨details, owner, reply, grants, found⟩ := consumed
  exact ⟨details, owner, reply, grants, List.mem_append_left more found⟩

/-- The boundary stays known. -/
theorem Bounded.append {history : History} {resolvedProject boundary : JsString}
    (bounded : Bounded host history resolvedProject boundary) (more : History) :
    Bounded host (history ++ more) resolvedProject boundary := by
  rcases bounded with ⟨stdout, found, resolved⟩ | ⟨same, call, failure, found, known⟩
  · exact .inl ⟨stdout, List.mem_append_left more found, List.mem_append_left more resolved⟩
  · exact .inr ⟨same, call, failure, List.mem_append_left more found, known⟩

/-- A policy that was found stays known. -/
theorem Authorized.append {history : History} {policy : Policy}
    (authorized : Authorized host args ctx history policy) (more : History) :
    Authorized host args ctx (history ++ more) policy := by
  obtain ⟨permissions, workdir, project, boundary, config, paths, bounded, found⟩ := authorized
  exact ⟨permissions, workdir, project, boundary, List.mem_append_left more config,
    List.mem_append_left more paths, bounded.append more, found⟩

/-- An approval of the host stays known. -/
theorem Native.append {history : History} {owner : OwnerContext}
    {request waiting : ApprovalRequest} (native : Native args history owner request waiting)
    (more : History) : Native args (history ++ more) owner request waiting := by
  intro fallback
  obtain ⟨earlier, aborted, approved, later, rfl, asked⟩ := native fallback
  exact ⟨earlier, aborted, approved, later ++ more, by simp, asked⟩

/-- An approval that was granted stays so. -/
theorem Granted.append {history : History} {policy : Policy} {owner : OwnerContext}
    {request : ApprovalRequest} (known : Granted host args ctx history policy owner request)
    (more : History) : Granted host args ctx (history ++ more) policy owner request := by
  obtain ⟨⟨waiting, waited, native⟩, consumed, grants, found⟩ := known
  exact ⟨⟨waiting, List.mem_append_left more waited, native.append more⟩,
    consumed, grants, List.mem_append_left more found⟩

/-- A call that was approved stays so. -/
theorem Approved.append {history : History} {policy : Policy} {owner : OwnerContext}
    (approved : Approved host args ctx history policy owner) (more : History) :
    Approved host args ctx (history ++ more) policy owner := by
  rcases approved with allowed | ⟨preparation, prepared, grants⟩
  · exact .inl allowed
  · exact .inr ⟨preparation, List.mem_append_left more prepared,
      fun request known => (grants request known).append more⟩

/-! ## Calls that are permitted -/

/-- Every request that was prepared was consumed. -/
def Settled (history : History) : Prop := ∀ request ∈ requests history, Consumed history request

/-- Where every request was consumed, none is left open. -/
theorem Settled.closed {history : History} (settled : Settled history) : Closed history :=
  fun request member => .inl (settled request member)

/-- A call that neither prepares nor starts leaves every request consumed. -/
theorem Settled.exchange {history : History} (settled : Settled history) {call : Call}
    (plain : Call.plain call = true) (aborted : Bool) (outcome : Except Failure call.Reply) :
    Settled (history ++ exchange call aborted outcome) := by
  intro request member
  rw [requests_exchange plain] at member
  exact (settled request member).append _

/-- The calls that need an approval. -/
def Call.watched : Call → Bool
  | .execStart _ _ | .approveNativeApproval _ _ => true
  | _ => false

/-- Where no request is open, a call that needs no approval is permitted. -/
theorem Settled.permits {history : History} (settled : Settled history) {call : Call}
    (unwatched : Call.watched call = false) (aborted : Bool) :
    Permitted host args ctx aborted history call := by
  constructor
  · rintro options owner rfl
    cases unwatched
  · rintro id owner rfl
    cases unwatched
  · exact fun request member => .inl (settled request member)

/-! ## The policy -/

/-- Nothing was started or prepared. -/
structure Quiet (history : History) : Prop where
  unstarted : starts history = []
  unrequested : requests history = []

/-- Where nothing was prepared, every request was consumed. -/
theorem Quiet.settled {history : History} (quiet : Quiet history) : Settled history := by
  intro request member
  rw [quiet.unrequested] at member
  cases member

/-- A call that neither prepares nor starts keeps it so. -/
theorem Quiet.exchange {history : History} (quiet : Quiet history) {call : Call}
    (plain : Call.plain call = true) (aborted : Bool) (outcome : Except Failure call.Reply) :
    Quiet (history ++ exchange call aborted outcome) := by
  constructor
  · rw [starts_exchange plain, quiet.unstarted]
  · rw [requests_exchange plain, quiet.unrequested]

/-- What a call returned is in the history behind it. -/
theorem mem_exchange (history : History) (call : Call) (aborted : Bool)
    (outcome : Except Failure call.Reply) :
    .returned call outcome ∈ history ++ exchange call aborted outcome := by
  simp

section Reads

variable {allowed : Bool → History → Call → Prop} {holds : History → Prop}

/-- Behind the check its condition does not hold. -/
theorem throwIf_triple (condition : Bool) (message : String) {throws : History → Prop}
    (failed : ∀ history, holds history → condition = true → throws history) :
    Triple allowed holds (throwIf condition message)
      (fun _ history => holds history ∧ condition = false) throws := by
  cases condition with
  | true => exact Triple.throw fun history known => failed history known rfl
  | false => exact Triple.pure fun _ known => ⟨known, rfl⟩

/-- A call whose failure is ignored goes on in any case. -/
theorem attempted_triple {call : Call} {after throws : History → Prop}
    (permitted : ∀ aborted history, holds history → allowed aborted history call)
    (kept : ∀ aborted history outcome, holds history →
      after (history ++ exchange call aborted outcome)) :
    Triple allowed holds (attempted call) (fun _ => after) throws := by
  have answer : Triple allowed holds (awaited call) (fun _ => after) after :=
    Triple.await permitted (fun aborted history value => kept aborted history (.ok value))
      fun aborted history failure => kept aborted history (.error failure)
  have body : Triple allowed holds (do let _ ← awaited call) (fun _ => after) after :=
    Triple.bind answer fun _ => Triple.pure fun _ known => known
  exact Triple.tryCatch body fun _ => Triple.pure fun _ known => known

/-- The calls that an authorizer reads the policy and the directories with. -/
def Call.reads : Call → Bool
  | .configGet | .realpaths _ _ | .gitToplevel _ | .realpath _ => true
  | _ => false

variable (allowed holds) in
/-- A history with a property is one to read the policy after, which keeps the property. -/
structure Readable : Prop where
  permitted : ∀ call, Call.reads call = true → ∀ aborted history, holds history →
    allowed aborted history call
  kept : ∀ call, Call.reads call = true → ∀ aborted history outcome, holds history →
    holds (history ++ exchange call aborted outcome)

/-- What is not lost by more history is kept along. -/
theorem Readable.along (readable : Readable allowed holds) (known : History → Prop)
    (kept : ∀ history more, known history → known (history ++ more)) :
    Readable allowed fun history => holds history ∧ known history where
  permitted call reads aborted history facts := readable.permitted call reads aborted history facts.1
  kept call reads aborted history outcome facts :=
    ⟨readable.kept call reads aborted history outcome facts.1, kept _ _ facts.2⟩

/-- What a call that only reads has returned is known. -/
theorem read_triple (readable : Readable allowed holds) (call : Call)
    (reads : Call.reads call = true) :
    Triple allowed holds (awaited call)
      (fun value history => holds history ∧ .returned call (.ok value) ∈ history)
      (fun history => holds history ∧ ∃ failure, .returned call (.error failure) ∈ history) := by
  apply Triple.await
  · exact readable.permitted call reads
  · intro aborted history value known
    exact ⟨readable.kept call reads aborted history _ known, mem_exchange history call aborted _⟩
  · intro aborted history failure known
    exact ⟨readable.kept call reads aborted history _ known,
      failure, mem_exchange history call aborted _⟩

/-- The configuration that was read. -/
def Configured (permissions : Config) (history : History) : Prop :=
  .returned .configGet (.ok permissions) ∈ history

/-- The configuration is known, or could not be read. -/
theorem permissionConfig_triple (readable : Readable allowed holds) :
    Triple allowed holds permissionConfig
      (fun permissions history => holds history ∧ Configured permissions history)
      (fun history => holds history ∧ ∃ failure, .returned .configGet (.error failure) ∈ history) :=
  Triple.tryCatch (read_triple readable .configGet rfl) fun _ => Triple.throw fun _ failed => failed

variable (host)

/-- A boundary is found in any case. -/
theorem worktreeBoundary_triple (readable : Readable allowed holds) (directory : JsString)
    {throws : History → Prop} :
    Triple allowed holds (worktreeBoundary host directory)
      (fun boundary history => holds history ∧ Bounded host history directory boundary) throws := by
  have listing (stdout : JsString) := readable.along
    (fun history => .returned (.gitToplevel directory) (.ok stdout) ∈ history)
    fun history more listed => List.mem_append_left more listed
  have body : Triple allowed holds
      (do
        let stdout ← awaited (.gitToplevel directory)
        awaited (.realpath (host.trim stdout)))
      (fun boundary history => holds history ∧ Bounded host history directory boundary)
      (fun history => holds history ∧ Bounded host history directory directory) := by
    refine Triple.bind ((read_triple readable (.gitToplevel directory) rfl).imp
      (fun _ known => known) (fun _ _ found => found) ?_) fun stdout => ?_
    · rintro history ⟨known, failure, failed⟩
      exact ⟨known, .inr ⟨rfl, _, failure, failed, .inl rfl⟩⟩
    · refine (read_triple (listing stdout) (.realpath (host.trim stdout)) rfl).imp
        (fun _ known => known) ?_ ?_
      · rintro boundary history ⟨⟨known, listed⟩, resolved⟩
        exact ⟨known, .inl ⟨stdout, listed, resolved⟩⟩
      · rintro history ⟨⟨known, listed⟩, failure, failed⟩
        exact ⟨known, .inr ⟨rfl, _, failure, failed, .inr ⟨stdout, rfl⟩⟩⟩
  exact Triple.tryCatch body fun _ => Triple.pure fun _ bounded => bounded

/-- The directories that were resolved, with the boundary of the project. -/
def Located (permissions : Config) (workdir : Option JsString) (agent : JsString)
    (resolved : ResolvedWorkdir) (history : History) : Prop :=
  ∃ resolvedWorkdir resolvedProject boundary,
    .returned (.realpaths (workdir.getD host.directory) host.directory)
      (.ok (resolvedWorkdir, resolvedProject)) ∈ history ∧
    Bounded host history resolvedProject boundary ∧
    resolved = resolveWorkdir host permissions agent resolvedWorkdir boundary

/-- The directories were not resolved. -/
def Unlocated (workdir : Option JsString) (history : History) : Prop :=
  host.directory.isEmpty = true ∨ ∃ failure,
    .returned (.realpaths (workdir.getD host.directory) host.directory) (.error failure) ∈ history

/-- The directories are known, or could not be resolved. -/
theorem workdirAuthorization_triple (readable : Readable allowed holds) (permissions : Config)
    (workdir : Option JsString) (agent : JsString) :
    Triple allowed holds (workdirAuthorization host permissions workdir agent)
      (fun resolved history => holds history ∧
        Located host permissions workdir agent resolved history)
      (fun history => holds history ∧ Unlocated host workdir history) := by
  have listing (paths : JsString × JsString) := readable.along
    (fun history =>
      .returned (.realpaths (workdir.getD host.directory) host.directory) (.ok paths) ∈ history)
    fun history more listed => List.mem_append_left more listed
  have paths : Triple allowed holds
      (try awaited (.realpaths (workdir.getD host.directory) host.directory)
      catch _ => throw (js "PTY command denied: unable to verify the working directory."))
      (fun paths history => holds history ∧
        .returned (.realpaths (workdir.getD host.directory) host.directory) (.ok paths) ∈ history)
      (fun history => holds history ∧ Unlocated host workdir history) :=
    Triple.tryCatch (read_triple readable _ rfl) fun _ =>
      Triple.throw fun _ failed => ⟨failed.1, .inr failed.2⟩
  have project : Triple allowed holds
      (throwIf host.directory.isEmpty
        "PTY command denied: the plugin host did not provide a project directory.")
      (fun _ => holds) (fun history => holds history ∧ Unlocated host workdir history) :=
    (throwIf_triple _ _ fun _ known missing => ⟨known, .inl missing⟩).imp (fun _ known => known)
      (fun _ _ found => found.1) fun _ missing => missing
  refine Triple.bind project fun _ => ?_
  refine Triple.bind paths fun found => ?_
  refine Triple.bind (worktreeBoundary_triple host (listing found) found.2).joined fun boundary => ?_
  apply Triple.pure
  rintro history ⟨⟨known, listed⟩, bounded⟩
  exact ⟨known, found.1, found.2, boundary, listed, bounded, rfl⟩

end Reads

section Policy

variable (host args ctx)

/-- The tool reads the policy before it prepares or starts anything. -/
theorem quiet_readable : Readable (Permitted host args ctx) Quiet where
  permitted call reads aborted _ quiet := by
    refine quiet.settled.permits ?_ aborted
    cases call with
    | execStart | approveNativeApproval => cases reads
    | _ => rfl
  kept call reads aborted _ outcome quiet := by
    refine quiet.exchange ?_ aborted outcome
    cases call with
    | execStart | prepareApproval => cases reads
    | _ => rfl

/-- The policy is one that was found, and nothing was prepared or started. -/
theorem createBashAuthorizer_triple :
    Triple (Permitted host args ctx) Quiet
      (createBashAuthorizer host args.command args.workdir ctx.agent)
      (fun policy history => Quiet history ∧ Authorized host args ctx history policy) Quiet := by
  have config := permissionConfig_triple (quiet_readable host args ctx)
  refine Triple.bind (config.joined.imp (fun _ quiet => quiet) (fun _ _ found => found)
    fun _ unread => unread.1) fun permissions => ?_
  have readable := (quiet_readable host args ctx).along (Configured permissions)
    fun _ more listed => List.mem_append_left more listed
  have located := workdirAuthorization_triple host readable permissions args.workdir ctx.agent
  refine Triple.bind (located.joined.imp (fun _ known => known) (fun _ _ found => found)
    fun _ unread => unread.1.1) fun resolved => ?_
  cases found : bashPolicy (evaluate host permissions ctx.agent (js "bash") args.command)
      resolved with
  | none =>
    have shown : Triple (Permitted host args ctx) Quiet
        (deny (js "Bash command denied by local permission policy."))
        (fun policy history => Quiet history ∧ Authorized host args ctx history policy) Quiet :=
      Triple.bind
        (attempted_triple (fun aborted _ quiet => quiet.settled.permits rfl aborted)
          fun aborted _ outcome quiet => quiet.exchange rfl aborted outcome)
        fun _ => Triple.throw fun _ quiet => quiet
    exact shown.joined.imp (fun _ known => known.1.1) (fun _ _ found => found) fun _ quiet => quiet
  | some policy =>
    apply Triple.pure
    rintro history ⟨⟨quiet, configured⟩, workdir, project, boundary, listed, bounded, rfl⟩
    exact ⟨quiet, permissions, workdir, project, boundary, configured, listed, bounded, found⟩

end Policy

/-- The authorizer leaves a command allowed or to be asked about. -/
theorem Authorized.asks {history : History} {policy : Policy}
    (authorized : Authorized host args ctx history policy) (unasked : policy.action ≠ .ask) :
    policy.action = .allow := by
  obtain ⟨permissions, workdir, project, boundary, _, _, _, found⟩ := authorized
  rw [bashPolicy] at found
  split at found
  next => cases found
  next =>
    cases found
    split
    next => rfl
    next asked =>
      rw [if_neg asked] at unasked
      exact absurd rfl unasked

/-- The pattern of a directory outside the project is not empty. -/
theorem Authorized.pattern {history : History} {policy : Policy} {pattern : JsString}
    (authorized : Authorized host args ctx history policy)
    (outside : policy.externalPattern = some pattern) : pattern.isEmpty = false := by
  obtain ⟨permissions, workdir, project, boundary, _, _, _, found⟩ := authorized
  rw [bashPolicy] at found
  split at found
  next => cases found
  next =>
    cases found
    simp only [Option.ite_none_right_eq_some, Option.some.injEq] at outside
    obtain ⟨_, rfl⟩ := outside
    simp [resolveWorkdir, js, encode, encodeChar]

/-! ## The approval -/

variable (host args ctx) in
/-- The request of a preparation is still to be approved. -/
structure Pending (policy : Policy) (owner : OwnerContext) (request : ApprovalRequest)
    (history : History) : Prop where
  unstarted : starts history = []
  only : requests history = [request]
  authorized : Authorized host args ctx history policy
  prepared : ∃ preparation, Prepared host args ctx history policy owner preparation ∧
    preparation.unapproved = some request

section Approval

variable {policy : Policy} {owner : OwnerContext} {request : ApprovalRequest} {history : History}

/-- A request stays pending over calls that do nothing to it. -/
theorem Pending.exchange (pending : Pending host args ctx policy owner request history)
    {call : Call} (plain : Call.plain call = true) (aborted : Bool)
    (outcome : Except Failure call.Reply) :
    Pending host args ctx policy owner request (history ++ exchange call aborted outcome) := by
  obtain ⟨preparation, prepared, left⟩ := pending.prepared
  constructor
  · rw [starts_exchange plain, pending.unstarted]
  · rw [requests_exchange plain, pending.only]
  · exact pending.authorized.append _
  · exact ⟨preparation, List.mem_append_left _ prepared, left⟩

/-- The next step towards the consumption of a pending request is permitted. -/
theorem Pending.permits (pending : Pending host args ctx policy owner request history)
    {call : Call} (proceeds : Proceeds host args ctx history request call) (aborted : Bool) :
    Permitted host args ctx aborted history call := by
  constructor
  · rintro options known rfl
    cases proceeds
  · rintro id known rfl
    cases proceeds with
    | approve asked => exact asked
  · intro other member
    rw [pending.only, List.mem_singleton] at member
    subst member
    exact .inr (.inr (.inr proceeds))

/-- A wait returns the request; where it fails, the request is still the one that is pending. -/
theorem abortableApprovalWait_triple :
    Triple (Permitted host args ctx) (Pending host args ctx policy owner request)
      (abortableApprovalWait request.id owner)
      (fun waiting history => Pending host args ctx policy owner request history ∧
        Waited history owner request waiting)
      (Pending host args ctx policy owner request) := by
  refine Triple.bind (Triple.aborted fun _ _ pending => pending) fun _ => ?_
  refine Triple.bind (throwIf_triple _ _ fun _ known _ => known) fun _ => ?_
  apply Triple.await
  · rintro aborted history ⟨pending, _⟩
    exact pending.permits (.wait owner) aborted
  · rintro aborted history waiting ⟨pending, _⟩
    exact ⟨pending.exchange rfl aborted _, mem_exchange history _ aborted _⟩
  · rintro aborted history failure ⟨pending, _⟩
    exact pending.exchange rfl aborted _

/-- A question of the host, where it is permitted. -/
theorem abortableAsk_triple (permission : String) (pattern : JsString) (known : History → Prop)
    (permitted : ∀ aborted history, known history →
      Permitted host args ctx aborted history (.ask (askRequest (js permission) pattern)))
    (kept : ∀ aborted history outcome, known history →
      known (history ++ exchange (.ask (askRequest (js permission) pattern)) aborted outcome)) :
    Triple (Permitted host args ctx) known (abortableAsk host (js permission) pattern)
      (fun _ history => known history ∧ Asked history permission pattern) known := by
  refine Triple.bind (Triple.aborted fun _ _ facts => facts) fun _ => ?_
  refine Triple.bind (throwIf_triple _ _ fun _ known _ => known) fun _ => ?_
  refine Triple.bind ((throwIf_triple _ _ fun _ known _ => known).imp (fun _ facts => facts.1)
    (fun _ _ facts => facts.1) fun _ facts => facts) fun _ => ?_
  have answer : Triple (Permitted host args ctx) known
      (Program.race (Call.ask (askRequest (js permission) pattern))
        (js "Bash approval cancelled before prompting."))
      (fun _ history => known history ∧ Asked history permission pattern) known := by
    apply Triple.await permitted
    · exact fun aborted history _ facts =>
        ⟨kept aborted history _ facts, mem_exchange history _ aborted _⟩
    · exact fun aborted history failure facts => kept aborted history _ facts
  refine Triple.bind answer fun _ => ?_
  refine Triple.bind (Triple.aborted fun _ _ facts => facts) fun _ => ?_
  exact (throwIf_triple _ _ fun _ known _ => known).imp (fun _ facts => facts)
    (fun _ _ facts => facts.1) fun _ facts => facts.1

/-- The question of the host about a pending command. -/
theorem nativeAsk_triple {waiting : ApprovalRequest} (fallback : waiting.status = .nativeFallback) :
    Triple (Permitted host args ctx)
      (fun history => Pending host args ctx policy owner request history ∧
        Waited history owner request waiting)
      (abortableAsk host (js "bash") args.command)
      (fun _ history => (Pending host args ctx policy owner request history ∧
        Waited history owner request waiting) ∧ Asked history "bash" args.command)
      (fun history => Pending host args ctx policy owner request history ∧
        Waited history owner request waiting) := by
  apply abortableAsk_triple
  · exact fun aborted _ facts => facts.1.permits (.ask facts.2 fallback) aborted
  · exact fun aborted _ outcome facts =>
      ⟨facts.1.exchange rfl aborted outcome, List.mem_append_left _ facts.2⟩

/-- The report that the user approved the command. -/
theorem approveNative_triple (waiting : ApprovalRequest) :
    Triple (Permitted host args ctx)
      (fun history => (Pending host args ctx policy owner request history ∧
        Waited history owner request waiting) ∧ Asked history "bash" args.command)
      (awaited (.approveNativeApproval request.id owner))
      (fun _ history => (Pending host args ctx policy owner request history ∧
        Waited history owner request waiting) ∧ Native args history owner request waiting)
      (Pending host args ctx policy owner request) := by
  apply Triple.await
  · exact fun aborted _ facts => facts.1.1.permits (.approve facts.2) aborted
  · rintro aborted history approved ⟨⟨pending, waited⟩, asked⟩
    refine ⟨⟨pending.exchange rfl aborted _, List.mem_append_left _ waited⟩, fun _ => ?_⟩
    exact ⟨history, aborted, approved, [], rfl, asked⟩
  · exact fun aborted _ failure facts => facts.1.1.exchange rfl aborted _

/-- Behind the question to the user the host has approved the request. -/
theorem nativeApproval_triple (waiting : ApprovalRequest) :
    Triple (Permitted host args ctx)
      (fun history => Pending host args ctx policy owner request history ∧
        Waited history owner request waiting)
      (nativeApproval host request waiting (bashIntent host args ctx policy) owner)
      (fun _ history => (Pending host args ctx policy owner request history ∧
        Waited history owner request waiting) ∧ Native args history owner request waiting)
      (Pending host args ctx policy owner request) := by
  rw [nativeApproval]
  split
  next fallback =>
    refine Triple.bind ((nativeAsk_triple fallback).joined.imp (fun _ facts => facts)
      (fun _ _ facts => facts) fun _ facts => facts.1) fun _ => ?_
    exact Triple.bind (approveNative_triple waiting) fun _ => Triple.pure fun _ facts => facts
  next direct =>
    exact Triple.pure fun _ facts => ⟨facts, fun fallback => absurd fallback direct⟩

/-- The consumption of a request that was waited for. -/
theorem consume_triple (waiting : ApprovalRequest) :
    Triple (Permitted host args ctx)
      (fun history => (Pending host args ctx policy owner request history ∧
        Waited history owner request waiting) ∧ Native args history owner request waiting)
      (awaited (.consumeApproval request.id (bashIntent host args ctx policy) owner))
      (fun consumed history => Pending host args ctx policy owner request history ∧
        (granted consumed = true → Granted host args ctx history policy owner request))
      (Pending host args ctx policy owner request) := by
  apply Triple.await
  · exact fun aborted _ facts => facts.1.1.permits (.consume facts.1.2 facts.2) aborted
  · rintro aborted history consumed ⟨⟨pending, waited⟩, native⟩
    refine ⟨pending.exchange rfl aborted _, fun grants => ?_⟩
    exact ⟨⟨waiting, List.mem_append_left _ waited, native.append _⟩, consumed, grants,
      mem_exchange history _ aborted _⟩
  · exact fun aborted _ failure facts => facts.1.1.exchange rfl aborted _

/-- Behind the consumption the approval is granted. -/
theorem consumption_triple :
    Triple (Permitted host args ctx) (Pending host args ctx policy owner request)
      (consumption host request (bashIntent host args ctx policy) owner)
      (fun _ history => Pending host args ctx policy owner request history ∧
        Granted host args ctx history policy owner request)
      (Pending host args ctx policy owner request) := by
  refine Triple.bind abortableApprovalWait_triple.joined fun waiting => ?_
  refine Triple.bind (nativeApproval_triple waiting) fun _ => ?_
  refine Triple.bind (consume_triple waiting) fun consumed => ?_
  refine (throwIf_triple _ _ fun _ known _ => known).imp (fun _ facts => facts) ?_
    fun _ facts => facts.1
  rintro _ history ⟨⟨pending, grants⟩, taken⟩
  exact ⟨pending, grants (by simpa using taken)⟩

/-- A request whose approval fails is cancelled. -/
theorem approve_triple :
    Triple (Permitted host args ctx) (Pending host args ctx policy owner request)
      (approve host request (bashIntent host args ctx policy) owner)
      (fun _ history => Pending host args ctx policy owner request history ∧
        Granted host args ctx history policy owner request)
      Closed := by
  refine Triple.tryCatch consumption_triple fun failure => ?_
  have cancels : Triple (Permitted host args ctx) (Pending host args ctx policy owner request)
      (attempted (.cancelApproval request.id owner)) (fun _ => Closed) Closed := by
    apply attempted_triple
    · intro aborted history pending
      constructor
      · rintro options known ⟨⟩
      · rintro id known ⟨⟩
      · intro other member
        rw [pending.only, List.mem_singleton] at member
        subst member
        exact .inr (.inr (.inl ⟨owner, rfl⟩))
    · intro aborted history outcome pending other member
      rw [requests_exchange rfl, pending.only, List.mem_singleton] at member
      subst member
      exact .inr ⟨owner, aborted, by simp⟩
  exact Triple.bind cancels fun _ => Triple.throw fun _ closed => closed

variable (host args ctx) in
/-- The approval that the policy asks for is there. -/
structure Ready (policy : Policy) (owner : OwnerContext) (history : History) : Prop where
  unstarted : starts history = []
  settled : Settled history
  authorized : Authorized host args ctx history policy
  approved : Approved host args ctx history policy owner

/-- A call that neither prepares nor starts leaves the tool ready. -/
theorem Ready.exchange (ready : Ready host args ctx policy owner history) {call : Call}
    (plain : Call.plain call = true) (aborted : Bool) (outcome : Except Failure call.Reply) :
    Ready host args ctx policy owner (history ++ exchange call aborted outcome) := by
  constructor
  · rw [starts_exchange plain, ready.unstarted]
  · exact ready.settled.exchange plain aborted outcome
  · exact ready.authorized.append _
  · exact ready.approved.append _

/-- A pending request that was granted makes the tool ready. -/
theorem Pending.ready (pending : Pending host args ctx policy owner request history)
    (grants : Granted host args ctx history policy owner request) :
    Ready host args ctx policy owner history := by
  obtain ⟨preparation, prepared, left⟩ := pending.prepared
  refine ⟨pending.unstarted, ?_, pending.authorized, .inr ⟨preparation, prepared, ?_⟩⟩
  · intro other member
    rw [pending.only, List.mem_singleton] at member
    subst member
    obtain ⟨consumed, taken, found⟩ := grants.consumed
    exact ⟨_, owner, consumed, taken, found⟩
  · intro other known
    rw [left, Option.some.injEq] at known
    subst known
    exact grants

/-- What a preparation adds to the requests. -/
theorem requests_prepared (quiet : Quiet history) (intent : Intent) (expiry lease : Nat)
    (aborted : Bool) (preparation : ApprovalPreparation) :
    requests (history ++ exchange (.prepareApproval intent expiry lease owner) aborted
      (.ok preparation)) = preparation.unapproved.toList := by
  rw [requests, List.filterMap_append, ← requests, quiet.unrequested, List.nil_append,
    List.filterMap_cons_none rfl]
  cases left : preparation.unapproved with
  | none => exact List.filterMap_cons_none left
  | some request => exact List.filterMap_cons_some left

/-- The preparation of a request, which opens it unless the session has approved it. -/
theorem prepare_triple :
    Triple (Permitted host args ctx)
      (fun history => Quiet history ∧ Authorized host args ctx history policy)
      (awaited (.prepareApproval (bashIntent host args ctx policy) approvalExpirySeconds
        approvalUiLeaseSeconds owner))
      (fun preparation history => starts history = [] ∧
        requests history = preparation.unapproved.toList ∧
        Authorized host args ctx history policy ∧
        Prepared host args ctx history policy owner preparation)
      Closed := by
  apply Triple.await
  · exact fun aborted _ facts => facts.1.settled.permits rfl aborted
  · rintro aborted history preparation ⟨quiet, authorized⟩
    refine ⟨?_, requests_prepared quiet _ _ _ aborted preparation, authorized.append _,
      mem_exchange history _ aborted _⟩
    rw [starts, List.filterMap_append, ← starts, quiet.unstarted]
    rfl
  · rintro aborted history failure ⟨quiet, _⟩ request member
    rw [requests, List.filterMap_append, ← requests, quiet.unrequested] at member
    cases member

/-- Behind the authorization the tool is ready; where it fails, no request is left open. -/
theorem authorize_triple :
    Triple (Permitted host args ctx)
      (fun history => Quiet history ∧ Authorized host args ctx history policy)
      (authorize host policy (bashIntent host args ctx policy) owner)
      (fun _ => Ready host args ctx policy owner) Closed := by
  rw [authorize]
  split
  next asked =>
    refine Triple.bind prepare_triple fun preparation => ?_
    cases left : preparation.unapproved with
    | none =>
      apply Triple.pure
      rintro history ⟨unstarted, none, authorized, prepared⟩
      refine ⟨unstarted, ?_, authorized, .inr ⟨preparation, prepared, ?_⟩⟩
      · intro request member
        rw [none] at member
        cases member
      · intro request known
        rw [left] at known
        cases known
    | some request =>
      refine approve_triple.imp ?_ ?_ fun _ closed => closed
      · rintro history ⟨unstarted, only, authorized, prepared⟩
        exact ⟨unstarted, only, authorized, preparation, prepared, left⟩
      · exact fun _ history facts => facts.1.ready facts.2
  next unasked =>
    apply Triple.pure
    rintro history ⟨quiet, authorized⟩
    exact ⟨quiet.unstarted, quiet.settled, authorized, .inl (authorized.asks unasked)⟩

/-- Behind it the directory is approved as well. -/
theorem authorizeExternal_triple :
    Triple (Permitted host args ctx) (Ready host args ctx policy owner)
      (authorizeExternal host policy)
      (fun _ history =>
        Ready host args ctx policy owner history ∧ ExternallyApproved history policy)
      Closed := by
  rw [authorizeExternal]
  split
  next inside =>
    apply Triple.pure
    intro history ready
    refine ⟨ready, fun pattern outside => ?_⟩
    rw [inside] at outside
    cases outside
  next pattern outside =>
    split
    next asked =>
      have asks : Triple (Permitted host args ctx) (Ready host args ctx policy owner)
          (abortableAsk host (js "external_directory") pattern)
          (fun _ history => Ready host args ctx policy owner history ∧
            Asked history "external_directory" pattern)
          (Ready host args ctx policy owner) := by
        apply abortableAsk_triple
        · exact fun aborted _ ready => ready.settled.permits rfl aborted
        · exact fun aborted _ outcome ready => ready.exchange rfl aborted outcome
      refine asks.joined.imp (fun _ ready => ready) ?_ fun _ ready => ready.settled.closed
      rintro _ history ⟨ready, answered⟩
      refine ⟨ready, fun other found _ => ?_⟩
      rw [outside, Option.some.injEq] at found
      subst found
      exact answered
    next unasked =>
      apply Triple.pure
      intro history ready
      refine ⟨ready, fun other found refused => ?_⟩
      rw [found] at outside
      cases outside
      have filled := ready.authorized.pattern found
      exact absurd ⟨by simp [filled], refused⟩ unasked

end Approval

/-! ## The start -/

/-- A call after the start. -/
theorem settled_call (call : Call) (plain : Call.plain call = true)
    (unwatched : Call.watched call = false) :
    Triple (Permitted host args ctx) Settled (awaited call) (fun _ => Settled) Settled := by
  apply Triple.await
  · exact fun aborted _ settled => settled.permits unwatched aborted
  · exact fun aborted _ value settled => settled.exchange plain aborted (.ok value)
  · exact fun aborted _ failure settled => settled.exchange plain aborted (.error failure)

/-- A command that was started is waited for, or stopped. -/
theorem abortableExec_triple (id : JsString) (owner : OwnerContext) (timeoutSeconds : Nat) :
    Triple (Permitted host args ctx) Settled (abortableExec id owner timeoutSeconds)
      (fun _ => Settled) Settled := by
  refine Triple.tryCatch (settled_call _ rfl rfl) fun failure => ?_
  refine Triple.bind (Triple.aborted fun _ _ settled => settled) fun aborted => ?_
  cases aborted with
  | false => exact Triple.throw fun _ settled => settled
  | true =>
    have stops : Triple (Permitted host args ctx) Settled (attempted (.stop id owner))
        (fun _ => Settled) Settled := by
      apply attempted_triple
      · exact fun aborted _ settled => settled.permits rfl aborted
      · exact fun aborted _ outcome settled => settled.exchange rfl aborted outcome
    refine Triple.bind stops fun _ => ?_
    have waits : Triple (Permitted host args ctx) Settled
        (do
          let result : ExecResult ← awaited (.execWait id 5 owner false)
          pure (if terminalExecResult result then some result else none))
        (fun _ => Settled) Settled :=
      Triple.bind (settled_call _ rfl rfl) fun _ => Triple.pure fun _ settled => settled
    refine Triple.bind (Triple.tryCatch waits fun _ => Triple.pure fun _ settled => settled)
      fun _ => ?_
    exact Triple.throw fun _ settled => settled

variable (host args ctx) in
/-- What is known of a history after which the command may be started. -/
structure Cleared (policy : Policy) (owner : OwnerContext) (history : History) : Prop where
  ready : Ready host args ctx policy owner history
  external : ExternallyApproved history policy
  owned : ownerContext host ctx.sessionID ctx.directory = .ok owner

section Start

variable {policy : Policy} {owner : OwnerContext} {history : History}
variable {argv : JsString × List JsString} {timeoutSeconds : Nat}

/-- The start of a command is permitted where the tool is not aborted. -/
theorem Cleared.permits (cleared : Cleared host args ctx policy owner history)
    (shell : bashArgv host args.command = .ok argv)
    (limit : bashTimeout args.timeout = .ok timeoutSeconds) :
    Permitted host args ctx false history
      (.execStart (execOptions ctx policy argv timeoutSeconds) owner) := by
  constructor
  · rintro options known ⟨⟩
    exact ⟨rfl, cleared.ready.unstarted, cleared.owned, policy, argv, timeoutSeconds,
      cleared.ready.authorized, shell, limit, rfl, cleared.ready.approved, cleared.external⟩
  · rintro id known ⟨⟩
  · exact fun request member => .inl (cleared.ready.settled request member)

/-- A start leaves every request consumed. -/
theorem settled_start (settled : Settled history) (options : ExecOptions) (aborted : Bool)
    (outcome : Except Failure (Call.execStart options owner).Reply) :
    Settled (history ++ exchange (.execStart options owner) aborted outcome) := by
  have same : requests (history ++ exchange (.execStart options owner) aborted outcome) =
      requests history := by
    rw [requests, List.filterMap_append]
    exact List.append_nil _
  intro request member
  rw [same] at member
  exact (settled request member).append _

/-- Where everything is cleared, the command is started once and waited for. -/
theorem startAndWait_meets (cleared : Cleared host args ctx policy owner history)
    (shell : bashArgv host args.command = .ok argv)
    (limit : bashTimeout args.timeout = .ok timeoutSeconds) :
    Meets (Permitted host args ctx) (Concluded (fun _ => Closed) Closed)
      (startAndWait host (execOptions ctx policy argv timeoutSeconds) owner) false history := by
  have waits (session : JsString) : Triple (Permitted host args ctx) Settled
      (do
        let result ← (abortableExec session owner
          (min (timeoutSeconds + 5) maxExecWaitSeconds)).joined
        throwIf (!terminalExecResult result) "Bash execution completed without terminal evidence."
        Program.lift (host.metadata (js "[opencode-pty · foreground · completed]"))
        pure (bashOutput result))
      (fun (_ : JsString) => Closed) Settled := by
    refine Triple.bind (abortableExec_triple session owner _).joined fun result => ?_
    refine Triple.bind ((throwIf_triple _ _ fun _ known _ => known).imp (fun _ settled => settled)
      (fun _ _ facts => facts.1) fun _ settled => settled) fun _ => ?_
    refine Triple.bind (Triple.lift (fun _ _ _ settled => settled) fun _ settled => settled)
      fun _ => ?_
    exact Triple.pure fun _ settled => Settled.closed settled
  have started : Meets (Permitted host args ctx) (Concluded (fun _ => Settled) Settled)
      (awaited (.execStart (execOptions ctx policy argv timeoutSeconds) owner)) false history :=
    Meets.await (cleared.permits shell limit)
      (fun value => settled_start cleared.ready.settled _ false (.ok value))
      fun failure => settled_start cleared.ready.settled _ false (.error failure)
  refine Meets.tryCatch (started.bind waits) fun failure => ?_
  refine Triple.bind (Triple.lift (fun _ _ _ settled => settled)
    fun _ settled => Settled.closed settled) fun _ => ?_
  exact Triple.throw fun _ settled => Settled.closed settled

/-- The signal is read right before the start: nothing is awaited in between. -/
theorem startCommand_triple :
    Triple (Permitted host args ctx) (Cleared host args ctx policy owner)
      (startCommand host args ctx policy owner) (fun _ => Closed) Closed := by
  intro aborted history cleared
  have closed := cleared.ready.settled.closed
  cases aborted with
  | true => exact closed
  | false =>
    rw [startCommand]
    cases shell : bashArgv host args.command with
    | error failure => exact closed
    | ok argv =>
      cases limit : bashTimeout args.timeout with
      | error failure => exact closed
      | ok timeoutSeconds =>
        cases host.metadata (js "[opencode-pty · foreground · running]") with
        | error failure => exact closed
        | ok _ => exact startAndWait_meets cleared shell limit

end Start

/-! ## The tool -/

/-- However the tool ends, no request is left open. -/
theorem execute_triple :
    Triple (Permitted host args ctx) Quiet (execute host args ctx) (fun _ => Closed) Closed := by
  refine Triple.bind ((throwIf_triple _ _ fun _ known _ => known).imp (fun _ quiet => quiet)
    (fun _ _ facts => facts.1) fun _ quiet => quiet.settled.closed) fun _ => ?_
  refine Triple.bind (Triple.lift (fun _ _ _ quiet => quiet)
    fun _ quiet => Settled.closed (Quiet.settled quiet)) fun _ => ?_
  refine Triple.bind ((createBashAuthorizer_triple host args ctx).joined.imp
    (fun _ quiet => quiet) (fun _ _ facts => facts) fun _ quiet => quiet.settled.closed)
    fun policy => ?_
  have owns : Triple (Permitted host args ctx)
      (fun history => Quiet history ∧ Authorized host args ctx history policy)
      (Program.lift (ownerContext host ctx.sessionID ctx.directory))
      (fun owner history => (Quiet history ∧ Authorized host args ctx history policy) ∧
        ownerContext host ctx.sessionID ctx.directory = .ok owner) Closed :=
    Triple.lift (fun _ _ found facts => ⟨facts, found⟩) fun _ facts => facts.1.settled.closed
  refine Triple.bind owns fun owner => ?_
  by_cases owned : ownerContext host ctx.sessionID ctx.directory = .ok owner
  · refine Triple.bind (authorize_triple.imp (fun _ facts => facts.1) (fun _ _ ready => ready)
      fun _ closed => closed) fun _ => ?_
    refine Triple.bind authorizeExternal_triple fun _ => ?_
    exact startCommand_triple.imp (fun _ facts => ⟨facts.1, facts.2, owned⟩)
      (fun _ _ closed => closed) fun _ closed => closed
  · exact fun _ _ facts => absurd facts.2 owned

/-- At most one command is started in a history whose starts came after no other. -/
theorem starts_once {history : History}
    (calls : Calls (Permitted host args ctx) history) : (starts history).length ≤ 1 := by
  induction history using List.reverseRecOn with
  | nil => exact Nat.zero_le 1
  | append_singleton history entry inductionHypothesis =>
    have earlier : (starts history).length ≤ 1 := by
      apply inductionHypothesis
      intro before call aborted after same
      apply calls before call aborted (after ++ [entry])
      rw [same, List.append_assoc, List.cons_append]
    rw [starts, List.filterMap_append, List.length_append, ← starts]
    cases start : Entry.start? entry with
    | none => rwa [List.filterMap_cons_none start]
    | some options =>
      rw [List.filterMap_cons_some start]
      have none : starts history = [] := by
        cases entry with
        | returned call outcome => cases start
        | called call aborted =>
          cases call with
          | execStart known owner =>
            exact ((calls history _ aborted [] rfl).started known owner rfl).2.unstarted
          | _ => cases start
      rw [none]
      exact Nat.le_refl 1

/-- Whatever the tool is answered and whenever it is aborted, it starts the command at most
once, makes only calls that are permitted, and does not end with an open request. -/
theorem bash_approved (host : Host) (args : BashArgs) (ctx : ToolContext)
    (events : List (Event Call Call.Reply Failure)) :
    (starts (run (start (execute host args ctx)) events).history).length ≤ 1 ∧
      (∀ before call aborted after,
        (run (start (execute host args ctx)) events).history =
          before ++ .called call aborted :: after →
        Permitted host args ctx aborted before call) ∧
      ∀ outcome, (run (start (execute host args ctx)) events).stage = .ended outcome →
        Closed (run (start (execute host args ctx)) events).history := by
  have meets (aborted : Bool) : Meets (Permitted host args ctx)
      (fun _ history (_ : Except Failure JsString) => Closed history)
      (execute host args ctx) aborted [] := by
    refine (execute_triple aborted [] ⟨rfl, rfl⟩).imp ?_
    intro _ history outcome concluded
    cases outcome with
    | ok _ => exact concluded
    | error _ => exact concluded
  have sound := run_meets meets events
  exact ⟨starts_once sound.calls, sound.calls, sound.ended⟩

/-- A host without a project repository, whose user approves what is asked. -/
def sampleHost : Host where
  windows := false
  comSpec := none
  upperComSpec := none
  existsSync _ := true
  realpathSync path := .ok path
  relative _ _ := []
  isAbsolute _ := false
  dirname path := path
  separator := js "/"
  trim text := text
  toLowerCase text := text
  digest text := text
  metadata _ := .ok ()
  asks := true
  directory := js "/p"

/-- A request with the given status. -/
def sampleRequest (status : Approvals.ApprovalStatus) : ApprovalRequest :=
  ⟨js "r", [], [], [], [], none, [], [], status, 0, 0, 0, none, none, none⟩

/-- A daemon that leaves the approval to the host, for a policy that asks. -/
def sampleAnswer : (call : Call) → Except Failure call.Reply
  | .configGet => .ok ⟨some (.action .ask), []⟩
  | .realpaths workdir directory => .ok (workdir, directory)
  | .gitToplevel _ => .error []
  | .realpath path => .ok path
  | .prepareApproval _ _ _ _ => .ok (.request (sampleRequest .pending))
  | .waitForApproval _ _ _ => .ok (sampleRequest .nativeFallback)
  | .approveNativeApproval _ _ => .ok (sampleRequest .approvedOnce)
  | .consumeApproval _ _ _ => .ok (sampleRequest .consumed)
  | .cancelApproval _ _ => .ok (sampleRequest .cancelled)
  | .execStart _ _ => .ok (js "e")
  | .execWait _ _ _ _ => .error []
  | .showToast _ | .ask _ | .stop _ _ => .ok ()

/-- A command that the user approves is started. -/
example :
    (starts (run (start (execute sampleHost ⟨js "ls", none, none⟩ ⟨js "s", js "/p", js "a"⟩))
      (List.replicate 16 [.resume, .answer sampleAnswer]).flatten).history).map
        ExecOptions.args = [[js "-lc", js "ls"]] := by
  decide

end OpencodePty.BashApprovals
