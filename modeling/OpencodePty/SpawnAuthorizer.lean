import OpencodePty.BashApprovals
import OpencodePty.PermissionRules

/-!
# The authorizer of spawned commands

A command is spawned in the directory that the authorizer resolves. It asks the user about a command
that the rules do not allow, and about a directory outside the project, but not before it knows that no
rule denies either, and that an environment comes with an allowed command.
-/

namespace OpencodePty.SpawnAuthorizer

open OpencodePty.JsValues OpencodePty.AbortablePrograms OpencodePty.BashTool
open OpencodePty.BashApprovals OpencodePty.PermissionRules

/-- What an authorizer is called with. -/
structure Request where
  command : JsString
  args : List JsString
  workdir : Option JsString
  agent : Option JsString
  /-- Whether there is a function to ask the user with. -/
  asks : Bool
  env : Option (List (JsString × JsString))
  inheritEnv : Option Bool

namespace Request

variable (request : Request)

/-- The command line that the rules are about. -/
def pattern : JsString := (js " ").intercalate (request.command :: request.args)

/-- Whether an environment is given or inherited. -/
def hasEnvironment : Bool :=
  request.inheritEnv = some true || !(request.env.getD []).isEmpty

/-- The agent, where an absent one is taken for one without a name. -/
def agentName : JsString := request.agent.getD []

end Request

/-- The question for one permission. -/
def authorizationRequest (permission pattern : JsString) : AskRequest :=
  ⟨permission, [pattern], [pattern], js "[opencode-pty · authorization request]"⟩

/-- The host is asked, where it can be. -/
def requestApproval (asks : Bool) (permission pattern : JsString) : Async Unit := do
  throwIf (!asks) "PTY command denied: native permission approval is unavailable in this host."
  awaited (.ask (authorizationRequest permission pattern))

/-- The question about a command that is not allowed. -/
def authorizeCommand (request : Request) (action : Option PermissionAction) : Async Unit :=
  if action ≠ some .allow then (requestApproval request.asks (js "bash") request.pattern).joined
  else pure ()

/-- The question about a directory outside the project. -/
def authorizeDirectory (request : Request) (resolved : ResolvedWorkdir) : Async Unit :=
  if resolved.outside = true ∧ resolved.action ≠ some .allow then
    (requestApproval request.asks (js "external_directory") resolved.pattern).joined
  else pure ()

/-- The questions about a call that is not denied. -/
def requestApprovals (request : Request) (action : Option PermissionAction)
    (resolved : ResolvedWorkdir) : Async JsString := do
  authorizeCommand request action
  authorizeDirectory request resolved
  pure resolved.workdir

/-- A start is authorized: its command first, then its directory. -/
def createSpawnAuthorizer (host : Host) (request : Request) : Async JsString := do
  let permissions ← permissionConfig.joined
  let action := evaluate host permissions request.agentName (js "bash") request.pattern
  let resolved ← (workdirAuthorization host permissions request.workdir request.agentName).joined
  if action = some .deny ∨ resolved.action = some .deny then
    (deny (js "PTY command denied by local permission policy.")).joined
  else if action ≠ some .allow ∧ request.hasEnvironment = true then
    (deny (js "PTY command denied: custom or inherited environment requires an explicit local bash allow rule.")).joined
  else requestApprovals request action resolved

/-! ## What the rules say -/

section Rules

variable (host : Host) (permissions : Config) (agent input : JsString) (resolved : ResolvedWorkdir)

/-- No rule that matches denies the command, and none denies a directory outside the project. -/
structure Undenied : Prop where
  bash : ∀ rule ∈ matching host permissions agent (js "bash") input, rule.action ≠ .deny
  external : resolved.outside = true →
    ∀ rule ∈ matching host permissions agent (js "external_directory") resolved.workdir,
      rule.action ≠ .deny

/-- The last rule that matches the command allows it. -/
def AllowsBash : Prop := lastAction host permissions agent (js "bash") input = some .allow

/-- The last rule that matches the directory allows it. -/
def AllowsExternal : Prop :=
  lastAction host permissions agent (js "external_directory") resolved.workdir = some .allow

end Rules

/-- The configuration and the directories that an authorizer was answered. -/
def Read (host : Host) (workdir : Option JsString) (agent : JsString) (permissions : Config)
    (resolved : ResolvedWorkdir) (history : History) : Prop :=
  Configured permissions history ∧ Located host permissions workdir agent resolved history

/-- There is no policy or no directory to go by. -/
def Unread (host : Host) (workdir : Option JsString) (history : History) : Prop :=
  (∃ failure, .returned .configGet (.error failure) ∈ history) ∨ Unlocated host workdir history

/-- The user approved a question. -/
def Approved (permission : String) (pattern : JsString) (history : History) : Prop :=
  .returned (.ask (authorizationRequest (js permission) pattern)) (.ok ()) ∈ history

section Spawn

variable (host : Host) (request : Request)

/-- No rule denies the call, and an environment comes only with an allowed command. -/
structure Admitted (permissions : Config) (resolved : ResolvedWorkdir) : Prop where
  undenied : Undenied host permissions request.agentName request.pattern resolved
  environment : request.hasEnvironment = true →
    AllowsBash host permissions request.agentName request.pattern

/-- The rules or the user allow the command. -/
def CommandCleared (permissions : Config) (history : History) : Prop :=
  AllowsBash host permissions request.agentName request.pattern ∨
    Approved "bash" request.pattern history

/-- The rules or the user allow the directory, where it is outside the project. -/
def DirectoryCleared (permissions : Config) (resolved : ResolvedWorkdir) (history : History) : Prop :=
  resolved.outside = true → AllowsExternal host permissions request.agentName resolved ∨
    Approved "external_directory" resolved.pattern history

/-- A question that may be asked: the call is not going to be denied, and the rules do not answer the
question. -/
def Askable (history : History) (ask : AskRequest) : Prop :=
  ∃ permissions resolved, Read host request.workdir request.agentName permissions resolved history ∧
    Admitted host request permissions resolved ∧
    (ask = authorizationRequest (js "bash") request.pattern ∧
        ¬ AllowsBash host permissions request.agentName request.pattern ∨
      ask = authorizationRequest (js "external_directory") resolved.pattern ∧
        resolved.outside = true ∧
        ¬ AllowsExternal host permissions request.agentName resolved ∧
        CommandCleared host request permissions history)

/-- What is known where a directory is resolved. -/
def Authorized (history : History) (workdir : JsString) : Prop :=
  ∃ permissions resolved, Read host request.workdir request.agentName permissions resolved history ∧
    workdir = resolved.workdir ∧ Admitted host request permissions resolved ∧
    CommandCleared host request permissions history ∧
    DirectoryCleared host request permissions resolved history

/-- Why a call fails: the policy was not read, it denies the call, or a question that it leaves to the
user could not be asked or was not approved. -/
def Refused (history : History) : Prop :=
  Unread host request.workdir history ∨ ∃ permissions resolved,
    Read host request.workdir request.agentName permissions resolved history ∧
      (¬ Admitted host request permissions resolved ∨
        (¬ AllowsBash host permissions request.agentName request.pattern ∨
          resolved.outside = true ∧ ¬ AllowsExternal host permissions request.agentName resolved) ∧
        (request.asks = false ∨ ∃ ask failure, .returned (.ask ask) (.error failure) ∈ history))

/-- What may be called after a history. -/
def Permitted (_ : Bool) (history : History) (call : Call) : Prop :=
  ∀ ask, call = .ask ask → Askable host request history ask

end Spawn

/-! ## Directories outside the project -/

/-- The canonical path of a directory with the given names on its way. -/
def pathOf (names : List JsString) : JsString := js "/" ++ (js "/").intercalate names

/-- A name on the way of a canonical path. -/
structure IsName (name : JsString) : Prop where
  nonempty : name ≠ []
  notHere : name ≠ js "."
  notUp : name ≠ js ".."
  noSlash : slash ∉ name

/-- How many names two directories share on their way. -/
def sharedNames : List JsString → List JsString → Nat
  | name :: boundary, other :: directory =>
    if name = other then sharedNames boundary directory + 1 else 0
  | _, _ => 0

/-- The documented path functions on canonical paths. -/
structure PosixPaths (host : Host) : Prop where
  separator : host.separator = js "/"
  isAbsolute : ∀ path, host.isAbsolute path = (js "/").isPrefixOf path
  relative : ∀ boundary directory, (∀ name ∈ boundary ++ directory, IsName name) →
    host.relative (pathOf boundary) (pathOf directory) = (js "/").intercalate
      (List.replicate (boundary.length - sharedNames boundary directory) (js "..") ++
        directory.drop (sharedNames boundary directory))

/-- All names of a directory are shared with what is below it. -/
theorem sharedNames_starts (boundary rest : List JsString) :
    sharedNames boundary (boundary ++ rest) = boundary.length := by
  induction boundary with
  | nil => rw [sharedNames.eq_def]; rfl
  | cons name boundary inductionHypothesis =>
    rw [List.cons_append, sharedNames, if_pos rfl, inductionHypothesis, List.length_cons]

/-- A directory that is not on the way shares fewer names than it has. -/
theorem sharedNames_lt {boundary directory : List JsString} (other : ¬ boundary <+: directory) :
    sharedNames boundary directory < boundary.length := by
  induction boundary generalizing directory with
  | nil => exact absurd List.nil_prefix other
  | cons name boundary inductionHypothesis =>
    cases directory with
    | nil => exact Nat.succ_pos _
    | cons next directory =>
      rw [sharedNames]
      split
      next same =>
        subst same
        rw [List.cons_prefix_cons, and_iff_right rfl] at other
        exact Nat.succ_lt_succ (inductionHypothesis other)
      next => exact Nat.succ_pos _

/-- The text of names goes on behind its first name with a separator, if at all. -/
theorem intercalate_cons (name : JsString) (names : List JsString) :
    ∃ rest, (js "/").intercalate (name :: names) = name ++ rest ∧
      (rest = [] ∨ ∃ more, rest = slash :: more) := by
  cases names with
  | nil => exact ⟨[], by simp [List.intercalate], .inl rfl⟩
  | cons next others =>
    refine ⟨slash :: (js "/").intercalate (next :: others), ?_, .inr ⟨_, rfl⟩⟩
    rw [List.intercalate_cons_cons, List.append_assoc]
    rfl

/-- A directory is outside just where the way to it does not lead through the boundary. -/
theorem outside_iff {host : Host} (posix : PosixPaths host) (permissions : Config)
    (agent : JsString) {boundary directory : List JsString}
    (names : ∀ name ∈ boundary ++ directory, IsName name) :
    (resolveWorkdir host permissions agent (pathOf directory) (pathOf boundary)).outside = true ↔
      ¬ boundary <+: directory := by
  change leadsOut host (host.relative (pathOf boundary) (pathOf directory)) = true ↔ _
  rw [posix.relative boundary directory names, leadsOut, posix.separator, posix.isAbsolute]
  simp only [Bool.or_eq_true, beq_iff_eq, List.isPrefixOf_iff_prefix]
  by_cases inside : boundary <+: directory
  · refine iff_of_false ?_ (not_not_intro inside)
    obtain ⟨others, rfl⟩ := inside
    rw [sharedNames_starts, Nat.sub_self, List.replicate_zero, List.nil_append, List.drop_left]
    cases others with
    | nil => decide
    | cons name others =>
      obtain ⟨nonempty, _, notUp, noSlash⟩ := names name (by simp)
      obtain ⟨rest, text, ends⟩ := intercalate_cons name others
      -- What stands before the first separator is a name.
      have front : ((js "/").intercalate (name :: others)).takeWhile (· != slash) = name := by
        have units : ∀ unit ∈ name, (unit != slash) = true :=
          fun unit member => bne_iff_ne.mpr (ne_of_mem_of_not_mem member noSlash)
        rw [text, List.takeWhile_append_of_pos units]
        obtain rfl | ⟨more, rfl⟩ := ends
        · exact List.append_nil name
        · exact List.append_nil name
      rintro ((up | ⟨after, up⟩) | ⟨after, absolute⟩)
      · rw [up] at front
        exact notUp front.symm
      · rw [← up] at front
        exact notUp front.symm
      · rw [← absolute] at front
        exact nonempty front.symm
  · refine iff_of_true (.inl ?_) inside
    obtain ⟨count, more⟩ :=
      Nat.exists_eq_succ_of_ne_zero (Nat.sub_ne_zero_of_lt (sharedNames_lt inside))
    rw [more, List.replicate_succ, List.cons_append]
    obtain ⟨rest, text, rfl | ⟨after, rfl⟩⟩ := intercalate_cons (js "..")
      (List.replicate count (js "..") ++ directory.drop (sharedNames boundary directory))
    · exact .inl (text.trans (List.append_nil _))
    · exact .inr ⟨after, text.symm⟩

/-! ## Reading the policy -/

section Reads

variable {allowed : Bool → History → Call → Prop} {host : Host} {workdir : Option JsString}
variable {agent : JsString} {Result : Type}

/-- What was read stays read. -/
theorem Read.append {permissions : Config} {resolved : ResolvedWorkdir} {history : History}
    (read : Read host workdir agent permissions resolved history) (more : History) :
    Read host workdir agent permissions resolved (history ++ more) := by
  obtain ⟨configured, path, project, boundary, listed, bounded, same⟩ := read
  exact ⟨List.mem_append_left more configured, path, project, boundary,
    List.mem_append_left more listed, bounded.append more, same⟩

/-- An authorizer goes on with the policy and the directories that it reads. -/
theorem authorizer_triple (readable : Readable allowed fun _ => True)
    {next : Config → ResolvedWorkdir → Async Result} {returns : Result → History → Prop}
    {throws : History → Prop} (unread : ∀ history, Unread host workdir history → throws history)
    (following : ∀ permissions resolved, Triple allowed
      (Read host workdir agent permissions resolved) (next permissions resolved) returns throws) :
    Triple allowed (fun _ => True)
      (do
        let permissions ← permissionConfig.joined
        let resolved ← (workdirAuthorization host permissions workdir agent).joined
        next permissions resolved) returns throws := by
  refine Triple.bind ((permissionConfig_triple readable).joined.imp (fun _ known => known)
    (fun _ _ found => found) fun history failed => unread history (.inl failed.2))
    fun permissions => ?_
  have configured := readable.along (Configured permissions)
    fun _ more listed => List.mem_append_left more listed
  refine Triple.bind ((workdirAuthorization_triple host configured permissions workdir agent).joined.imp
    (fun _ known => known) (fun _ _ found => found)
    fun history failed => unread history (.inr failed.2)) fun resolved => ?_
  exact (following permissions resolved).imp (fun _ known => ⟨known.1.2, known.2⟩)
    (fun _ _ found => found) fun _ failed => failed

/-- A denial fails, also where its notice does. -/
theorem deny_triple {known : History → Prop} (message : JsString)
    (permitted : ∀ aborted history, known history → allowed aborted history (.showToast message))
    (kept : ∀ history more, known history → known (history ++ more))
    {returns : Result → History → Prop} : Triple allowed known (deny message) returns known :=
  Triple.bind (attempted_triple permitted fun _ history _ facts => kept history _ facts)
    fun _ => Triple.throw fun _ facts => facts

end Reads

/-! ## Asking the user -/

section Spawn

variable {host : Host} {request : Request}

/-- What is permitted may be read. -/
theorem readable_permitted : Readable (Permitted host request) fun _ => True where
  permitted call reads _ _ _ := by
    rintro ask rfl
    cases reads
  kept _ _ _ _ _ _ := trivial

/-- A command that is cleared stays cleared. -/
theorem CommandCleared.append {permissions : Config} {history : History}
    (cleared : CommandCleared host request permissions history) (more : History) :
    CommandCleared host request permissions (history ++ more) :=
  cleared.imp id (List.mem_append_left more)

/-- The host is asked only what it may be asked. -/
theorem requestApproval_triple {known : History → Prop} {permission : String} {pattern : JsString}
    (askable : ∀ history, known history →
      Askable host request history (authorizationRequest (js permission) pattern))
    (kept : ∀ history more, known history → known (history ++ more)) :
    Triple (Permitted host request) known (requestApproval request.asks (js permission) pattern)
      (fun _ history => known history ∧ Approved permission pattern history)
      (fun history => known history ∧ (request.asks = false ∨
        ∃ ask failure, .returned (.ask ask) (.error failure) ∈ history)) := by
  have present : Triple (Permitted host request) known
      (throwIf (!request.asks)
        "PTY command denied: native permission approval is unavailable in this host.")
      (fun _ => known) (fun history => known history ∧ (request.asks = false ∨
        ∃ ask failure, .returned (.ask ask) (.error failure) ∈ history)) :=
    (throwIf_triple _ _ fun _ facts missing => ⟨facts, .inl (by simpa using missing)⟩).imp
      (fun _ facts => facts) (fun _ _ facts => facts.1) fun _ failed => failed
  refine Triple.bind present fun _ => ?_
  apply Triple.await
  · rintro _ history facts _ ⟨⟩
    exact askable history facts
  · intro aborted history value facts
    exact ⟨kept history _ facts, mem_exchange history _ aborted _⟩
  · intro aborted history failure facts
    exact ⟨kept history _ facts, .inr ⟨_, failure, mem_exchange history _ aborted _⟩⟩

/-- Where the call is admitted, the questions that the rules leave open are asked one after the
other. -/
theorem requestApprovals_triple {permissions : Config} {resolved : ResolvedWorkdir}
    (admitted : Admitted host request permissions resolved)
    (bash : evaluate host permissions request.agentName (js "bash") request.pattern = some .allow ↔
      AllowsBash host permissions request.agentName request.pattern)
    (external : resolved.outside = true → (resolved.action = some .allow ↔
      AllowsExternal host permissions request.agentName resolved)) :
    Triple (Permitted host request)
      (Read host request.workdir request.agentName permissions resolved)
      (requestApprovals request
        (evaluate host permissions request.agentName (js "bash") request.pattern) resolved)
      (fun workdir history => Authorized host request history workdir) (Refused host request) := by
  have command : Triple (Permitted host request)
      (Read host request.workdir request.agentName permissions resolved)
      (authorizeCommand request
        (evaluate host permissions request.agentName (js "bash") request.pattern))
      (fun _ history => Read host request.workdir request.agentName permissions resolved history ∧
        CommandCleared host request permissions history) (Refused host request) := by
    rw [authorizeCommand]
    split
    next asked =>
      have unanswered := (not_congr bash).mp asked
      refine (requestApproval_triple (fun history read => ?_) fun _ more read =>
        read.append more).joined.imp (fun _ read => read)
        (fun _ _ found => ⟨found.1, .inr found.2⟩) ?_
      · exact ⟨permissions, resolved, read, admitted, .inl ⟨rfl, unanswered⟩⟩
      · rintro history ⟨read, failed⟩
        exact .inr ⟨permissions, resolved, read, .inr ⟨.inl unanswered, failed⟩⟩
    next allowed => exact Triple.pure fun _ read => ⟨read, .inl (bash.mp (not_not.mp allowed))⟩
  have directory : Triple (Permitted host request)
      (fun history => Read host request.workdir request.agentName permissions resolved history ∧
        CommandCleared host request permissions history)
      (authorizeDirectory request resolved)
      (fun _ history => (Read host request.workdir request.agentName permissions resolved history ∧
        CommandCleared host request permissions history) ∧
        DirectoryCleared host request permissions resolved history) (Refused host request) := by
    rw [authorizeDirectory]
    split
    next asked =>
      have unanswered := (not_congr (external asked.1)).mp asked.2
      refine (requestApproval_triple (fun history known => ?_) fun history more known =>
        ⟨known.1.append more, known.2.append more⟩).joined.imp (fun _ known => known)
        (fun _ _ found => ⟨found.1, fun _ => .inr found.2⟩) ?_
      · exact ⟨permissions, resolved, known.1, admitted, .inr ⟨rfl, asked.1, unanswered, known.2⟩⟩
      · rintro history ⟨known, failed⟩
        exact .inr ⟨permissions, resolved, known.1, .inr ⟨.inr ⟨asked.1, unanswered⟩, failed⟩⟩
    next unasked =>
      refine Triple.pure fun _ known => ⟨known, fun outside => .inl ?_⟩
      rw [not_and, not_not] at unasked
      exact (external outside).mp (unasked outside)
  refine Triple.bind command fun _ => Triple.bind directory fun _ => Triple.pure fun history known => ?_
  exact ⟨permissions, resolved, known.1.1, rfl, admitted, known.1.2, known.2⟩

/-- A directory inside the project has no action. -/
theorem action_eq {workdir : Option JsString} {agent : JsString} {permissions : Config}
    {resolved : ResolvedWorkdir} {history : History}
    (read : Read host workdir agent permissions resolved history) :
    resolved.action = if resolved.outside then
      evaluate host permissions agent (js "external_directory") resolved.workdir else none := by
  obtain ⟨_, path, project, boundary, _, _, rfl⟩ := read
  rfl

/-- The code denies what a rule denies. -/
theorem undenied_iff {permissions : Config} {agent input : JsString} {resolved : ResolvedWorkdir}
    (action : resolved.action = if resolved.outside then
      evaluate host permissions agent (js "external_directory") resolved.workdir else none) :
    Undenied host permissions agent input resolved ↔
      ¬ (evaluate host permissions agent (js "bash") input = some .deny ∨
        resolved.action = some .deny) := by
  have external : resolved.action = some .deny ↔ resolved.outside = true ∧
      ∃ rule ∈ matching host permissions agent (js "external_directory") resolved.workdir,
        rule.action = .deny := by
    rw [action]
    split
    next outside => rw [evaluate_deny, and_iff_right outside]
    next inside => exact iff_of_false nofun fun denied => inside denied.1
  rw [evaluate_deny, external]
  constructor
  · rintro undenied (⟨rule, found, denies⟩ | ⟨outside, rule, found, denies⟩)
    · exact undenied.bash rule found denies
    · exact undenied.external outside rule found denies
  · intro allowed
    constructor
    · exact fun rule found denies => allowed (.inl ⟨rule, found, denies⟩)
    · exact fun outside rule found denies => allowed (.inr ⟨outside, rule, found, denies⟩)

/-- A directory is resolved only where all is known, and the call fails only for a reason. -/
theorem createSpawnAuthorizer_triple :
    Triple (Permitted host request) (fun _ => True) (createSpawnAuthorizer host request)
      (fun workdir history => Authorized host request history workdir) (Refused host request) := by
  refine authorizer_triple readable_permitted (fun _ unread => .inl unread)
    fun permissions resolved => ?_
  have denied (message : JsString) (notAdmitted : ¬ Admitted host request permissions resolved) :
      Triple (Permitted host request)
        (Read host request.workdir request.agentName permissions resolved) (deny message).joined
        (fun workdir history => Authorized host request history workdir) (Refused host request) := by
    refine (deny_triple message (fun _ _ _ => ?_) fun _ more read => read.append more).joined.imp
      (fun _ read => read) (fun _ _ found => found) ?_
    · rintro ask ⟨⟩
    · exact fun history read => .inr ⟨permissions, resolved, read, .inl notAdmitted⟩
  intro aborted history read
  have undenied : Undenied host permissions request.agentName request.pattern resolved ↔ _ :=
    undenied_iff (action_eq read)
  split
  next deny =>
    exact denied _ (fun admitted => undenied.mp admitted.undenied deny) aborted history read
  next allowed =>
    have noRule := undenied.mpr allowed
    have bash : evaluate host permissions request.agentName (js "bash") request.pattern =
        some .allow ↔ AllowsBash host permissions request.agentName request.pattern :=
      evaluate_allow.trans (and_iff_right noRule.bash)
    split
    next custom =>
      refine denied _ (fun admitted => custom.1 ?_) aborted history read
      exact bash.mpr (admitted.environment custom.2)
    next known =>
      have admitted : Admitted host request permissions resolved := by
        refine ⟨noRule, fun environment => bash.mp ?_⟩
        by_contra other
        exact known ⟨other, environment⟩
      refine requestApprovals_triple admitted bash (fun outside => ?_) aborted history read
      rw [action_eq read, if_pos outside, evaluate_allow]
      exact and_iff_right (noRule.external outside)

/-- So it is in every run, whatever is answered and whenever the call is given up. -/
theorem createSpawnAuthorizer_run (host : Host) (request : Request)
    (events : List (Event Call Call.Reply Failure)) :
    Sound (Permitted host request)
      (fun history outcome => Concluded
        (fun workdir history => Authorized host request history workdir) (Refused host request)
        true history outcome)
      (run (start (createSpawnAuthorizer host request)) events) :=
  run_meets (fun aborted => createSpawnAuthorizer_triple aborted [] trivial) events

/-- The directory and the boundary of the project that an authorizer was answered. -/
def Answered (host : Host) (workdir : Option JsString) (history : History)
    (path boundary : JsString) : Prop :=
  ∃ project, .returned (.realpaths (workdir.getD host.directory) host.directory)
      (.ok (path, project)) ∈ history ∧
    Bounded host history project boundary

/-- The canonical path of these names. -/
structure Canonical (names : List JsString) (path : JsString) : Prop where
  isName : ∀ name ∈ names, IsName name
  isPath : path = pathOf names

/-- What was read tells where the directory is. -/
theorem Read.answered {history : History} {permissions : Config} {resolved : ResolvedWorkdir}
    (read : Read host request.workdir request.agentName permissions resolved history)
    (posix : PosixPaths host) :
    ∃ boundary, Answered host request.workdir history resolved.workdir boundary ∧
      ∀ names directory, Canonical names boundary → Canonical directory resolved.workdir →
        (resolved.outside = true ↔ ¬ names <+: directory) := by
  obtain ⟨_, path, project, boundary, listed, bounded, rfl⟩ := read
  refine ⟨boundary, ⟨project, listed, bounded⟩, ?_⟩
  rintro names directory ⟨boundaryNames, rfl⟩ ⟨directoryNames, isPath⟩
  obtain rfl : path = pathOf directory := isPath
  refine outside_iff posix permissions _ fun name member => ?_
  exact (List.mem_append.mp member).elim (boundaryNames name) (directoryNames name)

/-- In every run on canonical paths, the user is asked about a directory only where the boundary of
the project is not on the way to it, and a command gets such a directory only where the last rule
that matches allows it or the user approved the question about it. -/
theorem directory_confined {host : Host} (posix : PosixPaths host) (request : Request)
    (events : List (Event Call Call.Reply Failure)) :
    (∀ before pattern aborted after,
      (run (start (createSpawnAuthorizer host request)) events).history = before ++
          .called (.ask (authorizationRequest (js "external_directory") pattern)) aborted :: after →
        ∃ path boundary, Answered host request.workdir before path boundary ∧
          ∀ names directory, Canonical names boundary → Canonical directory path →
            ¬ names <+: directory) ∧
    ∀ workdir,
      (run (start (createSpawnAuthorizer host request)) events).stage = .ended (.ok workdir) →
        ∃ permissions boundary,
          Configured permissions (run (start (createSpawnAuthorizer host request)) events).history ∧
          Answered host request.workdir
            (run (start (createSpawnAuthorizer host request)) events).history workdir boundary ∧
          ∀ names directory, Canonical names boundary → Canonical directory workdir →
            names <+: directory ∨
            lastAction host permissions request.agentName (js "external_directory") workdir =
              some .allow ∨
            Approved "external_directory" (forward (host.dirname workdir) ++ js "/*")
              (run (start (createSpawnAuthorizer host request)) events).history := by
  have sound := createSpawnAuthorizer_run host request events
  constructor
  · intro before pattern aborted after same
    obtain ⟨permissions, resolved, read, _, asked⟩ := sound.calls before _ aborted after same _ rfl
    obtain ⟨boundary, answered, outside⟩ := read.answered posix
    refine ⟨_, boundary, answered, fun names directory isBoundary isDirectory => ?_⟩
    rw [← outside names directory isBoundary isDirectory]
    rcases asked with ⟨other, _⟩ | ⟨_, isOutside, _⟩
    · exact absurd (congrArg AskRequest.permission other)
        (show js "external_directory" ≠ js "bash" by decide)
    · exact isOutside
  · intro workdir ended
    obtain ⟨permissions, resolved, read, rfl, _, _, cleared⟩ := sound.ended _ ended
    obtain ⟨boundary, answered, outside⟩ := read.answered posix
    refine ⟨permissions, boundary, read.1, answered, fun names directory isBoundary isDirectory => ?_⟩
    by_cases inside : names <+: directory
    · exact .inl inside
    · have pattern : resolved.pattern = forward (host.dirname resolved.workdir) ++ js "/*" := by
        obtain ⟨_, _, _, _, _, _, rfl⟩ := read
        rfl
      rw [← pattern]
      exact .inr (cleared ((outside names directory isBoundary isDirectory).mpr inside))

/-- The names on the way of a path. -/
def namesOf (path : JsString) : List JsString :=
  (path.splitOn slash).filter fun name => !name.isEmpty

/-- The relative path between canonical ones. -/
def relativePath (boundary directory : JsString) : JsString :=
  (js "/").intercalate
    (List.replicate ((namesOf boundary).length - sharedNames (namesOf boundary) (namesOf directory))
        (js "..") ++
      (namesOf directory).drop (sharedNames (namesOf boundary) (namesOf directory)))

/-- A host with the path functions of a POSIX system, whose project is at `/p`. -/
def posixHost : Host :=
  { sampleHost with
    relative := relativePath
    isAbsolute := fun path => (js "/").isPrefixOf path
    dirname := fun path => pathOf (namesOf path).dropLast }

/-- The names of a canonical path are read back from it. -/
theorem namesOf_pathOf {names : List JsString} (isName : ∀ name ∈ names, IsName name) :
    namesOf (pathOf names) = names := by
  have kept : names.filter (fun name => !name.isEmpty) = names := by
    refine List.filter_eq_self.mpr fun name member => ?_
    simpa using (isName name member).nonempty
  have split : (pathOf names).splitOn slash = [] :: ((js "/").intercalate names).splitOn slash :=
    List.splitOn_append_cons_self [] _
  rw [namesOf, split, List.filter_cons_of_neg (by decide)]
  cases names with
  | nil => rfl
  | cons name rest =>
    have whole : ((js "/").intercalate (name :: rest)).splitOn slash = name :: rest :=
      List.splitOn_intercalate slash (fun name member => (isName name member).noSlash)
        (List.cons_ne_nil _ _)
    rw [whole, kept]

/-- This host handles paths as POSIX does. -/
theorem posixHost_paths : PosixPaths posixHost where
  separator := rfl
  isAbsolute _ := rfl
  relative boundary directory names := by
    change relativePath _ _ = _
    rw [relativePath, namesOf_pathOf fun name member => names name (List.mem_append_left _ member),
      namesOf_pathOf fun name member => names name (List.mem_append_right _ member)]

/-- A command for `/q`, which the user approves, with the directory. -/
def outsideRequest : Request := ⟨js "ls", [], some (js "/q"), none, true, none, none⟩

/-- The host approves what it is asked. -/
def approvingEvents : List (Event Call Call.Reply Failure) :=
  (List.replicate 12 [.resume, .answer sampleAnswer]).flatten

/-- The command gets the directory outside the project after the question about it. -/
theorem directory_confined_outside :
    (run (start (createSpawnAuthorizer posixHost outsideRequest)) approvingEvents).stage =
      .ended (.ok (js "/q")) ∧
    ∃ permissions boundary,
      Configured permissions
        (run (start (createSpawnAuthorizer posixHost outsideRequest)) approvingEvents).history ∧
      Answered posixHost (some (js "/q"))
        (run (start (createSpawnAuthorizer posixHost outsideRequest)) approvingEvents).history
          (js "/q") boundary ∧
      ∀ names, Canonical names boundary → names <+: [js "q"] ∨
        lastAction posixHost permissions [] (js "external_directory") (js "/q") = some .allow ∨
        Approved "external_directory" (js "//*")
          (run (start (createSpawnAuthorizer posixHost outsideRequest)) approvingEvents).history := by
  have ended : (run (start (createSpawnAuthorizer posixHost outsideRequest)) approvingEvents).stage =
      .ended (.ok (js "/q")) := by
    rfl
  obtain ⟨permissions, boundary, configured, answered, confined⟩ :=
    (directory_confined posixHost_paths outsideRequest approvingEvents).2 _ ended
  refine ⟨ended, permissions, boundary, configured, answered, fun names isBoundary => ?_⟩
  refine confined names [js "q"] isBoundary ⟨fun name member => ?_, rfl⟩
  rw [List.mem_singleton.mp member]
  exact ⟨by decide, by decide, by decide, by decide⟩

end Spawn

/-! ## The authorizer of shell commands -/

section Bash

variable (host : Host) (command : JsString) (workdir : Option JsString) (agent : JsString)

/-- The policy for a shell command that is not denied. -/
def BashAuthorized (history : History) (policy : Policy) : Prop :=
  ∃ permissions resolved, Read host workdir agent permissions resolved history ∧
    Undenied host permissions agent command resolved ∧ policy.workdir = resolved.workdir ∧
    (policy.action = .allow ↔ AllowsBash host permissions agent command) ∧
    (policy.action = .allow ∨ policy.action = .ask) ∧
    policy.externalPattern = (if resolved.outside then some resolved.pattern else none) ∧
    (policy.externalAction = some .allow ↔
      resolved.outside = true ∧ AllowsExternal host permissions agent resolved)

/-- Why there is no policy. -/
def BashRefused (history : History) : Prop :=
  Unread host workdir history ∨ ∃ permissions resolved,
    Read host workdir agent permissions resolved history ∧
      ¬ Undenied host permissions agent command resolved

/-- The user is not asked. -/
def Unasked (_ : Bool) (_ : History) (call : Call) : Prop := ∀ ask, call ≠ .ask ask

variable {host command workdir agent}

/-- A command that is denied has no policy. -/
theorem bashPolicy_none {permissions : Config} {resolved : ResolvedWorkdir} {history : History}
    (read : Read host workdir agent permissions resolved history)
    (none : bashPolicy (evaluate host permissions agent (js "bash") command) resolved = none) :
    ¬ Undenied host permissions agent command resolved := by
  intro undenied
  rw [bashPolicy, if_neg ((undenied_iff (action_eq read)).mp undenied)] at none
  cases none

/-- A policy is that of the rules. -/
theorem bashPolicy_some {permissions : Config} {resolved : ResolvedWorkdir} {history : History}
    {policy : Policy} (read : Read host workdir agent permissions resolved history)
    (found : bashPolicy (evaluate host permissions agent (js "bash") command) resolved =
      some policy) : BashAuthorized host command workdir agent history policy := by
  rw [bashPolicy] at found
  split at found
  next => cases found
  next allowed =>
    have undenied : Undenied host permissions agent command resolved :=
      (undenied_iff (action_eq read)).mpr allowed
    have bash : evaluate host permissions agent (js "bash") command = some .allow ↔
        AllowsBash host permissions agent command :=
      evaluate_allow.trans (and_iff_right undenied.bash)
    have external : resolved.outside = true → (resolved.action = some .allow ↔
        AllowsExternal host permissions agent resolved) := by
      intro outside
      rw [action_eq read, if_pos outside, evaluate_allow]
      exact and_iff_right (undenied.external outside)
    obtain rfl := Option.some.inj found
    refine ⟨permissions, resolved, read, undenied, rfl, ?_, ?_, rfl, ?_⟩
    · rw [← bash]
      split
      next allows => exact iff_of_true rfl allows
      next asks => exact iff_of_false (by simp) asks
    · split
      next => exact .inl rfl
      next => exact .inr rfl
    · change (if resolved.outside then resolved.action else none) = some .allow ↔ _
      split
      next outside => rw [external outside, and_iff_right outside]
      next inside => exact iff_of_false (by simp) fun allows => inside allows.1

/-- A command is authorized as the rules of both say. -/
theorem createBashAuthorizer_triple :
    Triple Unasked (fun _ => True) (createBashAuthorizer host command workdir agent)
      (fun policy history => BashAuthorized host command workdir agent history policy)
      (BashRefused host command workdir agent) := by
  have readable : Readable Unasked fun _ => True := by
    constructor
    · rintro call reads _ _ _ ask rfl
      cases reads
    · exact fun _ _ _ _ _ _ => trivial
  refine authorizer_triple readable (fun _ unread => .inl unread) fun permissions resolved => ?_
  cases found : bashPolicy (evaluate host permissions agent (js "bash") command) resolved with
  | none =>
    have denied : Triple Unasked (Read host workdir agent permissions resolved)
        (deny (js "Bash command denied by local permission policy."))
        (fun policy history => BashAuthorized host command workdir agent history policy)
        (Read host workdir agent permissions resolved) :=
      deny_triple _ (fun _ _ _ => nofun) fun _ more read => read.append more
    refine denied.joined.imp (fun _ read => read) (fun _ _ known => known) fun history read => ?_
    exact .inr ⟨permissions, resolved, read, bashPolicy_none read found⟩
  | some policy => exact Triple.pure fun _ read => bashPolicy_some read found

end Bash

/-- In every run, whatever the host answers: a spawn is authorized only where no rule denies it, the
rules or the user allow it and its directory, and its environment comes with an allowed command; the
user is not asked about a call that is denied; and a shell command gets a policy just where no rule
denies it, which allows it where its last rule does. -/
theorem authorizers_sound (host : Host) (request : Request) (command : JsString)
    (workdir : Option JsString) (agent : JsString) (events : List (Event Call Call.Reply Failure)) :
    ((∀ before ask aborted after,
        (run (start (createSpawnAuthorizer host request)) events).history =
          before ++ .called (.ask ask) aborted :: after → Askable host request before ask) ∧
      ∀ outcome, (run (start (createSpawnAuthorizer host request)) events).stage = .ended outcome →
        match outcome with
        | .ok resolved => Authorized host request
          (run (start (createSpawnAuthorizer host request)) events).history resolved
        | .error _ => Refused host request
          (run (start (createSpawnAuthorizer host request)) events).history) ∧
    ((∀ before ask aborted after,
        (run (start (createBashAuthorizer host command workdir agent)) events).history ≠
          before ++ .called (.ask ask) aborted :: after) ∧
      ∀ outcome,
        (run (start (createBashAuthorizer host command workdir agent)) events).stage =
          .ended outcome →
        match outcome with
        | .ok policy => BashAuthorized host command workdir agent
          (run (start (createBashAuthorizer host command workdir agent)) events).history policy
        | .error _ => BashRefused host command workdir agent
          (run (start (createBashAuthorizer host command workdir agent)) events).history) := by
  have spawn := createSpawnAuthorizer_run host request events
  have bash : Sound Unasked
      (fun history outcome => Concluded
        (fun policy history => BashAuthorized host command workdir agent history policy)
        (BashRefused host command workdir agent) true history outcome)
      (run (start (createBashAuthorizer host command workdir agent)) events) :=
    run_meets (fun aborted => createBashAuthorizer_triple aborted [] trivial) events
  refine ⟨⟨?_, ?_⟩, ?_, ?_⟩
  · intro before ask aborted after same
    exact spawn.calls before _ aborted after same ask rfl
  · intro outcome ended
    have concluded := spawn.ended outcome ended
    cases outcome with
    | ok => exact concluded
    | error => exact concluded
  · intro before ask aborted after same
    exact bash.calls before _ aborted after same ask rfl
  · intro outcome ended
    have concluded := bash.ended outcome ended
    cases outcome with
    | ok => exact concluded
    | error => exact concluded

/-- A command that the user approves gets its directory. -/
example :
    (match (run (start (createSpawnAuthorizer sampleHost
        ⟨js "ls", [js "-l"], none, none, true, none, none⟩))
        (List.replicate 12 [.resume, .answer sampleAnswer]).flatten).stage with
      | .ended (.ok workdir) => some workdir
      | _ => none) = some (js "/p") := by
  decide

end OpencodePty.SpawnAuthorizer
