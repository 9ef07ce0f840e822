import OpencodePty.RpcRuns

/-!
# The keys of owners

A capability is the hash of the ownership secret, of the session and of the directory of an owner,
with a zero between them. The session may be any text, and may have zeros. The secret and the
directory have none, so that the texts that are hashed for two owners, or for an owner and its
approvals, are different. Who knows nothing but the capabilities of one owner is confined to the
sessions of this owner, unless two such texts have the same hash.

The key of a budget is made in the same way, and no owner uses up the budget of another one.
-/

namespace OpencodePty.RpcDispatch

open OpencodePty.JsValues OpencodePty.FixedWindows OpencodePty.Transitions

/-! ## Texts without a zero -/

/-- A text without the unit that texts are joined with. -/
def Unbroken (text : JsString) : Prop := (0 : UInt16) ∉ text

theorem front_injective {first second rest other : JsString} (unbroken : Unbroken first)
    (unbroken' : Unbroken second) (same : first ++ 0 :: rest = second ++ 0 :: other) :
    first = second ∧ rest = other := by
  induction first generalizing second with
  | nil =>
    cases second with
    | nil => simpa using same
    | cons unit units =>
      obtain ⟨zero, _⟩ := List.cons.inj same
      exact absurd (zero ▸ List.mem_cons_self) unbroken'
  | cons unit units inductionHypothesis =>
    cases second with
    | nil =>
      obtain ⟨zero, _⟩ := List.cons.inj same
      exact absurd (zero ▸ List.mem_cons_self) unbroken
    | cons unit' units' =>
      obtain ⟨rfl, same'⟩ := List.cons.inj same
      obtain ⟨rfl, equal⟩ := inductionHypothesis (fun inside => unbroken (List.mem_cons_of_mem _ inside))
        (fun inside => unbroken' (List.mem_cons_of_mem _ inside)) same'
      exact ⟨rfl, equal⟩

theorem back_injective {first second rest other : JsString} (unbroken : Unbroken rest)
    (unbroken' : Unbroken other) (same : first ++ 0 :: rest = second ++ 0 :: other) :
    first = second ∧ rest = other := by
  have reversed := congrArg List.reverse same
  simp only [List.reverse_append, List.reverse_cons, List.append_assoc, List.singleton_append]
    at reversed
  obtain ⟨equal, equal'⟩ := front_injective (by simpa [Unbroken] using unbroken)
    (by simpa [Unbroken] using unbroken') reversed
  exact ⟨List.reverse_inj.mp equal', List.reverse_inj.mp equal⟩

theorem unbroken_digits {text : JsString} (digits : text.all RecordChecks.isHexDigit = true) :
    Unbroken text := by
  intro inside
  exact absurd (List.all_eq_true.mp digits 0 inside) (by decide)

theorem unbroken_secret {text : JsString} (secret : OwnershipSecrets.isSecret text = true) :
    Unbroken text ∧ text.length = 64 := by
  simp only [OwnershipSecrets.isSecret, Bool.and_eq_true, beq_iff_eq] at secret
  exact ⟨unbroken_digits secret.2, secret.1⟩

/-! ## What is hashed -/

/-- What is known of a daemon that serves: it has a secret of the right form, and no directory has
a zero in its name. -/
structure Separated (environment : Environment) : Prop where
  secret : OwnershipSecrets.isSecret environment.ownershipSecret = true
  directories : ∀ directory found, environment.realpath directory = some found → Unbroken found

namespace Environment

variable (environment : Environment)

/-- The text that is hashed for an owner, or for the approvals of one. -/
def hashed (approval : Bool) (parentSessionId projectDirectory : JsString) : JsString :=
  if approval then
    joined [js "approval", environment.ownershipSecret, parentSessionId, projectDirectory]
  else joined [environment.ownershipSecret, parentSessionId, projectDirectory]

/-- Two texts that are different have the same hash. -/
def Collides (first second : JsString) : Prop :=
  first ≠ second ∧ environment.sha256 first = environment.sha256 second

end Environment

section
variable {environment : Environment}

theorem hashed_injective (separated : Separated environment) {approval other : Bool}
    {parentSessionId parentSessionId' projectDirectory projectDirectory' : JsString}
    (unbroken : Unbroken projectDirectory) (unbroken' : Unbroken projectDirectory')
    (same : environment.hashed approval parentSessionId projectDirectory =
      environment.hashed other parentSessionId' projectDirectory') :
    approval = other ∧ parentSessionId = parentSessionId' ∧
      projectDirectory = projectDirectory' := by
  obtain ⟨secret, length⟩ := unbroken_secret separated.secret
  have word : Unbroken (js "approval") := by
    unfold Unbroken
    decide
  have apart : environment.ownershipSecret ≠ js "approval" := by
    intro equal
    rw [equal] at length
    exact absurd length (by decide)
  -- Behind the secret, the last zero stands before the directory.
  have names {first second : JsString} (equal : first ++ 0 :: projectDirectory =
      second ++ 0 :: projectDirectory') : first = second ∧ projectDirectory = projectDirectory' :=
    back_injective unbroken unbroken' equal
  cases approval with
  | true =>
    cases other with
    | true =>
      obtain ⟨_, rest⟩ := front_injective word word same
      obtain ⟨_, rest'⟩ := front_injective secret secret rest
      exact ⟨rfl, names rest'⟩
    | false => exact absurd (front_injective word secret same).1.symm apart
  | false =>
    cases other with
    | true => exact absurd (front_injective secret word same).1 apart
    | false =>
      obtain ⟨_, rest⟩ := front_injective secret secret same
      exact ⟨rfl, names rest⟩

/-- A capability that the client of an owner knows. -/
def Issued (environment : Environment) (parentSessionId projectDirectory capability : JsString) :
    Prop :=
  ∃ approval, capability =
    environment.sha256 (environment.hashed approval parentSessionId projectDirectory)

/-- A request that presents a capability of an owner is taken for one of this owner, unless two
texts that are hashed collide. -/
theorem owner_confined (separated : Separated environment) {request : Js} {owner : OwnerContext}
    (authenticated : environment.owner request = .ok owner)
    {parentSessionId projectDirectory capability : JsString} (unbroken : Unbroken projectDirectory)
    (presented : field (request.get "owner") "capability" = some (.str capability))
    (issued : Issued environment parentSessionId projectDirectory capability) :
    (owner.parentSessionId = parentSessionId ∧ owner.projectDirectory = projectDirectory) ∨
      ∃ approval, environment.Collides
        (environment.hashed false owner.parentSessionId owner.projectDirectory)
        (environment.hashed approval parentSessionId projectDirectory) := by
  obtain ⟨directory, _, _, _, _, presents, _, found, same⟩ := owner_ok.mp authenticated
  obtain ⟨approval, known⟩ := issued
  rw [presented, Option.some_inj, Js.str.injEq] at presents
  have equal : environment.sha256
      (environment.hashed false owner.parentSessionId owner.projectDirectory) =
      environment.sha256 (environment.hashed approval parentSessionId projectDirectory) := by
    rw [← known, presents, same]
    rfl
  by_cases texts : environment.hashed false owner.parentSessionId owner.projectDirectory =
      environment.hashed approval parentSessionId projectDirectory
  · obtain ⟨_, names⟩ := hashed_injective separated
      (separated.directories directory owner.projectDirectory found) unbroken texts
    exact .inl names
  · exact .inr ⟨approval, texts, equal⟩

end

/-- In every run, a call about a session that was made with a capability of some owner is about a
session that was created for this owner, unless two texts that are hashed collide. -/
theorem capabilities_confine {server : Server} (separated : Separated server.toEnvironment)
    (events : List Event) {entry : Logged}
    (logged : entry ∈ (run (step server) .initial events).log) {id : JsString}
    (about : entry.call.session = some id) {rpcRequest : Js}
    (parsed : server.parse (entry.request.body.getD []).flatten = some rpcRequest)
    {parentSessionId projectDirectory capability : JsString} (unbroken : Unbroken projectDirectory)
    (presented : field (rpcRequest.get "owner") "capability" = some (.str capability))
    (issued : Issued server.toEnvironment parentSessionId projectDirectory capability) :
    (∃ owner start, (start, id) ∈ (run (step server) .initial events).created ∧
      (run (step server) .initial events).starts[start]? = some owner ∧
      owner.parentSessionId = parentSessionId ∧ owner.projectDirectory = projectDirectory) ∨
    ∃ owner approval, requestOwner server entry.request = some owner ∧
      server.Collides (server.hashed false owner.parentSessionId owner.projectDirectory)
        (server.hashed approval parentSessionId projectDirectory) := by
  obtain ⟨owner, start, authenticated, created, asked⟩ :=
    (run_isolated server events).log entry logged id about
  have taken : server.owner rpcRequest = .ok owner := by
    have answered := authenticated
    simp only [requestOwner, parsed, Option.bind_some] at answered
    cases result : server.owner rpcRequest with
    | error failure => simp [result, Except.toOption] at answered
    | ok other =>
      rw [result] at answered
      cases answered
      rfl
  rcases owner_confined separated taken unbroken presented issued with names | collision
  · exact .inl ⟨owner, start, created, asked, names⟩
  · obtain ⟨approval, collides⟩ := collision
    exact .inr ⟨owner, approval, authenticated, collides⟩

/-- The daemon has a secret, and the name of its directory has no zero. -/
theorem demo_separated : Separated demoServer.toEnvironment where
  secret := by decide
  directories directory found canonical := by
    simp only [demoServer] at canonical
    split at canonical
    next known =>
      cases canonical
      rw [known, Unbroken]
      decide
    next => cases canonical

set_option maxRecDepth 4000 in
/-- Both requests of the run authenticate as the owner. -/
theorem demo_owner : requestOwner demoServer (demoRequest demoSpawn) = some demoOwner ∧
    requestOwner demoServer (demoRequest demoWritten) = some demoOwner := ⟨rfl, rfl⟩

set_option maxRecDepth 4000 in
/-- The session that is written to is one of the owner whose capability was presented. -/
theorem written_session_confined :
    ∃ owner start, (start, js "s") ∈ (run (step demoServer) .initial demoEvents).created ∧
      (run (step demoServer) .initial demoEvents).starts[start]? = some owner ∧
      owner.parentSessionId = js "p" ∧ owner.projectDirectory = js "/d" := by
  have unbroken : Unbroken (js "/d") := by
    simp only [Unbroken]
    decide
  have issued : Issued demoServer.toEnvironment (js "p") (js "/d") demoCapability := ⟨false, rfl⟩
  rcases capabilities_confine demo_separated demoEvents demo_logged rfl rfl unbroken rfl issued
    with confined | ⟨owner, approval, authenticated, different, same⟩
  · exact confined
  · -- The two texts that the daemon hashes for this owner have different digests.
    rw [demo_owner.2] at authenticated
    cases authenticated
    cases approval with
    | false => exact absurd rfl different
    | true => exact absurd same (by decide)

/-! ## Budgets -/

/-- The names of an owner that a request was authenticated as have no zero where it matters. -/
theorem requestOwner_unbroken {server : Server} (separated : Separated server.toEnvironment)
    {request : HttpRequest} {owner : OwnerContext}
    (authenticated : requestOwner server request = some owner) :
    Unbroken owner.projectDirectory ∧ Unbroken owner.capability := by
  simp only [requestOwner, Option.bind_eq_some_iff] at authenticated
  obtain ⟨rpcRequest, _, taken⟩ := authenticated
  cases result : server.owner rpcRequest with
  | error failure => simp [result, Except.toOption] at taken
  | ok other =>
    rw [result] at taken
    cases taken
    obtain ⟨directory, _, _, _, _, _, secret, found, _⟩ := owner_ok.mp result
    exact ⟨separated.directories directory owner.projectDirectory found, (unbroken_secret secret).1⟩

theorem inputKey_injective {first second : OwnerContext}
    (unbroken : Unbroken first.projectDirectory ∧ Unbroken first.capability)
    (unbroken' : Unbroken second.projectDirectory ∧ Unbroken second.capability)
    (same : first.inputKey = second.inputKey) : first = second := by
  have joins : (first.parentSessionId ++ 0 :: first.projectDirectory) ++ 0 :: first.capability =
      (second.parentSessionId ++ 0 :: second.projectDirectory) ++ 0 :: second.capability := by
    simpa [OwnerContext.inputKey, joined] using same
  obtain ⟨names, capability⟩ := back_injective unbroken.2 unbroken'.2 joins
  obtain ⟨parentSessionId, projectDirectory⟩ := back_injective unbroken.1 unbroken'.1 names
  cases first
  cases second
  simp_all

/-- An event that is not a request of an owner leaves the budget of the owner alone. -/
theorem step_budget {server : Server} (separated : Separated server.toEnvironment)
    {daemon : Daemon} {event : Event} {owner : OwnerContext}
    (unbroken : Unbroken owner.projectDirectory ∧ Unbroken owner.capability)
    (foreign : ∀ request now, event = .request request now →
      requestOwner server request ≠ some owner) (steady : event ≠ .restart) :
    (step server daemon event).usage owner.inputKey = daemon.usage owner.inputKey := by
  cases event with
  | request request now =>
    rcases accepted : accept server daemon.owns daemon.usage request now with ⟨result, after⟩
    have kept : after owner.inputKey = daemon.usage owner.inputKey := by
      rcases accept_uses accepted with ⟨same, _⟩ | ⟨other, authenticated, _, uses, _⟩
      · rw [same]
      · cases uses with
        | nothing same _ => rw [same]
        | input data _ spends _ =>
          have different : owner.inputKey ≠ other.inputKey := by
            intro same
            have equal := inputKey_injective unbroken
              (requestOwner_unbroken separated authenticated) same
            exact foreign request now rfl (equal ▸ authenticated)
          rw [spends]
          exact spend_other _ different
    simp only [step, accepted]
    cases result with
    | error response => exact kept
    | ok made => exact kept
  | created start id =>
    simp only [step]
    split
    · split <;> rfl
    · rfl
  | removed id => rfl
  | restart => exact absurd rfl steady

/-- In a run without a restart, the requests of others leave the budget of an owner as it is. -/
theorem others_leave_budget {server : Server} (separated : Separated server.toEnvironment)
    (daemon : Daemon) {events : List Event} {owner : OwnerContext}
    (unbroken : Unbroken owner.projectDirectory ∧ Unbroken owner.capability)
    (foreign : ∀ request now, .request request now ∈ events →
      requestOwner server request ≠ some owner) (steady : ∀ event ∈ events, event ≠ .restart) :
    (run (step server) daemon events).usage owner.inputKey = daemon.usage owner.inputKey := by
  induction events generalizing daemon with
  | nil => rfl
  | cons event rest inductionHypothesis =>
    rw [run_cons, inductionHypothesis (step server daemon event)
      (fun request now inside => foreign request now (List.mem_cons_of_mem _ inside))
      (fun later inside => steady later (List.mem_cons_of_mem _ inside))]
    refine step_budget separated unbroken (fun request now same => ?_)
      (steady event List.mem_cons_self)
    exact foreign request now (same ▸ List.mem_cons_self)

/-- What one owner writes is not counted for another one. -/
theorem written_leaves_budget :
    (run (step demoServer) .initial demoEvents).usage
      (OwnerContext.inputKey ⟨js "q", js "/d", List.replicate 64 0x61⟩) = none := by
  have unbroken : Unbroken (js "/d") ∧ Unbroken (List.replicate 64 0x61) := by
    simp only [Unbroken]
    decide
  refine others_leave_budget demo_separated .initial unbroken ?_ (by simp [demoEvents])
  have apart : js "p" ≠ js "q" := by decide
  intro request now inside
  have known : requestOwner demoServer request = some demoOwner := by
    simp only [demoEvents, List.mem_cons, Event.request.injEq, List.not_mem_nil, or_false,
      reduceCtorEq, false_or] at inside
    rcases inside with ⟨rfl, _⟩ | ⟨rfl, _⟩
    · exact demo_owner.1
    · exact demo_owner.2
  rw [known]
  intro same
  exact apart (congrArg OwnerContext.parentSessionId (Option.some.inj same))

end OpencodePty.RpcDispatch
