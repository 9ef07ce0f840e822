import OpencodePty.RpcMediation
import OpencodePty.Transitions

/-!
# Runs of a daemon that takes requests

A daemon takes requests one after the other. A request for a new session is handed on to the
supervisor, which creates a record for the owner of the request under a new id, later or never.
Records are removed, and the daemon restarts with the records it has on disk.

In every run a call about a session is made only for the owner of the request that the session
was created for. The input that an owner sends is within twice its budget in any minute, and
the budget of an owner is not touched by others.
-/

namespace OpencodePty.RpcDispatch

open OpencodePty.JsValues OpencodePty.FixedWindows OpencodePty.Transitions
open OpencodePty.Approvals (Failure)

/-- A call that was made, with its request and the time. -/
structure Logged where
  request : HttpRequest
  now : Int
  call : Call

/-- The owner in the record of each session, what is used up of the budgets for input, the owners
for whom sessions were asked for, which of these each session was created for, and the calls made
so far, the last one first. -/
structure Daemon where
  records : JsString → Option OwnerContext
  usage : Windows JsString
  starts : List OwnerContext
  created : List (Nat × JsString)
  log : List Logged

/-- A daemon on a new data directory. -/
def Daemon.initial : Daemon := ⟨fun _ => none, fun _ => none, [], [], []⟩

/-- `owns` of the registry: the record of a session has the fields of the owner. -/
def Daemon.owns (daemon : Daemon) : Ownership := fun id owner => daemon.records id = some owner

/-- A request arrives, the supervisor does something of its own, or the daemon starts again. -/
inductive Event where
  | request (request : HttpRequest) (now : Int)
  /-- The supervisor creates a record for a session that was asked for. -/
  | created (start : Nat) (id : JsString)
  | removed (id : JsString)
  | restart

/-- The owner of the record of a new session. -/
def Call.starter : Call → List OwnerContext
  | .spawn _ owner | .nativeExec _ owner | .nativeExecStart _ owner => [owner]
  | _ => []

/-- The input to a session. -/
def Call.data : Call → Option JsString
  | .write _ data | .sendWait _ data _ _ => some data
  | _ => none

/-- One event. A record gets an id that no session has had. -/
def step (server : Server) (daemon : Daemon) : Event → Daemon
  | .request request now =>
    match accept server daemon.owns daemon.usage request now with
    | (.error _, usage) => { daemon with usage := usage }
    | (.ok (_, call), usage) =>
      { daemon with
        usage := usage
        starts := daemon.starts ++ call.starter
        log := ⟨request, now, call⟩ :: daemon.log }
  | .created start id =>
    match daemon.starts[start]? with
    | some owner =>
      if daemon.created.any fun session => session.2 = id then daemon
      else
        { daemon with
          records := Function.update daemon.records id (some owner)
          created := (start, id) :: daemon.created }
    | none => daemon
  | .removed id => { daemon with records := Function.update daemon.records id none }
  | .restart => { daemon with usage := fun _ => none }

/-- The owner that a request authenticates as. -/
def requestOwner (server : Server) (request : HttpRequest) : Option OwnerContext :=
  (server.parse (request.body.getD []).flatten).bind fun rpcRequest =>
    (server.owner rpcRequest).toOption

/-- The owner of a request is the one that it is authenticated as. -/
theorem requestOwner_of {server : Server} {request : HttpRequest} {rpcRequest : Js}
    (parsed : server.parse (request.body.getD []).flatten = some rpcRequest)
    {owner : OwnerContext} (authenticated : server.owner rpcRequest = .ok owner) :
    requestOwner server request = some owner := by
  simp [requestOwner, parsed, authenticated, Except.toOption]

/-! ## Sessions -/

/-- Every record and every call about a session goes back to the request it was created for. -/
structure Isolated (server : Server) (daemon : Daemon) : Prop where
  records : ∀ id owner, daemon.records id = some owner →
    ∃ start, (start, id) ∈ daemon.created ∧ daemon.starts[start]? = some owner
  single : ∀ id first second, (first, id) ∈ daemon.created → (second, id) ∈ daemon.created →
    first = second
  starts : ∀ owner ∈ daemon.starts, ∃ entry ∈ daemon.log,
    requestOwner server entry.request = some owner ∧ owner ∈ entry.call.starter
  log : ∀ entry ∈ daemon.log, ∀ id ∈ entry.call.session, ∃ owner start,
    requestOwner server entry.request = some owner ∧ (start, id) ∈ daemon.created ∧
      daemon.starts[start]? = some owner

/-- At first no session is there to be seen. -/
theorem isolated_initial (server : Server) : Isolated server .initial where
  records id owner present := by cases present
  single id first second inside := by cases inside
  starts owner inside := by cases inside
  log entry inside := by cases inside

section
variable {server : Server} {daemon : Daemon}

/-- The owner whose request led to a call. -/
theorem accept_authenticated {owns : Ownership} {usage after : Windows JsString}
    {request : HttpRequest} {now : Int} {id : JsString} {call : Call}
    (accepted : accept server owns usage request now = (.ok (id, call), after)) :
    call = .health ∨ ∃ owner, requestOwner server request = some owner ∧
      (∀ id ∈ call.session, owns id owner = true) ∧ ∀ other ∈ call.owner, other = owner := by
  obtain ⟨rpcRequest, admitted⟩ := accept_admitted accepted
  rcases admitted.granted with health | ⟨owner, granted⟩
  · exact .inl health
  · exact .inr ⟨owner, requestOwner_of admitted.body.2 granted.authenticated, granted.session,
      granted.madeFor⟩

/-- Only the owner of a call starts a session by it. -/
theorem starter_owner {call : Call} {owner : OwnerContext} (starts : owner ∈ call.starter) :
    call.owner = some owner := by
  cases call <;> simp_all [Call.starter, Call.owner]

/-- One event leaves the owners isolated. -/
theorem step_isolated (isolated : Isolated server daemon) (event : Event) :
    Isolated server (step server daemon event) := by
  cases event with
  | request request now =>
    simp only [step]
    split
    next => exact ⟨isolated.records, isolated.single, isolated.starts, isolated.log⟩
    next id call usage accepted =>
      have kept {start : Nat} {owner : OwnerContext} (old : daemon.starts[start]? = some owner) :
          (daemon.starts ++ call.starter)[start]? = some owner := by
        rw [List.getElem?_append_left (List.getElem?_eq_some_iff.mp old).1, old]
      refine ⟨?_, isolated.single, ?_, ?_⟩
      · intro id owner present
        obtain ⟨start, created, old⟩ := isolated.records id owner present
        exact ⟨start, created, kept old⟩
      · intro owner inside
        rcases List.mem_append.mp inside with old | new
        · obtain ⟨entry, logged, known⟩ := isolated.starts owner old
          exact ⟨entry, List.mem_cons_of_mem _ logged, known⟩
        · rcases accept_authenticated accepted with rfl | ⟨same, authenticated, _, madeFor⟩
          · cases new
          · have own := madeFor owner (starter_owner new)
            subst own
            exact ⟨_, List.mem_cons_self, authenticated, new⟩
      · intro entry inside id about
        rcases List.mem_cons.mp inside with rfl | old
        · rcases accept_authenticated accepted with rfl | ⟨owner, authenticated, owned, _⟩
          · cases about
          · obtain ⟨start, created, old⟩ :=
              isolated.records id owner (by simpa [Daemon.owns] using owned id about)
            exact ⟨owner, start, authenticated, created, kept old⟩
        · obtain ⟨owner, start, authenticated, created, old⟩ := isolated.log entry old id about
          exact ⟨owner, start, authenticated, created, kept old⟩
  | created start id =>
    simp only [step]
    split
    next owner asked =>
      split
      next => exact isolated
      next fresh =>
        simp only [List.any_eq_true, decide_eq_true_eq, not_exists, not_and] at fresh
        refine ⟨?_, ?_, isolated.starts, ?_⟩
        · intro other owner' present
          dsimp only at present
          by_cases same : other = id
          · subst same
            rw [Function.update_self, Option.some_inj] at present
            subst present
            exact ⟨start, List.mem_cons_self, asked⟩
          · rw [Function.update_of_ne same] at present
            obtain ⟨start', created, old⟩ := isolated.records other owner' present
            exact ⟨start', List.mem_cons_of_mem _ created, old⟩
        · intro other first second one two
          rcases List.mem_cons.mp one with one | one
          · rcases List.mem_cons.mp two with two | two
            · cases one
              cases two
              rfl
            · cases one
              exact absurd rfl (fresh _ two)
          · rcases List.mem_cons.mp two with two | two
            · cases two
              exact absurd rfl (fresh _ one)
            · exact isolated.single other first second one two
        · intro entry inside other about
          obtain ⟨owner', start', authenticated, created, old⟩ :=
            isolated.log entry inside other about
          exact ⟨owner', start', authenticated, List.mem_cons_of_mem _ created, old⟩
    next => exact isolated
  | removed id =>
    refine ⟨?_, isolated.single, isolated.starts, isolated.log⟩
    intro other owner present
    simp only [step] at present
    by_cases same : other = id
    · subst same
      rw [Function.update_self] at present
      cases present
    · rw [Function.update_of_ne same] at present
      exact isolated.records other owner present
  | restart => exact ⟨isolated.records, isolated.single, isolated.starts, isolated.log⟩

end

/-- The owners are isolated in every run. -/
theorem run_isolated (server : Server) (events : List Event) :
    Isolated server (run (step server) .initial events) :=
  @run_preserves Daemon Event (step server) (Isolated server)
    (fun _ event now => step_isolated now event) .initial events (isolated_initial server)

/-- In every run, a session has one request that it was created for, and each call about the
session was made by a request that authenticated as the owner of that one. -/
theorem sessions_isolated (server : Server) (events : List Event) {entry : Logged}
    (logged : entry ∈ (run (step server) .initial events).log) {id : JsString}
    (about : entry.call.session = some id) :
    ∃ owner start, requestOwner server entry.request = some owner ∧
      (start, id) ∈ (run (step server) .initial events).created ∧
      (∀ other, (other, id) ∈ (run (step server) .initial events).created → other = start) ∧
      (run (step server) .initial events).starts[start]? = some owner ∧
      ∃ first ∈ (run (step server) .initial events).log,
        requestOwner server first.request = some owner ∧ owner ∈ first.call.starter := by
  have isolated := run_isolated server events
  obtain ⟨owner, start, authenticated, created, asked⟩ := isolated.log entry logged id about
  refine ⟨owner, start, authenticated, created, ?_, asked, ?_⟩
  · exact fun other again => isolated.single id other start again created
  · exact isolated.starts owner (List.mem_of_getElem? asked)

/-- A session is created for a request, and then another request writes to it. -/
def demoEvents : List Event :=
  [.request (demoRequest demoSpawn) 5, .created 0 (js "s"), .request (demoRequest demoWritten) 10]

/-- The owner of this run. -/
def demoOwner : OwnerContext := ⟨js "p", js "/d", demoCapability⟩

set_option maxRecDepth 4000 in
/-- The last call of the run writes to the session. -/
theorem demo_logged : (⟨demoRequest demoWritten, 10, .write (js "s") (js "ab")⟩ : Logged) ∈
    (run (step demoServer) .initial demoEvents).log := List.mem_cons_self

/-- The session that is written to was created for the owner that writes. -/
theorem written_session_isolated :
    ∃ owner start, requestOwner demoServer (demoRequest demoWritten) = some owner ∧
      (start, js "s") ∈ (run (step demoServer) .initial demoEvents).created ∧
      (∀ other, (other, js "s") ∈ (run (step demoServer) .initial demoEvents).created →
        other = start) ∧
      (run (step demoServer) .initial demoEvents).starts[start]? = some owner ∧
      ∃ first ∈ (run (step demoServer) .initial demoEvents).log,
        requestOwner demoServer first.request = some owner ∧ owner ∈ first.call.starter :=
  sessions_isolated demoServer demoEvents demo_logged rfl

/-! ## Input -/

/-- The bytes of the input that calls for an owner have sent in a span of time. -/
def sent (server : Server) (owner : OwnerContext) (start stop : Int) : List Logged → Nat
  | [] => 0
  | entry :: rest =>
    (if requestOwner server entry.request = some owner ∧ start ≤ entry.now ∧ entry.now < stop then
      entry.call.data.elim 0 byteLength
    else 0) + sent server owner start stop rest

/-- When a request arrives. -/
def Event.time : Event → Option Int
  | .request _ now => some now
  | _ => none

/-- The clock of the daemon does not go back, and the daemon does not restart. -/
def Steady (events : List Event) : Prop :=
  (events.filterMap Event.time).Pairwise (· ≤ ·) ∧ ∀ event ∈ events, event ≠ .restart

/-- The calls that use up no budget send no input. -/
theorem ownerCall_quiet {environment : Environment} {owns : Ownership} {request : Js}
    {owner : OwnerContext} {operation : String} {call : Call}
    (accepted : ownerCall environment owns request owner operation = .ok call) :
    call.data = none := by
  have named {payload : Option Js} {make : JsString → Call}
      (quiet : ∀ id, (make id).data = none)
      (accepted : onSession owns owner payload make = .ok call) : call.data = none := by
    obtain ⟨_, _, rest⟩ := bind_ok accepted
    cases rest
    exact quiet _
  simp only [ownerCall] at accepted
  split at accepted
  case h_1 | h_2 | h_3 =>
    obtain ⟨_, _, rest⟩ := bind_ok accepted
    cases rest
    rfl
  case h_4 =>
    obtain ⟨_, _, rest⟩ := bind_ok accepted
    obtain ⟨_, _, rest⟩ := bind_ok rest
    cases rest
    rfl
  case h_5 | h_6 =>
    obtain ⟨_, _, rest⟩ := bind_ok accepted
    obtain ⟨_, _, rest⟩ := bind_ok rest
    obtain ⟨_, _, rest⟩ := bind_ok rest
    cases rest
    rfl
  case h_7 =>
    obtain ⟨_, _, rest⟩ := bind_ok accepted
    obtain ⟨_, _, rest⟩ := bind_ok rest
    obtain ⟨_, _, rest⟩ := bind_ok rest
    obtain ⟨_, _, rest⟩ := bind_ok rest
    cases rest
    rfl
  case h_8 =>
    obtain ⟨_, _, rest⟩ := bind_ok accepted
    obtain ⟨_, _, rest⟩ := bind_ok rest
    obtain ⟨_, _, rest⟩ := bind_ok rest
    obtain ⟨_, _, rest⟩ := bind_ok rest
    obtain ⟨_, _, rest⟩ := bind_ok rest
    obtain ⟨_, _, rest⟩ := bind_ok rest
    cases rest
    rfl
  case h_9 =>
    cases accepted
    rfl
  case h_10 | h_11 | h_12 | h_13 | h_14 => exact named (fun _ => rfl) accepted
  case h_15 =>
    obtain ⟨_, _, rest⟩ := bind_ok accepted
    obtain ⟨_, _, rest⟩ := bind_ok rest
    split at rest
    · cases rest
    · cases rest
      rfl
  case h_16 =>
    obtain ⟨_, _, rest⟩ := bind_ok accepted
    obtain ⟨_, _, rest⟩ := bind_ok rest
    obtain ⟨_, _, rest⟩ := bind_ok rest
    obtain ⟨_, _, rest⟩ := bind_ok rest
    split at rest
    · cases rest
    · cases rest
      rfl
  case h_17 =>
    split at accepted
    · obtain ⟨_, _, rest⟩ := bind_ok accepted
      cases rest
      rfl
    · cases accepted

/-- What a request changes of the budgets: nothing where it leads to no input, else it uses up
as much of the budget of its owner as it sends. -/
inductive Uses (usage : Windows JsString) (owner : OwnerContext) (now : Int)
    (result : Except Failure Call) (after : Windows JsString) : Prop where
  | nothing (same : after = usage) (quiet : ∀ call, result = .ok call → call.data = none)
  | input (data : JsString) (admits : inputLimit.admits usage (owner.input data now) = true)
      (spent : after = inputLimit.spend usage (owner.input data now))
      (sends : ∀ call, result = .ok call → call.data = some data)

/-- A call with an input uses the budget of its owner. -/
theorem withInput_uses {owns : Ownership} {usage : Windows JsString} {owner : OwnerContext}
    {payload : Option Js} {fields : List String} {now : Int}
    {make : Js → JsString → JsString → Except Failure Call}
    (sends : ∀ value id data call, make value id data = .ok call → call.data = some data) :
    Uses usage owner now (withInput owns usage owner payload fields now make).1
      (withInput owns usage owner payload fields now make).2 := by
  unfold withInput
  split
  next => exact .nothing rfl (by simp)
  next value id data _ =>
    split
    next => exact .nothing rfl (by simp)
    next after used =>
      obtain ⟨_, admits, spent⟩ := useInput_ok.mp used
      exact .input data admits spent (sends value id data)

/-- An input uses the budget of its owner. -/
theorem write_uses {owns : Ownership} {usage : Windows JsString} {owner : OwnerContext}
    {payload : Option Js} {now : Int} :
    Uses usage owner now (write owns usage owner payload now).1
      (write owns usage owner payload now).2 := by
  refine withInput_uses fun value id data call made => ?_
  cases made
  rfl

/-- An input with a wait uses the budget of its owner. -/
theorem sendWait_uses {owns : Ownership} {usage : Windows JsString} {owner : OwnerContext}
    {payload : Option Js} {now : Int} :
    Uses usage owner now (sendWait owns usage owner payload now).1
      (sendWait owns usage owner payload now).2 := by
  refine withInput_uses fun value id data call made => ?_
  obtain ⟨_, _, rest⟩ := bind_ok made
  obtain ⟨_, _, rest⟩ := bind_ok rest
  cases rest
  rfl

/-- Every call uses the budget of its owner, or none. -/
theorem dispatch_uses {environment : Environment} {owns : Ownership} {usage : Windows JsString}
    {request : Js} {operation : String} {now : Int} :
    ((dispatch environment owns usage request operation now).2 = usage ∧
      ∀ call, (dispatch environment owns usage request operation now).1 = .ok call →
        call.data = none) ∨
    ∃ owner, environment.owner request = .ok owner ∧
      Uses usage owner now (dispatch environment owns usage request operation now).1
        (dispatch environment owns usage request operation now).2 := by
  unfold dispatch
  split
  next =>
    refine .inl ⟨rfl, fun call accepted => ?_⟩
    obtain ⟨_, _, rest⟩ := bind_ok accepted
    cases rest
    rfl
  next =>
    split
    next => exact .inl ⟨rfl, by simp⟩
    next owner authenticated =>
      refine .inr ⟨owner, authenticated, ?_⟩
      split
      next =>
        refine .nothing rfl fun call accepted => ?_
        cases accepted
        rfl
      next => exact write_uses
      next => exact sendWait_uses
      next => exact .nothing rfl fun call accepted => ownerCall_quiet accepted

/-- A request changes at most the budget of its owner. -/
theorem accept_uses {server : Server} {owns : Ownership} {usage after : Windows JsString}
    {request : HttpRequest} {now : Int} {result : Except Response (JsString × Call)}
    (accepted : accept server owns usage request now = (result, after)) :
    (after = usage ∧ ∀ id call, result = .ok (id, call) → call.data = none) ∨
    ∃ owner, requestOwner server request = some owner ∧ ∃ dispatched,
      Uses usage owner now dispatched after ∧
        ∀ id call, result = .ok (id, call) → dispatched = .ok call := by
  have unread (response : Response) (same : (.error response, usage) = (result, after)) :
      after = usage ∧ ∀ id call, result = .ok (id, call) → call.data = none := by
    obtain ⟨rfl, rfl⟩ := Prod.mk.inj same
    exact ⟨rfl, by simp⟩
  unfold accept at accepted
  split at accepted
  next => exact .inl (unread _ accepted)
  next =>
    split at accepted
    next => exact .inl (unread _ accepted)
    next =>
      split at accepted
      next => exact .inl (unread _ accepted)
      next body read =>
        split at accepted
        next => exact .inl (unread _ accepted)
        next rpcRequest parsed =>
          split at accepted
          next => exact .inl (unread _ accepted)
          next name operation _ =>
            have whole : body = (request.body.getD []).flatten := by
              unfold requestBody at read
              split at read
              next => exact (readPieces_bounded (Nat.zero_le _) read).2
              next => cases read
            rw [whole] at parsed
            have uses := @dispatch_uses server.toEnvironment owns usage rpcRequest operation now
            split at accepted
            next failure usage' dispatched =>
              obtain ⟨rfl, rfl⟩ := Prod.mk.inj accepted
              rw [dispatched] at uses
              rcases uses with ⟨same, _⟩ | ⟨owner, authenticated, uses⟩
              · exact .inl ⟨same, by simp⟩
              · exact .inr ⟨owner, requestOwner_of parsed authenticated, _, uses, by simp⟩
            next call usage' dispatched =>
              obtain ⟨rfl, rfl⟩ := Prod.mk.inj accepted
              rw [dispatched] at uses
              have same (id : JsString) (call' : Call)
                  (made : (.ok (name, call) : Except Response _) = .ok (id, call')) :
                  call = call' := by
                cases made
                rfl
              rcases uses with ⟨unchanged, quiet⟩ | ⟨owner, authenticated, uses⟩
              · refine .inl ⟨unchanged, fun id call' made => ?_⟩
                rw [← same id call' made]
                exact quiet call rfl
              · refine .inr ⟨owner, requestOwner_of parsed authenticated, _, uses, ?_⟩
                intro id call' made
                rw [same id call' made]

/-- The uses of budgets that a daemon has admitted, which bound what calls have sent. -/
structure Budgeted (server : Server) (daemon : Daemon) (uses : List (Use JsString)) : Prop where
  usage : daemon.usage = inputLimit.after (fun _ => none) uses
  admitted : inputLimit.admitted (fun _ => none) uses = uses
  ordered : Ordered uses
  sent : ∀ owner start stop, sent server owner start stop daemon.log ≤
    spent (within owner.inputKey start stop) uses

/-- An input that is admitted keeps the budget. -/
theorem Budgeted.spend {server : Server} {daemon : Daemon} {uses : List (Use JsString)}
    (budgeted : Budgeted server daemon uses) {use : Use JsString}
    (admits : inputLimit.admits daemon.usage use = true) (later : ∀ old ∈ uses, old.now ≤ use.now) :
    inputLimit.spend daemon.usage use = inputLimit.after (fun _ => none) (uses ++ [use]) ∧
      inputLimit.admitted (fun _ => none) (uses ++ [use]) = uses ++ [use] ∧
      Ordered (uses ++ [use]) := by
  refine ⟨?_, ?_, ?_⟩
  · rw [after_append, ← budgeted.usage]
    simp [Limit.after, admits]
  · rw [admitted_append, budgeted.admitted, ← budgeted.usage]
    simp [Limit.admitted, admits]
  · refine List.pairwise_append.mpr ⟨budgeted.ordered, List.pairwise_singleton _ _, ?_⟩
    intro old inside new single
    rw [List.mem_singleton.mp single]
    exact later old inside

/-- A call that sends nothing. -/
theorem sent_quiet {server : Server} {entry : Logged} (quiet : entry.call.data = none)
    (owner : OwnerContext) (start stop : Int) (log : List Logged) :
    sent server owner start stop (entry :: log) = sent server owner start stop log := by
  simp [sent, quiet]

/-- A call that sends what its owner has used up of the budget. -/
theorem sent_input {server : Server} {entry : Logged} {owner : OwnerContext} {data : JsString}
    (made : requestOwner server entry.request = some owner) (sends : entry.call.data = some data)
    (other : OwnerContext) (start stop : Int) (log : List Logged) :
    sent server other start stop (entry :: log) ≤
      spent (within other.inputKey start stop) [owner.input data entry.now] +
        sent server other start stop log := by
  by_cases inside : owner = other ∧ start ≤ entry.now ∧ entry.now < stop
  · have counted : within other.inputKey start stop (owner.input data entry.now) = true := by
      simp [within, OwnerContext.input, inside.1, inside.2.1, inside.2.2]
    have used : spent (within other.inputKey start stop) [owner.input data entry.now] =
        byteLength data := by
      simp only [spent, counted, if_true, Nat.add_zero]
      rfl
    simp only [sent, made, sends, Option.elim_some, Option.some.injEq, if_pos inside]
    omega
  · simp only [sent, made, Option.some.injEq, if_neg inside]
    omega

/-- A request keeps to the budgets, at a time that is not before those of the earlier ones. -/
theorem request_budgeted {server : Server} {daemon : Daemon} {uses : List (Use JsString)}
    (budgeted : Budgeted server daemon uses) (request : HttpRequest) {now : Int}
    (later : ∀ old ∈ uses, old.now ≤ now) :
    ∃ uses', Budgeted server (step server daemon (.request request now)) uses' ∧
      ∀ use ∈ uses', use ∈ uses ∨ use.now = now := by
  rcases accepted : accept server daemon.owns daemon.usage request now with ⟨result, after⟩
  -- Nothing is used up, and no call sends input.
  have still (same : after = daemon.usage)
      (quiet : ∀ id call, result = .ok (id, call) → call.data = none) :
      ∃ uses', Budgeted server (step server daemon (.request request now)) uses' ∧
        ∀ use ∈ uses', use ∈ uses ∨ use.now = now := by
    refine ⟨uses, ?_, fun use inside => .inl inside⟩
    simp only [step, accepted]
    cases result with
    | error response =>
      exact ⟨same.trans budgeted.usage, budgeted.admitted, budgeted.ordered, budgeted.sent⟩
    | ok made =>
      refine ⟨same.trans budgeted.usage, budgeted.admitted, budgeted.ordered, ?_⟩
      intro owner start stop
      rw [sent_quiet (quiet made.1 made.2 rfl)]
      exact budgeted.sent owner start stop
  rcases accept_uses accepted with ⟨same, quiet⟩ | ⟨owner, made, dispatched, uses', sends⟩
  · exact still same quiet
  · cases uses' with
    | nothing same quiet =>
      exact still same fun id call answer => quiet call (sends id call answer)
    | input data admits spends carries =>
      obtain ⟨usage, admitted, ordered⟩ :=
        budgeted.spend admits fun old inside => later old inside
      refine ⟨uses ++ [owner.input data now], ?_, ?_⟩
      · simp only [step, accepted]
        cases result with
        | error response =>
          refine ⟨spends.trans usage, admitted, ordered, fun other start stop => ?_⟩
          rw [spent_append]
          exact Nat.le_add_right_of_le (budgeted.sent other start stop)
        | ok answer =>
          have data' : answer.2.data = some data :=
            carries answer.2 (sends answer.1 answer.2 rfl)
          refine ⟨spends.trans usage, admitted, ordered, fun other start stop => ?_⟩
          have more := @sent_input server ⟨request, now, answer.2⟩ owner data made data' other start
            stop daemon.log
          have before := budgeted.sent other start stop
          rw [spent_append]
          dsimp only at more ⊢
          omega
      · intro use inside
        rcases List.mem_append.mp inside with old | new
        · exact .inl old
        · rw [List.mem_singleton.mp new]
          exact .inr rfl

/-- A run keeps to the budgets. -/
theorem run_budgeted {server : Server} {daemon : Daemon} {uses : List (Use JsString)}
    (budgeted : Budgeted server daemon uses) {events : List Event} (steady : Steady events)
    (later : ∀ old ∈ uses, ∀ now ∈ events.filterMap Event.time, old.now ≤ now) :
    ∃ uses', Budgeted server (run (step server) daemon events) uses' := by
  induction events generalizing daemon uses with
  | nil => exact ⟨uses, budgeted⟩
  | cons event rest inductionHypothesis =>
    rw [run_cons]
    have steady' : Steady rest := by
      refine ⟨?_, fun later inside => steady.2 later (List.mem_cons_of_mem _ inside)⟩
      have times := steady.1
      rw [List.filterMap_cons] at times
      split at times
      next => exact times
      next => exact (List.pairwise_cons.mp times).2
    cases event with
    | request request now =>
      have times := steady.1
      simp only [List.filterMap_cons, Event.time] at times later
      have first := (List.pairwise_cons.mp times).1
      obtain ⟨uses', budgeted', origin⟩ := request_budgeted budgeted request
        fun old inside => later old inside now List.mem_cons_self
      refine inductionHypothesis budgeted' steady' ?_
      intro old inside time behind
      rcases origin old inside with older | same
      · exact later old older time (List.mem_cons_of_mem _ behind)
      · rw [same]
        exact first time behind
    | created start id =>
      refine inductionHypothesis ?_ steady' later
      simp only [step]
      split
      · split
        · exact budgeted
        · exact ⟨budgeted.usage, budgeted.admitted, budgeted.ordered, budgeted.sent⟩
      · exact budgeted
    | removed id =>
      exact inductionHypothesis
        ⟨budgeted.usage, budgeted.admitted, budgeted.ordered, budgeted.sent⟩ steady' later
    | restart => exact absurd rfl (steady.2 .restart List.mem_cons_self)

/-- In a run without a restart, the calls made for an owner send no more input in any minute than
twice the budget of the owner, however the requests are interleaved with others. -/
theorem input_within_budget (server : Server) {events : List Event} (steady : Steady events)
    (owner : OwnerContext) (start : Int) :
    sent server owner start (start + 60000) (run (step server) .initial events).log ≤
      2 * maxInputBytesPerMinute := by
  have empty : Budgeted server .initial [] := by
    refine ⟨rfl, rfl, List.Pairwise.nil, fun owner start stop => ?_⟩
    exact Nat.le_refl 0
  obtain ⟨uses, budgeted⟩ := run_budgeted empty steady (by simp)
  have bound := spent_within inputLimit (fun _ => none) budgeted.ordered owner.inputKey start
  rw [budgeted.admitted] at bound
  exact Nat.le_trans (budgeted.sent owner start (start + 60000)) bound

set_option maxRecDepth 4000 in
/-- The two bytes that are written keep to the budget. -/
theorem written_within_budget :
    sent demoServer demoOwner 0 60000 (run (step demoServer) .initial demoEvents).log = 2 ∧
      sent demoServer demoOwner 0 (0 + 60000)
        (run (step demoServer) .initial demoEvents).log ≤ 2 * maxInputBytesPerMinute := by
  refine ⟨rfl, input_within_budget demoServer ?_ demoOwner 0⟩
  refine ⟨?_, ?_⟩
  · have times : demoEvents.filterMap Event.time = [5, 10] := rfl
    simp [times]
  · simp [demoEvents]

end OpencodePty.RpcDispatch
