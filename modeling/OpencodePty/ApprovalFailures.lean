import OpencodePty.AtomicFiles
import OpencodePty.ClaimExclusivity
import OpencodePty.Transitions
import OpencodePty.Turns

/-!
# Approvals whose write fails

A call on the ledger changes the claim tokens in memory before it writes the ledger. Where the write
throws, the call is rejected, and the next call that waits gets the ledger. What the call dropped of
the claim tokens stays dropped, and a write that throws after its rename has replaced the ledger.
-/

namespace OpencodePty.Approvals

open OpencodePty.JsValues OpencodePty.AtomicFiles OpencodePty.Transitions OpencodePty.Turns

/-- `withApprovals`, with the operations of its write that throw. -/
def attemptUpdate (daemon : Daemon) (faults : Faults) (update : Update) :
    Except Failure Reply × Daemon :=
  if !daemon.ledger.wellFormed then (.error (.other "Approval ledger is invalid."), daemon)
  else
    match update daemon.ledger daemon.tokens with
    | (tokens, .error failure) => (.error failure, { daemon with tokens := tokens })
    | (tokens, .ok (reply, ledger)) =>
      let (file, returned) := writeAtomicNow faults ledger daemon.ledger
      if returned then (.ok reply, { daemon with ledger := file, tokens := tokens })
      else (.error (.other "Approval ledger could not be written."),
        { daemon with ledger := file, tokens := tokens })

/-- A call, with the operations of its write that throw. -/
def attempt (environment : Environment) (daemon : Daemon) (call : Call) (faults : Faults) :
    Except Failure Reply × Daemon :=
  match call.update environment with
  | .error failure => (.error failure, daemon)
  | .ok update =>
    match attemptUpdate daemon faults update with
    | (.error failure, after) => (.error failure, after)
    | (.ok reply, after) =>
      (.ok reply,
        { after with changes := after.changes ++ tokenChange call.operation reply })

/-- A write that replaces the ledger where it returns, and only there, is one that is written or
not. -/
theorem attempt_perform (environment : Environment) (daemon : Daemon) (call : Call)
    {faults : Faults} (whole : faults.replaces = faults.returns) :
    attempt environment daemon call faults =
      perform environment daemon { call with written := faults.returns } := by
  have same : Call.update environment { call with written := faults.returns } =
      call.update environment := rfl
  unfold attempt perform
  rw [same]
  cases call.update environment with
  | error failure => rfl
  | ok update =>
    have updated : attemptUpdate daemon faults update =
        withApprovals daemon faults.returns update := by
      unfold attemptUpdate withApprovals
      simp only [writeAtomicNow_eq, whole]
      cases faults.returns <;> rfl
    cases done : withApprovals daemon faults.returns update with
    | mk outcome after =>
      rw [done] at updated
      cases outcome with
      | error failure => simp only [updated, done]
      | ok reply => simp only [updated, done]

/-! ## The claim tokens that a call drops -/

/-- The claim tokens without those of some requests. -/
def Tokens.without (tokens : Tokens) (ids : List JsString) : Tokens := fun id =>
  if id ∈ ids then none else tokens id

/-- The request that a call is about. -/
def askedRequest (owner : OwnerContext) (payload : Js) (ledger : ApprovalLedger) :
    Option ApprovalRequest :=
  (requiredString payload "id" >>= approvalOwned ledger owner).toOption

/-- The requests whose claim tokens a refresh drops. -/
def overdue : Clock → List ApprovalRequest → List JsString
  | _, [] => []
  | clock, request :: rest =>
    (if (refreshApproval clock request).2 then [request.id] else []) ++
      overdue (clock.after 4) rest

/-- The requests whose claim tokens a call drops while it holds the ledger: one that has expired by
its clock or whose claim has, one that it cancels while it is open, and all of a parent session
that is cleaned up. -/
def Call.drops (call : Call) (ledger : ApprovalLedger) : List JsString :=
  let asked (payload : Js) := (askedRequest call.owner payload ledger).toList
  match call.operation with
  | .claim payload | .decide payload | .status payload | .consume payload
  | .nativeApprove payload => overdue call.clock (asked payload)
  | .cancel payload =>
    ((asked payload).filter fun request => request.status.isOpen).map ApprovalRequest.id
  | .listRequests => overdue call.clock ledger.requests
  | .cleanupByParentSession _ =>
    (ledger.requests.filter call.owner.ownsRequest).map ApprovalRequest.id
  | .create _ | .prepare _ | .listGrants | .revokeGrant _ => []

/-- No tokens are taken. -/
@[simp] theorem without_nil (tokens : Tokens) : tokens.without [] = tokens := by
  funext id
  simp [Tokens.without]

/-- Tokens are taken in two lists as in one. -/
theorem without_append (tokens : Tokens) (first second : List JsString) :
    (tokens.without first).without second = tokens.without (first ++ second) := by
  funext id
  simp only [Tokens.without, List.mem_append]
  by_cases inside : id ∈ second <;> simp [inside]

/-- A deletion takes one token. -/
theorem delete_eq (tokens : Tokens) (id : JsString) : tokens.delete id = tokens.without [id] := by
  funext other
  by_cases same : other = id
  · simp [Tokens.delete, Tokens.without, same]
  · simp [Tokens.delete, Tokens.without, same]

/-- A refresh takes the tokens that are overdue. -/
theorem refresh_eq (tokens : Tokens) (clock : Clock) (request : ApprovalRequest) :
    tokens.refresh clock request = tokens.without (overdue clock [request]) := by
  unfold Tokens.refresh overdue
  split
  · rw [delete_eq]
    rfl
  · exact (without_nil tokens).symm

/-- A refresh of all takes all tokens that are overdue. -/
theorem refreshAll_eq (clock : Clock) (requests : List ApprovalRequest) (tokens : Tokens) :
    (refreshAll clock requests tokens).2 = tokens.without (overdue clock requests) := by
  induction requests generalizing clock tokens with
  | nil => exact (without_nil tokens).symm
  | cons request rest inductionHypothesis =>
    rw [refreshAll, inductionHypothesis, refresh_eq, without_append]
    simp [overdue]

/-- Deletions take the tokens of all their requests. -/
theorem deleted_eq (requests : List ApprovalRequest) (tokens : Tokens) :
    requests.foldl (fun tokens request => tokens.delete request.id) tokens =
      tokens.without (requests.map ApprovalRequest.id) := by
  induction requests generalizing tokens with
  | nil => exact (without_nil tokens).symm
  | cons request rest inductionHypothesis =>
    rw [List.foldl_cons, inductionHypothesis, delete_eq, without_append]
    rfl

/-- Nothing is dropped where no token is held. -/
theorem without_eq_iff {tokens : Tokens} {ids : List JsString} :
    tokens.without ids = tokens ↔ ∀ id ∈ ids, tokens id = none := by
  constructor
  · intro same id dropped
    rw [← same, Tokens.without, if_pos dropped]
  · intro absent
    funext id
    by_cases dropped : id ∈ ids
    · rw [Tokens.without, if_pos dropped, absent id dropped]
    · rw [Tokens.without, if_neg dropped]

/-- What a call on one request drops, if its body drops nothing more. -/
theorem withRequest_drops {owner : OwnerContext} {payload : Js} {clock : Clock} {body : Body}
    {ledger after : ApprovalLedger} {tokens remaining : Tokens} {reply : Reply}
    (returned : withRequest owner payload clock body ledger tokens =
      (remaining, .ok (reply, after)))
    (plain : ∀ request grants tokens, (body request grants tokens).1 = tokens) :
    remaining = tokens.without (overdue clock (askedRequest owner payload ledger).toList) := by
  obtain ⟨request, changed, grants, given, found, mine, made, _⟩ := withRequest_ok returned
  have asked : askedRequest owner payload ledger = some request := by
    rw [askedRequest, given]
    simp only [bind, Except.bind, approvalOwned, found, mine, if_true, Except.toOption]
  have kept := plain (refreshApproval clock request).1 ledger.grants (tokens.refresh clock request)
  rw [made] at kept
  rw [asked, Option.toList_some, ← refresh_eq]
  exact kept

/-- An open request that expires drops its token. -/
theorem refreshApproval_drops {clock : Clock} {request : ApprovalRequest}
    (opened : request.status.isOpen = true)
    (expired : (refreshApproval clock request).1.status = .expired) :
    (refreshApproval clock request).2 = true := by
  unfold refreshApproval at expired ⊢
  split
  · rfl
  next current =>
    rw [if_neg current] at expired
    split at expired
    · cases expired
    · split at expired
      · cases expired
      · rw [expired] at opened
        contradiction

/-- A request that is open drops its token when it is cancelled: it either expires or is open
still. -/
theorem cancel_drops {owner : OwnerContext} {payload : Js} {clock : Clock}
    {ledger after : ApprovalLedger} {tokens remaining : Tokens} {reply : Reply}
    (returned : withRequest owner payload clock (cancelBody clock) ledger tokens =
      (remaining, .ok (reply, after))) :
    remaining = tokens.without
      (((askedRequest owner payload ledger).toList.filter fun request => request.status.isOpen).map
        ApprovalRequest.id) := by
  obtain ⟨request, changed, grants, given, found, mine, made, _⟩ := withRequest_ok returned
  have asked : askedRequest owner payload ledger = some request := by
    rw [askedRequest, given]
    simp only [bind, Except.bind, approvalOwned, found, mine, if_true, Except.toOption]
  have dropped : remaining = (cancelBody clock (refreshApproval clock request).1 ledger.grants
      (tokens.without (overdue clock [request]))).1 := by rw [← refresh_eq, made]
  rw [asked, Option.toList_some, dropped]
  rcases refreshApproval_cases clock request with ⟨same, _⟩ | ⟨opened, sameId, _, closed⟩
  · -- The refresh leaves the request as it was.
    simp only [overdue, same, Bool.false_eq_true, if_false, List.append_nil, without_nil]
    unfold cancelBody
    by_cases opened : request.status.isOpen = true
    · simp [opened, delete_eq]
    · simp [opened]
  · have kept : ([request].filter fun request => request.status.isOpen).map ApprovalRequest.id =
        [request.id] := by simp [opened]
    rw [kept]
    rcases closed with expired | fallback
    · have due := refreshApproval_drops opened expired
      simp [cancelBody, expired, ApprovalStatus.isOpen, overdue, due]
    · have again : tokens.without (overdue clock [request] ++ [request.id]) =
          tokens.without [request.id] := by
        funext id
        simp only [Tokens.without, overdue, List.append_nil]
        split <;> simp
      simp only [cancelBody, fallback, ApprovalStatus.isOpen, if_true, delete_eq, sameId,
        without_append, again]

/-- While a call that goes on to the write holds the ledger, it drops these claim tokens and no
others. -/
theorem update_drops {environment : Environment} {call : Call} {update : Update}
    (prepared : call.update environment = .ok update) {ledger after : ApprovalLedger}
    {tokens remaining : Tokens} {reply : Reply}
    (returned : update ledger tokens = (remaining, .ok (reply, after))) :
    remaining = tokens.without (call.drops ledger) := by
  unfold Call.drops
  cases update_prepared prepared with
  | plain operation same changes =>
    have kept : remaining = tokens := by rw [← same ledger tokens, returned]
    cases called : call.operation <;> rw [called] at operation
    case create | prepare | listGrants | revokeGrant => rw [without_nil, kept]
    all_goals exact nomatch operation
  | claim payload operation =>
    rw [operation]
    exact withRequest_drops returned (claimBody_tokens _ _)
  | decide payload operation decision decided =>
    rw [operation]
    exact withRequest_drops returned (decideBody_tokens _ _ _ _ _)
  | status payload operation =>
    rw [operation]
    exact withRequest_drops returned fun _ _ _ => rfl
  | consume payload operation intent =>
    rw [operation]
    exact withRequest_drops returned (consumeBody_tokens _ _ _ _)
  | nativeApprove payload operation =>
    rw [operation]
    exact withRequest_drops returned (nativeBody_tokens _)
  | cancel payload operation =>
    rw [operation]
    exact cancel_drops returned
  | listRequests operation =>
    rw [operation]
    simp only [approvalListRequests, Prod.mk.injEq] at returned
    rw [← returned.1, refreshAll_eq]
  | cleanupByParentSession payload operation =>
    rw [operation]
    simp only [Prod.mk.injEq] at returned
    rw [← returned.1, deleted_eq]

/-! ## Waiting for the ledger -/

/-- Where a call is in `withApprovals`: it awaits the promise of the call before it, it holds the
ledger, or it has released its own promise, which it does whatever it throws or returns. -/
inductive Stage where
  | waiting
  | holding
  | released (reply : Except Failure Reply)

/-- A call that asked for the ledger, and the operations of its write that will throw. -/
structure Waiter where
  call : Call
  faults : Faults
  stage : Stage

/-- The daemon, and the calls that asked for the ledger, in their order. -/
structure Lock where
  daemon : Daemon
  waiters : List Waiter

/-- A call enters the lock or leaves it. -/
inductive LockMove where
  | call (call : Call) (faults : Faults)
  | enter (index : Nat)
  | leave (index : Nat)
  | settle (index : Nat)

/-- Where the call stands at the lock. -/
def Waiter.phase (waiter : Waiter) : Phase :=
  match waiter.stage with
  | .waiting => .waiting
  | .holding => .running
  | .released _ => .done

/-- `await previous`: the promise of the call before has been released, if there is one. -/
def previousReleased (waiters : List Waiter) : Nat → Bool
  | 0 => true
  | previous + 1 => waiters[previous]?.any fun waiter => waiter.phase = .done

/-- One move at the lock. -/
def Lock.step (environment : Environment) (lock : Lock) : LockMove → Lock
  | .call call faults =>
    match call.update environment with
    | .error _ => lock
    | .ok _ => { lock with waiters := lock.waiters ++ [⟨call, faults, .waiting⟩] }
  | .enter index =>
    match lock.waiters[index]? with
    | some ⟨call, faults, .waiting⟩ =>
      if previousReleased lock.waiters index then
        { lock with waiters := lock.waiters.set index ⟨call, faults, .holding⟩ }
      else lock
    | _ => lock
  | .leave index =>
    match lock.waiters[index]? with
    | some ⟨call, faults, .holding⟩ =>
      let (reply, daemon) := attempt environment lock.daemon call faults
      ⟨daemon, lock.waiters.set index ⟨call, faults, .released reply⟩⟩
    | _ => lock
  | .settle index => { lock with daemon := lock.daemon.settle index }

/-- The turns of the calls, which all want the same ledger. -/
def Lock.turns (lock : Lock) : List (Turn Unit) :=
  lock.waiters.map fun waiter => ⟨(), waiter.phase⟩

/-- The calls hold the ledger one after the other, in the order in which they asked for it. A call
that waits or holds it, and before which all have released it, can go on. -/
structure Serialized (environment : Environment) (lock : Lock) : Prop where
  inTurn : InTurn lock.turns
  enters : ∀ index, lock.turns[index]? = some ⟨(), .waiting⟩ → Free lock.turns index () →
    (lock.step environment (.enter index)).turns[index]? = some ⟨(), .running⟩
  leaves : ∀ index, lock.turns[index]? = some ⟨(), .running⟩ →
    (lock.step environment (.leave index)).turns[index]? = some ⟨(), .done⟩

/-- The turns are those of the calls. -/
theorem turns_get {lock : Lock} {index : Nat} {phase : Phase} :
    lock.turns[index]? = some ⟨(), phase⟩ ↔
      ∃ waiter, lock.waiters[index]? = some waiter ∧ waiter.phase = phase := by
  simp only [Lock.turns, List.getElem?_map, Option.map_eq_some_iff, Turn.mk.injEq, true_and]

/-- A call that waits is waiting. -/
theorem phase_waiting {waiter : Waiter} (waits : waiter.phase = .waiting) :
    waiter = ⟨waiter.call, waiter.faults, .waiting⟩ := by
  obtain ⟨call, faults, stage⟩ := waiter
  cases stage with
  | waiting => rfl
  | holding => cases waits
  | released reply => cases waits

/-- A call that runs holds the lock. -/
theorem phase_running {waiter : Waiter} (holds : waiter.phase = .running) :
    waiter = ⟨waiter.call, waiter.faults, .holding⟩ := by
  obtain ⟨call, faults, stage⟩ := waiter
  cases stage with
  | waiting => cases holds
  | holding => rfl
  | released reply => cases holds

/-- A call enters when all before it have released the ledger. -/
theorem previousReleased_iff {lock : Lock} {index : Nat} (inTurn : InTurn lock.turns)
    (within : index < lock.waiters.length) :
    previousReleased lock.waiters index = true ↔ Free lock.turns index () := by
  constructor
  · intro released
    cases index with
    | zero =>
      intro earlier first before
      exact absurd before (Nat.not_lt_zero earlier)
    | succ previous =>
      simp only [previousReleased, Option.any_eq_true, decide_eq_true_eq] at released
      apply inTurn.free (Nat.lt_succ_self previous) (turns_get.mpr released)
      intro other turn after before
      omega
  · intro free
    cases index with
    | zero => rfl
    | succ previous =>
      simp only [previousReleased, Option.any_eq_true, decide_eq_true_eq]
      have inside : previous < lock.waiters.length := Nat.lt_of_succ_lt within
      refine ⟨lock.waiters[previous], List.getElem?_eq_getElem inside, ?_⟩
      exact free previous ⟨(), _⟩ (Nat.lt_succ_self previous)
        (turns_get.mpr ⟨_, List.getElem?_eq_getElem inside, rfl⟩) rfl

/-- A call that enters in turn has its turn. -/
theorem enter_turns {environment : Environment} {lock : Lock} {index : Nat}
    (inTurn : InTurn lock.turns) (waits : lock.turns[index]? = some ⟨(), .waiting⟩)
    (free : Free lock.turns index ()) :
    (lock.step environment (.enter index)).turns = lock.turns.set index ⟨(), .running⟩ := by
  obtain ⟨waiter, there, waiting⟩ := turns_get.mp waits
  have within := (List.getElem?_eq_some_iff.mp there).1
  rw [phase_waiting waiting] at there
  simp only [Lock.step, there, (previousReleased_iff inTurn within).mpr free, if_true]
  simp only [Lock.turns, List.map_set, Waiter.phase]

/-- A call that leaves is done. -/
theorem leave_turns {environment : Environment} {lock : Lock} {index : Nat}
    (holds : lock.turns[index]? = some ⟨(), .running⟩) :
    (lock.step environment (.leave index)).turns = lock.turns.set index ⟨(), .done⟩ := by
  obtain ⟨waiter, there, holding⟩ := turns_get.mp holds
  rw [phase_running holding] at there
  simp only [Lock.step, there]
  simp only [Lock.turns, List.map_set, Waiter.phase]

/-- A move of the lock takes a turn, begins one or ends one. -/
theorem step_inTurn (environment : Environment) (lock : Lock) (move : LockMove)
    (inTurn : InTurn lock.turns) : InTurn (lock.step environment move).turns := by
  cases move with
  | call call faults =>
    simp only [Lock.step]
    split
    · exact inTurn
    · simp only [Lock.turns, List.map_append]
      exact inTurn.append ()
  | enter index =>
    by_cases waits : lock.turns[index]? = some ⟨(), .waiting⟩
    · obtain ⟨waiter, there, waiting⟩ := turns_get.mp waits
      have within := (List.getElem?_eq_some_iff.mp there).1
      by_cases free : Free lock.turns index ()
      · rw [enter_turns inTurn waits free]
        exact inTurn.start waits free
      · rw [phase_waiting waiting] at there
        simp only [Lock.step, there, mt (previousReleased_iff inTurn within).mp free]
        exact inTurn
    · have stays : lock.step environment (.enter index) = lock := by
        simp only [Lock.step]
        split
        next call faults there => exact absurd (turns_get.mpr ⟨_, there, rfl⟩) waits
        next => rfl
      rwa [stays]
  | leave index =>
    by_cases holds : lock.turns[index]? = some ⟨(), .running⟩
    · rw [leave_turns holds]
      exact inTurn.finish holds
    · have stays : lock.step environment (.leave index) = lock := by
        simp only [Lock.step]
        split
        next call faults there => exact absurd (turns_get.mpr ⟨_, there, rfl⟩) holds
        next => rfl
      rwa [stays]
  | settle index => exact inTurn

/-- The calls of every run are made one after the other. -/
theorem run_serialized (environment : Environment) (daemon : Daemon) (moves : List LockMove) :
    Serialized environment (run (Lock.step environment) ⟨daemon, []⟩ moves) := by
  have inTurn : InTurn (run (Lock.step environment) ⟨daemon, []⟩ moves).turns :=
    run_preserves (step_inTurn environment) ⟨daemon, []⟩ moves inTurn_nil
  refine ⟨inTurn, ?_, ?_⟩
  · intro index waits free
    rw [enter_turns inTurn waits free,
      List.getElem?_set_self (List.getElem?_eq_some_iff.mp waits).1]
  · intro index holds
    rw [leave_turns holds, List.getElem?_set_self (List.getElem?_eq_some_iff.mp holds).1]

/-! ## A call whose write fails -/

/-- The call is rejected, the ledger and the claim tokens are as before, and every later call does
what it would have done. -/
structure Atomic (environment : Environment) (daemon : Daemon) (call : Call) (faults : Faults) :
    Prop where
  rejects : ∃ failure, (attempt environment daemon call faults).1 = .error failure
  ledger : (attempt environment daemon call faults).2.ledger = daemon.ledger
  tokens : (attempt environment daemon call faults).2.tokens = daemon.tokens
  later : ∀ other faults', attempt environment (attempt environment daemon call faults).2 other
    faults' = attempt environment daemon other faults'

/-- A call whose write fails only loses the tokens it was to lose. -/
theorem attempt_failed {environment : Environment} {daemon : Daemon} {call : Call} {faults : Faults}
    {update : Update} {tokens : Tokens} {reply : Reply} {ledger : ApprovalLedger}
    (prepared : call.update environment = .ok update) (valid : daemon.ledger.wellFormed = true)
    (asked : update daemon.ledger daemon.tokens = (tokens, .ok (reply, ledger)))
    (failed : faults.returns = false) :
    attempt environment daemon call faults =
      (.error (.other "Approval ledger could not be written."),
        { daemon with
          ledger := if faults.replaces then ledger else daemon.ledger
          tokens := daemon.tokens.without (call.drops daemon.ledger) }) := by
  have dropped := update_drops prepared asked
  simp only [attempt, prepared, attemptUpdate, valid, asked, writeAtomicNow_eq, failed, dropped,
    Bool.not_true, Bool.false_eq_true, if_false]

/-- A call whose write throws is undone if and only if the write does not get as far as the rename,
or would not change the ledger, and the call drops no claim token that is held. Whatever calls
throw, others are served after them. -/
theorem failed_write_atomic_iff (environment : Environment) (daemon : Daemon) (call : Call)
    (faults : Faults) (update : Update) (tokens : Tokens) (reply : Reply) (ledger : ApprovalLedger)
    (prepared : call.update environment = .ok update) (valid : daemon.ledger.wellFormed = true)
    (asked : update daemon.ledger daemon.tokens = (tokens, .ok (reply, ledger)))
    (failed : faults.returns = false) :
    (Atomic environment daemon call faults ↔
      (faults.replaces = false ∨ ledger = daemon.ledger) ∧
        ∀ id ∈ call.drops daemon.ledger, daemon.tokens id = none) ∧
    ∀ moves, Serialized environment (run (Lock.step environment) ⟨daemon, []⟩ moves) := by
  have result := attempt_failed prepared valid asked failed
  refine ⟨?_, run_serialized environment daemon⟩
  constructor
  · intro atomic
    have sameLedger := atomic.ledger
    have sameTokens := atomic.tokens
    rw [result] at sameLedger sameTokens
    refine ⟨?_, without_eq_iff.mp sameTokens⟩
    cases replaced : faults.replaces with
    | false => exact Or.inl rfl
    | true =>
      rw [replaced] at sameLedger
      exact Or.inr sameLedger
  · rintro ⟨unwritten, unheld⟩
    have sameLedger : (if faults.replaces then ledger else daemon.ledger) = daemon.ledger := by
      rcases unwritten with stays | same
      · rw [stays]
        rfl
      · rw [same, ite_self]
    rw [sameLedger, without_eq_iff.mpr unheld] at result
    refine ⟨⟨_, congrArg Prod.fst result⟩, ?_, ?_, ?_⟩
    · rw [result]
    · rw [result]
    · intro other faults'
      rw [result]

/-- A claim that cannot be written leaves the request to be claimed again. -/
theorem failed_write_atomic_claim :
    Atomic plainEnvironment daemonEntered (plainCall (.claim (.obj [("id", .text "1")])))
      (Faults.only .openTemporary) := by
  have exactly := failed_write_atomic_iff plainEnvironment daemonEntered
    (plainCall (.claim (.obj [("id", .text "1")]))) (Faults.only .openTemporary) _ _ _ _ rfl
    (by decide) rfl (by decide)
  refine exactly.1.mpr ⟨Or.inl (by decide), ?_⟩
  have none : (plainCall (.claim (.obj [("id", .text "1")]))).drops daemonEntered.ledger = [] := by
    decide
  rw [none]
  intro id impossible
  exact absurd impossible List.not_mem_nil

/-- The daemon that holds the token of a claimed request. -/
def daemonHeld : Daemon := daemonClaimed.settle 0

/-- A claimed request that is cancelled. -/
def cancellation : Call := plainCall (.cancel (.obj [("id", .text "1")]))

/-- The cancellation of a claimed request that cannot be written takes the token away from whoever
holds it, and the request stays claimed. -/
theorem failed_write_drops_token :
    (attempt plainEnvironment daemonHeld cancellation (Faults.only .openTemporary)).1 =
        .error (.other "Approval ledger could not be written.") ∧
      daemonHeld.tokens (js "1") = some (js "1") ∧
      (attempt plainEnvironment daemonHeld cancellation (Faults.only .openTemporary)).2.tokens
        (js "1") = none ∧
      ¬ Atomic plainEnvironment daemonHeld cancellation (Faults.only .openTemporary) := by
  have held : daemonHeld.tokens (js "1") = some (js "1") := by decide
  have lost : (attempt plainEnvironment daemonHeld cancellation (Faults.only .openTemporary)).2.tokens
      (js "1") = none := by decide
  refine ⟨rfl, held, lost, ?_⟩
  intro atomic
  rw [atomic.tokens, held] at lost
  contradiction

end OpencodePty.Approvals
