import OpencodePty.Approvals

/-!
# What one approval call can do

Each call is described by what it can do to the request with a given id, to the grants
and to the claim tokens. A request becomes approved only through a decision that bears
its claim token or through a native approval, a consumed request stays consumed, and a
grant comes only from an approval for the session.
-/

namespace OpencodePty.Approvals

open OpencodePty.JsValues

/-- A payload that is accepted is handed on as it is. -/
theorem approvalPayload_ok {payload value : Js} {fields : List String}
    (accepted : approvalPayload payload fields = .ok value) : value = payload := by
  unfold approvalPayload at accepted
  split at accepted
  · split at accepted
    · cases accepted
    · cases accepted
      rfl
  · cases accepted

/-! ## Refreshing -/

/-- A refresh leaves a request alone that has not expired, or closes one that was open. -/
theorem refreshApproval_cases (clock : Clock) (request : ApprovalRequest) :
    (refreshApproval clock request = (request, false) ∧
      (request.status.isOpen = true → clock 0 < request.expiresAt)) ∨
    request.status.isOpen = true ∧
      (refreshApproval clock request).1.id = request.id ∧
      (refreshApproval clock request).1.expiresAt = request.expiresAt ∧
      ((refreshApproval clock request).1.status = .expired ∨
        (refreshApproval clock request).1.status = .nativeFallback) := by
  unfold refreshApproval
  simp only [Bool.and_eq_true, decide_eq_true_eq]
  split
  next expired => exact .inr ⟨expired.1, rfl, rfl, .inl rfl⟩
  next current =>
    split
    next pending => exact .inr ⟨by rw [pending.1.1]; rfl, rfl, rfl, .inr rfl⟩
    next =>
      split
      next claimed => exact .inr ⟨by rw [claimed.1]; rfl, rfl, rfl, .inr rfl⟩
      next =>
        refine .inl ⟨rfl, ?_⟩
        intro opened
        by_contra late
        exact current ⟨opened, Int.not_lt.mp late⟩

/-- A refresh keeps the id of a request. -/
theorem refreshApproval_id (clock : Clock) (request : ApprovalRequest) :
    (refreshApproval clock request).1.id = request.id := by
  rcases refreshApproval_cases clock request with ⟨same, _⟩ | ⟨_, id, _⟩
  · rw [same]
  · exact id

/-- A refresh keeps the time at which a request runs out. -/
theorem refreshApproval_expiresAt (clock : Clock) (request : ApprovalRequest) :
    (refreshApproval clock request).1.expiresAt = request.expiresAt := by
  rcases refreshApproval_cases clock request with ⟨same, _⟩ | ⟨_, _, expiresAt, _⟩
  · rw [same]
  · exact expiresAt

/-- A request that a refresh does not close is the one there was. -/
theorem refreshApproval_same (clock : Clock) (request : ApprovalRequest)
    (current : (refreshApproval clock request).1.status ≠ .expired)
    (answered : (refreshApproval clock request).1.status ≠ .nativeFallback) :
    (refreshApproval clock request).1 = request ∧
      (request.status.isOpen = true → clock 0 < request.expiresAt) := by
  rcases refreshApproval_cases clock request with ⟨same, unexpired⟩ | ⟨_, _, _, closed⟩
  · exact ⟨by rw [same], unexpired⟩
  · rcases closed with expired | fallback
    · exact absurd expired current
    · exact absurd fallback answered

/-- A refresh does not touch a request that is not open. -/
theorem refreshApproval_closed (clock : Clock) {request : ApprovalRequest}
    (closed : request.status.isOpen = false) : (refreshApproval clock request).1 = request := by
  rcases refreshApproval_cases clock request with ⟨same, _⟩ | ⟨opened, _⟩
  · rw [same]
  · rw [closed] at opened
    simp at opened

/-- Deleting a token changes no other token into one. -/
theorem delete_some {tokens : Tokens} {id other token : JsString}
    (held : tokens.delete id other = some token) : tokens other = some token := by
  unfold Tokens.delete at held
  by_cases same : other = id
  · rw [same, Function.update_self] at held
    cases held
  · rwa [Function.update_of_ne same] at held

/-- A token that is left after a refresh was there before it. -/
theorem refresh_some {tokens : Tokens} {clock : Clock} {request : ApprovalRequest}
    {id token : JsString} (held : tokens.refresh clock request id = some token) :
    tokens id = some token := by
  unfold Tokens.refresh at held
  split at held
  · exact delete_some held
  · exact held

/-! ## Requests by id -/

/-- The request that is found has the id that was asked for. -/
theorem find_id {ledger : ApprovalLedger} {id : JsString} {request : ApprovalRequest}
    (found : ledger.find id = some request) : request.id = id := by
  have holds := List.find?_some found
  simpa using holds

/-- The request that is found is one of the ledger. -/
theorem find_member {ledger : ApprovalLedger} {id : JsString} {request : ApprovalRequest}
    (found : ledger.find id = some request) : request ∈ ledger.requests :=
  List.mem_of_find?_eq_some found

/-- With distinct ids every request is found by its own. -/
theorem find_of_member {requests : List ApprovalRequest} {grants : List ApprovalGrant}
    (distinct : (requests.map ApprovalRequest.id).Nodup) {request : ApprovalRequest}
    (member : request ∈ requests) :
    ApprovalLedger.find ⟨requests, grants⟩ request.id = some request := by
  induction requests with
  | nil => simp at member
  | cons first rest inductionHypothesis =>
    rw [List.map_cons, List.nodup_cons] at distinct
    rcases List.mem_cons.mp member with same | later
    · simp [ApprovalLedger.find, same]
    · have different : first.id ≠ request.id := fun equal =>
        distinct.1 (equal ▸ List.mem_map_of_mem later)
      have remaining := inductionHypothesis distinct.2 later
      simpa [ApprovalLedger.find, different] using remaining

/-- The ids stay when a request is replaced. -/
theorem replaceRequest_ids (changed : ApprovalRequest) (requests : List ApprovalRequest) :
    (replaceRequest changed requests).map ApprovalRequest.id =
      requests.map ApprovalRequest.id := by
  induction requests with
  | nil => rfl
  | cons request rest inductionHypothesis =>
    unfold replaceRequest
    split
    next same => simp [same]
    next => simp [inductionHypothesis]

/-- The changed request is found under its id, and the others as before. -/
theorem find_replaceRequest (grants : List ApprovalGrant) {requests : List ApprovalRequest}
    {added : List ApprovalGrant} {changed found : ApprovalRequest} {id : JsString}
    (after : ApprovalLedger.find ⟨replaceRequest changed requests, added⟩ id = some found) :
    (id = changed.id ∧ found = changed) ∨
      (id ≠ changed.id ∧ ApprovalLedger.find ⟨requests, grants⟩ id = some found) := by
  induction requests with
  | nil => simp [ApprovalLedger.find, replaceRequest] at after
  | cons request rest inductionHypothesis =>
    simp only [ApprovalLedger.find] at after inductionHypothesis ⊢
    unfold replaceRequest at after
    split at after
    next same =>
      rw [List.find?_cons] at after ⊢
      by_cases here : changed.id = id
      · simp only [here, decide_true, Option.some_inj] at after
        exact .inl ⟨here.symm, after.symm⟩
      · simp only [here, decide_false] at after
        have other : request.id ≠ id := fun equal => here (same ▸ equal)
        refine .inr ⟨fun equal => here equal.symm, ?_⟩
        simpa only [other, decide_false] using after
    next different =>
      rw [List.find?_cons] at after ⊢
      by_cases here : request.id = id
      · simp only [here, decide_true, Option.some_inj] at after ⊢
        exact .inr ⟨fun equal => different (here.trans equal), after⟩
      · simp only [here, decide_false] at after ⊢
        exact inductionHypothesis after

/-- The changed request is found where there was one before. -/
theorem find_replaced {requests : List ApprovalRequest} {grants added : List ApprovalGrant}
    {changed request : ApprovalRequest}
    (before : ApprovalLedger.find ⟨requests, grants⟩ changed.id = some request) :
    ApprovalLedger.find ⟨replaceRequest changed requests, added⟩ changed.id = some changed := by
  induction requests with
  | nil => simp [ApprovalLedger.find] at before
  | cons first rest inductionHypothesis =>
    simp only [ApprovalLedger.find] at before inductionHypothesis ⊢
    unfold replaceRequest
    split
    next => simp
    next different =>
      rw [List.find?_cons] at before ⊢
      simp only [different, decide_false] at before ⊢
      exact inductionHypothesis before

/-- Each request of the refreshed list is a refreshed one of the list. -/
theorem refreshAll_find {requests : List ApprovalRequest} {grants added : List ApprovalGrant}
    {clock : Clock} {tokens : Tokens} {found : ApprovalRequest} {id : JsString}
    (after : ApprovalLedger.find ⟨(refreshAll clock requests tokens).1, added⟩ id = some found) :
    ∃ request later, ApprovalLedger.find ⟨requests, grants⟩ id = some request ∧
      found = (refreshApproval later request).1 := by
  induction requests generalizing clock tokens with
  | nil => simp [ApprovalLedger.find, refreshAll] at after
  | cons request rest inductionHypothesis =>
    simp only [ApprovalLedger.find, refreshAll] at after inductionHypothesis ⊢
    rw [List.find?_cons] at after ⊢
    rw [refreshApproval_id] at after
    by_cases here : request.id = id
    · simp only [here, decide_true, Option.some_inj] at after ⊢
      exact ⟨request, clock, rfl, after.symm⟩
    · simp only [here, decide_false] at after ⊢
      exact inductionHypothesis after

/-- The ids stay when all requests are refreshed. -/
theorem refreshAll_ids (clock : Clock) (requests : List ApprovalRequest) (tokens : Tokens) :
    (refreshAll clock requests tokens).1.map ApprovalRequest.id =
      requests.map ApprovalRequest.id := by
  induction requests generalizing clock tokens with
  | nil => rfl
  | cons request rest inductionHypothesis =>
    simp [refreshAll, refreshApproval_id, inductionHypothesis]

/-- A token that is left after a refresh of all was there before it. -/
theorem refreshAll_some {clock : Clock} {requests : List ApprovalRequest} {tokens : Tokens}
    {id token : JsString} (held : (refreshAll clock requests tokens).2 id = some token) :
    tokens id = some token := by
  induction requests generalizing clock tokens with
  | nil => exact held
  | cons request rest inductionHypothesis => exact refresh_some (inductionHypothesis held)

/-! ## Calls on one request -/

/-- A call on one request that returns has found it for its owner and put back what it
made of it. -/
theorem withRequest_ok {owner : OwnerContext} {payload : Js} {clock : Clock} {body : Body}
    {ledger after : ApprovalLedger} {tokens remaining : Tokens} {reply : Reply}
    (returned : withRequest owner payload clock body ledger tokens =
      (remaining, .ok (reply, after))) :
    ∃ request changed grants, requiredString payload "id" = .ok request.id ∧
      ledger.find request.id = some request ∧ owner.ownsRequest request = true ∧
      body (refreshApproval clock request).1 ledger.grants (tokens.refresh clock request) =
        (remaining, .ok (reply, changed, grants)) ∧
      after = ⟨replaceRequest changed ledger.requests, grants⟩ := by
  unfold withRequest at returned
  split at returned
  · simp at returned
  next request known =>
    obtain ⟨id, given, owned⟩ := bind_ok known
    unfold approvalOwned at owned
    split at owned
    · cases owned
    next found lookedUp =>
      split at owned
      next mine =>
        cases owned
        have same := find_id lookedUp
        subst same
        split at returned
        · simp at returned
        next later reply' changed grants result =>
          simp only [Prod.mk.injEq, Except.ok.injEq] at returned
          obtain ⟨rfl, rfl, rfl⟩ := returned
          exact ⟨request, changed, grants, given, lookedUp, mine, result, rfl⟩
      next => cases owned

/-- A call that throws only deletes claim tokens, if its body does. -/
theorem withRequest_tokens {owner : OwnerContext} {payload : Js} {clock : Clock} {body : Body}
    (deletes : ∀ request grants tokens id token,
      (body request grants tokens).1 id = some token → tokens id = some token)
    (ledger : ApprovalLedger) (tokens : Tokens) (id token : JsString)
    (held : (withRequest owner payload clock body ledger tokens).1 id = some token) :
    tokens id = some token := by
  unfold withRequest at held
  split at held
  · exact held
  next request _ =>
    have kept := deletes (refreshApproval clock request).1 ledger.grants
      (tokens.refresh clock request) id token
    split at held
    next later failure result =>
      rw [result] at kept
      exact refresh_some (kept held)
    next later reply changed grants result =>
      rw [result] at kept
      exact refresh_some (kept held)

/-- The call approves a request: it decides for one use and bears the claim token, while
the request is claimed; or it is a native approval, while the request has fallen back to
it or is pending and no user interface may claim it. -/
def Approves (call : Call) (tokens : Tokens) (request : ApprovalRequest) : Prop :=
  (∃ payload token, call.operation = .decide payload ∧
    requiredString payload "id" = .ok request.id ∧
    requiredString payload "decision" = .ok (js "approve_once") ∧
    requiredString payload "claimToken" = .ok token ∧ tokens request.id = some token ∧
    request.status = .claimed ∧ call.clock 0 < request.expiresAt) ∨
  (∃ payload, call.operation = .nativeApprove payload ∧
    requiredString payload "id" = .ok request.id ∧
    ((refreshApproval call.clock request).1.status = .nativeFallback ∨
      (refreshApproval call.clock request).1.status = .pending ∧
        (refreshApproval call.clock request).1.uiEligible ≠ some true))

/-- What a call can make of a request. -/
structure Evolves (call : Call) (tokens : Tokens) (before after : ApprovalRequest) : Prop where
  id : after.id = before.id
  expiresAt : after.expiresAt = before.expiresAt
  approved : after.status = .approvedOnce →
    before.status = .approvedOnce ∨ Approves call tokens before
  consumed : before.status = .consumed → after.status = .consumed

/-- A request may stay as it is. -/
theorem Evolves.refl (call : Call) (tokens : Tokens) (request : ApprovalRequest) :
    Evolves call tokens request request :=
  ⟨rfl, rfl, .inl, fun consumed => consumed⟩

/-- A refresh is a change that every call may make. -/
theorem Evolves.refresh (call : Call) (tokens : Tokens) (clock : Clock)
    (request : ApprovalRequest) :
    Evolves call tokens request (refreshApproval clock request).1 where
  id := refreshApproval_id clock request
  expiresAt := refreshApproval_expiresAt clock request
  approved := by
    intro approved
    have same : (refreshApproval clock request).1 = request :=
      (refreshApproval_same clock request (by simp [approved]) (by simp [approved])).1
    rw [same] at approved
    exact .inl approved
  consumed := by
    intro consumed
    rw [refreshApproval_closed clock (by rw [consumed]; rfl)]
    exact consumed

/-- A call makes something of a refreshed request. -/
theorem Evolves.of_refreshed {call : Call} {tokens : Tokens} {clock : Clock}
    {request changed : ApprovalRequest}
    (id : changed.id = (refreshApproval clock request).1.id)
    (expiresAt : changed.expiresAt = (refreshApproval clock request).1.expiresAt)
    (approved : changed.status = .approvedOnce →
      (refreshApproval clock request).1.status = .approvedOnce ∨ Approves call tokens request)
    (consumed : (refreshApproval clock request).1.status = .consumed →
      changed.status = .consumed) : Evolves call tokens request changed where
  id := id.trans (refreshApproval_id clock request)
  expiresAt := expiresAt.trans (refreshApproval_expiresAt clock request)
  approved := by
    intro now
    rcases approved now with before | approves
    · exact (Evolves.refresh call tokens clock request).approved before
    · exact .inr approves
  consumed := fun before =>
    consumed ((Evolves.refresh call tokens clock request).consumed before)

/-- A claim grants nothing, and the token it answers is a new one of its own. -/
theorem claimBody_ok {call : Call} {tokens held remaining : Tokens} {request changed : ApprovalRequest}
    {grants added : List ApprovalGrant} {reply : Reply} {clock : Clock} {uuid : JsString}
    (result : claimBody clock uuid (refreshApproval clock request).1 grants held =
      (remaining, .ok (reply, changed, added))) :
    Evolves call tokens request changed ∧ added = grants ∧
      ∀ claimed token, reply = .claim claimed token → claimed.id = request.id ∧ token = uuid := by
  unfold claimBody at result
  simp only [Bool.and_eq_true, decide_eq_true_eq] at result
  split at result
  next free =>
    simp only [Prod.mk.injEq, Except.ok.injEq] at result
    obtain ⟨_, rfl, rfl, rfl⟩ := result
    refine ⟨.of_refreshed rfl rfl (by simp) ?_, rfl, ?_⟩
    · simp [free.1.1]
    · intro claimed token same
      cases same
      exact ⟨refreshApproval_id clock request, rfl⟩
  next =>
    simp only [Prod.mk.injEq, Except.ok.injEq] at result
    obtain ⟨_, rfl, rfl, rfl⟩ := result
    exact ⟨.refresh call tokens clock request, rfl, by simp⟩

/-- The call approves a claimed request for the whole session. -/
def ApprovesSession (call : Call) (tokens : Tokens) (request : ApprovalRequest) : Prop :=
  ∃ payload token, call.operation = .decide payload ∧
    requiredString payload "id" = .ok request.id ∧
    requiredString payload "decision" = .ok (js "approve_session") ∧
    requiredString payload "claimToken" = .ok token ∧ tokens request.id = some token ∧
    request.status = .claimed ∧ call.clock 0 < request.expiresAt

/-- A decision that approves was asked for under its name. -/
theorem approvalDecision_ok {payload : Js} {decision : Decision}
    (accepted : approvalDecision payload = .ok decision) :
    (decision = .approveOnce → requiredString payload "decision" = .ok (js "approve_once")) ∧
    (decision = .approveSession →
      requiredString payload "decision" = .ok (js "approve_session")) := by
  obtain ⟨text, given, rest⟩ := bind_ok accepted
  rw [given]
  split at rest
  next same =>
    cases rest
    exact ⟨fun _ => by rw [same], by simp⟩
  next =>
    split at rest
    next same =>
      cases rest
      exact ⟨by simp, fun _ => by rw [same]⟩
    next =>
      split at rest
      · cases rest
        simp
      · cases rest

/-- A decision changes a claimed request when it bears the claim token. -/
theorem decideBody_ok {call : Call} {payload : Js} {decision : Decision}
    (operation : call.operation = .decide payload)
    (accepted : approvalDecision payload = .ok decision) {tokens remaining : Tokens}
    {request changed : ApprovalRequest} (given : requiredString payload "id" = .ok request.id)
    {grants added : List ApprovalGrant} {reply : Reply}
    (result : decideBody call.owner payload decision call.clock call.uuid
      (refreshApproval call.clock request).1 grants (tokens.refresh call.clock request) =
        (remaining, .ok (reply, changed, added))) :
    Evolves call tokens request changed ∧
      (added = grants ∨ ApprovesSession call tokens request ∧
        added = grants ++ [newGrant call.owner request call.clock call.uuid]) := by
  unfold decideBody at result
  split at result
  · simp at result
  next token bears =>
    split at result
    · simp at result
    next bearing =>
      split at result
      next =>
        simp only [Prod.mk.injEq, Except.ok.injEq] at result
        obtain ⟨_, rfl, rfl, rfl⟩ := result
        exact ⟨.refresh call tokens call.clock request, .inl rfl⟩
      next claimed =>
        have isClaimed : (refreshApproval call.clock request).1.status = .claimed :=
          Decidable.not_not.mp claimed
        obtain ⟨same, unexpired⟩ := refreshApproval_same call.clock request
          (by simp [isClaimed]) (by simp [isClaimed])
        have wasClaimed : request.status = .claimed := by rw [← same]; exact isClaimed
        have early : call.clock 0 < request.expiresAt := unexpired (by rw [wasClaimed]; rfl)
        have issued : tokens request.id = some token := by
          have held := Decidable.not_not.mp bearing
          rw [refreshApproval_id] at held
          exact refresh_some held
        simp only [Prod.mk.injEq, Except.ok.injEq] at result
        obtain ⟨_, rfl, rfl, rfl⟩ := result
        refine ⟨.of_refreshed rfl rfl ?_ (by simp [isClaimed]), ?_⟩
        · intro approved
          refine .inr (.inl ⟨payload, token, operation, given, ?_, bears, issued, wasClaimed, early⟩)
          apply (approvalDecision_ok accepted).1
          cases decision <;> simp [Decision.status] at approved ⊢
        · split
          next session =>
            refine .inr ⟨⟨payload, token, operation, given, (approvalDecision_ok accepted).2 session,
              bears, issued, wasClaimed, early⟩, ?_⟩
            rw [same]
          next => exact .inl rfl

/-- A native approval changes a request that no user interface can claim. -/
theorem nativeBody_ok {call : Call} {payload : Js} (operation : call.operation = .nativeApprove payload)
    {tokens held remaining : Tokens} {request changed : ApprovalRequest}
    (given : requiredString payload "id" = .ok request.id) {grants added : List ApprovalGrant}
    {reply : Reply}
    (result : nativeBody call.clock (refreshApproval call.clock request).1 grants held =
      (remaining, .ok (reply, changed, added))) :
    Evolves call tokens request changed ∧ added = grants := by
  unfold nativeBody at result
  simp only [Bool.or_eq_true, Bool.and_eq_true, decide_eq_true_eq] at result
  split at result
  next free =>
    simp only [Prod.mk.injEq, Except.ok.injEq] at result
    obtain ⟨_, rfl, rfl, rfl⟩ := result
    refine ⟨.of_refreshed rfl rfl (fun _ => .inr (.inr ⟨payload, operation, given, free⟩)) ?_, rfl⟩
    intro consumed
    rcases free with fallback | ⟨pending, _⟩
    · rw [consumed] at fallback
      cases fallback
    · rw [consumed] at pending
      cases pending
  next =>
    simp only [Prod.mk.injEq, Except.ok.injEq] at result
    obtain ⟨_, rfl, rfl, rfl⟩ := result
    exact ⟨.refresh call tokens call.clock request, rfl⟩

/-- A cancellation grants nothing. -/
theorem cancelBody_ok {call : Call} {clock : Clock} {tokens held remaining : Tokens}
    {request changed : ApprovalRequest} {grants added : List ApprovalGrant} {reply : Reply}
    (result : cancelBody clock (refreshApproval clock request).1 grants held =
      (remaining, .ok (reply, changed, added))) :
    Evolves call tokens request changed ∧ added = grants := by
  unfold cancelBody at result
  split at result
  next opened =>
    simp only [Prod.mk.injEq, Except.ok.injEq] at result
    obtain ⟨_, rfl, rfl, rfl⟩ := result
    refine ⟨.of_refreshed rfl rfl (by simp) ?_, rfl⟩
    intro consumed
    rw [consumed] at opened
    simp [ApprovalStatus.isOpen] at opened
  next =>
    simp only [Prod.mk.injEq, Except.ok.injEq] at result
    obtain ⟨_, rfl, rfl, rfl⟩ := result
    exact ⟨.refresh call tokens clock request, rfl⟩

/-- A grant that is still valid when a call looks at it covers what the call asks for. -/
def Granted (grants : List ApprovalGrant) (owner : OwnerContext)
    (digest capability workdir : JsString) (clock : Clock) : Prop :=
  ∃ grant ∈ grants, ∃ reading,
    grant.covers owner digest capability workdir = true ∧ clock reading < grant.expiresAt

/-- Consuming a request: one that is approved for one use is consumed; the answer
`approved_session` needs a grant; nothing else changes. -/
theorem consumeBody_ok {environment : Environment} {call : Call} {owner : OwnerContext}
    {intent : Intent} {clock : Clock} {tokens held remaining : Tokens}
    {request changed : ApprovalRequest} {grants added : List ApprovalGrant} {reply : Reply}
    (result : consumeBody environment owner intent clock (refreshApproval clock request).1 grants
      held = (remaining, .ok (reply, changed, added))) :
    Evolves call tokens request changed ∧ added = grants ∧
    (∀ answer, reply = .request answer → answer.status = .consumed →
      answer = changed ∧ request.status = .approvedOnce ∧ clock 0 < request.expiresAt ∧
        answer.id = request.id) ∧
    (∀ answer, reply = .request answer → answer.status = .approvedSession →
      answer.digest = environment.digest intent ∧
        Granted grants owner answer.digest answer.capability answer.workdir clock) := by
  unfold consumeBody at result
  split at result
  · simp at result
  next matching =>
  have sameDigest : (refreshApproval clock request).1.digest = environment.digest intent :=
    Decidable.not_not.mp matching
  have refreshed := Evolves.refresh call tokens clock request
  -- The answers that leave the request as it is and are neither of the two.
  have unchanged {answer : ApprovalRequest} (other : answer.status ≠ .consumed)
      (another : answer.status ≠ .approvedSession)
      (same : ((held, .ok (.request answer, (refreshApproval clock request).1, grants)) :
        Tokens × Except Failure (Reply × ApprovalRequest × List ApprovalGrant)) =
          (remaining, .ok (reply, changed, added))) :
      Evolves call tokens request changed ∧ added = grants ∧
      (∀ answer, reply = .request answer → answer.status = .consumed →
        answer = changed ∧ request.status = .approvedOnce ∧ clock 0 < request.expiresAt ∧
          answer.id = request.id) ∧
      (∀ answer, reply = .request answer → answer.status = .approvedSession →
        answer.digest = environment.digest intent ∧
          Granted grants owner answer.digest answer.capability answer.workdir clock) := by
    simp only [Prod.mk.injEq, Except.ok.injEq] at same
    obtain ⟨_, rfl, rfl, rfl⟩ := same
    refine ⟨refreshed, rfl, ?_, ?_⟩
    · intro given equal consumed
      cases equal
      exact absurd consumed other
    · intro given equal session
      cases equal
      exact absurd session another
  cases status : (refreshApproval clock request).1.status with
  | rejected | cancelled | expired =>
    simp only [status] at result
    exact unchanged (by simp [status]) (by simp [status]) result
  | consumed => simp [status] at result
  | approvedOnce =>
    obtain ⟨same, unexpired⟩ := refreshApproval_same clock request (by simp [status])
      (by simp [status])
    simp only [status, Prod.mk.injEq, Except.ok.injEq] at result
    obtain ⟨_, rfl, rfl, rfl⟩ := result
    rw [same] at status
    refine ⟨.of_refreshed rfl rfl (by simp) (by simp), rfl, ?_, by simp⟩
    intro answer equal consumed
    cases equal
    exact ⟨rfl, status, unexpired (by rw [status]; rfl), refreshApproval_id clock request⟩
  | pending | claimed | nativeFallback | approvedSession =>
    simp only [status] at result
    split at result
    next found =>
      simp only [Prod.mk.injEq, Except.ok.injEq] at result
      obtain ⟨_, rfl, rfl, rfl⟩ := result
      refine ⟨refreshed, rfl, by simp, ?_⟩
      intro answer equal session
      cases equal
      refine ⟨sameDigest, ?_⟩
      obtain ⟨⟨grant, index⟩, member, holds⟩ := List.any_eq_true.mp found
      simp only [Bool.and_eq_true, decide_eq_true_eq, gt_iff_lt] at holds
      exact ⟨grant, (List.mem_zipIdx member).2.2 ▸ List.getElem_mem _, 4 + index, holds⟩
    next => exact unchanged (by simp) (by simp) result

/-! ## Whole calls -/

/-- The id of the request that a call may enter. -/
def Call.draws (call : Call) : Option JsString :=
  match call.operation with
  | .create _ | .prepare _ => some call.uuid
  | _ => none

/-- What an update of the ledger can do that returns. -/
structure Effect (call : Call) (before : ApprovalLedger) (tokens : Tokens)
    (after : ApprovalLedger) : Prop where
  requests : ∀ id request, after.find id = some request →
    (∃ earlier, before.find id = some earlier ∧ Evolves call tokens earlier request) ∨
      call.draws = some id ∧ request.status = .pending
  ids : (before.requests.map ApprovalRequest.id).Nodup →
    (∀ id, call.draws = some id → id ∉ before.requests.map ApprovalRequest.id) →
    (after.requests.map ApprovalRequest.id).Nodup
  known : ∀ id ∈ after.requests.map ApprovalRequest.id,
    id ∈ before.requests.map ApprovalRequest.id ∨ call.draws = some id
  grants : ∀ grant ∈ after.grants, grant ∈ before.grants ∨
    ∃ request, before.find request.id = some request ∧ ApprovesSession call tokens request ∧
      call.owner.ownsRequest request = true ∧
      grant = newGrant call.owner request call.clock call.uuid

/-- A call on one request has the effect of what it makes of the request. -/
theorem withRequest_effect {call : Call} {payload : Js} {body : Body}
    {ledger after : ApprovalLedger} {tokens remaining : Tokens} {reply : Reply}
    (returned : withRequest call.owner payload call.clock body ledger tokens =
      (remaining, .ok (reply, after)))
    (evolves : ∀ request changed added, requiredString payload "id" = .ok request.id →
      body (refreshApproval call.clock request).1 ledger.grants
        (tokens.refresh call.clock request) = (remaining, .ok (reply, changed, added)) →
      Evolves call tokens request changed ∧
        (added = ledger.grants ∨ ApprovesSession call tokens request ∧
          added = ledger.grants ++ [newGrant call.owner request call.clock call.uuid])) :
    Effect call ledger tokens after := by
  obtain ⟨request, changed, grants, given, found, owned, result, rfl⟩ := withRequest_ok returned
  obtain ⟨change, granted⟩ := evolves request changed grants given result
  refine
    { requests := ?_
      ids := ?_
      known := ?_
      grants := ?_ }
  · intro id later lookedUp
    rcases find_replaceRequest ledger.grants lookedUp with ⟨same, rfl⟩ | ⟨_, before⟩
    · rw [same, change.id]
      exact .inl ⟨request, found, change⟩
    · exact .inl ⟨later, before, .refl call tokens later⟩
  · intro distinct _
    rwa [replaceRequest_ids]
  · intro id member
    rw [replaceRequest_ids] at member
    exact .inl member
  · intro grant member
    rcases granted with same | ⟨approves, same⟩
    · rw [same] at member
      exact .inl member
    · simp only [same, List.mem_append, List.mem_singleton] at member
      rcases member with old | new
      · exact .inl old
      · exact .inr ⟨request, found, approves, owned, new⟩

/-- A new request at the end of the ledger. -/
theorem append_effect {call : Call} {ledger : ApprovalLedger} {tokens : Tokens}
    {request : ApprovalRequest} {grants : List ApprovalGrant}
    (drawn : call.draws = some request.id) (pending : request.status = .pending)
    (fewer : ∀ grant ∈ grants, grant ∈ ledger.grants) :
    Effect call ledger tokens ⟨ledger.requests ++ [request], grants⟩ where
  requests := by
    intro id found lookedUp
    simp only [ApprovalLedger.find, List.find?_append] at lookedUp
    cases before : ledger.requests.find? fun request => request.id = id with
    | some earlier =>
      rw [before] at lookedUp
      simp only [Option.some_or, Option.some_inj] at lookedUp
      subst lookedUp
      exact .inl ⟨earlier, before, .refl call tokens earlier⟩
    | none =>
      rw [before] at lookedUp
      simp only [Option.none_or, List.find?_singleton] at lookedUp
      split at lookedUp
      next same =>
        cases lookedUp
        exact .inr ⟨by rw [drawn, of_decide_eq_true same], pending⟩
      next => cases lookedUp
  ids := by
    intro distinct fresh
    rw [List.map_append, List.nodup_append]
    refine ⟨distinct, by simp, ?_⟩
    intro id member other last
    rw [List.map_singleton, List.mem_singleton] at last
    intro same
    exact fresh request.id drawn (last ▸ same ▸ member)
  known := by
    intro id member
    rw [List.map_append, List.mem_append] at member
    rcases member with old | new
    · exact .inl old
    · rw [List.map_singleton, List.mem_singleton] at new
      exact .inr (new ▸ drawn)
  grants := fun grant member => .inl (fewer grant member)

/-- Requests and grants that stay as they are. -/
theorem fewer_effect {call : Call} {ledger : ApprovalLedger} {tokens : Tokens}
    {grants : List ApprovalGrant} (fewer : ∀ grant ∈ grants, grant ∈ ledger.grants) :
    Effect call ledger tokens { ledger with grants := grants } where
  requests := fun _ request found => .inl ⟨request, found, .refl call tokens request⟩
  ids := fun distinct _ => distinct
  known := fun _ member => .inl member
  grants := fun grant member => .inl (fewer grant member)

/-- Requests and grants that are dropped give nobody anything. -/
theorem cleanup_effect {call : Call} {ledger : ApprovalLedger} {tokens : Tokens}
    (distinct : (ledger.requests.map ApprovalRequest.id).Nodup)
    {keepRequest : ApprovalRequest → Bool} {keepGrant : ApprovalGrant → Bool} :
    Effect call ledger tokens
      ⟨ledger.requests.filter keepRequest, ledger.grants.filter keepGrant⟩ where
  requests := by
    intro id request found
    have member : request ∈ ledger.requests := (List.mem_filter.mp (find_member found)).1
    have same := find_id found
    subst same
    exact .inl ⟨request, find_of_member distinct member, .refl call tokens request⟩
  ids := fun _ _ => distinct.sublist (List.filter_sublist.map ApprovalRequest.id)
  known := by
    intro id member
    exact .inl ((List.filter_sublist.map ApprovalRequest.id).subset member)
  grants := fun grant member => .inl (List.mem_filter.mp member).1

/-- A refresh of all requests gives nobody anything. -/
theorem refreshAll_effect {call : Call} {ledger : ApprovalLedger} {tokens : Tokens} (clock : Clock)
    (held : Tokens) :
    Effect call ledger tokens
      { ledger with requests := (refreshAll clock ledger.requests held).1 } where
  requests := by
    intro id request found
    obtain ⟨earlier, later, before, rfl⟩ := refreshAll_find found
    exact .inl ⟨earlier, before, .refresh call tokens later earlier⟩
  ids := by
    intro distinct _
    rwa [refreshAll_ids]
  known := by
    intro id member
    rw [refreshAll_ids] at member
    exact .inl member
  grants := fun grant member => .inl member

/-! ## What a call does under the lock -/

/-- The operations whose updates leave the claim tokens alone. -/
def Operation.isPlain : Operation → Bool
  | .create _ | .prepare _ | .listGrants | .revokeGrant _ => true
  | _ => false

/-- What these updates do to a ledger: they remove grants, or enter a request as well, whose id
the call draws. -/
inductive PlainChange (call : Call) (ledger : ApprovalLedger) : ApprovalLedger → Prop where
  | grants {grants : List ApprovalGrant} (fewer : ∀ grant ∈ grants, grant ∈ ledger.grants) :
      PlainChange call ledger { ledger with grants := grants }
  | append {request : ApprovalRequest} {grants : List ApprovalGrant}
      (drawn : call.draws = some request.id) (pending : request.status = .pending)
      (fewer : ∀ grant ∈ grants, grant ∈ ledger.grants) :
      PlainChange call ledger ⟨ledger.requests ++ [request], grants⟩

/-- What a call that is not rejected at once does while it holds the ledger. -/
inductive Prepared (environment : Environment) (call : Call) : Update → Prop where
  | plain {update : Update} (operation : call.operation.isPlain = true)
      (tokens : ∀ ledger tokens, (update ledger tokens).1 = tokens)
      (changes : ∀ {ledger after tokens remaining reply},
        update ledger tokens = (remaining, .ok (reply, after)) → PlainChange call ledger after) :
      Prepared environment call update
  | claim (payload : Js) (operation : call.operation = .claim payload) :
      Prepared environment call
        (withRequest call.owner payload call.clock (claimBody call.clock call.uuid))
  | decide (payload : Js) (operation : call.operation = .decide payload) (decision : Decision)
      (decided : approvalDecision payload = .ok decision) :
      Prepared environment call
        (withRequest call.owner payload call.clock
          (decideBody call.owner payload decision call.clock call.uuid))
  | status (payload : Js) (operation : call.operation = .status payload) :
      Prepared environment call (approvalStatus call.owner payload call.clock)
  | consume (payload : Js) (operation : call.operation = .consume payload) (intent : Intent) :
      Prepared environment call
        (withRequest call.owner payload call.clock
          (consumeBody environment call.owner intent call.clock))
  | nativeApprove (payload : Js) (operation : call.operation = .nativeApprove payload) :
      Prepared environment call (withRequest call.owner payload call.clock (nativeBody call.clock))
  | cancel (payload : Js) (operation : call.operation = .cancel payload) :
      Prepared environment call (withRequest call.owner payload call.clock (cancelBody call.clock))
  | listRequests (operation : call.operation = .listRequests) :
      Prepared environment call (approvalListRequests call.owner call.clock)
  | cleanupByParentSession (payload : Js)
      (operation : call.operation = .cleanupByParentSession payload) :
      Prepared environment call fun ledger tokens =>
        ((ledger.requests.filter call.owner.ownsRequest).foldl
            (fun tokens request => tokens.delete request.id) tokens,
          .ok (.done,
            { requests := ledger.requests.filter fun request => !call.owner.ownsRequest request
              grants := ledger.grants.filter fun grant => !call.owner.ownsGrant grant }))

/-- Every update is one of these. -/
theorem update_prepared {environment : Environment} {call : Call} {update : Update}
    (prepared : call.update environment = .ok update) : Prepared environment call update := by
  unfold Call.update at prepared
  cases operation : call.operation with
  | create payload =>
    simp only [operation] at prepared
    obtain ⟨⟨expirySeconds, intent, uiLeaseSeconds⟩, _, rest⟩ := bind_ok prepared
    cases rest
    refine .plain (by rw [operation]; rfl) (fun _ _ => rfl) fun returned => ?_
    simp only [Prod.mk.injEq, Except.ok.injEq] at returned
    obtain ⟨_, _, rfl⟩ := returned
    exact .append (by simp [Call.draws, operation, newRequest]) rfl fun _ member => member
  | prepare payload =>
    simp only [operation] at prepared
    obtain ⟨⟨expirySeconds, intent, uiLeaseSeconds⟩, _, rest⟩ := bind_ok prepared
    cases rest
    refine .plain (by rw [operation]; rfl) (fun ledger tokens => ?_) fun returned => ?_
    · simp only
      split <;> rfl
    · simp only at returned
      split at returned <;> simp only [Prod.mk.injEq, Except.ok.injEq] at returned <;>
        obtain ⟨_, _, rfl⟩ := returned
      · exact .grants fun _ member => (List.mem_filter.mp member).1
      · exact .append (by simp [Call.draws, operation, newRequest]) rfl
          fun _ member => (List.mem_filter.mp member).1
  | claim payload =>
    simp only [operation] at prepared
    obtain ⟨value, accepted, rest⟩ := bind_ok prepared
    cases rest
    obtain rfl := approvalPayload_ok accepted
    exact .claim value operation
  | decide payload =>
    simp only [operation] at prepared
    obtain ⟨value, accepted, rest⟩ := bind_ok prepared
    obtain ⟨decision, decided, rest⟩ := bind_ok rest
    cases rest
    obtain rfl := approvalPayload_ok accepted
    exact .decide value operation decision decided
  | status payload =>
    simp only [operation, Except.ok.injEq] at prepared
    subst prepared
    exact .status payload operation
  | consume payload =>
    simp only [operation] at prepared
    obtain ⟨value, accepted, rest⟩ := bind_ok prepared
    obtain ⟨intent, _, rest⟩ := bind_ok rest
    cases rest
    obtain rfl := approvalPayload_ok accepted
    exact .consume value operation intent
  | nativeApprove payload =>
    simp only [operation] at prepared
    obtain ⟨value, accepted, rest⟩ := bind_ok prepared
    cases rest
    obtain rfl := approvalPayload_ok accepted
    exact .nativeApprove value operation
  | listGrants =>
    simp only [operation, Except.ok.injEq] at prepared
    subst prepared
    refine .plain (by rw [operation]; rfl) (fun _ _ => rfl) fun returned => ?_
    simp only [approvalListGrants, Prod.mk.injEq, Except.ok.injEq] at returned
    obtain ⟨_, _, rfl⟩ := returned
    refine .grants fun grant member => ?_
    obtain ⟨⟨_, index⟩, kept, rfl⟩ := List.mem_map.mp member
    have inside := (List.mem_filter.mp kept).1
    exact (List.mem_zipIdx inside).2.2 ▸ List.getElem_mem _
  | listRequests =>
    simp only [operation, Except.ok.injEq] at prepared
    subst prepared
    exact .listRequests operation
  | revokeGrant payload =>
    simp only [operation] at prepared
    obtain ⟨value, _, rest⟩ := bind_ok prepared
    obtain ⟨id, _, rest⟩ := bind_ok rest
    cases rest
    refine .plain (by rw [operation]; rfl) (fun ledger tokens => ?_) fun returned => ?_
    · split <;> rfl
    · split at returned
      · simp only [Prod.mk.injEq, Except.ok.injEq] at returned
        obtain ⟨_, _, rfl⟩ := returned
        exact .grants fun _ member => List.mem_of_mem_eraseP member
      · simp at returned
  | cancel payload =>
    simp only [operation] at prepared
    obtain ⟨value, accepted, rest⟩ := bind_ok prepared
    cases rest
    obtain rfl := approvalPayload_ok accepted
    exact .cancel value operation
  | cleanupByParentSession payload =>
    simp only [operation] at prepared
    obtain ⟨value, _, rest⟩ := bind_ok prepared
    obtain ⟨parentSessionId, _, rest⟩ := bind_ok rest
    split at rest
    · cases rest
    · cases rest
      exact .cleanupByParentSession payload operation

/-- Every call that returns has one of these effects on the ledger. -/
theorem update_effect {environment : Environment} {call : Call} {update : Update}
    (prepared : call.update environment = .ok update) {ledger after : ApprovalLedger}
    {tokens remaining : Tokens} {reply : Reply}
    (distinct : (ledger.requests.map ApprovalRequest.id).Nodup)
    (returned : update ledger tokens = (remaining, .ok (reply, after))) :
    Effect call ledger tokens after := by
  cases update_prepared prepared with
  | plain operation same changes =>
    cases changes returned with
    | grants fewer => exact fewer_effect fewer
    | append drawn pending fewer => exact append_effect drawn pending fewer
  | claim payload operation =>
    exact withRequest_effect returned fun request changed added _ result =>
      have claimed := claimBody_ok result
      ⟨claimed.1, .inl claimed.2.1⟩
  | decide payload operation decision decided =>
    exact withRequest_effect returned fun request changed added given result =>
      decideBody_ok operation decided given result
  | status payload operation =>
    refine withRequest_effect returned fun request changed added _ result => ?_
    simp only [Prod.mk.injEq, Except.ok.injEq] at result
    obtain ⟨_, _, rfl, rfl⟩ := result
    exact ⟨.refresh call tokens call.clock request, .inl rfl⟩
  | consume payload operation intent =>
    exact withRequest_effect returned fun request changed added _ result =>
      have consumed := consumeBody_ok result
      ⟨consumed.1, .inl consumed.2.1⟩
  | nativeApprove payload operation =>
    exact withRequest_effect returned fun request changed added given result =>
      have approved := nativeBody_ok operation given result
      ⟨approved.1, .inl approved.2⟩
  | cancel payload operation =>
    exact withRequest_effect returned fun request changed added _ result =>
      have cancelled := cancelBody_ok result
      ⟨cancelled.1, .inl cancelled.2⟩
  | listRequests operation =>
    simp only [approvalListRequests, Prod.mk.injEq, Except.ok.injEq] at returned
    obtain ⟨_, _, rfl⟩ := returned
    exact refreshAll_effect call.clock tokens
  | cleanupByParentSession payload operation =>
    simp only [Prod.mk.injEq, Except.ok.injEq] at returned
    obtain ⟨_, _, rfl⟩ := returned
    exact cleanup_effect distinct

/-! ## The claim tokens -/

/-- A claim leaves the tokens to its caller. -/
theorem claimBody_tokens (clock : Clock) (uuid : JsString) (request : ApprovalRequest)
    (grants : List ApprovalGrant) (tokens : Tokens) :
    (claimBody clock uuid request grants tokens).1 = tokens := by
  unfold claimBody
  split <;> rfl

/-- A decision leaves the tokens as they are. -/
theorem decideBody_tokens (owner : OwnerContext) (payload : Js) (decision : Decision)
    (clock : Clock) (uuid : JsString) (request : ApprovalRequest) (grants : List ApprovalGrant)
    (tokens : Tokens) : (decideBody owner payload decision clock uuid request grants tokens).1 =
      tokens := by
  unfold decideBody
  split
  · rfl
  · split
    · rfl
    · split <;> rfl

/-- A use leaves the tokens as they are. -/
theorem consumeBody_tokens (environment : Environment) (owner : OwnerContext) (intent : Intent)
    (clock : Clock) (request : ApprovalRequest) (grants : List ApprovalGrant) (tokens : Tokens) :
    (consumeBody environment owner intent clock request grants tokens).1 = tokens := by
  unfold consumeBody
  split
  · rfl
  · split <;> first | rfl | (split <;> rfl)

/-- A wish for the host's own question leaves the tokens as they are. -/
theorem nativeBody_tokens (clock : Clock) (request : ApprovalRequest) (grants : List ApprovalGrant)
    (tokens : Tokens) : (nativeBody clock request grants tokens).1 = tokens := by
  unfold nativeBody
  split <;> rfl

/-- A token that is left after the deletions was there before them. -/
theorem deleted_some {requests : List ApprovalRequest} {tokens : Tokens} {id token : JsString}
    (held : requests.foldl (fun tokens request => tokens.delete request.id) tokens id =
      some token) : tokens id = some token := by
  induction requests generalizing tokens with
  | nil => exact held
  | cons request rest inductionHypothesis => exact delete_some (inductionHypothesis held)

/-- A body that leaves the claim tokens alone lets the call delete none but expired ones. -/
theorem withRequest_kept {owner : OwnerContext} {payload : Js} {clock : Clock} {body : Body}
    (same : ∀ request grants tokens, (body request grants tokens).1 = tokens)
    {ledger : ApprovalLedger} {tokens : Tokens} {id token : JsString}
    (held : (withRequest owner payload clock body ledger tokens).1 id = some token) :
    tokens id = some token := by
  refine withRequest_tokens ?_ ledger tokens id token held
  intro request grants before id token kept
  rw [same] at kept
  exact kept

/-- Under the lock a call only deletes claim tokens. -/
theorem update_tokens {environment : Environment} {call : Call} {update : Update}
    (prepared : call.update environment = .ok update) {ledger : ApprovalLedger} {tokens : Tokens}
    {id token : JsString} (held : (update ledger tokens).1 id = some token) :
    tokens id = some token := by
  cases update_prepared prepared with
  | plain operation same changes =>
    rw [same] at held
    exact held
  | claim payload operation => exact withRequest_kept (claimBody_tokens _ _) held
  | decide payload operation decision decided =>
    exact withRequest_kept (decideBody_tokens _ _ _ _ _) held
  | status payload operation => exact withRequest_kept (fun _ _ _ => rfl) held
  | consume payload operation intent => exact withRequest_kept (consumeBody_tokens _ _ _ _) held
  | nativeApprove payload operation => exact withRequest_kept (nativeBody_tokens _) held
  | cancel payload operation =>
    refine withRequest_tokens ?_ ledger tokens id token held
    intro request grants before id token kept
    unfold cancelBody at kept
    split at kept
    · exact delete_some kept
    · exact kept
  | listRequests operation => exact refreshAll_some held
  | cleanupByParentSession payload operation => exact deleted_some held

/-- A call that returns has changed the ledger as its update says; one that throws has
left it as it was. Neither brings a claim token in before it releases the ledger. -/
theorem perform_cases (environment : Environment) (daemon : Daemon) (call : Call) :
    (∃ failure, (perform environment daemon call).1 = .error failure ∧
      (perform environment daemon call).2.ledger = daemon.ledger ∧
      (perform environment daemon call).2.changes = daemon.changes ∧
      ∀ id token, (perform environment daemon call).2.tokens id = some token →
        daemon.tokens id = some token) ∨
    ∃ update tokens reply ledger, call.update environment = .ok update ∧
      update daemon.ledger daemon.tokens = (tokens, .ok (reply, ledger)) ∧
      perform environment daemon call =
        (.ok reply, ⟨ledger, tokens, daemon.changes ++ tokenChange call.operation reply⟩) ∧
      ∀ id token, tokens id = some token → daemon.tokens id = some token := by
  unfold perform
  cases prepared : call.update environment with
  | error failure => exact .inl ⟨failure, rfl, rfl, rfl, fun _ _ held => held⟩
  | ok update =>
    have deletes := @update_tokens environment call update prepared daemon.ledger daemon.tokens
    simp only [withApprovals]
    split
    next failure after result =>
      split at result
      · cases result
        exact .inl ⟨_, rfl, rfl, rfl, fun _ _ held => held⟩
      · split at result
        next tokens reason updated =>
          rw [updated] at deletes
          cases result
          exact .inl ⟨_, rfl, rfl, rfl, fun _ _ held => deletes held⟩
        next tokens reply ledger updated =>
          rw [updated] at deletes
          split at result
          · cases result
          · cases result
            exact .inl ⟨_, rfl, rfl, rfl, fun _ _ held => deletes held⟩
    next reply after result =>
      split at result
      · cases result
      · split at result
        · cases result
        next tokens given ledger updated =>
          rw [updated] at deletes
          split at result
          · cases result
            exact .inr ⟨update, tokens, reply, ledger, rfl, updated, rfl,
              fun _ _ held => deletes held⟩
          · cases result

/-! ## Answers -/

/-- What a call of `approvalConsume` has done when it answers. -/
theorem consume_answer {environment : Environment} {call : Call} {payload : Js}
    (operation : call.operation = .consume payload) {update : Update}
    (prepared : call.update environment = .ok update) {ledger after : ApprovalLedger}
    {tokens remaining : Tokens} {answer : ApprovalRequest}
    (returned : update ledger tokens = (remaining, .ok (.request answer, after))) :
    (answer.status = .consumed → ∃ request, ledger.find answer.id = some request ∧
      request.status = .approvedOnce ∧ call.clock 0 < request.expiresAt ∧
      after.find answer.id = some answer) ∧
    (answer.status = .approvedSession →
      Granted ledger.grants call.owner answer.digest answer.capability answer.workdir
        call.clock) := by
  unfold Call.update at prepared
  simp only [operation] at prepared
  obtain ⟨value, _, rest⟩ := bind_ok prepared
  obtain ⟨intent, _, rest⟩ := bind_ok rest
  cases rest
  obtain ⟨request, changed, grants, _, found, _, result, rfl⟩ := withRequest_ok returned
  have facts := @consumeBody_ok environment call call.owner intent call.clock tokens
    (tokens.refresh call.clock request) remaining request changed ledger.grants grants _ result
  refine ⟨?_, fun session => (facts.2.2.2 answer rfl session).2⟩
  intro consumed
  obtain ⟨rfl, approved, early, id⟩ := facts.2.2.1 answer rfl consumed
  rw [id]
  refine ⟨request, found, approved, early, ?_⟩
  rw [← id] at found ⊢
  exact find_replaced found

/-- A preparation is answered with `approved_session` under a grant for what it asks. -/
theorem prepare_answer {environment : Environment} {call : Call} {payload : Js}
    (operation : call.operation = .prepare payload) {update : Update}
    (prepared : call.update environment = .ok update) {ledger after : ApprovalLedger}
    {tokens remaining : Tokens}
    (returned : update ledger tokens = (remaining, .ok (.approvedSession, after))) :
    ∃ expirySeconds intent uiLeaseSeconds,
      approvalTerms environment payload = .ok (expirySeconds, intent, uiLeaseSeconds) ∧
      Granted ledger.grants call.owner (environment.digest intent) intent.capability
        intent.workdir call.clock := by
  unfold Call.update at prepared
  simp only [operation] at prepared
  obtain ⟨⟨expirySeconds, intent, uiLeaseSeconds⟩, terms, rest⟩ := bind_ok prepared
  cases rest
  simp only at returned
  split at returned
  next found =>
    refine ⟨expirySeconds, intent, uiLeaseSeconds, terms, ?_⟩
    obtain ⟨grant, member, covers⟩ := List.any_eq_true.mp found
    obtain ⟨inside, current⟩ := List.mem_filter.mp member
    exact ⟨grant, inside, 0, covers, of_decide_eq_true current⟩
  next => simp at returned

end OpencodePty.Approvals
