import OpencodePty.ApprovalRuns

/-!
# Claim exclusivity of approvals

A request passes through its stages in one direction: it is pending, it may be claimed, and it
leaves both for good. Over whole runs this makes claims exclusive. A request is issued at most
one claim token, a decision changes a claimed request only when it bears that token and neither
the request nor its lease has expired, and a request that is neither pending nor claimed is not
claimed again.

The tokens are written after the ledger is released, so the stage is read off the ledger alone.
A refresh that ends a lease drops the token it finds, and a token that arrives later belongs to
a request that has left the stages in which it could decide anything.
-/

namespace OpencodePty.Approvals

open OpencodePty.JsValues

/-- How far a request has come: pending, claimed, or past both. -/
def ApprovalStatus.stage : ApprovalStatus → Nat
  | .pending => 0
  | .claimed => 1
  | _ => 2

/-- A later form of a request: the same one, no less far, and with a lease where it is claimed. -/
structure Advances (before after : ApprovalRequest) : Prop where
  id : after.id = before.id
  stage : before.status.stage ≤ after.status.stage
  lease : (before.status = .claimed → before.claimExpiresAt.isSome = true) →
    after.status = .claimed → after.claimExpiresAt.isSome = true

/-- A request that stays has not gone back. -/
theorem Advances.refl (request : ApprovalRequest) : Advances request request :=
  ⟨rfl, Nat.le_refl _, fun leased => leased⟩

/-- What has advanced twice has advanced. -/
theorem Advances.trans {first second third : ApprovalRequest} (one : Advances first second)
    (two : Advances second third) : Advances first third where
  id := two.id.trans one.id
  stage := Nat.le_trans one.stage two.stage
  lease := fun leased => two.lease (one.lease leased)

/-- A form of the request in the last stage. -/
theorem Advances.of_left {before after : ApprovalRequest} (id : after.id = before.id)
    (left : after.status.stage = 2) : Advances before after where
  id := id
  stage := by
    rw [left]
    cases before.status <;> decide
  lease := by
    intro _ claimed
    rw [claimed] at left
    cases left

/-- A refresh does not take a request back. -/
theorem refreshApproval_advances (clock : Clock) (request : ApprovalRequest) :
    Advances request (refreshApproval clock request).1 := by
  obtain ⟨same, _⟩ | ⟨_, id, _, closed⟩ := refreshApproval_cases clock request
  · rw [same]
    exact .refl request
  · refine .of_left id ?_
    obtain expired | fallback := closed
    · rw [expired]
      rfl
    · rw [fallback]
      rfl

/-- A refresh leaves a claimed request alone while neither it nor its lease has expired, and
drops its token otherwise. -/
theorem refreshApproval_claimed (clock : Clock) {request : ApprovalRequest}
    (claimed : request.status = .claimed) :
    (refreshApproval clock request).2 = true ∨
      clock 0 < request.expiresAt ∧ ∀ lease, request.claimExpiresAt = some lease → clock 2 < lease := by
  unfold refreshApproval
  simp only [claimed, ApprovalStatus.isOpen, Bool.true_and, decide_eq_true_eq, reduceCtorEq,
    decide_false, Bool.false_and, Bool.false_eq_true, if_false, decide_true]
  split
  next => exact .inl rfl
  next current =>
    split
    next => exact .inl rfl
    next held =>
      refine .inr ⟨Int.not_le.mp current, ?_⟩
      intro lease same
      simpa [same] using held

/-! ## What the calls make of a request -/

/-- A claim takes a pending request, and only such a claim issues a token. -/
theorem claimBody_advances {clock : Clock} {uuid : JsString} {request changed : ApprovalRequest}
    {grants added : List ApprovalGrant} {held remaining : Tokens} {reply : Reply}
    (result : claimBody clock uuid request grants held = (remaining, .ok (reply, changed, added))) :
    Advances request changed ∧ ∀ claimed token, reply = .claim claimed token →
      claimed = changed ∧ request.status = .pending ∧ changed.status = .claimed := by
  unfold claimBody at result
  simp only [Bool.and_eq_true, decide_eq_true_eq] at result
  split at result
  next free =>
    simp only [Prod.mk.injEq, Except.ok.injEq] at result
    obtain ⟨_, rfl, rfl, _⟩ := result
    have pending : request.status = .pending := free.1.1
    refine ⟨⟨rfl, ?_, fun _ _ => rfl⟩, ?_⟩
    · rw [pending]
      exact Nat.zero_le _
    · intro claimed token same
      cases same
      exact ⟨rfl, pending, rfl⟩
  next =>
    simp only [Prod.mk.injEq, Except.ok.injEq] at result
    obtain ⟨_, rfl, rfl, _⟩ := result
    exact ⟨.refl request, fun _ _ same => by cases same⟩

/-- A decision changes a claimed request when it bears the token that is held for it. -/
theorem decideBody_advances {owner : OwnerContext} {payload : Js} {decision : Decision}
    {clock : Clock} {uuid : JsString} {request changed : ApprovalRequest}
    {grants added : List ApprovalGrant} {held remaining : Tokens} {reply : Reply}
    (result : decideBody owner payload decision clock uuid request grants held =
      (remaining, .ok (reply, changed, added))) :
    Advances request changed ∧ ∃ token, requiredString payload "claimToken" = .ok token ∧
      held request.id = some token ∧ (request.status ≠ .claimed → changed = request) := by
  unfold decideBody at result
  split at result
  · simp at result
  next token bears =>
    split at result
    · simp at result
    next bearing =>
      have issued := Decidable.not_not.mp bearing
      split at result
      next unclaimed =>
        simp only [Prod.mk.injEq, Except.ok.injEq] at result
        obtain ⟨_, rfl, rfl, _⟩ := result
        exact ⟨.refl request, token, bears, issued, fun _ => rfl⟩
      next claimed =>
        simp only [Prod.mk.injEq, Except.ok.injEq] at result
        obtain ⟨_, rfl, rfl, _⟩ := result
        refine ⟨.of_left rfl ?_, token, bears, issued, fun unclaimed => absurd unclaimed claimed⟩
        cases decision <;> rfl

/-- A wish for the host's own question does not take a request back. -/
theorem nativeBody_advances {clock : Clock} {request changed : ApprovalRequest}
    {grants added : List ApprovalGrant} {held remaining : Tokens} {reply : Reply}
    (result : nativeBody clock request grants held = (remaining, .ok (reply, changed, added))) :
    Advances request changed := by
  unfold nativeBody at result
  split at result <;> simp only [Prod.mk.injEq, Except.ok.injEq] at result <;>
    obtain ⟨_, rfl, rfl, _⟩ := result
  · exact .of_left rfl rfl
  · exact .refl request

/-- A cancellation does not take a request back. -/
theorem cancelBody_advances {clock : Clock} {request changed : ApprovalRequest}
    {grants added : List ApprovalGrant} {held remaining : Tokens} {reply : Reply}
    (result : cancelBody clock request grants held = (remaining, .ok (reply, changed, added))) :
    Advances request changed := by
  unfold cancelBody at result
  split at result <;> simp only [Prod.mk.injEq, Except.ok.injEq] at result <;>
    obtain ⟨_, rfl, rfl, _⟩ := result
  · exact .of_left rfl rfl
  · exact .refl request

/-- A use does not take a request back. -/
theorem consumeBody_advances {environment : Environment} {owner : OwnerContext} {intent : Intent}
    {clock : Clock} {request changed : ApprovalRequest} {grants added : List ApprovalGrant}
    {held remaining : Tokens} {reply : Reply}
    (result : consumeBody environment owner intent clock request grants held =
      (remaining, .ok (reply, changed, added))) : Advances request changed := by
  unfold consumeBody at result
  split at result
  · simp at result
  next =>
    cases status : request.status with
    | rejected | cancelled | expired =>
      simp only [status, Prod.mk.injEq, Except.ok.injEq] at result
      obtain ⟨_, _, rfl, _⟩ := result
      exact .refl request
    | consumed => simp [status] at result
    | approvedOnce =>
      simp only [status, Prod.mk.injEq, Except.ok.injEq] at result
      obtain ⟨_, _, rfl, _⟩ := result
      exact .of_left rfl rfl
    | pending | claimed | nativeFallback | approvedSession =>
      simp only [status] at result
      split at result <;> simp only [Prod.mk.injEq, Except.ok.injEq] at result <;>
        obtain ⟨_, _, rfl, _⟩ := result <;> exact .refl request

/-! ## What the calls make of the ledger -/

/-- The requests with other ids are found as before. -/
theorem find_replaceRequest_other {requests : List ApprovalRequest}
    {grants added : List ApprovalGrant} {changed : ApprovalRequest} {id : JsString}
    (other : id ≠ changed.id) :
    ApprovalLedger.find ⟨replaceRequest changed requests, added⟩ id =
      ApprovalLedger.find ⟨requests, grants⟩ id := by
  simp only [ApprovalLedger.find]
  induction requests with
  | nil => rfl
  | cons request rest inductionHypothesis =>
    unfold replaceRequest
    split
    next same =>
      have missed : changed.id ≠ id := other.symm
      simp [same, missed]
    next => simp only [List.find?_cons, inductionHypothesis]

/-- Every request of the later ledger is a later form of one there was, or is entered by the
call. -/
def Keeps (call : Call) (before after : ApprovalLedger) : Prop :=
  ∀ id later, after.find id = some later →
    (∃ earlier, before.find id = some earlier ∧ Advances earlier later) ∨
      call.draws = some id ∧ later.status = .pending

/-- A call on one request keeps all requests that it may keep. -/
theorem keeps_withRequest {call : Call} {owner : OwnerContext} {payload : Js} {clock : Clock}
    {body : Body} {ledger after : ApprovalLedger} {tokens remaining : Tokens} {reply : Reply}
    (returned : withRequest owner payload clock body ledger tokens =
      (remaining, .ok (reply, after)))
    (advances : ∀ request changed grants added held remaining reply,
      body request grants held = (remaining, .ok (reply, changed, added)) →
        Advances request changed) : Keeps call ledger after := by
  obtain ⟨request, changed, grants, given, found, owned, result, rfl⟩ := withRequest_ok returned
  have change : Advances request changed :=
    (refreshApproval_advances clock request).trans (advances _ _ _ _ _ _ _ result)
  intro id later lookedUp
  obtain ⟨same, rfl⟩ | ⟨_, before⟩ := find_replaceRequest ledger.grants lookedUp
  · rw [same, change.id]
    exact .inl ⟨request, found, change⟩
  · exact .inl ⟨later, before, .refl later⟩

/-- A request that is added keeps the others. -/
theorem keeps_append {call : Call} {ledger : ApprovalLedger} {request : ApprovalRequest}
    {grants : List ApprovalGrant} (drawn : call.draws = some request.id)
    (pending : request.status = .pending) :
    Keeps call ledger ⟨ledger.requests ++ [request], grants⟩ := by
  intro id found lookedUp
  simp only [ApprovalLedger.find, List.find?_append] at lookedUp
  cases before : ledger.requests.find? fun request => request.id = id with
  | some earlier =>
    rw [before, Option.some_or, Option.some_inj] at lookedUp
    subst lookedUp
    exact .inl ⟨earlier, before, .refl earlier⟩
  | none =>
    rw [before, Option.none_or, List.find?_singleton] at lookedUp
    split at lookedUp
    next same =>
      cases lookedUp
      exact .inr ⟨by rw [drawn, of_decide_eq_true same], pending⟩
    next => cases lookedUp

/-- A change of the grants keeps the requests. -/
theorem keeps_requests {call : Call} {ledger : ApprovalLedger} {grants : List ApprovalGrant} :
    Keeps call ledger { ledger with grants := grants } :=
  fun _ later found => .inl ⟨later, found, .refl later⟩

/-- Every update keeps the requests. -/
theorem update_keeps {environment : Environment} {call : Call} {update : Update}
    (prepared : call.update environment = .ok update) {ledger after : ApprovalLedger}
    {tokens remaining : Tokens} {reply : Reply}
    (distinct : (ledger.requests.map ApprovalRequest.id).Nodup)
    (returned : update ledger tokens = (remaining, .ok (reply, after))) :
    Keeps call ledger after := by
  cases update_prepared prepared with
  | plain operation same changes =>
    cases changes returned with
    | grants fewer => exact keeps_requests
    | append drawn pending fewer => exact keeps_append drawn pending
  | claim payload operation =>
    exact keeps_withRequest returned fun _ _ _ _ _ _ _ result => (claimBody_advances result).1
  | decide payload operation decision decided =>
    exact keeps_withRequest returned fun _ _ _ _ _ _ _ result => (decideBody_advances result).1
  | status payload operation =>
    refine keeps_withRequest returned fun request changed _ _ _ _ _ result => ?_
    simp only [Prod.mk.injEq, Except.ok.injEq] at result
    obtain ⟨_, _, rfl, _⟩ := result
    exact .refl request
  | consume payload operation intent =>
    exact keeps_withRequest returned fun _ _ _ _ _ _ _ result => consumeBody_advances result
  | nativeApprove payload operation =>
    exact keeps_withRequest returned fun _ _ _ _ _ _ _ result => nativeBody_advances result
  | cancel payload operation =>
    exact keeps_withRequest returned fun _ _ _ _ _ _ _ result => cancelBody_advances result
  | listRequests operation =>
    simp only [approvalListRequests, Prod.mk.injEq, Except.ok.injEq] at returned
    obtain ⟨_, _, rfl⟩ := returned
    intro id request found
    obtain ⟨earlier, later, before, rfl⟩ := refreshAll_find found
    exact .inl ⟨earlier, before, refreshApproval_advances later earlier⟩
  | cleanupByParentSession payload operation =>
    simp only [Prod.mk.injEq, Except.ok.injEq] at returned
    obtain ⟨_, _, rfl⟩ := returned
    intro id request found
    have member : request ∈ ledger.requests := (List.mem_filter.mp (find_member found)).1
    have same := find_id found
    subst same
    exact .inl ⟨request, find_of_member distinct member, .refl request⟩

/-! ## Runs -/

/-- What a history tells of the claims in it. -/
structure Exclusive (history : List Entry) (daemon : Daemon) : Prop where
  leased : ∀ id request, daemon.ledger.find id = some request → request.status = .claimed →
    request.claimExpiresAt.isSome = true
  spent : ∀ id token, ∀ claim ∈ history, claim.Issues id token → id ∈ drawn history ∧
    ∀ request, daemon.ledger.find id = some request → request.status ≠ .pending

/-- An entry that issues a token found its request pending and left it claimed. -/
theorem issues_pending {environment : Environment} {daemon : Daemon} {move : Move}
    {id token : JsString} (issues : (entryOf environment daemon move).Issues id token) :
    (∃ request, daemon.ledger.find id = some request ∧ request.status = .pending) ∧
      ∃ request, (step environment daemon move).2.ledger.find id = some request ∧
        request.status = .claimed := by
  obtain ⟨call, payload, answer, moved, operation, answered, rfl⟩ := issues
  cases moved
  obtain ⟨failure, threw, _⟩ | ⟨update, tokens, reply, ledger, prepared, result, performed, _⟩ :=
    perform_cases environment daemon call
  · simp [entryOf, step, threw] at answered
  · simp only [entryOf, step, performed, Option.some.injEq, Except.ok.injEq] at answered ⊢
    subst answered
    unfold Call.update at prepared
    simp only [operation] at prepared
    obtain ⟨value, _, rest⟩ := bind_ok prepared
    cases rest
    obtain ⟨request, changed, grants, _, found, _, body, rfl⟩ := withRequest_ok result
    obtain ⟨advances, claims⟩ := claimBody_advances body
    obtain ⟨rfl, pending, claimed⟩ := claims answer token rfl
    have same : (refreshApproval call.clock request).1 = request :=
      (refreshApproval_same call.clock request (by simp [pending]) (by simp [pending])).1
    have id : answer.id = request.id := by rw [advances.id, same]
    rw [same] at pending
    rw [id]
    refine ⟨⟨request, found, pending⟩, answer, ?_, claimed⟩
    rw [← id] at found ⊢
    exact find_replaced found

/-- Every request after a move is a later form of one before it, or entered by the move. -/
theorem move_keeps {environment : Environment} {daemon : Daemon}
    (distinct : (daemon.ledger.requests.map ApprovalRequest.id).Nodup) (move : Move)
    {id : JsString} {later : ApprovalRequest}
    (found : (step environment daemon move).2.ledger.find id = some later) :
    (∃ earlier, daemon.ledger.find id = some earlier ∧ Advances earlier later) ∨
      (entryOf environment daemon move).draws = some id ∧ later.status = .pending := by
  cases move with
  | call call =>
    obtain ⟨failure, _, same, _⟩ | ⟨update, tokens, reply, ledger, prepared, result, performed, _⟩ :=
      perform_cases environment daemon call
    · have kept : (step environment daemon (.call call)).2.ledger = daemon.ledger := same
      rw [kept] at found
      exact .inl ⟨later, found, .refl later⟩
    · have changed : (step environment daemon (.call call)).2.ledger = ledger := by
        rw [step, performed]
      rw [changed] at found
      exact update_keeps prepared distinct result id later found
  | settle index =>
    have kept : (step environment daemon (.settle index)).2.ledger = daemon.ledger := by
      simp only [step, Daemon.settle]
      split <;> rfl
    rw [kept] at found
    exact .inl ⟨later, found, .refl later⟩
  | restart => exact .inl ⟨later, found, .refl later⟩

/-- There are three stages. -/
theorem stage_bound (status : ApprovalStatus) : status.stage ≤ 2 := by
  cases status <;> decide

/-- Only a pending request is at the first stage. -/
theorem stage_pending {status : ApprovalStatus} : status.stage = 0 ↔ status = .pending := by
  cases status <;> decide

/-- A request that is neither pending nor claimed is at the last stage. -/
theorem stage_left {status : ApprovalStatus} (pending : status ≠ .pending)
    (claimed : status ≠ .claimed) : status.stage = 2 := by
  cases status with
  | pending => exact absurd rfl pending
  | claimed => exact absurd rfl claimed
  | _ => rfl

/-- The ids that are drawn by the moves of a history, and by one more. -/
theorem drawn_next (history : List Entry) (entry : Entry) :
    drawn (history ++ [entry]) = drawn history ++ entry.draws.toList := by
  rw [drawn, List.filterMap_append]
  cases draws : entry.draws <;> simp [drawn, draws]

/-- A move draws no id that was drawn before. -/
theorem drawn_fresh {history : List Entry} {entry : Entry} {id : JsString}
    (distinct : (drawn (history ++ [entry])).Nodup) (draws : entry.draws = some id) :
    id ∉ drawn history := by
  rw [drawn_next, draws] at distinct
  intro member
  exact (List.nodup_append.mp distinct).2.2 id member id (by simp) rfl

/-- Every run is exclusive, where the ids drawn for requests are distinct. -/
theorem run_exclusive {environment : Environment} {history : List Entry} {daemon : Daemon}
    (run : Run environment history daemon) (distinct : (drawn history).Nodup) :
    Exclusive history daemon := by
  induction run with
  | initial =>
    constructor
    · intro id request found
      cases found
    · intro id token claim member
      cases member
  | @next history daemon run move inductionHypothesis =>
    have earlierDistinct : (drawn history).Nodup := by
      rw [drawn_next] at distinct
      exact (List.nodup_append.mp distinct).1
    have sound := run_sound run earlierDistinct
    have exclusive := inductionHypothesis earlierDistinct
    constructor
    · intro id request found claimed
      obtain ⟨earlier, before, advances⟩ | ⟨_, pending⟩ := move_keeps sound.distinct move found
      · exact advances.lease (exclusive.leased id earlier before) claimed
      · rw [pending] at claimed
        cases claimed
    · intro id token claim member issues
      rw [drawn_next]
      rw [List.mem_append, List.mem_singleton] at member
      obtain old | rfl := member
      · obtain ⟨known, passed⟩ := exclusive.spent id token claim old issues
        refine ⟨List.mem_append_left _ known, ?_⟩
        intro request found pending
        obtain ⟨earlier, before, advances⟩ | ⟨draws, _⟩ := move_keeps sound.distinct move found
        · have bound := advances.stage
          rw [stage_pending.mpr pending, Nat.le_zero] at bound
          exact passed earlier before (stage_pending.mp bound)
        · exact drawn_fresh distinct draws known
      · obtain ⟨⟨earlier, before, _⟩, request, found, claimed⟩ := issues_pending issues
        have known : id ∈ drawn history := by
          apply sound.entered
          exact find_id before ▸ List.mem_map_of_mem (find_member before)
        refine ⟨List.mem_append_left _ known, ?_⟩
        intro other same pending
        rw [found, Option.some_inj] at same
        rw [← same, claimed] at pending
        cases pending

/-- The request with the id has left the stages in which it is pending or claimed, for as long
as it is there. -/
def Daemon.Left (daemon : Daemon) (id : JsString) : Prop :=
  ∀ request, daemon.ledger.find id = some request → request.status.stage = 2

/-- The entry does not claim the request, and leaves it where it is. -/
def Entry.Leaves (entry : Entry) (id : JsString) : Prop :=
  (∀ token, ¬ entry.Issues id token) ∧ entry.after.Left id

/-- A move leaves a request where it is that has left both stages. -/
theorem move_leaves {environment : Environment} {history : List Entry} {daemon : Daemon}
    (sound : Sound history daemon) {move : Move} {id : JsString}
    (distinct : (drawn (history ++ [entryOf environment daemon move])).Nodup)
    (known : id ∈ drawn history) (left : daemon.Left id) :
    (entryOf environment daemon move).Leaves id := by
  constructor
  · intro token issues
    obtain ⟨⟨request, found, pending⟩, _⟩ := issues_pending issues
    have passed := left request found
    rw [pending] at passed
    cases passed
  · intro later found
    obtain ⟨earlier, before, advances⟩ | ⟨draws, _⟩ := move_keeps sound.distinct move found
    · have bound := advances.stage
      rw [left earlier before] at bound
      exact Nat.le_antisymm (stage_bound _) bound
    · exact absurd known (drawn_fresh distinct draws)

/-- A request that has left both stages at some entry stays where it is at all later ones. -/
theorem left_forever {environment : Environment} {history : List Entry} {daemon : Daemon}
    (run : Run environment history daemon) (distinct : (drawn history).Nodup)
    {before after : List Entry} {entry : Entry} (position : history = before ++ entry :: after)
    {id : JsString} {request : ApprovalRequest}
    (found : entry.before.ledger.find id = some request) (left : request.status.stage = 2) :
    daemon.Left id ∧ ∀ other ∈ entry :: after, other.Leaves id := by
  induction run generalizing after with
  | initial => simp at position
  | @next history daemon run move inductionHypothesis =>
    have earlierDistinct : (drawn history).Nodup := by
      rw [drawn_next] at distinct
      exact (List.nodup_append.mp distinct).1
    have sound := run_sound run earlierDistinct
    obtain rfl | ⟨rest, last, rfl⟩ := List.eq_nil_or_concat after
    · obtain ⟨rfl, equal⟩ := List.append_inj' position rfl
      rw [List.cons.injEq] at equal
      obtain ⟨rfl, _⟩ := equal
      have known : id ∈ drawn history := by
        apply sound.entered
        exact find_id found ▸ List.mem_map_of_mem (find_member found)
      have passed : daemon.Left id := by
        intro other same
        have equal : other = request := Option.some_inj.mp (same.symm.trans found)
        rw [equal]
        exact left
      have leaves := move_leaves sound distinct known passed
      refine ⟨leaves.2, ?_⟩
      intro other member
      rw [List.mem_singleton.mp member]
      exact leaves
    · rw [List.concat_eq_append, ← List.cons_append, ← List.append_assoc] at position
      obtain ⟨same, equal⟩ := List.append_inj' position rfl
      rw [List.cons.injEq] at equal
      obtain ⟨rfl, _⟩ := equal
      obtain ⟨passed, others⟩ := inductionHypothesis earlierDistinct same
      have known : id ∈ drawn history := by
        obtain ⟨reached, _⟩ := run.at_entry same
        have inside : (drawn before).Nodup := by
          rw [same, drawn, List.filterMap_append] at earlierDistinct
          exact (List.nodup_append.mp earlierDistinct).1
        have entered := (run_sound reached inside).entered id
          (find_id found ▸ List.mem_map_of_mem (find_member found))
        rw [same, drawn, List.filterMap_append]
        exact List.mem_append_left _ entered
      have leaves := move_leaves sound distinct known passed
      refine ⟨leaves.2, ?_⟩
      intro other member
      rw [List.concat_eq_append, ← List.cons_append, List.mem_append, List.mem_singleton] at member
      obtain old | rfl := member
      · exact others other old
      · exact leaves

/-- A decision that changes a claimed request bears the token that is held for it, while neither
the request nor its lease has expired. -/
theorem decide_changes {environment : Environment} {daemon : Daemon} {call : Call} {payload : Js}
    (operation : call.operation = .decide payload) {request : ApprovalRequest}
    (found : daemon.ledger.find request.id = some request) (claimed : request.status = .claimed)
    (changes : (perform environment daemon call).2.ledger.find request.id ≠ some request) :
    ∃ token, requiredString payload "claimToken" = .ok token ∧
      daemon.tokens request.id = some token ∧ call.clock 0 < request.expiresAt ∧
      ∀ lease, request.claimExpiresAt = some lease → call.clock 2 < lease := by
  obtain ⟨failure, _, same, _⟩ | ⟨update, tokens, reply, ledger, prepared, result, performed, _⟩ :=
    perform_cases environment daemon call
  · rw [same] at changes
    exact absurd found changes
  rw [performed] at changes
  unfold Call.update at prepared
  simp only [operation] at prepared
  obtain ⟨value, accepted, rest⟩ := bind_ok prepared
  obtain ⟨decision, _, rest⟩ := bind_ok rest
  cases rest
  have same := approvalPayload_ok accepted
  subst same
  obtain ⟨given, changed, grants, _, lookedUp, _, body, rfl⟩ := withRequest_ok result
  obtain ⟨advances, token, bears, issued, _⟩ := decideBody_advances body
  have id : changed.id = given.id := advances.id.trans (refreshApproval_id call.clock given)
  by_cases here : request.id = given.id
  · have equal : given = request := by
      rw [← here, found, Option.some_inj] at lookedUp
      exact lookedUp.symm
    subst equal
    rw [refreshApproval_id] at issued
    obtain dropped | ⟨unexpired, leased⟩ := refreshApproval_claimed call.clock claimed
    · rw [Tokens.refresh, if_pos dropped, Tokens.delete, Function.update_self] at issued
      cases issued
    · exact ⟨token, bears, refresh_some issued, unexpired, leased⟩
  · have other : request.id ≠ changed.id := by rwa [id]
    rw [find_replaceRequest_other other] at changes
    exact absurd found changes

/-- In every run each request is issued at most one claim token; a decision changes a claimed
request only when it bears a token that was issued for it, and neither the request nor the lease
of the claim has expired; and a request that is neither pending nor claimed is never claimed
again and never returns to either status. -/
theorem claims_exclusive (environment : Environment) (history : List Entry) (daemon : Daemon)
    (run : Run environment history daemon) (distinct : (drawn history).Nodup)
    (before : List Entry) (entry : Entry) (after : List Entry)
    (position : history = before ++ entry :: after) :
    (∀ id token, entry.Issues id token → ∀ earlier ∈ before, ∀ other, ¬ earlier.Issues id other) ∧
    (∀ call payload request, entry.move = .call call → call.operation = .decide payload →
      entry.before.ledger.find request.id = some request → request.status = .claimed →
      entry.after.ledger.find request.id ≠ some request →
      ∃ token lease, requiredString payload "claimToken" = .ok token ∧
        (∃ claim ∈ before, claim.Issues request.id token) ∧
        request.claimExpiresAt = some lease ∧
        call.clock 0 < request.expiresAt ∧ call.clock 2 < lease) ∧
    ∀ id request, entry.before.ledger.find id = some request → request.status ≠ .pending →
      request.status ≠ .claimed → ∀ other ∈ entry :: after,
        (∀ token, ¬ other.Issues id token) ∧
        ∀ later, other.after.ledger.find id = some later →
          later.status ≠ .pending ∧ later.status ≠ .claimed := by
  obtain ⟨reached, made⟩ := run.at_entry position
  have earlierDistinct : (drawn before).Nodup := by
    rw [position, drawn, List.filterMap_append, List.nodup_append] at distinct
    exact distinct.1
  have sound := run_sound reached earlierDistinct
  have exclusive := run_exclusive reached earlierDistinct
  refine ⟨?_, ?_, ?_⟩
  · intro id token issues earlier member other issued
    rw [made] at issues
    obtain ⟨⟨request, found, pending⟩, _⟩ := issues_pending issues
    exact (exclusive.spent id other earlier member issued).2 request found pending
  · intro call payload request moved operation found claimed changes
    have ledger : entry.after = (perform environment entry.before call).2 := by
      rw [made, moved]
      rfl
    rw [ledger] at changes
    obtain ⟨token, bears, held, unexpired, leased⟩ := decide_changes operation found claimed changes
    obtain ⟨lease, leaseHeld⟩ := Option.isSome_iff_exists.mp
      (exclusive.leased request.id request found claimed)
    exact ⟨token, lease, bears, sound.tokens request.id token held, leaseHeld, unexpired,
      leased lease leaseHeld⟩
  · intro id request found pending claimed other member
    have left : request.status.stage = 2 := stage_left pending claimed
    obtain ⟨unclaimed, passed⟩ := (left_forever run distinct position found left).2 other member
    refine ⟨unclaimed, ?_⟩
    intro later lookedUp
    have stage := passed later lookedUp
    constructor
    · intro pending
      rw [pending] at stage
      cases stage
    · intro claimed
      rw [claimed] at stage
      cases stage

/-- The request is entered for a user interface, and claimed by it. -/
def claimedOnce : Move × Move :=
  (.call (plainCall (.create (.obj
      (("expirySeconds", .int 60) :: ("uiLeaseSeconds", .int 2) :: plainIntent)))),
    .call (plainCall (.claim (.obj [("id", .text "1")]))))

/-- The daemon after the request was entered. -/
def daemonEntered : Daemon := (step plainEnvironment .initial claimedOnce.1).2

/-- The daemon after the request was claimed. -/
def daemonClaimed : Daemon := (step plainEnvironment daemonEntered claimedOnce.2).2

/-- A second claim of a claimed request issues no token. -/
theorem claims_exclusive_second_claim :
    (entryOf plainEnvironment daemonEntered claimedOnce.2).Issues (js "1") (js "1") ∧
      ∀ token, ¬ (entryOf plainEnvironment daemonClaimed claimedOnce.2).Issues (js "1") token := by
  have issues : (entryOf plainEnvironment daemonEntered claimedOnce.2).Issues (js "1") (js "1") :=
    ⟨_, _, _, rfl, rfl, rfl, rfl⟩
  have start : Run plainEnvironment [] Daemon.initial := Run.initial
  have run := Run.next (Run.next (Run.next start claimedOnce.1) claimedOnce.2) claimedOnce.2
  have exclusive := claims_exclusive plainEnvironment _ _ run (by decide) [_, _] _ [] rfl
  refine ⟨issues, ?_⟩
  intro token again
  exact exclusive.1 _ token again _ (List.mem_cons_of_mem _ (List.mem_singleton_self _)) _ issues

end OpencodePty.Approvals
