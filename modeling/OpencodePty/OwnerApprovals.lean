import Mathlib.Data.List.Forall2
import Mathlib.Logic.Relation
import OpencodePty.ApprovalRuns
import OpencodePty.ApprovalTexts
import OpencodePty.Transitions

/-!
# The approvals of one owner among others

The ledger is shared by all owners. What the calls of others make of the requests of an owner is at
most what the clock makes of them: some are refreshed, and so expire or fall back to a native
question. None is approved, rejected, consumed, cancelled or removed, none is added, and only grants
that have expired are dropped.
-/

namespace OpencodePty.Approvals

open OpencodePty.JsValues OpencodePty.Transitions

/-- What some refreshes make of a request, at times at which the calls read the clock. -/
def Lapses (moves : List Move) : ApprovalRequest → ApprovalRequest → Prop :=
  Relation.ReflTransGen fun before after => ∃ call reading, Move.call call ∈ moves ∧
    after = (refreshApproval (call.clock.after reading) before).1

/-- A call has seen that a grant has expired. -/
def Expired (moves : List Move) (grant : ApprovalGrant) : Prop :=
  ∃ call reading, Move.call call ∈ moves ∧ grant.expiresAt ≤ call.clock reading

/-- What some moves leave of the approvals of an owner. -/
structure LeftAlone (owner : OwnerContext) (moves : List Move) (before after : ApprovalLedger) :
    Prop where
  requests : List.Forall₂ (Lapses moves) (before.requests.filter owner.ownsRequest)
    (after.requests.filter owner.ownsRequest)
  grants : (after.grants.filter owner.ownsGrant).Sublist (before.grants.filter owner.ownsGrant)
  expired : ∀ grant ∈ before.grants, owner.ownsGrant grant = true →
    grant ∈ after.grants ∨ Expired moves grant

variable {owner : OwnerContext} {moves : List Move} {ledger : ApprovalLedger}

theorem lapses_same (requests : List ApprovalRequest) :
    List.Forall₂ (Lapses moves) requests requests :=
  List.forall₂_same.mpr fun _ _ => Relation.ReflTransGen.refl

theorem lapses_trans {first second third : List ApprovalRequest}
    (one : List.Forall₂ (Lapses moves) first second)
    (two : List.Forall₂ (Lapses moves) second third) : List.Forall₂ (Lapses moves) first third := by
  induction one generalizing third with
  | nil => exact two
  | cons lapsed rest inductionHypothesis =>
    cases two with
    | cons further remaining =>
      exact .cons (Relation.ReflTransGen.trans lapsed further) (inductionHypothesis remaining)

theorem LeftAlone.refl (owner : OwnerContext) (moves : List Move) (ledger : ApprovalLedger) :
    LeftAlone owner moves ledger ledger where
  requests := lapses_same _
  grants := List.Sublist.refl _
  expired := fun _ member _ => .inl member

theorem LeftAlone.more {others : List Move} (fewer : ∀ move ∈ moves, move ∈ others)
    {before after : ApprovalLedger} (alone : LeftAlone owner moves before after) :
    LeftAlone owner others before after where
  requests := by
    refine alone.requests.imp fun request lapsed paths => ?_
    refine Relation.ReflTransGen.mono ?_ _ _ paths
    rintro _ _ ⟨call, reading, member, same⟩
    exact ⟨call, reading, fewer _ member, same⟩
  grants := alone.grants
  expired := by
    intro grant member owned
    rcases alone.expired grant member owned with kept | ⟨call, reading, made, late⟩
    · exact .inl kept
    · exact .inr ⟨call, reading, fewer _ made, late⟩

theorem LeftAlone.trans {first second third : ApprovalLedger}
    (one : LeftAlone owner moves first second) (two : LeftAlone owner moves second third) :
    LeftAlone owner moves first third where
  requests := lapses_trans one.requests two.requests
  grants := two.grants.trans one.grants
  expired := by
    intro grant member owned
    rcases one.expired grant member owned with kept | expired
    · exact two.expired grant kept owned
    · exact .inr expired

/-! ## Calls of others -/

section
variable {other : OwnerContext} (apart : other ≠ owner)
include apart

theorem foreign_request {request : ApprovalRequest} (owned : other.ownsRequest request = true) :
    owner.ownsRequest request = false := by
  by_contra mine
  rw [Bool.not_eq_false] at mine
  simp only [OwnerContext.ownsRequest, Bool.and_eq_true, decide_eq_true_eq] at owned mine
  exact apart (congrArg₂ OwnerContext.mk (owned.1.symm.trans mine.1) (owned.2.symm.trans mine.2))

theorem foreign_grant {grant : ApprovalGrant} (owned : other.ownsGrant grant = true) :
    owner.ownsGrant grant = false := by
  by_contra mine
  rw [Bool.not_eq_false] at mine
  simp only [OwnerContext.ownsGrant, Bool.and_eq_true, decide_eq_true_eq] at owned mine
  exact apart (congrArg₂ OwnerContext.mk (owned.1.symm.trans mine.1) (owned.2.symm.trans mine.2))

end

/-- A request of somebody else is changed in place. -/
theorem filter_replaceRequest {changed found : ApprovalRequest} {requests : List ApprovalRequest}
    (foreign : owner.ownsRequest changed = false) (others : owner.ownsRequest found = false)
    (there : requests.find? (fun request => request.id = changed.id) = some found) :
    (replaceRequest changed requests).filter owner.ownsRequest =
      requests.filter owner.ownsRequest := by
  induction requests with
  | nil => rfl
  | cons first rest inductionHypothesis =>
    rw [List.find?_cons] at there
    unfold replaceRequest
    split
    next same =>
      simp only [same, decide_true, Option.some.injEq] at there
      rw [List.filter_cons_of_neg (by simp [foreign]), List.filter_cons_of_neg (by simp [there, others])]
    next different =>
      simp only [different, decide_false] at there
      rw [List.filter_cons, List.filter_cons, inductionHypothesis there]

theorem after_after (clock : Clock) (first second : Nat) :
    (clock.after first).after second = clock.after (first + second) := by
  funext index
  rw [Clock.after, Clock.after, Clock.after, Nat.add_assoc]

/-- All requests are refreshed, those of an owner among them. -/
theorem filter_refreshAll {call : Call} (made : Move.call call ∈ moves) (reading : Nat)
    (requests : List ApprovalRequest) (tokens : Tokens) :
    List.Forall₂ (Lapses moves) (requests.filter owner.ownsRequest)
      ((refreshAll (call.clock.after reading) requests tokens).1.filter owner.ownsRequest) := by
  induction requests generalizing reading tokens with
  | nil => exact .nil
  | cons first rest inductionHypothesis =>
    have later := inductionHypothesis (reading + 4)
      (tokens.refresh (call.clock.after reading) first)
    have same := owned_of_texts (refreshApproval_texts (call.clock.after reading) first) owner
    rw [← after_after] at later
    by_cases mine : owner.ownsRequest first = true
    · rw [List.filter_cons_of_pos mine, refreshAll, List.filter_cons_of_pos (same.trans mine)]
      exact .cons (.single ⟨call, reading, made, rfl⟩) later
    · rw [List.filter_cons_of_neg mine, refreshAll, List.filter_cons_of_neg (by rwa [same])]
      exact later

/-- A ledger that lost none of the requests of an owner, and only grants that have expired. -/
theorem leftAlone_fewer {grants : List ApprovalGrant} {requests : List ApprovalRequest}
    (same : requests.filter owner.ownsRequest = ledger.requests.filter owner.ownsRequest)
    (fewer : grants.Sublist ledger.grants)
    (expired : ∀ grant ∈ ledger.grants, owner.ownsGrant grant = true →
      grant ∈ grants ∨ Expired moves grant) :
    LeftAlone owner moves ledger ⟨requests, grants⟩ where
  requests := same ▸ lapses_same _
  grants := fewer.filter _
  expired := expired

section
variable {call : Call} (apart : call.owner ≠ owner)
include apart

theorem withRequest_alone {payload : Js} {body : Body} (keeps : KeepsTexts call body)
    {after : ApprovalLedger} {tokens remaining : Tokens} {reply : Reply}
    (returned : withRequest call.owner payload call.clock body ledger tokens =
      (remaining, .ok (reply, after))) : LeftAlone owner moves ledger after := by
  obtain ⟨request, changed, grants, _, found, owned, result, rfl⟩ := withRequest_ok returned
  have refreshed := refreshApproval_texts call.clock request
  obtain ⟨same, added⟩ := keeps result
  have texts : changed.texts = request.texts := same.trans refreshed
  have others := foreign_request apart owned
  have foreign : owner.ownsRequest changed = false := by rw [owned_of_texts texts, others]
  have there : ledger.requests.find? (fun entry => entry.id = changed.id) = some request := by
    rw [id_of_texts texts]
    exact found
  have requests := filter_replaceRequest foreign others there
  rcases added with rfl | rfl
  · exact leftAlone_fewer requests (List.Sublist.refl _) fun _ member _ => .inl member
  · have new := @foreign_grant owner call.owner apart
      (newGrant call.owner (refreshApproval call.clock request).1 call.clock call.uuid)
      (by simp [OwnerContext.ownsGrant, newGrant])
    constructor
    · exact requests ▸ lapses_same _
    · rw [List.filter_append, List.filter_cons_of_neg (by simp [new]), List.filter_nil,
        List.append_nil]
    · exact fun grant member _ => .inl (List.mem_append_left _ member)

/-- A new request belongs to the owner that makes the call. -/
theorem newRequest_foreign (environment : Environment) (intent : Intent) (expirySeconds : Int)
    (uiLeaseSeconds : Option Int) : owner.ownsRequest
      (newRequest environment call.owner intent expirySeconds uiLeaseSeconds call.clock call.uuid) =
        false :=
  foreign_request apart (by simp [OwnerContext.ownsRequest, newRequest])

/-- Calls that enter a request or remove grants remove no grant of another owner that is valid. -/
theorem plain_alone {environment : Environment} {update : Update} (made : Move.call call ∈ moves)
    (prepared : call.update environment = .ok update) (plain : call.operation.isPlain = true)
    {after : ApprovalLedger} {tokens remaining : Tokens} {reply : Reply}
    (returned : update ledger tokens = (remaining, .ok (reply, after))) :
    LeftAlone owner moves ledger after := by
  have entered {request : ApprovalRequest} (foreign : owner.ownsRequest request = false) :
      (ledger.requests ++ [request]).filter owner.ownsRequest =
        ledger.requests.filter owner.ownsRequest := by
    rw [List.filter_append, List.filter_cons_of_neg (by simp [foreign]), List.filter_nil,
      List.append_nil]
  unfold Call.update at prepared
  cases operation : call.operation with
  | create payload =>
    simp only [operation] at prepared
    obtain ⟨⟨expirySeconds, intent, uiLeaseSeconds⟩, _, rest⟩ := bind_ok prepared
    cases rest
    simp only [Prod.mk.injEq, Except.ok.injEq] at returned
    obtain ⟨_, _, rfl⟩ := returned
    exact leftAlone_fewer (entered (newRequest_foreign apart _ _ _ _)) (List.Sublist.refl _)
      fun _ member _ => .inl member
  | prepare payload =>
    simp only [operation] at prepared
    obtain ⟨⟨expirySeconds, intent, uiLeaseSeconds⟩, _, rest⟩ := bind_ok prepared
    cases rest
    have expired : ∀ grant ∈ ledger.grants, owner.ownsGrant grant = true →
        grant ∈ ledger.grants.filter (fun grant => grant.expiresAt > call.clock 0) ∨
          Expired moves grant := by
      intro grant member _
      by_cases valid : grant.expiresAt > call.clock 0
      · exact .inl (List.mem_filter.mpr ⟨member, decide_eq_true valid⟩)
      · exact .inr ⟨call, 0, made, Int.not_lt.mp valid⟩
    simp only at returned
    split at returned <;> simp only [Prod.mk.injEq, Except.ok.injEq] at returned <;>
      obtain ⟨_, _, rfl⟩ := returned
    · exact leftAlone_fewer rfl List.filter_sublist expired
    · exact leftAlone_fewer (entered (newRequest_foreign apart _ _ _ _)) List.filter_sublist expired
  | listGrants =>
    simp only [operation, Except.ok.injEq] at prepared
    subst prepared
    simp only [approvalListGrants, Prod.mk.injEq, Except.ok.injEq] at returned
    obtain ⟨_, _, rfl⟩ := returned
    refine leftAlone_fewer rfl ?_ fun grant member _ => ?_
    · have fewer := (@List.filter_sublist _ (fun entry : ApprovalGrant × Nat =>
        entry.1.expiresAt > call.clock entry.2) ledger.grants.zipIdx).map Prod.fst
      rwa [List.zipIdx_map_fst] at fewer
    · obtain ⟨index, inside, rfl⟩ := List.mem_iff_getElem.mp member
      by_cases valid : ledger.grants[index].expiresAt > call.clock index
      · refine .inl (List.mem_map.mpr ⟨(ledger.grants[index], index), ?_, rfl⟩)
        refine List.mem_filter.mpr ⟨?_, decide_eq_true valid⟩
        exact List.mk_mem_zipIdx_iff_getElem?.mpr (List.getElem?_eq_getElem inside)
      · exact .inr ⟨call, index, made, Int.not_lt.mp valid⟩
  | revokeGrant payload =>
    simp only [operation] at prepared
    obtain ⟨value, _, rest⟩ := bind_ok prepared
    obtain ⟨id, _, rest⟩ := bind_ok rest
    cases rest
    simp only at returned
    split at returned
    · simp only [Prod.mk.injEq, Except.ok.injEq] at returned
      obtain ⟨_, _, rfl⟩ := returned
      refine leftAlone_fewer rfl List.eraseP_sublist fun grant member owned => ?_
      have others : call.owner.ownsGrant grant = false := foreign_grant apart.symm owned
      exact .inl ((List.mem_eraseP_of_neg (by simp [others])).mpr member)
    · simp at returned
  | _ => simp [operation, Operation.isPlain] at plain

/-- What a call of another owner leaves of the approvals of an owner. -/
theorem update_alone {environment : Environment} {update : Update} (made : Move.call call ∈ moves)
    (prepared : call.update environment = .ok update) {after : ApprovalLedger}
    {tokens remaining : Tokens} {reply : Reply}
    (returned : update ledger tokens = (remaining, .ok (reply, after))) :
    LeftAlone owner moves ledger after := by
  cases update_prepared prepared with
  | plain operation same changes => exact plain_alone apart made prepared operation returned
  | claim payload operation => exact withRequest_alone apart (claimBody_texts call) returned
  | decide payload operation decision decided =>
    exact withRequest_alone apart (decideBody_texts call payload decision) returned
  | status payload operation => exact withRequest_alone apart (statusBody_texts call) returned
  | consume payload operation intent =>
    exact withRequest_alone apart (consumeBody_texts call environment intent) returned
  | nativeApprove payload operation => exact withRequest_alone apart (nativeBody_texts call) returned
  | cancel payload operation => exact withRequest_alone apart (cancelBody_texts call) returned
  | listRequests operation =>
    simp only [approvalListRequests, Prod.mk.injEq, Except.ok.injEq] at returned
    obtain ⟨_, _, rfl⟩ := returned
    have refreshed := @filter_refreshAll owner moves call made 0 ledger.requests tokens
    have start : call.clock.after 0 = call.clock := by
      funext index
      rw [Clock.after, Nat.zero_add]
    rw [start] at refreshed
    exact ⟨refreshed, List.Sublist.refl _, fun _ member _ => .inl member⟩
  | cleanupByParentSession payload operation =>
    simp only [Prod.mk.injEq, Except.ok.injEq] at returned
    obtain ⟨_, _, rfl⟩ := returned
    refine leftAlone_fewer ?_ List.filter_sublist fun grant member owned => .inl ?_
    · rw [List.filter_filter]
      refine List.filter_congr fun request _ => ?_
      by_cases owned : owner.ownsRequest request = true
      · simp [owned, foreign_request apart.symm owned]
      · simp [Bool.not_eq_true _ ▸ owned]
    · exact List.mem_filter.mpr ⟨member, by simp [foreign_grant apart.symm owned]⟩

end

/-! ## Runs -/

/-- What a move leaves of the approvals of an owner that does not make it. -/
theorem step_alone (environment : Environment) (daemon : Daemon) (move : Move)
    (others : ∀ call, move = .call call → call.owner ≠ owner) :
    LeftAlone owner [move] daemon.ledger (step environment daemon move).2.ledger := by
  cases move with
  | settle index =>
    have same : (step environment daemon (.settle index)).2.ledger = daemon.ledger := by
      simp only [step, Daemon.settle]
      split <;> rfl
    rw [same]
    exact LeftAlone.refl owner _ daemon.ledger
  | restart => exact LeftAlone.refl owner _ daemon.ledger
  | call call =>
    rcases perform_cases environment daemon call with
      ⟨failure, failed, same, _⟩ | ⟨update, tokens, reply, ledger, prepared, returned, done, _⟩
    · rw [step, same]
      exact LeftAlone.refl owner _ daemon.ledger
    · rw [step, done]
      exact update_alone (others call rfl) (List.mem_singleton_self _) prepared returned

/-- Whatever other owners call, and however often the daemon restarts, the requests of an owner stay
in the ledger in their order, changed by nothing but the clock, no others are entered for it, and of
its grants only those are gone that have expired. -/
theorem others_keep_approvals (environment : Environment) (owner : OwnerContext) (daemon : Daemon)
    (moves : List Move) (others : ∀ call, Move.call call ∈ moves → call.owner ≠ owner) :
    LeftAlone owner moves daemon.ledger
      (run (fun daemon move => (step environment daemon move).2) daemon moves).ledger := by
  induction moves generalizing daemon with
  | nil => exact LeftAlone.refl owner [] daemon.ledger
  | cons move rest inductionHypothesis =>
    have first := @step_alone owner environment daemon move fun call same =>
      others call (same ▸ List.mem_cons_self)
    have later := inductionHypothesis (step environment daemon move).2 fun call member =>
      others call (List.mem_cons_of_mem _ member)
    rw [run_cons]
    exact (first.more fun other member => List.mem_singleton.mp member ▸ List.mem_cons_self).trans
      (later.more fun other member => List.mem_cons_of_mem _ member)

/-- Another owner tries to cancel a request, and lists its own once that one has expired. -/
def intrusion : List Move :=
  [.call ⟨⟨js "t", js "q"⟩, .cancel (.obj [("id", .text "1")]), fun _ => 1000, js "2", true⟩,
    .call ⟨⟨js "t", js "q"⟩, .listRequests, fun _ => 60000, js "3", true⟩]

/-- The request stays in the ledger, and has expired. -/
theorem intrusion_keeps_approvals :
    LeftAlone ⟨js "s", js "p"⟩ intrusion daemonCreated.ledger
      (run (fun daemon move => (step plainEnvironment daemon move).2) daemonCreated
        intrusion).ledger := by
  refine others_keep_approvals plainEnvironment _ daemonCreated intrusion fun call member => ?_
  simp only [intrusion, List.mem_cons, Move.call.injEq, List.not_mem_nil, or_false] at member
  rcases member with rfl | rfl <;> decide

end OpencodePty.Approvals
