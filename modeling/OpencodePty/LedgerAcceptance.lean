import OpencodePty.ApprovalRuns
import OpencodePty.ApprovalTexts

/-!
# Ledgers that can be read again

The daemon enters the texts of a request as they are, and checks every text of the ledger when it
reads it. A text with a surrogate that stands alone passes the checks of a request, but not those of
the ledger. So the daemon can read its own ledger again as long as it has entered no such text. Once
it has, every call on the ledger is rejected before it writes, so that the ledger stays unreadable.
-/

namespace OpencodePty.Approvals

open OpencodePty.JsValues

/-- The request that was entered, if the call enters one. -/
def Entry.entered (entry : Entry) : Option ApprovalRequest :=
  match entry.move, entry.reply with
  | .call call, some (.ok (.request request)) => if call.draws.isSome then some request else none
  | _, _ => none

/-! ## Texts that can be read -/

theorem wellFormed_iff {ledger : ApprovalLedger} :
    ledger.wellFormed = true ↔ (∀ request ∈ ledger.requests, request.wellFormed = true) ∧
      ∀ grant ∈ ledger.grants, grant.wellFormed = true := by
  rw [ApprovalLedger.wellFormed, Bool.and_eq_true, List.all_eq_true, List.all_eq_true]

theorem refreshAll_wellFormed {clock : Clock} {requests : List ApprovalRequest} {tokens : Tokens}
    (valid : ∀ request ∈ requests, request.wellFormed = true) :
    ∀ request ∈ (refreshAll clock requests tokens).1, request.wellFormed = true := by
  induction requests generalizing clock tokens with
  | nil => simp [refreshAll]
  | cons first rest inductionHypothesis =>
    intro request member
    rcases List.mem_cons.mp member with rfl | later
    · rw [wellFormed_of_texts (refreshApproval_texts clock first)]
      exact valid first List.mem_cons_self
    · exact inductionHypothesis (fun other inside => valid other (List.mem_cons_of_mem _ inside))
        request later

theorem replaceRequest_wellFormed {changed : ApprovalRequest} {requests : List ApprovalRequest}
    (intact : changed.wellFormed = true)
    (valid : ∀ request ∈ requests, request.wellFormed = true) :
    ∀ request ∈ replaceRequest changed requests, request.wellFormed = true := by
  induction requests with
  | nil => simp [replaceRequest]
  | cons first rest inductionHypothesis =>
    have remaining : ∀ request ∈ rest, request.wellFormed = true :=
      fun request inside => valid request (List.mem_cons_of_mem _ inside)
    intro request member
    unfold replaceRequest at member
    split at member
    · rcases List.mem_cons.mp member with rfl | later
      · exact intact
      · exact remaining request later
    · rcases List.mem_cons.mp member with rfl | later
      · exact valid _ List.mem_cons_self
      · exact inductionHypothesis remaining request later

theorem newGrant_wellFormed {owner : OwnerContext} {request : ApprovalRequest} {uuid : JsString}
    (clock : Clock) (owned : owner.ownsRequest request = true)
    (valid : request.wellFormed = true) (named : validText uuid = true) :
    (newGrant owner request clock uuid).wellFormed = true := by
  simp only [OwnerContext.ownsRequest, Bool.and_eq_true, decide_eq_true_eq] at owned
  simp only [ApprovalRequest.wellFormed, Bool.and_eq_true] at valid
  simp only [ApprovalGrant.wellFormed, newGrant, Bool.and_eq_true, ← owned.1, ← owned.2]
  obtain ⟨⟨⟨⟨⟨⟨⟨_, parent⟩, project⟩, digest⟩, capability⟩, workdir⟩, _⟩, _⟩ := valid
  exact ⟨⟨⟨⟨⟨named, parent⟩, project⟩, digest⟩, capability⟩, workdir⟩

/-! ## Whole calls -/

/-- A call on one request keeps the ledger readable. -/
theorem withRequest_wellFormed {call : Call} {payload : Js} {body : Body}
    (keeps : KeepsTexts call body) (named : validText call.uuid = true)
    {ledger after : ApprovalLedger} {tokens remaining : Tokens} {reply : Reply}
    (valid : ledger.wellFormed = true)
    (returned : withRequest call.owner payload call.clock body ledger tokens =
      (remaining, .ok (reply, after))) : after.wellFormed = true := by
  obtain ⟨request, changed, grants, _, found, owned, result, rfl⟩ := withRequest_ok returned
  obtain ⟨requests, granted⟩ := wellFormed_iff.mp valid
  have refreshed := refreshApproval_texts call.clock request
  have intact : (refreshApproval call.clock request).1.wellFormed = true := by
    rw [wellFormed_of_texts refreshed]
    exact requests request (find_member found)
  have owns : call.owner.ownsRequest (refreshApproval call.clock request).1 = true := by
    rw [owned_of_texts refreshed, owned]
  obtain ⟨same, added⟩ := keeps result
  have kept : changed.wellFormed = true := (wellFormed_of_texts same).trans intact
  refine wellFormed_iff.mpr ⟨replaceRequest_wellFormed kept requests, ?_⟩
  rcases added with rfl | rfl
  · exact granted
  · intro grant member
    rcases List.mem_append.mp member with earlier | last
    · exact granted grant earlier
    · rw [List.mem_singleton.mp last]
      exact newGrant_wellFormed call.clock owns intact named

theorem appended_wellFormed {ledger : ApprovalLedger} {request : ApprovalRequest}
    {grants : List ApprovalGrant} (valid : ledger.wellFormed = true)
    (fewer : ∀ grant ∈ grants, grant ∈ ledger.grants) :
    ApprovalLedger.wellFormed ⟨ledger.requests ++ [request], grants⟩ = true ↔
      request.wellFormed = true := by
  obtain ⟨requests, granted⟩ := wellFormed_iff.mp valid
  rw [wellFormed_iff]
  constructor
  · exact fun all => all.1 request (List.mem_append_right _ (List.mem_singleton_self request))
  · intro intact
    refine ⟨fun other member => ?_, fun grant member => granted grant (fewer grant member)⟩
    rcases List.mem_append.mp member with earlier | last
    · exact requests other earlier
    · exact List.mem_singleton.mp last ▸ intact

/-- A call that enters a request keeps the ledger readable just where the request is. -/
theorem entering_wellFormed {environment : Environment} {call : Call} {update : Update}
    (prepared : call.update environment = .ok update) (draws : call.draws.isSome = true)
    {ledger after : ApprovalLedger} {tokens remaining : Tokens} {reply : Reply}
    (valid : ledger.wellFormed = true)
    (returned : update ledger tokens = (remaining, .ok (reply, after))) :
    after.wellFormed = true ↔ ∀ request, reply = .request request → request.wellFormed = true := by
  unfold Call.update at prepared
  unfold Call.draws at draws
  cases operation : call.operation with
  | create payload =>
    simp only [operation] at prepared
    obtain ⟨⟨expirySeconds, intent, uiLeaseSeconds⟩, _, rest⟩ := bind_ok prepared
    cases rest
    simp only [Prod.mk.injEq, Except.ok.injEq] at returned
    obtain ⟨_, rfl, rfl⟩ := returned
    rw [appended_wellFormed valid fun _ member => member]
    simp
  | prepare payload =>
    simp only [operation] at prepared
    obtain ⟨⟨expirySeconds, intent, uiLeaseSeconds⟩, _, rest⟩ := bind_ok prepared
    cases rest
    have fewer : ∀ grant ∈ ledger.grants.filter (fun grant => grant.expiresAt > call.clock 0),
        grant ∈ ledger.grants := fun _ member => (List.mem_filter.mp member).1
    simp only at returned
    split at returned <;> simp only [Prod.mk.injEq, Except.ok.injEq] at returned <;>
      obtain ⟨_, rfl, rfl⟩ := returned
    · obtain ⟨requests, granted⟩ := wellFormed_iff.mp valid
      refine iff_of_true ?_ fun request answer => by cases answer
      exact wellFormed_iff.mpr ⟨requests, fun grant member => granted grant (fewer grant member)⟩
    · rw [appended_wellFormed valid fewer]
      simp
  | _ => simp [operation] at draws

/-- Every other call keeps the ledger readable. -/
theorem settling_wellFormed {environment : Environment} {call : Call} {update : Update}
    (prepared : call.update environment = .ok update) (draws : call.draws = none)
    (named : validText call.uuid = true) {ledger after : ApprovalLedger} {tokens remaining : Tokens}
    {reply : Reply} (valid : ledger.wellFormed = true)
    (returned : update ledger tokens = (remaining, .ok (reply, after))) :
    after.wellFormed = true := by
  obtain ⟨requests, granted⟩ := wellFormed_iff.mp valid
  cases update_prepared prepared with
  | plain operation same changes =>
    cases changes returned with
    | grants fewer =>
      exact wellFormed_iff.mpr ⟨requests, fun grant member => granted grant (fewer grant member)⟩
    | append drawn pending fewer => rw [draws] at drawn; cases drawn
  | claim payload operation => exact withRequest_wellFormed (claimBody_texts call) named valid returned
  | decide payload operation decision decided =>
    exact withRequest_wellFormed (decideBody_texts call payload decision) named valid returned
  | status payload operation => exact withRequest_wellFormed (statusBody_texts call) named valid returned
  | consume payload operation intent =>
    exact withRequest_wellFormed (consumeBody_texts call environment intent) named valid returned
  | nativeApprove payload operation =>
    exact withRequest_wellFormed (nativeBody_texts call) named valid returned
  | cancel payload operation => exact withRequest_wellFormed (cancelBody_texts call) named valid returned
  | listRequests operation =>
    simp only [approvalListRequests, Prod.mk.injEq, Except.ok.injEq] at returned
    obtain ⟨_, _, rfl⟩ := returned
    exact wellFormed_iff.mpr ⟨refreshAll_wellFormed requests, granted⟩
  | cleanupByParentSession payload operation =>
    simp only [Prod.mk.injEq, Except.ok.injEq] at returned
    obtain ⟨_, _, rfl⟩ := returned
    refine wellFormed_iff.mpr ⟨fun request member => ?_, fun grant member => ?_⟩
    · exact requests request (List.mem_filter.mp member).1
    · exact granted grant (List.mem_filter.mp member).1

/-- What one move makes of a ledger that can be read. -/
theorem step_wellFormed (environment : Environment) {daemon : Daemon} (move : Move)
    (valid : daemon.ledger.wellFormed = true)
    (named : ∀ call, move = .call call → validText call.uuid = true) :
    (step environment daemon move).2.ledger.wellFormed = true ↔
      ∀ request, (entryOf environment daemon move).entered = some request →
        request.wellFormed = true := by
  cases move with
  | settle index =>
    refine iff_of_true ?_ fun request entered => by cases entered
    simp only [step, Daemon.settle]
    split <;> exact valid
  | restart => exact iff_of_true valid fun request entered => by cases entered
  | call call =>
    rcases perform_cases environment daemon call with
      ⟨failure, failed, same, _⟩ | ⟨update, tokens, reply, ledger, prepared, returned, done, _⟩
    · refine iff_of_true (by rw [step, same, valid]) fun request entered => ?_
      simp [Entry.entered, entryOf, step, failed] at entered
    · have after : (step environment daemon (.call call)).2.ledger = ledger := by rw [step, done]
      have answered : (entryOf environment daemon (.call call)).reply = some (.ok reply) := by
        rw [entryOf, step, done]
      rw [after]
      cases draws : call.draws with
      | none =>
        refine iff_of_true (settling_wellFormed prepared draws (named call rfl) valid returned) ?_
        intro request entered
        rw [Entry.entered, answered] at entered
        cases reply <;> simp [entryOf, draws] at entered
      | some id =>
        rw [entering_wellFormed prepared (by rw [draws]; rfl) valid returned, Entry.entered, answered]
        cases reply <;> simp [entryOf, draws]

/-- A ledger that cannot be read stays as it is, and no call on it succeeds. -/
theorem step_unreadable (environment : Environment) {daemon : Daemon} (move : Move)
    (unreadable : daemon.ledger.wellFormed = false) :
    (step environment daemon move).2.ledger = daemon.ledger ∧
      ∀ reply, (step environment daemon move).1 ≠ some (.ok reply) := by
  cases move with
  | settle index =>
    refine ⟨?_, fun reply => by simp [step]⟩
    simp only [step, Daemon.settle]
    split <;> rfl
  | restart => exact ⟨rfl, fun reply => by simp [step]⟩
  | call call =>
    simp only [step, perform]
    split
    next => exact ⟨rfl, fun reply => by simp⟩
    next => simp [withApprovals, unreadable]

/-! ## Runs -/

/-- The daemon can read its ledger again just where it can read every request that it has entered
by itself. -/
theorem ledger_readable_iff (environment : Environment) (history : List Entry) (daemon : Daemon)
    (run : Run environment history daemon)
    (named : ∀ entry ∈ history, ∀ call, entry.move = .call call → validText call.uuid = true) :
    daemon.ledger.wellFormed = true ↔
      ∀ entry ∈ history, ∀ request, entry.entered = some request → request.wellFormed = true := by
  induction run with
  | initial => exact iff_of_true rfl (by simp)
  | next run move inductionHypothesis =>
    rename_i earlier daemon
    have before := inductionHypothesis fun entry member =>
      named entry (List.mem_append_left _ member)
    have last := named (entryOf environment daemon move)
      (List.mem_append_right _ (List.mem_singleton_self _))
    by_cases valid : daemon.ledger.wellFormed = true
    · rw [step_wellFormed environment move valid last, List.forall_mem_append, List.forall_mem_singleton]
      exact ⟨fun entered => ⟨before.mp valid, entered⟩, fun both => both.2⟩
    · have unreadable : daemon.ledger.wellFormed = false := Bool.not_eq_true _ ▸ valid
      rw [(step_unreadable environment move unreadable).1, List.forall_mem_append]
      exact ⟨fun readable => absurd readable valid, fun all => absurd (before.mpr all.1) valid⟩

/-- A request whose command is a high surrogate alone. -/
def spoiling : Move :=
  .call (plainCall (.create (.obj [("expirySeconds", .int 60), ("command", .str [0xd800]),
    ("capability", .text "c"), ("workdir", .text "w")])))

/-- The daemon after this request was entered. -/
def daemonSpoiled : Daemon := (step plainEnvironment .initial spoiling).2

/-- The daemon enters the request, and can no longer read its ledger. -/
theorem ledger_spoiled : daemonSpoiled.ledger.wellFormed = false := by
  have start : Run plainEnvironment [] Daemon.initial := Run.initial
  have named : ∀ entry ∈ [entryOf plainEnvironment .initial spoiling], ∀ call,
      entry.move = .call call → validText call.uuid = true := by
    intro entry member call same
    obtain rfl := List.mem_singleton.mp member
    cases same
    decide
  have readable := ledger_readable_iff plainEnvironment _ _ (Run.next start spoiling) named
  refine Bool.eq_false_iff.mpr fun valid => ?_
  have intact := readable.mp valid (entryOf plainEnvironment .initial spoiling)
    (List.mem_singleton_self _) _ rfl
  exact absurd intact (by decide)

end OpencodePty.Approvals
