import OpencodePty.ApprovalSteps

/-!
# The texts of approval requests

The texts of a request stay as they were when it was entered. What a call changes of a request is
its status and its times, and the only grant that a call adds is one for the request.
-/

namespace OpencodePty.Approvals

open OpencodePty.JsValues

/-- The texts of a request. -/
def ApprovalRequest.texts (request : ApprovalRequest) :
    JsString × JsString × JsString × JsString × JsString × Option JsString × JsString × JsString :=
  (request.id, request.parentSessionId, request.projectDirectory, request.digest, request.command,
    request.reason, request.capability, request.workdir)

section
variable {first second : ApprovalRequest} (same : first.texts = second.texts)
include same

/-- Requests with the same texts have the same id. -/
theorem id_of_texts : first.id = second.id := by
  simp only [ApprovalRequest.texts, Prod.mk.injEq] at same
  exact same.1

/-- Whether a request is well formed depends on its texts only. -/
theorem wellFormed_of_texts : first.wellFormed = second.wellFormed := by
  simp only [ApprovalRequest.texts, Prod.mk.injEq] at same
  simp only [ApprovalRequest.wellFormed, same]

/-- Whose request it is depends on its texts only. -/
theorem owned_of_texts (owner : OwnerContext) :
    owner.ownsRequest first = owner.ownsRequest second := by
  simp only [ApprovalRequest.texts, Prod.mk.injEq] at same
  simp only [OwnerContext.ownsRequest, same]

end

/-- A refresh changes a status and times, but no text. -/
theorem refreshApproval_texts (clock : Clock) (request : ApprovalRequest) :
    (refreshApproval clock request).1.texts = request.texts := by
  unfold refreshApproval
  split
  next => rfl
  next =>
    split
    next => rfl
    next => split <;> rfl

/-! ## Calls on one request -/

/-- The body of a call leaves the texts of its request alone, and adds no grant but one for it. -/
def KeepsTexts (call : Call) (body : Body) : Prop :=
  ∀ {request changed : ApprovalRequest} {grants added : List ApprovalGrant}
    {tokens remaining : Tokens} {reply : Reply},
    body request grants tokens = (remaining, .ok (reply, changed, added)) →
    changed.texts = request.texts ∧
      (added = grants ∨ added = grants ++ [newGrant call.owner request call.clock call.uuid])

/-- A body that hands the request on with the same texts, and no grant, keeps the texts. -/
theorem unchanged_texts {call : Call} {request changed : ApprovalRequest}
    {grants added : List ApprovalGrant} {tokens remaining : Tokens} {reply answer : Reply}
    {kept : ApprovalRequest}
    (result : (tokens, (.ok (answer, kept, grants) :
      Except Failure (Reply × ApprovalRequest × List ApprovalGrant))) =
        (remaining, .ok (reply, changed, added)))
    (same : kept.texts = request.texts) :
    changed.texts = request.texts ∧
      (added = grants ∨ added = grants ++ [newGrant call.owner request call.clock call.uuid]) := by
  simp only [Prod.mk.injEq, Except.ok.injEq] at result
  obtain ⟨_, _, rfl, rfl⟩ := result
  exact ⟨same, .inl rfl⟩

section
variable (call : Call)

/-- A claim changes no text. -/
theorem claimBody_texts : KeepsTexts call (claimBody call.clock call.uuid) := by
  intro request changed grants added tokens remaining reply result
  unfold claimBody at result
  split at result <;> exact unchanged_texts result rfl

/-- A decision changes no text, and its grant has the texts of the request. -/
theorem decideBody_texts (payload : Js) (decision : Decision) :
    KeepsTexts call (decideBody call.owner payload decision call.clock call.uuid) := by
  intro request changed grants added tokens remaining reply result
  unfold decideBody at result
  split at result
  next => simp at result
  next =>
    split at result
    next => simp at result
    next =>
      split at result
      next => exact unchanged_texts result rfl
      next =>
        simp only [Prod.mk.injEq, Except.ok.injEq] at result
        obtain ⟨_, _, rfl, rfl⟩ := result
        refine ⟨rfl, ?_⟩
        split
        next => exact .inr rfl
        next => exact .inl rfl

/-- A look at the status changes no text. -/
theorem statusBody_texts :
    KeepsTexts call fun request grants tokens => (tokens, .ok (.request request, request, grants)) :=
  fun result => unchanged_texts result rfl

/-- A consumption changes no text. -/
theorem consumeBody_texts (environment : Environment) (intent : Intent) :
    KeepsTexts call (consumeBody environment call.owner intent call.clock) := by
  intro request changed grants added tokens remaining reply result
  unfold consumeBody at result
  split at result
  next => simp at result
  next =>
    split at result
    case h_5 => simp at result
    case h_6 | h_7 | h_8 | h_9 => split at result <;> exact unchanged_texts result rfl
    all_goals exact unchanged_texts result rfl

/-- An approval of the host changes no text. -/
theorem nativeBody_texts : KeepsTexts call (nativeBody call.clock) := by
  intro request changed grants added tokens remaining reply result
  unfold nativeBody at result
  split at result <;> exact unchanged_texts result rfl

/-- A cancellation changes no text. -/
theorem cancelBody_texts : KeepsTexts call (cancelBody call.clock) := by
  intro request changed grants added tokens remaining reply result
  unfold cancelBody at result
  split at result <;> exact unchanged_texts result rfl

end

end OpencodePty.Approvals
