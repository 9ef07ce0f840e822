import OpencodePty.ApprovalSteps

/-!
# Soundness of approvals over whole runs

A run of the daemon is the history of its moves: calls of any owners in any order, changes
of claim tokens that were due, and restarts, which lose the tokens. A request is answered
`consumed` at most once, and only after it was approved and while it has stayed approved;
`approved_session` is answered only under a grant that is there and has not expired. The
UUIDs that the daemon draws for requests are distinct. Nothing is asked of the clock.
-/

namespace OpencodePty.Approvals

open OpencodePty.JsValues

/-- One move of a run, with the daemon before and after it. -/
structure Entry where
  before : Daemon
  move : Move
  reply : Option (Except Failure Reply)
  after : Daemon

/-- The entry of a move. -/
def entryOf (environment : Environment) (daemon : Daemon) (move : Move) : Entry :=
  ⟨daemon, move, (step environment daemon move).1, (step environment daemon move).2⟩

/-- The histories that lead to a daemon. -/
inductive Run (environment : Environment) : List Entry → Daemon → Prop
  | initial : Run environment [] Daemon.initial
  | next {history : List Entry} {daemon : Daemon} (run : Run environment history daemon)
      (move : Move) :
      Run environment (history ++ [entryOf environment daemon move])
        (step environment daemon move).2

/-- The id of the request that a move may enter. -/
def Entry.draws (entry : Entry) : Option JsString :=
  match entry.move with
  | .call call => call.draws
  | _ => none

/-- The ids drawn in a history. -/
def drawn (history : List Entry) : List JsString := history.filterMap Entry.draws

/-- The entry is a claim that issued a token for a request. -/
def Entry.Issues (entry : Entry) (id token : JsString) : Prop :=
  ∃ call payload request, entry.move = .call call ∧ call.operation = .claim payload ∧
    entry.reply = some (.ok (.claim request token)) ∧ request.id = id

/-- The token that is held for a request was issued for it before. -/
def HoldsIssued (earlier : List Entry) (daemon : Daemon) (id : JsString) : Prop :=
  ∀ token, daemon.tokens id = some token → ∃ claim ∈ earlier, claim.Issues id token

/-- The entry approves a request for one use, with an issued token if it decides. -/
def Entry.ApprovesOnce (entry : Entry) (earlier : List Entry) (id : JsString) : Prop :=
  ∃ call request, entry.move = .call call ∧ entry.before.ledger.find id = some request ∧
    Approves call entry.before.tokens request ∧ HoldsIssued earlier entry.before id

/-- The entry approves a request of the same owner for the session, and leaves this grant. -/
def Entry.GrantsSession (entry : Entry) (earlier : List Entry) (grant : ApprovalGrant) : Prop :=
  ∃ call request, entry.move = .call call ∧
    entry.before.ledger.find request.id = some request ∧
    ApprovesSession call entry.before.tokens request ∧
    HoldsIssued earlier entry.before request.id ∧
    call.owner.ownsRequest request = true ∧ call.owner.ownsGrant grant = true ∧
    grant.digest = request.digest ∧ grant.capability = request.capability ∧
    grant.workdir = request.workdir

/-- The entry answers that a request is consumed. -/
def Entry.Consumes (entry : Entry) (id : JsString) : Prop :=
  ∃ call payload request, entry.move = .call call ∧ call.operation = .consume payload ∧
    entry.reply = some (.ok (.request request)) ∧ request.status = .consumed ∧ request.id = id

/-- The daemon has a request that is approved for one use. -/
def Daemon.Approved (daemon : Daemon) (id : JsString) : Prop :=
  ∃ request, daemon.ledger.find id = some request ∧ request.status = .approvedOnce

/-- What a history tells of the daemon it leads to. -/
structure Sound (history : List Entry) (daemon : Daemon) : Prop where
  distinct : (daemon.ledger.requests.map ApprovalRequest.id).Nodup
  entered : ∀ id ∈ daemon.ledger.requests.map ApprovalRequest.id, id ∈ drawn history
  tokens : ∀ id, HoldsIssued history daemon id
  changes : ∀ change ∈ daemon.changes, ∀ token, change.claimToken = some token →
    ∃ claim ∈ history, claim.Issues change.id token
  grants : ∀ grant ∈ daemon.ledger.grants, ∃ earlier entry later,
    history = earlier ++ entry :: later ∧ entry.GrantsSession earlier grant
  approved : ∀ id, daemon.Approved id → ∃ earlier entry later,
    history = earlier ++ entry :: later ∧ entry.ApprovesOnce earlier id ∧
      ∀ other ∈ entry :: later, other.after.Approved id
  consumed : ∀ id, ∀ entry ∈ history, entry.Consumes id → id ∈ drawn history ∧
    ∀ request, daemon.ledger.find id = some request → request.status = .consumed

theorem sound_initial : Sound [] Daemon.initial where
  distinct := List.nodup_nil
  entered := by simp [Daemon.initial]
  tokens := by simp [HoldsIssued, Daemon.initial]
  changes := by simp [Daemon.initial]
  grants := by simp [Daemon.initial]
  approved := by simp [Daemon.Approved, Daemon.initial, ApprovalLedger.find]
  consumed := by simp

/-- A move that changes only the claim tokens, to some that were issued. -/
theorem Sound.tokens_only {history : List Entry} {daemon : Daemon} (sound : Sound history daemon)
    (entry : Entry) (same : entry.after.ledger = daemon.ledger)
    (nothing : ∀ id, ¬ entry.Consumes id)
    (held : ∀ id, HoldsIssued history entry.after id)
    (due : ∀ change ∈ entry.after.changes, ∀ token, change.claimToken = some token →
      ∃ claim ∈ history, claim.Issues change.id token) :
    Sound (history ++ [entry]) entry.after where
  distinct := by
    rw [same]
    exact sound.distinct
  entered := by
    intro id member
    rw [same] at member
    rw [drawn, List.filterMap_append]
    exact List.mem_append_left _ (sound.entered id member)
  tokens := by
    intro id token holding
    obtain ⟨claim, member, issues⟩ := held id token holding
    exact ⟨claim, List.mem_append_left _ member, issues⟩
  changes := by
    intro change member token given
    obtain ⟨claim, inside, issues⟩ := due change member token given
    exact ⟨claim, List.mem_append_left _ inside, issues⟩
  grants := by
    intro grant member
    rw [same] at member
    obtain ⟨earlier, decision, later, rfl, granting⟩ := sound.grants grant member
    exact ⟨earlier, decision, later ++ [entry], by simp, granting⟩
  approved := by
    intro id approved
    have before : daemon.Approved id := by
      unfold Daemon.Approved at approved ⊢
      rwa [same] at approved
    obtain ⟨earlier, approval, later, rfl, approving, since⟩ := sound.approved id before
    refine ⟨earlier, approval, later ++ [entry], by simp, approving, ?_⟩
    intro other member
    rw [← List.cons_append, List.mem_append, List.mem_singleton] at member
    rcases member with old | new
    · exact since other old
    · rw [new]
      exact approved
  consumed := by
    intro id other member consumes
    rw [List.mem_append, List.mem_singleton] at member
    rcases member with old | new
    · obtain ⟨known, stays⟩ := sound.consumed id other old consumes
      rw [same]
      refine ⟨?_, stays⟩
      rw [drawn, List.filterMap_append]
      exact List.mem_append_left _ known
    · exact absurd (new ▸ consumes) (nothing id)

/-- A call that returns. -/
theorem Sound.returned {environment : Environment} {history : List Entry} {daemon : Daemon}
    (sound : Sound history daemon) {call : Call} {entry : Entry}
    (moved : entry.move = .call call) (start : entry.before = daemon)
    (fresh : ∀ id, call.draws = some id → id ∉ drawn history)
    {update : Update} {tokens : Tokens} {reply : Reply} {ledger : ApprovalLedger}
    (prepared : call.update environment = .ok update)
    (result : update daemon.ledger daemon.tokens = (tokens, .ok (reply, ledger)))
    (answered : entry.reply = some (.ok reply))
    (after : entry.after =
      ⟨ledger, tokens, daemon.changes ++ tokenChange call.operation reply⟩)
    (deletes : ∀ id token, tokens id = some token → daemon.tokens id = some token) :
    Sound (history ++ [entry]) entry.after := by
  have effect := update_effect prepared sound.distinct result
  have new : ∀ id, call.draws = some id → id ∉ daemon.ledger.requests.map ApprovalRequest.id :=
    fun id draws member => fresh id draws (sound.entered id member)
  have drawsEntry : entry.draws = call.draws := by
    unfold Entry.draws
    rw [moved]
  have kept {id : JsString} (member : id ∈ drawn history) : id ∈ drawn (history ++ [entry]) := by
    rw [drawn, List.filterMap_append]
    exact List.mem_append_left _ member
  subst start
  rw [after]
  refine
    { distinct := effect.ids sound.distinct new
      entered := ?_
      tokens := ?_
      changes := ?_
      grants := ?_
      approved := ?_
      consumed := ?_ }
  · intro id member
    rcases effect.known id member with old | draws
    · exact kept (sound.entered id old)
    · rw [drawn, List.filterMap_append, List.mem_append]
      exact .inr (by simp [drawsEntry, draws])
  · intro id token held
    obtain ⟨claim, member, issues⟩ := sound.tokens id token (deletes id token held)
    exact ⟨claim, List.mem_append_left _ member, issues⟩
  · intro change member token given
    rcases List.mem_append.mp member with old | due
    · obtain ⟨claim, inside, issues⟩ := sound.changes change old token given
      exact ⟨claim, List.mem_append_left _ inside, issues⟩
    · refine ⟨entry, by simp, ?_⟩
      unfold tokenChange at due
      split at due
      next payload request claimToken operation =>
        rw [List.mem_singleton] at due
        subst due
        cases given
        exact ⟨call, payload, request, moved, operation, answered, rfl⟩
      next =>
        split at due
        · rw [List.mem_singleton] at due
          subst due
          cases given
        · simp at due
      next => simp at due
  · intro grant member
    rcases effect.grants grant member with old | ⟨request, found, approves, owned, rfl⟩
    · obtain ⟨earlier, decision, later, rfl, granting⟩ := sound.grants grant old
      exact ⟨earlier, decision, later ++ [entry], by simp, granting⟩
    · refine ⟨history, entry, [], rfl, call, request, moved, found, approves,
        sound.tokens request.id, owned, ?_, rfl, rfl, rfl⟩
      simp [OwnerContext.ownsGrant, newGrant]
  · intro id approved
    obtain ⟨request, found, status⟩ := approved
    rcases effect.requests id request found with ⟨earlier, before, evolves⟩ | ⟨_, pending⟩
    · rcases evolves.approved status with was | approves
      · obtain ⟨first, approval, later, rfl, approving, since⟩ :=
          sound.approved id ⟨earlier, before, was⟩
        refine ⟨first, approval, later ++ [entry], by simp, approving, ?_⟩
        intro other member
        rw [← List.cons_append, List.mem_append, List.mem_singleton] at member
        rcases member with old | last
        · exact since other old
        · rw [last, after]
          exact ⟨request, found, status⟩
      · refine ⟨history, entry, [], rfl, ⟨call, earlier, moved, before, approves,
          sound.tokens id⟩, ?_⟩
        intro other member
        rw [List.mem_singleton] at member
        rw [member, after]
        exact ⟨request, found, status⟩
    · rw [pending] at status
      cases status
  · intro id other member consumes
    rw [List.mem_append, List.mem_singleton] at member
    rcases member with old | last
    · obtain ⟨known, stays⟩ := sound.consumed id other old consumes
      refine ⟨kept known, ?_⟩
      intro request found
      rcases effect.requests id request found with ⟨earlier, before, evolves⟩ | ⟨draws, _⟩
      · exact evolves.consumed (stays earlier before)
      · exact absurd known (fresh id draws)
    · subst last
      obtain ⟨caller, payload, answer, same, operation, said, status, rfl⟩ := consumes
      rw [moved] at same
      cases same
      rw [answered] at said
      cases said
      obtain ⟨request, found, _, _, now⟩ := (consume_answer operation prepared result).1 status
      refine ⟨kept (sound.entered _ ?_), ?_⟩
      · exact find_id found ▸ List.mem_map_of_mem (find_member found)
      · intro later lookedUp
        rw [now] at lookedUp
        cases lookedUp
        exact status

/-- Every run is sound, where the ids drawn for requests are distinct. -/
theorem run_sound {environment : Environment} {history : List Entry} {daemon : Daemon}
    (run : Run environment history daemon) (distinct : (drawn history).Nodup) :
    Sound history daemon := by
  induction run with
  | initial => exact sound_initial
  | @next history daemon run move inductionHypothesis =>
    rw [drawn, List.filterMap_append, List.nodup_append] at distinct
    have sound := inductionHypothesis distinct.1
    cases move with
    | call call =>
      have fresh : ∀ id, call.draws = some id → id ∉ drawn history := by
        intro id draws member
        refine distinct.2.2 id member id ?_ rfl
        simp [Entry.draws, entryOf, draws]
      rcases perform_cases environment daemon call with
        ⟨failure, threw, ledger, changes, deletes⟩ |
          ⟨update, tokens, reply, ledger, prepared, result, performed, deletes⟩
      · refine sound.tokens_only (entryOf environment daemon (.call call)) ledger ?_ ?_ ?_
        · rintro id ⟨caller, payload, request, _, _, answered, _⟩
          simp only [entryOf, step, threw] at answered
          cases answered
        · intro id token held
          exact sound.tokens id token (deletes id token held)
        · intro change member
          refine sound.changes change ?_
          rw [← changes]
          exact member
      · exact sound.returned rfl rfl fresh prepared result (by simp [entryOf, step, performed])
          (by simp [entryOf, step, performed]) deletes
    | settle index =>
      refine sound.tokens_only (entryOf environment daemon (.settle index)) ?_ ?_ ?_ ?_
      · simp only [entryOf, step, Daemon.settle]
        split <;> rfl
      · rintro id ⟨call, payload, request, moved, _⟩
        cases moved
      · intro id token held
        simp only [entryOf, step, Daemon.settle] at held
        split at held
        · exact sound.tokens id token held
        next change found =>
          by_cases same : id = change.id
          · simp only [same, Function.update_self] at held
            rw [same]
            exact sound.changes change (List.mem_of_getElem? found) token held
          · simp only [Function.update_of_ne same] at held
            exact sound.tokens id token held
      · intro change member
        refine sound.changes change ?_
        simp only [entryOf, step, Daemon.settle] at member
        split at member
        · exact member
        · exact List.mem_of_mem_eraseIdx member
    | restart =>
      refine sound.tokens_only (entryOf environment daemon .restart) rfl ?_ ?_ ?_
      · rintro id ⟨call, payload, request, moved, _⟩
        cases moved
      · intro id token held
        cases held
      · intro change member
        cases member

/-- Every entry of a history is a move of a daemon that the entries before it lead to. -/
theorem Run.at_entry {environment : Environment} {history : List Entry} {daemon : Daemon}
    (run : Run environment history daemon) {before : List Entry} {entry : Entry}
    {after : List Entry} (same : history = before ++ entry :: after) :
    Run environment before entry.before ∧
      entry = entryOf environment entry.before entry.move := by
  induction run generalizing after with
  | initial => simp at same
  | next run move inductionHypothesis =>
    rcases List.eq_nil_or_concat after with rfl | ⟨rest, last, rfl⟩
    · obtain ⟨rfl, equal⟩ := List.append_inj' same rfl
      rw [List.cons.injEq] at equal
      rw [← equal.1]
      exact ⟨run, rfl⟩
    · rw [List.concat_eq_append, ← List.cons_append, ← List.append_assoc] at same
      exact inductionHypothesis (List.append_inj' same rfl).1

/-- A grant that was there when an entry was made, has not expired then, and comes from an
approval for the session. -/
def Entry.Covered (entry : Entry) (before : List Entry) (call : Call)
    (digest capability workdir : JsString) : Prop :=
  ∃ grant ∈ entry.before.ledger.grants,
    grant.covers call.owner digest capability workdir = true ∧
    (∃ reading, call.clock reading < grant.expiresAt) ∧
    ∃ earlier decision later, before = earlier ++ decision :: later ∧
      decision.GrantsSession earlier grant

/-- In every run a request is answered `consumed` at most once, and only after it was
approved, while it has stayed approved since and is not expired; and `approved_session` is
answered only under a grant that covers what is asked. -/
theorem approvals_sound (environment : Environment) (history : List Entry) (daemon : Daemon)
    (run : Run environment history daemon) (distinct : (drawn history).Nodup)
    (before : List Entry) (entry : Entry) (after : List Entry)
    (position : history = before ++ entry :: after) (call : Call)
    (moved : entry.move = .call call) :
    (∀ id, entry.Consumes id →
      (∀ earlier ∈ before, ¬ earlier.Consumes id) ∧
      (∃ request, entry.before.ledger.find id = some request ∧
        call.clock 0 < request.expiresAt) ∧
      ∃ earlier approval later, before = earlier ++ approval :: later ∧
        approval.ApprovesOnce earlier id ∧
        ∀ other ∈ approval :: later, other.after.Approved id) ∧
    (∀ payload request, call.operation = .consume payload →
      entry.reply = some (.ok (.request request)) → request.status = .approvedSession →
      entry.Covered before call request.digest request.capability request.workdir) ∧
    (∀ payload, call.operation = .prepare payload → entry.reply = some (.ok .approvedSession) →
      ∃ expirySeconds intent uiLeaseSeconds,
        approvalTerms environment payload = .ok (expirySeconds, intent, uiLeaseSeconds) ∧
        entry.Covered before call (environment.digest intent) intent.capability
          intent.workdir) := by
  obtain ⟨reached, made⟩ := run.at_entry position
  have earlierDistinct : (drawn before).Nodup := by
    rw [position, drawn, List.filterMap_append, List.nodup_append] at distinct
    exact distinct.1
  have sound := run_sound reached earlierDistinct
  have replied : entry.reply = some (perform environment entry.before call).1 := by
    rw [made, moved]
    rfl
  -- A reply other than an error comes from an update of the ledger there was.
  have updated {reply : Reply} (answered : entry.reply = some (.ok reply)) :
      ∃ update tokens ledger, call.update environment = .ok update ∧
        update entry.before.ledger entry.before.tokens = (tokens, .ok (reply, ledger)) := by
    rw [replied] at answered
    rcases perform_cases environment entry.before call with
      ⟨failure, threw, _⟩ | ⟨update, tokens, given, ledger, prepared, result, performed, _⟩
    · rw [threw] at answered
      cases answered
    · rw [performed] at answered
      cases answered
      exact ⟨update, tokens, ledger, prepared, result⟩
  have covered {digest capability workdir : JsString}
      (granted : Granted entry.before.ledger.grants call.owner digest capability workdir
        call.clock) : entry.Covered before call digest capability workdir := by
    obtain ⟨grant, member, reading, covers, current⟩ := granted
    exact ⟨grant, member, covers, ⟨reading, current⟩, sound.grants grant member⟩
  refine ⟨?_, ?_, ?_⟩
  · rintro id ⟨caller, payload, request, same, operation, answered, status, rfl⟩
    rw [moved] at same
    cases same
    obtain ⟨update, tokens, ledger, prepared, result⟩ := updated answered
    obtain ⟨found, lookedUp, approved, early, _⟩ :=
      (consume_answer operation prepared result).1 status
    refine ⟨?_, ⟨found, lookedUp, early⟩, sound.approved _ ⟨found, lookedUp, approved⟩⟩
    intro earlier member consumes
    have spent := (sound.consumed _ earlier member consumes).2 found lookedUp
    rw [approved] at spent
    cases spent
  · intro payload request operation answered session
    obtain ⟨update, tokens, ledger, prepared, result⟩ := updated answered
    exact covered ((consume_answer operation prepared result).2 session)
  · intro payload operation answered
    obtain ⟨update, tokens, ledger, prepared, result⟩ := updated answered
    obtain ⟨expirySeconds, intent, uiLeaseSeconds, terms, granted⟩ :=
      prepare_answer operation prepared result
    exact ⟨expirySeconds, intent, uiLeaseSeconds, terms, covered granted⟩

/-- An environment that takes texts and paths as they are. -/
def plainEnvironment : Environment := ⟨id, some, fun intent => intent.command⟩

/-- A call of one owner at time zero that draws the id `1`. -/
def plainCall (operation : Operation) : Call :=
  ⟨⟨js "s", js "p"⟩, operation, fun _ => 0, js "1", true⟩

/-- The fields that a request and its consumption have in common. -/
def plainIntent : List (String × Js) :=
  [("command", .text "ls"), ("capability", .text "c"), ("workdir", .text "w")]

/-- The daemon after a request was entered. -/
def daemonCreated : Daemon :=
  (step plainEnvironment .initial
    (.call (plainCall (.create (.obj (("expirySeconds", .int 60) :: plainIntent)))))).2

/-- The daemon after the request was natively approved. -/
def daemonApproved : Daemon :=
  (step plainEnvironment daemonCreated
    (.call (plainCall (.nativeApprove (.obj [("id", .text "1")]))))).2

/-- The consumption of the approved request. -/
def consumption : Entry :=
  entryOf plainEnvironment daemonApproved
    (.call (plainCall (.consume (.obj (("id", .text "1") :: plainIntent)))))

/-- A request that is entered, natively approved and consumed was approved and unexpired. -/
theorem approvals_sound_native_approval :
    consumption.Consumes (js "1") ∧ ∃ request,
      daemonApproved.ledger.find (js "1") = some request ∧ 0 < request.expiresAt := by
  have consumes : consumption.Consumes (js "1") :=
    ⟨_, _, _, rfl, rfl, rfl, rfl, rfl⟩
  have start : Run plainEnvironment [] Daemon.initial := Run.initial
  have run := Run.next (Run.next (Run.next start
    (.call (plainCall (.create (.obj (("expirySeconds", .int 60) :: plainIntent))))))
    (.call (plainCall (.nativeApprove (.obj [("id", .text "1")])))))
    consumption.move
  have sound := approvals_sound plainEnvironment _ _ run (by decide) [_, _] consumption []
    rfl _ rfl
  exact ⟨consumes, (sound.1 _ consumes).2.1⟩

end OpencodePty.Approvals
