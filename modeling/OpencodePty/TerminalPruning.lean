import OpencodePty.SessionLanes
import OpencodePty.Timestamps

/-!
# Pruning of terminal sessions

Before it starts a command the supervisor cleans up the sessions that ended long ago, whoever owns
them, and waits for all of them. `cleanup` awaits the finalization that the session remembers.
A finalization that was fulfilled is forgotten, but one that failed is remembered for good: every
later cleanup of that session fails with it, and with it every start, of any owner, once the
session has expired. Where no finalization fails and the storage deletes what it is asked to,
nobody is held up.
-/

namespace OpencodePty.TerminalPruning

open JsValues NativeSnapshots Transitions SessionLanes

/-! ## What a session remembers of its finalization -/

/-- What the holder of the lane awaits outside a finalization. -/
def plain : Running → Bool
  | .finishWrite _ finalizing | .failureWrite _ finalizing => !finalizing
  | .finalSnapshot _ _ _ | .finalizationWrite _ | .shutdown _ => false
  | _ => true

/-- A finalization on its way to fail. -/
def failing : Running → Bool
  | .failureWrite _ finalizing => finalizing
  | .finalizationWrite _ => true
  | .shutdown rejected => rejected
  | _ => false

/-- What the session remembers, and what the holder of its lane may await. -/
structure Phase (rejected : Bool) (allowed : Running → Bool) (session : Session) : Prop where
  remembered : session.finalizationRejected = rejected
  held : ∀ caller running, session.running = some (caller, running) → allowed running = true

section Phase

variable {darwin : Bool} {rejected : Bool} {allowed : Running → Bool} {session after : Session}

/-- A monitor that fails does not reject the finalization. -/
theorem monitorFailed_finalization :
    session.monitorFailed.finalizationRejected = session.finalizationRejected := by
  unfold Session.monitorFailed
  split_ifs <;> rfl

/-- The end of a task is allowed in every phase. -/
theorem Phase.complete (remembered : session.finalizationRejected = rejected) (caller : Caller)
    (succeeded : Bool) : Phase rejected allowed (session.complete caller succeeded) where
  remembered := by
    rcases complete_cases session caller succeeded with same | ⟨monitor, same⟩
    · rw [same, monitorFailed_finalization]
      exact remembered
    · rw [same]
      exact remembered
  held holder running waiting := by
    rw [complete_free] at waiting
    cases waiting

/-- A task may await what the phase allows. -/
theorem Phase.await (remembered : session.finalizationRejected = rejected) (caller : Caller)
    {running : Running} (permitted : allowed running = true) :
    Phase rejected allowed (session.await caller running) := by
  refine ⟨remembered, ?_⟩
  intro holder other waiting
  cases waiting
  exact permitted

/-- A task may begin a write that the phase allows. -/
theorem Phase.beginWrite (remembered : session.finalizationRejected = rejected) (caller : Caller)
    (record : SessionRecord) {running : Running} (permitted : allowed running = true) :
    Phase rejected allowed (session.beginWrite darwin caller record running) := by
  refine ⟨remembered, ?_⟩
  intro holder other waiting
  cases waiting
  exact permitted

/-- Two sessions with the same task and finalization are in the same phase. -/
theorem Phase.same (phase : Phase rejected allowed session)
    (remembered : after.finalizationRejected = session.finalizationRejected)
    (running : after.running = session.running) : Phase rejected allowed after :=
  ⟨remembered.trans phase.remembered, fun caller other held =>
    phase.held caller other (running.symm.trans held)⟩

/-- A snapshot that is not part of a finalization. -/
theorem Phase.finish (remembered : session.finalizationRejected = rejected)
    (permitted : ∀ running, plain running = true → allowed running = true) (caller : Caller)
    (result : Taken) (version : Nat) (message : JsString) :
    Phase rejected allowed
      (session.finishNativeInLane darwin caller result version false message) := by
  unfold Session.finishNativeInLane
  simp only [Bool.false_eq_true, ↓reduceIte]
  split_ifs
  · exact .complete remembered caller true
  · split
    · simp only [Session.finished, Bool.false_eq_true, ↓reduceIte]
      exact .complete remembered caller true
    next record _ =>
      exact @Phase.beginWrite darwin rejected allowed
        { session with applied := result.position + 1 } remembered caller record
        (.finishWrite result false) (permitted _ rfl)

/-- The end of a wait leaves the phase. -/
theorem Phase.endCall (phase : Phase rejected allowed session) (call : Nat) (reserved : Bool) :
    Phase rejected allowed (session.endCall call reserved) := by
  cases reserved <;> exact phase.same rfl rfl

/-- The result of a wait leaves the phase. -/
theorem Phase.settleWait (phase : Phase rejected allowed session) (call : Nat) (result : Js) :
    Phase rejected allowed (session.settleWait call result) := by
  unfold Session.settleWait
  split_ifs
  · exact phase.same rfl rfl
  · exact phase

/-- To look at the waits again leaves the finalization. -/
theorem resolveExitWaits_finalization (session : Session) :
    session.resolveExitWaits.finalizationRejected = session.finalizationRejected := by
  unfold Session.resolveExitWaits
  split_ifs <;> rfl

/-- What follows a write of a snapshot leaves the finalization. -/
theorem afterFinishWrite_finalization :
    session.afterFinishWrite.finalizationRejected = session.finalizationRejected := by
  unfold Session.afterFinishWrite
  split_ifs
  · rfl
  · exact resolveExitWaits_finalization _

/-- What follows the write of a failure leaves the finalization. -/
theorem afterFailureWrite_finalization (succeeds : Bool) :
    (session.afterFailureWrite succeeds).finalizationRejected = session.finalizationRejected := by
  unfold Session.afterFailureWrite
  split_ifs
  · exact resolveExitWaits_finalization _
  · rfl

/-- A task may begin, where its finalization is allowed. -/
theorem Phase.begin (phase : Phase rejected allowed session)
    (permitted : ∀ running, plain running = true → allowed running = true)
    (finalize : ∀ {session : Session} (caller : Caller) (result : Taken),
      session.finalizationRejected = rejected →
      Phase rejected allowed (session.finalizeNativeInLane darwin caller result []))
    (caller : Caller) (task : Task) : Phase rejected allowed (session.begin darwin caller task) := by
  have remembered := phase.remembered
  cases task with
  | finish result version => exact .finish remembered permitted caller result version []
  | finalize result => exact finalize caller result remembered
  | markCleanup => exact .beginWrite remembered caller _ (permitted _ rfl)
  | rollback =>
    simp only [Session.begin]
    split_ifs
    · exact @Phase.await _ _ session.bumpVersion remembered caller _ (permitted _ rfl)
    · exact .complete remembered caller true
  | stop =>
    simp only [Session.begin]
    split_ifs
    · exact .beginWrite remembered caller _ (permitted _ rfl)
    · exact .complete remembered caller false
  | delete =>
    simp only [Session.begin]
    split_ifs
    · exact @Phase.await _ _ { session.bumpVersion with attached := false } remembered caller _
        (permitted _ rfl)
    · exact .complete remembered caller true
  | input call =>
    simp only [Session.begin]
    split_ifs
    · exact .await remembered caller (permitted _ rfl)
    · exact .complete (phase.endCall call true).remembered caller false

/-- What the holder of the lane awaited arrives, outside a finalization. -/
theorem Phase.answer (phase : Phase rejected allowed session)
    (permitted : ∀ running, plain running = true → allowed running = true)
    (outside : ∀ caller running, session.running = some (caller, running) → plain running = true)
    (succeeds : Bool) (message : JsString) :
    Phase rejected allowed (session.answer darwin succeeds message) := by
  have remembered := phase.remembered
  unfold Session.answer
  split
  next caller result finalizing held =>
    obtain rfl : finalizing = false := by simpa [plain] using outside _ _ held
    split_ifs
    · simp only [Session.finished, Bool.false_eq_true, ↓reduceIte]
      exact .complete (afterFinishWrite_finalization.trans remembered) caller _
    · exact .beginWrite remembered caller _ (permitted _ rfl)
  next caller result finalizing held =>
    obtain rfl : finalizing = false := by simpa [plain] using outside _ _ held
    simp only [Session.finished, Bool.false_eq_true, ↓reduceIte]
    exact .complete ((afterFailureWrite_finalization succeeds).trans remembered) caller _
  next held => cases outside _ _ held
  next held => cases outside _ _ held
  next caller _ =>
    split_ifs
    · exact @Phase.complete _ _ { session.bumpVersion with stored := true, attached := false }
        remembered caller true
    · exact .complete remembered caller false
  next caller _ =>
    split_ifs
    · exact @Phase.await _ _ { session with stored := true } remembered caller _ (permitted _ rfl)
    · exact .complete remembered caller false
  next caller _ =>
    exact @Phase.complete _ _ { session with stored := session.stored || succeeds } remembered
      caller succeeds
  next caller _ =>
    split_ifs
    · exact @Phase.complete _ _ { session with stored := false, present := false } remembered
        caller true
    · exact .complete remembered caller false
  next caller call _ =>
    split_ifs
    · exact @Phase.complete _ _ (session.goto call (.flushing true session.persistQueue.length))
        remembered caller true
    · exact .complete (phase.endCall call true).remembered caller false
  next => exact phase

/-- A snapshot is taken, outside a finalization. -/
theorem Phase.take (phase : Phase rejected allowed session)
    (permitted : ∀ running, plain running = true → allowed running = true) (requester : Requester)
    (outside : requester = .lane → ∀ caller running, session.running = some (caller, running) →
      plain running = true) (snapshot : WorkerSnapshot) :
    Phase rejected allowed (session.take requester snapshot) := by
  cases requester with
  | monitor =>
    simp only [Session.take]
    split <;> exact phase.same rfl rfl
  | sync call =>
    simp only [Session.take]
    split <;> exact phase.same rfl rfl
  | lane =>
    simp only [Session.take]
    split
    next held => cases outside rfl _ _ held
    · refine ⟨phase.remembered, ?_⟩
      intro holder other held
      cases held
      exact permitted _ rfl
    · exact phase

/-- A snapshot arrives, outside a finalization. -/
theorem Phase.deliver (phase : Phase rejected allowed session)
    (finalize : ∀ {session : Session} (caller : Caller) (result : Taken),
      session.finalizationRejected = rejected →
      Phase rejected allowed (session.finalizeNativeInLane darwin caller result []))
    (requester : Requester)
    (outside : requester = .lane → ∀ caller running, session.running = some (caller, running) →
      plain running = true) : Phase rejected allowed (session.deliver darwin requester) := by
  cases requester with
  | monitor =>
    simp only [Session.deliver]
    split
    · split_ifs <;> exact phase.same rfl rfl
    · exact phase
  | sync call =>
    simp only [Session.deliver]
    split
    · split_ifs <;> exact phase.same rfl rfl
    · exact phase
  | lane =>
    simp only [Session.deliver]
    split
    next held => cases outside rfl _ _ held
    · exact finalize _ _ phase.remembered
    · exact phase

/-- The worker is lost, outside a finalization. -/
theorem Phase.lose (phase : Phase rejected allowed session) (requester : Requester)
    (outside : requester = .lane → ∀ caller running, session.running = some (caller, running) →
      plain running = true) (message : JsString) :
    Phase rejected allowed (session.lose darwin requester message) := by
  cases requester with
  | monitor =>
    simp only [Session.lose]
    split
    · exact phase.same monitorFailed_finalization (monitorFailed_running session)
    · exact phase
  | sync call => exact phase.same rfl rfl
  | lane =>
    simp only [Session.lose]
    split
    next held => cases outside rfl _ _ held
    · exact .complete phase.remembered _ false
    · exact phase

/-- A rollback leaves the phase. -/
theorem Phase.rolledBack (phase : Phase rejected allowed session)
    (permitted : ∀ running, plain running = true → allowed running = true)
    (requested confirmed : Bool) (message : JsString) :
    Phase rejected allowed (session.rolledBack darwin requested confirmed message) := by
  have remembered := phase.remembered
  simp only [Session.rolledBack]
  split
  next caller version _ =>
    split_ifs
    · exact @Phase.complete _ _ { session with
        record := session.record.rollBack darwin requested confirmed message
        attached := false } remembered caller true
    · exact .beginWrite remembered caller _ (permitted _ rfl)
  · exact phase

/-- The steps of a wait leave the lane alone. -/
theorem Phase.enterWait (phase : Phase rejected allowed session) (call : Nat) (reserved : Bool) :
    Phase rejected allowed (session.enterWait call reserved) := by
  unfold Session.enterWait
  split_ifs
  · exact phase.endCall call reserved
  · exact phase.endCall call reserved
  · exact phase.same rfl rfl

/-- What a wait has found leaves the phase. -/
theorem Phase.afterMatch (phase : Phase rejected allowed session) (call : Nat) (reserved : Bool)
    (found : Match) (admitted : Bool) :
    Phase rejected allowed (session.afterMatch call reserved found admitted) := by
  have ended := phase.endCall call reserved
  unfold Session.afterMatch
  split
  · exact ended
  · exact ended.same rfl rfl
  · split_ifs
    · exact ended.same rfl rfl
    · exact phase.same rfl rfl
    · exact ended

/-- A wait that is looked at at the end leaves the phase. -/
theorem Phase.stepExit (phase : Phase rejected allowed session) (index : Nat) (result : Option Js) :
    Phase rejected allowed (session.stepExit index result) := by
  simp only [Session.stepExit]
  split
  · exact phase
  · split <;> exact phase.same rfl rfl
  · exact phase.same rfl rfl
  · split
    · exact phase.same rfl rfl
    · refine Phase.settleWait ?_ _ _
      exact phase.same rfl rfl

/-- A step keeps what the session remembers, where the steps of a finalization do. -/
theorem Phase.step (phase : Phase rejected allowed session)
    (permitted : ∀ running, plain running = true → allowed running = true)
    (finalize : ∀ {session : Session} (caller : Caller) (result : Taken),
      session.finalizationRejected = rejected →
      Phase rejected allowed (session.finalizeNativeInLane darwin caller result []))
    {action : Action}
    (inside : ∀ caller running, session.running = some (caller, running) → plain running = false →
      (∃ succeeds message, action = .answer succeeds message) ∨
        (∃ snapshot, action = .take .lane snapshot) ∨ action = .deliver .lane ∨
        (∃ message, action = .lose .lane message) →
      Phase rejected allowed (session.step darwin action)) :
    Phase rejected allowed (session.step darwin action) := by
  -- What the lane does depends on whether its holder finalizes.
  have lane (usual : (∀ caller running, session.running = some (caller, running) →
        plain running = true) → Phase rejected allowed (session.step darwin action))
      (named : (∃ succeeds message, action = .answer succeeds message) ∨
        (∃ snapshot, action = .take .lane snapshot) ∨ action = .deliver .lane ∨
        (∃ message, action = .lose .lane message)) :
      Phase rejected allowed (session.step darwin action) := by
    by_cases outside : ∀ caller running, session.running = some (caller, running) →
        plain running = true
    · exact usual outside
    · simp only [not_forall, Bool.not_eq_true] at outside
      obtain ⟨caller, running, held, part⟩ := outside
      exact inside caller running held part named
  cases action with
  | answer succeeds message =>
    exact lane (fun outside => phase.answer permitted outside succeeds message)
      (.inl ⟨succeeds, message, rfl⟩)
  | take requester snapshot =>
    cases requester with
    | monitor => exact phase.take permitted .monitor nofun snapshot
    | sync call => exact phase.take permitted (.sync call) nofun snapshot
    | lane =>
      exact lane (fun outside => phase.take permitted .lane (fun _ => outside) snapshot)
        (.inr (.inl ⟨snapshot, rfl⟩))
  | deliver requester =>
    cases requester with
    | monitor => exact phase.deliver finalize .monitor nofun
    | sync call => exact phase.deliver finalize (.sync call) nofun
    | lane =>
      exact lane (fun outside => phase.deliver finalize .lane fun _ => outside)
        (.inr (.inr (.inl rfl)))
  | lose requester message =>
    cases requester with
    | monitor => exact @Phase.lose darwin _ _ _ phase .monitor nofun message
    | sync call => exact @Phase.lose darwin _ _ _ phase (.sync call) nofun message
    | lane =>
      exact lane (fun outside => phase.lose .lane (fun _ => outside) message)
        (.inr (.inr (.inr ⟨message, rfl⟩)))
  | turn =>
    simp only [Session.step, Session.turn]
    split
    next caller task rest _ _ =>
      have popped : Phase rejected allowed { session with lane := rest } := phase.same rfl rfl
      exact popped.begin permitted finalize caller task
    · exact phase
  | rolledBack requested confirmed message =>
    exact phase.rolledBack permitted requested confirmed message
  | sync call =>
    simp only [Session.step]
    split_ifs <;> exact phase.same rfl rfl
  | stop => exact phase.same rfl rfl
  | markCleanup =>
    simp only [Session.step]
    split_ifs <;> exact phase.same rfl rfl
  | cleanup =>
    simp only [Session.step]
    split_ifs <;> exact phase.same rfl rfl
  | wait call =>
    simp only [Session.step]
    split <;> exact phase.same rfl rfl
  | sendWait call =>
    simp only [Session.step]
    split
    · split_ifs <;> exact phase.same rfl rfl
    · exact phase
  | flushed call =>
    simp only [Session.step]
    split
    next reserved _ _ =>
      split
      · exact phase
      · exact phase.endCall call reserved
      · exact phase.enterWait call reserved
    · exact phase
  | matched call found admitted =>
    simp only [Session.step]
    split
    next reserved _ => exact phase.afterMatch call reserved found admitted
    · exact phase
  | settle call result => exact phase.settleWait call result
  | exit index result => exact phase.stepExit index result
  | otherWait => exact phase.same rfl rfl
  | queueWrite succeeds => exact phase.same rfl rfl

end Phase

/-! ## Finalizations that fail -/

/-- The session remembers a finalization that failed, and no other is under way. -/
def Stuck (session : Session) : Prop := Phase true plain session

/-- A finalization that failed is remembered whatever happens afterwards. -/
theorem Stuck.step {darwin : Bool} {session : Session} (stuck : Stuck session) (action : Action) :
    Stuck (session.step darwin action) := by
  refine Phase.step stuck (fun _ part => part) ?_ ?_
  · intro session caller result remembered
    simp only [Session.finalizeNativeInLane, remembered, ↓reduceIte]
    split_ifs
    · exact .complete remembered caller true
    · exact .complete remembered caller false
  · intro caller running held part
    rw [stuck.held caller running held] at part
    cases part

/-- A session that is stuck is so after every later action. -/
theorem Stuck.run {darwin : Bool} {session : Session} (stuck : Stuck session)
    (later : List Action) : Stuck (run (Session.step darwin) session later) :=
  run_preserves (fun _ action now => now.step action) session later stuck

/-- No finalization fails: its write succeeds, its snapshot arrives and reports no lost output. -/
def Finalizes (session : Session) : Action → Prop
  | .answer succeeds _ => ∀ caller result,
    session.running = some (caller, .finishWrite result true) →
      succeeds = true ∧ result.snapshot.raises = false
  | .lose .lane _ => ∀ caller result version answer,
    session.running ≠ some (caller, .finalSnapshot result version answer)
  | _ => True

/-- No finalization of the session has failed or is about to. -/
def Sound (session : Session) : Prop := Phase false (fun running => !failing running) session

section Sound

variable {darwin : Bool} {session : Session}

/-- A finalization that is not rejected is shut down soundly. -/
theorem sound_shutDown (remembered : session.finalizationRejected = false) (caller : Caller)
    (final : Taken) : Sound (session.shutDown darwin caller final false) := by
  unfold Session.shutDown
  split_ifs
  · exact Phase.await remembered caller rfl
  · exact @Phase.complete _ _ { session with finalizationRejected := false } rfl caller true

/-- A finalization that is not rejected ends soundly. -/
theorem sound_finished (remembered : session.finalizationRejected = false) (caller : Caller)
    (result : Taken) (message : JsString) :
    Sound (session.finished darwin caller result true true message) := by
  unfold Session.finished
  simp only [↓reduceIte]
  split_ifs
  · exact @sound_shutDown darwin session.bumpVersion remembered caller result
  · exact sound_shutDown remembered caller result

/-- A snapshot that is taken for it is sound. -/
theorem sound_finishNativeInLane (remembered : session.finalizationRejected = false)
    (caller : Caller) (result : Taken) (version : Nat) (message : JsString) :
    Sound (session.finishNativeInLane darwin caller result version true message) := by
  unfold Session.finishNativeInLane
  simp only [↓reduceIte]
  split_ifs
  · exact sound_shutDown remembered caller result
  · split
    · exact sound_finished remembered caller result message
    next record _ =>
      exact @Phase.beginWrite darwin _ _ { session with applied := result.position + 1 } remembered
        caller record (.finishWrite result true) rfl

/-- A finalization that begins is sound. -/
theorem sound_finalizeNativeInLane (remembered : session.finalizationRejected = false)
    (caller : Caller) (result : Taken) (message : JsString) :
    Sound (session.finalizeNativeInLane darwin caller result message) := by
  unfold Session.finalizeNativeInLane
  split_ifs with detached rejected
  · exact .complete remembered caller true
  · rw [remembered] at rejected
    cases rejected
  · exact @Phase.await _ _ session.bumpVersion remembered caller _ rfl
  · exact @sound_finishNativeInLane darwin session.bumpVersion remembered caller result _ message

/-- One action keeps it so, where it does not reject the finalization. -/
theorem Sound.step (sound : Sound session) {action : Action}
    (finalizes : Finalizes session action) : Sound (session.step darwin action) := by
  have remembered := sound.remembered
  refine Phase.step sound ?_ ?_ ?_
  · intro running part
    cases running <;> first | exact part | rfl | cases part
  · intro session caller result remembered
    exact sound_finalizeNativeInLane remembered caller result []
  · intro caller running held part lane
    have going := sound.held caller running held
    cases running with
    | finishWrite result finalizing =>
      obtain rfl : finalizing = true := by simpa [plain] using part
      rcases lane with ⟨succeeds, message, rfl⟩ | ⟨snapshot, rfl⟩ | rfl | ⟨message, rfl⟩
      · obtain ⟨rfl, quiet⟩ := finalizes caller result held
        simp only [Session.step, Session.answer, held, ↓reduceIte, quiet, Bool.not_false]
        exact sound_finished (afterFinishWrite_finalization.trans remembered) caller result message
      · simp only [Session.step, Session.take, held]
        exact sound
      · simp only [Session.step, Session.deliver, held]
        exact sound
      · simp only [Session.step, Session.lose, held]
        exact sound
    | failureWrite result finalizing =>
      obtain rfl : finalizing = true := by simpa [plain] using part
      cases going
    | finalSnapshot result version answer =>
      rcases lane with ⟨succeeds, message, rfl⟩ | ⟨snapshot, rfl⟩ | rfl | ⟨message, rfl⟩
      · simp only [Session.step, Session.answer, held]
        exact sound
      · cases answer with
        | none =>
          simp only [Session.step, Session.take, held]
          exact ⟨remembered, fun _ _ waiting => by cases waiting; rfl⟩
        | some taken =>
          simp only [Session.step, Session.take, held]
          exact sound
      · cases answer with
        | none =>
          simp only [Session.step, Session.deliver, held]
          exact sound
        | some final =>
          simp only [Session.step, Session.deliver, held]
          exact sound_finishNativeInLane remembered caller final version []
      · exact absurd held (finalizes caller result version answer)
    | finalizationWrite final => cases going
    | shutdown rejected =>
      obtain rfl : rejected = false := by simpa [failing] using going
      rcases lane with ⟨succeeds, message, rfl⟩ | ⟨snapshot, rfl⟩ | rfl | ⟨message, rfl⟩
      · simp only [Session.step, Session.answer, held]
        exact @Phase.complete _ _
          { session with attached := false, finalizationRejected := false } rfl caller true
      · simp only [Session.step, Session.take, held]
        exact sound
      · simp only [Session.step, Session.deliver, held]
        exact sound
      · simp only [Session.step, Session.lose, held]
        exact sound
    | _ => cases part

end Sound

/-! ## Cleanup -/

/-- The version of the protocol that the daemon speaks with its workers. -/
def nativeWorkerProtocolVersion : Int := 5

section Records

variable (record : SessionRecord)

/-- The worker speaks another version of the protocol. -/
def incompatibleWorker : Bool :=
  record.fields.worker.isSome &&
    !isInt (field record.fields.worker "protocolVersion") nativeWorkerProtocolVersion

/-- No child was started, and there is no worker. -/
def noChildSpawnFailure : Bool :=
  !truthy record.fields.worker && !truthy record.fields.workerPrestart &&
    Lifecycle.noChildStarted record.fields.exitReason

/-- The worker that may have signed that no child was started. -/
def prestartReceiptAuthority : Option Js :=
  if isBool record.fields.workerStartAttempted false &&
      isOneOf record.fields.status ["starting", "lost", "spawn_failed"] then
    orElse record.fields.worker record.fields.workerPrestart
  else none

/-- The start was attempted and failed, so that a receipt may say that no child was started. -/
def postStartNoChildFailureEligible : Bool :=
  record.fields.worker.isSome && isBool record.fields.workerStartAttempted true &&
    isOneOf record.fields.status ["spawn_failed", "lost"]

end Records

/-- A session of the supervisor, with what pruning and cleanup read besides its lanes. -/
structure Entry where
  /-- `lifecycle === 'conversation'`. -/
  conversation : Bool
  updatedAt : JsString
  /-- `confirmedWorkerShutdowns.has(id)`. -/
  shutdownConfirmed : Bool
  session : Session

/-- What a cleanup of the session is answered. -/
structure Answers where
  flushed : Bool
  /-- What comes of a finalization that is under way. -/
  finalized : Bool
  prestartReceipt : Bool
  spawnFailureReceipt : Bool
  reconnects : Bool
  shutdown : Option WorkerSnapshot
  /-- What `deleteNativeSession` returns, or nothing where it fails. -/
  deletes : Option Bool

/-- What comes of a cleanup. -/
inductive Cleanup where
  | returned (deleted : Bool)
  | rejected
  deriving DecidableEq

namespace Entry

variable (darwin : Bool) (entry : Entry) (answers : Answers)

/-- The session is deleted, where nothing fails. -/
def deleteNativeSession : Cleanup := answers.deletes.elim .rejected .returned

/-- A finalization of the session is under way. -/
def finalizing : Bool := entry.session.running.any fun holder => !plain holder.2

/-- `await this.nativeFinalizations.get(id)` returns. -/
def finalizationReturns : Bool :=
  if entry.finalizing then answers.finalized else !entry.session.finalizationRejected

/-- `cleanup` of a lost session. -/
def cleanupLost : Cleanup :=
  let record := entry.session.record
  if record.terminalDirectChild darwin then deleteNativeSession answers
  else if incompatibleWorker record then .returned false
  else if !entry.session.attached && !(record.fields.worker.isSome && answers.reconnects) then
    .returned false
  else match answers.shutdown with
    | some snapshot =>
      if snapshot.nativeTerminalProof darwin then deleteNativeSession answers else .returned false
    | none => .returned false

/-- `cleanup` of a session that is not lost. -/
def cleanupTerminal : Cleanup :=
  let record := entry.session.record
  let requiresFreshConversationProof := entry.conversation && record.fields.worker.isSome &&
    !entry.session.attached && !entry.shutdownConfirmed
  let connected := entry.session.attached ||
    requiresFreshConversationProof && !incompatibleWorker record && answers.reconnects
  if !record.isTerminal darwin then .returned false
  else if requiresFreshConversationProof && !connected then .returned false
  else if connected then
    match answers.shutdown with
    | some snapshot =>
      if snapshot.nativeTerminalProof darwin then deleteNativeSession answers else .returned false
    | none =>
      if requiresFreshConversationProof || !record.terminalDirectChild darwin then .returned false
      else deleteNativeSession answers
  else deleteNativeSession answers

/-- What a cleanup of a session does, by what it is answered. -/
def cleanup : Cleanup :=
  let record := entry.session.record
  if !answers.flushed then .rejected
  else if !entry.session.present then .returned false
  else if noChildSpawnFailure record then deleteNativeSession answers
  else if !entry.finalizationReturns answers then .rejected
  else if (prestartReceiptAuthority record).isSome && answers.prestartReceipt then
    deleteNativeSession answers
  else if !incompatibleWorker record && postStartNoChildFailureEligible record &&
      answers.spawnFailureReceipt then
    deleteNativeSession answers
  else if record.lost then entry.cleanupLost darwin answers
  else entry.cleanupTerminal darwin answers

/-- The session ended before the cutoff. -/
def expired (dateParse : JsString → Option Int) (cutoff : Int) : Bool :=
  !truthy entry.session.record.fields.pendingCleanup &&
    entry.session.record.isTerminal darwin &&
    match orElse entry.session.record.fields.exitedAt (some (.str entry.updatedAt)) with
    | some (.str text) => (dateParse text).any (· ≤ cutoff)
    | _ => false

end Entry

section Pruning

variable (darwin : Bool) (dateParse : JsString → Option Int)

/-- `pruneExpiredTerminals` returns: the cleanups of all expired sessions do. -/
def pruneExpiredTerminals (now retentionSeconds : Int) (entries : List (Entry × Answers)) : Bool :=
  (entries.filter fun pair => pair.1.expired darwin dateParse (now - retentionSeconds * 1000)).all
    fun pair => pair.1.cleanup darwin pair.2 ≠ .rejected

/-- `spawn` or `nativeExecStart` returns, where all steps of its own before and after the pruning
succeed or one of them fails. -/
def startReturns (before after : Bool) (now retentionSeconds : Int)
    (entries : List (Entry × Answers)) : Bool :=
  before && pruneExpiredTerminals darwin dateParse now retentionSeconds entries && after

end Pruning

/-- The queue is not rejected, a finalization under way is fulfilled, and the storage deletes. -/
structure Answers.Served (answers : Answers) : Prop where
  flushed : answers.flushed = true
  finalized : answers.finalized = true
  deletes : answers.deletes.isSome = true

/-- A session whose start has returned, with nothing in its lane, and what happened since. -/
def History (darwin : Bool) (session : Session) : Prop :=
  ∃ start actions, start.finalizationRejected = false ∧ start.running = none ∧
    Along (Session.step darwin) Finalizes start actions ∧
    session = run (Session.step darwin) start actions

section Cleanup

variable {darwin : Bool} {entry : Entry} {answers : Answers}

/-- Every session that a history reaches is sound. -/
theorem History.sound {session : Session} (history : History darwin session) : Sound session := by
  obtain ⟨start, actions, remembered, free, finalizes, rfl⟩ := history
  refine run_preserves_along (fun _ _ now met => now.step met) start actions ⟨remembered, ?_⟩
    finalizes
  intro caller running held
  rw [free] at held
  cases held

/-- Where the storage serves, a session is deleted. -/
theorem delete_returns (served : answers.Served) :
    Entry.deleteNativeSession answers ≠ .rejected := by
  obtain ⟨deleted, answered⟩ := Option.isSome_iff_exists.mp served.deletes
  simp [Entry.deleteNativeSession, answered]

/-- A cleanup fails only with the queue, with a finalization or with the deletion. -/
theorem cleanup_returns (served : answers.Served) (sound : Sound entry.session) :
    entry.cleanup darwin answers ≠ .rejected := by
  have returns : entry.finalizationReturns answers = true := by
    unfold Entry.finalizationReturns
    split_ifs
    · exact served.finalized
    · rw [sound.remembered]
      rfl
  have deletes := delete_returns served
  have proven (snapshot : WorkerSnapshot) : (if snapshot.nativeTerminalProof darwin = true then
      Entry.deleteNativeSession answers else .returned false) ≠ .rejected := by
    split_ifs
    · exact deletes
    · simp
  have lost : entry.cleanupLost darwin answers ≠ .rejected := by
    simp only [Entry.cleanupLost]
    cases answers.shutdown with
    | none => split_ifs <;> first | exact deletes | simp
    | some snapshot => split_ifs <;> first | exact deletes | exact proven snapshot | simp
  have terminal : entry.cleanupTerminal darwin answers ≠ .rejected := by
    simp only [Entry.cleanupTerminal]
    cases answers.shutdown with
    | none => split_ifs <;> first | exact deletes | simp
    | some snapshot => split_ifs <;> first | exact deletes | exact proven snapshot | simp
  simp only [Entry.cleanup, served.flushed, returns, Bool.not_true, Bool.false_eq_true, ↓reduceIte]
  split_ifs
  · simp
  · exact deletes
  · exact deletes
  · exact deletes
  · exact lost
  · exact terminal

end Cleanup

/-- Where no finalization fails, the queue is not rejected and the storage deletes what it is asked
to, a start whose own steps succeed returns, whoever owns the sessions that are pruned, and a
terminal session can be cleaned up. -/
theorem pruning_holds_up_nobody (darwin : Bool) (dateParse : JsString → Option Int)
    (now retentionSeconds : Int) (entries : List (Entry × Answers))
    (histories : ∀ pair ∈ entries, History darwin pair.1.session)
    (served : ∀ pair ∈ entries, pair.2.Served) :
    startReturns darwin dateParse true true now retentionSeconds entries = true ∧
      ∀ pair ∈ entries, pair.1.session.record.isTerminal darwin = true →
        pair.1.cleanup darwin pair.2 ≠ .rejected := by
  have returns (pair : Entry × Answers) (member : pair ∈ entries) :
      pair.1.cleanup darwin pair.2 ≠ .rejected :=
    cleanup_returns (served pair member) (histories pair member).sound
  constructor
  · simp only [startReturns, pruneExpiredTerminals, Bool.true_and, Bool.and_true, List.all_eq_true,
      List.mem_filter, decide_eq_true_eq]
    intro pair chosen
    exact returns pair chosen.1
  · intro pair member _
    exact returns pair member

/-- Everything that a cleanup awaits goes well. -/
def servedAnswers : Answers :=
  ⟨true, true, false, false, true, some (exitedSnapshot 3), some true⟩

/-- The run of a session whose child has ended with the given last snapshot, with every write
successful. -/
def exitRun (final : WorkerSnapshot) : List Action :=
  [.take .monitor final, .deliver .monitor, .turn, .take .lane final, .deliver .lane,
    .answer true [], .answer true [], .answer true []]

/-- A session that ended at the time that its record gives. -/
def endedEntry (final : WorkerSnapshot) : Entry where
  conversation := false
  updatedAt := Timestamps.newYear
  shutdownConfirmed := true
  session := run (Session.step false) startedSession (exitRun final)

/-- A day later the session is pruned by whoever starts a command. -/
theorem pruning_holds_up_nobody_after_exit :
    (endedEntry (exitedSnapshot 3)).expired false Timestamps.parseNewYear (1767312000000 - 3600 * 1000) = true ∧
    startReturns false Timestamps.parseNewYear true true 1767312000000 3600
      [(endedEntry (exitedSnapshot 3), servedAnswers)] = true := by
  refine ⟨by decide, (pruning_holds_up_nobody false Timestamps.parseNewYear 1767312000000 3600 _ ?_ ?_).1⟩
  · intro pair member
    rw [List.mem_singleton.mp member]
    refine ⟨startedSession, exitRun (exitedSnapshot 3), rfl, rfl, ?_, rfl⟩
    refine ⟨trivial, trivial, trivial, trivial, trivial, ?_, ?_, ?_, trivial⟩
    · intro caller result held
      cases held
      exact ⟨rfl, rfl⟩
    · intro caller result held
      cases held
    · intro caller result held
      cases held
  · intro pair member
    rw [List.mem_singleton.mp member]
    exact ⟨rfl, rfl, rfl⟩

/-- The worker could not store the output of the child. -/
def unstoredSnapshot : WorkerSnapshot :=
  { exitedSnapshot 3 with storageFailure := some (js "disk full") }

/-- The same a day later, where the worker could not store all output: the start of another command
fails, and the session remembers its finalization whatever happens to it. -/
theorem pruning_blocks_starts :
    servedAnswers.Served ∧
    (endedEntry unstoredSnapshot).session.record.isTerminal false = true ∧
    startReturns false Timestamps.parseNewYear true true 1767312000000 3600
      [(endedEntry unstoredSnapshot, servedAnswers)] = false ∧
    (endedEntry unstoredSnapshot).cleanup false servedAnswers = .rejected ∧
    ∀ later, (run (Session.step false) (endedEntry unstoredSnapshot).session
      later).finalizationRejected = true := by
  have stuck : Stuck (endedEntry unstoredSnapshot).session :=
    ⟨by decide, fun _ _ held => nomatch held⟩
  refine ⟨⟨rfl, rfl, rfl⟩, by decide, by decide, by decide, ?_⟩
  intro later
  exact (stuck.run later).remembered

end OpencodePty.TerminalPruning
