import OpencodePty.SessionLanes

/-!
# Deleted sessions

A session is deleted by a task of its lane, and every other task of the lane that writes the
metadata first sees that the session is gone. The result of a wait is written through the shared
queue, from the record that the wait remembered, and nothing is checked there. A session stays
deleted where no wait can reach that write any more when its deletion completes.
-/

namespace OpencodePty.SessionDeletion

open JsValues NativeSnapshots TaskChains Transitions SessionLanes

/-- No wait of the session will write its result. -/
structure Unwaited (session : Session) : Prop where
  unregistered : session.waits = []
  unmatched : ∀ call reserved, session.calls call ≠ .matching reserved
  unqueued : ∀ entry ∈ session.persistQueue, entry.outcome = .queued → entry.task = .other

/-- A deletion completes only where no wait of the session will write its result, and no
conversation is marked after the deletion. -/
def Orderly (session : Session) : Action → Prop
  | .answer true _ => ∀ caller, session.running = some (caller, .deleting) → Unwaited session
  | .turn => session.running = none →
    ∀ caller rest, session.lane = (caller, .markCleanup) :: rest → session.present = true
  | _ => True

/-- A session that was deleted, of which nothing is on disk and nothing will be. -/
structure Gone (session : Session) : Prop where
  absent : session.present = false
  detached : session.attached = false
  free : session.running = none
  unstored : session.stored = false
  unwaited : Unwaited session

/-! ## What keeps the session -/

/-- A session that is not deleted yet, whose worker is given up as soon as a deletion begins. -/
structure Standing (session : Session) : Prop where
  present : session.present = true
  unlinked : ∀ caller, session.running = some (caller, .deleting) → session.attached = false

section Standing

variable (darwin : Bool) (session : Session) (caller : Caller)

variable {session} {after : Session}

/-- The holder of the lane goes on without deleting. -/
theorem Standing.ofLane (present : session.present = true) (continues : Continues session after) :
    Standing after :=
  ⟨continues.present.trans present, fun caller deleting => absurd deleting (continues.calm caller)⟩

/-- The end of a task leaves the session standing. -/
theorem Standing.complete (present : session.present = true) (succeeded : Bool) :
    Standing (session.complete caller succeeded) :=
  .ofLane present (complete_continues session caller succeeded)

/-- The end of a wait leaves the session standing. -/
theorem Standing.endCall (standing : Standing session) (call : Nat) (reserved : Bool) :
    Standing (session.endCall call reserved) := by
  cases reserved <;> exact ⟨standing.present, standing.unlinked⟩

/-- The result of a wait leaves the session standing. -/
theorem Standing.settleWait (standing : Standing session) (call : Nat) (result : Js) :
    Standing (session.settleWait call result) := by
  unfold Session.settleWait
  split_ifs
  · exact ⟨standing.present, standing.unlinked⟩
  · exact standing

/-- A monitor that fails leaves the session standing. -/
theorem Standing.monitorFailed (standing : Standing session) : Standing session.monitorFailed := by
  unfold Session.monitorFailed
  split_ifs <;> exact ⟨standing.present, standing.unlinked⟩

/-- A task that begins does not end the session. -/
theorem Standing.begin (present : session.present = true) (task : Task) :
    Standing (session.begin darwin caller task) := by
  cases task with
  | finish result version =>
    exact .ofLane present (finishNativeInLane_continues darwin session caller _ _ _ _)
  | finalize result =>
    exact .ofLane present (finalizeNativeInLane_continues darwin session caller _ _)
  | rollback =>
    simp only [Session.begin]
    split_ifs
    · exact .ofLane present (await_continues session.bumpVersion caller (by simp)).bumped
    · exact .complete caller present true
  | stop =>
    simp only [Session.begin]
    split_ifs
    · exact ⟨present, fun _ deleting => nomatch deleting⟩
    · exact .complete caller present false
  | markCleanup => exact ⟨present, fun _ deleting => nomatch deleting⟩
  | delete =>
    simp only [Session.begin, present, ↓reduceIte]
    exact ⟨present, fun _ _ => rfl⟩
  | input call =>
    simp only [Session.begin]
    split_ifs
    · exact .ofLane present (await_continues session caller (by simp))
    · exact @Standing.complete (session.endCall call true) caller present false

/-- Only a deletion that completes ends the session. -/
theorem Standing.answer (standing : Standing session) (succeeds : Bool) (message : JsString) :
    Standing (session.answer darwin succeeds message) ∨
      succeeds = true ∧ ∃ caller, session.running = some (caller, .deleting) := by
  have present := standing.present
  unfold Session.answer
  split
  next caller result finalizing _ =>
    left
    split_ifs
    · exact .ofLane ((afterFinishWrite_written session).present.trans present)
        (finished_continues darwin _ caller _ _ _ _)
    · exact .ofLane present (failed_continues darwin session caller result.snapshot message rfl)
  next caller result finalizing _ =>
    left
    exact .ofLane ((afterFailureWrite_written session succeeds).present.trans present)
      (finished_continues darwin _ caller _ _ _ _)
  next caller final _ =>
    left
    exact .ofLane ((afterFailureWrite_written session succeeds).present.trans present)
      (shutDown_continues darwin _ caller _ _)
  next caller rejected _ =>
    left
    exact @Standing.complete { session with attached := false, finalizationRejected := rejected }
      caller present (!rejected)
  next caller _ =>
    left
    split_ifs
    · exact @Standing.complete { session.bumpVersion with stored := true, attached := false } caller
        present true
    · exact .complete caller present false
  next caller _ =>
    left
    split_ifs
    · exact ⟨present, fun _ deleting => nomatch deleting⟩
    · exact .complete caller present false
  next caller _ =>
    left
    exact @Standing.complete { session with stored := session.stored || succeeds } caller present
      succeeds
  next caller deleting =>
    split_ifs with returned
    · exact .inr ⟨returned, caller, deleting⟩
    · exact .inl (.complete caller present false)
  next caller call _ =>
    left
    split_ifs
    · exact @Standing.complete (session.goto call (.flushing true session.persistQueue.length))
        caller present true
    · exact .complete caller (standing.endCall call true).present false
  next => exact .inl standing

/-- A snapshot that is taken leaves the session standing. -/
theorem Standing.take (standing : Standing session) (requester : Requester)
    (snapshot : WorkerSnapshot) : Standing (session.take requester snapshot) := by
  unfold Session.take
  split
  · split
    · exact ⟨standing.present, standing.unlinked⟩
    · exact standing
  · split
    · exact ⟨standing.present, standing.unlinked⟩
    · exact standing
  · split
    · exact ⟨standing.present, fun _ deleting => nomatch deleting⟩
    · exact ⟨standing.present, fun _ deleting => nomatch deleting⟩
    · exact standing

/-- A snapshot that arrives leaves the session standing. -/
theorem Standing.deliver (standing : Standing session) (requester : Requester) :
    Standing (session.deliver darwin requester) := by
  unfold Session.deliver
  split
  · split
    · split_ifs <;> exact ⟨standing.present, standing.unlinked⟩
    · exact standing
  · split
    · split_ifs <;> exact ⟨standing.present, standing.unlinked⟩
    · exact standing
  · split
    next caller _ _ _ _ =>
      exact .ofLane standing.present (finishNativeInLane_continues darwin session caller _ _ _ _)
    next caller _ _ =>
      exact .ofLane standing.present (finalizeNativeInLane_continues darwin session caller _ _)
    · exact standing

/-- A loss of the worker leaves the session standing. -/
theorem Standing.lose (standing : Standing session) (requester : Requester) (message : JsString) :
    Standing (session.lose darwin requester message) := by
  unfold Session.lose
  split
  · split
    · exact standing.monitorFailed
    · exact standing
  · exact ⟨standing.present, standing.unlinked⟩
  · split
    · exact ⟨standing.present, fun _ deleting => nomatch deleting⟩
    next caller _ _ => exact .complete caller standing.present false
    · exact standing

/-- A rollback leaves the session standing. -/
theorem Standing.rolledBack (standing : Standing session) (requested confirmed : Bool)
    (message : JsString) : Standing (session.rolledBack darwin requested confirmed message) := by
  unfold Session.rolledBack
  split
  next caller version _ =>
    split_ifs
    · exact @Standing.complete { session with
        record := session.record.rollBack darwin requested confirmed message
        attached := false } caller standing.present true
    · exact ⟨standing.present, fun _ deleting => nomatch deleting⟩
  · exact standing

/-- The steps of a wait leave the session as it is. -/
theorem Standing.wait (standing : Standing session) (call : Nat) (reserved : Bool) (found : Match)
    (admitted : Bool) : Standing (session.enterWait call reserved) ∧
      Standing (session.afterMatch call reserved found admitted) := by
  have ended := standing.endCall call reserved
  constructor
  · unfold Session.enterWait
    split_ifs
    · exact ended
    · exact ended
    · exact ⟨standing.present, standing.unlinked⟩
  · unfold Session.afterMatch
    split
    · exact ended
    · exact ⟨ended.present, ended.unlinked⟩
    · split_ifs
      · exact ⟨ended.present, ended.unlinked⟩
      · exact ⟨standing.present, standing.unlinked⟩
      · exact ended

/-- A wait that is looked at leaves the session standing. -/
theorem Standing.exit (standing : Standing session) (index : Nat) (result : Option Js) :
    Standing (session.stepExit index result) := by
  unfold Session.stepExit
  split
  · exact standing
  · split
    · exact standing
    · exact ⟨standing.present, standing.unlinked⟩
    · exact ⟨standing.present, standing.unlinked⟩
  · exact ⟨standing.present, standing.unlinked⟩
  · split
    · exact ⟨standing.present, standing.unlinked⟩
    next call rest _ _ _ =>
      refine Standing.settleWait ?_ call _
      exact ⟨standing.present, standing.unlinked⟩

/-- A session that is not deleted stays so, except where its deletion completes. -/
theorem Standing.step (standing : Standing session) (action : Action) :
    Standing (session.step darwin action) ∨
      ∃ message caller, action = .answer true message ∧
        session.running = some (caller, .deleting) := by
  cases action with
  | answer succeeds message =>
    rcases standing.answer darwin succeeds message with kept | ⟨returned, caller, deleting⟩
    · exact .inl kept
    · exact .inr ⟨message, caller, by rw [returned], deleting⟩
  | take requester snapshot => exact .inl (standing.take requester snapshot)
  | deliver requester => exact .inl (standing.deliver darwin requester)
  | lose requester message => exact .inl (standing.lose darwin requester message)
  | rolledBack requested confirmed message =>
    exact .inl (standing.rolledBack darwin requested confirmed message)
  | turn =>
    left
    simp only [Session.step, Session.turn]
    split
    next caller task rest _ _ =>
      exact @Standing.begin darwin { session with lane := rest } caller standing.present task
    · exact standing
  | flushed call =>
    left
    simp only [Session.step]
    split
    next reserved position _ =>
      split
      · exact standing
      · exact standing.endCall call reserved
      · exact (standing.wait call reserved .failed false).1
    · exact standing
  | matched call found admitted =>
    left
    simp only [Session.step]
    split
    next reserved _ => exact (standing.wait call reserved found admitted).2
    · exact standing
  | settle call result => exact .inl (standing.settleWait call result)
  | exit index result => exact .inl (standing.exit index result)
  | sync call =>
    left
    simp only [Session.step]
    split_ifs
    · exact ⟨standing.present, standing.unlinked⟩
    · exact standing
  | stop => exact .inl (⟨standing.present, standing.unlinked⟩)
  | markCleanup =>
    left
    simp only [Session.step]
    split_ifs
    · exact ⟨standing.present, standing.unlinked⟩
    · exact standing
  | cleanup =>
    left
    simp only [Session.step]
    split_ifs
    · exact ⟨standing.present, standing.unlinked⟩
    · exact standing
  | wait call =>
    left
    simp only [Session.step]
    split
    · exact ⟨standing.present, standing.unlinked⟩
    · exact standing
  | sendWait call =>
    left
    simp only [Session.step]
    split
    · split_ifs
      · exact ⟨standing.present, standing.unlinked⟩
      · exact standing
    · exact standing
  | otherWait => exact .inl (⟨standing.present, standing.unlinked⟩)
  | queueWrite succeeds => exact .inl (⟨standing.present, standing.unlinked⟩)

end Standing

/-! ## What stays gone -/

section Gone

variable {darwin : Bool} {session after : Session}

/-- Nothing that matters changed, and no wait began to match. -/
theorem Gone.same (gone : Gone session) (within : Within session after)
    (free : after.running = none) : Gone after where
  absent := within.present.trans gone.absent
  detached := within.attached.trans gone.detached
  free := free
  unstored := within.stored.trans gone.unstored
  unwaited := ⟨within.waits.trans gone.unwaited.unregistered, by
    rw [within.calls]
    exact gone.unwaited.unmatched, by
    rw [within.persistQueue]
    exact gone.unwaited.unqueued⟩

/-- The end of a task leaves a session deleted. -/
theorem Gone.complete (gone : Gone session) (caller : Caller) (succeeded : Bool) :
    Gone (session.complete caller succeeded) :=
  gone.same (complete_within session caller succeeded) (complete_free session caller succeeded)

/-- A call moves on without matching. -/
theorem Gone.goto (gone : Gone session) (call : Nat) {stage : Call}
    (notMatching : ∀ reserved, stage ≠ .matching reserved) : Gone (session.goto call stage) where
  absent := gone.absent
  detached := gone.detached
  free := gone.free
  unstored := gone.unstored
  unwaited := by
    refine ⟨gone.unwaited.unregistered, ?_, gone.unwaited.unqueued⟩
    intro other reserved
    simp only [Session.goto, Function.update_apply]
    split_ifs
    · exact notMatching reserved
    · exact gone.unwaited.unmatched other reserved

/-- The end of a wait leaves a session deleted. -/
theorem Gone.endCall (gone : Gone session) (call : Nat) (reserved : Bool) :
    Gone (session.endCall call reserved) := by
  refine Gone.goto ?_ call (by simp)
  cases reserved with
  | true =>
    exact ⟨gone.absent, gone.detached, gone.free, gone.unstored, gone.unwaited.unregistered,
      gone.unwaited.unmatched, gone.unwaited.unqueued⟩
  | false => exact gone

/-- No pending wait is left to settle. -/
theorem Gone.settleWait (gone : Gone session) (call : Nat) (result : Js) :
    session.settleWait call result = session := by
  simp [Session.settleWait, gone.unwaited.unregistered]

/-- No task brings a deleted session back, but a cleanup mark. -/
theorem Gone.begin (gone : Gone session) (caller : Caller) {task : Task}
    (unmarked : task ≠ .markCleanup) : Gone (session.begin darwin caller task) := by
  cases task with
  | finish result version =>
    simp only [Session.begin, Session.finishNativeInLane, gone.absent, true_or, ↓reduceIte,
      Bool.false_eq_true]
    exact gone.complete caller true
  | finalize result =>
    simp only [Session.begin, Session.finalizeNativeInLane, gone.detached, ↓reduceIte]
    exact gone.complete caller true
  | rollback =>
    simp only [Session.begin, gone.detached, Bool.false_eq_true, ↓reduceIte]
    exact gone.complete caller true
  | stop =>
    simp only [Session.begin, gone.detached, Bool.false_and, Bool.false_eq_true, ↓reduceIte]
    exact gone.complete caller false
  | markCleanup => exact absurd rfl unmarked
  | delete =>
    simp only [Session.begin, gone.absent, Bool.false_eq_true, ↓reduceIte]
    exact gone.complete caller true
  | input call =>
    simp only [Session.begin, gone.detached, Bool.false_and, Bool.false_eq_true, ↓reduceIte]
    exact (gone.endCall call true).complete caller false

/-- A wait that is looked at leaves a session deleted. -/
theorem Gone.exit (gone : Gone session) (index : Nat) (result : Option Js) :
    Gone (session.stepExit index result) := by
  have rewritten (exits : List Exit) : Gone { session with exits } :=
    ⟨gone.absent, gone.detached, gone.free, gone.unstored, gone.unwaited.unregistered,
      gone.unwaited.unmatched, gone.unwaited.unqueued⟩
  unfold Session.stepExit
  split
  · exact gone
  · split
    · exact gone
    · exact rewritten _
    · exact rewritten _
  · exact rewritten _
  · split
    · exact rewritten _
    · rw [(rewritten _).settleWait]
      exact rewritten _

/-- The shared queue has no write of the session left. -/
theorem Gone.queueWrite (gone : Gone session) (succeeds : Bool) :
    Gone (session.stepQueueWrite darwin succeeds) := by
  have foreign : current session.persistQueue ≠ some .own := by
    intro turn
    obtain ⟨entry, found, own⟩ := Option.map_eq_some_iff.mp turn
    have queued : entry.outcome = .queued := by simpa using List.find?_some found
    have other := gone.unwaited.unqueued entry (List.mem_of_find?_eq_some found) queued
    rw [own] at other
    cases other
  exact
    { absent := gone.absent
      detached := gone.detached
      free := gone.free
      unstored := by simp [Session.stepQueueWrite, gone.unstored, foreign]
      unwaited := by
        refine ⟨gone.unwaited.unregistered, gone.unwaited.unmatched, ?_⟩
        intro entry member queued
        simp only [Session.stepQueueWrite] at member
        rcases settle_cases succeeds session.persistQueue with
          ⟨_, same⟩ | ⟨before, task, rest, queue, _, _, same⟩
        · rw [same] at member
          exact gone.unwaited.unqueued entry member queued
        · rw [same, List.mem_append, List.mem_cons] at member
          have known (kept : entry ∈ before ∨ entry ∈ rest) : entry.task = .other := by
            refine gone.unwaited.unqueued entry ?_ queued
            rw [queue, List.mem_append, List.mem_cons]
            exact kept.imp_right Or.inr
          rcases member with kept | rfl | kept
          · exact known (.inl kept)
          · exact absurd queued (Outcome.of_ne_queued succeeds)
          · exact known (.inr kept) }

/-- An orderly step leaves a session deleted. -/
theorem Gone.step (gone : Gone session) {action : Action} (orderly : Orderly session action) :
    Gone (session.step darwin action) := by
  have same {next : Session} (present : next.present = session.present)
      (attached : next.attached = session.attached) (running : next.running = none)
      (stored : next.stored = session.stored) (calls : next.calls = session.calls)
      (waits : next.waits = session.waits) (queue : next.persistQueue = session.persistQueue) :
      Gone next :=
    ⟨present.trans gone.absent, attached.trans gone.detached, running,
      stored.trans gone.unstored, waits.trans gone.unwaited.unregistered,
      by rw [calls]; exact gone.unwaited.unmatched, by rw [queue]; exact gone.unwaited.unqueued⟩
  cases action with
  | take requester snapshot =>
    simp only [Session.step, Session.take, gone.free]
    split
    · split
      · exact same rfl rfl rfl rfl rfl rfl rfl
      · exact gone
    · split
      · exact same rfl rfl rfl rfl rfl rfl rfl
      · exact gone
    · exact gone
  | deliver requester =>
    simp only [Session.step, Session.deliver, gone.free]
    split
    · split
      · split_ifs <;> exact same rfl rfl gone.free rfl rfl rfl rfl
      · exact gone
    · split
      · split_ifs <;> exact same rfl rfl rfl rfl rfl rfl rfl
      · exact gone
    · exact gone
  | lose requester message =>
    simp only [Session.step, Session.lose, gone.free]
    split
    · split
      · simp only [Session.monitorFailed, gone.detached, Bool.false_eq_true, ↓reduceIte]
        exact same rfl gone.detached.symm gone.free rfl rfl rfl rfl
      · exact gone
    · exact same rfl rfl rfl rfl rfl rfl rfl
    · exact gone
  | sync call =>
    simp only [Session.step, gone.absent, Bool.false_and, Bool.false_eq_true, ↓reduceIte]
    exact gone
  | stop => exact same rfl rfl gone.free rfl rfl rfl rfl
  | markCleanup =>
    simp only [Session.step, gone.absent, Bool.false_eq_true, ↓reduceIte]
    exact gone
  | cleanup =>
    simp only [Session.step, gone.absent, Bool.false_and, Bool.false_eq_true, ↓reduceIte]
    exact gone
  | turn =>
    simp only [Session.step, Session.turn]
    split
    next caller task rest free waiting =>
      have begun : Gone { session with lane := rest } := same rfl rfl gone.free rfl rfl rfl rfl
      refine begun.begin caller ?_
      rintro rfl
      have present := orderly free caller rest waiting
      rw [gone.absent] at present
      cases present
    · exact gone
  | answer succeeds message =>
    simp only [Session.step, Session.answer, gone.free]
    exact gone
  | rolledBack requested confirmed message =>
    simp only [Session.step, Session.rolledBack, gone.free]
    exact gone
  | wait call =>
    simp only [Session.step]
    split
    · exact gone.goto call (by simp)
    · exact gone
  | sendWait call =>
    simp only [Session.step, gone.absent, Bool.false_eq_true, ↓reduceIte]
    split <;> exact gone
  | flushed call =>
    simp only [Session.step]
    split
    next reserved position _ =>
      split
      · exact gone
      · exact gone.endCall call reserved
      · simp only [Session.enterWait, gone.absent, ↓reduceIte]
        exact gone.endCall call reserved
    · exact gone
  | matched call found admitted =>
    simp only [Session.step]
    split
    next reserved matching => exact absurd matching (gone.unwaited.unmatched call reserved)
    · exact gone
  | settle call result =>
    simp only [Session.step, gone.settleWait]
    exact gone
  | exit index result => exact gone.exit index result
  | otherWait =>
    refine ⟨gone.absent, gone.detached, gone.free, gone.unstored, gone.unwaited.unregistered,
      gone.unwaited.unmatched, ?_⟩
    intro entry member queued
    simp only [Session.step, TaskChains.enqueue, List.mem_append, List.mem_singleton] at member
    obtain known | rfl := member
    · exact gone.unwaited.unqueued entry known queued
    · rfl
  | queueWrite succeeds => exact gone.queueWrite succeeds

/-- The deletion completes. -/
theorem Standing.deleted (standing : Standing session) {caller : Caller} (message : JsString)
    (deleting : session.running = some (caller, .deleting)) (unwaited : Unwaited session) :
    Gone (session.answer darwin true message) := by
  have within := complete_within { session with
    stored := false
    present := false
    running := some (caller, .deleting) } caller true
  simp only [Session.answer, deleting, ↓reduceIte]
  exact
    { absent := within.present
      detached := within.attached.trans (standing.unlinked caller deleting)
      free := complete_free _ caller true
      unstored := within.stored
      unwaited := ⟨within.waits.trans unwaited.unregistered, by
        rw [within.calls]
        exact unwaited.unmatched, by
        rw [within.persistQueue]
        exact unwaited.unqueued⟩ }

end Gone

/-- Where every deletion completes after the waits of the session, a session that was deleted has
no metadata on disk, whatever happens afterwards. -/
theorem deleted_stays_deleted (darwin : Bool) {start : Session} (standing : Standing start)
    (actions : List Action) (orderly : Along (Session.step darwin) Orderly start actions)
    (deleted : (run (Session.step darwin) start actions).present = false) :
    (run (Session.step darwin) start actions).stored = false := by
  have kept : Standing (run (Session.step darwin) start actions) ∨
      Gone (run (Session.step darwin) start actions) := by
    refine @run_preserves_along _ _ (Session.step darwin) Orderly
      (fun session => Standing session ∨ Gone session) ?_ start actions (.inl standing) orderly
    rintro session action (standing | gone) met
    · rcases standing.step darwin action with kept | ⟨message, caller, rfl, deleting⟩
      · exact .inl kept
      · exact .inr (standing.deleted message deleting (met caller deleting))
    · exact .inr (gone.step met)
  rcases kept with standing | gone
  · rw [standing.present] at deleted
    cases deleted
  · exact gone.unstored

/-- A session that was just started is standing. -/
theorem startedSession_standing : Standing startedSession :=
  ⟨rfl, fun _ deleting => nomatch deleting⟩

/-- A wait returns and its result is written; then the session is lost and deleted, and stays so
while another session goes on. -/
theorem deleted_stays_deleted_after_wait :
    (run (Session.step false) startedSession
      [.wait 0, .flushed 0, .matched 0 (.found .null) true, .queueWrite true, .lose .monitor [],
        .turn, .rolledBack true true [], .answer true [], .cleanup, .turn, .answer true [],
        .otherWait, .queueWrite true]).present = false ∧
    (run (Session.step false) startedSession
      [.wait 0, .flushed 0, .matched 0 (.found .null) true, .queueWrite true, .lose .monitor [],
        .turn, .rolledBack true true [], .answer true [], .cleanup, .turn, .answer true [],
        .otherWait, .queueWrite true]).stored = false := by
  refine ⟨by decide, deleted_stays_deleted false startedSession_standing _ ?_ (by decide)⟩
  refine ⟨trivial, trivial, trivial, trivial, trivial, fun _ _ _ _ => rfl, trivial, ?_, trivial,
    fun _ _ _ _ => rfl, ?_, trivial, trivial, trivial⟩
  · intro caller deleting
    cases deleting
  · intro caller deleting
    refine ⟨rfl, ?_, ?_⟩
    · intro call reserved matching
      cases call with
      | zero => cases matching
      | succ other => cases matching
    · intro entry member queued
      cases member with
      | head => cases queued
      | tail _ rest => cases rest

/-- A wait is registered, and the session is lost and deleted. When the deadline of the wait
passes, its result is written and the metadata of the session is back. -/
theorem deadline_after_deletion_writes :
    Standing startedSession ∧
    (run (Session.step false) startedSession
      [.wait 0, .flushed 0, .matched 0 (.nothing .null) true, .lose .monitor [], .turn,
        .rolledBack true true [], .answer true [], .cleanup, .turn, .answer true [],
        .settle 0 .null, .queueWrite true]).present = false ∧
    (run (Session.step false) startedSession
      [.wait 0, .flushed 0, .matched 0 (.nothing .null) true, .lose .monitor [], .turn,
        .rolledBack true true [], .answer true [], .cleanup, .turn, .answer true [],
        .settle 0 .null, .queueWrite true]).stored = true :=
  ⟨startedSession_standing, by decide, by decide⟩

end OpencodePty.SessionDeletion
