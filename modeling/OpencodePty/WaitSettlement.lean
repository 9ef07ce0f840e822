import OpencodePty.SessionLanes

/-!
# Waits of sessions that have ended

A wait that is registered holds a reservation until it is settled. When a session leaves the
active statuses, the path that takes it there has to settle the waits, and `resolveExitWaits` does
so after the writes that were queued before. The rollback of a worker calls nothing of the kind,
a write of `persistNativeFinalizationFailure` that fails comes before its call, and the callback is
lost where the shared queue was rejected or a read of the journal fails.
-/

namespace OpencodePty.WaitSettlement

open JsValues NativeSnapshots TaskChains Transitions SessionLanes

/-- The callback will settle the wait. -/
def covers (call : Nat) : Exit → Prop
  | .awaiting _ => True
  | .settling remaining => call ∈ remaining

/-- Every registered wait is about to be settled. -/
def Covered (waits : List Nat) (exits : List Exit) : Prop :=
  ∀ call ∈ waits, ∃ exit ∈ exits, covers call exit

/-- The callback is given up: the queue that it awaited was rejected, or a read failed. -/
def Dropped (session : Session) (exit : Exit) (result : Option Js) : Prop :=
  (∃ position, exit = .awaiting position ∧
      awaited session.persistQueue position = .rejected) ∨
    ∃ call rest, exit = .settling (call :: rest) ∧ result = none

/-- A rollback takes no active session with registered waits out of the active statuses. Where the
last write of `persistNativeFinalizationFailure` fails, or a callback is given up, the registered
waits are about to be settled otherwise. -/
def Settles (session : Session) : Action → Prop
  | .rolledBack _ _ _ => ∀ caller version,
    session.running = some (caller, .rollbackWorker version) →
      session.record.activeStatus = true → session.waits = []
  | .answer false _ => ∀ caller running, session.running = some (caller, running) →
    (∃ result, running = .failureWrite result false) ∨
      (∃ final, running = .finalizationWrite final) → Covered session.waits session.exits
  | .exit index result => ∀ exit, session.exits[index]? = some exit → Dropped session exit result →
    Covered session.waits (session.exits.eraseIdx index)
  | _ => True

/-- No task is queued or running. -/
structure Quiescent (session : Session) : Prop where
  lane : session.lane = []
  running : session.running = none
  persistQueue : Idle session.persistQueue
  exits : session.exits = []
  calls : ∀ call, session.calls call = .idle ∨ session.calls call = .done

/-- The session is being or was deleted. -/
def Ending (session : Session) : Prop :=
  session.present = false ∨ ∃ caller, (caller, Task.delete) ∈ session.lane

/-- What holds between the tasks of the lane. -/
structure Steady (session : Session) : Prop where
  consistent : session.record.Consistent
  covered : session.record.activeStatus = false → Covered session.waits session.exits
  ending : Ending session → session.record.activeStatus = false

/-- What every step keeps: the waits of an inactive session are about to be settled, or the holder
of the lane is about to see to it. -/
structure Watched (session : Session) : Prop where
  consistent : session.record.Consistent
  covered : session.record.activeStatus = false → Covered session.waits session.exits ∨
    ∃ caller running, session.running = some (caller, running) ∧ running.resolves = true
  ending : Ending session → session.record.activeStatus = false
  deleting : ∀ caller, session.running = some (caller, .deleting) →
    session.record.activeStatus = false

section Lane

variable {darwin : Bool} {session after : Session}

/-- Fewer waits are covered as well. -/
theorem Covered.subset {waits fewer : List Nat} {exits : List Exit} (covered : Covered waits exits)
    (subset : ∀ call ∈ fewer, call ∈ waits) : Covered fewer exits :=
  fun call member => covered call (subset call member)

/-- The holder of the lane, if there is one, does not see to the waits. -/
theorem Watched.steady (watched : Watched session)
    (idle : ∀ caller running, session.running = some (caller, running) → running.resolves = false) :
    Steady session where
  consistent := watched.consistent
  covered inactive := by
    rcases watched.covered inactive with covered | ⟨caller, running, held, resolves⟩
    · exact covered
    · rw [idle caller running held] at resolves
      cases resolves
  ending := watched.ending

/-- A session that goes on is watched. -/
theorem Steady.continues (steady : Steady session) (continues : Continues session after) :
    Watched after where
  consistent := continues.follows.consistent steady.consistent
  covered inactive := by
    rcases continues.leaves inactive with before | resolving
    · left
      rw [continues.waits, continues.exits]
      exact steady.covered before
    · exact .inr resolving
  ending := by
    rintro (absent | ⟨caller, waiting⟩)
    · exact continues.follows.inactive steady.consistent
        (steady.ending (.inl (continues.present.symm.trans absent)))
    · rcases continues.lane _ waiting with known | other
      · exact continues.follows.inactive steady.consistent (steady.ending (.inr ⟨caller, known⟩))
      · cases other
  deleting caller held := absurd held (continues.calm caller)

/-- A change of what the waits do not depend on. -/
theorem Steady.same (steady : Steady session) (record : after.record = session.record)
    (present : after.present = session.present) (lane : ∀ entry ∈ after.lane, entry ∈ session.lane)
    (waits : after.waits = session.waits) (exits : after.exits = session.exits) : Steady after where
  consistent := record ▸ steady.consistent
  covered inactive := by
    rw [waits, exits]
    exact steady.covered (record ▸ inactive)
  ending := by
    rw [record]
    rintro (absent | ⟨caller, waiting⟩)
    · exact steady.ending (.inl (present.symm.trans absent))
    · exact steady.ending (.inr ⟨caller, lane _ waiting⟩)

/-- To look at the waits again covers all of them. -/
theorem resolveExitWaits_covered (session : Session) :
    Covered session.resolveExitWaits.waits session.resolveExitWaits.exits := by
  unfold Session.resolveExitWaits
  split_ifs with none
  · rw [none]
    exact fun _ member => nomatch member
  · exact fun _ _ => ⟨.awaiting session.persistQueue.length, by simp, trivial⟩

/-- After its write `finishNativeVersion` has seen to the waits of an inactive session. -/
theorem Watched.afterFinishWrite (watched : Watched session) : Steady session.afterFinishWrite := by
  have written := afterFinishWrite_written session
  refine ⟨written.record ▸ watched.consistent, ?_, ?_⟩
  · intro inactive
    rw [written.record] at inactive
    simp only [Session.afterFinishWrite, inactive, Bool.false_eq_true, ↓reduceIte]
    exact resolveExitWaits_covered _
  · rw [written.record, Ending, written.present, written.lane]
    exact watched.ending

/-- `persistNativeFinalizationFailure` has seen to the waits where it could write. -/
theorem Watched.afterFailureWrite (watched : Watched session) {succeeds : Bool}
    (settled : succeeds = false → Covered session.waits session.exits) :
    Steady (session.afterFailureWrite succeeds) := by
  have written := afterFailureWrite_written session succeeds
  refine ⟨written.record ▸ watched.consistent, ?_, ?_⟩
  · intro _
    cases succeeds with
    | true => exact resolveExitWaits_covered _
    | false => exact settled rfl
  · rw [written.record, Ending, written.present, written.lane]
    exact watched.ending

/-- A task begins. -/
theorem Steady.begin (steady : Steady session) (caller : Caller) {task : Task}
    (deletable : task = .delete → session.record.activeStatus = false) :
    Watched (session.begin darwin caller task) := by
  have consistent := steady.consistent
  cases task with
  | finish result version =>
    exact steady.continues (finishNativeInLane_continues darwin session caller _ _ _ _)
  | finalize result =>
    exact steady.continues (finalizeNativeInLane_continues darwin session caller _ _)
  | rollback =>
    simp only [Session.begin]
    split_ifs
    · exact steady.continues (await_continues session.bumpVersion caller (by simp)).bumped
    · exact steady.continues (complete_continues session caller true)
  | stop =>
    simp only [Session.begin]
    split_ifs
    · refine steady.continues (beginWrite_continues darwin session caller (by simp)
        SessionRecord.requestStop_follows ?_)
      intro inactive
      left
      -- the request itself keeps an active session active
      rw [SessionRecord.refreshed_active (SessionRecord.requestStop_follows.consistent consistent)]
        at inactive
      by_contra active
      rw [Bool.not_eq_false] at active
      rw [SessionRecord.requestStop_active consistent active] at inactive
      cases inactive
    · exact steady.continues (complete_continues session caller false)
  | markCleanup =>
    refine steady.continues (beginWrite_continues darwin session caller (by simp)
      SessionRecord.markCleanup_follows ?_)
    intro inactive
    rw [SessionRecord.refreshed_active (SessionRecord.markCleanup_follows.consistent consistent)]
      at inactive
    exact .inl inactive
  | delete =>
    simp only [Session.begin]
    split_ifs
    · exact ⟨consistent, fun inactive => .inl (steady.covered inactive), steady.ending,
        fun _ _ => deletable rfl⟩
    · exact steady.continues (complete_continues session caller true)
  | input call =>
    simp only [Session.begin]
    split_ifs
    · exact steady.continues (await_continues session caller (by simp))
    · have ended : Steady (session.endCall call true) :=
        steady.same rfl rfl (fun _ member => member) rfl rfl
      exact ended.continues (complete_continues _ caller false)

/-- A failed finalization is recorded, and the waits are seen to after the write. -/
theorem Watched.failing (watched : Watched session) (caller : Caller) (result : WorkerSnapshot)
    (message : JsString) {running : Running} (resolves : running.resolves = true) :
    Watched (session.beginWrite darwin caller
      (session.record.failFinalization darwin result message) running) := by
  have follows : SessionRecord.Follows session.record
      ((session.record.failFinalization darwin result message).refreshed darwin) :=
    (SessionRecord.failFinalization_follows result message).trans SessionRecord.refreshed_follows
  exact
    { consistent := follows.consistent watched.consistent
      covered := fun _ => .inr ⟨caller, running, rfl, resolves⟩
      ending := fun ending => follows.inactive watched.consistent (watched.ending ending)
      deleting := by
        rintro holder held
        cases held
        cases resolves }

/-- What the holder of the lane awaited arrives. -/
theorem Watched.answer (watched : Watched session) {succeeds : Bool} {message : JsString}
    (settles : Settles session (.answer succeeds message)) :
    Watched (session.answer darwin succeeds message) := by
  unfold Session.answer
  split
  next caller result finalizing held =>
    split_ifs
    · exact watched.afterFinishWrite.continues (finished_continues darwin _ caller _ _ _ _)
    · exact watched.failing caller result.snapshot message rfl
  next caller result finalizing held =>
    cases finalizing with
    | false =>
      refine (watched.afterFailureWrite ?_).continues (finished_continues darwin _ caller _ _ _ _)
      rintro rfl
      exact settles caller _ held (.inl ⟨result, rfl⟩)
    | true =>
      cases succeeds with
      | true =>
        exact (watched.afterFailureWrite (by simp)).continues
          (finished_continues darwin _ caller _ _ _ _)
      | false =>
        -- a finalization records its failure once more
        have bumped : Watched session.bumpVersion :=
          ⟨watched.consistent, watched.covered, watched.ending, watched.deleting⟩
        simp only [Session.finished, Session.afterFailureWrite, Bool.false_eq_true, ↓reduceIte]
        split_ifs
        · exact bumped.failing caller result.snapshot message rfl
        · exact watched.failing caller result.snapshot message rfl
  next caller final held =>
    refine (watched.afterFailureWrite ?_).continues (shutDown_continues darwin _ caller _ _)
    rintro rfl
    exact settles caller _ held (.inr ⟨final, rfl⟩)
  next caller rejected held =>
    have steady := watched.steady (by rintro _ _ other; rw [held] at other; cases other; rfl)
    have detached : Steady { session with attached := false } :=
      steady.same rfl rfl (fun _ member => member) rfl rfl
    exact detached.continues (finalized_continues _ caller rejected)
  next caller held =>
    have steady := watched.steady (by rintro _ _ other; rw [held] at other; cases other; rfl)
    split_ifs
    · have bumped : Steady { session.bumpVersion with stored := true, attached := false } :=
        steady.same rfl rfl (fun _ member => member) rfl rfl
      exact bumped.continues (complete_continues _ caller true)
    · exact steady.continues (complete_continues session caller false)
  next caller held =>
    have steady := watched.steady (by rintro _ _ other; rw [held] at other; cases other; rfl)
    split_ifs
    · have written : Steady { session with stored := true } :=
        steady.same rfl rfl (fun _ member => member) rfl rfl
      exact written.continues (await_continues _ caller (by simp))
    · exact steady.continues (complete_continues session caller false)
  next caller held =>
    have steady := watched.steady (by rintro _ _ other; rw [held] at other; cases other; rfl)
    have written : Steady { session with stored := session.stored || succeeds } :=
      steady.same rfl rfl (fun _ member => member) rfl rfl
    exact written.continues (complete_continues _ caller succeeds)
  next caller held =>
    have steady := watched.steady (by rintro _ _ other; rw [held] at other; cases other; rfl)
    split_ifs
    · have deleted : Steady { session with stored := false, present := false } :=
        ⟨steady.consistent, steady.covered, fun _ => watched.deleting caller held⟩
      exact deleted.continues (complete_continues _ caller true)
    · exact steady.continues (complete_continues session caller false)
  next caller call held =>
    have steady := watched.steady (by rintro _ _ other; rw [held] at other; cases other; rfl)
    split_ifs
    · have moved : Steady (session.goto call (.flushing true session.persistQueue.length)) :=
        steady.same rfl rfl (fun _ member => member) rfl rfl
      exact moved.continues (complete_continues _ caller true)
    · have ended : Steady (session.endCall call true) :=
        steady.same rfl rfl (fun _ member => member) rfl rfl
      exact ended.continues (complete_continues _ caller false)
  next => exact watched

/-- A snapshot that is delivered leaves the session watched. -/
theorem Watched.deliver (watched : Watched session) (requester : Requester) :
    Watched (session.deliver darwin requester) := by
  have handed {next : Session} {caller : Caller} {task : Task}
      (record : next.record = session.record)
      (present : next.present = session.present) (running : next.running = session.running)
      (lane : next.lane = session.lane ++ [(caller, task)]) (kept : task ≠ .delete)
      (waits : next.waits = session.waits) (exits : next.exits = session.exits) : Watched next := by
    refine ⟨record ▸ watched.consistent, ?_, ?_, ?_⟩
    · rw [record, waits, exits, running]
      exact watched.covered
    · rw [record]
      rintro (absent | ⟨holder, waiting⟩)
      · exact watched.ending (.inl (present.symm.trans absent))
      · rw [lane, List.mem_append, List.mem_singleton] at waiting
        rcases waiting with known | same
        · exact watched.ending (.inr ⟨holder, known⟩)
        · cases same
          exact absurd rfl kept
    · rw [record, running]
      exact watched.deleting
  cases requester with
  | monitor =>
    simp only [Session.deliver]
    split
    · split_ifs <;> exact handed rfl rfl rfl rfl (by simp) rfl rfl
    · exact watched
  | sync call =>
    simp only [Session.deliver]
    split
    · split_ifs
      · exact ⟨watched.consistent, watched.covered, watched.ending, watched.deleting⟩
      · exact handed rfl rfl rfl rfl (by simp) rfl rfl
      · exact handed rfl rfl rfl rfl (by simp) rfl rfl
    · exact watched
  | lane =>
    simp only [Session.deliver]
    split
    next caller _ version final held =>
      have steady := watched.steady (by rintro _ _ other; rw [held] at other; cases other; rfl)
      exact steady.continues (finishNativeInLane_continues darwin session caller _ _ _ _)
    next caller result held =>
      have steady := watched.steady (by rintro _ _ other; rw [held] at other; cases other; rfl)
      exact steady.continues (finalizeNativeInLane_continues darwin session caller _ _)
    · exact watched

/-- The monitor catches an error; its rollback waits in the lane. -/
theorem Watched.monitorFailed (watched : Watched session) : Watched session.monitorFailed where
  consistent := by
    rw [monitorFailed_record]
    exact watched.consistent
  covered := by
    rw [monitorFailed_record, monitorFailed_running, (monitorFailed_within session).waits,
      (monitorFailed_within session).exits]
    exact watched.covered
  ending := by
    rw [monitorFailed_record]
    rintro (absent | ⟨caller, waiting⟩)
    · exact watched.ending (.inl ((monitorFailed_within session).present.symm.trans absent))
    · rcases monitorFailed_lane session _ waiting with known | other
      · exact watched.ending (.inr ⟨caller, known⟩)
      · cases other
  deleting := by
    rw [monitorFailed_record, monitorFailed_running]
    exact watched.deleting

/-- A snapshot that is lost leaves the session watched. -/
theorem Watched.lose (watched : Watched session) (requester : Requester) (message : JsString) :
    Watched (session.lose darwin requester message) := by
  cases requester with
  | monitor =>
    simp only [Session.lose]
    split
    · exact watched.monitorFailed
    · exact watched
  | sync call => exact ⟨watched.consistent, watched.covered, watched.ending, watched.deleting⟩
  | lane =>
    simp only [Session.lose]
    split
    next caller result _ _ _ => exact watched.failing caller result.snapshot message rfl
    next caller _ held =>
      have steady := watched.steady (by rintro _ _ other; rw [held] at other; cases other; rfl)
      exact steady.continues (complete_continues session caller false)
    · exact watched

/-- The worker was rolled back: the session is lost, and nothing settles its waits. -/
theorem Watched.rolledBack (watched : Watched session) {requested confirmed : Bool}
    {message : JsString} (settles : Settles session (.rolledBack requested confirmed message)) :
    Watched (session.rolledBack darwin requested confirmed message) := by
  unfold Session.rolledBack
  split
  next caller version held =>
    have steady := watched.steady (by rintro _ _ other; rw [held] at other; cases other; rfl)
    have covered : Covered session.waits session.exits := by
      cases active : session.record.activeStatus with
      | true =>
        rw [settles caller version held active]
        exact fun _ member => nomatch member
      | false => exact steady.covered active
    have consistent := (@SessionRecord.rollBack_follows darwin session.record requested confirmed
      message).consistent steady.consistent
    have inactive := @SessionRecord.rollBack_inactive darwin session.record steady.consistent
      requested confirmed message
    split_ifs
    · have lost : Steady { session with
          record := session.record.rollBack darwin requested confirmed message
          attached := false } := ⟨consistent, fun _ => covered, fun _ => inactive⟩
      exact lost.continues (complete_continues _ caller true)
    · exact
        { consistent := SessionRecord.refreshed_follows.consistent consistent
          covered := fun _ => .inl covered
          ending := fun _ => SessionRecord.refreshed_follows.inactive consistent inactive
          deleting := fun _ deleting => nomatch deleting }
  · exact watched

/-- A snapshot that is taken leaves the session watched. -/
theorem Watched.take (watched : Watched session) (requester : Requester)
    (snapshot : WorkerSnapshot) : Watched (session.take requester snapshot) := by
  cases requester with
  | monitor =>
    simp only [Session.take]
    split
    · exact ⟨watched.consistent, watched.covered, watched.ending, watched.deleting⟩
    · exact watched
  | sync call =>
    simp only [Session.take]
    split
    · exact ⟨watched.consistent, watched.covered, watched.ending, watched.deleting⟩
    · exact watched
  | lane =>
    simp only [Session.take]
    split
    next caller _ _ held =>
      have steady := watched.steady (by rintro _ _ other; rw [held] at other; cases other; rfl)
      exact ⟨steady.consistent, fun inactive => .inl (steady.covered inactive), steady.ending,
        fun _ deleting => nomatch deleting⟩
    next caller held =>
      have steady := watched.steady (by rintro _ _ other; rw [held] at other; cases other; rfl)
      exact ⟨steady.consistent, fun inactive => .inl (steady.covered inactive), steady.ending,
        fun _ deleting => nomatch deleting⟩
    · exact watched

end Lane

/-! ## Steps of the waits -/

section Waits

variable {darwin : Bool} {session after : Session}

/-- The waits that are left are settled by the callbacks that are left. -/
theorem Watched.fewer (watched : Watched session)
    (record : SessionRecord.Follows session.record after.record)
    (status : after.record.activeStatus = session.record.activeStatus)
    (present : after.present = session.present) (lane : after.lane = session.lane)
    (running : after.running = session.running)
    (covered : Covered session.waits session.exits → Covered after.waits after.exits) :
    Watched after where
  consistent := record.consistent watched.consistent
  covered := by
    rw [status, running]
    intro inactive
    exact (watched.covered inactive).imp_left covered
  ending := by
    rw [status, Ending, present, lane]
    exact watched.ending
  deleting := by
    rw [status, running]
    exact watched.deleting

/-- The end of a wait leaves the session watched. -/
theorem Watched.endCall (watched : Watched session) (call : Nat) (reserved : Bool) :
    Watched (session.endCall call reserved) := by
  cases reserved <;>
    exact ⟨watched.consistent, watched.covered, watched.ending, watched.deleting⟩

/-- A result that is noted leaves the session watched. -/
theorem Watched.finishWait (watched : Watched session) (result : Js) :
    Watched (session.finishWait result) :=
  watched.fewer (SessionRecord.keepWaitResult_follows result) rfl rfl rfl rfl id

/-- The result of a wait leaves the session watched. -/
theorem Watched.settleWait (watched : Watched session) (call : Nat) (result : Js) :
    Watched (session.settleWait call result) := by
  unfold Session.settleWait
  split_ifs
  · refine watched.fewer (SessionRecord.keepWaitResult_follows result) rfl rfl rfl rfl ?_
    intro covered
    exact covered.subset fun other member => (List.mem_filter.mp member).1
  · exact watched

/-- A wait is registered only while the session is active. -/
theorem Watched.afterMatch (watched : Watched session) (call : Nat) (reserved : Bool)
    (found : Match) (admitted : Bool) :
    Watched (session.afterMatch call reserved found admitted) := by
  unfold Session.afterMatch
  split
  · exact watched.endCall call reserved
  · exact (watched.endCall call reserved).finishWait _
  · split_ifs with ended
    · exact (watched.endCall call reserved).finishWait _
    · exact ⟨watched.consistent, fun inactive => absurd inactive ended, watched.ending,
        watched.deleting⟩
    · exact watched.endCall call reserved

/-- A callback that covers nothing may go. -/
theorem Covered.eraseIdx {waits : List Nat} {exits : List Exit} {index : Nat} {exit : Exit}
    (covered : Covered waits exits) (found : exits[index]? = some exit)
    (empty : ∀ call, ¬covers call exit) : Covered waits (exits.eraseIdx index) := by
  intro call member
  obtain ⟨other, known, settles⟩ := covered call member
  refine ⟨other, ?_, settles⟩
  rw [List.mem_iff_getElem?] at known
  obtain ⟨place, stored⟩ := known
  rw [List.mem_eraseIdx_iff_getElem?]
  refine ⟨place, ?_, stored⟩
  rintro rfl
  rw [found] at stored
  cases stored
  exact empty call settles

/-- A callback may be replaced by one that covers what it covered of the waits that are left. -/
theorem Covered.set {waits fewer : List Nat} {exits : List Exit} {index : Nat} {exit next : Exit}
    (covered : Covered waits exits) (found : exits[index]? = some exit)
    (subset : ∀ call ∈ fewer, call ∈ waits)
    (still : ∀ call ∈ fewer, covers call exit → covers call next) :
    Covered fewer (exits.set index next) := by
  intro call member
  obtain ⟨other, known, settles⟩ := covered call (subset call member)
  rw [List.mem_iff_getElem?] at known
  obtain ⟨place, stored⟩ := known
  obtain ⟨inside, _⟩ := List.getElem?_eq_some_iff.mp found
  by_cases same : index = place
  · subst same
    rw [found] at stored
    cases stored
    exact ⟨next, List.mem_iff_getElem?.mpr ⟨index, by simp [inside]⟩, still call member settles⟩
  · exact ⟨other, List.mem_iff_getElem?.mpr ⟨place, by rw [List.getElem?_set_ne same]; exact stored⟩,
      settles⟩

/-- A callback of `resolveExitWaits` goes on. -/
theorem Watched.exit (watched : Watched session) {index : Nat} {result : Option Js}
    (settles : Settles session (.exit index result)) :
    Watched (session.stepExit index result) := by
  have rewritten {exits : List Exit}
      (covered : Covered session.waits session.exits → Covered session.waits exits) :
      Watched { session with exits } :=
    watched.fewer (.refl session.record) rfl rfl rfl rfl covered
  unfold Session.stepExit
  split
  · exact watched
  next position found =>
    split
    · exact watched
    next failed =>
      exact rewritten fun _ => settles _ found (.inl ⟨position, rfl, failed⟩)
    · exact rewritten fun covered =>
        covered.set found (fun _ member => member) fun _ member _ => member
  next found => exact rewritten fun covered => covered.eraseIdx found fun _ member => nomatch member
  next call rest found =>
    split
    · exact rewritten fun _ => settles _ found (.inr ⟨call, rest, rfl, rfl⟩)
    next result =>
      -- the wait that is settled now is the only one that the callback no longer covers
      unfold Session.settleWait
      split_ifs with pending
      · refine watched.fewer (SessionRecord.keepWaitResult_follows result) rfl rfl rfl rfl ?_
        intro covered
        refine covered.set found (fun _ member => (List.mem_filter.mp member).1) ?_
        intro other member settled
        have different : other ≠ call := by simpa using (List.mem_filter.mp member).2
        rcases List.mem_cons.mp settled with same | later
        · exact absurd same different
        · exact later
      · refine rewritten fun covered => covered.set found (fun _ member => member) ?_
        intro other member settled
        rcases List.mem_cons.mp settled with rfl | later
        · exact absurd member pending
        · exact later

/-- A write of the queue leaves the session watched. -/
theorem Watched.queueWrite (watched : Watched session) (succeeds : Bool) :
    Watched (session.stepQueueWrite darwin succeeds) := by
  refine watched.fewer ?_ ?_ rfl rfl rfl id
  · simp only [Session.stepQueueWrite]
    split_ifs
    · exact SessionRecord.refreshed_follows
    · exact .refl session.record
  · simp only [Session.stepQueueWrite]
    split_ifs
    · exact SessionRecord.refreshed_active watched.consistent
    · rfl

/-- A task leaves the session watched, where it does not delete an active one. -/
theorem Watched.enqueue (watched : Watched session) (caller : Caller) {task : Task}
    (kept : task ≠ .delete ∨ session.record.activeStatus = false) :
    Watched (session.enqueue caller task) where
  consistent := watched.consistent
  covered := watched.covered
  ending := by
    rintro (absent | ⟨holder, waiting⟩)
    · exact watched.ending (.inl absent)
    · simp only [Session.enqueue, List.mem_append, List.mem_singleton] at waiting
      rcases waiting with known | same
      · exact watched.ending (.inr ⟨holder, known⟩)
      · cases same
        exact kept.elim (fun other => absurd rfl other) id
  deleting := watched.deleting

/-- One action leaves the session watched, where it settles what it has to. -/
theorem Watched.step (watched : Watched session) {action : Action}
    (settles : Settles session action) : Watched (session.step darwin action) := by
  cases action with
  | take requester snapshot => exact watched.take requester snapshot
  | deliver requester => exact watched.deliver requester
  | lose requester message => exact watched.lose requester message
  | answer succeeds message => exact watched.answer settles
  | rolledBack requested confirmed message => exact watched.rolledBack settles
  | exit index result => exact watched.exit settles
  | settle call result => exact watched.settleWait call result
  | queueWrite succeeds => exact watched.queueWrite succeeds
  | otherWait => exact ⟨watched.consistent, watched.covered, watched.ending, watched.deleting⟩
  | sync call =>
    simp only [Session.step]
    split_ifs
    · exact ⟨watched.consistent, watched.covered, watched.ending, watched.deleting⟩
    · exact watched
  | stop => exact watched.enqueue .other (.inl (by simp))
  | markCleanup =>
    simp only [Session.step]
    split_ifs
    · exact watched.enqueue .other (.inl (by simp))
    · exact watched
  | cleanup =>
    simp only [Session.step]
    split_ifs with passed
    · exact watched.enqueue .other (.inr (by simpa using (Bool.and_eq_true_iff.mp passed).2))
    · exact watched
  | turn =>
    simp only [Session.step, Session.turn]
    split
    next caller task rest free waiting =>
      have steady := watched.steady (by rintro _ _ other; rw [free] at other; cases other)
      have popped : Steady { session with lane := rest } :=
        steady.same rfl rfl (fun _ member => by rw [waiting]; exact List.mem_cons_of_mem _ member)
          rfl rfl
      refine popped.begin caller ?_
      rintro rfl
      exact steady.ending (.inr ⟨caller, by rw [waiting]; exact List.mem_cons_self⟩)
    · exact watched
  | wait call =>
    simp only [Session.step]
    split
    · exact ⟨watched.consistent, watched.covered, watched.ending, watched.deleting⟩
    · exact watched
  | sendWait call =>
    simp only [Session.step]
    split
    · split_ifs
      · have queued := watched.enqueue .other (.inl (by simp : Task.input call ≠ .delete))
        exact ⟨queued.consistent, queued.covered, queued.ending, queued.deleting⟩
      · exact watched
    · exact watched
  | flushed call =>
    simp only [Session.step]
    split
    next reserved position _ =>
      split
      · exact watched
      · exact watched.endCall call reserved
      · unfold Session.enterWait
        split_ifs
        · exact watched.endCall call reserved
        · exact watched.endCall call reserved
        · exact ⟨watched.consistent, watched.covered, watched.ending, watched.deleting⟩
    · exact watched
  | matched call found admitted =>
    simp only [Session.step]
    split
    next reserved _ => exact watched.afterMatch call reserved found admitted
    · exact watched

end Waits

/-! ## Reservations -/

/-- The stages in which a call that is not registered holds a reservation. -/
def reserving : Call → Bool
  | .sending | .flushing true _ | .matching true => true
  | _ => false

/-- Every reservation belongs to a registered wait or to a call on the way there. -/
def Accounted (session : Session) : Prop :=
  ∀ call ∈ session.reserved, call ∈ session.waits ∨ reserving (session.calls call) = true

section Reservations

variable {darwin : Bool} {session after : Session}

/-- The same reservations and waits are accounted for. -/
theorem Accounted.same (accounted : Accounted session)
    (reserved : after.reserved = session.reserved)
    (waits : after.waits = session.waits) (calls : after.calls = session.calls) :
    Accounted after := by
  rw [Accounted, reserved, waits, calls]
  exact accounted

/-- What stays within an accounted session is accounted for. -/
theorem Accounted.within (accounted : Accounted session) (within : Within session after) :
    Accounted after :=
  accounted.same within.reserved within.waits within.calls

/-- What is allowed to a record that was written is accounted for. -/
theorem Accounted.written (accounted : Accounted session) (written : Written session after) :
    Accounted after :=
  accounted.same written.reserved written.waits written.calls

/-- A wait that keeps its reservation is accounted for. -/
theorem Accounted.goto (accounted : Accounted session) {call : Nat} {stage : Call}
    (kept : reserving (session.calls call) = true → reserving stage = true) :
    Accounted (session.goto call stage) := by
  intro other member
  rcases accounted other member with registered | holds
  · exact .inl registered
  · right
    simp only [Session.goto, Function.update_apply]
    split_ifs with same
    · subst same
      exact kept holds
    · exact holds

/-- A call that ends gives its reservation back. -/
theorem Accounted.endCall (accounted : Accounted session) {call : Nat} {reserved : Bool}
    (without : reserved = false → reserving (session.calls call) = false) :
    Accounted (session.endCall call reserved) := by
  cases reserved with
  | false =>
    refine accounted.goto ?_
    intro holds
    rw [without rfl] at holds
    cases holds
  | true =>
    intro other member
    obtain ⟨known, different⟩ := List.mem_filter.mp member
    rcases accounted other known with registered | holds
    · exact .inl registered
    · right
      have apart : other ≠ call := by simpa using different
      simp only [Session.endCall, Session.goto, ↓reduceIte, Function.update_of_ne apart]
      exact holds

/-- A result gives back the reservation of its wait. -/
theorem Accounted.settleWait (accounted : Accounted session) (call : Nat) (result : Js) :
    Accounted (session.settleWait call result) := by
  unfold Session.settleWait
  split_ifs
  · intro other member
    obtain ⟨known, different⟩ := List.mem_filter.mp member
    rcases accounted other known with registered | holds
    · exact .inl (List.mem_filter.mpr ⟨registered, different⟩)
    · exact .inr holds
  · exact accounted

/-- What a wait has found gives back its reservation, or registers the wait. -/
theorem Accounted.afterMatch (accounted : Accounted session) {call : Nat} {reserved : Bool}
    (matching : session.calls call = .matching reserved) (found : Match) (admitted : Bool) :
    Accounted (session.afterMatch call reserved found admitted) := by
  have ended : Accounted (session.endCall call reserved) :=
    accounted.endCall (by rintro rfl; rw [matching]; rfl)
  unfold Session.afterMatch
  split
  · exact ended
  · exact ended
  · split_ifs
    · exact ended
    · intro other member
      by_cases same : other = call
      · subst same
        exact .inl (by simp [Session.registerWait])
      · have known : other ∈ session.reserved := by
          simp only [Session.registerWait] at member
          split_ifs at member
          · exact member
          · simpa [same] using member
        rcases accounted other known with registered | holds
        · exact .inl (by simp [Session.registerWait, registered])
        · right
          simp only [Session.registerWait, Function.update_of_ne same]
          exact holds
    · exact ended

/-- A task that begins leaves the reservations accounted for. -/
theorem Accounted.begin (accounted : Accounted session) (caller : Caller) (task : Task) :
    Accounted (session.begin darwin caller task) := by
  have completed (succeeded : Bool) : Accounted (session.complete caller succeeded) :=
    accounted.within (complete_within session caller succeeded)
  cases task with
  | finish result version =>
    exact accounted.within (finishNativeInLane_continues darwin session caller _ _ _ _).toWithin
  | finalize result =>
    exact accounted.within (finalizeNativeInLane_continues darwin session caller _ _).toWithin
  | markCleanup => exact accounted
  | rollback =>
    simp only [Session.begin]
    split_ifs
    · exact accounted
    · exact completed true
  | stop =>
    simp only [Session.begin]
    split_ifs
    · exact accounted
    · exact completed false
  | delete =>
    simp only [Session.begin]
    split_ifs
    · exact accounted
    · exact completed true
  | input call =>
    simp only [Session.begin]
    split_ifs
    · exact accounted
    · exact (accounted.endCall (by simp)).within (complete_within _ caller false)

/-- An answer to a task leaves the reservations accounted for. -/
theorem Accounted.answer (accounted : Accounted session) (succeeds : Bool) (message : JsString) :
    Accounted (session.answer darwin succeeds message) := by
  have completed {next : Session} (caller : Caller) (succeeded : Bool)
      (still : Accounted next) : Accounted (next.complete caller succeeded) :=
    still.within (complete_within next caller succeeded)
  unfold Session.answer
  split
  next caller result finalizing _ =>
    split_ifs
    · exact (accounted.written (afterFinishWrite_written session)).within
        (finished_continues darwin _ caller _ _ _ _).toWithin
    · exact accounted
  next caller result finalizing _ =>
    exact (accounted.written (afterFailureWrite_written session succeeds)).within
      (finished_continues darwin _ caller _ _ _ _).toWithin
  next caller final _ =>
    exact (accounted.written (afterFailureWrite_written session succeeds)).within
      (shutDown_continues darwin _ caller _ _).toWithin
  next caller rejected _ =>
    exact @Accounted.within { session with attached := false } _ accounted
      (finalized_continues _ caller rejected).toWithin
  next caller _ =>
    split_ifs
    · exact completed caller true (accounted)
    · exact completed caller false accounted
  next caller _ =>
    split_ifs
    · exact accounted
    · exact completed caller false accounted
  next caller _ => exact completed caller succeeds (accounted)
  next caller _ =>
    split_ifs
    · exact completed caller true (accounted)
    · exact completed caller false accounted
  next caller call _ =>
    split_ifs
    · exact completed caller true (accounted.goto fun _ => rfl)
    · exact completed caller false (accounted.endCall (by simp))
  next => exact accounted

/-- One action leaves the reservations accounted for. -/
theorem Accounted.step (accounted : Accounted session) (action : Action) :
    Accounted (session.step darwin action) := by
  cases action with
  | take requester snapshot =>
    simp only [Session.step, Session.take]
    split <;> split <;> exact accounted
  | deliver requester =>
    simp only [Session.step, Session.deliver]
    split
    · split
      · split_ifs <;> exact accounted
      · exact accounted
    · split
      · split_ifs <;> exact accounted
      · exact accounted
    · split
      next caller _ _ _ _ =>
        exact accounted.within (finishNativeInLane_continues darwin session caller _ _ _ _).toWithin
      next caller _ _ =>
        exact accounted.within (finalizeNativeInLane_continues darwin session caller _ _).toWithin
      · exact accounted
  | lose requester message =>
    simp only [Session.step, Session.lose]
    split
    · split
      · exact accounted.within (monitorFailed_within session)
      · exact accounted
    · exact accounted
    · split
      · exact accounted
      next caller _ _ => exact accounted.within (complete_within session caller false)
      · exact accounted
  | rolledBack requested confirmed message =>
    simp only [Session.step, Session.rolledBack]
    split
    next caller _ _ =>
      split_ifs
      · refine Accounted.within ?_ (complete_within _ caller true)
        exact accounted
      · exact accounted
    · exact accounted
  | turn =>
    simp only [Session.step, Session.turn]
    split
    next caller task rest _ _ =>
      have popped : Accounted { session with lane := rest } := accounted
      exact popped.begin caller task
    · exact accounted
  | answer succeeds message => exact accounted.answer succeeds message
  | sync call =>
    simp only [Session.step]
    split_ifs
    · exact accounted
    · exact accounted
  | stop => exact accounted
  | markCleanup =>
    simp only [Session.step]
    split_ifs
    · exact accounted
    · exact accounted
  | cleanup =>
    simp only [Session.step]
    split_ifs
    · exact accounted
    · exact accounted
  | wait call =>
    simp only [Session.step]
    split
    next idle =>
      refine accounted.goto ?_
      rw [idle]
      exact fun holds => nomatch holds
    · exact accounted
  | sendWait call =>
    simp only [Session.step]
    split
    · split_ifs
      · intro other member
        by_cases same : other = call
        · subst same
          exact .inr (by simp [reserving])
        · have known : other ∈ session.reserved := by simpa [same] using member
          rcases accounted other known with registered | holds
          · exact .inl registered
          · exact .inr (by simpa only [Function.update_of_ne same] using holds)
      · exact accounted
    · exact accounted
  | flushed call =>
    simp only [Session.step]
    split
    next reserved position flushing =>
      have ended : Accounted (session.endCall call reserved) :=
        accounted.endCall (by rintro rfl; rw [flushing]; rfl)
      split
      · exact accounted
      · exact ended
      · unfold Session.enterWait
        split_ifs
        · exact ended
        · exact ended
        · refine accounted.goto ?_
          rw [flushing]
          cases reserved <;> exact id
    · exact accounted
  | matched call found admitted =>
    simp only [Session.step]
    split
    next reserved matching => exact accounted.afterMatch matching found admitted
    · exact accounted
  | settle call result => exact accounted.settleWait call result
  | exit index result =>
    simp only [Session.step, Session.stepExit]
    split
    · exact accounted
    · split <;> exact accounted
    · exact accounted
    · split
      · exact accounted
      · refine Accounted.settleWait ?_ _ _
        exact accounted
  | otherWait => exact accounted
  | queueWrite succeeds => exact accounted

end Reservations

/-! ## Runs -/

/-- A session under way, with nothing in its lane and no waits. -/
structure Started (session : Session) : Prop where
  consistent : session.record.Consistent
  active : session.record.activeStatus = true
  present : session.present = true
  lane : session.lane = []
  running : session.running = none
  reserved : session.reserved = []

/-- A session that was just started is watched. -/
theorem Started.watched {session : Session} (started : Started session) : Watched session where
  consistent := started.consistent
  covered inactive := by
    rw [started.active] at inactive
    cases inactive
  ending := by
    rintro (absent | ⟨caller, waiting⟩)
    · rw [started.present] at absent
      cases absent
    · rw [started.lane] at waiting
      cases waiting
  deleting caller held := by
    rw [started.running] at held
    cases held

/-- Where the waits are seen to on every path on which a session ends, a session that is no longer
active has no pending wait and holds no reservation when nothing is queued or running. -/
theorem waits_end_with_session (darwin : Bool) {start : Session} (started : Started start)
    (actions : List Action) (settles : Along (Session.step darwin) Settles start actions)
    (quiescent : Quiescent (run (Session.step darwin) start actions))
    (ended : (run (Session.step darwin) start actions).record.activeStatus = false ∨
      (run (Session.step darwin) start actions).present = false) :
    (run (Session.step darwin) start actions).waits = [] ∧
      (run (Session.step darwin) start actions).reserved = [] := by
  have watched : Watched (run (Session.step darwin) start actions) :=
    run_preserves_along (fun _ _ now met => now.step met) start actions started.watched settles
  have accounted : Accounted (run (Session.step darwin) start actions) :=
    run_preserves (fun _ action now => now.step action) start actions (by
      intro call member
      rw [started.reserved] at member
      cases member)
  generalize run (Session.step darwin) start actions = final at *
  have inactive : final.record.activeStatus = false :=
    ended.elim id fun absent => watched.ending (.inl absent)
  have waits : final.waits = [] := by
    rcases watched.covered inactive with covered | ⟨caller, running, held, _⟩
    · rw [List.eq_nil_iff_forall_not_mem]
      intro call member
      obtain ⟨exit, known, _⟩ := covered call member
      rw [quiescent.exits] at known
      cases known
    · rw [quiescent.running] at held
      cases held
  refine ⟨waits, ?_⟩
  rw [List.eq_nil_iff_forall_not_mem]
  intro call member
  rcases accounted call member with registered | holds
  · rw [waits] at registered
    cases registered
  · rcases quiescent.calls call with idle | done
    · rw [idle] at holds
      cases holds
    · rw [done] at holds
      cases holds

/-- This session was just started. -/
theorem startedSession_started : Started startedSession :=
  ⟨⟨trivial, rfl⟩, by decide, rfl, rfl, rfl, rfl⟩

/-- A wait is registered, the child ends, and the callback settles the wait. -/
theorem waits_end_with_session_at_exit :
    (run (Session.step false) startedSession
      [.wait 0, .flushed 0, .matched 0 (.nothing .null) true, .take .monitor (exitedSnapshot 3),
        .deliver .monitor, .turn, .take .lane (exitedSnapshot 3), .deliver .lane, .answer true [],
        .answer true [], .exit 0 none, .exit 0 (some .null), .exit 0 none,
        .queueWrite true]).waits = [] ∧
    (run (Session.step false) startedSession
      [.wait 0, .flushed 0, .matched 0 (.nothing .null) true, .take .monitor (exitedSnapshot 3),
        .deliver .monitor, .turn, .take .lane (exitedSnapshot 3), .deliver .lane, .answer true [],
        .answer true [], .exit 0 none, .exit 0 (some .null), .exit 0 none,
        .queueWrite true]).reserved = [] := by
  refine waits_end_with_session false startedSession_started _ ?_ ?_ (.inl (by decide))
  · refine ⟨trivial, trivial, trivial, trivial, trivial, trivial, trivial, trivial, trivial,
      trivial, ?_, ?_, ?_, trivial, trivial⟩
    · rintro exit found (⟨position, rfl, failed⟩ | ⟨call, rest, rfl, _⟩)
      · cases found
        cases failed
      · cases found
    · rintro exit found (⟨position, rfl, _⟩ | ⟨call, rest, rfl, failed⟩)
      · cases found
      · cases failed
    · rintro exit found (⟨position, rfl, _⟩ | ⟨call, rest, rfl, _⟩)
      · cases found
      · cases found
  · refine ⟨rfl, rfl, ?_, rfl, ?_⟩
    · intro entry member
      cases member with
      | head => decide
      | tail _ rest => cases rest
    · intro call
      cases call with
      | zero => exact .inr rfl
      | succ other => exact .inl rfl

/-- A wait is registered and the worker is rolled back. Nothing is queued or running any more, the
session is lost, and the wait is still pending with its reservation. -/
theorem rollback_leaves_wait :
    Started startedSession ∧
    Quiescent (run (Session.step false) startedSession
      [.wait 0, .flushed 0, .matched 0 (.nothing .null) true, .lose .monitor [], .turn,
        .rolledBack true true [], .answer true []]) ∧
    (run (Session.step false) startedSession
      [.wait 0, .flushed 0, .matched 0 (.nothing .null) true, .lose .monitor [], .turn,
        .rolledBack true true [], .answer true []]).record.activeStatus = false ∧
    (run (Session.step false) startedSession
      [.wait 0, .flushed 0, .matched 0 (.nothing .null) true, .lose .monitor [], .turn,
        .rolledBack true true [], .answer true []]).waits = [0] ∧
    (run (Session.step false) startedSession
      [.wait 0, .flushed 0, .matched 0 (.nothing .null) true, .lose .monitor [], .turn,
        .rolledBack true true [], .answer true []]).reserved = [0] := by
  refine ⟨startedSession_started, ⟨rfl, rfl, ?_, rfl, ?_⟩, by decide, by decide, by decide⟩
  · intro entry member
    cases member
  · intro call
    cases call with
    | zero => exact .inr rfl
    | succ other => exact .inl rfl

end OpencodePty.WaitSettlement
