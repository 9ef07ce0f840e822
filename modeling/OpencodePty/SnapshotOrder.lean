import OpencodePty.SessionLanes

/-!
# The order of snapshots

Each snapshot of a worker has cursors at least those of the snapshot before it. The record takes
over the cursors of every snapshot that is applied, so its cursors never go back as long as the
snapshots are applied in the order in which they were taken. The lane does not see to that: the
poll of the monitor and a snapshot that `get` or `execOutput` asked for may be delivered in
either order, and only terminal paths and rollbacks change the version that would tell them apart.
-/

namespace OpencodePty.SnapshotOrder

open JsValues NativeSnapshots Transitions SessionLanes

/-- The cursors of one snapshot are at most those of another. -/
def Precedes (first second : WorkerSnapshot) : Prop :=
  first.nextSequence ≤ second.nextSequence ∧
    first.firstRetainedSequence ≤ second.firstRetainedSequence

/-- The snapshot was taken and has not been looked at. -/
inductive InFlight (session : Session) (result : Taken) : Prop where
  | monitor (answered : session.monitor = .polling (some result))
  | sync {call version : Nat} (answered : session.syncs call = some ⟨version, some result⟩)
  | finish {caller : Caller} {version : Nat}
      (waiting : (caller, Task.finish result version) ∈ session.lane)
  | finalize {caller : Caller} (waiting : (caller, Task.finalize result) ∈ session.lane)
  | final {caller : Caller} {first : Taken} {version : Nat}
      (answered : session.running = some (caller, .finalSnapshot first version (some result)))
  | stop {caller : Caller} (answered : session.running = some (caller, .stopWorker (some result)))

section Applying

variable (darwin : Bool) (session : Session)

/-- The lifecycle accepts the snapshot where it is looked at with the given version. -/
def accepts (result : Taken) (version : Nat) : Bool :=
  session.present && version = session.version &&
    (session.record.finishNativeVersion darwin result.snapshot).isSome

/-- The snapshot with which a finalization begins, where it is applied at once. -/
def finalizing (result : Taken) : Option Taken :=
  if session.attached && !session.finalizationRejected && !result.snapshot.nativeTerminal darwin &&
      accepts darwin session result session.version then
    some result
  else none

/-- The snapshot that a step is about to apply. -/
def applying : Action → Option Taken
  | .turn =>
    match session.running, session.lane with
    | none, (_, .finish result version) :: _ =>
      if accepts darwin session result version then some result else none
    | none, (_, .finalize result) :: _ => finalizing darwin session result
    | _, _ => none
  | .deliver .lane =>
    match session.running with
    | some (_, .finalSnapshot _ version (some final)) =>
      if accepts darwin session final version then some final else none
    | some (_, .stopWorker (some result)) => finalizing darwin session result
    | _ => none
  | _ => none

end Applying

/-- No snapshot that was taken later has been applied. -/
def InOrder (darwin : Bool) (session : Session) (action : Action) : Prop :=
  ∀ result ∈ applying darwin session action, session.applied ≤ result.position

/-- The worker's cursors do not go back. -/
def Successive (session : Session) : Action → Prop
  | .take _ snapshot => ∀ earlier ∈ session.taken, Precedes earlier snapshot
  | _ => True

/-- The record has the cursors of the snapshot that was applied last, or those of a new session. -/
def Source (session : Session) : Prop :=
  session.applied = 0 ∧ session.record.nextSequence = 0 ∧
      session.record.firstRetainedSequence = 0 ∨
    ∃ position snapshot, session.applied = position + 1 ∧
      session.taken[position]? = some snapshot ∧
      session.record.nextSequence = snapshot.nextSequence ∧
      session.record.firstRetainedSequence = snapshot.firstRetainedSequence

/-- The snapshots are in the order of their cursors, the record has those of one of them, and what
is under way was taken. -/
structure Ordered (session : Session) : Prop where
  sorted : session.taken.Pairwise Precedes
  source : Source session
  known : ∀ result, InFlight session result →
    session.taken[result.position]? = some result.snapshot

/-- Snapshots may be dropped; otherwise nothing that matters changed. -/
structure Carried (before after : Session) : Prop where
  next : after.record.nextSequence = before.record.nextSequence
  first : after.record.firstRetainedSequence = before.record.firstRetainedSequence
  applied : after.applied = before.applied
  taken : after.taken = before.taken
  inFlight : ∀ result, InFlight after result → InFlight before result

/-- What is carried on and on is carried. -/
theorem Carried.trans {first second third : Session} (one : Carried first second)
    (two : Carried second third) : Carried first third where
  next := two.next.trans one.next
  first := two.first.trans one.first
  applied := two.applied.trans one.applied
  taken := two.taken.trans one.taken
  inFlight result flying := one.inFlight result (two.inFlight result flying)

/-- A snapshot was applied. -/
structure Applied (before after : Session) (result : Taken) : Prop where
  next : after.record.nextSequence = result.snapshot.nextSequence
  first : after.record.firstRetainedSequence = result.snapshot.firstRetainedSequence
  applied : after.applied = result.position + 1
  taken : after.taken = before.taken
  inFlight : ∀ other, InFlight after other → InFlight before other

/-- What is carried on stays in order. -/
theorem Carried.ordered {before after : Session} (carried : Carried before after)
    (ordered : Ordered before) : Ordered after where
  sorted := by
    rw [carried.taken]
    exact ordered.sorted
  source := by
    rw [Source, carried.taken, carried.applied, carried.next, carried.first]
    exact ordered.source
  known result flying := by
    rw [carried.taken]
    exact ordered.known result (carried.inFlight result flying)

/-- The record goes forward with a snapshot that was taken after the last one applied. -/
theorem Applied.ordered {before after : Session} {result : Taken}
    (applied : Applied before after result) (ordered : Ordered before)
    (flying : InFlight before result) (inOrder : before.applied ≤ result.position) :
    Ordered after ∧ before.record.nextSequence ≤ after.record.nextSequence ∧
      before.record.firstRetainedSequence ≤ after.record.firstRetainedSequence := by
  have found := ordered.known result flying
  constructor
  · exact
      { sorted := by
          rw [applied.taken]
          exact ordered.sorted
        source := .inr ⟨result.position, result.snapshot, applied.applied, by
          rw [applied.taken]
          exact found, applied.next, applied.first⟩
        known := by
          intro other after
          rw [applied.taken]
          exact ordered.known other (applied.inFlight other after) }
  · rw [applied.next, applied.first]
    rcases ordered.source with ⟨_, next, first⟩ | ⟨position, snapshot, last, taken, next, first⟩
    · omega
    · rw [next, first]
      have later : position < result.position := by omega
      obtain ⟨within, rfl⟩ := List.getElem?_eq_some_iff.mp taken
      obtain ⟨inside, same⟩ := List.getElem?_eq_some_iff.mp found
      rw [← same]
      exact List.pairwise_iff_getElem.mp ordered.sorted position result.position within inside later

/-! ## The holder of the lane -/

/-- A task that brings a snapshot. -/
def brings : Task → Bool
  | .finish _ _ | .finalize _ => true
  | _ => false

/-- The holder of the lane does not await a snapshot that was taken. -/
def Silent (running : Running) : Prop :=
  (∀ first version result, running ≠ .finalSnapshot first version (some result)) ∧
    ∀ result, running ≠ .stopWorker (some result)

/-- Where the polls, the syncs, the lane and its holder got no snapshot, none is new. -/
theorem InFlight.mono {before after : Session} {result : Taken} (flying : InFlight after result)
    (monitor : after.monitor = .polling (some result) → before.monitor = .polling (some result))
    (syncs : ∀ call version, after.syncs call = some ⟨version, some result⟩ →
      before.syncs call = some ⟨version, some result⟩)
    (lane : ∀ entry ∈ after.lane, entry ∈ before.lane ∨ brings entry.2 = false)
    (running : ∀ caller running, after.running = some (caller, running) →
      Silent running ∨ before.running = some (caller, running)) :
    InFlight before result := by
  cases flying with
  | monitor answered => exact .monitor (monitor answered)
  | sync answered => exact .sync (syncs _ _ answered)
  | finish waiting =>
    rcases lane _ waiting with known | other
    · exact .finish known
    · cases other
  | finalize waiting =>
    rcases lane _ waiting with known | other
    · exact .finalize known
    · cases other
  | final answered =>
    rcases running _ _ answered with silent | known
    · exact absurd rfl (silent.1 _ _ _)
    · exact .final known
  | stop answered =>
    rcases running _ _ answered with silent | known
    · exact absurd rfl (silent.2 _)
    · exact .stop known

/-- Only the holder of the lane changed, and awaits no snapshot. -/
theorem InFlight.ofRunning {before after : Session} {result : Taken}
    (flying : InFlight after result) (monitor : after.monitor = before.monitor)
    (syncs : after.syncs = before.syncs) (lane : after.lane = before.lane)
    (silent : ∀ caller running, after.running = some (caller, running) → Silent running) :
    InFlight before result :=
  flying.mono (fun answered => monitor ▸ answered) (fun _ _ answered => syncs ▸ answered)
    (fun _ member => .inl (lane ▸ member))
    (fun caller running held => .inl (silent caller running held))

/-- The same places have the same snapshots under way. -/
theorem InFlight.same {before after : Session} {result : Taken} (flying : InFlight after result)
    (monitor : after.monitor = before.monitor) (syncs : after.syncs = before.syncs)
    (lane : after.lane = before.lane) (running : after.running = before.running) :
    InFlight before result :=
  flying.mono (fun answered => monitor ▸ answered) (fun _ _ answered => syncs ▸ answered)
    (fun _ member => .inl (lane ▸ member)) (fun _ _ held => .inr (running ▸ held))

section Lane

variable (darwin : Bool) (session : Session) (caller : Caller)

/-- A task that awaits something without a snapshot carries on. -/
theorem await_carried {running : Running} (silent : Silent running) :
    Carried session (session.await caller running) := by
  refine ⟨rfl, rfl, rfl, rfl, fun _ flying => flying.ofRunning rfl rfl rfl ?_⟩
  intro holder awaited held
  cases held
  exact silent

/-- A write without a snapshot brings none under way. -/
theorem beginWrite_inFlight (record : SessionRecord) {running : Running} (silent : Silent running)
    (result : Taken) (flying : InFlight (session.beginWrite darwin caller record running) result) :
    InFlight session result := by
  refine flying.ofRunning rfl rfl rfl ?_
  intro holder awaited held
  cases held
  exact silent

/-- A write with the same cursors carries on. -/
theorem beginWrite_carried {record : SessionRecord} {running : Running} (silent : Silent running)
    (next : record.nextSequence = session.record.nextSequence)
    (first : record.firstRetainedSequence = session.record.firstRetainedSequence) :
    Carried session (session.beginWrite darwin caller record running) :=
  ⟨next, first, rfl, rfl, beginWrite_inFlight darwin session caller record silent⟩

/-- A task without a snapshot is all that is added to the lane. -/
theorem enqueue_lane {task : Task} (blank : brings task = false) :
    ∀ entry ∈ (session.enqueue caller task).lane,
      entry ∈ session.lane ∨ brings entry.2 = false := by
  intro entry member
  simp only [Session.enqueue, List.mem_append, List.mem_singleton] at member
  rcases member with known | rfl
  · exact .inl known
  · exact .inr blank

/-- A task without a snapshot carries on. -/
theorem enqueue_carried {task : Task} (blank : brings task = false) :
    Carried session (session.enqueue caller task) :=
  ⟨rfl, rfl, rfl, rfl, fun _ flying =>
    flying.mono (fun answered => answered) (fun _ _ answered => answered)
      (enqueue_lane session caller blank) (fun _ _ held => .inr held)⟩

/-- The monitor catches an error, and polls no more. -/
theorem monitorFailed_carried : Carried session session.monitorFailed := by
  unfold Session.monitorFailed
  split_ifs
  · exact ⟨rfl, rfl, rfl, rfl, fun _ flying =>
      flying.mono (fun answered => nomatch answered) (fun _ _ answered => answered)
        (enqueue_lane session .monitorRollback rfl) (fun _ _ held => .inr held)⟩
  · exact ⟨rfl, rfl, rfl, rfl, fun _ flying =>
      flying.mono (fun answered => nomatch answered) (fun _ _ answered => answered)
        (fun _ member => .inl member) (fun _ _ held => .inr held)⟩

/-- The end of a task carries on. -/
theorem complete_carried (succeeded : Bool) :
    Carried session (session.complete caller succeeded) := by
  have released : Carried session { session with running := none } :=
    ⟨rfl, rfl, rfl, rfl,
      fun _ flying => flying.ofRunning rfl rfl rfl (fun _ _ held => nomatch held)⟩
  have failed := released.trans (monitorFailed_carried { session with running := none })
  have moved (monitor : Monitor) (quiet : ∀ result, monitor ≠ .polling (some result)) :
      Carried session { session with running := none, monitor } :=
    ⟨rfl, rfl, rfl, rfl, fun result flying =>
      flying.mono (fun answered => absurd answered (quiet result)) (fun _ _ answered => answered)
        (fun _ member => .inl member) (fun _ _ held => nomatch held)⟩
  cases caller with
  | monitorFinish =>
    cases succeeded with
    | true => exact moved (.polling none) (by simp)
    | false => exact failed
  | monitorFinalize =>
    cases succeeded with
    | true => exact moved .stopped (by simp)
    | false => exact failed
  | monitorRollback => cases succeeded <;> exact moved .stopped (by simp)
  | other => cases succeeded <;> exact released

/-- A new version carries on. -/
theorem bumpVersion_carried : Carried session session.bumpVersion :=
  ⟨rfl, rfl, rfl, rfl, fun _ flying => flying.same rfl rfl rfl rfl⟩

/-- The end of a finalization carries on. -/
theorem finalized_carried (rejected : Bool) : Carried session (session.finalized caller rejected) :=
  @Carried.trans session { session with finalizationRejected := rejected } _
    ⟨rfl, rfl, rfl, rfl, fun _ flying => flying.same rfl rfl rfl rfl⟩ (complete_carried _ caller _)

/-- The shutdown of a worker carries on. -/
theorem shutDown_carried (final : Taken) (rejected : Bool) :
    Carried session (session.shutDown darwin caller final rejected) := by
  unfold Session.shutDown
  split_ifs
  · exact await_carried session caller ⟨by simp, by simp⟩
  · exact finalized_carried session caller rejected

/-- A finalization that fails leaves the cursors alone. -/
theorem failed_carried (result : Taken) (message : JsString) {running : Running}
    (silent : Silent running) :
    Carried session (session.beginWrite darwin caller
      (session.record.failFinalization darwin result.snapshot message) running) := by
  obtain ⟨next, first⟩ := @SessionRecord.moved_cursors darwin session.record .unreachable
  exact beginWrite_carried darwin session caller silent next first

/-- The end of a snapshot carries on. -/
theorem finished_carried (result : Taken) (finalizing succeeded : Bool) (message : JsString) :
    Carried session (session.finished darwin caller result finalizing succeeded message) := by
  have silent : Silent (.finalizationWrite result) := ⟨by simp, by simp⟩
  unfold Session.finished
  split_ifs
  · exact (bumpVersion_carried session).trans (shutDown_carried darwin _ caller result false)
  · exact (bumpVersion_carried session).trans
      (failed_carried darwin session.bumpVersion caller result message silent)
  · exact shutDown_carried darwin session caller result false
  · exact failed_carried darwin session caller result message silent
  · exact complete_carried session caller succeeded

/-- A snapshot is applied where the version is the current one and the lifecycle accepts it. -/
theorem finishNativeInLane_cases (result : Taken) (version : Nat) (finalizing : Bool)
    (message : JsString) :
    Carried session
        (session.finishNativeInLane darwin caller result version finalizing message) ∨
      accepts darwin session result version = true ∧
      Applied session
        (session.finishNativeInLane darwin caller result version finalizing message) result := by
  unfold Session.finishNativeInLane
  split_ifs with stale
  · exact .inl (shutDown_carried darwin session caller result false)
  · exact .inl (complete_carried session caller true)
  · split
    · exact .inl (finished_carried darwin session caller result finalizing true message)
    next record accepted =>
      right
      simp only [not_or, Bool.not_eq_false, not_not] at stale
      refine ⟨by simp [accepts, stale, accepted], ?_⟩
      obtain ⟨next, first⟩ := SessionRecord.finishNativeVersion_cursors accepted
      refine ⟨next, first, rfl, rfl, ?_⟩
      intro other flying
      have before := beginWrite_inFlight darwin { session with applied := result.position + 1 }
        caller record ⟨by simp, by simp⟩ other flying
      exact before.same rfl rfl rfl rfl

/-- A finalization that begins carries on, or applies its snapshot. -/
theorem finalizeNativeInLane_cases (result : Taken) (message : JsString) :
    Carried session (session.finalizeNativeInLane darwin caller result message) ∨
      finalizing darwin session result = some result ∧
      Applied session (session.finalizeNativeInLane darwin caller result message) result := by
  unfold Session.finalizeNativeInLane
  split_ifs with detached rejected terminal
  · exact .inl (complete_carried session caller true)
  · exact .inl (complete_carried session caller false)
  · exact .inl ((bumpVersion_carried session).trans (await_carried _ caller ⟨by simp, by simp⟩))
  · rcases finishNativeInLane_cases darwin session.bumpVersion caller result (session.version + 1)
      true message with carried | ⟨accepted, applied⟩
    · exact .inl ((bumpVersion_carried session).trans carried)
    · right
      have accepted' : accepts darwin session result session.version = true := by
        simpa [accepts, Session.bumpVersion] using accepted
      refine ⟨by simp [finalizing, detached, rejected, terminal, accepted'], ?_⟩
      refine ⟨applied.next, applied.first, applied.applied, applied.taken, ?_⟩
      intro other flying
      exact (applied.inFlight other flying).same rfl rfl rfl rfl

variable {session}

/-- A change of what no snapshot depends on. -/
theorem Carried.same {after : Session} (record : after.record.nextSequence =
      session.record.nextSequence ∧ after.record.firstRetainedSequence =
      session.record.firstRetainedSequence)
    (applied : after.applied = session.applied) (taken : after.taken = session.taken)
    (monitor : after.monitor = session.monitor) (syncs : after.syncs = session.syncs)
    (lane : after.lane = session.lane) (running : after.running = session.running) :
    Carried session after :=
  ⟨record.1, record.2, applied, taken, fun _ flying => flying.same monitor syncs lane running⟩

/-- Waits, writes and the fields that no snapshot depends on changed. -/
theorem Carried.aside {record : SessionRecord} {version : Nat}
    {present attached finalizationRejected stored : Bool} {calls : Nat → Call}
    {waits reserved : List Nat} {persistQueue : TaskChains.Chain Write} {exits : List Exit}
    (cursors : record.nextSequence = session.record.nextSequence ∧
      record.firstRetainedSequence = session.record.firstRetainedSequence) :
    Carried session { session with
      record, version, present, attached, finalizationRejected, stored, calls, waits, reserved,
      persistQueue, exits } :=
  .same cursors rfl rfl rfl rfl rfl rfl

/-- The end of a wait carries on. -/
theorem endCall_carried (call : Nat) (reserved : Bool) :
    Carried session (session.endCall call reserved) := by
  cases reserved <;> exact .aside ⟨rfl, rfl⟩

/-- The result of a wait carries on. -/
theorem settleWait_carried (call : Nat) (result : Js) :
    Carried session (session.settleWait call result) := by
  unfold Session.settleWait
  split_ifs <;> exact .aside ⟨rfl, rfl⟩

/-- What is allowed to a record that was written carries on. -/
theorem written_carried {after : Session} (written : Written session after) :
    Carried session after :=
  .same (by rw [written.record]; exact ⟨rfl, rfl⟩) written.applied written.taken written.monitor
    written.syncs written.lane written.running

/-- A task whose turn came is not in the lane any more. -/
theorem popped_carried {entry : Caller × Task} {rest : List (Caller × Task)}
    (waiting : session.lane = entry :: rest) : Carried session { session with lane := rest } := by
  refine ⟨rfl, rfl, rfl, rfl, ?_⟩
  intro result flying
  refine flying.mono (fun answered => answered) (fun _ _ answered => answered) ?_
    (fun _ _ held => .inr held)
  intro other member
  left
  rw [waiting]
  exact List.mem_cons_of_mem _ member

end Lane

/-! ## Steps -/

/-- The worker took a snapshot. -/
structure Took (before after : Session) (snapshot : WorkerSnapshot) : Prop where
  next : after.record.nextSequence = before.record.nextSequence
  first : after.record.firstRetainedSequence = before.record.firstRetainedSequence
  applied : after.applied = before.applied
  taken : after.taken = before.taken ++ [snapshot]
  inFlight : ∀ result, InFlight after result →
    InFlight before result ∨ result = ⟨snapshot, before.taken.length⟩

/-- What a step does: it carries the snapshots on, applies one that was in flight, or takes one. -/
inductive Effect (darwin : Bool) (before after : Session) (action : Action) : Prop where
  | carried (same : Carried before after)
  | applied {result : Taken} (chosen : applying darwin before action = some result)
      (flying : InFlight before result) (changed : Applied before after result)
  | took {requester : Requester} {snapshot : WorkerSnapshot}
      (taken : action = .take requester snapshot) (changed : Took before after snapshot)

section Steps

variable (darwin : Bool) (session : Session)

/-- What does not change is carried on. -/
theorem Carried.refl : Carried session session := ⟨rfl, rfl, rfl, rfl, fun _ flying => flying⟩

/-- A snapshot that is taken comes under way behind all others. -/
theorem take_effect (requester : Requester) (snapshot : WorkerSnapshot) :
    Effect darwin session (session.take requester snapshot) (.take requester snapshot) := by
  cases requester with
  | monitor =>
    simp only [Session.take]
    split
    · refine .took rfl ⟨rfl, rfl, rfl, rfl, ?_⟩
      intro result flying
      cases flying with
      | monitor answered =>
        cases answered
        exact .inr rfl
      | sync answered => exact .inl (.sync answered)
      | finish waiting => exact .inl (.finish waiting)
      | finalize waiting => exact .inl (.finalize waiting)
      | final answered => exact .inl (.final answered)
      | stop answered => exact .inl (.stop answered)
    · exact .carried (.refl session)
  | sync call =>
    simp only [Session.take]
    split
    next version _ =>
      refine .took rfl ⟨rfl, rfl, rfl, rfl, ?_⟩
      intro result flying
      cases flying with
      | monitor answered => exact .inl (.monitor answered)
      | @sync other otherVersion answered =>
        by_cases same : other = call
        · subst same
          simp only [Function.update_self, Option.some.injEq, Sync.mk.injEq] at answered
          exact .inr answered.2.symm
        · simp only [Function.update_of_ne same] at answered
          exact .inl (.sync answered)
      | finish waiting => exact .inl (.finish waiting)
      | finalize waiting => exact .inl (.finalize waiting)
      | final answered => exact .inl (.final answered)
      | stop answered => exact .inl (.stop answered)
    · exact .carried (.refl session)
  | lane =>
    simp only [Session.take]
    split
    · refine .took rfl ⟨rfl, rfl, rfl, rfl, ?_⟩
      intro result flying
      cases flying with
      | monitor answered => exact .inl (.monitor answered)
      | sync answered => exact .inl (.sync answered)
      | finish waiting => exact .inl (.finish waiting)
      | finalize waiting => exact .inl (.finalize waiting)
      | final answered =>
        cases answered
        exact .inr rfl
      | stop answered => cases answered
    · refine .took rfl ⟨rfl, rfl, rfl, rfl, ?_⟩
      intro result flying
      cases flying with
      | monitor answered => exact .inl (.monitor answered)
      | sync answered => exact .inl (.sync answered)
      | finish waiting => exact .inl (.finish waiting)
      | finalize waiting => exact .inl (.finalize waiting)
      | final answered => cases answered
      | stop answered =>
        cases answered
        exact .inr rfl
    · exact .carried (.refl session)

/-- A snapshot that arrives is handed to the lane. -/
theorem handed_carried {result : Taken} {task : Task} {caller : Caller} {monitor : Monitor}
    {syncs : Nat → Option Sync} (flying : InFlight session result)
    (given : (∃ version, task = .finish result version) ∨ task = .finalize result)
    (polls : ∀ other, monitor = .polling (some other) → session.monitor = .polling (some other))
    (calls : ∀ call version other, syncs call = some ⟨version, some other⟩ →
      session.syncs call = some ⟨version, some other⟩) :
    Carried session { session with lane := session.lane ++ [(caller, task)], monitor, syncs } := by
  refine ⟨rfl, rfl, rfl, rfl, ?_⟩
  intro other handed
  cases handed with
  | monitor answered => exact .monitor (polls other answered)
  | sync answered => exact .sync (calls _ _ other answered)
  | finish waiting =>
    simp only [List.mem_append, List.mem_singleton, Prod.mk.injEq] at waiting
    rcases waiting with known | ⟨_, rfl⟩
    · exact .finish known
    · rcases given with ⟨version, same⟩ | same
      · cases same
        exact flying
      · cases same
  | finalize waiting =>
    simp only [List.mem_append, List.mem_singleton, Prod.mk.injEq] at waiting
    rcases waiting with known | ⟨_, rfl⟩
    · exact .finalize known
    · rcases given with ⟨version, same⟩ | same
      · cases same
      · cases same
        exact flying
  | final answered => exact .final answered
  | stop answered => exact .stop answered

/-- A look that is dropped was there before. -/
theorem dropped_sync {call : Nat} {caller : Nat} {version : Nat} {other : Taken}
    (answered : Function.update session.syncs call none caller = some ⟨version, some other⟩) :
    session.syncs caller = some ⟨version, some other⟩ := by
  by_cases same : caller = call
  · subst same
    simp at answered
  · rwa [Function.update_of_ne same] at answered

/-- A snapshot that is delivered stays under way. -/
theorem deliver_effect (requester : Requester) :
    Effect darwin session (session.deliver darwin requester) (.deliver requester) := by
  cases requester with
  | monitor =>
    simp only [Session.deliver]
    split
    next result answered =>
      refine .carried ?_
      split_ifs
      · exact handed_carried session (.monitor answered) (.inr rfl) (by simp) (fun _ _ _ => id)
      · exact handed_carried session (.monitor answered) (.inl ⟨_, rfl⟩) (by simp)
          (fun _ _ _ => id)
    · exact .carried (.refl session)
  | sync call =>
    simp only [Session.deliver]
    split
    next version result answered =>
      refine .carried ?_
      split_ifs
      · exact ⟨rfl, rfl, rfl, rfl, fun _ flying =>
          flying.mono (fun answered => answered) (fun _ _ => dropped_sync session)
            (fun _ member => .inl member) (fun _ _ held => .inr held)⟩
      · exact handed_carried session (.sync answered) (.inr rfl) (fun _ => id)
          (fun _ _ _ => dropped_sync session)
      · exact handed_carried session (.sync answered) (.inl ⟨_, rfl⟩) (fun _ => id)
          (fun _ _ _ => dropped_sync session)
    · exact .carried (.refl session)
  | lane =>
    simp only [Session.deliver]
    split
    next caller first version final answered =>
      rcases finishNativeInLane_cases darwin session caller final version true [] with
        carried | ⟨accepted, applied⟩
      · exact .carried carried
      · exact .applied (by simp [applying, answered, accepted]) (.final answered) applied
    next caller result answered =>
      rcases finalizeNativeInLane_cases darwin session caller result [] with
        carried | ⟨accepted, applied⟩
      · exact .carried carried
      · exact .applied (by simp [applying, answered, accepted]) (.stop answered) applied
    · exact .carried (.refl session)

/-- A snapshot that is lost carries on. -/
theorem lose_carried (requester : Requester) (message : JsString) :
    Carried session (session.lose darwin requester message) := by
  cases requester with
  | monitor =>
    simp only [Session.lose]
    split
    · exact monitorFailed_carried session
    · exact .refl session
  | sync call =>
    exact ⟨rfl, rfl, rfl, rfl, fun _ flying =>
      flying.mono (fun answered => answered) (fun _ _ => dropped_sync session)
        (fun _ member => .inl member) (fun _ _ held => .inr held)⟩
  | lane =>
    simp only [Session.lose]
    split
    next caller result _ _ _ =>
      exact failed_carried darwin session caller result message ⟨by simp, by simp⟩
    next caller _ _ => exact complete_carried session caller false
    · exact .refl session

/-- The next task of the lane begins. -/
theorem turn_effect : Effect darwin session (session.turn darwin) .turn := by
  unfold Session.turn
  split
  next caller task rest free waiting =>
    have popped := popped_carried waiting
    have member : (caller, task) ∈ session.lane := by
      rw [waiting]
      exact List.mem_cons_self
    cases task with
    | finish result version =>
      rcases finishNativeInLane_cases darwin { session with lane := rest } caller result version
        false [] with carried | ⟨accepted, applied⟩
      · exact .carried (popped.trans carried)
      · refine .applied (?_ : applying darwin session .turn = some result) (.finish member) ?_
        · have now : accepts darwin session result version = true := accepted
          simp [applying, free, waiting, now]
        · exact ⟨applied.next, applied.first, applied.applied, applied.taken,
            fun other flying => popped.inFlight other (applied.inFlight other flying)⟩
    | finalize result =>
      rcases finalizeNativeInLane_cases darwin { session with lane := rest } caller result [] with
        carried | ⟨accepted, applied⟩
      · exact .carried (popped.trans carried)
      · refine .applied (?_ : applying darwin session .turn = some result) (.finalize member) ?_
        · have now : finalizing darwin session result = some result := accepted
          simp [applying, free, waiting, now]
        · exact ⟨applied.next, applied.first, applied.applied, applied.taken,
            fun other flying => popped.inFlight other (applied.inFlight other flying)⟩
    | rollback =>
      refine .carried (popped.trans ?_)
      simp only [Session.begin]
      split_ifs
      · exact (bumpVersion_carried _).trans (await_carried _ caller ⟨by simp, by simp⟩)
      · exact complete_carried _ caller true
    | stop =>
      refine .carried (popped.trans ?_)
      simp only [Session.begin]
      split_ifs
      · obtain ⟨next, first⟩ := @SessionRecord.moved_cursors darwin
          { session.record with
            fields := { session.record.fields with terminationRequested := some (.bool true) } }
          .stopRequested
        exact beginWrite_carried darwin { session with lane := rest } caller ⟨by simp, by simp⟩ next
          first
      · exact complete_carried _ caller false
    | markCleanup =>
      refine .carried (popped.trans ?_)
      exact beginWrite_carried darwin { session with lane := rest } caller ⟨by simp, by simp⟩
        rfl rfl
    | delete =>
      refine .carried (popped.trans ?_)
      simp only [Session.begin]
      split_ifs
      · exact (bumpVersion_carried _).trans <|
          @Carried.trans _ { Session.bumpVersion { session with lane := rest } with
            attached := false } _ (.aside ⟨rfl, rfl⟩)
            (await_carried _ caller ⟨by simp, by simp⟩)
      · exact complete_carried _ caller true
    | input call =>
      refine .carried (popped.trans ?_)
      simp only [Session.begin]
      split_ifs
      · exact await_carried _ caller ⟨by simp, by simp⟩
      · exact (endCall_carried call true).trans (complete_carried _ caller false)
  · exact .carried (.refl session)

/-- What the holder of the lane awaited, other than a snapshot, arrives. -/
theorem answer_carried (succeeds : Bool) (message : JsString) :
    Carried session (session.answer darwin succeeds message) := by
  unfold Session.answer
  split
  next caller result finalizing _ =>
    split_ifs
    · exact (written_carried (afterFinishWrite_written session)).trans
        (finished_carried darwin _ caller result finalizing _ message)
    · exact failed_carried darwin session caller result message ⟨by simp, by simp⟩
  next caller result finalizing _ =>
    exact (written_carried (afterFailureWrite_written session succeeds)).trans
      (finished_carried darwin _ caller result finalizing false message)
  next caller final _ =>
    exact (written_carried (afterFailureWrite_written session succeeds)).trans
      (shutDown_carried darwin _ caller final true)
  next caller rejected _ =>
    exact @Carried.trans session { session with attached := false } _
      (.aside ⟨rfl, rfl⟩) (finalized_carried _ caller rejected)
  next caller _ =>
    split_ifs
    · exact @Carried.trans session { session.bumpVersion with stored := true, attached := false } _
        (.aside ⟨rfl, rfl⟩) (complete_carried _ caller true)
    · exact complete_carried session caller false
  next caller _ =>
    split_ifs
    · exact @Carried.trans session { session with stored := true } _
        (.aside ⟨rfl, rfl⟩) (await_carried _ caller ⟨by simp, by simp⟩)
    · exact complete_carried session caller false
  next caller _ =>
    exact @Carried.trans session { session with stored := session.stored || succeeds } _
      (.aside ⟨rfl, rfl⟩) (complete_carried _ caller succeeds)
  next caller _ =>
    split_ifs
    · exact @Carried.trans session { session with stored := false, present := false } _
        (.aside ⟨rfl, rfl⟩) (complete_carried _ caller true)
    · exact complete_carried session caller false
  next caller call _ =>
    split_ifs
    · exact @Carried.trans session
        (session.goto call (.flushing true session.persistQueue.length)) _
        (.aside ⟨rfl, rfl⟩) (complete_carried _ caller true)
    · exact (endCall_carried call true).trans (complete_carried _ caller false)
  next => exact .refl session

/-- A rollback carries on. -/
theorem rolledBack_carried (requested confirmed : Bool) (message : JsString) :
    Carried session (session.rolledBack darwin requested confirmed message) := by
  have kept := @SessionRecord.moved_cursors darwin session.record .unreachable
  unfold Session.rolledBack
  split
  next caller version _ =>
    split_ifs
    · exact @Carried.trans session { session with
        record := session.record.rollBack darwin requested confirmed message
        attached := false } _ (.aside kept) (complete_carried _ caller true)
    · exact beginWrite_carried darwin session caller ⟨by simp, by simp⟩ kept.1 kept.2
  · exact .refl session

/-- A wait that is looked at at the end carries on. -/
theorem stepExit_carried (index : Nat) (result : Option Js) :
    Carried session (session.stepExit index result) := by
  have rewritten (exits : List Exit) : Carried session { session with exits } :=
    .aside ⟨rfl, rfl⟩
  unfold Session.stepExit
  split
  · exact .refl session
  · split
    · exact .refl session
    · exact rewritten _
    · exact rewritten _
  · exact rewritten _
  · split
    · exact rewritten _
    · exact (rewritten _).trans (settleWait_carried _ _)

/-- What a wait has found carries on. -/
theorem afterMatch_carried (call : Nat) (reserved : Bool) (found : Match) (admitted : Bool) :
    Carried session (session.afterMatch call reserved found admitted) := by
  have ended := @endCall_carried session call reserved
  have kept (result : Js) : Carried (session.endCall call reserved)
      ((session.endCall call reserved).finishWait result) :=
    .aside ⟨rfl, rfl⟩
  unfold Session.afterMatch
  split
  · exact ended
  · exact ended.trans (kept _)
  · split_ifs
    · exact ended.trans (kept _)
    · exact .aside ⟨rfl, rfl⟩
    · exact ended

/-- One action takes a snapshot, applies one, or carries on. -/
theorem step_effect (action : Action) :
    Effect darwin session (session.step darwin action) action := by
  cases action with
  | take requester snapshot => exact take_effect darwin session requester snapshot
  | deliver requester => exact deliver_effect darwin session requester
  | turn => exact turn_effect darwin session
  | lose requester message => exact .carried (lose_carried darwin session requester message)
  | answer succeeds message => exact .carried (answer_carried darwin session succeeds message)
  | rolledBack requested confirmed message =>
    exact .carried (rolledBack_carried darwin session requested confirmed message)
  | exit index result => exact .carried (stepExit_carried session index result)
  | settle call result => exact .carried (settleWait_carried call result)
  | otherWait => exact .carried (.aside ⟨rfl, rfl⟩)
  | queueWrite succeeds =>
    refine .carried (.aside ?_)
    split_ifs <;> exact ⟨rfl, rfl⟩
  | sync call =>
    refine .carried ?_
    simp only [Session.step]
    split_ifs
    · refine ⟨rfl, rfl, rfl, rfl, fun _ flying => flying.mono (fun answered => answered) ?_
        (fun _ member => .inl member) (fun _ _ held => .inr held)⟩
      intro other version answered
      by_cases same : other = call
      · subst same
        simp at answered
      · simpa only [Function.update_of_ne same] using answered
    · exact .refl session
  | stop => exact .carried (enqueue_carried session .other rfl)
  | markCleanup =>
    refine .carried ?_
    simp only [Session.step]
    split_ifs
    · exact enqueue_carried session .other rfl
    · exact .refl session
  | cleanup =>
    refine .carried ?_
    simp only [Session.step]
    split_ifs
    · exact enqueue_carried session .other rfl
    · exact .refl session
  | wait call =>
    refine .carried ?_
    simp only [Session.step]
    split
    · exact .aside ⟨rfl, rfl⟩
    · exact .refl session
  | sendWait call =>
    refine .carried ?_
    simp only [Session.step]
    split
    · split_ifs
      · exact (enqueue_carried session .other (rfl : brings (.input call) = false)).trans
          (.aside ⟨rfl, rfl⟩)
      · exact .refl session
    · exact .refl session
  | flushed call =>
    refine .carried ?_
    simp only [Session.step]
    split
    · split
      · exact .refl session
      · exact endCall_carried call _
      · unfold Session.enterWait
        split_ifs
        · exact endCall_carried call _
        · exact endCall_carried call _
        · exact .aside ⟨rfl, rfl⟩
    · exact .refl session
  | matched call found admitted =>
    refine .carried ?_
    simp only [Session.step]
    split
    · exact afterMatch_carried session call _ found admitted
    · exact .refl session

/-- A snapshot that was taken after all others keeps the order. -/
theorem Took.ordered {before after : Session} {snapshot : WorkerSnapshot}
    (took : Took before after snapshot) (ordered : Ordered before)
    (successive : ∀ earlier ∈ before.taken, Precedes earlier snapshot) : Ordered after := by
  have extended {position : Nat} {known : WorkerSnapshot}
      (found : before.taken[position]? = some known) :
      after.taken[position]? = some known := by
    obtain ⟨inside, _⟩ := List.getElem?_eq_some_iff.mp found
    rw [took.taken, List.getElem?_append_left inside]
    exact found
  refine ⟨?_, ?_, ?_⟩
  · rw [took.taken, List.pairwise_append]
    refine ⟨ordered.sorted, List.pairwise_singleton _ _, ?_⟩
    intro earlier member last same
    rw [List.mem_singleton.mp same]
    exact successive earlier member
  · rw [Source, took.applied, took.next, took.first]
    rcases ordered.source with fresh | ⟨position, last, applied, found, cursors⟩
    · exact .inl fresh
    · exact .inr ⟨position, last, applied, extended found, cursors⟩
  · intro result flying
    rcases took.inFlight result flying with known | rfl
    · exact extended (ordered.known result known)
    · rw [took.taken, List.getElem?_append_right (Nat.le_refl _)]
      simp

/-- One step keeps the order, and the cursors do not go back. -/
theorem step_ordered {action : Action} (ordered : Ordered session)
    (successive : Successive session action) (inOrder : InOrder darwin session action) :
    Ordered (session.step darwin action) ∧
      session.record.nextSequence ≤ (session.step darwin action).record.nextSequence ∧
      session.record.firstRetainedSequence ≤
        (session.step darwin action).record.firstRetainedSequence := by
  cases step_effect darwin session action with
  | carried same =>
    exact ⟨same.ordered ordered, Nat.le_of_eq same.next.symm, Nat.le_of_eq same.first.symm⟩
  | applied chosen flying changed => exact changed.ordered ordered flying (inOrder _ chosen)
  | took taken changed =>
    subst taken
    exact ⟨changed.ordered ordered successive, Nat.le_of_eq changed.next.symm,
      Nat.le_of_eq changed.first.symm⟩

end Steps

/-- Where the worker's cursors do not go back and its snapshots are applied in the order in which
they were taken, the cursors of the record never go back. -/
theorem cursors_never_decrease (darwin : Bool) {start : Session} (ordered : Ordered start)
    (earlier later : List Action)
    (successive : Along (Session.step darwin) Successive start (earlier ++ later))
    (inOrder : Along (Session.step darwin) (InOrder darwin) start (earlier ++ later)) :
    (run (Session.step darwin) start earlier).record.nextSequence ≤
        (run (Session.step darwin) start (earlier ++ later)).record.nextSequence ∧
      (run (Session.step darwin) start earlier).record.firstRetainedSequence ≤
        (run (Session.step darwin) start (earlier ++ later)).record.firstRetainedSequence := by
  obtain ⟨before, after⟩ := along_append (successive.both inOrder)
  have between : Ordered (run (Session.step darwin) start earlier) :=
    run_preserves_along (fun session _ kept met =>
      (step_ordered darwin session kept met.1 met.2).1) start earlier ordered before
  rw [run_append]
  generalize run (Session.step darwin) start earlier = middle at after between ⊢
  have kept := @run_preserves_along _ _ (Session.step darwin) _
    (fun session => Ordered session ∧ middle.record.nextSequence ≤ session.record.nextSequence ∧
      middle.record.firstRetainedSequence ≤ session.record.firstRetainedSequence)
    (fun session action now met => by
      obtain ⟨still, next, first⟩ := step_ordered darwin session now.1 met.1 met.2
      exact ⟨still, Nat.le_trans now.2.1 next, Nat.le_trans now.2.2 first⟩)
    middle later ⟨between, Nat.le_refl _, Nat.le_refl _⟩ after
  exact kept.2

/-- A session that was just started is in order. -/
theorem startedSession_ordered : Ordered startedSession := by
  refine ⟨.nil, .inl ⟨rfl, rfl, rfl⟩, ?_⟩
  intro result flying
  cases flying with
  | monitor answered => cases answered
  | sync answered => cases answered
  | finish waiting => cases waiting
  | finalize waiting => cases waiting
  | final answered => cases answered
  | stop answered => cases answered

/-- The poll of the monitor is answered and applied before the snapshot that `get` asked for. -/
theorem cursors_never_decrease_in_turn :
    (run (Session.step false) startedSession
      [.take .monitor (runningSnapshot 5), .deliver .monitor, .turn, .answer true []]).record.nextSequence
        = 5 ∧
    (run (Session.step false) startedSession
      [.take .monitor (runningSnapshot 5), .deliver .monitor, .turn, .answer true []]).record.nextSequence
        ≤ (run (Session.step false) startedSession
          ([.take .monitor (runningSnapshot 5), .deliver .monitor, .turn, .answer true []] ++
            [.sync 0, .take (.sync 0) (runningSnapshot 9), .deliver (.sync 0),
              .turn])).record.nextSequence := by
  refine ⟨by decide, (cursors_never_decrease false startedSession_ordered _ _ ?_ ?_).1⟩
  · refine ⟨?_, trivial, trivial, trivial, trivial, ?_, trivial, trivial, trivial⟩
    · intro snapshot member
      cases member
    · intro snapshot member
      cases member with
      | head => exact ⟨by decide, by decide⟩
      | tail _ rest => cases rest
  · refine ⟨?_, ?_, ?_, ?_, ?_, ?_, ?_, ?_, trivial⟩ <;> intro result applied <;> cases applied
    · decide
    · decide

/-- The poll of the monitor is answered first, but the snapshot that `get` asked for afterwards is
applied before it: the cursor of the record goes back from 9 to 5. -/
theorem late_poll_decreases_cursor :
    Ordered startedSession ∧
    Along (Session.step false) Successive startedSession
      [.take .monitor (runningSnapshot 5), .sync 0, .take (.sync 0) (runningSnapshot 9),
        .deliver (.sync 0), .turn, .answer true [], .deliver .monitor, .turn] ∧
    (run (Session.step false) startedSession
      [.take .monitor (runningSnapshot 5), .sync 0, .take (.sync 0) (runningSnapshot 9),
        .deliver (.sync 0), .turn, .answer true [], .deliver .monitor]).record.nextSequence = 9 ∧
    (run (Session.step false) startedSession
      [.take .monitor (runningSnapshot 5), .sync 0, .take (.sync 0) (runningSnapshot 9),
        .deliver (.sync 0), .turn, .answer true [], .deliver .monitor,
        .turn]).record.nextSequence = 5 ∧
    (run (Session.step false) startedSession
      [.take .monitor (runningSnapshot 5), .sync 0, .take (.sync 0) (runningSnapshot 9),
        .deliver (.sync 0), .turn, .answer true [], .deliver .monitor, .turn]).present = true := by
  refine ⟨startedSession_ordered, ?_, by decide, by decide, by decide⟩
  refine ⟨?_, trivial, ?_, trivial, trivial, trivial, trivial, trivial, trivial⟩
  · intro snapshot member
    cases member
  · intro snapshot member
    cases member with
    | head => exact ⟨by decide, by decide⟩
    | tail _ rest => cases rest

end OpencodePty.SnapshotOrder
