import OpencodePty.SessionStarts

/-!
# Failed starts

Between the first write of a session and the return of a call there are nine steps that may fail,
and one catch block for all of them. It is followed here from the record that a step leaves. The
call ends as it should unless one of two writes fails: the one after the start, when the client
of the worker is registered already, and the one of the catch block, before which no slot is freed.
-/

namespace OpencodePty.SessionStarts

open JsValues Lifecycle LifecycleRuns NativeSnapshots KeyedMaps
open SessionRegistry (SessionTables SessionLimits)

/-! ## The record of a start -/

section Records

variable {darwin : Bool} {session : SessionRecord}

/-- The state of a session that is started, and the fields that no step of a start sets. -/
structure Starting (session : SessionRecord) : Prop where
  active : ∃ kind evidence, session.state = .active kind evidence ∧ kind ≠ .stopping
  unexited : isBool session.fields.directChildExited true = false
  kept : truthy session.fields.pendingCleanup = false

/-- A new record is starting. -/
theorem newRecord_starting (call : Call) : Starting (newRecord call) where
  active := ⟨.creating, _, rfl, by decide⟩
  unexited := by
    unfold newRecord
    cases call.mode <;> simp [isBool]
  kept := by simp [newRecord, blankFields, truthy]

/-- A change of other fields. -/
theorem Starting.change {changed : SessionRecord} (starting : Starting session)
    (state : changed.state = session.state)
    (exited : changed.fields.directChildExited = session.fields.directChildExited)
    (cleanup : changed.fields.pendingCleanup = session.fields.pendingCleanup) :
    Starting changed where
  active := state ▸ starting.active
  unexited := exited ▸ starting.unexited
  kept := cleanup ▸ starting.kept

/-- What a write or a transition makes of the state. -/
theorem Starting.observed (starting : Starting session) (darwin : Bool) :
    ∃ kind, kind ≠ .stopping ∧ refreshSessionState darwin session.state session.fields =
      .active kind (observedEvidence session.fields) := by
  obtain ⟨kind, evidence, state, going⟩ := starting.active
  refine ⟨kind, going, ?_⟩
  simp [refreshSessionState, state, starting.kept]

/-- A record whose fields were projected from an active state. -/
theorem Starting.projected {kind : ActiveKind} {record : SessionRecord}
    (starting : Starting session) (going : kind ≠ .stopping)
    (state : record.state = .active kind (observedEvidence session.fields))
    (fields : record.fields = projectSessionState record.state) : Starting record where
  active := ⟨kind, _, state, going⟩
  unexited := by
    rw [fields, state]
    exact starting.unexited
  kept := by
    rw [fields, state]
    rfl

/-- A refresh leaves a record starting. -/
theorem Starting.refreshed (starting : Starting session) (darwin : Bool) :
    Starting (session.refreshed darwin) := by
  obtain ⟨kind, going, state⟩ := starting.observed darwin
  exact starting.projected going state rfl

/-- A worker that is ready leaves a record starting. -/
theorem Starting.ready (starting : Starting session) (darwin : Bool) :
    Starting (session.moved darwin .workerReady) := by
  obtain ⟨kind, going, state⟩ := starting.observed darwin
  have reduced : reduceSessionState darwin
      (refreshSessionState darwin session.state session.fields) .workerReady =
        some (.active .running (observedEvidence session.fields)) := by
    rw [state]
    cases kind with
    | creating => rfl
    | running => rfl
    | stopping => exact absurd rfl going
  simp only [SessionRecord.moved, SessionRecord.transition, reduced, Option.map_some,
    Option.getD_some]
  exact @Starting.projected session .running _ starting (by decide) rfl rfl

variable {progress : Progress}

/-- Fields of the worker leave a record starting. -/
theorem Starting.assign (starting : Starting progress.session)
    (change : LifecycleProjection → LifecycleProjection)
    (exited : ∀ fields, (change fields).directChildExited = fields.directChildExited)
    (cleanup : ∀ fields, (change fields).pendingCleanup = fields.pendingCleanup) :
    Starting (progress.assign change).session :=
  starting.change rfl (exited _) (cleanup _)

/-- A write leaves a record starting. -/
theorem Starting.writeSession (starting : Starting progress.session) (darwin : Bool) :
    Starting (progress.writeSession darwin).session :=
  starting.refreshed darwin

/-- A failed start: its session is over where no child was started, and lost elsewhere. -/
structure Ended (noChild : Bool) (session : SessionRecord) : Prop where
  status : isText session.fields.status (if noChild then "spawn_failed" else "lost") = true
  evidence : noChildStarted session.fields.exitReason = noChild
  unexited : isBool session.fields.directChildExited true = false

/-- The reason says that no child was started where the cleanup shows it. -/
theorem noChildStarted_reason (message : JsString) (cleanup : SpawnCleanup) :
    noChildStarted (some (spawnErrorReason message cleanup)) = noChildCleanup cleanup := by
  have kind : field (some (spawnErrorReason message cleanup)) "kind" =
      some (.text "spawn_error") := by
    simp only [field, Option.bind_some, spawnErrorReason]
    rw [get_record _ _ (by simp)]
    rfl
  have known : field (some (spawnErrorReason message cleanup)) "cleanup" = some cleanup.toJs := by
    simp only [field, Option.bind_some, spawnErrorReason]
    rw [get_record _ _ (by simp)]
    rfl
  have started : field (some cleanup.toJs) "directChildStarted" =
      cleanup.directChildStarted.map .bool := by
    simp only [field, Option.bind_some, SpawnCleanup.toJs]
    rw [get_record _ _ (by simp)]
    rfl
  have confirmed : field (some cleanup.toJs) "terminationConfirmed" =
      some (.bool cleanup.terminationConfirmed) := by
    simp only [field, Option.bind_some, SpawnCleanup.toJs]
    rw [get_record _ _ (by simp)]
    rfl
  have named : isText (some (.text "spawn_error")) "spawn_error" = true := by decide
  rw [noChildStarted, kind, known, started, confirmed, named, noChildCleanup, Bool.true_and,
    Bool.and_comm]
  cases cleanup.directChildStarted <;> simp [isBool, truthy, Js.truthy]

/-- The reason is never left out. -/
theorem whenTruthy_reason (message : JsString) (cleanup : SpawnCleanup) :
    whenTruthy (some (spawnErrorReason message cleanup)) =
      some (spawnErrorReason message cleanup) := rfl

/-- A write after the transition keeps the evidence of the failure. -/
theorem observed_again {state : SessionState} {message : JsString} {cleanup : SpawnCleanup}
    (reason : session.fields.exitReason = some (spawnErrorReason message cleanup))
    (evidence : state.evidence = observedEvidence session.fields) :
    (observedEvidence (projectSessionState state)).exitReason =
        some (spawnErrorReason message cleanup) ∧
      (observedEvidence (projectSessionState state)).directExited =
        session.fields.directChildExited := by
  have once : state.evidence.exitReason = some (spawnErrorReason message cleanup) := by
    rw [evidence, observedEvidence, reason, whenTruthy_reason]
  constructor
  · change whenTruthy state.evidence.exitReason = _
    rw [once, whenTruthy_reason]
  · change state.evidence.directExited = _
    rw [evidence]
    rfl

/-- The end of a start by one transition and one write, both of which keep its evidence. -/
theorem Starting.ended (starting : Starting session) {message : JsString}
    {cleanup : SpawnCleanup} {event : LifecycleEvent} {next written : SessionState}
    (reason : session.fields.exitReason = some (spawnErrorReason message cleanup))
    (reduced : reduceSessionState darwin
      (refreshSessionState darwin session.state session.fields) event = some next)
    (moved : next.evidence = observedEvidence session.fields)
    (refreshed : refreshSessionState darwin next (projectSessionState next) = written)
    (kept : written.evidence = observedEvidence (projectSessionState next))
    (status : projectedStatus written =
      some (.text (if noChildCleanup cleanup then "spawn_failed" else "lost"))) :
    Ended (noChildCleanup cleanup) ((session.moved darwin event).refreshed darwin) := by
  obtain ⟨failed, unexited⟩ := observed_again reason moved
  simp only [SessionRecord.moved, SessionRecord.transition, reduced, Option.map_some,
    Option.getD_some, SessionRecord.refreshed, refreshed]
  refine ⟨isText_iff.mpr status, ?_, ?_⟩
  · change noChildStarted written.evidence.exitReason = _
    rw [kept, failed, noChildStarted_reason]
  · change isBool written.evidence.directExited true = false
    rw [kept, unexited]
    exact starting.unexited

/-- A spawn failure without a child is terminal, and stays so when the record is written. -/
theorem Starting.spawnFailed (starting : Starting session) (darwin : Bool) {message : JsString}
    {cleanup : SpawnCleanup} (childless : noChildCleanup cleanup = true)
    (reason : session.fields.exitReason = some (spawnErrorReason message cleanup)) :
    Ended (noChildCleanup cleanup) ((session.moved darwin .spawnFailed).refreshed darwin) := by
  obtain ⟨kind, going, state⟩ := starting.observed darwin
  have proven {evidence : Evidence}
      (same : evidence.exitReason = some (spawnErrorReason message cleanup)) :
      terminalProven darwin (.terminal .spawnFailed evidence) = true := by
    simp [terminalProven, same, noChildStarted_reason, childless]
  have observed : (observedEvidence session.fields).exitReason =
      some (spawnErrorReason message cleanup) := by
    rw [observedEvidence, reason, whenTruthy_reason]
  have reduced : reduceSessionState darwin
      (refreshSessionState darwin session.state session.fields) .spawnFailed =
        some (.terminal .spawnFailed (observedEvidence session.fields)) := by
    rw [state]
    cases kind with
    | stopping => exact absurd rfl going
    | _ =>
      simp [reduceSessionState, terminalEvent, terminalOrUnreachable, SessionState.evidence,
        proven observed]
  have refreshed (fields : LifecycleProjection) (calm : truthy fields.pendingCleanup = false)
      (same : (observedEvidence fields).exitReason = some (spawnErrorReason message cleanup)) :
      refreshSessionState darwin (.terminal .spawnFailed (observedEvidence session.fields)) fields =
        .terminal .spawnFailed (observedEvidence fields) := by
    simp [refreshSessionState, calm, proven same]
  apply starting.ended reason reduced rfl (refreshed _ rfl (observed_again reason rfl).1) rfl
  rw [if_pos childless]
  rfl

/-- A failure that may have left a child makes the session unreachable. -/
theorem Starting.lost (starting : Starting session) (darwin : Bool) {message : JsString}
    {cleanup : SpawnCleanup} (unknown : noChildCleanup cleanup = false)
    (reason : session.fields.exitReason = some (spawnErrorReason message cleanup)) :
    Ended (noChildCleanup cleanup) ((session.moved darwin .unreachable).refreshed darwin) := by
  obtain ⟨kind, going, state⟩ := starting.observed darwin
  have reduced : reduceSessionState darwin
      (refreshSessionState darwin session.state session.fields) .unreachable =
        some (.unreachable kind.target none (observedEvidence session.fields)) := by
    rw [state]
    rfl
  have refreshed (fields : LifecycleProjection) (calm : truthy fields.pendingCleanup = false) :
      refreshSessionState darwin
          (.unreachable kind.target none (observedEvidence session.fields)) fields =
        .unreachable kind.target none (observedEvidence fields) := by
    simp [refreshSessionState, calm]
  apply starting.ended reason reduced rfl (refreshed _ rfl) rfl
  rw [unknown]
  rfl

end Records

/-! ## The failing step -/

/-- The steps after the first write that may fail. -/
inductive Point where
  | secrets
  | bootstrap
  | authorized
  | spawned
  | handshake
  | referenced
  | attempted
  | start
  | started
  deriving DecidableEq

/-- There is a prepared worker when the step fails. -/
def Point.prepared : Point → Bool
  | secrets | bootstrap | authorized | spawned | handshake => false
  | referenced | attempted | start | started => true

/-- The step of the preparation that fails, with its error. -/
def Answers.preparing (answers : Answers) : Option (Point × Failure) :=
  match answers.secrets, answers.bootstrap, answers.authorized, answers.spawned,
    answers.handshake with
  | some error, _, _, _, _ => some (.secrets, .other error)
  | none, some error, _, _, _ => some (.bootstrap, .workerStart (noWorkerError error))
  | none, none, some error, _, _ => some (.authorized, .workerStart (noWorkerError error))
  | none, none, none, some error, _ => some (.spawned, .workerStart (noWorkerError error))
  | none, none, none, none, .error error => some (.handshake, .workerStart error)
  | none, none, none, none, .ok _ => none

/-- The step with a prepared worker that fails, with its error. -/
def Answers.starting (answers : Answers) : Option (Point × Failure) :=
  match answers.referenced, answers.attempted, answers.start, answers.started with
  | some error, _, _, _ => some (.referenced, .other error)
  | none, some error, _, _ => some (.attempted, .other error)
  | none, none, .error failure, _ => some (.start, failure)
  | none, none, .ok _, some error => some (.started, .other error)
  | none, none, .ok _, none => none

/-- The first step that fails, with its error. -/
def Answers.failing (answers : Answers) : Option (Point × Failure) :=
  answers.preparing <|> answers.starting

section Attempts

variable (darwin : Bool) (call : Call) (answers : Answers) (progress : Progress)

/-- The preparation fails with the first error of its steps, and changes only the record. -/
theorem prepare_cases (starting : Starting progress.session) :
    ∃ session, Starting session ∧
      ((∃ point failure, answers.preparing = some (point, failure) ∧ point.prepared = false ∧
          prepare darwin answers progress = (.error failure, { progress with session })) ∨
        ∃ reference, answers.preparing = none ∧
          prepare darwin answers progress = (.ok reference, { progress with session })) := by
  have reported : Starting (persistPrestart darwin answers progress).session :=
    (starting.assign (withPrestart answers.authority) (fun _ => rfl)
      (fun _ => rfl)).writeSession darwin
  cases secrets : answers.secrets with
  | some error =>
    refine ⟨progress.session, starting, .inl ⟨.secrets, .other error, ?_, rfl, ?_⟩⟩
    · simp [Answers.preparing, secrets]
    · simp [prepare, secrets]
  | none =>
  cases bootstrap : answers.bootstrap with
  | some error =>
    refine ⟨progress.session, starting,
      .inl ⟨.bootstrap, .workerStart (noWorkerError error), ?_, rfl, ?_⟩⟩
    · simp [Answers.preparing, secrets, bootstrap]
    · simp [prepare, secrets, bootstrap]
  | none =>
  refine ⟨_, reported, ?_⟩
  cases authorized : answers.authorized with
  | some error =>
    refine .inl ⟨.authorized, .workerStart (noWorkerError error), ?_, rfl, ?_⟩
    · simp [Answers.preparing, secrets, bootstrap, authorized]
    · simp only [prepare, secrets, bootstrap, authorized]
      rfl
  | none =>
  cases spawned : answers.spawned with
  | some error =>
    refine .inl ⟨.spawned, .workerStart (noWorkerError error), ?_, rfl, ?_⟩
    · simp [Answers.preparing, secrets, bootstrap, authorized, spawned]
    · simp only [prepare, secrets, bootstrap, authorized, spawned]
      rfl
  | none =>
  cases handshake : answers.handshake with
  | error error =>
    refine .inl ⟨.handshake, .workerStart error, ?_, rfl, ?_⟩
    · simp [Answers.preparing, secrets, bootstrap, authorized, spawned, handshake]
    · simp only [prepare, secrets, bootstrap, authorized, spawned, handshake]
      rfl
  | ok reference =>
    refine .inr ⟨reference, ?_, ?_⟩
    · simp [Answers.preparing, secrets, bootstrap, authorized, spawned, handshake]
    · simp only [prepare, secrets, bootstrap, authorized, spawned, handshake]
      rfl

/-- What the try block leaves, by the step that fails. -/
structure Attempted (result : Attempt) : Prop where
  failure : result.failure = answers.failing.map (·.2)
  prepared : ∀ point failure, answers.failing = some (point, failure) →
    result.prepared = point.prepared
  starting : Starting result.progress.session
  records : result.progress.supervisor.records = progress.supervisor.records
  registry : result.progress.supervisor.registry = progress.supervisor.registry
  nativeWorkers : result.progress.supervisor.nativeWorkers =
    if answers.failing.all (·.1 = .started) then
      insert call.id progress.supervisor.nativeWorkers
    else progress.supervisor.nativeWorkers

variable {darwin call answers progress}

/-- A failure before the client is registered. -/
theorem attempted_early {point : Point} {failure : Failure} {session : SessionRecord}
    (failing : answers.failing = some (point, failure)) (early : point ≠ .started)
    (starting : Starting session) :
    Attempted call answers progress
      ⟨some failure, point.prepared, { progress with session }⟩ where
  failure := by simp [failing]
  prepared := by
    intro other error same
    rw [failing] at same
    cases same
    rfl
  starting := starting
  records := rfl
  registry := rfl
  nativeWorkers := by simp [failing, early]

/-- A start is attempted with its answers. -/
theorem attempt_attempted (darwin : Bool) (call : Call) (answers : Answers)
    (starting : Starting progress.session) :
    Attempted call answers progress (attempt darwin call answers progress) := by
  obtain ⟨session, ready, ⟨point, failure, failed, unprepared, left⟩ |
    ⟨reference, passed, left⟩⟩ := prepare_cases darwin answers progress starting
  · have failing : answers.failing = some (point, failure) := by simp [Answers.failing, failed]
    have early : point ≠ .started := by
      rintro rfl
      cases unprepared
    simp only [attempt, left]
    rw [← unprepared]
    exact attempted_early failing early ready
  · have failing : answers.failing = answers.starting := by simp [Answers.failing, passed]
    simp only [attempt, left]
    have referenced :
        Starting ((Progress.assign ⟨session, progress.supervisor⟩
          (withWorker reference)).writeSession darwin).session :=
      (Starting.assign ready (withWorker reference) (fun _ => rfl)
        (fun _ => rfl)).writeSession darwin
    have attempted := (referenced.assign (withAttempt true) (fun _ => rfl)
      (fun _ => rfl)).writeSession darwin
    cases first : answers.referenced with
    | some error =>
      refine @attempted_early _ _ _ .referenced _ _ ?_ (by decide) referenced
      simp [failing, Answers.starting, first]
    | none =>
    cases second : answers.attempted with
    | some error =>
      refine @attempted_early _ _ _ .attempted _ _ ?_ (by decide)
        (attempted.assign (withAttempt false) (fun _ => rfl) (fun _ => rfl))
      simp [failing, Answers.starting, first, second]
    | none =>
    cases third : answers.start with
    | error failure =>
      refine @attempted_early _ _ _ .start _ _ ?_ (by decide) attempted
      simp [failing, Answers.starting, first, second, third]
    | ok initial =>
      have started := ((attempted.assign (withSnapshot initial) (fun _ => rfl)
        (fun _ => rfl)).ready darwin).refreshed darwin
      cases fourth : answers.started with
      | some error =>
        have last : answers.failing = some (.started, .other error) := by
          simp [failing, Answers.starting, first, second, third, fourth]
        exact
          { failure := by simp [last]
            prepared := by
              intro point failure same
              rw [last] at same
              cases same
              rfl
            starting := started
            records := rfl
            registry := rfl
            nativeWorkers := by
              simp only [last]
              rfl }
      | none =>
        have last : answers.failing = none := by
          simp [failing, Answers.starting, first, second, third, fourth]
        exact
          { failure := by simp [last]
            prepared := by simp [last]
            starting := started
            records := rfl
            registry := rfl
            nativeWorkers := by
              simp only [last]
              rfl }

end Attempts

/-! ## After a failure -/

section Ends

variable {darwin : Bool} {call : Call} {answers : Answers} {failure : Failure} {prepared : Bool}
  {progress : Progress}

/-- The record of a failure leaves the supervisor as it is. -/
theorem failRecord_supervisor (darwin : Bool) (call : Call) (answers : Answers)
    (failure : Failure) (prepared : Bool) (progress : Progress) :
    (failRecord darwin call answers failure prepared progress).supervisor =
      progress.supervisor := by
  unfold failRecord
  split
  · rfl
  · rfl

/-- The record after the write of the catch block. -/
theorem failRecord_ended (darwin : Bool) (call : Call) (answers : Answers) (failure : Failure)
    (prepared : Bool) (starting : Starting progress.session) :
    Ended (noChildCleanup (cleanupOf answers failure prepared))
      ((failRecord darwin call answers failure prepared progress).writeSession darwin).session := by
  have ended {before : Progress} (ready : Starting before.session) (message : JsString)
      (cleanup : SpawnCleanup) :
      Ended (noChildCleanup cleanup)
        (((before.assign (withFailure message cleanup)).transition darwin
          (if noChildCleanup cleanup then .spawnFailed else .unreachable)).writeSession
            darwin).session := by
    have noted := ready.assign (withFailure message cleanup) (fun _ => rfl) (fun _ => rfl)
    cases known : noChildCleanup cleanup with
    | true =>
      have ended_ := noted.spawnFailed darwin known rfl
      rwa [known] at ended_
    | false =>
      have lost := noted.lost darwin known rfl
      rwa [known] at lost
  unfold failRecord
  split
  · exact ended (starting.assign (withWorker _) (fun _ => rfl) (fun _ => rfl)) _ _
  · exact ended starting _ _

/-- A session that is over without a child gives its slot up; a lost one keeps it. -/
theorem Ended.occupies {session : SessionRecord} {noChild : Bool} (ended : Ended noChild session) :
    SessionRegistry.occupiesSlot darwin (registryRecord call session) = !noChild := by
  rw [occupies_view, ended.evidence, SessionRecord.terminalDirectChild, ended.unexited]
  simp

/-- What a call that rejects leaves: no client, a session that is over, lost or gone, and a slot
that is free just where no child was started or the session was deleted. -/
structure Settled (call : Call) (after : Progress) : Prop where
  unregistered : call.id ∉ after.supervisor.nativeWorkers
  ended : call.id ∈ after.supervisor.records →
    isText after.session.fields.status "spawn_failed" = true ∨
      isText after.session.fields.status "lost" = true
  slot : call.id ∉ members after.supervisor.registry.ownerSlots call.owner ↔
    noChildStarted after.session.fields.exitReason = true ∨
      call.id ∉ after.supervisor.records

/-- A failed start is a spawn_failed one or a lost one. -/
theorem Ended.status_cases {session : SessionRecord} {noChild : Bool}
    (ended : Ended noChild session) :
    isText session.fields.status "spawn_failed" = true ∨
      isText session.fields.status "lost" = true := by
  cases noChild with
  | true => exact .inl ended.status
  | false => exact .inr ended.status

/-- A deletion leaves no client, and frees the slot where it succeeds. -/
theorem deleteNativeSession_cases (answers : Answers) (supervisor : Supervisor)
    (present : call.id ∈ supervisor.records) :
    let after := deleteNativeSession call answers supervisor
    after.nativeWorkers = supervisor.nativeWorkers.erase call.id ∧
      (after.records = supervisor.records ∧ after.registry = supervisor.registry ∨
        after.records = supervisor.records.erase call.id ∧
          after.registry = supervisor.registry.release call.id) := by
  simp only [deleteNativeSession, present, not_true_eq_false, if_false]
  cases answers.deleted with
  | some error => exact ⟨rfl, .inl ⟨rfl, rfl⟩⟩
  | none => exact ⟨rfl, .inr ⟨rfl, rfl⟩⟩

/-- A session that is still in the map is settled where it has no client and its slot follows the
evidence. -/
theorem Ended.settled {after : Progress} {noChild : Bool} (ended : Ended noChild after.session)
    (present : call.id ∈ after.supervisor.records)
    (slot : call.id ∉ members after.supervisor.registry.ownerSlots call.owner ↔ noChild = true) :
    Settled call after ↔ call.id ∉ after.supervisor.nativeWorkers := by
  constructor
  · intro settled
    exact settled.unregistered
  · intro unregistered
    refine ⟨unregistered, fun _ => ended.status_cases, ?_⟩
    rw [slot, ended.evidence]
    simp [present]

/-- The slot of a session follows its evidence when it is released if it is settled. -/
theorem Ended.slot {session : SessionRecord} {noChild : Bool} {registry : SessionTables}
    (ended : Ended noChild session) (holds : Holds call registry) :
    call.id ∉ members (registry.releaseIfSettled darwin
      (registryRecord call session)).ownerSlots call.owner ↔ noChild = true := by
  have released := holds.releaseIfSettled darwin (registryRecord call session) rfl
  rw [ended.occupies] at released
  cases noChild with
  | true => simpa using released.member
  | false => simpa using released.member

/-- The catch block settles the session where no client was registered before it, and where a
failure of its own write comes together with a child that may have been started. -/
theorem recover_settled (darwin : Bool) (answers : Answers) (failure : Failure) (prepared : Bool)
    (starting : Starting progress.session)
    (holds : Holds call progress.supervisor.registry)
    (present : call.id ∈ progress.supervisor.records)
    (told : failure.noWorkerSpawned = true → call.id ∉ progress.supervisor.nativeWorkers) :
    Settled call (recover darwin call answers failure prepared progress).2 ↔
      call.id ∉ progress.supervisor.nativeWorkers ∧
        (answers.failed.isSome = true →
          noChildCleanup (cleanupOf answers failure prepared) = false) := by
  have ended := failRecord_ended darwin call answers failure prepared starting
  have same := failRecord_supervisor darwin call answers failure prepared progress
  unfold recover
  generalize written : (failRecord darwin call answers failure prepared progress).writeSession
    darwin = after at ended
  replace same : after.supervisor = progress.supervisor := by
    rw [← written]
    exact same
  rw [← same] at holds present told ⊢
  generalize noChildCleanup (cleanupOf answers failure prepared) = noChild at ended ⊢
  cases unsaved : answers.failed with
  | some error =>
    simp only [Option.isSome_some, forall_const]
    constructor
    · intro settled
      refine ⟨settled.unregistered, ?_⟩
      by_contra childless
      refine settled.slot.mpr (.inl ?_) holds.member
      rw [ended.evidence]
      simpa using childless
    · rintro ⟨unregistered, child⟩
      refine (ended.settled present ?_).mpr unregistered
      simp [holds.member, child]
  | none =>
    simp only [Option.isSome_none, Bool.false_eq_true, false_implies, and_true]
    have kept (supervisor : Supervisor) (records : supervisor.records = after.supervisor.records)
        (registry : supervisor.registry = after.supervisor.registry.releaseIfSettled darwin
          (registryRecord call after.session)) :
        Settled call ⟨after.session, supervisor⟩ ↔ call.id ∉ supervisor.nativeWorkers := by
      apply @Ended.settled call ⟨after.session, supervisor⟩ _ ended
      · rwa [records]
      · rw [registry]
        exact ended.slot holds
    cases spawned : failure.noWorkerSpawned with
    | false => exact kept _ rfl rfl
    | true =>
      refine iff_of_true ?_ (told spawned)
      obtain ⟨clients, ⟨records, registry⟩ | ⟨records, registry⟩⟩ :=
        deleteNativeSession_cases answers
          { after.supervisor with
            registry := after.supervisor.registry.releaseIfSettled darwin
              (registryRecord call after.session) } present
      · refine (kept _ records registry).mpr ?_
        rw [clients]
        exact Finset.notMem_erase _ _
      · have held := holds.releaseIfSettled darwin (registryRecord call after.session) rfl
        have free : Free call ((after.supervisor.registry.releaseIfSettled darwin
            (registryRecord call after.session)).release call.id) := by
          apply release_free
          split at held
          · exact .inl held
          · exact .inr held
        simp only [if_true]
        constructor
        · rw [clients]
          exact Finset.notMem_erase _ _
        · intro remaining
          rw [records] at remaining
          exact absurd remaining (Finset.notMem_erase _ _)
        · rw [registry, records]
          exact iff_of_true free.member (.inr (Finset.notMem_erase _ _))

end Ends

/-! ## Every failure after the first write -/

section Starts

variable (darwin : Bool) (limits : SessionLimits) (mode : Mode) (options : Options) (id : String)
  (now : JsString) (answers : Answers) (supervisor : Supervisor)

/-- The step that fails is not the write after the start, and the write of the failed record does
not fail where it is known that no child was started. -/
def Answers.Tidy (answers : Answers) : Prop :=
  ∀ point failure, answers.failing = some (point, failure) →
    point ≠ .started ∧ (answers.failed.isSome = true →
      noChildCleanup (cleanupOf answers failure point.prepared) = false)

/-- The write after the start fails with an error of the storage. -/
theorem failing_started {failure : Failure}
    (failing : answers.failing = some (.started, failure)) : ∃ error, failure = .other error := by
  have late : answers.starting = some (.started, failure) := by
    cases early : answers.preparing with
    | none => simpa [Answers.failing, early] using failing
    | some step =>
      have first : some step = some (.started, failure) := by
        simpa [Answers.failing, early] using failing
      rw [first] at early
      unfold Answers.preparing at early
      split at early <;> cases early
  unfold Answers.starting at late
  split at late <;> cases late
  exact ⟨_, rfl⟩

/-- A call against which no limit stands has its reservation. -/
theorem reserve_admitted {call : Call}
    (admitted : supervisor.registry.reserveError limits darwin call.maxSessionsPerOwner
      (registryRecord call (newRecord call)) = none) :
    ∃ reservation registry, supervisor.registry.reserve limits darwin call.maxSessionsPerOwner
      (registryRecord call (newRecord call)) = (.ok reservation, registry) := by
  rw [SessionTables.reserve, admitted]
  exact ⟨_, _, rfl⟩

/-- What a call has done when it starts its worker. -/
structure Recorded (call : Call) (supervisor : Supervisor) (progress : Progress) : Prop where
  starting : Starting progress.session
  holds : Holds call progress.supervisor.registry
  present : call.id ∈ progress.supervisor.records
  nativeWorkers : progress.supervisor.nativeWorkers = supervisor.nativeWorkers

/-- A call whose record is written runs the try block, and the catch block after a failure. -/
theorem startSession_written {call : Call}
    (admitted : supervisor.registry.reserveError limits darwin call.maxSessionsPerOwner
      (registryRecord call (newRecord call)) = none) (written : answers.created = none) :
    ∃ progress, Recorded call supervisor progress ∧
      startSession darwin call answers limits supervisor =
        match attempt darwin call answers progress with
        | ⟨none, _, progress⟩ => (none, progress)
        | ⟨some failure, prepared, progress⟩ =>
          let recovered := recover darwin call answers failure prepared progress
          (some recovered.1, recovered.2) := by
  obtain ⟨reservation, registry, reserved⟩ := reserve_admitted darwin limits supervisor admitted
  refine ⟨⟨(newRecord call).refreshed darwin,
    { supervisor with records := insert call.id supervisor.records, registry }⟩, ?_, ?_⟩
  · exact
      { starting := (newRecord_starting call).refreshed darwin
        holds := (reserve_holds reserved).1
        present := Finset.mem_insert_self _ _
        nativeWorkers := rfl }
  · simp only [startSession, reserved, written]
    rfl

/-- A call that rejects after its first write leaves no client, a session that is over, lost or
gone, and a slot that is free just where no child was started or the session was deleted, unless
the write after the start fails, or the last write fails although no child was started. -/
theorem failed_start_settled (call : Call) (fresh : call.id ∉ supervisor.nativeWorkers)
    (admitted : supervisor.registry.reserveError limits darwin call.maxSessionsPerOwner
      (registryRecord call (newRecord call)) = none) (written : answers.created = none)
    (rejected : (startSession darwin call answers limits supervisor).1.isSome = true) :
    Settled call (startSession darwin call answers limits supervisor).2 ↔ answers.Tidy := by
  obtain ⟨progress, recorded, begun⟩ :=
    startSession_written darwin limits answers supervisor admitted written
  have attempted := attempt_attempted darwin call answers recorded.starting
  rw [begun] at rejected ⊢
  revert attempted rejected
  rcases attempt darwin call answers progress with ⟨outcome, prepared, after⟩
  cases outcome with
  | none =>
    intro rejected
    cases rejected
  | some failure =>
    intro _ attempted
    obtain ⟨⟨point, error⟩, failing, same⟩ := Option.map_eq_some_iff.mp attempted.failure.symm
    obtain rfl : error = failure := same
    obtain rfl : prepared = point.prepared := attempted.prepared point error failing
    have clients : call.id ∉ after.supervisor.nativeWorkers ↔ point ≠ .started := by
      have registered := attempted.nativeWorkers
      rw [recorded.nativeWorkers] at registered
      rw [registered, failing]
      by_cases late : point = .started
      · simp [late]
      · simp [late, fresh]
    have told : error.noWorkerSpawned = true → call.id ∉ after.supervisor.nativeWorkers := by
      intro spawned
      rw [clients]
      rintro rfl
      obtain ⟨_, rfl⟩ := failing_started answers failing
      cases spawned
    have holds : Holds call after.supervisor.registry := by
      rw [attempted.registry]
      exact recorded.holds
    have present : call.id ∈ after.supervisor.records := by
      rw [attempted.records]
      exact recorded.present
    have settled := recover_settled darwin answers error point.prepared attempted.starting holds
      present told
    rw [clients] at settled
    refine settled.trans ?_
    constructor
    · rintro ⟨early, child⟩ other failed named
      rw [failing] at named
      cases named
      exact ⟨early, child⟩
    · intro tidy
      exact tidy point error failing

/-- A call whose first write fails takes its record and its slot back. -/
theorem unsaved_start_settled (call : Call) (fresh : call.id ∉ supervisor.nativeWorkers)
    (admitted : supervisor.registry.reserveError limits darwin call.maxSessionsPerOwner
      (registryRecord call (newRecord call)) = none) {error : Thrown}
    (unsaved : answers.created = some error) :
    Settled call (startSession darwin call answers limits supervisor).2 := by
  obtain ⟨reservation, registry, reserved⟩ := reserve_admitted darwin limits supervisor admitted
  obtain ⟨holds, own⟩ := reserve_holds reserved
  have free := release_free (.inl holds)
  simp only [startSession, reserved, unsaved, SessionRegistry.releaseReservation, own]
  constructor
  · exact fresh
  · intro remaining
    exact absurd remaining (Finset.notMem_erase _ _)
  · exact iff_of_true free.member (.inr (Finset.notMem_erase _ _))

end Starts

/-! ## Two failures that are not cleaned up -/

/-- Limits with room for this session. -/
def sampleLimits : SessionLimits where
  maxActiveSessions := 256
  maxRecordsPerOwner := 64
  maxRecords := 512
  maxPendingWaitsPerSession := 8
  maxPendingWaitsPerOwner := 32
  maxPendingWaits := 128
  maxQueuedInputBytesPerSession := 1024
  maxQueuedInputBytesPerOwner := 4096
  maxQueuedInputBytes := 8192
  maxRetainedOutputBytesPerOwner := 65536
  maxRetainedOutputBytes := 262144

/-- A start of a terminal session. -/
def sampleCall : Call where
  parentSessionId := "ses_1"
  ownerProjectDirectory := "/project"
  ownerCapabilityHash := "capability"
  outputLimitBytes := 1024
  maxSessionsPerOwner := 32
  mode := .pty
  id := "pty_1"
  now := js "2026-01-01T00:00:00.000Z"

/-- A supervisor without sessions. -/
def idleSupervisor : Supervisor where
  records := ∅
  nativeWorkers := ∅
  registry := SessionRegistry.Registry.empty.toSessionTables

/-- The snapshot of a child that runs. -/
def startedSnapshot : WorkerSnapshot where
  status := .running
  pid := 7
  stdout := none
  stderr := none
  stdoutBytes := 0
  stderrBytes := 0
  stdoutTruncated := false
  stderrTruncated := false
  nextSequence := 0
  firstRetainedSequence := 0
  outputTruncated := false
  outputLineCount := 0
  outputHasPartialLine := false
  exitCode := none
  exitSignal := none
  exitReason := none
  exitedAt := none
  timedOut := false
  terminationRequested := false
  terminationConfirmed := false
  directChildExited := false
  storageFailure := none
  outputIncomplete := false
  readerFailure := none
  diagnostics := none
  containment := .null
  termination := none

/-- The failure of a full disk. -/
def diskFull : Thrown := ⟨js "ENOSPC", js "Error: ENOSPC"⟩

/-- Every step succeeds but the write after the start; the rollback then ends the child. -/
def fullAfterStart : Answers where
  created := none
  secrets := none
  bootstrap := none
  authority := .null
  authorized := none
  spawned := none
  handshake := .ok .null
  referenced := none
  attempted := none
  start := .ok startedSnapshot
  started := some diskFull
  rollback := .ok ⟨true, true, .rollback, none, some 7, none⟩
  failed := none
  deleted := none

/-- The disk is full from the write of the authority on. -/
def fullBeforeSpawn : Answers :=
  { fullAfterStart with
    authorized := some diskFull
    failed := some diskFull }

/-- No worker process could be created. -/
def unspawned : Answers :=
  { fullAfterStart with spawned := some diskFull }

/-- The start of a worker that cannot be spawned is settled. -/
theorem failed_start_settled_unspawned :
    Settled sampleCall (startSession false sampleCall unspawned sampleLimits idleSupervisor).2 := by
  refine (failed_start_settled false sampleLimits unspawned idleSupervisor sampleCall (by decide)
    (by decide) rfl (by decide)).mpr ?_
  rintro point failure failing
  cases failing
  exact ⟨by decide, by decide⟩

/-- A write that fails after the start leaves the client of the failed session in the router, and
a second failed write leaves the slot of a session without a child occupied. -/
theorem failed_start_leftovers :
    ((startSession false sampleCall fullAfterStart sampleLimits idleSupervisor).1.isSome = true ∧
      ¬ Settled sampleCall
        (startSession false sampleCall fullAfterStart sampleLimits idleSupervisor).2) ∧
    (startSession false sampleCall fullBeforeSpawn sampleLimits idleSupervisor).1.isSome = true ∧
      ¬ Settled sampleCall
        (startSession false sampleCall fullBeforeSpawn sampleLimits idleSupervisor).2 := by
  refine ⟨⟨by decide, ?_⟩, by decide, ?_⟩
  · intro settled
    exact settled.unregistered (by decide)
  · intro settled
    exact settled.slot.mpr (.inl (by decide)) (by decide)

end OpencodePty.SessionStarts
