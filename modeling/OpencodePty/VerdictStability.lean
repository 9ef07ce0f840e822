import OpencodePty.ExitedSnapshots

/-!
# What later scans make of a verdict

A snapshot observes the exit, which confirms the termination anew with a scan, and then makes
a containment report from another scan. The verdict that the child exited is therefore not
kept: it is said again as long as the scans are complete and list no process under a number
that the worker accounts for. A process that gets the number of the root later, or the number
of its group or session, makes the verdict unknown on purpose.
-/

namespace OpencodePty.VerdictStability

open OpencodePty.ContainmentHistories OpencodePty.ExitedSnapshots OpencodePty.ProcessScans
open OpencodePty.Timestamps OpencodePty.Transitions
open OpencodePty.WorkerReports (Reporter)
open OpencodePty.WorkerVerdicts

/-- The part of a worker that a snapshot reads and changes. -/
structure Worker where
  state : State
  containment : Containment

/-- What `observe_exit` meets: an exit, or none, and the scans that it makes. -/
structure Observation where
  exit : Option ExitStatus
  clock : Clock
  time : Nat
  recordLook : Look
  look : Look

/-- `refresh_termination_confirmed` -/
def refresh (platform : Platform) (worker : Worker) (look : Look) : Worker :=
  let (containment, report) := containmentReport platform worker.containment look
  ⟨refreshTerminationConfirmed platform report worker.state, containment⟩

/-- `observe_exit` -/
def observeExit (platform : Platform) (worker : Worker) (observation : Observation) : Worker :=
  let recorded :=
    match observation.exit with
    | some exit =>
      if worker.state.rootExited then worker
      else
        refresh platform
          { worker with
            state := recordExit platform exit observation.clock observation.time worker.state }
          observation.recordLook
    | none => worker
  if recorded.state.rootExited then refresh platform recorded observation.look else recorded

/-- A call of `snapshot`, with the times and the scans in it. -/
structure Request where
  observation : Observation
  drainTime : Nat
  look : Look
  time : Nat

/-- `snapshot` -/
def snapshot (platform : Platform) (worker : Worker) (request : Request) : Worker × Snapshot :=
  let observed := observeExit platform worker request.observation
  let drained := updateReaderDrain platform request.drainTime observed.state
  let (containment, report) := containmentReport platform observed.containment request.look
  (⟨drained, containment⟩, readSnapshot platform drained report request.time)

/-- What follows a snapshot: the monitor goes on, and there are more snapshots. -/
inductive Later where
  | observe (observation : Observation)
  | drain (time : Nat)
  | snapshot (request : Request)

/-- The scans that are made in a later step once the exit was recorded. -/
def Later.looks : Later → List Look
  | .observe observation => [observation.look]
  | .drain _ => []
  | .snapshot request => [request.observation.look, request.look]

/-- A later step, and its snapshot. -/
def Later.take (platform : Platform) (worker : Worker) : Later → Worker × List Snapshot
  | .observe observation => (observeExit platform worker observation, [])
  | .drain time => ({ worker with state := updateReaderDrain platform time worker.state }, [])
  | .snapshot request =>
    let (next, shot) := VerdictStability.snapshot platform worker request
    (next, [shot])

/-- The snapshots in the steps that follow. -/
def snapshots (platform : Platform) (worker : Worker) : List Later → List Snapshot
  | [] => []
  | later :: rest =>
    let (next, shots) := later.take platform worker
    shots ++ snapshots platform next rest

/-- The scan is complete and lists no process under a number that the worker accounts for. -/
def Vacant (containment : Containment) (look : Look) : Prop :=
  ∃ scan, look.scan = some scan ∧ scan.unreadablePids = [] ∧
    ∀ process ∈ scan.processes, ¬ Accounted containment process

/-! ## Vacant scans -/

/-- The tables of a containment account for no more than those of another one. -/
structure Narrower (base containment : Containment) : Prop where
  same : SameRoot base containment
  escapes : ∀ escape ∈ containment.escapedMembers, escape ∈ base.escapedMembers

theorem Narrower.vacant {base containment : Containment} (narrower : Narrower base containment)
    {look : Look} (vacant : Vacant base look) : Vacant containment look := by
  obtain ⟨scan, looked, complete, none⟩ := vacant
  refine ⟨scan, looked, complete, fun process inside accounted => none process inside ?_⟩
  rcases accounted with root | group | session | ⟨escape, observed, number⟩
  · exact Or.inl (root.trans narrower.same.rootPid)
  · exact Or.inr (Or.inl (group.trans narrower.same.processGroupId))
  · exact Or.inr (Or.inr (Or.inl (session.trans narrower.same.sessionId)))
  · exact Or.inr (Or.inr (Or.inr ⟨escape, narrower.escapes escape observed, number⟩))

/-- The group and the session of the root were recorded. -/
def Identified (containment : Containment) : Prop :=
  containment.processGroupId ≠ none ∧ containment.sessionId ≠ none

theorem vacant_report {containment : Containment} (identified : Identified containment)
    {look : Look} (vacant : Vacant containment look) :
    (containmentReport .linux containment look).2.status = .posixBestEffortEmpty ∧
      (containmentReport .linux containment look).1 =
        { containment with escapedMembers := [] } := by
  obtain ⟨scan, looked, complete, none⟩ := vacant
  have empty : statusOf containment ⟨look.clock, scan⟩ = .posixBestEffortEmpty :=
    statusOf_eq_empty.mpr ⟨complete, identified.1, identified.2, none⟩
  simp only [containmentReport, looked]
  exact ⟨empty, inspect_of_empty empty⟩

/-! ## Doubtful scans -/

/-- What makes a report unknown after the root has gone: the scan fails or is not complete, or it
lists a process that has nothing to do with the child under the number of the root, or in its group
or session. -/
inductive Doubtful (containment : Containment) (look : Look) : Prop
  | failed (none : look.scan = none)
  | incomplete (scan : ProcessScan) (looked : look.scan = some scan)
      (unreadable : scan.unreadablePids ≠ [])
  | rootReused (scan : ProcessScan) (looked : look.scan = some scan) (process : ProcessInfo)
      (found : listed scan.processes containment.rootPid = some process)
      (other : process.identity ≠ containment.rootStartIdentity)
  | memberReused (scan : ProcessScan) (looked : look.scan = some scan)
      (gone : listed scan.processes containment.rootPid = none) (process : ProcessInfo)
      (inside : process ∈ scan.processes)
      (member : some process.pgid = containment.processGroupId ∨
        some process.sid = containment.sessionId)
      (other : containment.knownMembers.get process.pid ≠ some process.identity)

/-- A process in the group or the session of the root that is no known member makes the report
unknown. -/
theorem reportGone_unknown {clock : Clock} {containment : Containment}
    {processes : List ProcessInfo} {pgid sid : Nat} {process : ProcessInfo}
    (inside : process ∈ processes) (member : process.pgid = pgid ∨ process.sid = sid)
    (other : containment.knownMembers.get process.pid ≠ some process.identity) :
    (reportGone clock containment processes pgid sid).status = .posixContainmentUnknown := by
  have candidate : process ∈ processes.filter
      (fun process => process.pgid == pgid || process.sid == sid) := by
    simp [inside, member]
  have fewer := (List.length_filter_lt_length_iff_exists (p := fun process =>
    containment.knownMembers.get process.pid == some process.identity)).mpr
      ⟨process, candidate, fun same => other (beq_iff_eq.mp same)⟩
  simp only [reportGone, Containment.report]
  rw [if_pos (Nat.ne_of_gt fewer)]

/-- Such a scan makes the containment unknown. -/
theorem doubtful_report {containment : Containment} {look : Look}
    (doubtful : Doubtful containment look) :
    (containmentReport .linux containment look).2.status = .posixContainmentUnknown := by
  cases doubtful with
  | failed none => simp [containmentReport, none, Containment.report]
  | incomplete scan looked unreadable =>
    simp [containmentReport, looked, containmentReportFromScan, unreadable, Containment.unknown,
      Containment.report]
  | rootReused scan looked process found other =>
    simp only [containmentReport, looked, containmentReportFromScan]
    split
    · rfl
    · split
      · rfl
      · simp [found, other, Containment.unknown, Containment.report]
  | memberReused scan looked gone process inside member other =>
    simp only [containmentReport, looked, containmentReportFromScan]
    split
    · rfl
    · split
      · rfl
      · simp only [gone, Option.isSome_none, Bool.false_and, Option.filter_none]
        cases group : containment.processGroupId with
        | none => rfl
        | some pgid =>
          cases session : containment.sessionId with
          | none => rfl
          | some sid =>
            rw [group, session, Option.some_inj, Option.some_inj] at member
            exact reportGone_unknown inside member other

/-- An unknown containment does not drain. -/
theorem not_drained {report : ContainmentReport} (unknown : report.status = .posixContainmentUnknown) :
    containmentDrained report = false := by
  simp [containmentDrained, unknown]

/-- A snapshot whose own scan is doubtful does not say that the child exited. -/
theorem snapshot_doubtful {worker : Worker} {request : Request}
    (doubtful : Doubtful (observeExit .linux worker request.observation).containment request.look) :
    (snapshot .linux worker request).2.containment.status = .posixContainmentUnknown ∧
      (snapshot .linux worker request).2.status ≠ .exited := by
  have unknown := doubtful_report doubtful
  refine ⟨unknown, ?_⟩
  simp only [snapshot, readSnapshot, snapshotStatus, containmentUnavailable, unknown,
    macosDirectExit]
  grind

/-! ## The state after the verdict -/

/-- The worker has told the exit of its child, and nothing has failed. -/
structure Settled (base : Containment) (worker : Worker) : Prop where
  rootExited : worker.state.rootExited = true
  confirmed : worker.state.terminationConfirmed = true
  complete : outputComplete worker.state = true
  noFailure : worker.state.storageFailure = none
  whole : worker.state.reporter.outputIncomplete = false
  narrower : Narrower base worker.containment
  identified : Identified base

theorem Settled.identified' {base : Containment} {worker : Worker}
    (settled : Settled base worker) : Identified worker.containment := by
  have same := settled.narrower.same
  exact ⟨same.processGroupId ▸ settled.identified.1, same.sessionId ▸ settled.identified.2⟩

theorem Settled.narrow {base : Containment} {worker : Worker} (settled : Settled base worker) :
    Narrower base { worker.containment with escapedMembers := [] } :=
  ⟨settled.narrower.same.trans (SameRoot.tables _ _ _),
    fun _ none => absurd none List.not_mem_nil⟩

/-- Once the exit was recorded, observing it again is one look at the containment. -/
theorem Settled.observes {base : Containment} {worker : Worker} (settled : Settled base worker)
    (observation : Observation) :
    observeExit .linux worker observation = refresh .linux worker observation.look := by
  simp only [observeExit, settled.rootExited, if_true]
  cases observation.exit <;> simp only [settled.rootExited, if_true]

/-- Observing the exit again confirms it with a vacant scan. -/
theorem Settled.observe {base : Containment} {worker : Worker} (settled : Settled base worker)
    {observation : Observation} (vacant : Vacant base observation.look) :
    Settled base (observeExit .linux worker observation) := by
  obtain ⟨empty, cleared⟩ :=
    vacant_report settled.identified' (settled.narrower.vacant vacant)
  rw [settled.observes]
  refine ⟨settled.rootExited, ?_, settled.complete, settled.noFailure, settled.whole, ?_,
    settled.identified⟩
  · simp [refresh, refreshTerminationConfirmed, settled.rootExited, containmentDrained, empty]
  · change Narrower base (containmentReport .linux worker.containment observation.look).1
    rw [cleared]
    exact settled.narrow

/-- With all output there, the drain of the readers changes nothing. -/
theorem Settled.drain {base : Containment} {worker : Worker} (settled : Settled base worker)
    (time : Nat) : updateReaderDrain .linux time worker.state = worker.state := by
  simp [updateReaderDrain, updateReaderDrainState, settled.complete]

theorem Settled.snapshot {base : Containment} {worker : Worker} (settled : Settled base worker)
    {request : Request} (observed : Vacant base request.observation.look)
    (vacant : Vacant base request.look) :
    Settled base (snapshot .linux worker request).1 ∧
      (snapshot .linux worker request).2.status = .exited ∧
      (snapshot .linux worker request).2.terminationConfirmed = true := by
  have after := settled.observe observed
  obtain ⟨empty, cleared⟩ := vacant_report after.identified' (after.narrower.vacant vacant)
  simp only [VerdictStability.snapshot, after.drain, readSnapshot]
  refine ⟨⟨after.rootExited, after.confirmed, after.complete, after.noFailure, after.whole, ?_,
    after.identified⟩, ?_, after.confirmed⟩
  · change Narrower base (containmentReport .linux _ request.look).1
    rw [cleared]
    exact after.narrow
  · simp [snapshotStatus, terminal, containmentUnresolved, containmentUnavailable,
      containmentDrained, empty, after.confirmed, after.complete, after.noFailure, after.whole]

theorem Settled.take {base : Containment} {worker : Worker} (settled : Settled base worker)
    {later : Later} (vacant : ∀ look ∈ later.looks, Vacant base look) :
    Settled base (later.take .linux worker).1 ∧
      ∀ shot ∈ (later.take .linux worker).2,
        shot.status = .exited ∧ shot.terminationConfirmed = true := by
  cases later with
  | observe observation =>
    refine ⟨settled.observe (vacant _ (List.mem_singleton_self _)), fun _ none => ?_⟩
    exact absurd none List.not_mem_nil
  | drain time =>
    refine ⟨?_, fun _ none => absurd none List.not_mem_nil⟩
    simp only [Later.take, settled.drain]
    exact settled
  | snapshot request =>
    obtain ⟨next, said⟩ := settled.snapshot (vacant _ (List.mem_cons_self))
      (vacant _ (List.mem_cons_of_mem _ (List.mem_singleton_self _)))
    refine ⟨next, fun shot member => ?_⟩
    rw [List.mem_singleton.mp member]
    exact said

theorem Settled.snapshots {base : Containment} {worker : Worker} (settled : Settled base worker)
    {laters : List Later} (vacant : ∀ later ∈ laters, ∀ look ∈ later.looks, Vacant base look) :
    ∀ shot ∈ snapshots .linux worker laters,
      shot.status = .exited ∧ shot.terminationConfirmed = true := by
  induction laters generalizing worker with
  | nil => exact fun _ none => absurd none List.not_mem_nil
  | cons later rest inductionHypothesis =>
    obtain ⟨now, others⟩ := List.forall_mem_cons.mp vacant
    obtain ⟨next, said⟩ := settled.take now
    intro shot member
    rcases List.mem_append.mp member with first | second
    · exact said shot first
    · exact inductionHypothesis next others shot second

/-- The worker after later steps. -/
def after (platform : Platform) (worker : Worker) (laters : List Later) : Worker :=
  run (fun reached later => (later.take platform reached).1) worker laters

/-- The worker stays settled throughout vacant scans. -/
theorem Settled.after {base : Containment} {worker : Worker} (settled : Settled base worker)
    {laters : List Later} (vacant : ∀ later ∈ laters, ∀ look ∈ later.looks, Vacant base look) :
    Settled base (after .linux worker laters) := by
  induction laters generalizing worker with
  | nil => exact settled
  | cons later rest inductionHypothesis =>
    obtain ⟨now, others⟩ := List.forall_mem_cons.mp vacant
    exact inductionHypothesis (settled.take now).1 others

/-- A snapshot that observes the exit with a doubtful scan takes the confirmation back. -/
theorem Settled.doubted {base : Containment} {worker : Worker} (settled : Settled base worker)
    {request : Request} (doubtful : Doubtful worker.containment request.observation.look) :
    (VerdictStability.snapshot .linux worker request).2.terminationConfirmed = false ∧
      (VerdictStability.snapshot .linux worker request).2.status ≠ .exited := by
  have unknown := not_drained (doubtful_report doubtful)
  have drain := updateReaderDrain_same .linux request.drainTime
    (observeExit .linux worker request.observation).state
  have unconfirmed : (VerdictStability.snapshot .linux worker request).2.terminationConfirmed =
      false := by
    refine drain.terminationConfirmed.trans ?_
    rw [settled.observes]
    simp [refresh, refreshTerminationConfirmed, unknown]
  refine ⟨unconfirmed, fun exited => ?_⟩
  have confirmed := (exited_state exited).1
  exact nomatch confirmed.symm.trans unconfirmed

/-! ## The first verdict -/

theorem containmentReport_sameRoot (containment : Containment) (look : Look) :
    SameRoot containment (containmentReport .linux containment look).1 := by
  cases looked : look.scan with
  | none =>
    simp only [containmentReport, looked]
    exact ⟨rfl, rfl, rfl, rfl⟩
  | some scan =>
    simp only [containmentReport, looked]
    exact inspect_sameRoot containment ⟨look.clock, scan⟩

/-- A drained report needs the group and the session of the root. -/
theorem identified_of_drained {containment : Containment} {look : Look}
    (drained : containmentDrained (containmentReport .linux containment look).2 = true) :
    Identified containment := by
  obtain ⟨scan, looked, empty⟩ := drained_linux drained
  obtain ⟨_, group, session, _⟩ := statusOf_eq_empty.mp empty
  exact ⟨group, session⟩

/-- Where the exit is confirmed after it was observed, it was recorded, and the group and the
session of the root are known. -/
theorem observed_identified {worker : Worker}
    (recorded : worker.state.terminationConfirmed = true → worker.state.rootExited = true)
    {observation : Observation}
    (confirmed : (observeExit .linux worker observation).state.terminationConfirmed = true) :
    (observeExit .linux worker observation).state.rootExited = true ∧
      Identified (observeExit .linux worker observation).containment := by
  unfold observeExit at confirmed ⊢
  generalize earlier : (match observation.exit with
    | some exit =>
      if worker.state.rootExited then worker
      else
        refresh .linux
          { worker with
            state := recordExit .linux exit observation.clock observation.time worker.state }
          observation.recordLook
    | none => worker) = before at confirmed ⊢
  have consistent : before.state.terminationConfirmed = true → before.state.rootExited = true := by
    rw [← earlier]
    split
    · split
      · exact recorded
      · exact fun _ => recordExit_rootExited _ _ _ _ _
    · exact recorded
  by_cases exited : before.state.rootExited = true
  · rw [if_pos exited] at confirmed ⊢
    have drained : containmentDrained
        (containmentReport .linux before.containment observation.look).2 = true := by
      have evidence := (Bool.and_eq_true_iff.mp confirmed).2
      rcases Bool.or_eq_true_iff.mp evidence with drained | macos
      · exact drained
      · exact nomatch macos
    have known := identified_of_drained drained
    have same := containmentReport_sameRoot before.containment observation.look
    exact ⟨exited, same.processGroupId ▸ known.1, same.sessionId ▸ known.2⟩
  · rw [if_neg exited] at confirmed
    exact absurd (consistent confirmed) exited

theorem settled_of_exited {worker : Worker}
    (recorded : worker.state.terminationConfirmed = true → worker.state.rootExited = true)
    {request : Request} (exited : (snapshot .linux worker request).2.status = .exited) :
    Settled (snapshot .linux worker request).1.containment (snapshot .linux worker request).1 := by
  obtain ⟨confirmed, complete, noFailure, whole⟩ := exited_state exited
  have drain := updateReaderDrain_same .linux request.drainTime
    (observeExit .linux worker request.observation).state
  obtain ⟨rootExited, known⟩ :=
    observed_identified recorded (drain.terminationConfirmed.symm.trans confirmed)
  have same := containmentReport_sameRoot
    (observeExit .linux worker request.observation).containment request.look
  exact
    { rootExited := drain.rootExited.trans rootExited
      confirmed := confirmed
      complete := complete
      noFailure := noFailure
      whole := whole
      narrower := ⟨⟨rfl, rfl, rfl, rfl⟩, fun _ => id⟩
      identified := ⟨same.processGroupId ▸ known.1, same.sessionId ▸ known.2⟩ }

/-- The worker in a state that its threads can reach. -/
def reached (reporter : Reporter) (containment : Containment) (actions : List Action) : Worker :=
  ⟨(run (step .linux) (start reporter containment) actions).state,
    (run (step .linux) (start reporter containment) actions).containment⟩

/-- After a snapshot that says that the child exited, every later snapshot says so again with
the termination confirmed, as long as all scans are vacant. The next snapshot takes the
confirmation back where it observes the exit with a doubtful scan, and it has an unknown containment
where its own scan is doubtful. In neither case does it say that the child exited. -/
theorem verdict_stable (reporter : Reporter) (containment : Containment) (actions : List Action)
    {request : Request}
    (exited : (snapshot .linux (reached reporter containment actions) request).2.status = .exited)
    {laters : List Later}
    (vacant : ∀ later ∈ laters, ∀ look ∈ later.looks,
      Vacant (snapshot .linux (reached reporter containment actions) request).1.containment look) :
    (∀ shot ∈ snapshots .linux
        (snapshot .linux (reached reporter containment actions) request).1 laters,
      shot.status = .exited ∧ shot.terminationConfirmed = true) ∧
    ∀ final, final = after .linux
        (snapshot .linux (reached reporter containment actions) request).1 laters →
      ∀ next : Request,
        (Doubtful final.containment next.observation.look →
          (snapshot .linux final next).2.terminationConfirmed = false ∧
            (snapshot .linux final next).2.status ≠ .exited) ∧
        (Doubtful (observeExit .linux final next.observation).containment next.look →
          (snapshot .linux final next).2.containment.status = .posixContainmentUnknown ∧
            (snapshot .linux final next).2.status ≠ .exited) := by
  have settled := settled_of_exited (run_recorded .linux reporter containment actions).confirmed
    exited
  refine ⟨settled.snapshots vacant, ?_⟩
  rintro final rfl next
  exact ⟨(settled.after vacant).doubted, snapshot_doubtful⟩

/-- A snapshot whose scans are the same. -/
def requestOf (time : Nat) (scan : Option ProcessScan) : Request :=
  let look : Look := ⟨⟨0, 0⟩, scan, none⟩
  ⟨⟨none, ⟨0, 0⟩, time, look, look⟩, time, look, time⟩

/-- A snapshot between empty scans. -/
def quietRequest (time : Nat) : Request := requestOf time (some ⟨[], []⟩)

/-- The child is said to have exited, and said so again until a process of another user gets the
number of the root. -/
theorem verdict_stable_quiet :
    (snapshots .linux
        (snapshot .linux (reached execReporter childOfTen drainedRun) (quietRequest 6)).1
        [.snapshot (quietRequest 9000)]).all
      (fun shot => shot.status = .exited && shot.terminationConfirmed) = true ∧
    (snapshot .linux
      (after .linux
        (snapshot .linux (reached execReporter childOfTen drainedRun) (quietRequest 6)).1
        [.snapshot (quietRequest 9000)])
      (requestOf 9001 (some ⟨[⟨10, 1, 10, 10, "99".toList⟩], []⟩))).2.terminationConfirmed =
        false := by
  have stable := @verdict_stable execReporter childOfTen drainedRun (quietRequest 6)
    (by decide) [.snapshot (quietRequest 9000)] (by
      intro later single look member
      rw [List.mem_singleton.mp single] at member
      refine ⟨⟨[], []⟩, ?_, rfl, fun process none => absurd none List.not_mem_nil⟩
      rcases List.mem_cons.mp member with rfl | other
      · rfl
      · rw [List.mem_singleton.mp other]
        rfl)
  refine ⟨List.all_eq_true.mpr fun shot listed => ?_, ?_⟩
  · obtain ⟨exited, confirmed⟩ := stable.1 shot listed
    rw [exited, confirmed]
    rfl
  · refine ((stable.2 _ rfl _).1 ?_).1
    exact .rootReused _ rfl ⟨10, 1, 10, 10, "99".toList⟩ (by decide) (by decide)

/-- Later scans that take the verdict back: one that fails, one that is not complete, and those
that list a process of another user under the number of the root, in its group or in its session. -/
def doubtfulScans : List (Option ProcessScan) :=
  [none, some ⟨[], [77]⟩, some ⟨[⟨10, 1, 10, 10, "99".toList⟩], []⟩,
    some ⟨[⟨50, 1, 10, 50, "99".toList⟩], []⟩, some ⟨[⟨50, 1, 50, 10, "99".toList⟩], []⟩]

/-- The child is said to have exited with the termination confirmed, and after each of these scans
it is said to be lost without. -/
theorem verdict_taken_back :
    (snapshot .linux (reached execReporter childOfTen drainedRun) (quietRequest 6)).2.status =
        .exited ∧
      (snapshot .linux (reached execReporter childOfTen drainedRun)
        (quietRequest 6)).2.terminationConfirmed = true ∧
      ∀ scan ∈ doubtfulScans,
        (snapshots .linux
          (snapshot .linux (reached execReporter childOfTen drainedRun) (quietRequest 6)).1
          [.snapshot (requestOf 9000 scan)]).all
            (fun shot => shot.status = .lost && !shot.terminationConfirmed) = true :=
  ⟨by decide, by decide, by decide⟩

end OpencodePty.VerdictStability
