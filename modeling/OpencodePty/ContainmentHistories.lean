import Mathlib.Data.List.Nodup
import OpencodePty.ProcessScans

/-!
# What an empty containment report says after a history of scans

A report that nothing is left is given exactly when the scan is complete and lists no
process that the worker accounts for: the number of the root, the recorded group or session,
or the number of an escape that was observed before. A process that an earlier scan showed
in the session of the root, or below the root outside of it, is not always accounted for
later. A member can leave the session, and a scan that is answered early puts nothing into
the tables.

Nothing is missed where the scans record every process that they show below the root outside of
the session, and show every member there that leaves the session.
-/

namespace OpencodePty.ContainmentHistories

open OpencodePty.ProcessScans OpencodePty.Timestamps OpencodePty.Worklists

/-- The worker accounts for a process: by the number of the root, the group, the session or
an escape. -/
def Accounted (containment : Containment) (process : ProcessInfo) : Prop :=
  process.pid = containment.rootPid ∨ some process.pgid = containment.processGroupId ∨
    some process.sid = containment.sessionId ∨
    ∃ escape ∈ containment.escapedMembers, escape.1 = process.pid

/-! ## When a report says that nothing is left -/

/-- A process is not listed where no entry has its id. -/
theorem listed_eq_none {processes : List ProcessInfo} {pid : Nat} :
    listed processes pid = none ↔ ∀ process ∈ processes, process.pid ≠ pid := by
  simp only [listed, List.find?_eq_none, beq_iff_eq, ne_eq]

/-- The process that is listed has the id that was asked for. -/
theorem pid_of_listed {processes : List ProcessInfo} {pid : Nat} {process : ProcessInfo}
    (found : listed processes pid = some process) : process.pid = pid := by
  have same : (process.pid == pid) = true := by
    simpa only using List.find?_some found
  exact beq_iff_eq.mp same

/-- All escapes are resolved exactly when the scan lists the number of none. -/
theorem resolveEscapes_eq_nil {processes : List ProcessInfo} {escapes : Members} :
    resolveEscapes processes escapes = ([], false) ↔
      ∀ escape ∈ escapes, listed processes escape.1 = none := by
  induction escapes with
  | nil => simp [resolveEscapes]
  | cons escape rest inductionHypothesis =>
    obtain ⟨pid, identity⟩ := escape
    rw [List.forall_mem_cons, ← inductionHypothesis, resolveEscapes]
    cases found : listed processes pid with
    | none => exact ⟨fun resolved => ⟨rfl, resolved⟩, And.right⟩
    | some process =>
      constructor
      · intro resolved
        by_cases same : process.identity = identity
        · simp only [if_pos same] at resolved
          exact absurd (congrArg Prod.fst resolved) (List.cons_ne_nil _ _)
        · simp only [if_neg same] at resolved
          exact absurd (congrArg Prod.fst resolved) (List.cons_ne_nil _ _)
      · intro both
        simp at both

/-- While the root is alive no report says that nothing is left. -/
theorem reportAlive_status (clock : Clock) (containment : Containment)
    (processes : List ProcessInfo) (root : ProcessInfo) (pgid sid : Nat) :
    (reportAlive clock containment processes root pgid sid).2.status ≠
      .posixBestEffortEmpty := by
  simp only [reportAlive, Containment.report]
  split <;> exact nofun

/-- After the root has gone, nothing is left when there is no escape and the scan lists
neither the group nor the session. -/
theorem reportGone_status {clock : Clock} {containment : Containment}
    {processes : List ProcessInfo} {pgid sid : Nat} :
    (reportGone clock containment processes pgid sid).status = .posixBestEffortEmpty ↔
      containment.escapedMembers = [] ∧
        ∀ process ∈ processes, process.pgid ≠ pgid ∧ process.sid ≠ sid := by
  have none_listed : processes.filter (fun process => process.pgid == pgid || process.sid == sid) =
      [] ↔ ∀ process ∈ processes, process.pgid ≠ pgid ∧ process.sid ≠ sid := by
    simp only [List.filter_eq_nil_iff, Bool.or_eq_true, beq_iff_eq, not_or, ne_eq]
  rw [← none_listed]
  simp only [reportGone, Containment.report]
  generalize processes.filter (fun process => process.pgid == pgid || process.sid == sid) =
    candidates
  constructor
  · intro empty
    split at empty
    · exact nomatch empty
    · rename_i verified
      split at empty
      · exact nomatch empty
      · rename_i escapes
        split at empty
        · rename_i members
          simp only [Bool.and_eq_true, List.isEmpty_iff, List.map_eq_nil_iff] at members
          refine ⟨by simpa using escapes, ?_⟩
          rw [members.2, List.length_nil, ne_eq, not_not] at verified
          exact List.eq_nil_of_length_eq_zero verified
        · exact nomatch empty
  · rintro ⟨noEscape, rfl⟩
    simp [noEscape]

/-- A scan lists nothing that is accounted for when the root is not listed, all escapes are
resolved, and neither the group nor the session is listed. -/
theorem none_accounted {containment : Containment} {processes : List ProcessInfo} :
    (∀ process ∈ processes, ¬ Accounted containment process) ↔
      listed processes containment.rootPid = none ∧
        resolveEscapes processes containment.escapedMembers = ([], false) ∧
        ∀ process ∈ processes, some process.pgid ≠ containment.processGroupId ∧
          some process.sid ≠ containment.sessionId := by
  simp only [resolveEscapes_eq_nil, listed_eq_none, Accounted, not_or, not_exists, not_and]
  constructor
  · intro none
    refine ⟨fun process inside => (none process inside).1, ?_, ?_⟩
    · intro escape observed process inside same
      exact (none process inside).2.2.2 escape observed same.symm
    · exact fun process inside => ⟨(none process inside).2.1, (none process inside).2.2.1⟩
  · rintro ⟨root, escapes, members⟩ process inside
    refine ⟨root process inside, (members process inside).1, (members process inside).2, ?_⟩
    intro escape observed same
    exact escapes escape observed process inside same.symm

/-- A report says that nothing is left exactly when the scan is complete, the group and the
session were recorded, and the scan lists no process that is accounted for. -/
theorem statusOf_eq_empty {containment : Containment} {inspection : Inspection} :
    statusOf containment inspection = .posixBestEffortEmpty ↔
      inspection.scan.unreadablePids = [] ∧ containment.processGroupId ≠ none ∧
        containment.sessionId ≠ none ∧
        ∀ process ∈ inspection.scan.processes, ¬ Accounted containment process := by
  obtain ⟨clock, processes, unreadable⟩ := inspection
  rw [none_accounted]
  simp only [statusOf, containmentReportFromScan]
  cases unreadable with
  | cons pid rest => simp [Containment.unknown, Containment.report]
  | nil =>
    cases resolved : resolveEscapes processes containment.escapedMembers with
    | mk escapes reused =>
      cases reused with
      | true => simp [Containment.unknown, Containment.report]
      | false =>
        cases root : listed processes containment.rootPid with
        | some process =>
          -- The number of the root is listed, by the root itself or by another process.
          simp only [reduceCtorEq, false_and, and_false, iff_false]
          by_cases same : process.identity = containment.rootStartIdentity
          · cases containment.processGroupId with
            | none => simp [same, Option.filter_some, Containment.report]
            | some pgid =>
              cases containment.sessionId with
              | none => simp [same, Option.filter_some, Containment.report]
              | some sid =>
                simp only [same, Option.filter_some, beq_self_eq_true]
                by_cases moved : (process.pgid != pgid || process.sid != sid) = true
                · simp [moved, Containment.unknown, Containment.report]
                · simpa [moved] using reportAlive_status clock _ processes process pgid sid
          · simp [same, Containment.unknown, Containment.report]
        | none =>
          cases group : containment.processGroupId with
          | none => simp [Containment.report]
          | some pgid =>
            cases session : containment.sessionId with
            | none => simp [Containment.report]
            | some sid =>
              simp [reportGone_status]

/-- After such a report no escape is left in the table. -/
theorem inspect_of_empty {containment : Containment} {inspection : Inspection}
    (empty : statusOf containment inspection = .posixBestEffortEmpty) :
    inspect containment inspection = { containment with escapedMembers := [] } := by
  obtain ⟨complete, group, session, none⟩ := statusOf_eq_empty.mp empty
  obtain ⟨root, escapes, _⟩ := none_accounted.mp none
  obtain ⟨pgid, recordedGroup⟩ := Option.ne_none_iff_exists'.mp group
  obtain ⟨sid, recordedSession⟩ := Option.ne_none_iff_exists'.mp session
  simp [inspect, containmentReportFromScan, complete, escapes, root, recordedGroup,
    recordedSession]

/-- The statuses of a report from a scan. -/
def fromScan : ContainmentStatus → Bool
  | .posixContainmentUnknown | .posixEscapeObserved | .posixProcessesRemaining
  | .posixBestEffortEmpty => true
  | _ => false

/-- Each status is one that a scan can give. -/
theorem statusOf_fromScan (containment : Containment) (inspection : Inspection) :
    fromScan (statusOf containment inspection) = true := by
  have alive (clock : Clock) (containment : Containment) (processes : List ProcessInfo)
      (root : ProcessInfo) (pgid sid : Nat) :
      fromScan (reportAlive clock containment processes root pgid sid).2.status = true := by
    simp only [reportAlive, Containment.report]
    split <;> rfl
  have gone (clock : Clock) (containment : Containment) (processes : List ProcessInfo)
      (pgid sid : Nat) :
      fromScan (reportGone clock containment processes pgid sid).status = true := by
    simp only [reportGone, Containment.report]
    split
    · rfl
    · split
      · rfl
      · split <;> rfl
  simp only [statusOf, containmentReportFromScan]
  split
  · rfl
  · split
    · rfl
    · split
      · rfl
      · split
        · split
          · split
            · rfl
            · exact alive _ _ _ _ _ _
          · exact gone _ _ _ _ _
        · rfl

/-! ## What scans show -/

/-- A process descends from the root, which the scan lists under its identity. -/
def BelowRoot (containment : Containment) (processes : List ProcessInfo)
    (process : ProcessInfo) : Prop :=
  ∃ root ∈ processes, root.pid = containment.rootPid ∧
    root.identity = containment.rootStartIdentity ∧
    Relation.TransGen (Edge (processes.map fun child => (child.ppid, child.pid)))
      root.pid process.pid

/-- A scan shows a process in the session of the root, or below the root outside of it. -/
def Attributable (containment : Containment) (processes : List ProcessInfo)
    (process : ProcessInfo) : Prop :=
  process ∈ processes ∧
    (some process.sid = containment.sessionId ∨ BelowRoot containment processes process)

/-- An earlier scan showed a process of the same identity. -/
def ShownBefore (containment : Containment) (earlier : List Inspection)
    (process : ProcessInfo) : Prop :=
  ∃ inspection ∈ earlier, ∃ shown, Attributable containment inspection.scan.processes shown ∧
    shown.pid = process.pid ∧ shown.identity = process.identity

/-- What a report that nothing is left is to mean after a history of scans. -/
structure NothingLeft (containment : Containment) (earlier : List Inspection)
    (scan : ProcessScan) : Prop where
  complete : scan.unreadablePids = []
  rootAbsent : ∀ process ∈ scan.processes, process.pid ≠ containment.rootPid
  noMember : ∀ process ∈ scan.processes, some process.pgid ≠ containment.processGroupId ∧
    some process.sid ≠ containment.sessionId
  noneShown : ∀ process ∈ scan.processes, ¬ ShownBefore containment earlier process

/-! ## Histories -/

/-- Inspections change the tables only. -/
structure SameRoot (containment next : Containment) : Prop where
  rootPid : next.rootPid = containment.rootPid
  processGroupId : next.processGroupId = containment.processGroupId
  sessionId : next.sessionId = containment.sessionId
  rootStartIdentity : next.rootStartIdentity = containment.rootStartIdentity

/-- The tables say nothing of the root. -/
theorem SameRoot.tables (containment : Containment) (known escaped : Members) :
    SameRoot containment
      { containment with knownMembers := known, escapedMembers := escaped } :=
  ⟨rfl, rfl, rfl, rfl⟩

/-- Containments of the same root have one root. -/
theorem SameRoot.trans {first second third : Containment} (one : SameRoot first second)
    (two : SameRoot second third) : SameRoot first third :=
  ⟨two.rootPid.trans one.rootPid, two.processGroupId.trans one.processGroupId,
    two.sessionId.trans one.sessionId, two.rootStartIdentity.trans one.rootStartIdentity⟩

/-- An inspection keeps the root. -/
theorem inspect_sameRoot (containment : Containment) (inspection : Inspection) :
    SameRoot containment (inspect containment inspection) := by
  simp only [inspect, containmentReportFromScan]
  split
  · exact ⟨rfl, rfl, rfl, rfl⟩
  · split
    · exact ⟨rfl, rfl, rfl, rfl⟩
    · split
      · exact ⟨rfl, rfl, rfl, rfl⟩
      · split
        · split
          · split
            · exact ⟨rfl, rfl, rfl, rfl⟩
            · exact ⟨rfl, rfl, rfl, rfl⟩
          · exact ⟨rfl, rfl, rfl, rfl⟩
        · exact ⟨rfl, rfl, rfl, rfl⟩

/-- Inspections keep the root. -/
theorem inspected_sameRoot (containment : Containment) (earlier : List Inspection) :
    SameRoot containment (inspected containment earlier) :=
  Transitions.run_preserves
    (fun next inspection same => same.trans (inspect_sameRoot next inspection))
    containment earlier ⟨rfl, rfl, rfl, rfl⟩

/-- A member of the session leaves it while the root is alive and is left behind: the report
says that nothing is left. -/
theorem member_left_session :
    ¬ ∀ (containment : Containment) (earlier : List Inspection) (inspection : Inspection),
      statusOf (inspected containment earlier) inspection = .posixBestEffortEmpty →
        NothingLeft containment earlier inspection.scan := by
  intro sound
  let root : ProcessInfo := ⟨10, 1, 10, 10, "5".toList⟩
  let member : ProcessInfo := ⟨11, 10, 10, 10, "7".toList⟩
  let left : ProcessInfo := ⟨11, 1, 11, 11, "7".toList⟩
  let containment : Containment :=
    ⟨10, some 10, some 10, "posix:10:5".toList, [(10, "posix:10:5".toList)], []⟩
  let first : Inspection := ⟨⟨0, 0⟩, ⟨[root, member], []⟩⟩
  let second : Inspection := ⟨⟨1, 0⟩, ⟨[left], []⟩⟩
  have empty : statusOf (inspected containment [first]) second = .posixBestEffortEmpty := by
    decide
  have shown : ShownBefore containment [first] left :=
    ⟨first, List.mem_singleton_self _, member,
      ⟨List.mem_cons_of_mem _ (List.mem_singleton_self _), Or.inl rfl⟩, rfl, rfl⟩
  exact (sound containment [first] second empty).noneShown left (List.mem_singleton_self _) shown

/-! ## What a scan leaves in the table of escapes -/

/-- The first entry for a process counts. -/
theorem get_cons (entry : Nat × List Char) (rest : Members) (pid : Nat) :
    Members.get (entry :: rest) pid = if entry.1 = pid then some entry.2 else rest.get pid := by
  by_cases same : entry.1 = pid <;> simp [Members.get, same]

/-- What is inserted is found, and all else stays. -/
theorem get_insert (members : Members) (pid other : Nat) (identity : List Char) :
    (members.insert pid identity).get other =
      if pid = other then some identity else members.get other := by
  induction members with
  | nil => rw [Members.insert, get_cons]
  | cons entry rest inductionHypothesis =>
    rw [Members.insert]
    by_cases before : pid < entry.1
    · rw [if_pos before, get_cons]
    · by_cases same : pid = entry.1
      · subst same
        rw [if_neg before, if_pos rfl, get_cons, get_cons]
        by_cases here : entry.1 = other <;> simp [here]
      · rw [if_neg before, if_neg same, get_cons, inductionHypothesis, get_cons]
        by_cases here : pid = other
        · subst here
          simp [Ne.symm same]
        · simp [here]

/-- What is found is an entry. -/
theorem mem_of_get {members : Members} {pid : Nat} {identity : List Char}
    (found : members.get pid = some identity) : (pid, identity) ∈ members := by
  induction members with
  | nil => cases found
  | cons entry rest inductionHypothesis =>
    rw [get_cons] at found
    split at found
    next same =>
      cases found
      subst same
      exact List.mem_cons_self
    next => exact List.mem_cons_of_mem _ (inductionHypothesis found)

/-- The processes of a scan that are remembered as escapes are found in the table, and the others
as before. -/
theorem get_rememberEscapes (processes : List ProcessInfo) (escaped : List Nat)
    (observed : Members) (pid : Nat) :
    (rememberEscapes processes escaped observed).get pid =
      match listed processes pid with
      | some process => if pid ∈ escaped then some process.identity else observed.get pid
      | none => observed.get pid := by
  induction escaped generalizing observed with
  | nil =>
    cases listed processes pid <;> simp [rememberEscapes]
  | cons first rest inductionHypothesis =>
    cases found : listed processes first with
    | none =>
      have skipped : rememberEscapes processes (first :: rest) observed =
          rememberEscapes processes rest observed := by
        simp only [rememberEscapes, List.foldl_cons, found]
      rw [skipped, inductionHypothesis]
      by_cases same : pid = first
      · simp [same, found]
      · simp [same]
    | some holder =>
      have added : rememberEscapes processes (first :: rest) observed =
          rememberEscapes processes rest (observed.insert first holder.identity) := by
        simp only [rememberEscapes, List.foldl_cons, found]
      rw [added, inductionHypothesis, get_insert]
      by_cases same : first = pid
      · subst same
        simp [found]
      · simp [same, Ne.symm same]

/-- An escape is kept, or the scan does not list its number. -/
theorem get_resolveEscapes (processes : List ProcessInfo) {escapes : Members} {pid : Nat}
    {identity : List Char} (observed : escapes.get pid = some identity) :
    (resolveEscapes processes escapes).1.get pid = some identity ∨ listed processes pid = none := by
  induction escapes with
  | nil => cases observed
  | cons escape rest inductionHypothesis =>
    obtain ⟨number, known⟩ := escape
    rw [get_cons] at observed
    rw [resolveEscapes]
    cases found : listed processes number with
    | none =>
      by_cases same : number = pid
      · exact Or.inr (same ▸ found)
      · rw [if_neg same] at observed
        exact inductionHypothesis observed
    | some process =>
      by_cases unchanged : process.identity = known
      · simp only [if_pos unchanged, get_cons]
        by_cases same : number = pid
        · rw [if_pos same] at observed
          exact Or.inl (by rw [if_pos same, observed])
        · rw [if_neg same] at observed ⊢
          exact inductionHypothesis observed
      · simp only [if_neg unchanged, get_cons]
        exact Or.inl observed

/-- Where no number of an escape belongs to another process, the scan lists a number of an escape
with its identity. -/
theorem identity_of_escape {processes : List ProcessInfo} {escapes : Members} {pid : Nat}
    {identity : List Char} {process : ProcessInfo}
    (noReuse : (resolveEscapes processes escapes).2 = false)
    (observed : escapes.get pid = some identity) (found : listed processes pid = some process) :
    process.identity = identity := by
  induction escapes with
  | nil => cases observed
  | cons escape rest inductionHypothesis =>
    obtain ⟨number, known⟩ := escape
    rw [get_cons] at observed
    rw [resolveEscapes] at noReuse
    by_cases same : number = pid
    · subst same
      rw [if_pos rfl, Option.some_inj] at observed
      by_cases unchanged : process.identity = known
      · exact unchanged.trans observed
      · simp only [found, if_neg unchanged] at noReuse
        cases noReuse
    · rw [if_neg same] at observed
      cases other : listed processes number with
      | none =>
        simp only [other] at noReuse
        exact inductionHypothesis noReuse observed
      | some holder =>
        by_cases unchanged : holder.identity = known
        · simp only [other, if_pos unchanged] at noReuse
          exact inductionHypothesis noReuse observed
        · simp only [other, if_neg unchanged] at noReuse
          cases noReuse

/-- A scan that puts what it shows into the tables: it is complete, no number of an escape
belongs to another process, and it lists the root with the recorded group and session. -/
structure Recording (containment : Containment) (scan : ProcessScan) (root : ProcessInfo) :
    Prop where
  complete : scan.unreadablePids = []
  noReuse : (resolveEscapes scan.processes containment.escapedMembers).2 = false
  listed : listed scan.processes containment.rootPid = some root
  verified : root.identity = containment.rootStartIdentity
  group : containment.processGroupId = some root.pgid
  session : containment.sessionId = some root.sid

/-- A scan that sees the root records it and what it shows. -/
theorem Recording.inspect_eq {containment : Containment} {inspection : Inspection}
    {root : ProcessInfo} (recording : Recording containment inspection.scan root) :
    inspect containment inspection =
      (reportAlive inspection.clock
        { containment with
          escapedMembers :=
            (resolveEscapes inspection.scan.processes containment.escapedMembers).1 }
        inspection.scan.processes root root.pgid root.sid).1 := by
  simp [inspect, containmentReportFromScan, recording.complete, recording.noReuse,
    recording.listed, recording.verified, recording.group, recording.session, Option.filter_some]

/-- The numbers that a recording scan puts into the table of escapes. -/
def escapedPids (processes : List ProcessInfo) (root : ProcessInfo) : List Nat :=
  let group := (processes.filter fun process =>
    process.pgid == root.pgid && process.sid == root.sid).map ProcessInfo.pid
  let session := (processes.filter fun process => process.sid == root.sid).map ProcessInfo.pid
  (descendants processes root.pid).filter fun pid => !group.contains pid && !session.contains pid

/-- The table of escapes after a scan: the scan is not complete, or the escapes are resolved and,
where the scan records, those that it shows are added. -/
theorem inspect_escapes (containment : Containment) (inspection : Inspection) :
    (inspection.scan.unreadablePids ≠ [] ∧
        (inspect containment inspection).escapedMembers = containment.escapedMembers) ∨
      inspection.scan.unreadablePids = [] ∧
        ((inspect containment inspection).escapedMembers =
            (resolveEscapes inspection.scan.processes containment.escapedMembers).1 ∨
          ∃ root, Recording containment inspection.scan root ∧
            (inspect containment inspection).escapedMembers =
              rememberEscapes inspection.scan.processes
                (escapedPids inspection.scan.processes root)
                (resolveEscapes inspection.scan.processes containment.escapedMembers).1) := by
  by_cases complete : inspection.scan.unreadablePids = []
  · refine Or.inr ⟨complete, ?_⟩
    by_cases recording : ∃ root, Recording containment inspection.scan root
    · obtain ⟨root, recording⟩ := recording
      exact Or.inr ⟨root, recording, by rw [recording.inspect_eq]; rfl⟩
    · refine Or.inl ?_
      simp only [inspect, containmentReportFromScan, complete, List.isEmpty_nil, Bool.not_true,
        Bool.false_eq_true, if_false]
      split
      · rfl
      · rename_i noReuse
        split
        · rfl
        · split
          · rename_i pgid sid group session
            split
            · rename_i root alive
              split
              · rfl
              · -- The scan would record.
                rename_i same
                obtain ⟨found, verified⟩ := Option.filter_eq_some_iff.mp alive
                simp only [Bool.or_eq_true, bne_iff_ne, not_or, ne_eq, not_not] at same
                exact absurd ⟨root, complete, by simpa using noReuse, found,
                  beq_iff_eq.mp verified, same.1 ▸ group, same.2 ▸ session⟩ recording
            · rfl
          · rfl
  · refine Or.inl ⟨complete, ?_⟩
    have unreadable : inspection.scan.unreadablePids.isEmpty = false := by
      simpa using complete
    simp [inspect, containmentReportFromScan, unreadable]

/-! ## Processes that are seen outside -/

/-- A scan shows a process below the root outside of the session. -/
structure Outside (containment : Containment) (processes : List ProcessInfo)
    (process : ProcessInfo) : Prop where
  inside : process ∈ processes
  below : BelowRoot containment processes process
  apart : some process.sid ≠ containment.sessionId

/-- A recording scan of the history showed the process below the root outside of the session. -/
def SeenOutside (containment : Containment) (earlier : List Inspection) (process : ProcessInfo) :
    Prop :=
  ∃ former inspection later root shown, earlier = former ++ inspection :: later ∧
    Recording (inspected containment former) inspection.scan root ∧
    Outside containment inspection.scan.processes shown ∧
    shown.pid = process.pid ∧ shown.identity = process.identity

/-- The process was seen outside, and then a complete scan did not list its number. -/
def Lapsed (containment : Containment) (earlier : List Inspection) (process : ProcessInfo) : Prop :=
  ∃ former inspection later, earlier = former ++ inspection :: later ∧
    SeenOutside containment former process ∧ inspection.scan.unreadablePids = [] ∧
    listed inspection.scan.processes process.pid = none

/-- An earlier scan showed the process in the session of the root. -/
def ShownInside (containment : Containment) (earlier : List Inspection) (process : ProcessInfo) :
    Prop :=
  ∃ inspection ∈ earlier, ∃ shown ∈ inspection.scan.processes,
    some shown.sid = containment.sessionId ∧ shown.pid = process.pid ∧
    shown.identity = process.identity

/-- A scan after a history lets no process out of sight: it lists a number once, it records what it
shows below the root outside of the session unless that was recorded before, a process that has
left the session and the group was seen outside, and no process comes back that was gone. -/
structure Traced (containment : Containment) (earlier : List Inspection)
    (inspection : Inspection) : Prop where
  distinct : (inspection.scan.processes.map ProcessInfo.pid).Nodup
  recorded : ∀ process, Outside containment inspection.scan.processes process →
    SeenOutside containment earlier process ∨
      ∃ root, Recording (inspected containment earlier) inspection.scan root
  left : ∀ process ∈ inspection.scan.processes, some process.pgid ≠ containment.processGroupId →
    some process.sid ≠ containment.sessionId → ShownInside containment earlier process →
      SeenOutside containment earlier process
  gone : ∀ process ∈ inspection.scan.processes, ¬ Lapsed containment earlier process

/-- What has lapsed stays lapsed. -/
theorem Lapsed.append {containment : Containment} {earlier : List Inspection}
    {process : ProcessInfo} (lapsed : Lapsed containment earlier process)
    (more : List Inspection) : Lapsed containment (earlier ++ more) process := by
  obtain ⟨former, inspection, later, rfl, seen⟩ := lapsed
  exact ⟨former, inspection, later ++ more, by simp, seen⟩

/-- A process was seen outside by the last scan or by an earlier one. -/
theorem seenOutside_snoc {containment : Containment} {earlier : List Inspection}
    {inspection : Inspection} {process : ProcessInfo}
    (seen : SeenOutside containment (earlier ++ [inspection]) process) :
    SeenOutside containment earlier process ∨
      ∃ root shown, Recording (inspected containment earlier) inspection.scan root ∧
        Outside containment inspection.scan.processes shown ∧ shown.pid = process.pid ∧
        shown.identity = process.identity := by
  obtain ⟨former, last, later, root, shown, same, recording, outside⟩ := seen
  rcases List.eq_nil_or_concat later with rfl | ⟨rest, final, rfl⟩
  · obtain ⟨rfl, only⟩ := List.append_inj' same rfl
    cases only
    exact Or.inr ⟨root, shown, recording, outside⟩
  · rw [List.concat_eq_append, ← List.cons_append, ← List.append_assoc] at same
    obtain ⟨rfl, _⟩ := List.append_inj' same rfl
    exact Or.inl ⟨former, last, rest, root, shown, rfl, recording, outside⟩

/-- A process is listed where no other has its id. -/
theorem listed_of_mem {processes : List ProcessInfo} {process : ProcessInfo}
    (distinct : (processes.map ProcessInfo.pid).Nodup) (inside : process ∈ processes) :
    listed processes process.pid = some process := by
  cases found : listed processes process.pid with
  | none => exact absurd rfl (listed_eq_none.mp found process inside)
  | some other =>
    have same := List.inj_on_of_nodup_map distinct (List.mem_of_find?_eq_some found) inside
      (pid_of_listed found)
    rw [same]

/-- A process outside is among those that a recording scan puts into the table. -/
theorem Outside.escapes {containment : Containment} {processes : List ProcessInfo}
    {process root : ProcessInfo} (outside : Outside containment processes process)
    (distinct : (processes.map ProcessInfo.pid).Nodup) (number : root.pid = containment.rootPid)
    (session : containment.sessionId = some root.sid) :
    process.pid ∈ escapedPids processes root := by
  have absent (choice : ProcessInfo → Bool)
      (within : ∀ other, choice other = true → other.sid = root.sid) :
      ((processes.filter choice).map ProcessInfo.pid).contains process.pid = false := by
    rw [List.contains_eq_mem, decide_eq_false_iff_not, List.mem_map]
    rintro ⟨other, listed, same⟩
    obtain ⟨inside, chosen⟩ := List.mem_filter.mp listed
    have equal := List.inj_on_of_nodup_map distinct inside outside.inside same
    exact outside.apart (session ▸ congrArg some (equal ▸ within other chosen))
  refine List.mem_filter.mpr ⟨?_, ?_⟩
  · obtain ⟨first, _, rooted, _, path⟩ := outside.below
    rw [descendants, mem_closure_reaches, number, ← rooted]
    exact path.to_reflTransGen
  · rw [absent (fun other => other.pgid == root.pgid && other.sid == root.sid) (by simp),
      absent (fun other => other.sid == root.sid) (by simp)]
    rfl

/-! ## Histories that let no process out of sight -/

/-- Every process that was seen outside is in the table of escapes or gone. -/
def Held (containment : Containment) (earlier : List Inspection) : Prop :=
  ∀ process, SeenOutside containment earlier process →
    (inspected containment earlier).escapedMembers.get process.pid = some process.identity ∨
      Lapsed containment earlier process

/-- The last inspection comes last. -/
theorem inspected_snoc (containment : Containment) (earlier : List Inspection)
    (inspection : Inspection) :
    inspected containment (earlier ++ [inspection]) =
      inspect (inspected containment earlier) inspection := by
  rw [inspected, Transitions.run_append]
  rfl

/-- An escape stays in the table, or the scan is complete and does not list its number. -/
theorem escape_kept {containment : Containment} (inspection : Inspection) {pid : Nat}
    {identity : List Char} (observed : containment.escapedMembers.get pid = some identity) :
    (inspect containment inspection).escapedMembers.get pid = some identity ∨
      inspection.scan.unreadablePids = [] ∧ listed inspection.scan.processes pid = none := by
  rcases inspect_escapes containment inspection with ⟨_, same⟩ | ⟨complete, resolved | recorded⟩
  · exact Or.inl (same ▸ observed)
  · rw [resolved]
    exact (get_resolveEscapes _ observed).imp_right fun absent => ⟨complete, absent⟩
  · obtain ⟨root, recording, table⟩ := recorded
    rcases get_resolveEscapes inspection.scan.processes observed with kept | absent
    · rw [table, get_rememberEscapes]
      cases found : listed inspection.scan.processes pid with
      | none => exact Or.inl kept
      | some process =>
        have same := identity_of_escape recording.noReuse observed found
        by_cases inside : pid ∈ escapedPids inspection.scan.processes root
        · simp [inside, same]
        · simp [inside, kept]
    · exact Or.inr ⟨complete, absent⟩

/-- One traced inspection keeps what is held. -/
theorem Held.step {containment : Containment} {earlier : List Inspection}
    {inspection : Inspection} (held : Held containment earlier)
    (traced : Traced containment earlier inspection) :
    Held containment (earlier ++ [inspection]) := by
  have same := inspected_sameRoot containment earlier
  intro process seen
  rw [inspected_snoc]
  rcases seenOutside_snoc seen with before | ⟨root, shown, recording, outside, number, identity⟩
  · rcases held process before with observed | lapsed
    · rcases escape_kept inspection observed with kept | ⟨complete, absent⟩
      · exact Or.inl kept
      · exact Or.inr ⟨earlier, inspection, [], rfl, before, complete, absent⟩
    · exact Or.inr (lapsed.append [inspection])
  · have rooted : root.pid = containment.rootPid :=
      (pid_of_listed recording.listed).trans same.rootPid
    have escapes := outside.escapes traced.distinct rooted
      (same.sessionId.symm.trans recording.session)
    refine Or.inl ?_
    rw [recording.inspect_eq]
    change (rememberEscapes _ (escapedPids _ root) _).get process.pid = _
    rw [get_rememberEscapes, ← number, listed_of_mem traced.distinct outside.inside]
    simp [escapes, identity]

/-- Add a scan to a history. -/
def addScan (earlier : List Inspection) (inspection : Inspection) : List Inspection :=
  earlier ++ [inspection]

/-- A run adds its inspections to the earlier ones. -/
theorem run_addScan (earlier history : List Inspection) :
    Transitions.run addScan earlier history = earlier ++ history := by
  induction history generalizing earlier with
  | nil => simp
  | cons inspection rest inductionHypothesis =>
    rw [Transitions.run_cons, inductionHypothesis, addScan, List.append_assoc]
    rfl

/-- A process outside of the session that an earlier scan showed was seen outside. -/
theorem Traced.seen {containment : Containment} {earlier : List Inspection}
    {inspection : Inspection}
    (all : Transitions.Along addScan (Traced containment) [] earlier)
    (traced : Traced containment earlier inspection) {process : ProcessInfo}
    (inside : process ∈ inspection.scan.processes)
    (group : some process.pgid ≠ containment.processGroupId)
    (session : some process.sid ≠ containment.sessionId)
    (before : ShownBefore containment earlier process) :
    SeenOutside containment earlier process := by
  obtain ⟨passed, member, shown, ⟨listed, shows⟩, number, identity⟩ := before
  by_cases within : some shown.sid = containment.sessionId
  · exact traced.left process inside group session
      ⟨passed, member, shown, listed, within, number, identity⟩
  · have outside : Outside containment passed.scan.processes shown :=
      ⟨listed, shows.resolve_left within, within⟩
    obtain ⟨former, later, rfl⟩ := List.append_of_mem member
    obtain ⟨now, _⟩ := (Transitions.along_append all).2
    rw [run_addScan, List.nil_append] at now
    rcases now.recorded shown outside with seen | ⟨root, recording⟩
    · obtain ⟨first, scan, rest, root, other, rfl, recording, outside, same, equal⟩ := seen
      exact ⟨first, scan, rest ++ passed :: later, root, other, by simp, recording, outside,
        same.trans number, equal.trans identity⟩
    · exact ⟨former, passed, later, root, shown, rfl, recording, outside, number, identity⟩

/-- Where no scan of a history lets a process out of sight, every report that nothing is left means
so. -/
theorem empty_reports_sound (containment : Containment) {history : List Inspection}
    (traced : Transitions.Along addScan (Traced containment) [] history)
    {earlier later : List Inspection} {inspection : Inspection}
    (reported : history = earlier ++ inspection :: later)
    (empty : statusOf (inspected containment earlier) inspection = .posixBestEffortEmpty) :
    NothingLeft containment earlier inspection.scan := by
  subst reported
  obtain ⟨all, now, _⟩ := Transitions.along_append traced
  rw [run_addScan, List.nil_append] at now
  have held : Held containment earlier := by
    have kept := @Transitions.run_preserves_along _ _ addScan (Traced containment)
      (Held containment) (fun _ _ held traced => held.step traced) [] earlier
      (fun process seen => by
        obtain ⟨former, _, _, _, _, none, _⟩ := seen
        exact absurd none (by simp)) all
    rwa [run_addScan, List.nil_append] at kept
  have same := inspected_sameRoot containment earlier
  obtain ⟨complete, _, _, none⟩ := statusOf_eq_empty.mp empty
  have noMember : ∀ process ∈ inspection.scan.processes,
      some process.pgid ≠ containment.processGroupId ∧
        some process.sid ≠ containment.sessionId := by
    intro process inside
    refine ⟨fun member => none process inside (Or.inr (Or.inl ?_)),
      fun member => none process inside (Or.inr (Or.inr (Or.inl ?_)))⟩
    · exact member.trans same.processGroupId.symm
    · exact member.trans same.sessionId.symm
  refine ⟨complete, ?_, noMember, ?_⟩
  · intro process inside root
    exact none process inside (Or.inl (root.trans same.rootPid.symm))
  · intro process inside before
    obtain ⟨group, session⟩ := noMember process inside
    rcases held process (now.seen all inside group session before) with observed | lapsed
    · -- An escape in the table is accounted for.
      refine none process inside (Or.inr (Or.inr (Or.inr ⟨(process.pid, process.identity), ?_, rfl⟩)))
      exact mem_of_get observed
    · exact now.gone process inside lapsed

/-- The containment of a root that has just started. -/
def rootedAtTen : Containment :=
  ⟨10, some 10, some 10, "posix:10:5".toList, [(10, "posix:10:5".toList)], []⟩

/-- The root has a child in its session and a grandchild that has left it. -/
def familyScan : Inspection :=
  ⟨⟨0, 0⟩, ⟨[⟨10, 1, 10, 10, "5".toList⟩, ⟨11, 10, 10, 10, "7".toList⟩,
    ⟨12, 11, 12, 12, "8".toList⟩], []⟩⟩

/-- Only the grandchild is left. -/
def grandchildScan : Inspection := ⟨⟨1, 0⟩, ⟨[⟨12, 1, 12, 12, "8".toList⟩], []⟩⟩

/-- An inspection that sees no process. -/
def emptyScan : Inspection := ⟨⟨2, 0⟩, ⟨[], []⟩⟩

/-- The grandchild is an escape until it is gone, and then nothing is left. -/
theorem empty_reports_sound_family :
    statusOf (inspected rootedAtTen [familyScan]) grandchildScan = .posixEscapeObserved ∧
      statusOf (inspected rootedAtTen [familyScan, grandchildScan]) emptyScan =
        .posixBestEffortEmpty ∧
      NothingLeft rootedAtTen [familyScan, grandchildScan] emptyScan.scan := by
  have first : Traced rootedAtTen [] familyScan :=
    { distinct := by decide
      recorded := fun _ _ => Or.inr ⟨_, rfl, by decide, rfl, rfl, rfl, rfl⟩
      left := by
        rintro _ _ _ _ ⟨_, none, _⟩
        cases none
      gone := by
        rintro _ _ ⟨_, _, _, none, _⟩
        exact absurd none (by simp) }
  have second : Traced rootedAtTen [familyScan] grandchildScan :=
    { distinct := by decide
      recorded := by
        rintro process ⟨_, ⟨root, inside, number, _⟩, _⟩
        rw [List.mem_singleton.mp inside] at number
        cases number
      left := by
        rintro process inside _ _ ⟨inspection, passed, shown, listed, session, number, _⟩
        rw [List.mem_singleton.mp inside] at number
        rw [List.mem_singleton.mp passed] at listed
        have apart : ∀ other ∈ familyScan.scan.processes,
            some other.sid = rootedAtTen.sessionId → other.pid ≠ 12 := by
          decide
        exact absurd number (apart shown listed session)
      gone := by
        rintro process _ ⟨former, passed, later, same, seen, _⟩
        cases former with
        | nil =>
          obtain ⟨former, _, _, _, _, none, _⟩ := seen
          exact absurd none (by simp)
        | cons scan scans => exact absurd (List.cons.inj same).2 (by simp) }
  have third : Traced rootedAtTen [familyScan, grandchildScan] emptyScan :=
    { distinct := by decide
      recorded := fun _ outside => absurd outside.inside (by simp [emptyScan])
      left := fun _ none => absurd none (by simp [emptyScan])
      gone := fun _ none => absurd none (by simp [emptyScan]) }
  refine ⟨by decide, by decide, ?_⟩
  have traced : Transitions.Along addScan (Traced rootedAtTen) []
      [familyScan, grandchildScan, emptyScan] := ⟨first, second, third, trivial⟩
  exact empty_reports_sound rootedAtTen traced rfl (by decide)

end OpencodePty.ContainmentHistories
