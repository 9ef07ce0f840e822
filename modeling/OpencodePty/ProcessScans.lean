import OpencodePty.Timestamps
import OpencodePty.Transitions
import OpencodePty.Worklists

/-!
# Containment reports from process scans

On Linux the worker knows the processes of its child only from scans of `/proc`. While the
root process is alive it remembers which processes were in the session of the root, and
which descendants of the root had left that session. After the root has gone, a report may
say that nothing is left.

A report is computed from one complete scan and the two tables; a scan can also fail, which
gives a report of its own. The tables are ordered maps from process numbers to identities.
-/

namespace OpencodePty.ProcessScans

open OpencodePty.TextEncodings OpencodePty.Timestamps OpencodePty.Worklists

/-- A process as `/proc` lists it. -/
structure ProcessInfo where
  pid : Nat
  ppid : Nat
  pgid : Nat
  sid : Nat
  startTime : List Char
  deriving DecidableEq

structure ProcessScan where
  processes : List ProcessInfo
  unreadablePids : List Nat

/-- `format!("posix:{}:{}", self.pid, self.start_time)` -/
def ProcessInfo.identity (process : ProcessInfo) : List Char :=
  "posix:".toList ++ Nat.toDigits 10 process.pid ++ ':' :: process.startTime

/-- A map from process numbers to identities, in the order of the numbers. -/
abbrev Members := List (Nat × List Char)

/-- `insert` of an ordered map. -/
def Members.insert (pid : Nat) (identity : List Char) : Members → Members
  | [] => [(pid, identity)]
  | entry :: rest =>
    if pid < entry.1 then (pid, identity) :: entry :: rest
    else if pid = entry.1 then (pid, identity) :: rest
    else entry :: Members.insert pid identity rest

/-- `get` of an ordered map. -/
def Members.get (members : Members) (pid : Nat) : Option (List Char) :=
  (members.find? fun entry => entry.1 == pid).map Prod.snd

structure Containment where
  rootPid : Nat
  processGroupId : Option Nat
  sessionId : Option Nat
  rootStartIdentity : List Char
  knownMembers : Members
  escapedMembers : Members

inductive ContainmentPlatform where
  | linuxProc
  | posixVerificationUnavailable
  | windowsJob
  | notApplicable
  deriving DecidableEq

inductive ContainmentStatus where
  | posixContainmentUnknown
  | posixEscapeObserved
  | posixProcessesRemaining
  | posixBestEffortEmpty
  | windowsJobEmpty
  | windowsJobProcessesRemaining
  | windowsJobUnknown
  | notApplicable
  deriving DecidableEq

structure ContainmentReport where
  platform : ContainmentPlatform
  status : ContainmentStatus
  rootPid : Nat
  processGroupId : Option Nat
  sessionId : Option Nat
  rootStartIdentity : List Char
  rootIdentityVerified : Bool
  observedGroupPids : List Nat
  observedSessionPids : List Nat
  observedEscapedDescendantPids : List Nat
  observedEscapedDescendants : Members
  verifiedAt : List Char

/-- The closure `report` of `containment_report_from_scan`. -/
def Containment.report (containment : Containment) (clock : Clock) (status : ContainmentStatus)
    (rootIdentityVerified : Bool) (group session escaped : List Nat) : ContainmentReport where
  platform := .linuxProc
  status := status
  rootPid := containment.rootPid
  processGroupId := containment.processGroupId
  sessionId := containment.sessionId
  rootStartIdentity := containment.rootStartIdentity
  rootIdentityVerified := rootIdentityVerified
  observedGroupPids := group
  observedSessionPids := session
  observedEscapedDescendantPids := escaped
  observedEscapedDescendants := containment.escapedMembers
  verifiedAt := now clock

/-- The report that nothing is known but the escapes that were observed before. -/
def Containment.unknown (containment : Containment) (clock : Clock) : ContainmentReport :=
  containment.report clock .posixContainmentUnknown false [] []
    (containment.escapedMembers.map Prod.fst)

/-- The first process with a number. -/
def listed (processes : List ProcessInfo) (pid : Nat) : Option ProcessInfo :=
  processes.find? fun process => process.pid == pid

/-- Drop the escapes that a complete scan does not list, up to one whose number belongs to
another process by now; the second result says whether there is one. -/
def resolveEscapes (processes : List ProcessInfo) : Members → Members × Bool
  | [] => ([], false)
  | (pid, identity) :: rest =>
    match listed processes pid with
    | some process =>
      if process.identity = identity then
        let (kept, reused) := resolveEscapes processes rest
        ((pid, identity) :: kept, reused)
      else ((pid, identity) :: rest, true)
    | none => resolveEscapes processes rest

/-- The processes that descend from the root over their parents, the root among them. -/
def descendants (processes : List ProcessInfo) (root : Nat) : List Nat :=
  closure (processes.map fun process => (process.ppid, process.pid)) root

/-- The table has a process with the one number for its parent and the other for its own. -/
def ParentLink (processes : List ProcessInfo) (parent child : Nat) : Prop :=
  ∃ process ∈ processes, process.ppid = parent ∧ process.pid = child

/-- One turn of the loop over `descendants` and `index`. -/
def descendantsTurn (processes : List ProcessInfo) (state : Nat × List Nat) :
    Option (Nat × List Nat) :=
  let (index, descendants) := state
  descendants[index]?.map fun parent =>
    let children := (processes.filter fun process =>
      process.ppid == parent && !descendants.contains process.pid).map ProcessInfo.pid
    (index + 1, descendants ++ children)

theorem edge_parentLink (processes : List ProcessInfo) :
    Edge (processes.map fun process => (process.ppid, process.pid)) = ParentLink processes := by
  funext parent child
  simp only [Edge, ParentLink, List.mem_map, Prod.mk.injEq]

theorem descendantsTurn_eq (processes : List ProcessInfo) :
    descendantsTurn processes = turn (processes.map fun process => (process.ppid, process.pid)) := by
  funext state
  simp only [descendantsTurn, turn, fresh, List.filter_map, List.map_map, Function.comp_def]

/-- The loop ends for every table and every root, with the numbers that can be reached from
the root over the parents. -/
theorem descendants_complete (processes : List ProcessInfo) (root : Nat) :
    (WellFounded fun after state => descendantsTurn processes state = some after) ∧
      (∀ final,
        (Relation.ReflTransGen (fun state after => descendantsTurn processes state = some after)
            (0, [root]) final ∧ descendantsTurn processes final = none) ↔
          final = ((descendants processes root).length, descendants processes root)) ∧
      ∀ pid, pid ∈ descendants processes root ↔
        Relation.ReflTransGen (ParentLink processes) root pid := by
  refine ⟨?_, ?_, ?_⟩
  · rw [descendantsTurn_eq]
    exact turns_terminate _
  · intro final
    rw [descendantsTurn_eq]
    exact turns_end_iff
  · intro pid
    rw [← edge_parentLink]
    exact mem_closure_reaches

/-- Remember the processes of a session. -/
def rememberMembers (processes : List ProcessInfo) (sid : Nat) (known : Members) : Members :=
  (processes.filter fun process => process.sid == sid).foldl
    (fun members process => members.insert process.pid process.identity) known

/-- Remember the processes with one of the numbers, where the scan lists them. -/
def rememberEscapes (processes : List ProcessInfo) (escaped : List Nat) (observed : Members) :
    Members :=
  escaped.foldl
    (fun members pid =>
      match listed processes pid with
      | some process => members.insert pid process.identity
      | none => members)
    observed

/-- The report while the root is alive. -/
def reportAlive (clock : Clock) (containment : Containment) (processes : List ProcessInfo)
    (root : ProcessInfo) (pgid sid : Nat) : Containment × ContainmentReport :=
  let group := (processes.filter fun process => process.pgid == pgid && process.sid == sid).map
    ProcessInfo.pid
  let session := (processes.filter fun process => process.sid == sid).map ProcessInfo.pid
  let escaped := (descendants processes root.pid).filter fun pid =>
    !group.contains pid && !session.contains pid
  let next :=
    { containment with
      knownMembers := rememberMembers processes sid containment.knownMembers
      escapedMembers := rememberEscapes processes escaped containment.escapedMembers }
  let observed := next.escapedMembers.map Prod.fst
  (next, next.report clock
    (if observed.isEmpty then .posixProcessesRemaining else .posixEscapeObserved)
    true group session observed)

/-- The report after the root has gone. -/
def reportGone (clock : Clock) (containment : Containment) (processes : List ProcessInfo)
    (pgid sid : Nat) : ContainmentReport :=
  let candidates := processes.filter fun process => process.pgid == pgid || process.sid == sid
  let verified := candidates.filter fun process =>
    containment.knownMembers.get process.pid == some process.identity
  let group := (verified.filter fun process => process.pgid == pgid).map ProcessInfo.pid
  let session := verified.map ProcessInfo.pid
  let escaped := containment.escapedMembers.map Prod.fst
  let status : ContainmentStatus :=
    if candidates.length ≠ verified.length then .posixContainmentUnknown
    else if !escaped.isEmpty then .posixEscapeObserved
    else if group.isEmpty && session.isEmpty then .posixBestEffortEmpty
    else .posixProcessesRemaining
  containment.report clock status false group session escaped

/-- `containment_report_from_scan`, with the tables after it. -/
def containmentReportFromScan (clock : Clock) (containment : Containment) (scan : ProcessScan) :
    Containment × ContainmentReport :=
  -- Every number in `/proc` may be a new member until it is identified.
  if !scan.unreadablePids.isEmpty then (containment, containment.unknown clock)
  else
    let (escapes, reusedEscape) := resolveEscapes scan.processes containment.escapedMembers
    let resolved := { containment with escapedMembers := escapes }
    if reusedEscape then (resolved, resolved.unknown clock)
    else
      let rootPid := listed scan.processes containment.rootPid
      let root := rootPid.filter fun process => process.identity == containment.rootStartIdentity
      if rootPid.isSome && root.isNone then (resolved, resolved.unknown clock)
      else
        match containment.processGroupId, containment.sessionId with
        | some pgid, some sid =>
          match root with
          | some root =>
            if root.pgid != pgid || root.sid != sid then (resolved, resolved.unknown clock)
            else reportAlive clock resolved scan.processes root pgid sid
          | none => (resolved, reportGone clock resolved scan.processes pgid sid)
        | _, _ => (resolved, resolved.report clock .posixContainmentUnknown false [] [] [])

/-- A scan and the time of its report. -/
structure Inspection where
  clock : Clock
  scan : ProcessScan

/-- The tables after an inspection. -/
def inspect (containment : Containment) (inspection : Inspection) : Containment :=
  (containmentReportFromScan inspection.clock containment inspection.scan).1

/-- The tables after inspections in order. -/
def inspected (containment : Containment) (earlier : List Inspection) : Containment :=
  Transitions.run inspect containment earlier

/-- The status of the report of an inspection. -/
def statusOf (containment : Containment) (inspection : Inspection) : ContainmentStatus :=
  (containmentReportFromScan inspection.clock containment inspection.scan).2.status

end OpencodePty.ProcessScans
