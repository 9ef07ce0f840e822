import Mathlib.Data.List.Nodup
import Mathlib.Logic.Function.Basic
import OpencodePty.Transitions

/-!
# Idempotent spawns

A spawn with an idempotency key returns the active session of the same owner, directory and
key if there is one, and creates one otherwise. The call looks for that session, then waits
until expired sessions are pruned, and only then enters its own record into the map; other
calls can run between the two.

All calls here have the same options, whose directories are already canonical, and any number
of them run at the same time. Of the other operations of the daemon only those are part of the
model that end a session after its start.
-/

namespace OpencodePty.IdempotentSpawns

open OpencodePty.Transitions

abbrev SessionId := Nat

inductive Status where
  | starting
  | running
  | stopping
  | exited
  | timedOut
  | lost
  | spawnFailed
  | outputLimited
  deriving DecidableEq

/-- `isActiveDaemonStatus` -/
def Status.active : Status → Bool
  | starting | running | stopping => true
  | _ => false

inductive Mode where
  | pty
  | exec
  deriving DecidableEq

inductive EnvironmentKind where
  | safe
  | inherit
  deriving DecidableEq

/-- What an idempotent spawn must repeat exactly. -/
structure Specification where
  command : String
  args : List String
  environmentKind : EnvironmentKind
  fingerprint : String
  name : Option String
  timeoutSeconds : Option Nat
  deriving DecidableEq

structure SpawnOptions where
  parentSessionId : String
  ownerProjectDirectory : String
  ownerCapabilityHash : String
  workdir : String
  idempotencyKey : Option String
  specification : Specification
  deriving DecidableEq

/-- The part of a record that a spawn looks at. -/
structure Record where
  id : SessionId
  mode : Mode
  status : Status
  pendingCleanup : Bool
  legacyTombstone : Bool
  options : SpawnOptions

/-- The key of a record is asked for by the same owner, for the same directory. -/
def sameKey (options : SpawnOptions) (record : Record) : Bool :=
  record.mode = .pty && record.options.parentSessionId = options.parentSessionId &&
    record.options.ownerProjectDirectory = options.ownerProjectDirectory &&
    record.options.ownerCapabilityHash = options.ownerCapabilityHash &&
    record.options.workdir = options.workdir &&
    record.options.idempotencyKey = options.idempotencyKey

/-- The session of a key: it is active and not to be cleaned up. -/
def claimed (options : SpawnOptions) (record : Record) : Bool :=
  record.status.active && !record.pendingCleanup && sameKey options record

/-- `idempotentSession`: the error says that the specification is another one. -/
def idempotentSession (options : SpawnOptions) (records : List Record) :
    Except Unit (Option Record) :=
  match options.idempotencyKey with
  | none | some "" => .ok none
  | some _ =>
    match records.find? fun record => claimed options record && !record.legacyTombstone with
    | none => .ok none
    | some existing =>
      if existing.options.specification = options.specification then .ok (some existing)
      else .error ()

/-- How far a call of `spawn` is. -/
inductive Stage where
  | idle
  /-- It waits for the flush. -/
  | flushing
  /-- It found no session and waits until expired ones are pruned. -/
  | pruning
  /-- Its record is in the map, and its worker is started. -/
  | starting (id : SessionId)
  | returned (id : SessionId)
  | failed
  deriving DecidableEq

/-- The map of records and the calls. -/
structure Daemon where
  records : List Record
  calls : Nat → Stage

inductive Action where
  | call (caller : Nat)
  /-- The flush, the validation, the pruning or the reservation fails. -/
  | reject (caller : Nat)
  /-- The flush returned: the call looks for the session of its key. -/
  | check (caller : Nat)
  /-- The pruning returned: the call enters its record, under a random id. -/
  | insert (caller : Nat) (id : SessionId)
  /-- The first write of the record fails, and the record is removed. -/
  | unsaved (caller : Nat)
  | started (caller : Nat)
  /-- The worker does not start, and the session is lost or known to have no child. -/
  | unstarted (caller : Nat) (noChild : Bool)
  /-- Another operation moves a session that was started. -/
  | move (id : SessionId) (status : Status) (cleanup : Bool)
  /-- A session that has ended or is to be cleaned up is deleted. -/
  | delete (id : SessionId)
  deriving DecidableEq

namespace Daemon

variable (options : SpawnOptions)

def goto (daemon : Daemon) (caller : Nat) (stage : Stage) : Daemon :=
  { daemon with calls := Function.update daemon.calls caller stage }

/-- The record with the given id is changed. -/
def modify (daemon : Daemon) (id : SessionId) (change : Record → Record) : Daemon :=
  { daemon with
    records := daemon.records.map fun record => if record.id = id then change record else record }

/-- The record that a call enters. -/
def newRecord (id : SessionId) : Record where
  id := id
  mode := .pty
  status := .starting
  pendingCleanup := false
  legacyTombstone := false
  options := options

/-- A session that was started goes on or ends; one that ended does not go on. -/
def moved (status : Status) (cleanup : Bool) (record : Record) : Record :=
  if record.status ≠ .starting ∧ status ≠ .starting ∧ (status.active → record.status.active) then
    { record with status := status, pendingCleanup := record.pendingCleanup || cleanup }
  else record

/-- An action that cannot be taken now changes nothing. -/
def step (daemon : Daemon) : Action → Daemon
  | .call caller =>
    if daemon.calls caller = .idle then daemon.goto caller .flushing else daemon
  | .reject caller =>
    if daemon.calls caller = .flushing ∨ daemon.calls caller = .pruning then
      daemon.goto caller .failed
    else daemon
  | .check caller =>
    if daemon.calls caller = .flushing then
      match idempotentSession options daemon.records with
      | .error _ => daemon.goto caller .failed
      | .ok (some existing) => daemon.goto caller (.returned existing.id)
      | .ok none => daemon.goto caller .pruning
    else daemon
  | .insert caller id =>
    if daemon.calls caller = .pruning ∧ ∀ record ∈ daemon.records, record.id ≠ id then
      { daemon with records := daemon.records ++ [newRecord options id] }.goto caller (.starting id)
    else daemon
  | .unsaved caller =>
    match daemon.calls caller with
    | .starting id =>
      { daemon with records := daemon.records.filter (·.id ≠ id) }.goto caller .failed
    | _ => daemon
  | .started caller =>
    match daemon.calls caller with
    | .starting id =>
      (daemon.modify id fun record => { record with status := .running }).goto caller (.returned id)
    | _ => daemon
  | .unstarted caller noChild =>
    match daemon.calls caller with
    | .starting id =>
      (daemon.modify id fun record =>
        { record with status := if noChild then .spawnFailed else .lost }).goto caller .failed
    | _ => daemon
  | .move id status cleanup => daemon.modify id (moved status cleanup)
  | .delete id =>
    { daemon with
      records := daemon.records.filter fun record =>
        record.id ≠ id || record.status.active && !record.pendingCleanup }

end Daemon

/-- No call is running, ids are distinct, what has a tombstone is to be cleaned up, and the key
has at most one session. -/
structure Initial (options : SpawnOptions) (daemon : Daemon) : Prop where
  idle : ∀ caller, daemon.calls caller = .idle
  distinct : (daemon.records.map Record.id).Nodup
  buried : ∀ record ∈ daemon.records, record.legacyTombstone = true → record.pendingCleanup = true
  single : ∀ first ∈ daemon.records, ∀ second ∈ daemon.records,
    claimed options first = true → claimed options second = true → first.id = second.id

/-- A call that finds no session does so while no other call is between its check and its
insertion. -/
def Alone (options : SpawnOptions) (daemon : Daemon) : Action → Prop
  | .check caller =>
    daemon.calls caller = .flushing → idempotentSession options daemon.records = .ok none →
      ∀ other, daemon.calls other ≠ .pruning
  | _ => True

/-! ## One session for a key -/

/-- There is at most one session of the key, or one call that is about to enter one. -/
structure Exclusive (options : SpawnOptions) (daemon : Daemon) : Prop where
  distinct : (daemon.records.map Record.id).Nodup
  buried : ∀ record ∈ daemon.records, record.legacyTombstone = true → record.pendingCleanup = true
  single : ∀ first ∈ daemon.records, ∀ second ∈ daemon.records,
    claimed options first = true → claimed options second = true → first.id = second.id
  alone : ∀ first second, daemon.calls first = .pruning → daemon.calls second = .pruning →
    first = second
  free : ∀ caller, daemon.calls caller = .pruning → ∀ record ∈ daemon.records,
    claimed options record = false
  own : ∀ caller id, daemon.calls caller = .starting id → ∃ record ∈ daemon.records,
    record.id = id ∧ claimed options record = true ∧ record.status = .starting
  owner : ∀ first second id, daemon.calls first = .starting id →
    daemon.calls second = .starting id → first = second

variable {options : SpawnOptions} {daemon : Daemon}

theorem Initial.exclusive (initial : Initial options daemon) : Exclusive options daemon where
  distinct := initial.distinct
  buried := initial.buried
  single := initial.single
  alone := by
    intro first second pruning
    rw [initial.idle first] at pruning
    cases pruning
  free := by
    intro caller pruning
    rw [initial.idle caller] at pruning
    cases pruning
  own := by
    intro caller id starting
    rw [initial.idle caller] at starting
    cases starting
  owner := by
    intro first second id starting
    rw [initial.idle first] at starting
    cases starting

/-- The stage of the other calls is not changed. -/
theorem goto_calls {caller other : Nat} {stage now : Stage}
    (reached : (daemon.goto caller stage).calls other = now) :
    other = caller ∧ now = stage ∨ other ≠ caller ∧ daemon.calls other = now := by
  by_cases same : other = caller
  · subst same
    exact .inl ⟨rfl, by simpa [Daemon.goto] using reached.symm⟩
  · exact .inr ⟨same, by simpa [Daemon.goto, same] using reached⟩

/-- A call goes on without being about to enter a record or having entered one. -/
theorem Exclusive.goto (exclusive : Exclusive options daemon) (caller : Nat) {stage : Stage}
    (unchecked : stage ≠ .pruning) (unentered : ∀ id, stage ≠ .starting id) :
    Exclusive options (daemon.goto caller stage) where
  distinct := exclusive.distinct
  buried := exclusive.buried
  single := exclusive.single
  alone := by
    intro first second one two
    obtain ⟨_, same⟩ | ⟨_, one⟩ := goto_calls one
    · exact absurd same.symm unchecked
    obtain ⟨_, same⟩ | ⟨_, two⟩ := goto_calls two
    · exact absurd same.symm unchecked
    exact exclusive.alone first second one two
  free := by
    intro other pruning
    obtain ⟨_, same⟩ | ⟨_, pruning⟩ := goto_calls pruning
    · exact absurd same.symm unchecked
    exact exclusive.free other pruning
  own := by
    intro other id starting
    obtain ⟨_, same⟩ | ⟨_, starting⟩ := goto_calls starting
    · exact absurd same.symm (unentered id)
    exact exclusive.own other id starting
  owner := by
    intro first second id one two
    obtain ⟨_, same⟩ | ⟨_, one⟩ := goto_calls one
    · exact absurd same.symm (unentered id)
    obtain ⟨_, same⟩ | ⟨_, two⟩ := goto_calls two
    · exact absurd same.symm (unentered id)
    exact exclusive.owner first second id one two

/-- Records are changed without a new session of the key, and those that calls have entered are
kept. -/
theorem Exclusive.shrink (exclusive : Exclusive options daemon) {records : List Record}
    (distinct : (records.map Record.id).Nodup)
    (before : ∀ record ∈ records, ∃ former ∈ daemon.records, former.id = record.id ∧
      (claimed options record = true → claimed options former = true) ∧
      (record.legacyTombstone = true → record.pendingCleanup = true))
    (kept : ∀ caller id, daemon.calls caller = .starting id → ∀ former ∈ daemon.records,
      former.id = id → claimed options former = true → former.status = .starting →
      former ∈ records) :
    Exclusive options { daemon with records := records } where
  distinct := distinct
  buried := by
    intro record member
    obtain ⟨_, _, _, _, buried⟩ := before record member
    exact buried
  single := by
    intro first firstMember second secondMember one two
    obtain ⟨former, known, same, wasOne, _⟩ := before first firstMember
    obtain ⟨other, knownOther, sameOther, wasTwo, _⟩ := before second secondMember
    rw [← same, ← sameOther]
    exact exclusive.single former known other knownOther (wasOne one) (wasTwo two)
  alone := exclusive.alone
  free := by
    intro caller pruning record member
    obtain ⟨former, known, _, was, _⟩ := before record member
    by_contra now
    have held := was (by simpa using now)
    rw [exclusive.free caller pruning former known] at held
    cases held
  own := by
    intro caller id starting
    obtain ⟨record, member, same, claim, status⟩ := exclusive.own caller id starting
    exact ⟨record, kept caller id starting record member same claim status, same, claim, status⟩
  owner := exclusive.owner

/-- Nothing is found just if the key has no session. -/
theorem check_free (keyed : options.idempotencyKey.any (· ≠ "") = true)
    (exclusive : Exclusive options daemon)
    (nothing : idempotentSession options daemon.records = .ok none) :
    ∀ record ∈ daemon.records, claimed options record = false := by
  intro record member
  unfold idempotentSession at nothing
  split at nothing
  next absent =>
    rw [absent] at keyed
    cases keyed
  next empty =>
    rw [empty] at keyed
    cases keyed
  next key other stored =>
    split at nothing
    next missing =>
      have unmatched := List.find?_eq_none.mp missing record member
      by_contra held
      have held : claimed options record = true := by simpa using held
      cases tombstone : record.legacyTombstone with
      | true =>
        have pending := exclusive.buried record member tombstone
        simp [claimed, pending] at held
      | false => simp [held, tombstone] at unmatched
    next existing found =>
      split at nothing <;> cases nothing

/-- What is found is a session of the key. -/
theorem check_found {existing : Record}
    (found : idempotentSession options daemon.records = .ok (some existing)) :
    existing ∈ daemon.records ∧ claimed options existing = true := by
  unfold idempotentSession at found
  split at found
  · cases found
  · cases found
  · split at found
    · cases found
    next record stored =>
      split at found
      · cases found
        have holds := List.find?_some stored
        simp only [Bool.and_eq_true] at holds
        exact ⟨List.mem_of_find?_eq_some stored, holds.1⟩
      · cases found

/-- Records with the same id are the same. -/
theorem Exclusive.same (exclusive : Exclusive options daemon) {first second : Record}
    (one : first ∈ daemon.records) (two : second ∈ daemon.records) (equal : first.id = second.id) :
    first = second :=
  List.inj_on_of_nodup_map exclusive.distinct one two equal

/-- Changed records keep their ids. -/
theorem modify_ids {records : List Record} {id : SessionId} {change : Record → Record}
    (named : ∀ record, (change record).id = record.id) :
    (records.map fun record => if record.id = id then change record else record).map Record.id =
      records.map Record.id := by
  rw [List.map_map]
  apply List.map_congr_left
  intro record _
  simp only [Function.comp_apply]
  split
  · exact named record
  · rfl

/-- A call that entered its record changes it and ends. -/
theorem Exclusive.finish (exclusive : Exclusive options daemon) {caller : Nat} {id : SessionId}
    (starting : daemon.calls caller = .starting id) {stage : Stage} (unchecked : stage ≠ .pruning)
    (unentered : ∀ other, stage ≠ .starting other) {change : Record → Record}
    (named : ∀ record, (change record).id = record.id)
    (buried : ∀ record, (change record).legacyTombstone = record.legacyTombstone ∧
      (change record).pendingCleanup = record.pendingCleanup) :
    Exclusive options ((daemon.modify id change).goto caller stage) := by
  obtain ⟨own, ownMember, ownId, ownClaimed, _⟩ := exclusive.own caller id starting
  refine (exclusive.goto caller unchecked unentered).shrink ?_ ?_ ?_
  · rw [Daemon.modify, modify_ids named]
    exact exclusive.distinct
  · intro record member
    obtain ⟨former, known, rfl⟩ := List.mem_map.mp member
    refine ⟨former, known, ?_⟩
    by_cases changed : former.id = id
    · rw [if_pos changed]
      refine ⟨(named former).symm, ?_, ?_⟩
      · intro _
        rw [exclusive.same known ownMember (changed.trans ownId.symm)]
        exact ownClaimed
      · rw [(buried former).1, (buried former).2]
        exact exclusive.buried former known
    · rw [if_neg changed]
      exact ⟨rfl, fun held => held, exclusive.buried former known⟩
  · intro other otherId entered former known formerId _ _
    obtain ⟨_, same⟩ | ⟨different, entered⟩ := goto_calls entered
    · exact absurd same.symm (unentered otherId)
    refine List.mem_map.mpr ⟨former, known, if_neg ?_⟩
    intro changed
    rw [formerId] at changed
    subst changed
    exact different (exclusive.owner other caller _ entered starting)

/-- A call enters its record. -/
theorem Exclusive.enter (exclusive : Exclusive options daemon) {caller : Nat} {id : SessionId}
    (pruning : daemon.calls caller = .pruning) (fresh : ∀ record ∈ daemon.records, record.id ≠ id) :
    Exclusive options ({ daemon with
      records := daemon.records ++ [Daemon.newRecord options id] }.goto caller (.starting id)) := by
  have free := exclusive.free caller pruning
  have entered : claimed options (Daemon.newRecord options id) = true := by
    simp [claimed, sameKey, Daemon.newRecord, Status.active]
  have members {record : Record}
      (member : record ∈ daemon.records ++ [Daemon.newRecord options id]) :
      record ∈ daemon.records ∨ record = Daemon.newRecord options id := by
    simpa using member
  exact
    { distinct := by
        rw [Daemon.goto, List.map_append, List.nodup_append]
        refine ⟨exclusive.distinct, by simp, ?_⟩
        intro used known new listed
        obtain ⟨record, member, rfl⟩ := List.mem_map.mp known
        have same : new = id := by simpa [Daemon.newRecord] using listed
        rw [same]
        exact fresh record member
      buried := by
        intro record member
        obtain old | rfl := members member
        · exact exclusive.buried record old
        · intro tombstone
          cases tombstone
      single := by
        intro first firstMember second secondMember one two
        obtain old | rfl := members firstMember
        · rw [free first old] at one
          cases one
        obtain old | rfl := members secondMember
        · rw [free second old] at two
          cases two
        rfl
      alone := by
        intro first second one two
        obtain ⟨_, same⟩ | ⟨_, one⟩ := goto_calls one
        · cases same
        obtain ⟨_, same⟩ | ⟨_, two⟩ := goto_calls two
        · cases same
        exact exclusive.alone first second one two
      free := by
        intro other checked
        obtain ⟨_, same⟩ | ⟨different, checked⟩ := goto_calls checked
        · cases same
        exact absurd (exclusive.alone other caller checked pruning) different
      own := by
        intro other otherId starting
        obtain ⟨_, same⟩ | ⟨_, starting⟩ := goto_calls starting
        · cases same
          exact ⟨Daemon.newRecord options id, by simp [Daemon.goto], rfl, entered, rfl⟩
        · obtain ⟨record, member, named⟩ := exclusive.own other otherId starting
          exact ⟨record, List.mem_append_left _ member, named⟩
      owner := by
        have unused {other : Nat} (starting : daemon.calls other = .starting id) : False := by
          obtain ⟨record, member, named, _⟩ := exclusive.own other id starting
          exact fresh record member named
        intro first second otherId one two
        obtain ⟨firstCaller, same⟩ | ⟨_, one⟩ := goto_calls one
        · cases same
          obtain ⟨secondCaller, _⟩ | ⟨_, two⟩ := goto_calls two
          · rw [firstCaller, secondCaller]
          · exact (unused two).elim
        · obtain ⟨_, same⟩ | ⟨_, two⟩ := goto_calls two
          · cases same
            exact (unused one).elim
          · exact exclusive.owner first second otherId one two }

/-- Records are removed, none of them entered by a call that is still running. -/
theorem Exclusive.filter (exclusive : Exclusive options daemon) (keep : Record → Bool)
    (kept : ∀ caller id, daemon.calls caller = .starting id → ∀ former ∈ daemon.records,
      former.id = id → claimed options former = true → keep former = true) :
    Exclusive options { daemon with records := daemon.records.filter keep } := by
  refine exclusive.shrink ?_ ?_ ?_
  · exact exclusive.distinct.sublist (List.filter_sublist.map Record.id)
  · intro record member
    have known := List.mem_of_mem_filter member
    exact ⟨record, known, rfl, fun held => held, exclusive.buried record known⟩
  · intro caller id starting former known named held _
    exact List.mem_filter.mpr ⟨known, kept caller id starting former known named held⟩

/-- A session that was started goes on or ends. -/
theorem Exclusive.move (exclusive : Exclusive options daemon) (id : SessionId) (status : Status)
    (cleanup : Bool) : Exclusive options (daemon.modify id (Daemon.moved status cleanup)) := by
  have named (record : Record) : (Daemon.moved status cleanup record).id = record.id := by
    unfold Daemon.moved
    split <;> rfl
  refine exclusive.shrink ?_ ?_ ?_
  · rw [modify_ids named]
    exact exclusive.distinct
  · intro record member
    obtain ⟨former, known, rfl⟩ := List.mem_map.mp member
    have buried := exclusive.buried former known
    refine ⟨former, known, ?_⟩
    by_cases changed : former.id = id
    · rw [if_pos changed]
      refine ⟨(named former).symm, ?_⟩
      unfold Daemon.moved
      split
      next allowed =>
        constructor
        · intro held
          simp only [claimed, Bool.and_eq_true, Bool.not_eq_true', Bool.or_eq_false_iff] at held ⊢
          exact ⟨⟨allowed.2.2 held.1.1, held.1.2.1⟩, held.2⟩
        · intro tombstone
          simp [buried tombstone]
      next => exact ⟨fun held => held, buried⟩
    · rw [if_neg changed]
      exact ⟨rfl, fun held => held, buried⟩
  · intro caller otherId _ former known _ _ starting
    have unmoved : Daemon.moved status cleanup former = former := by
      simp [Daemon.moved, starting]
    refine List.mem_map.mpr ⟨former, known, ?_⟩
    rw [unmoved, ite_self]

/-- One step keeps the session of the key single. -/
theorem step_exclusive (keyed : options.idempotencyKey.any (· ≠ "") = true)
    (exclusive : Exclusive options daemon) {action : Action} (alone : Alone options daemon action) :
    Exclusive options (daemon.step options action) := by
  cases action with
  | call caller =>
    simp only [Daemon.step]
    split
    · exact exclusive.goto caller (by decide) (by simp)
    · exact exclusive
  | reject caller =>
    simp only [Daemon.step]
    split
    · exact exclusive.goto caller (by decide) (by simp)
    · exact exclusive
  | check caller =>
    simp only [Daemon.step]
    split
    next flushing =>
      split
      · exact exclusive.goto caller (by decide) (by simp)
      · exact exclusive.goto caller (by simp) (by simp)
      next nothing =>
        have free := check_free keyed exclusive nothing
        have others := alone flushing nothing
        exact
          { distinct := exclusive.distinct
            buried := exclusive.buried
            single := exclusive.single
            alone := by
              intro first second one two
              obtain ⟨firstCaller, _⟩ | ⟨_, one⟩ := goto_calls one
              · obtain ⟨secondCaller, _⟩ | ⟨_, two⟩ := goto_calls two
                · rw [firstCaller, secondCaller]
                · exact absurd two (others second)
              · exact absurd one (others first)
            free := fun _ _ => free
            own := by
              intro other id starting
              obtain ⟨_, same⟩ | ⟨_, starting⟩ := goto_calls starting
              · cases same
              · exact exclusive.own other id starting
            owner := by
              intro first second id one two
              obtain ⟨_, same⟩ | ⟨_, one⟩ := goto_calls one
              · cases same
              obtain ⟨_, same⟩ | ⟨_, two⟩ := goto_calls two
              · cases same
              exact exclusive.owner first second id one two }
    next => exact exclusive
  | insert caller id =>
    simp only [Daemon.step]
    split
    next ready => exact exclusive.enter ready.1 ready.2
    next => exact exclusive
  | unsaved caller =>
    simp only [Daemon.step]
    split
    next id starting =>
      refine (exclusive.goto caller (by decide) (by simp)).filter _ ?_
      intro other otherId entered former known named _
      obtain ⟨_, same⟩ | ⟨different, entered⟩ := goto_calls entered
      · cases same
      simp only [ne_eq, decide_eq_true_eq]
      intro removed
      rw [named] at removed
      subst removed
      exact different (exclusive.owner other caller _ entered starting)
    next => exact exclusive
  | started caller =>
    simp only [Daemon.step]
    split
    next id starting =>
      exact exclusive.finish starting (by simp) (by simp) (fun _ => rfl) fun _ => ⟨rfl, rfl⟩
    next => exact exclusive
  | unstarted caller noChild =>
    simp only [Daemon.step]
    split
    next id starting =>
      exact exclusive.finish starting (by simp) (by simp) (fun _ => rfl) fun _ => ⟨rfl, rfl⟩
    next => exact exclusive
  | move id status cleanup => exact exclusive.move id status cleanup
  | delete id =>
    refine exclusive.filter _ ?_
    intro caller otherId _ former _ _ held
    simp only [claimed, Bool.and_eq_true] at held
    simp [held.1.1, held.1.2]

/-- A call returns an id in a step. -/
def Returns (before after : Daemon) (caller : Nat) (id : SessionId) : Prop :=
  before.calls caller ≠ .returned id ∧ after.calls caller = .returned id

/-- The id that a call returns is that of the session of the key. -/
theorem step_returns (exclusive : Exclusive options daemon) {action : Action} {caller : Nat}
    {id : SessionId} (returns : Returns daemon (daemon.step options action) caller id) :
    ∃ record ∈ (daemon.step options action).records,
      record.id = id ∧ claimed options record = true := by
  obtain ⟨before, after⟩ := returns
  -- a step that moves a call elsewhere, or moves none, returns nothing
  have elsewhere {other : Daemon} {mover : Nat} {stage : Stage} (calls : other.calls = daemon.calls)
      (moved : stage ≠ .returned id) (now : (other.goto mover stage).calls caller = .returned id) :
      False := by
    obtain ⟨_, same⟩ | ⟨_, now⟩ := goto_calls now
    · exact moved same.symm
    · rw [calls] at now
      exact before now
  cases action with
  | call mover =>
    simp only [Daemon.step] at after
    split at after
    · exact (elsewhere rfl (by simp) after).elim
    · exact absurd after before
  | reject mover =>
    simp only [Daemon.step] at after
    split at after
    · exact (elsewhere rfl (by simp) after).elim
    · exact absurd after before
  | check mover =>
    simp only [Daemon.step] at after ⊢
    split at after
    next flushing =>
      rw [if_pos flushing]
      split at after
      · exact (elsewhere rfl (by simp) after).elim
      next existing found =>
        obtain ⟨_, same⟩ | ⟨_, now⟩ := goto_calls after
        · cases same
          obtain ⟨member, held⟩ := check_found found
          exact ⟨existing, member, rfl, held⟩
        · exact absurd now before
      · exact (elsewhere rfl (by simp) after).elim
    · exact absurd after before
  | insert mover other =>
    simp only [Daemon.step] at after
    split at after
    · exact (elsewhere rfl (by simp) after).elim
    · exact absurd after before
  | unsaved mover =>
    simp only [Daemon.step] at after
    split at after
    · exact (elsewhere rfl (by simp) after).elim
    · exact absurd after before
  | started mover =>
    simp only [Daemon.step] at after ⊢
    split at after
    next other starting =>
      obtain ⟨_, same⟩ | ⟨_, now⟩ := goto_calls after
      · cases same
        obtain ⟨record, member, named, held, status⟩ := exclusive.own mover id starting
        refine ⟨{ record with status := .running }, ?_, named, ?_⟩
        · exact List.mem_map.mpr ⟨record, member, if_pos named⟩
        · simp only [claimed, Bool.and_eq_true] at held ⊢
          exact ⟨⟨rfl, held.1.2⟩, held.2⟩
      · exact absurd now before
    · exact absurd after before
  | unstarted mover noChild =>
    simp only [Daemon.step] at after
    split at after
    · exact (elsewhere rfl (by simp) after).elim
    · exact absurd after before
  | move | delete => exact absurd after before

/-- In every run in which no call looks for the session of the key while another one is about to
enter it, the key has at most one session, and every call that succeeds returns its id. -/
theorem one_session_for_key {options : SpawnOptions} {start : Daemon}
    (keyed : options.idempotencyKey.any (· ≠ "") = true) (initial : Initial options start)
    (actions : List Action)
    (alone : Along (Daemon.step options) (Alone options) start actions) :
    (∀ first ∈ (run (Daemon.step options) start actions).records,
      ∀ second ∈ (run (Daemon.step options) start actions).records,
      claimed options first = true → claimed options second = true → first = second) ∧
    ∀ action caller id,
      Returns (run (Daemon.step options) start actions)
        ((run (Daemon.step options) start actions).step options action) caller id →
      ∃ record ∈ ((run (Daemon.step options) start actions).step options action).records,
        record.id = id ∧ claimed options record = true := by
  have exclusive : Exclusive options (run (Daemon.step options) start actions) :=
    @run_preserves_along _ _ (Daemon.step options) (Alone options) (Exclusive options)
      (fun _ _ now met => step_exclusive keyed now met) start actions initial.exclusive alone
  constructor
  · intro first one second two firstHeld secondHeld
    exact exclusive.same one two (exclusive.single first one second two firstHeld secondHeld)
  · intro action caller id returns
    exact step_returns exclusive returns

/-- Options with a key. -/
def keyedOptions : SpawnOptions where
  parentSessionId := "s"
  ownerProjectDirectory := "/p"
  ownerCapabilityHash := "c"
  workdir := "/p"
  idempotencyKey := some "k"
  specification := ⟨"sh", [], .safe, "f", none, none⟩

def emptyDaemon : Daemon := ⟨[], fun _ => .idle⟩

theorem emptyDaemon_initial : Initial keyedOptions emptyDaemon :=
  ⟨fun _ => rfl, by simp [emptyDaemon], by simp [emptyDaemon], by simp [emptyDaemon]⟩

/-- A second call that looks after the first one has entered its record returns its id. -/
theorem one_session_for_key_in_turn :
    (run (Daemon.step keyedOptions) emptyDaemon
      [.call 0, .check 0, .insert 0 7, .call 1, .check 1]).calls 1 = .returned 7 ∧
    ∀ first ∈ (run (Daemon.step keyedOptions) emptyDaemon
        [.call 0, .check 0, .insert 0 7, .call 1, .check 1]).records,
      ∀ second ∈ (run (Daemon.step keyedOptions) emptyDaemon
        [.call 0, .check 0, .insert 0 7, .call 1, .check 1]).records,
      claimed keyedOptions first = true → claimed keyedOptions second = true → first = second := by
  refine ⟨by decide, (one_session_for_key (by decide) emptyDaemon_initial _ ?_).1⟩
  refine ⟨trivial, ?_, trivial, trivial, ?_, trivial⟩
  · intro _ _ other pruning
    obtain ⟨_, same⟩ | ⟨_, idle⟩ := goto_calls pruning
    · cases same
    · cases idle
  · intro _ nothing
    cases nothing

/-- Two calls that both look before either has entered its record create two sessions. -/
theorem two_sessions_for_key :
    Initial keyedOptions emptyDaemon ∧
      ((run (Daemon.step keyedOptions) emptyDaemon
        [.call 0, .call 1, .check 0, .check 1, .insert 0 7, .insert 1 8]).records.filter
          (claimed keyedOptions)).map Record.id = [7, 8] :=
  ⟨emptyDaemon_initial, by decide⟩

end OpencodePty.IdempotentSpawns
