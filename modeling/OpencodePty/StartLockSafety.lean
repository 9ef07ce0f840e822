import OpencodePty.StartLock

/-!
# Mutual exclusion of the start lock

In every run in which no process removes or overwrites the start lock of a live process
other than the one it read last, the lock of every live holder is the start lock, so that
there is at most one holder. The recovery lock plays no part in this. A run without this
condition, and without any crash, leads to two holders.
-/

namespace OpencodePty.StartLock

open OpencodePty.Transitions

/-- A process has a lock, or has written one and is about to return it. -/
def Process.Owns (process : Process) (lock : Lock) : Prop :=
  process.lease = some lock ∨ process.pc = .acquired lock ∨
    process.pc = .acquireEnd (some lock) ∨ process.pc = .claimEnd (some lock)

/-- The handoff token of the lock was used. -/
def HandedOff (handedOff : List Token) (lock : Lock) : Prop :=
  ∃ handoffToken ∈ handedOff, lock.handoffToken = some handoffToken

/-- What every process knows of the lock it has read. -/
structure Informed (system : System) (process : ProcessId) (pc : Pc) : Prop where
  removing : ∀ lock, pc = .remove (some lock) → system.alive lock.pid = false
  claiming : ∀ handoffToken lock, pc = .claimWrite handoffToken lock →
    lock.handoffToken = some handoffToken
  releasing : ∀ lock, pc = .releaseRemove lock → lock.pid = process

/-- The lock of every live process that has not handed it off is the start lock. -/
structure Exclusive (system : System) : Prop where
  own : ∀ process lock, (system.processes process).Owns lock → lock.pid = process
  current : ∀ process lock, (system.processes process).Owns lock →
    system.alive process = true → ¬ HandedOff system.handedOff lock →
    system.startLock = some lock
  informed : ∀ process, Informed system process (system.pc process)

theorem exclusive_initial {system : System} (initial : Initial system) : Exclusive system := by
  have nothing (process : ProcessId) (lock : Lock) :
      ¬ (system.processes process).Owns lock := by
    have idle : (system.processes process).pc = .idle := initial.idle process
    have free : (system.processes process).lease = none := initial.free process
    rintro (leased | acquired | ended | claimed)
    · simp [free] at leased
    · simp [idle] at acquired
    · simp [idle] at ended
    · simp [idle] at claimed
  exact
    { own := fun process lock owns => absurd owns (nothing process lock)
      current := fun process lock owns => absurd owns (nothing process lock)
      informed := fun process => by
        rw [initial.idle process]
        exact ⟨by simp, by simp, by simp⟩ }

/-- A live holder has the start lock, so two of them are the same process. -/
theorem Exclusive.unique {system : System} (exclusive : Exclusive system)
    {first second : ProcessId} (one : system.holds first = true)
    (other : system.holds second = true) : first = second := by
  have held {process : ProcessId} (holding : system.holds process = true) :
      ∃ lock, system.startLock = some lock ∧ lock.pid = process := by
    simp only [System.holds, Bool.and_eq_true, Option.any_eq_true, Bool.not_eq_true',
      Option.any_eq_false] at holding
    obtain ⟨living, lock, leased, free⟩ := holding
    have owns : (system.processes process).Owns lock := .inl leased
    refine ⟨lock, exclusive.current process lock owns living ?_, exclusive.own process lock owns⟩
    rintro ⟨handoffToken, used, same⟩
    have unused := free handoffToken same
    simp [used] at unused
  obtain ⟨lock, file, mine⟩ := held one
  obtain ⟨lock', file', yours⟩ := held other
  rw [file, Option.some_inj] at file'
  rw [← mine, ← yours, file']

/-- A process that is dead stays dead. -/
theorem Informed.persists {before after : System} {process : ProcessId} {pc : Pc}
    (informed : Informed before process pc)
    (dead : ∀ other, after.alive other = true → before.alive other = true) :
    Informed after process pc where
  removing := by
    intro lock same
    have gone := informed.removing lock same
    cases living : after.alive lock.pid with
    | false => rfl
    | true =>
      rw [dead _ living] at gone
      exact gone
  claiming := informed.claiming
  releasing := informed.releasing

/-- A step of one process, after which every live owner still has the start lock. -/
theorem Exclusive.change {before after : System} (exclusive : Exclusive before)
    (process : ProcessId)
    (others : ∀ other, other ≠ process → after.processes other = before.processes other)
    (living : after.alive process = true → before.alive process = true)
    (own : ∀ lock, (after.processes process).Owns lock → lock.pid = process)
    (informed : Informed before process (after.pc process))
    (current : ∀ other lock, (after.processes other).Owns lock → after.alive other = true →
      ¬ HandedOff after.handedOff lock → after.startLock = some lock) : Exclusive after := by
  have dead (other : ProcessId) (now : after.alive other = true) : before.alive other = true := by
    by_cases same : other = process
    · rw [same] at now ⊢
      exact living now
    · rw [System.alive, others other same] at now
      exact now
  refine
    { own := ?_
      current := current
      informed := ?_ }
  · intro other lock owns
    by_cases same : other = process
    · rw [same] at owns ⊢
      exact own lock owns
    · rw [others other same] at owns
      exact exclusive.own other lock owns
  · intro other
    by_cases same : other = process
    · rw [same]
      exact informed.persists dead
    · rw [System.pc, others other same]
      exact (exclusive.informed other).persists dead

/-- A step of one process that leaves the start lock alone and brings it no lock. -/
theorem Exclusive.quiet {before after : System} (exclusive : Exclusive before)
    (process : ProcessId)
    (others : ∀ other, other ≠ process → after.processes other = before.processes other)
    (living : after.alive process = true → before.alive process = true)
    (owned : ∀ lock, (after.processes process).Owns lock → (before.processes process).Owns lock)
    (informed : Informed before process (after.pc process))
    (file : after.startLock = before.startLock)
    (handed : after.handedOff = before.handedOff) : Exclusive after := by
  refine exclusive.change process others living
    (fun lock owns => exclusive.own process lock (owned lock owns)) informed ?_
  intro other lock owns now free
  rw [file]
  rw [handed] at free
  by_cases same : other = process
  · rw [same] at owns now
    exact exclusive.current process lock (owned lock owns) (living now) free
  · rw [System.alive, others other same] at now
    rw [others other same] at owns
    exact exclusive.current other lock owns now free

/-- Operations that know nothing of the start lock. -/
theorem Informed.plain {system : System} {process : ProcessId} {pc : Pc}
    (remove : ∀ lock, pc ≠ .remove (some lock))
    (claim : ∀ handoffToken lock, pc ≠ .claimWrite handoffToken lock)
    (release : ∀ lock, pc ≠ .releaseRemove lock) : Informed system process pc :=
  ⟨fun lock same => absurd same (remove lock),
    fun handoffToken lock same => absurd same (claim handoffToken lock),
    fun lock same => absurd same (release lock)⟩

@[simp] theorem goto_processes_self (system : System) (process : ProcessId) (pc : Pc) :
    (system.goto process pc).processes process = { system.processes process with pc := pc } := by
  simp [System.goto]

@[simp] theorem goto_processes_other (system : System) {process other : ProcessId}
    (different : other ≠ process) (pc : Pc) :
    (system.goto process pc).processes other = system.processes other := by
  simp [System.goto, different]

@[simp] theorem finish_processes_self (system : System) (process : ProcessId)
    (lease : Option Lock) :
    (system.finish process lease).processes process =
      { system.processes process with pc := .idle, lease := lease } := by
  simp [System.finish]

@[simp] theorem finish_processes_other (system : System) {process other : ProcessId}
    (different : other ≠ process) (lease : Option Lock) :
    (system.finish process lease).processes other = system.processes other := by
  simp [System.finish, different]

/-- The operation brings the process no lock by itself. -/
def Pc.Empty (pc : Pc) : Prop :=
  (∀ lock, pc ≠ .acquired lock) ∧ (∀ lock, pc ≠ .acquireEnd (some lock)) ∧
    ∀ lock, pc ≠ .claimEnd (some lock)

/-- A process goes on with an operation that brings it no lock, and the start lock stays. -/
theorem Exclusive.goto {before : System} (exclusive : Exclusive before) (process : ProcessId)
    {pc : Pc} (empty : pc.Empty) (informed : Informed before process pc)
    {after : System} (file : after.startLock = before.startLock)
    (handed : after.handedOff = before.handedOff)
    (processes : after.processes = before.processes) : Exclusive (after.goto process pc) := by
  refine exclusive.quiet process ?_ ?_ ?_ ?_ file handed
  · intro other different
    rw [goto_processes_other _ different, processes]
  · intro now
    simpa [System.alive, processes] using now
  · rintro lock (leased | acquired | ended | claimed)
    · refine .inl ?_
      simpa [processes] using leased
    · exact absurd (by simpa using acquired) (empty.1 lock)
    · exact absurd (by simpa using ended) (empty.2.1 lock)
    · exact absurd (by simpa using claimed) (empty.2.2 lock)
  · simpa [System.pc] using informed

/-- A call returns what its process has. -/
theorem Exclusive.finish {before : System} (exclusive : Exclusive before) (process : ProcessId)
    {lease : Option Lock}
    (owned : ∀ lock, lease = some lock → (before.processes process).Owns lock)
    {after : System} (file : after.startLock = before.startLock)
    (handed : after.handedOff = before.handedOff)
    (processes : after.processes = before.processes) : Exclusive (after.finish process lease) := by
  refine exclusive.quiet process ?_ ?_ ?_ ?_ file handed
  · intro other different
    rw [finish_processes_other _ different, processes]
  · intro now
    simpa [System.alive, processes] using now
  · rintro lock (leased | acquired | ended | claimed)
    · exact owned lock (by simpa using leased)
    · simp at acquired
    · simp at ended
    · simp at claimed
  · simp only [System.pc, finish_processes_self]
    exact .plain (by simp) (by simp) (by simp)

/-- What a process owns after it went on with an operation. -/
theorem owns_goto {system : System} {process other : ProcessId} {pc : Pc} {lock : Lock}
    (owns : ((system.goto process pc).processes other).Owns lock) :
    (system.processes other).Owns lock ∨
      other = process ∧ (pc = .acquired lock ∨ pc = .acquireEnd (some lock) ∨
        pc = .claimEnd (some lock)) := by
  by_cases same : other = process
  · subst same
    rw [goto_processes_self] at owns
    rcases owns with leased | brought
    · exact .inl (.inl leased)
    · exact .inr ⟨rfl, brought⟩
  · rw [goto_processes_other _ same] at owns
    exact .inl owns

theorem alive_goto (system : System) (process other : ProcessId) (pc : Pc) :
    (system.goto process pc).alive other = system.alive other := by
  by_cases same : other = process
  · simp [System.alive, same]
  · simp [System.alive, same]

/-- A process writes a lock of its own where no other live owner has the start lock. -/
theorem Exclusive.write {before : System} (exclusive : Exclusive before) {process : ProcessId}
    {pc : Pc} {lock : Lock} (mine : lock.pid = process)
    (brings : ∀ other, pc = .acquired other ∨ pc = .acquireEnd (some other) ∨
      pc = .claimEnd (some other) → other = lock)
    (informed : Informed before process pc)
    {after : System} (file : after.startLock = some lock)
    (processes : after.processes = before.processes)
    (alone : ∀ other owned, (before.processes other).Owns owned → before.alive other = true →
      HandedOff after.handedOff owned) : Exclusive (after.goto process pc) := by
  have living (other : ProcessId) : (after.goto process pc).alive other = before.alive other := by
    rw [alive_goto, System.alive, System.alive, processes]
  have owned (other : ProcessId) (held : Lock)
      (owns : ((after.goto process pc).processes other).Owns held) :
      (before.processes other).Owns held ∨ other = process ∧ held = lock := by
    rcases owns_goto owns with old | ⟨same, brought⟩
    · rw [processes] at old
      exact .inl old
    · exact .inr ⟨same, brings held brought⟩
  refine exclusive.change process ?_ ?_ ?_ ?_ ?_
  · intro other different
    rw [goto_processes_other _ different, processes]
  · rw [living]
    exact fun now => now
  · intro held owns
    rcases owned process held owns with old | ⟨_, rfl⟩
    · exact exclusive.own process held old
    · exact mine
  · simpa [System.pc] using informed
  · intro other held owns now free
    rw [living] at now
    rcases owned other held owns with old | ⟨_, rfl⟩
    · exact absurd (alone other held old now) free
    · exact file

/-- The lock file is absent, so that no live owner is left. -/
theorem Exclusive.alone {system : System} (exclusive : Exclusive system)
    (absent : system.startLock = none) {process : ProcessId} {lock : Lock}
    (owns : (system.processes process).Owns lock) (living : system.alive process = true) :
    HandedOff system.handedOff lock := by
  by_contra free
  rw [exclusive.current process lock owns living free] at absent
  cases absent

/-- A stale lock is removed: its owner is dead, or there was none. -/
theorem Exclusive.remove {system : System} (exclusive : Exclusive system) {process : ProcessId}
    {replacement : Option Lock} (here : system.pc process = .remove replacement)
    (undisturbed : Replaceable system replacement) :
    Exclusive ({ system with startLock := none }.goto process .relink) := by
  refine exclusive.change process ?_ ?_ ?_ ?_ ?_
  · intro other different
    rw [goto_processes_other _ different]
  · rw [alive_goto]
    exact fun now => now
  · intro lock owns
    rcases owns_goto owns with old | ⟨_, brought⟩
    · exact exclusive.own process lock old
    · simp at brought
  · simp only [System.pc, goto_processes_self]
    exact .plain (by simp) (by simp) (by simp)
  · intro other lock owns now free
    rw [alive_goto] at now
    rcases owns_goto owns with old | ⟨_, brought⟩
    · have file := exclusive.current other lock old now free
      have dead : system.alive lock.pid = false := by
        rcases undisturbed lock file with read | dead
        · exact (exclusive.informed process).removing lock (by rw [here, read])
        · exact dead
      rw [exclusive.own other lock old] at dead
      change system.alive other = true at now
      rw [dead] at now
      cases now
    · simp at brought

/-- A lock is released by its owner. -/
theorem Exclusive.release {system : System} (exclusive : Exclusive system) {process : ProcessId}
    {lock : Lock} (here : system.pc process = .releaseRemove lock)
    (undisturbed : Replaceable system (some lock)) :
    Exclusive ({ system with startLock := none }.finish process none) := by
  have mine := (exclusive.informed process).releasing lock here
  have nothing (held : Lock) :
      ¬ (({ system with startLock := none }.finish process none).processes process).Owns held := by
    rw [finish_processes_self]
    rintro (leased | acquired | ended | claimed)
    · cases leased
    · cases acquired
    · cases ended
    · cases claimed
  refine exclusive.change process ?_ ?_ ?_ ?_ ?_
  · intro other different
    rw [finish_processes_other _ different]
  · intro now
    simpa [System.alive] using now
  · intro held owns
    exact absurd owns (nothing held)
  · simp only [System.pc, finish_processes_self]
    exact .plain (by simp) (by simp) (by simp)
  · intro other held owns now free
    have different : other ≠ process := by
      intro same
      rw [same] at owns
      exact nothing held owns
    rw [finish_processes_other _ different] at owns
    rw [System.alive, finish_processes_other _ different] at now
    have file := exclusive.current other held owns now free
    have origin : held.pid = other := exclusive.own other held owns
    rcases undisturbed held file with read | dead
    · rw [Option.some_inj] at read
      rw [← origin, ← read, mine] at different
      exact absurd rfl different
    · rw [origin] at dead
      change system.alive other = true at now
      rw [dead] at now
      cases now

/-- A lock is claimed with its handoff token, which hands it off. -/
theorem Exclusive.claim {system : System} (exclusive : Exclusive system) {process : ProcessId}
    {handoffToken : Token} {lock : Lock}
    (here : system.pc process = .claimWrite handoffToken lock)
    (undisturbed : Replaceable system (some lock))
    {other : ProcessId} {owned : Lock} (owns : (system.processes other).Owns owned)
    (living : system.alive other = true) :
    HandedOff (handoffToken :: system.handedOff) owned := by
  by_cases before : HandedOff system.handedOff owned
  · obtain ⟨token, used, same⟩ := before
    exact ⟨token, List.mem_cons_of_mem _ used, same⟩
  · have file := exclusive.current other owned owns living before
    rcases undisturbed owned file with read | dead
    · rw [Option.some_inj] at read
      rw [← read]
      exact ⟨handoffToken, List.mem_cons_self,
        (exclusive.informed process).claiming handoffToken lock here⟩
    · rw [exclusive.own other owned owns, living] at dead
      cases dead

/-- The operations that come with no lock and do not go by what was read of the start lock. -/
def Pc.passive : Pc → Bool
  | .remove (some _) | .acquireEnd (some _) | .acquired _ | .claimWrite _ _ | .claimEnd (some _)
  | .releaseRemove _ => false
  | _ => true

/-- A process goes on with such an operation, and the start lock stays. -/
theorem Exclusive.pass {before after : System} (exclusive : Exclusive before) (process : ProcessId)
    {pc : Pc} (passive : pc.passive = true) (file : after.startLock = before.startLock)
    (handed : after.handedOff = before.handedOff)
    (processes : after.processes = before.processes) : Exclusive (after.goto process pc) := by
  refine exclusive.goto process ⟨?_, ?_, ?_⟩ (.plain ?_ ?_ ?_) file handed processes
  all_goals
    intros
    rintro rfl
    cases passive

/-- One operation of a call keeps the lock exclusive. -/
theorem advance_exclusive {system : System} (exclusive : Exclusive system)
    {process : ProcessId} (undisturbed : Undisturbed system (.advance process)) :
    Exclusive (system.advance process) := by
  have own : ∀ lock, system.lease process = some lock →
      (system.processes process).Owns lock := fun lock leased => .inl leased
  -- An operation that only goes on, by what it knows of the start lock.
  have quiet {pc : Pc} (empty : pc.Empty) (informed : Informed system process pc) :
      Exclusive (system.goto process pc) := exclusive.goto process empty informed rfl rfl rfl
  simp only [Undisturbed] at undisturbed
  unfold System.advance
  cases here : system.pc process with
  | idle => exact exclusive
  | link =>
    simp only
    cases file : system.startLock with
    | some current =>
      exact exclusive.pass process rfl rfl rfl rfl
    | none =>
      refine exclusive.write ?_ ?_ ?_ rfl rfl ?_
      · rfl
      · simp
      · exact .plain (by simp) (by simp) (by simp)
      · exact fun _ _ owns living => exclusive.alone file owns living
  | acquired linked =>
    refine exclusive.finish process ?_ rfl rfl rfl
    intro lock same
    cases same
    exact .inr (.inl here)
  | read =>
    simp only
    split <;> exact exclusive.pass process rfl rfl rfl rfl
  | probe current =>
    simp only
    split
    · exact exclusive.finish process own rfl rfl rfl
    · exact exclusive.pass process rfl rfl rfl rfl
  | recoveryLink purpose =>
    simp only
    split
    · exact exclusive.pass process rfl rfl rfl rfl
    · refine exclusive.pass process ?_ rfl rfl rfl
      cases purpose <;> rfl
  | recoveryRead purpose =>
    simp only
    split <;> exact exclusive.pass process rfl rfl rfl rfl
  | recoveryProbe purpose recovery =>
    simp only
    split
    · exact exclusive.finish process own rfl rfl rfl
    · exact exclusive.pass process rfl rfl rfl rfl
  | recoveryRename purpose recovery =>
    simp only
    split
    · exact exclusive.pass process rfl rfl rfl rfl
    · exact exclusive.pass process rfl rfl rfl rfl
  | recoveryCompare purpose recovery quarantined =>
    simp only
    split <;> exact exclusive.pass process rfl rfl rfl rfl
  | recoveryRestore quarantined => exact exclusive.finish process own rfl rfl rfl
  | reread =>
    simp only
    split <;> exact exclusive.pass process rfl rfl rfl rfl
  | reprobe replacement =>
    simp only
    split
    · exact exclusive.pass process rfl rfl rfl rfl
    next dead =>
      refine quiet (by simp [Pc.Empty]) ⟨?_, by simp, by simp⟩
      intro lock same
      cases same
      simpa using dead
  | remove replacement =>
    rw [here] at undisturbed
    exact exclusive.remove here undisturbed
  | relink =>
    simp only
    cases file : system.startLock with
    | some current =>
      exact exclusive.pass process rfl rfl rfl rfl
    | none =>
      refine exclusive.write ?_ ?_ ?_ rfl rfl ?_
      · rfl
      · simp
      · exact .plain (by simp) (by simp) (by simp)
      · exact fun _ _ owns living => exclusive.alone file owns living
  | acquireEnd linked =>
    refine exclusive.finish process ?_ rfl rfl rfl
    intro lock same
    cases linked with
    | none => exact own lock same
    | some linked =>
      cases same
      exact .inr (.inr (.inl here))
  | claimRead handoffToken =>
    simp only
    split
    next lock file =>
      split
      next matching =>
        refine quiet (by simp [Pc.Empty]) ⟨by simp, ?_, by simp⟩
        intro token read same
        cases same
        exact matching
      next => exact exclusive.pass process rfl rfl rfl rfl
    next => exact exclusive.pass process rfl rfl rfl rfl
  | claimWrite handoffToken lock =>
    rw [here] at undisturbed
    refine exclusive.write ?_ ?_ ?_ rfl rfl ?_
    · rfl
    · simp
    · exact .plain (by simp) (by simp) (by simp)
    · exact fun _ _ owns living => exclusive.claim here undisturbed owns living
  | claimEnd written =>
    refine exclusive.finish process ?_ rfl rfl rfl
    intro lock same
    cases written with
    | none => exact own lock same
    | some written =>
      cases same
      exact .inr (.inr (.inr here))
  | releaseRead token =>
    simp only
    split
    next lock file =>
      split
      next mine =>
        refine quiet (by simp [Pc.Empty]) ⟨by simp, by simp, ?_⟩
        intro read same
        cases same
        exact mine.2
      next => exact exclusive.finish process (by simp) rfl rfl rfl
    next => exact exclusive.finish process (by simp) rfl rfl rfl
  | releaseRemove lock =>
    rw [here] at undisturbed
    exact exclusive.release here undisturbed

/-- A step keeps the lock exclusive, where it removes or overwrites no other start lock than
the one its process has read. -/
theorem step_exclusive {system : System} (exclusive : Exclusive system) {action : Action}
    (undisturbed : Undisturbed system action) : Exclusive (system.step action) := by
  cases action with
  | acquire process =>
    simp only [System.step]
    split
    · exact exclusive.pass process rfl rfl rfl rfl
    · exact exclusive
  | claim process handoffToken =>
    simp only [System.step]
    split
    · exact exclusive.pass process rfl rfl rfl rfl
    · exact exclusive
  | release process =>
    simp only [System.step]
    split
    · split
      · exact exclusive.pass process rfl rfl rfl rfl
      · exact exclusive
    · exact exclusive
  | give process receiver =>
    simp only [System.step]
    split
    · split
      · exact exclusive.quiet process (fun _ _ => rfl) (fun now => now) (fun _ owns => owns)
          (exclusive.informed process) rfl rfl
      · exact exclusive
    · exact exclusive
  | advance process =>
    simp only [System.step]
    split
    · exact advance_exclusive exclusive undisturbed
    · exact exclusive
  | fail process =>
    simp only [System.step]
    split
    · refine exclusive.pass process ?_ rfl rfl rfl
      unfold System.afterFailure
      split <;> rfl
    · exact exclusive
  | crash process =>
    refine exclusive.quiet process ?_ ?_ ?_ ?_ rfl rfl
    · intro other different
      simp [System.step, different]
    · intro now
      simp [System.step, System.alive] at now
    · intro lock owns
      simpa [System.step, Process.Owns] using owns
    · have same : (system.step (.crash process)).pc process = system.pc process := by
        simp [System.step, System.pc]
      rw [same]
      exact exclusive.informed process

/-- In a run whose steps all meet the condition, the lock stays exclusive. -/
theorem run_exclusive {start : System} (exclusive : Exclusive start) (actions : List Action)
    (undisturbed : UndisturbedRun start actions) : Exclusive (run System.step start actions) := by
  induction actions generalizing start with
  | nil => exact exclusive
  | cons action rest inductionHypothesis =>
    rw [run_cons]
    exact inductionHypothesis (step_exclusive exclusive undisturbed.1) undisturbed.2

/-- No two live processes hold a start lock, in any run in which no process removes or
overwrites the start lock of a live process other than the one it read last. -/
theorem start_lock_exclusive {start : System} (initial : Initial start) (actions : List Action)
    (undisturbed : UndisturbedRun start actions) {first second : ProcessId}
    (one : (run System.step start actions).holds first = true)
    (other : (run System.step start actions).holds second = true) : first = second :=
  (run_exclusive (exclusive_initial initial) actions undisturbed).unique one other

/-- No lock and no call, and every process alive. -/
def quietSystem : System where
  startLock := none
  recoveryLock := none
  processes := fun _ => ⟨true, .idle, none⟩
  given := []
  handedOff := []
  nextToken := 0

theorem quietSystem_initial : Initial quietSystem := ⟨fun _ => rfl, fun _ => rfl⟩

/-- A process obtains the lock and hands it to another one, which then holds it. -/
theorem start_lock_exclusive_after_handoff :
    (run System.step quietSystem
      [.acquire 0, .advance 0, .advance 0, .give 0 1, .claim 1 1, .advance 1, .advance 1,
        .advance 1, .advance 1]).holds 1 = true ∧
    ∀ process, (run System.step quietSystem
      [.acquire 0, .advance 0, .advance 0, .give 0 1, .claim 1 1, .advance 1, .advance 1,
        .advance 1, .advance 1]).holds process = true → process = 1 := by
  refine ⟨by decide, fun process holding => ?_⟩
  refine start_lock_exclusive quietSystem_initial _ ?_ holding (by decide)
  simp only [UndisturbedRun]
  refine ⟨trivial, trivial, trivial, trivial, trivial, trivial, trivial, ?_, trivial, trivial⟩
  intro lock file
  exact .inl file

/-- Process 1 finds the lock of process 0, which releases it. Under the recovery lock
process 1 finds no lock and goes on to remove it, but process 2 has linked one meanwhile,
which the removal deletes. No process crashes. -/
def overtaken : List Action :=
  [.acquire 0, .advance 0, .advance 0, .acquire 1, .advance 1, .release 0, .advance 0,
    .advance 0, .advance 1, .advance 1, .advance 1, .acquire 2, .advance 2, .advance 2,
    .advance 1, .advance 1, .advance 1]

theorem start_lock_held_twice :
    Initial quietSystem ∧ ¬ ∀ first second,
      (run System.step quietSystem overtaken).holds first = true →
      (run System.step quietSystem overtaken).holds second = true → first = second := by
  refine ⟨quietSystem_initial, ?_⟩
  intro unique
  exact absurd (unique 1 2 (by decide) (by decide)) (by decide)

end OpencodePty.StartLock
