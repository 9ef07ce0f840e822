import OpencodePty.EvidencedDeletion
import OpencodePty.WorkPools

/-!
# Reconciliation at the start of a daemon

A daemon that starts reconciles the sessions whose workers may still be there. Some loops share an
index into the list of these sessions, and each awaits the reconciliation of one session at a time.
One that throws is reported, and its loop goes on with the next. However the reconciliations are
interleaved and whichever of them throw, each session is reconciled once.
-/

namespace OpencodePty.Reconciliations

open TerminalPruning (Entry)
open Transitions WorkPools

def recoveryConcurrency : Nat := 8

/-- A call of `reconcileWorkers`, between its awaits. -/
structure Recovery where
  pending : List Entry
  pool : Pool
  /-- The sessions whose recovery was skipped with a warning. -/
  skipped : List Entry

/-- The beginning of `reconcileWorkers`, up to the first await of each loop. -/
def reconcileWorkers (entries : List Entry) : Recovery :=
  let pending := entries.filter EvidencedDeletion.reconciled
  ⟨pending, .start pending.length (min recoveryConcurrency pending.length), []⟩

/-- The reconciliation that a loop awaits comes to its end. -/
structure Ending where
  loop : Nat
  threw : Bool

def Recovery.settle (recovery : Recovery) (ending : Ending) : Recovery :=
  match recovery.pool.workers[ending.loop]? with
  | some (some position) =>
    { recovery with
      pool := recovery.pool.finish ending.loop
      skipped :=
        if ending.threw then recovery.skipped ++ recovery.pending[position]?.toList
        else recovery.skipped }
  | _ => recovery

/-- The sessions at some positions of the list. -/
def sessionsAt (pending : List Entry) (positions : List Nat) : List Entry :=
  positions.filterMap fun position => pending[position]?

def Recovery.reconciled (recovery : Recovery) : List Entry :=
  sessionsAt recovery.pending recovery.pool.done

def Recovery.underway (recovery : Recovery) : List Entry :=
  sessionsAt recovery.pending recovery.pool.underway

theorem sessionsAt_range (pending : List Entry) (count : Nat) :
    sessionsAt pending (List.range count) = pending.take count := by
  induction count with
  | zero => rfl
  | succ count inductionHypothesis =>
    rw [List.range_succ, sessionsAt, List.filterMap_append, ← sessionsAt, inductionHypothesis,
      List.take_add_one]
    cases there : pending[count]? <;> simp [there]

theorem settle_pool (recovery : Recovery) (ending : Ending) :
    (recovery.settle ending).pool = recovery.pool.finish ending.loop ∧
      (recovery.settle ending).pending = recovery.pending := by
  rw [Recovery.settle]
  split
  next => exact ⟨rfl, rfl⟩
  next idle =>
    refine ⟨?_, rfl⟩
    rw [Pool.finish]
    split
    next item there => exact absurd there (idle item)
    next => rfl

/-- What is reconciled does not depend on what throws. -/
theorem run_pool (recovery : Recovery) (endings : List Ending) :
    (run Recovery.settle recovery endings).pool =
        run Pool.finish recovery.pool (endings.map Ending.loop) ∧
      (run Recovery.settle recovery endings).pending = recovery.pending := by
  induction endings generalizing recovery with
  | nil => exact ⟨rfl, rfl⟩
  | cons ending rest inductionHypothesis =>
    obtain ⟨pool, pending⟩ := settle_pool recovery ending
    obtain ⟨pools, same⟩ := inductionHypothesis (recovery.settle ending)
    rw [run_cons, List.map_cons, run_cons, pools, same, pool, pending]
    exact ⟨rfl, rfl⟩

/-- What a call of `reconcileWorkers` has done, whatever its loops have come to. -/
structure Progressed (pending : List Entry) (recovery : Recovery) : Prop where
  /-- Each session is taken once, in the order of the list. -/
  once : (recovery.reconciled ++ recovery.underway).Perm (pending.take recovery.pool.next)
  bounded : recovery.underway.length ≤ recoveryConcurrency
  /-- Every reconciliation that is under way can end, whether or not it throws. -/
  ends : ∀ entry ∈ recovery.underway, ∃ loop, ∀ threw,
    (recovery.settle ⟨loop, threw⟩).reconciled = recovery.reconciled ++ [entry]
  /-- The call returns when as many reconciliations have ended as there are sessions. -/
  returned : recovery.pool.returned = true ↔ recovery.reconciled.length = pending.length
  whole : recovery.pool.returned = true → recovery.reconciled.Perm pending
  waits : recovery.pool.returned = false → recovery.underway ≠ []

theorem progressed {recovery : Recovery} (counted : recovery.pool.Counted)
    (size : recovery.pool.size = recovery.pending.length)
    (loops : recovery.pool.workers.length = min recoveryConcurrency recovery.pending.length) :
    Progressed recovery.pending recovery := by
  have once : (recovery.reconciled ++ recovery.underway).Perm
      (recovery.pending.take recovery.pool.next) := by
    have sessions := counted.once.filterMap fun position => recovery.pending[position]?
    rw [List.filterMap_append] at sessions
    exact sessions.trans (sessionsAt_range _ _ ▸ List.Perm.refl _)
  have within := counted.within
  have positions := counted.once.length_eq
  have sessions := once.length_eq
  have done : recovery.reconciled.length ≤ recovery.pool.done.length :=
    List.length_filterMap_le _ _
  have held : recovery.underway.length ≤ recovery.pool.underway.length :=
    List.length_filterMap_le _ _
  rw [List.length_append, List.length_range] at positions
  rw [List.length_append, List.length_take] at sessions
  have returned : recovery.pool.returned = true ↔
      recovery.reconciled.length = recovery.pending.length := by
    by_cases staffed : 0 < recovery.pool.workers.length
    · rw [counted.returned_iff staffed]
      omega
    · have none : recovery.pool.workers = [] := List.eq_nil_of_length_eq_zero (by omega)
      refine iff_of_true (by rw [Pool.returned, none]; rfl) ?_
      simp only [recoveryConcurrency] at loops
      omega
  have nothing (ended : recovery.pool.returned = true) : recovery.underway = [] := by
    rw [Recovery.underway, Pool.returned_iff_underway.mp ended]
    rfl
  constructor
  · exact once
  · have most := Pool.underway_length recovery.pool
    omega
  · intro entry inside
    obtain ⟨position, member, there⟩ := List.mem_filterMap.mp inside
    obtain ⟨loop, here, finished⟩ := Pool.underway_worker member
    refine ⟨loop, fun threw => ?_⟩
    obtain ⟨pool, pending⟩ := settle_pool recovery ⟨loop, threw⟩
    rw [Recovery.reconciled, pool, pending, finished, sessionsAt, List.filterMap_append,
      ← sessionsAt, ← Recovery.reconciled]
    simp only [List.filterMap_cons, there, List.filterMap_nil]
  · exact returned
  · intro ended
    have all := returned.mp ended
    have last : recovery.pending.take recovery.pool.next = recovery.pending :=
      List.take_of_length_le (by omega)
    rwa [nothing ended, List.append_nil, last] at once
  · intro waiting empty
    have none : recovery.pool.underway = [] := by
      apply List.eq_nil_of_length_eq_zero
      rw [empty, List.length_nil] at sessions
      omega
    rw [Pool.returned_iff_underway.mpr none] at waiting
    cases waiting

/-- However the reconciliations are interleaved, and whichever of them throw, `reconcileWorkers` has
taken each session that it selects at most once and at most eight at a time, and it returns just
when each of them has been reconciled to its end. -/
theorem reconciled_exactly_once (entries : List Entry) (endings : List Ending) :
    Progressed (entries.filter EvidencedDeletion.reconciled)
      (run Recovery.settle (reconcileWorkers entries) endings) := by
  obtain ⟨pool, pending⟩ := run_pool (reconcileWorkers entries) endings
  have selected : (run Recovery.settle (reconcileWorkers entries) endings).pending =
      entries.filter EvidencedDeletion.reconciled := pending
  have counted := Pool.after_counted (entries.filter EvidencedDeletion.reconciled).length
    (min recoveryConcurrency (entries.filter EvidencedDeletion.reconciled).length)
    (endings.map Ending.loop)
  obtain ⟨loops, size⟩ := Pool.after_workers (entries.filter EvidencedDeletion.reconciled).length
    (min recoveryConcurrency (entries.filter EvidencedDeletion.reconciled).length)
    (endings.map Ending.loop)
  rw [Pool.after] at counted loops size
  rw [← selected]
  apply progressed
  · rw [pool]
    exact counted
  · rw [pool, selected]
    exact size
  · rw [pool, selected]
    exact loops

end OpencodePty.Reconciliations
