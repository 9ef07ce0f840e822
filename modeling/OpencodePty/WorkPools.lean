import Mathlib.Data.List.Range
import OpencodePty.Transitions

/-!
# Pools of workers

Some workers take the items of a list, one after the other, by an index that they share. A worker
that has done its item takes another one, and returns where none is left. However the ends of the
items are interleaved, each item is taken once, in the order of the list, and the workers have all
returned just when all items are done.

An item is known by its position in the list, and a worker by its place among the workers.
-/

namespace OpencodePty.WorkPools

open OpencodePty.Transitions

/-- The workers of a pool, and the items that are left to them. -/
structure Pool where
  /-- The number of items. -/
  size : Nat
  /-- The position of the item that is taken next. -/
  next : Nat
  /-- The item of each worker, or nothing where it has returned. -/
  workers : List (Option Nat)
  /-- The items that are done, the last one at the end. -/
  done : List Nat

namespace Pool

/-- What a worker takes. -/
def offer (pool : Pool) : Option Nat := if pool.next < pool.size then some pool.next else none

/-- The index after a worker has asked for an item. -/
def advanced (pool : Pool) : Nat := if pool.next < pool.size then pool.next + 1 else pool.next

/-- A worker begins. -/
def enter (pool : Pool) : Pool :=
  { pool with next := pool.advanced, workers := pool.workers ++ [pool.offer] }

/-- A worker is done with its item. -/
def finish (pool : Pool) (worker : Nat) : Pool :=
  match pool.workers[worker]? with
  | some (some item) =>
    { pool with
      next := pool.advanced, workers := pool.workers.set worker pool.offer
      done := pool.done ++ [item] }
  | _ => pool

/-- The items that the workers have. -/
def underway (pool : Pool) : List Nat := pool.workers.filterMap id

/-- No worker has an item any more. -/
def returned (pool : Pool) : Bool := pool.workers.all Option.isNone

/-- A pool of so many workers, which have all begun. -/
def start (size : Nat) : Nat → Pool
  | 0 => ⟨size, 0, [], []⟩
  | workers + 1 => (start size workers).enter

/-- The items before the index are done or underway, each of them once, and a worker has returned
only where the index is at the end. -/
structure Counted (pool : Pool) : Prop where
  within : pool.next ≤ pool.size
  once : (pool.done ++ pool.underway).Perm (List.range pool.next)
  exhausted : none ∈ pool.workers → pool.next = pool.size

variable {pool : Pool}

/-- No more items are handed out than there are. -/
theorem advanced_le (within : pool.next ≤ pool.size) : pool.advanced ≤ pool.size := by
  rw [advanced]
  split <;> omega

/-- What is offered comes behind the items that were taken. -/
theorem range_advanced : List.range pool.advanced = List.range pool.next ++ pool.offer.toList := by
  rw [advanced, offer]
  split
  · exact List.range_succ
  · simp

/-- Where nothing is offered all items are handed out. -/
theorem offer_none (within : pool.next ≤ pool.size) (nothing : pool.offer = none) :
    pool.advanced = pool.size := by
  rw [offer] at nothing
  rw [advanced]
  split at nothing
  · cases nothing
  next spent =>
    rw [if_neg spent]
    omega

/-- A worker has its item, or none. -/
theorem filterMap_singleton (item : Option Nat) : [item].filterMap id = item.toList := by
  cases item <;> rfl

/-- A worker that takes an item keeps the count. -/
theorem Counted.enter (counted : Counted pool) : Counted pool.enter where
  within := advanced_le counted.within
  once := by
    change (pool.done ++ (pool.workers ++ [pool.offer]).filterMap id).Perm (List.range pool.advanced)
    rw [List.filterMap_append, filterMap_singleton, ← List.append_assoc, range_advanced]
    exact counted.once.append_right _
  exhausted := by
    intro some
    rcases List.mem_append.mp some with earlier | last
    · have spent := counted.exhausted earlier
      change pool.advanced = pool.size
      rw [advanced, if_neg (by omega), spent]
    · exact offer_none counted.within (List.mem_singleton.mp last).symm

/-- A worker that is done gives its item up for what it is offered. -/
theorem finish_cases (pool : Pool) (worker : Nat) :
    pool.finish worker = pool ∨
      ∃ before item after, pool.workers = before ++ some item :: after ∧
        pool.finish worker =
          ⟨pool.size, pool.advanced, before ++ pool.offer :: after, pool.done ++ [item]⟩ := by
  rw [finish]
  split
  next item there =>
    obtain ⟨inside, same⟩ := List.getElem?_eq_some_iff.mp there
    obtain ⟨before, after, split, _, replaced⟩ :=
      @List.exists_of_set _ worker pool.offer pool.workers inside
    exact .inr ⟨before, item, after, same ▸ split, by rw [replaced]⟩
  next => exact .inl rfl

/-- A worker that ends with an item keeps the count. -/
theorem Counted.finish (counted : Counted pool) (worker : Nat) : Counted (pool.finish worker) := by
  rcases finish_cases pool worker with same | ⟨before, item, after, split, finished⟩
  · rwa [same]
  · rw [finished]
    constructor
    · exact advanced_le counted.within
    · have once := counted.once
      change (pool.done ++ [item] ++ (before ++ pool.offer :: after).filterMap id).Perm
        (List.range pool.advanced)
      rw [underway, split] at once
      rw [range_advanced]
      refine List.Perm.trans ?_ (once.append_right pool.offer.toList)
      rw [List.perm_iff_count]
      intro other
      cases pool.offer <;>
        simp only [List.filterMap_append, List.filterMap_cons, id_eq, List.count_append,
          List.count_cons, List.count_nil, Option.toList_none, Option.toList_some] <;>
        omega
    · intro idle
      change pool.advanced = pool.size
      have old : none ∈ pool.workers ∨ pool.offer = none := by
        rw [split]
        simp only [List.mem_append, List.mem_cons, reduceCtorEq, false_or] at idle ⊢
        rcases idle with earlier | same | later
        · exact .inl (.inl earlier)
        · exact .inr same.symm
        · exact .inl (.inr later)
      rcases old with earlier | nothing
      · have spent := counted.exhausted earlier
        rw [advanced, if_neg (by omega), spent]
      · exact offer_none counted.within nothing

/-- At the start the count is right. -/
theorem start_counted (size workers : Nat) : Counted (start size workers) := by
  induction workers with
  | zero => exact ⟨Nat.zero_le _, List.Perm.refl _, by simp [start]⟩
  | succ workers inductionHypothesis => exact inductionHypothesis.enter

/-- A number of workers stays what it is. -/
theorem finish_workers (pool : Pool) (worker : Nat) :
    (pool.finish worker).workers.length = pool.workers.length ∧
      (pool.finish worker).size = pool.size := by
  rw [finish]
  split
  · exact ⟨List.length_set, rfl⟩
  · exact ⟨rfl, rfl⟩

/-- The pool starts with its workers and its items. -/
theorem start_workers (size workers : Nat) :
    (start size workers).workers.length = workers ∧ (start size workers).size = size := by
  induction workers with
  | zero => exact ⟨rfl, rfl⟩
  | succ workers inductionHypothesis =>
    refine ⟨?_, inductionHypothesis.2⟩
    change ((start size workers).workers ++ [(start size workers).offer]).length = workers + 1
    rw [List.length_append, inductionHypothesis.1, List.length_singleton]

/-! ## Runs -/

/-- The pool after the ends of some items. -/
def after (size workers : Nat) (ends : List Nat) : Pool := run finish (start size workers) ends

/-- The count is right after any ends. -/
theorem after_counted (size workers : Nat) (ends : List Nat) : Counted (after size workers ends) :=
  run_preserves (fun _ worker counted => counted.finish worker) _ ends (start_counted size workers)

/-- The workers and the items stay the same. -/
theorem after_workers (size workers : Nat) (ends : List Nat) :
    (after size workers ends).workers.length = workers ∧ (after size workers ends).size = size := by
  refine @run_preserves _ _ finish
    (fun pool => pool.workers.length = workers ∧ pool.size = size) ?_ _ ends
    (start_workers size workers)
  intro pool worker same
  rw [(finish_workers pool worker).1, (finish_workers pool worker).2]
  exact same

/-- No more items are under way than there are workers. -/
theorem underway_length (pool : Pool) : pool.underway.length ≤ pool.workers.length :=
  List.length_filterMap_le _ _

/-- An item that is underway is one of a worker, which can be done with it. -/
theorem underway_worker {item : Nat} (inside : item ∈ pool.underway) :
    ∃ worker : Nat, pool.workers[worker]? = some (some item) ∧
      (pool.finish worker).done = pool.done ++ [item] := by
  obtain ⟨found, member, same⟩ := List.mem_filterMap.mp inside
  obtain ⟨worker, there⟩ := List.getElem?_of_mem member
  have here : pool.workers[worker]? = some (some item) := there.trans (congrArg some same)
  refine ⟨worker, here, ?_⟩
  rw [finish, here]

/-- The pool has returned where no item is under way. -/
theorem returned_iff_underway : pool.returned = true ↔ pool.underway = [] := by
  rw [returned, underway, List.all_eq_true, List.filterMap_eq_nil_iff]
  simp

/-- With at least one worker, all workers have returned just when all items are done. -/
theorem Counted.returned_iff (counted : Counted pool) (staffed : 0 < pool.workers.length) :
    pool.returned = true ↔ pool.done.length = pool.size := by
  have lengths := counted.once.length_eq
  rw [List.length_append, List.length_range] at lengths
  have within := counted.within
  rw [returned_iff_underway]
  constructor
  · intro nothing
    obtain ⟨worker, there⟩ := List.exists_mem_of_length_pos staffed
    have idle : worker = none := by
      have all := List.all_eq_true.mp (returned_iff_underway.mpr nothing) worker there
      exact Option.isNone_iff_eq_none.mp all
    have spent := counted.exhausted (idle ▸ there)
    rw [nothing, List.length_nil] at lengths
    omega
  · intro whole
    exact List.eq_nil_of_length_eq_zero (by omega)

end Pool

end OpencodePty.WorkPools
