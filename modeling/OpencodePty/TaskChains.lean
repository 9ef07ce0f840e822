import Mathlib.Data.List.Basic

/-!
# Chains of tasks

A chain runs tasks in the order in which they were added, each after the one before it has
finished, whatever came of that one. Whoever awaits the chain awaits the task that was added
last at that moment, and learns what came of that task alone. An empty chain is awaited without
effect.
-/

namespace OpencodePty.TaskChains

universe u
variable {τ : Type u}

/-- What has come of a task. -/
inductive Outcome where
  | queued
  | fulfilled
  | rejected
  deriving DecidableEq

structure Entry (τ : Type u) where
  task : τ
  outcome : Outcome

/-- The tasks in the order in which they were added. -/
abbrev Chain (τ : Type u) := List (Entry τ)

/-- What came of a task that finished. -/
def Outcome.of : Bool → Outcome
  | true => fulfilled
  | false => rejected

theorem Outcome.of_ne_queued (fulfilled : Bool) : Outcome.of fulfilled ≠ .queued := by
  cases fulfilled <;> decide

def enqueue (chain : Chain τ) (task : τ) : Chain τ := chain ++ [⟨task, .queued⟩]

/-- The task whose turn it is. -/
def current (chain : Chain τ) : Option τ :=
  (chain.find? fun entry => entry.outcome = .queued).map Entry.task

/-- The task whose turn it is finishes. -/
def settle (fulfilled : Bool) : Chain τ → Chain τ
  | [] => []
  | entry :: rest =>
    if entry.outcome = .queued then { entry with outcome := .of fulfilled } :: rest
    else entry :: settle fulfilled rest

/-- What whoever awaited the chain learns, where it had the given number of tasks then. -/
def awaited (chain : Chain τ) : Nat → Outcome
  | 0 => .fulfilled
  | position + 1 => (chain[position]?.map Entry.outcome).getD .queued

/-- Every task has finished. -/
def Idle (chain : Chain τ) : Prop := ∀ entry ∈ chain, entry.outcome ≠ .queued

/-- The task that finishes is the first one that has not, and no other one changes. -/
theorem settle_cases (fulfilled : Bool) (chain : Chain τ) :
    (Idle chain ∧ settle fulfilled chain = chain) ∨
    ∃ before task after, chain = before ++ ⟨task, .queued⟩ :: after ∧ Idle before ∧
      current chain = some task ∧
      settle fulfilled chain = before ++ ⟨task, .of fulfilled⟩ :: after := by
  induction chain with
  | nil => exact .inl ⟨by simp [Idle], rfl⟩
  | cons entry rest inductionHypothesis =>
    obtain ⟨task, outcome⟩ := entry
    by_cases turn : outcome = .queued
    · subst turn
      exact .inr ⟨[], task, rest, rfl, by simp [Idle], rfl, rfl⟩
    · have unsettled : settle fulfilled (⟨task, outcome⟩ :: rest) =
          ⟨task, outcome⟩ :: settle fulfilled rest := by
        simp [settle, turn]
      rw [unsettled]
      rcases inductionHypothesis with ⟨idle, same⟩ | ⟨before, next, after, rfl, idle, first, same⟩
      · refine .inl ⟨?_, by rw [same]⟩
        simp only [Idle, List.forall_mem_cons]
        exact ⟨turn, idle⟩
      · refine .inr ⟨⟨task, outcome⟩ :: before, next, after, rfl, ?_, ?_, by rw [same]; rfl⟩
        · simp only [Idle, List.forall_mem_cons]
          exact ⟨turn, idle⟩
        · simpa [current, turn] using first

theorem length_settle (fulfilled : Bool) (chain : Chain τ) :
    (settle fulfilled chain).length = chain.length := by
  obtain ⟨_, same⟩ | ⟨before, task, after, rfl, _, _, same⟩ := settle_cases fulfilled chain <;>
    simp [same]

/-- What is awaited does not change when another task is added. -/
theorem awaited_enqueue (chain : Chain τ) (task : τ) {position : Nat}
    (added : position ≤ chain.length) :
    awaited (enqueue chain task) position = awaited chain position := by
  cases position with
  | zero => rfl
  | succ position =>
    simp only [awaited, enqueue]
    rw [List.getElem?_append_left (by omega)]

/-- What is awaited is not known before, or does not change, when a task finishes. -/
theorem awaited_settle (fulfilled : Bool) (chain : Chain τ) (position : Nat) :
    awaited (settle fulfilled chain) position = awaited chain position ∨
    ∃ task, chain[position - 1]? = some ⟨task, .queued⟩ ∧ current chain = some task ∧
      awaited (settle fulfilled chain) position = .of fulfilled := by
  cases position with
  | zero => exact .inl rfl
  | succ position =>
    rcases settle_cases fulfilled chain with ⟨_, same⟩ | ⟨before, task, after, rfl, _, turn, same⟩
    · rw [same]
      exact .inl rfl
    · rw [same]
      simp only [awaited, Nat.add_sub_cancel]
      rcases Nat.lt_trichotomy position before.length with earlier | here | later
      · left
        rw [List.getElem?_append_left earlier, List.getElem?_append_left earlier]
      · right
        subst here
        exact ⟨task, by simp, turn, by simp⟩
      · left
        obtain ⟨offset, rfl⟩ : ∃ offset, position = before.length + (offset + 1) :=
          ⟨position - before.length - 1, by omega⟩
        simp [List.getElem?_append_right]

/-- The tasks of a chain are not changed when one of them finishes. -/
theorem tasks_settle (fulfilled : Bool) (chain : Chain τ) :
    (settle fulfilled chain).map Entry.task = chain.map Entry.task := by
  obtain ⟨_, same⟩ | ⟨before, task, after, rfl, _, _, same⟩ := settle_cases fulfilled chain <;>
    simp [same]

end OpencodePty.TaskChains
