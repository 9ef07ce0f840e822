import Mathlib.Logic.Function.Basic

/-!
# Budgets for windows of time

Whoever uses something up has a budget for a window of time. The window begins with a use,
and the first use after its end begins another one. A use that exceeds what is left of the
budget is refused and changes nothing.

The budget binds within a window. Two windows at most reach into a span as long as a window, so
that no more than twice the budget is used up in any such span. The uses under one key are
admitted as if there were no others.
-/

namespace OpencodePty.FixedWindows

universe u
variable {κ : Type u} [DecidableEq κ]

structure Limit where
  length : Int
  budget : Nat

structure Window where
  startedAt : Int
  used : Nat
  deriving DecidableEq

/-- An amount that is to be used up under a key at some time. -/
structure Use (κ : Type u) where
  key : κ
  amount : Nat
  now : Int

abbrev Windows (κ : Type u) := κ → Option Window

namespace Limit

variable (limit : Limit)

/-- The window that a use falls into: a new one where there is none or it is over. -/
def current (window : Option Window) (now : Int) : Window :=
  match window with
  | none => ⟨now, 0⟩
  | some window => if limit.length ≤ now - window.startedAt then ⟨now, 0⟩ else window

def admits (windows : Windows κ) (use : Use κ) : Bool :=
  (limit.current (windows use.key) use.now).used + use.amount ≤ limit.budget

def spend (windows : Windows κ) (use : Use κ) : Windows κ :=
  let window := limit.current (windows use.key) use.now
  Function.update windows use.key (some { window with used := window.used + use.amount })

/-- The uses that are admitted, one after the other. -/
def admitted (windows : Windows κ) : List (Use κ) → List (Use κ)
  | [] => []
  | use :: rest =>
    if limit.admits windows use then use :: admitted (limit.spend windows use) rest
    else admitted windows rest

/-- The windows after some uses. -/
def after (windows : Windows κ) : List (Use κ) → Windows κ
  | [] => windows
  | use :: rest =>
    if limit.admits windows use then after (limit.spend windows use) rest else after windows rest

end Limit

/-- What the uses that count amount to. -/
def spent (counts : Use κ → Bool) : List (Use κ) → Nat
  | [] => 0
  | use :: rest => (if counts use then use.amount else 0) + spent counts rest

/-- A use under a key in a span of time. -/
def within (key : κ) (start stop : Int) (use : Use κ) : Bool :=
  use.key = key && start ≤ use.now && use.now < stop

/-- Time does not go back. -/
def Ordered (uses : List (Use κ)) : Prop := uses.Pairwise fun first second => first.now ≤ second.now

section
variable {limit : Limit} {windows : Windows κ} {key : κ}

theorem spend_self (windows : Windows κ) (use : Use κ) :
    limit.spend windows use use.key =
      some ⟨(limit.current (windows use.key) use.now).startedAt,
        (limit.current (windows use.key) use.now).used + use.amount⟩ := by
  simp [Limit.spend]

theorem spend_other (windows : Windows κ) {use : Use κ} (different : key ≠ use.key) :
    limit.spend windows use key = windows key := by
  simp [Limit.spend, different]

theorem within_key {use : Use κ} {start stop : Int} (different : key ≠ use.key) :
    within key start stop use = false := by
  simp [within, different.symm]

/-- A use under another key neither counts nor changes the window. -/
theorem spent_skip (limit : Limit) (windows : Windows κ) {use : Use κ}
    (different : key ≠ use.key) (start stop : Int) (rest : List (Use κ)) :
    ∃ after : Windows κ, after key = windows key ∧
      spent (within key start stop) (limit.admitted windows (use :: rest)) =
        spent (within key start stop) (limit.admitted after rest) := by
  rw [Limit.admitted]
  split
  · refine ⟨limit.spend windows use, spend_other windows different, ?_⟩
    simp [spent, within_key different]
  · exact ⟨windows, rfl, rfl⟩

/-- Uses from the end of a span on do not count. -/
theorem spent_late {start stop : Int} {uses : List (Use κ)}
    (late : ∀ use ∈ uses, stop ≤ use.now) :
    spent (within key start stop) (limit.admitted windows uses) = 0 := by
  induction uses generalizing windows with
  | nil => rfl
  | cons use rest inductionHypothesis =>
    have after : ∀ use ∈ rest, stop ≤ use.now := fun use inside =>
      late use (List.mem_cons_of_mem _ inside)
    have out : within key start stop use = false := by
      have behind := late use List.mem_cons_self
      simp only [within, Bool.and_eq_false_iff, decide_eq_false_iff_not]
      omega
    rw [Limit.admitted]
    split
    · simp [spent, out, inductionHypothesis after]
    · exact inductionHypothesis after

/-- From a window on that began in a span, what is left of its budget binds to the end of the
span. -/
theorem spent_begun {start : Int} {window : Window} {uses : List (Use κ)} (ordered : Ordered uses)
    (here : windows key = some window) (begun : start ≤ window.startedAt) :
    spent (within key start (start + limit.length)) (limit.admitted windows uses) ≤
      limit.budget - window.used := by
  induction uses generalizing windows window with
  | nil => exact Nat.zero_le _
  | cons use rest inductionHypothesis =>
    obtain ⟨first, rest'⟩ := List.pairwise_cons.mp ordered
    by_cases mine : key = use.key
    · by_cases elapsed : limit.length ≤ use.now - window.startedAt
      · -- The window is over, and with it the span.
        rw [spent_late]
        · exact Nat.zero_le _
        · intro later inside
          rcases List.mem_cons.mp inside with rfl | behind
          · omega
          · have := first later behind
            omega
      · have same : limit.current (windows use.key) use.now = window := by
          rw [← mine, here]
          simp [Limit.current, elapsed]
        rw [Limit.admitted]
        split
        next admits =>
          have fits : window.used + use.amount ≤ limit.budget := by
            simpa [Limit.admits, same] using admits
          have next : limit.spend windows use key =
              some ⟨window.startedAt, window.used + use.amount⟩ := by
            rw [mine, spend_self, same]
          have later := inductionHypothesis rest' next begun
          simp only [spent]
          split
          · dsimp only at later
            omega
          · dsimp only at later
            omega
        next => exact inductionHypothesis rest' here begun
    · obtain ⟨after, unchanged, equal⟩ :=
        spent_skip limit windows mine start (start + limit.length) rest
      rw [equal]
      exact inductionHypothesis rest' (unchanged.trans here) begun

/-- A use that is admitted into a new window. -/
theorem spend_fresh {use : Use κ} (fresh : limit.current (windows use.key) use.now = ⟨use.now, 0⟩) :
    limit.spend windows use use.key = some ⟨use.now, use.amount⟩ := by
  rw [spend_self, fresh, Nat.zero_add]

/-- What is used up of the budget of the last window. -/
def usedUp (windows : Windows κ) (key : κ) : Nat := (windows key).elim 0 Window.used

/-- A use falls into a new window or into the last one. -/
theorem current_cases (limit : Limit) (window : Option Window) (now : Int) :
    limit.current window now = ⟨now, 0⟩ ∨ window = some (limit.current window now) := by
  cases window with
  | none => exact .inl rfl
  | some window =>
    simp only [Limit.current]
    split
    · exact .inl rfl
    · exact .inr rfl

/-- From the start of a span on, the last window and the next one bind. -/
theorem spent_open {start : Int} {uses : List (Use κ)} (ordered : Ordered uses)
    (after : ∀ use ∈ uses, start ≤ use.now) :
    spent (within key start (start + limit.length)) (limit.admitted windows uses) ≤
      (limit.budget - usedUp windows key) + limit.budget := by
  induction uses generalizing windows with
  | nil => exact Nat.zero_le _
  | cons use rest inductionHypothesis =>
    obtain ⟨_, rest'⟩ := List.pairwise_cons.mp ordered
    have behind : ∀ use ∈ rest, start ≤ use.now := fun use inside =>
      after use (List.mem_cons_of_mem _ inside)
    by_cases mine : key = use.key
    · rw [Limit.admitted]
      split
      next admits =>
        simp only [Limit.admits, decide_eq_true_eq] at admits
        rcases current_cases limit (windows use.key) use.now with fresh | last
        · have next : limit.spend windows use key = some ⟨use.now, use.amount⟩ := by
            rw [mine, spend_fresh fresh]
          have later := @spent_begun κ _ limit _ key start _ rest rest' next
            (after use List.mem_cons_self)
          rw [fresh] at admits
          dsimp only at admits later
          simp only [spent]
          split <;> omega
        · have before : usedUp windows key = (limit.current (windows use.key) use.now).used := by
            rw [usedUp, mine]
            exact congrArg (fun window => window.elim 0 Window.used) last
          have next : usedUp (limit.spend windows use) key =
              (limit.current (windows use.key) use.now).used + use.amount := by
            rw [usedUp, mine, spend_self]
            rfl
          have later := @inductionHypothesis (limit.spend windows use) rest' behind
          simp only [spent]
          split <;> omega
      next => exact inductionHypothesis rest' behind
    · obtain ⟨next, unchanged, equal⟩ :=
        spent_skip limit windows mine start (start + limit.length) rest
      have same : usedUp next key = usedUp windows key := by rw [usedUp, usedUp, unchanged]
      rw [equal, ← same]
      exact inductionHypothesis rest' behind

/-- Under a key, no more than twice the budget is used up in any span as long as a window. -/
theorem spent_within (limit : Limit) (windows : Windows κ) {uses : List (Use κ)}
    (ordered : Ordered uses) (key : κ) (start : Int) :
    spent (within key start (start + limit.length)) (limit.admitted windows uses) ≤
      2 * limit.budget := by
  induction uses generalizing windows with
  | nil => exact Nat.zero_le _
  | cons use rest inductionHypothesis =>
    obtain ⟨first, rest'⟩ := List.pairwise_cons.mp ordered
    by_cases early : use.now < start
    · have out : within key start (start + limit.length) use = false := by
        simp only [within, Bool.and_eq_false_iff, decide_eq_false_iff_not]
        omega
      rw [Limit.admitted]
      split
      · simp only [spent, out, Bool.false_eq_true, if_false, Nat.zero_add]
        exact inductionHypothesis _ rest'
      · exact inductionHypothesis _ rest'
    · have after : ∀ later ∈ use :: rest, start ≤ later.now := by
        intro later inside
        rcases List.mem_cons.mp inside with rfl | behind
        · omega
        · have := first later behind
          omega
      have bound := @spent_open κ _ limit windows key start _ ordered after
      omega

theorem admitted_append (limit : Limit) (windows : Windows κ) (first second : List (Use κ)) :
    limit.admitted windows (first ++ second) =
      limit.admitted windows first ++ limit.admitted (limit.after windows first) second := by
  induction first generalizing windows with
  | nil => rfl
  | cons use rest inductionHypothesis =>
    simp only [List.cons_append, Limit.admitted, Limit.after]
    split
    · rw [inductionHypothesis, List.cons_append]
    · exact inductionHypothesis windows

theorem after_append (limit : Limit) (windows : Windows κ) (first second : List (Use κ)) :
    limit.after windows (first ++ second) = limit.after (limit.after windows first) second := by
  induction first generalizing windows with
  | nil => rfl
  | cons use rest inductionHypothesis =>
    simp only [List.cons_append, Limit.after]
    split
    · exact inductionHypothesis _
    · exact inductionHypothesis windows

omit [DecidableEq κ] in
theorem spent_append (counts : Use κ → Bool) (first second : List (Use κ)) :
    spent counts (first ++ second) = spent counts first + spent counts second := by
  induction first with
  | nil => simp [spent]
  | cons use rest inductionHypothesis => simp only [List.cons_append, spent, inductionHypothesis,
      Nat.add_assoc]

end

end OpencodePty.FixedWindows
