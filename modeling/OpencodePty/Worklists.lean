import Mathlib.Logic.Relation
import Mathlib.Data.List.Basic

/-!
# Closures by a worklist

What can be reached from a start over a list of edges, found by one list that is both the
result and the work: an index walks along it, and the targets of the edges from the element
at the index are added at its end, unless they are there already. The loop takes fuel. One
more than the number of edges is enough of it, since every edge adds its target at most
once.
-/

namespace OpencodePty.Worklists

universe u
variable {α : Type u} [DecidableEq α]

/-- There is an edge from the first element to the second. -/
def Edge (edges : List (α × α)) (source target : α) : Prop := (source, target) ∈ edges

/-- The targets of the edges from an element that were not seen before. -/
def fresh (edges : List (α × α)) (source : α) (seen : List α) : List α :=
  (edges.filter fun edge => edge.1 == source && !seen.contains edge.2).map Prod.snd

/-- The loop over the list that grows. -/
def grow (edges : List (α × α)) : Nat → Nat → List α → List α
  | 0, _, seen => seen
  | fuel + 1, index, seen =>
    match seen[index]? with
    | none => seen
    | some source => grow edges fuel (index + 1) (seen ++ fresh edges source seen)

/-- All that is reached from a start. -/
def closure (edges : List (α × α)) (start : α) : List α :=
  grow edges (edges.length + 1) 0 [start]

/-- The number of edges whose targets are still to come. -/
def unseen (edges : List (α × α)) (seen : List α) : Nat :=
  (edges.filter fun edge => !seen.contains edge.2).length

theorem mem_fresh {edges : List (α × α)} {source target : α} {seen : List α} :
    target ∈ fresh edges source seen ↔ Edge edges source target ∧ target ∉ seen := by
  simp only [fresh, List.mem_map, List.mem_filter, Bool.and_eq_true, beq_iff_eq,
    Bool.not_eq_true', List.contains_eq_mem, decide_eq_false_iff_not, Prod.exists, Edge]
  constructor
  · rintro ⟨_, _, ⟨listed, rfl, absent⟩, rfl⟩
    exact ⟨listed, absent⟩
  · rintro ⟨listed, absent⟩
    exact ⟨source, target, ⟨listed, rfl, absent⟩, rfl⟩

/-- Targets that are added are no longer to come. -/
theorem unseen_append_fresh (edges : List (α × α)) (source : α) (seen : List α) :
    unseen edges (seen ++ fresh edges source seen) + (fresh edges source seen).length ≤
      unseen edges seen := by
  -- An edge that is to come afterwards was so before, and did not start at the source.
  have later (edge : α × α) (inside : edge ∈ edges)
      (still : (!(seen ++ fresh edges source seen).contains edge.2) = true) :
      (!seen.contains edge.2) = true ∧ (edge.1 == source) = false := by
    simp only [List.contains_eq_mem, Bool.not_eq_true', decide_eq_false_iff_not,
      List.mem_append, not_or] at still ⊢
    refine ⟨still.1, beq_eq_false_iff_ne.mpr ?_⟩
    rintro rfl
    exact still.2 (mem_fresh.mpr ⟨inside, still.1⟩)
  simp only [unseen, fresh, List.length_map, ← List.countP_eq_length_filter] at later ⊢
  have split : edges.countP (fun edge => !seen.contains edge.2) =
      edges.countP (fun edge => edge.1 == source && !seen.contains edge.2) +
        edges.countP (fun edge => !(edge.1 == source) && !seen.contains edge.2) := by
    clear later
    induction edges with
    | nil => rfl
    | cons edge rest inductionHypothesis =>
      simp only [List.countP_cons, inductionHypothesis]
      cases edge.1 == source <;> cases seen.contains edge.2 <;> simp <;> omega
  have fewer := List.countP_mono_left (l := edges)
    (p := fun edge => !(seen ++ fresh edges source seen).contains edge.2)
    (q := fun edge => !(edge.1 == source) && !seen.contains edge.2)
    fun edge inside still => by
      obtain ⟨before, other⟩ := later edge inside still
      simp only [before, other, Bool.not_false, Bool.and_self]
  simp only [fresh] at fewer
  omega

/-- The elements before the index have all their targets in the list. -/
def Explored (edges : List (α × α)) (index : Nat) (seen : List α) : Prop :=
  ∀ position source target, position < index → seen[position]? = some source →
    Edge edges source target → target ∈ seen

theorem explored_step {edges : List (α × α)} {index : Nat} {seen : List α} {source : α}
    (explored : Explored edges index seen) (current : seen[index]? = some source) :
    Explored edges (index + 1) (seen ++ fresh edges source seen) := by
  have inside : index < seen.length := (List.getElem?_eq_some_iff.mp current).1
  intro position parent target before found edge
  rw [List.getElem?_append_left (by omega)] at found
  rw [List.mem_append]
  by_cases latest : position = index
  · subst latest
    have same : parent = source := Option.some.inj (found.symm.trans current)
    subst same
    by_cases known : target ∈ seen
    · exact Or.inl known
    · exact Or.inr (mem_fresh.mpr ⟨edge, known⟩)
  · exact Or.inl (explored position parent target (by omega) found edge)

/-- With enough fuel the list that is returned has all targets of its elements. -/
theorem grow_closed (edges : List (α × α)) (fuel index : Nat) (seen : List α)
    (enough : seen.length - index + unseen edges seen ≤ fuel)
    (explored : Explored edges index seen) {source target : α}
    (member : source ∈ grow edges fuel index seen) (edge : Edge edges source target) :
    target ∈ grow edges fuel index seen := by
  induction fuel generalizing index seen with
  | zero =>
    obtain ⟨position, found⟩ := List.getElem?_of_mem member
    have inside : position < seen.length := (List.getElem?_eq_some_iff.mp found).1
    exact explored position source target (by omega) found edge
  | succ fuel inductionHypothesis =>
    rw [grow] at member ⊢
    cases current : seen[index]? with
    | none =>
      rw [current] at member
      obtain ⟨position, found⟩ := List.getElem?_of_mem member
      have inside : position < seen.length := (List.getElem?_eq_some_iff.mp found).1
      have outside : seen.length ≤ index := List.getElem?_eq_none_iff.mp current
      exact explored position source target (by omega) found edge
    | some parent =>
      rw [current] at member
      have inside : index < seen.length := (List.getElem?_eq_some_iff.mp current).1
      have fewer := unseen_append_fresh edges parent seen
      refine inductionHypothesis (index + 1) _ ?_ (explored_step explored current) member
      rw [List.length_append]
      omega

theorem mem_grow_of_mem (edges : List (α × α)) (fuel index : Nat) (seen : List α) {element : α}
    (member : element ∈ seen) : element ∈ grow edges fuel index seen := by
  induction fuel generalizing index seen with
  | zero => exact member
  | succ fuel inductionHypothesis =>
    rw [grow]
    cases seen[index]? with
    | none => exact member
    | some source => exact inductionHypothesis _ _ (List.mem_append_left _ member)

/-- Nothing is added that cannot be reached. -/
theorem grow_reached (edges : List (α × α)) (start : α) (fuel index : Nat) (seen : List α)
    (reached : ∀ element ∈ seen, Relation.ReflTransGen (Edge edges) start element)
    {element : α} (member : element ∈ grow edges fuel index seen) :
    Relation.ReflTransGen (Edge edges) start element := by
  induction fuel generalizing index seen with
  | zero => exact reached element member
  | succ fuel inductionHypothesis =>
    rw [grow] at member
    cases current : seen[index]? with
    | none =>
      rw [current] at member
      exact reached element member
    | some source =>
      rw [current] at member
      refine inductionHypothesis _ _ (fun added inside => ?_) member
      rcases List.mem_append.mp inside with old | new
      · exact reached added old
      · exact (reached source (List.mem_of_getElem? current)).tail (mem_fresh.mp new).1

/-- The closure is what can be reached over the edges. -/
theorem mem_closure_reaches {edges : List (α × α)} {start element : α} :
    element ∈ closure edges start ↔ Relation.ReflTransGen (Edge edges) start element := by
  constructor
  · apply grow_reached
    intro first single
    rw [List.mem_singleton.mp single]
  · intro path
    have enough : [start].length - 0 + unseen edges [start] ≤ edges.length + 1 := by
      have few : unseen edges [start] ≤ edges.length := List.length_filter_le _ _
      simp only [List.length_singleton]
      omega
    have explored : Explored edges 0 [start] :=
      fun position _ _ before => absurd before (Nat.not_lt_zero position)
    induction path with
    | refl => exact mem_grow_of_mem _ _ _ _ (List.mem_singleton_self start)
    | tail _ edge inductionHypothesis =>
      exact grow_closed edges _ 0 [start] enough explored inductionHypothesis edge

/-! ## The turns of the loop -/

/-- One turn: the element at the index is explored. The loop ends with the index at the end
of the list. -/
def turn (edges : List (α × α)) (state : Nat × List α) : Option (Nat × List α) :=
  state.2[state.1]?.map fun source => (state.1 + 1, state.2 ++ fresh edges source state.2)

/-- What is left to do: the elements behind the index, and the edges with targets to come. -/
def work (edges : List (α × α)) (state : Nat × List α) : Nat :=
  state.2.length - state.1 + unseen edges state.2

theorem turn_some {edges : List (α × α)} {state after : Nat × List α}
    (turned : turn edges state = some after) :
    ∃ source, state.2[state.1]? = some source ∧
      after = (state.1 + 1, state.2 ++ fresh edges source state.2) := by
  obtain ⟨source, current, rfl⟩ := Option.map_eq_some_iff.mp turned
  exact ⟨source, current, rfl⟩

theorem work_turn {edges : List (α × α)} {state after : Nat × List α}
    (turned : turn edges state = some after) : work edges after < work edges state := by
  obtain ⟨source, current, rfl⟩ := turn_some turned
  have inside : state.1 < state.2.length := (List.getElem?_eq_some_iff.mp current).1
  have fewer := unseen_append_fresh edges source state.2
  simp only [work, List.length_append]
  omega

/-- The loop cannot turn for ever, wherever it starts. -/
theorem turns_terminate (edges : List (α × α)) :
    WellFounded fun after state : Nat × List α => turn edges state = some after := by
  apply Subrelation.wf (r := InvImage (· < ·) (work edges))
  · intro after state turned
    exact work_turn turned
  · exact InvImage.wf _ Nat.lt_wfRel.wf

/-- With enough fuel the turns lead to the list that is returned, and end there. -/
theorem turns_grow (edges : List (α × α)) (fuel index : Nat) (seen : List α)
    (enough : work edges (index, seen) ≤ fuel) (inside : index ≤ seen.length) :
    Relation.ReflTransGen (fun state after => turn edges state = some after) (index, seen)
      ((grow edges fuel index seen).length, grow edges fuel index seen) := by
  induction fuel generalizing index seen with
  | zero =>
    have last : index = seen.length := by
      simp only [work] at enough
      omega
    rw [grow, last]
  | succ fuel inductionHypothesis =>
    rw [grow]
    cases current : seen[index]? with
    | none =>
      have outside : seen.length ≤ index := List.getElem?_eq_none_iff.mp current
      have last : index = seen.length := Nat.le_antisymm inside outside
      rw [last]
    | some source =>
      have turned : turn edges (index, seen) =
          some (index + 1, seen ++ fresh edges source seen) := by
        rw [turn, current, Option.map_some]
      have less := work_turn turned
      have before : index < seen.length := (List.getElem?_eq_some_iff.mp current).1
      have later := inductionHypothesis (index + 1) (seen ++ fresh edges source seen) (by omega)
        (by
          rw [List.length_append]
          omega)
      exact later.head turned

theorem turn_end (edges : List (α × α)) (seen : List α) :
    turn edges (seen.length, seen) = none := by
  simp [turn]

/-- The loop from a start ends with the closure. -/
theorem turns_closure (edges : List (α × α)) (start : α) :
    Relation.ReflTransGen (fun state after => turn edges state = some after) (0, [start])
      ((closure edges start).length, closure edges start) := by
  apply turns_grow
  · have few : unseen edges [start] ≤ edges.length := List.length_filter_le _ _
    simp only [work, List.length_singleton]
    omega
  · exact Nat.zero_le _

/-- A loop that has ended does not go on. -/
theorem ended_stays {edges : List (α × α)} {final after : Nat × List α}
    (ended : turn edges final = none)
    (path : Relation.ReflTransGen (fun state after => turn edges state = some after) final after) :
    after = final := by
  cases path.cases_head with
  | inl same => exact same.symm
  | inr later =>
    obtain ⟨next, turned, _⟩ := later
    rw [ended] at turned
    contradiction

/-- The closure is what the loop from a start ends with, and nothing else is. -/
theorem turns_end_iff {edges : List (α × α)} {start : α} {final : Nat × List α} :
    (Relation.ReflTransGen (fun state after => turn edges state = some after) (0, [start]) final ∧
        turn edges final = none) ↔
      final = ((closure edges start).length, closure edges start) := by
  constructor
  · rintro ⟨path, ended⟩
    have unique : Relator.RightUnique fun state after => turn edges state = some after := by
      intro state first second turned again
      exact Option.some.inj (turned.symm.trans again)
    rcases Relation.ReflTransGen.total_of_right_unique unique path
        (turns_closure edges start) with onward | back
    · exact (ended_stays ended onward).symm
    · exact ended_stays (turn_end edges _) back
  · rintro rfl
    exact ⟨turns_closure edges start, turn_end edges _⟩

end OpencodePty.Worklists
