import Mathlib.Algebra.GroupWithZero.Nat
import Mathlib.Logic.Function.Basic
import OpencodePty.Turns

/-!
# Lanes of promises

A lane runs tasks one after the other by chaining promises. A map has, for each key, the promise of
the entry that was added last. A new entry is chained to it, or to a resolved promise where there is
none: its task is called when that promise is fulfilled. What comes of the task is passed on to the
promise that whoever added it has got, and from there to the promise in the map, which is always
fulfilled. In the end the entry is removed from the map if it is still the last one.

A step is one of these reactions, a task that finishes, or a new entry. Reactions that are ready may
happen in any order.
-/

namespace OpencodePty.PromiseLanes

open Turns

universe u v
variable {κ : Type u} {ρ : Type v}

/-- How far an entry has got. -/
inductive Stage (ρ : Type v) where
  | waiting
  | running
  /-- The promise of the task has a result. -/
  | finished (result : ρ)
  /-- The promise that was returned has it too. -/
  | resolved (result : ρ)
  /-- The promise in the map is fulfilled. -/
  | settled (result : ρ)
  /-- The entry was removed from the map, if it was there. -/
  | swept (result : ρ)

/-- One step of an entry. -/
inductive Move (ρ : Type v) where
  | start
  | finish (result : ρ)
  | resolve
  | settle
  | sweep

/-- What a move makes of a stage, where it is possible. -/
def Stage.next : Stage ρ → Move ρ → Option (Stage ρ)
  | .waiting, .start => some .running
  | .running, .finish result => some (.finished result)
  | .finished result, .resolve => some (.resolved result)
  | .resolved result, .settle => some (.settled result)
  | .settled result, .sweep => some (.swept result)
  | _, _ => none

/-- The result of a task that has finished. -/
def Stage.result : Stage ρ → Option ρ
  | .waiting | .running => none
  | .finished result | .resolved result | .settled result | .swept result => some result

/-- The promise that was returned has a result. -/
def Stage.isResolved : Stage ρ → Bool
  | .resolved _ | .settled _ | .swept _ => true
  | _ => false

/-- The promise in the map is fulfilled. -/
def Stage.isSettled : Stage ρ → Bool
  | .settled _ | .swept _ => true
  | _ => false

/-- The phase of a task among those that take turns. -/
def Stage.phase : Stage ρ → Phase
  | .waiting => .waiting
  | .running => .running
  | _ => .done

/-- The moves that are left. -/
def Stage.left : Stage ρ → Nat
  | .waiting => 5
  | .running => 4
  | .finished _ => 3
  | .resolved _ => 2
  | .settled _ => 1
  | .swept _ => 0

/-- A task with its key, and where it has got. -/
structure Entry (κ : Type u) (ρ : Type v) where
  key : κ
  /-- The entry that it is chained to. -/
  previous : Option Nat
  stage : Stage ρ

/-- All entries in the order in which they were added, and the map. -/
structure Lanes (κ : Type u) (ρ : Type v) where
  entries : List (Entry κ ρ)
  last : κ → Option Nat

/-- What happens to the lanes. -/
inductive Event (κ : Type u) (ρ : Type v) where
  | enqueue (key : κ)
  | move (index : Nat) (move : Move ρ)

namespace Lanes

/-- Lanes without entries. -/
def empty : Lanes κ ρ := ⟨[], fun _ => none⟩

variable (lanes : Lanes κ ρ)

/-- The promise that an entry is chained to is fulfilled. -/
def ready (entry : Entry κ ρ) : Bool :=
  entry.previous.all fun index => lanes.entries[index]?.any fun former => former.stage.isSettled

/-- A move that is possible now, apart from where the entry is. -/
def allows (entry : Entry κ ρ) : Move ρ → Bool
  | .start => lanes.ready entry
  | _ => true

variable [DecidableEq κ]

/-- A new entry, chained to the last one of its key. -/
def enqueue (key : κ) : Lanes κ ρ where
  entries := lanes.entries ++ [⟨key, lanes.last key, .waiting⟩]
  last := Function.update lanes.last key (some lanes.entries.length)

/-- The map after a move. -/
def lastAfter (index : Nat) (key : κ) : Move ρ → κ → Option Nat
  | .sweep => if lanes.last key = some index then Function.update lanes.last key none else lanes.last
  | _ => lanes.last

/-- One event, where it is possible. -/
def step : Event κ ρ → Option (Lanes κ ρ)
  | .enqueue key => some (lanes.enqueue key)
  | .move index move =>
    match lanes.entries[index]? with
    | none => none
    | some entry =>
      match entry.stage.next move with
      | none => none
      | some stage =>
        if lanes.allows entry move then
          some ⟨lanes.entries.set index { entry with stage := stage },
            lanes.lastAfter index entry.key move⟩
        else none

end Lanes

/-- A task is called, or finishes, or its result is passed on. -/
theorem next_cases {stage later : Stage ρ} {move : Move ρ} (moved : stage.next move = some later) :
    (stage = .waiting ∧ move = .start ∧ later = .running) ∨
    (∃ result, stage = .running ∧ move = .finish result ∧ later = .finished result) ∨
    (stage.phase = .done ∧ later.phase = .done) := by
  cases stage <;> cases move <;> cases moved
  · exact .inl ⟨rfl, rfl, rfl⟩
  · exact .inr (.inl ⟨_, rfl, rfl, rfl⟩)
  all_goals exact .inr (.inr ⟨rfl, rfl⟩)

/-- What is done stays done. -/
theorem done_next {stage later : Stage ρ} {move : Move ρ} (moved : stage.next move = some later)
    (done : stage.phase = .done) : later.phase = .done := by
  obtain ⟨rfl, _⟩ | ⟨result, rfl, _⟩ | ⟨_, same⟩ := next_cases moved
  · cases done
  · cases done
  · exact same

/-- Every move leaves one less. -/
theorem left_next {stage later : Stage ρ} {move : Move ρ} (moved : stage.next move = some later) :
    later.left + 1 = stage.left := by
  cases stage <;> cases move <;> cases moved <;> rfl

/-- Only an entry that is done is removed from the map. -/
theorem sweep_done {stage later : Stage ρ} (moved : stage.next .sweep = some later) :
    stage.phase = .done := by
  cases stage <;> cases moved
  rfl

section Runs

variable [DecidableEq κ]

/-- The lanes after some events. -/
inductive Run : List (Event κ ρ) → Lanes κ ρ → Prop
  | nil : Run [] .empty
  | snoc {history : List (Event κ ρ)} {lanes next : Lanes κ ρ} {event : Event κ ρ}
    (run : Run history lanes) (step : lanes.step event = some next) : Run (history ++ [event]) next

/-- What a move of an entry changes. -/
theorem step_move {lanes next : Lanes κ ρ} {index : Nat} {move : Move ρ}
    (step : lanes.step (.move index move) = some next) :
    ∃ entry stage, lanes.entries[index]? = some entry ∧ entry.stage.next move = some stage ∧
      lanes.allows entry move = true ∧
      next = ⟨lanes.entries.set index { entry with stage := stage },
        lanes.lastAfter index entry.key move⟩ := by
  unfold Lanes.step at step
  simp only at step
  split at step
  · cases step
  next entry there =>
    split at step
    · cases step
    next stage moved =>
      split at step
      next allowed => exact ⟨entry, stage, there, moved, allowed, (Option.some.inj step).symm⟩
      next => cases step

end Runs

/-! ## Order -/

/-- The turns that the entries take. -/
def Lanes.turns (lanes : Lanes κ ρ) : List (Turn κ) :=
  lanes.entries.map fun entry => ⟨entry.key, entry.stage.phase⟩

/-- The last turn of a key before a bound, or none where all of them are done. -/
def Latest (turns : List (Turn κ)) (bound : Nat) (key : κ) : Option Nat → Prop
  | none => Free turns bound key
  | some previous => previous < bound ∧ (∃ phase, turns[previous]? = some ⟨key, phase⟩) ∧
    ∀ other turn, previous < other → other < bound → turns[other]? = some turn → turn.key ≠ key

section Latest

variable {turns : List (Turn κ)} {bound : Nat} {key : κ} {previous : Option Nat}

/-- A turn that comes later leaves the latest one before it. -/
theorem Latest.append (latest : Latest turns bound key previous) (turn : Turn κ)
    (within : bound ≤ turns.length) : Latest (turns ++ [turn]) bound key previous := by
  cases previous with
  | none => exact Free.append latest turn within
  | some previous =>
    obtain ⟨before, ⟨phase, there⟩, between⟩ := latest
    refine ⟨before, ⟨phase, ?_⟩, ?_⟩
    · rw [List.getElem?_append_left (by omega), there]
    · intro other later after inside found
      rw [List.getElem?_append_left (by omega)] at found
      exact between other later after inside found

/-- A turn of another key is no later one. -/
theorem Latest.extend (latest : Latest turns turns.length key previous) {turn : Turn κ}
    (other : turn.key ≠ key) : Latest (turns ++ [turn]) (turns.length + 1) key previous := by
  have kept := latest.append turn (Nat.le_refl _)
  have newest {index : Nat} {found : Turn κ} (beyond : ¬ index < turns.length)
      (inside : index < turns.length + 1) (there : (turns ++ [turn])[index]? = some found) :
      found.key ≠ key := by
    obtain rfl : index = turns.length := by omega
    rw [List.getElem?_concat_length] at there
    cases there
    exact other
  cases previous with
  | none =>
    intro index first inside there same
    by_cases within : index < turns.length
    · exact kept index first within there same
    · exact absurd same (newest within inside there)
  | some previous =>
    obtain ⟨before, here, between⟩ := kept
    refine ⟨by omega, here, ?_⟩
    intro index later after inside there
    by_cases within : index < turns.length
    · exact between index later after within there
    · exact newest within inside there

/-- A change of one turn keeps the last one of a key, if it is not undone. -/
theorem Latest.set {changed : Nat} {turn : Turn κ} {phase : Phase}
    (latest : Latest turns bound key previous) (there : turns[changed]? = some turn)
    (kept : turn.phase = .done → phase = .done) :
    Latest (turns.set changed ⟨turn.key, phase⟩) bound key previous := by
  have inside := (List.getElem?_eq_some_iff.mp there).1
  cases previous with
  | none => exact Free.set latest there kept
  | some previous =>
    obtain ⟨before, ⟨former, here⟩, between⟩ := latest
    refine ⟨before, ?_, ?_⟩
    · by_cases same : changed = previous
      · subst same
        rw [here] at there
        cases there
        exact ⟨phase, List.getElem?_set_self inside⟩
      · exact ⟨former, by rw [List.getElem?_set_ne same, here]⟩
    · intro other later after within found
      by_cases same : changed = other
      · subst same
        rw [List.getElem?_set_self inside] at found
        cases found
        exact between changed turn after within there
      · rw [List.getElem?_set_ne same] at found
        exact between other later after within found

/-- The turn of an entry is free where the one that it is chained to is done. -/
theorem Latest.free (latest : Latest turns bound key previous) (inTurn : InTurn turns)
    (done : ∀ index, previous = some index → turns[index]? = some ⟨key, .done⟩) :
    Free turns bound key := by
  cases previous with
  | none => exact latest
  | some previous =>
    obtain ⟨before, _, between⟩ := latest
    exact inTurn.free before (done previous rfl) between

end Latest

/-- Every entry is chained to the last one of its key before it, and the map has the last one of
all. Where there is none, the ones that there were are done. -/
structure Linked (lanes : Lanes κ ρ) : Prop where
  inTurn : InTurn lanes.turns
  chained : ∀ index entry, lanes.entries[index]? = some entry →
    Latest lanes.turns index entry.key entry.previous
  newest : ∀ key, Latest lanes.turns lanes.entries.length key (lanes.last key)

section Linked

variable {lanes next : Lanes κ ρ} {index : Nat} {entry : Entry κ ρ}

/-- An entry is a turn of its key in its phase. -/
theorem turns_there (there : lanes.entries[index]? = some entry) :
    lanes.turns[index]? = some ⟨entry.key, entry.stage.phase⟩ := by
  simp [Lanes.turns, there]

/-- There are as many turns as entries. -/
theorem length_turns : lanes.turns.length = lanes.entries.length := List.length_map _

/-- An item that is put where it is. -/
theorem set_there {α : Type u} {items : List α} {item : α} (there : items[index]? = some item) :
    items.set index item = items := by
  obtain ⟨inside, rfl⟩ := List.getElem?_eq_some_iff.mp there
  exact List.set_getElem_self inside

/-- Lanes without entries are linked. -/
theorem linked_empty : Linked (Lanes.empty : Lanes κ ρ) where
  inTurn := inTurn_nil
  chained := by
    intro index entry there
    cases there
  newest := by
    intro key index turn within
    cases within

variable [DecidableEq κ]

/-- A new entry is linked to the last one of its key. -/
theorem linked_enqueue (linked : Linked lanes) (key : κ) : Linked (lanes.enqueue key) := by
  have turns : (lanes.enqueue key).turns = lanes.turns ++ [⟨key, .waiting⟩] := by
    simp [Lanes.turns, Lanes.enqueue, Stage.phase]
  refine ⟨?_, ?_, ?_⟩
  · rw [turns]
    exact linked.inTurn.append key
  · intro index entry there
    rw [turns]
    by_cases within : index < lanes.entries.length
    · rw [Lanes.enqueue, List.getElem?_append_left within] at there
      exact (linked.chained index entry there).append _ (by rw [length_turns]; omega)
    · have inside := (List.getElem?_eq_some_iff.mp there).1
      simp only [Lanes.enqueue, List.length_append, List.length_singleton] at inside
      obtain rfl : index = lanes.entries.length := by omega
      rw [Lanes.enqueue, List.getElem?_concat_length] at there
      cases there
      exact (linked.newest key).append _ (Nat.le_of_eq length_turns.symm)
  · intro other
    rw [turns]
    have length : (lanes.enqueue key).entries.length = lanes.turns.length + 1 := by
      simp [Lanes.enqueue, length_turns]
    rw [length]
    by_cases same : other = key
    · subst same
      have last : (lanes.enqueue other).last other = some lanes.turns.length := by
        simp [Lanes.enqueue, length_turns]
      rw [last]
      refine ⟨Nat.lt_succ_self _, ⟨.waiting, List.getElem?_concat_length⟩, ?_⟩
      intro index turn after within
      omega
    · have last : (lanes.enqueue key).last other = lanes.last other := by
        simp [Lanes.enqueue, same]
      rw [last]
      have newest := linked.newest other
      rw [← length_turns] at newest
      exact newest.extend (Ne.symm same)

omit [DecidableEq κ] in
/-- An entry whose turn has come is called. -/
theorem ready_free (linked : Linked lanes) (there : lanes.entries[index]? = some entry)
    (ready : lanes.ready entry = true) : Free lanes.turns index entry.key := by
  apply (linked.chained index entry there).free linked.inTurn
  intro previous chained
  obtain ⟨_, ⟨phase, found⟩, _⟩ := chained ▸ linked.chained index entry there
  simp only [Lanes.ready, chained, Option.all_some, Option.any_eq_true] at ready
  obtain ⟨former, here, settled⟩ := ready
  rw [turns_there here] at found ⊢
  have done : former.stage.phase = .done := by
    cases held : former.stage <;> rw [held] at settled <;> first | rfl | cases settled
  rw [done, (Turn.mk.inj (Option.some.inj found)).1]

omit [DecidableEq κ] in
/-- A move is made in turn. -/
theorem inTurn_move {stage : Stage ρ} {move : Move ρ} (linked : Linked lanes)
    (there : lanes.entries[index]? = some entry) (moved : entry.stage.next move = some stage)
    (allowed : lanes.allows entry move = true) :
    InTurn (lanes.turns.set index ⟨entry.key, stage.phase⟩) := by
  have turn := turns_there there
  obtain ⟨waits, rfl, rfl⟩ | ⟨result, runs, rfl, rfl⟩ | ⟨done, same⟩ := next_cases moved
  · rw [waits] at turn
    exact linked.inTurn.start turn (ready_free linked there allowed)
  · rw [runs] at turn
    exact linked.inTurn.finish turn
  · rw [same, ← done, set_there turn]
    exact linked.inTurn

/-- After a move the map has the last entries still. One that is removed from it is done, and so
are those of its key before it. -/
theorem newest_move {stage : Stage ρ} {move : Move ρ} (linked : Linked lanes)
    (there : lanes.entries[index]? = some entry) (moved : entry.stage.next move = some stage)
    (key : κ) :
    Latest (lanes.turns.set index ⟨entry.key, stage.phase⟩) lanes.entries.length key
      (lanes.lastAfter index entry.key move key) := by
  have turn := turns_there there
  have same := (linked.newest key).set turn (done_next moved)
  cases move with
  | sweep =>
    change Latest _ _ key
      ((if lanes.last entry.key = some index then Function.update lanes.last entry.key none
        else lanes.last) key)
    split
    next last =>
      by_cases own : key = entry.key
      · subst own
        rw [Function.update_self]
        have newest := linked.newest entry.key
        rw [last] at newest
        have free : Free lanes.turns lanes.entries.length entry.key := by
          apply newest.free linked.inTurn
          rintro _ ⟨⟩
          rw [turn, sweep_done moved]
        exact free.set turn (done_next moved)
      · rw [Function.update_of_ne own]
        exact same
    next => exact same
  | start => exact same
  | finish result => exact same
  | resolve => exact same
  | settle => exact same

/-- A move keeps the lanes linked. -/
theorem linked_move {move : Move ρ} (linked : Linked lanes)
    (step : lanes.step (.move index move) = some next) : Linked next := by
  obtain ⟨entry, stage, there, moved, allowed, rfl⟩ := step_move step
  have turns (last : κ → Option Nat) :
      Lanes.turns ⟨lanes.entries.set index { entry with stage := stage }, last⟩ =
        lanes.turns.set index ⟨entry.key, stage.phase⟩ := by
    simp [Lanes.turns, List.map_set]
  refine ⟨?_, ?_, ?_⟩
  · rw [turns]
    exact inTurn_move linked there moved allowed
  · intro other found here
    rw [turns]
    by_cases same : index = other
    · subst same
      rw [List.getElem?_set_self (List.getElem?_eq_some_iff.mp there).1] at here
      cases here
      exact (linked.chained index entry there).set (turns_there there) (done_next moved)
    · rw [List.getElem?_set_ne same] at here
      exact (linked.chained other found here).set (turns_there there) (done_next moved)
  · intro key
    rw [turns, List.length_set]
    exact newest_move linked there moved key

/-- In every run the entries are linked. -/
theorem Run.linked {history : List (Event κ ρ)} (run : Run history lanes) : Linked lanes := by
  induction run with
  | nil => exact linked_empty
  | @snoc history lanes next event run step inductionHypothesis =>
    cases event with
    | enqueue key =>
      cases step
      exact linked_enqueue inductionHypothesis key
    | move index move => exact linked_move inductionHypothesis step

end Linked

/-! ## Results -/

/-- The result of a task that an event is. -/
def Event.result (index : Nat) : Event κ ρ → Option ρ
  | .move other (.finish result) => if other = index then some result else none
  | _ => none

/-- The event calls the task of an entry. -/
def Event.starts (index : Nat) : Event κ ρ → Bool
  | .move other .start => other = index
  | _ => false

/-- The key of a new entry. -/
def Event.added : Event κ ρ → Option κ
  | .enqueue key => some key
  | .move _ _ => none

/-- The event is a move. -/
def Event.isMove : Event κ ρ → Bool
  | .enqueue _ => false
  | .move _ _ => true

/-- The results that the task of an entry has had. -/
def results (index : Nat) (history : List (Event κ ρ)) : List ρ :=
  history.filterMap (Event.result index)

/-- How often the task of an entry was called. -/
def calls (index : Nat) (history : List (Event κ ρ)) : Nat := history.countP (Event.starts index)

/-- The keys of the entries that were added. -/
def added (history : List (Event κ ρ)) : List κ := history.filterMap Event.added

/-- How many moves there were. -/
def moves (history : List (Event κ ρ)) : Nat := history.countP Event.isMove

/-- The moves that are left. -/
def Lanes.left (lanes : Lanes κ ρ) : Nat := (lanes.entries.map fun entry => entry.stage.left).sum

/-- How often the task of an entry was called, by its stage. -/
def Stage.calls : Stage ρ → Nat
  | .waiting => 0
  | _ => 1

/-- The calls and the results of an entry are those of its own task. -/
structure Told (history : List (Event κ ρ)) (lanes : Lanes κ ρ) : Prop where
  keys : lanes.entries.map Entry.key = added history
  result : ∀ index entry, lanes.entries[index]? = some entry →
    results index history = entry.stage.result.toList ∧ calls index history = entry.stage.calls
  absent : ∀ index, lanes.entries.length ≤ index →
    results index history = [] ∧ calls index history = 0
  count : moves history + lanes.left = 5 * lanes.entries.length

section Told

variable {history : List (Event κ ρ)} {lanes next : Lanes κ ρ} {index : Nat}

/-- The results of one more event. -/
theorem results_snoc (event : Event κ ρ) :
    results index (history ++ [event]) = results index history ++ (event.result index).toList := by
  rw [results, List.filterMap_append, ← results]
  cases told : event.result index <;> simp [told]

/-- The calls of one more event. -/
theorem calls_snoc (event : Event κ ρ) :
    calls index (history ++ [event]) = calls index history + (event.starts index).toNat := by
  rw [calls, List.countP_append, List.countP_singleton, calls]
  cases event.starts index <;> rfl

/-- The moves that are left when one entry has changed. -/
theorem left_set {entries : List (Entry κ ρ)} {entry changed : Entry κ ρ}
    (there : entries[index]? = some entry) :
    ((entries.set index changed).map fun entry => entry.stage.left).sum + entry.stage.left =
      (entries.map fun entry => entry.stage.left).sum + changed.stage.left := by
  induction entries generalizing index with
  | nil => cases there
  | cons first rest inductionHypothesis =>
    cases index with
    | zero =>
      cases there
      simp only [List.set_cons_zero, List.map_cons, List.sum_cons]
      omega
    | succ index =>
      have others := inductionHypothesis there
      simp only [List.set_cons_succ, List.map_cons, List.sum_cons]
      omega

/-- Nothing has happened to lanes without entries. -/
theorem told_nil : Told ([] : List (Event κ ρ)) .empty where
  keys := rfl
  result := by
    intro index entry there
    cases there
  absent := fun _ _ => ⟨rfl, rfl⟩
  count := rfl

variable [DecidableEq κ]

/-- A new entry has its key and nothing else yet. -/
theorem told_enqueue (told : Told history lanes) (key : κ) :
    Told (history ++ [.enqueue key]) (lanes.enqueue key) where
  keys := by
    rw [added, List.filterMap_append, ← added, ← told.keys]
    simp [Lanes.enqueue, Event.added]
  result := by
    intro index entry there
    rw [results_snoc, calls_snoc]
    by_cases within : index < lanes.entries.length
    · rw [Lanes.enqueue, List.getElem?_append_left within] at there
      obtain ⟨same, called⟩ := told.result index entry there
      rw [same, called]
      simp [Event.result, Event.starts]
    · have inside := (List.getElem?_eq_some_iff.mp there).1
      simp only [Lanes.enqueue, List.length_append, List.length_singleton] at inside
      obtain rfl : index = lanes.entries.length := by omega
      rw [Lanes.enqueue, List.getElem?_concat_length] at there
      cases there
      obtain ⟨none, never⟩ := told.absent _ (Nat.le_refl _)
      rw [none, never]
      exact ⟨rfl, rfl⟩
  absent := by
    intro index beyond
    simp only [Lanes.enqueue, List.length_append, List.length_singleton] at beyond
    obtain ⟨none, never⟩ := told.absent index (by omega)
    rw [results_snoc, calls_snoc, none, never]
    exact ⟨rfl, rfl⟩
  count := by
    have count := told.count
    have same : moves (history ++ [.enqueue key]) = moves history := by
      simp [moves, Event.isMove]
    have left : (lanes.enqueue key).left = lanes.left + 5 := by
      rw [Lanes.left, Lanes.enqueue, List.map_append, List.sum_append]
      rfl
    have length : (lanes.enqueue key).entries.length = lanes.entries.length + 1 :=
      List.length_append
    omega

omit [DecidableEq κ] in
/-- A move tells what its own task has done. -/
theorem told_entry {stage later : Stage ρ} {move : Move ρ} (moved : stage.next move = some later)
    (before : results index history = stage.result.toList ∧ calls index history = stage.calls) :
    results index (history ++ [(.move index move : Event κ ρ)]) = later.result.toList ∧
      calls index (history ++ [(.move index move : Event κ ρ)]) = later.calls := by
  rw [results_snoc, calls_snoc, before.1, before.2]
  cases stage <;> cases move <;> cases moved <;>
    simp [Event.result, Event.starts, Stage.result, Stage.calls]

/-- A move is told by the stage it leads to. -/
theorem told_move {move : Move ρ} (told : Told history lanes)
    (step : lanes.step (.move index move) = some next) :
    Told (history ++ [.move index move]) next := by
  obtain ⟨entry, stage, there, moved, _, rfl⟩ := step_move step
  have inside := (List.getElem?_eq_some_iff.mp there).1
  have elsewhere {other : Nat} (apart : index ≠ other) :
      results other (history ++ [(.move index move : Event κ ρ)]) = results other history ∧
        calls other (history ++ [(.move index move : Event κ ρ)]) = calls other history := by
    rw [results_snoc, calls_snoc]
    cases move <;> simp [Event.result, Event.starts, apart]
  refine ⟨?_, ?_, ?_, ?_⟩
  · have keys : (lanes.entries.set index { entry with stage := stage }).map Entry.key =
        lanes.entries.map Entry.key := by
      rw [List.map_set]
      exact set_there (by rw [List.getElem?_map, there, Option.map_some])
    rw [keys, told.keys, added, added, List.filterMap_append]
    exact (List.append_nil _).symm
  · intro other found here
    by_cases same : index = other
    · subst same
      rw [List.getElem?_set_self inside] at here
      cases here
      exact told_entry moved (told.result index entry there)
    · rw [List.getElem?_set_ne same] at here
      obtain ⟨kept, called⟩ := elsewhere same
      rw [kept, called]
      exact told.result other found here
  · intro other beyond
    rw [List.length_set] at beyond
    obtain ⟨kept, called⟩ := elsewhere (show index ≠ other by omega)
    rw [kept, called]
    exact told.absent other beyond
  · have count := told.count
    have changed : ((lanes.entries.set index { entry with stage := stage }).map
        fun entry => entry.stage.left).sum + entry.stage.left = lanes.left + stage.left :=
      left_set there
    have fewer := left_next moved
    have more : moves (history ++ [(.move index move : Event κ ρ)]) = moves history + 1 := by
      rw [moves, List.countP_append]
      rfl
    rw [List.length_set, more]
    simp only [Lanes.left] at count changed ⊢
    omega

/-- In every run the entries have the results of their own tasks. -/
theorem Run.told (run : Run history lanes) : Told history lanes := by
  induction run with
  | nil => exact told_nil
  | @snoc history lanes next event run step inductionHypothesis =>
    cases event with
    | enqueue key =>
      cases step
      exact told_enqueue inductionHypothesis key
    | move index move => exact told_move inductionHypothesis step

end Told

/-! ## Progress -/

section Progress

variable [DecidableEq κ] {lanes : Lanes κ ρ}

/-- An entry can move, where a task that awaits other promises does not finish before they have a
result. -/
def Enabled (lanes : Lanes κ ρ) (awaits : Nat → Nat → Prop) (index : Nat) : Prop :=
  ∃ move, (lanes.step (.move index move)).isSome = true ∧
    ∀ result, move = .finish result → ∀ other, awaits index other →
      ∃ entry, lanes.entries[other]? = some entry ∧ entry.stage.isResolved = true

/-- The task of an entry has finished, and everything that follows has happened. -/
def Swept (lanes : Lanes κ ρ) (index : Nat) : Prop :=
  ∃ entry result, lanes.entries[index]? = some entry ∧ entry.stage = .swept result

/-- A move that is allowed is possible. -/
theorem step_allowed {index : Nat} {entry : Entry κ ρ} {stage : Stage ρ} {move : Move ρ}
    (there : lanes.entries[index]? = some entry) (moved : entry.stage.next move = some stage)
    (allowed : lanes.allows entry move = true) :
    (lanes.step (.move index move)).isSome = true := by
  simp [Lanes.step, there, moved, allowed]

/-- An entry that cannot move is swept, where those of its key before it are, and those that its
task awaits. -/
theorem swept_of_stuck [Nonempty ρ] {awaits : Nat → Nat → Prop} (linked : Linked lanes)
    {index : Nat} {entry : Entry κ ρ} (there : lanes.entries[index]? = some entry)
    (stuck : ¬ Enabled lanes awaits index)
    (before : ∀ earlier former, earlier < index → lanes.entries[earlier]? = some former →
      former.key = entry.key → Swept lanes earlier)
    (awaited : ∀ other, awaits index other → Swept lanes other) : Swept lanes index := by
  cases stage : entry.stage with
  | waiting =>
    refine absurd ⟨.start, step_allowed there (by rw [stage]; rfl) ?_, nofun⟩ stuck
    have chained := linked.chained index entry there
    change (entry.previous.all _) = true
    rw [Option.all_eq_true]
    intro previous held
    rw [held] at chained
    obtain ⟨earlier, ⟨phase, found⟩, _⟩ := chained
    rw [Lanes.turns, List.getElem?_map, Option.map_eq_some_iff] at found
    obtain ⟨former, here, same⟩ := found
    obtain ⟨_, result, again, swept⟩ := before previous former earlier here (Turn.mk.inj same).1
    rw [again, Option.any_some, swept]
    rfl
  | running =>
    obtain ⟨result⟩ := ‹Nonempty ρ›
    refine absurd ⟨.finish result, step_allowed there (by rw [stage]; rfl) rfl, ?_⟩ stuck
    intro _ _ other awaits
    obtain ⟨entry, result, found, swept⟩ := awaited other awaits
    exact ⟨entry, found, by rw [swept]; rfl⟩
  | finished result =>
    exact absurd ⟨.resolve, step_allowed there (by rw [stage]; rfl) rfl, nofun⟩ stuck
  | resolved result =>
    exact absurd ⟨.settle, step_allowed there (by rw [stage]; rfl) rfl, nofun⟩ stuck
  | settled result =>
    exact absurd ⟨.sweep, step_allowed there (by rw [stage]; rfl) rfl, nofun⟩ stuck
  | swept result => exact ⟨entry, result, there, stage⟩

/-- Where only tasks of other keys await promises, and only those of inner keys, lanes in which
nothing can move have done all that there was to do. -/
theorem all_swept [Nonempty ρ] {awaits : Nat → Nat → Prop} (linked : Linked lanes)
    (inner : κ → Prop)
    (outside : ∀ index other entry, awaits index other → lanes.entries[index]? = some entry →
      ¬ inner entry.key)
    (inside : ∀ index other, awaits index other →
      ∃ entry, lanes.entries[other]? = some entry ∧ inner entry.key)
    (stuck : ∀ index, ¬ Enabled lanes awaits index) {index : Nat} {entry : Entry κ ρ}
    (there : lanes.entries[index]? = some entry) : Swept lanes index := by
  have innerSwept (index : Nat) : ∀ entry, lanes.entries[index]? = some entry → inner entry.key →
      Swept lanes index := by
    induction index using Nat.strongRecOn with
    | ind index inductionHypothesis =>
      intro entry there within
      apply swept_of_stuck linked there (stuck index)
      · intro earlier former before found same
        exact inductionHypothesis earlier before former found (same ▸ within)
      · intro other awaits
        exact absurd within (outside index other entry awaits there)
  induction index using Nat.strongRecOn generalizing entry with
  | ind index inductionHypothesis =>
    apply swept_of_stuck linked there (stuck index)
    · intro earlier former before found _
      exact inductionHypothesis earlier before found
    · intro other awaits
      obtain ⟨former, found, within⟩ := inside index other awaits
      exact innerSwept other former found within

end Progress

end OpencodePty.PromiseLanes
