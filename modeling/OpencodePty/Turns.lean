import Mathlib.Data.List.Basic

/-!
# Turns

Whoever wants to do something under a key takes a turn, and does it when all that took a turn under
the same key before have done what they wanted. A list of turns is in order where no one has begun
before those were done. It stays so when a turn is taken, when one begins that is free to, and when
one is done.
-/

namespace OpencodePty.Turns

universe u
variable {κ : Type u}

inductive Phase where
  | waiting
  | running
  | done
  deriving DecidableEq

structure Turn (κ : Type u) where
  key : κ
  phase : Phase

/-- All turns before an index that have its key are done. -/
def Free (turns : List (Turn κ)) (index : Nat) (key : κ) : Prop :=
  ∀ earlier first, earlier < index → turns[earlier]? = some first → first.key = key →
    first.phase = .done

/-- Whoever does not wait any more is free to run. -/
def InTurn (turns : List (Turn κ)) : Prop :=
  ∀ index turn, turns[index]? = some turn → turn.phase ≠ .waiting → Free turns index turn.key

variable {turns : List (Turn κ)} {index : Nat} {key : κ}

theorem inTurn_nil : InTurn ([] : List (Turn κ)) := by
  intro index turn there
  simp at there

theorem Free.append (free : Free turns index key) (turn : Turn κ) (within : index ≤ turns.length) :
    Free (turns ++ [turn]) index key := by
  intro earlier first before there
  rw [List.getElem?_append_left (by omega)] at there
  exact free earlier first before there

/-- A turn is taken. -/
theorem InTurn.append (inTurn : InTurn turns) (key : κ) :
    InTurn (turns ++ [⟨key, .waiting⟩]) := by
  intro index turn there begun
  by_cases within : index < turns.length
  · rw [List.getElem?_append_left within] at there
    exact (inTurn index turn there begun).append _ (Nat.le_of_lt within)
  · rw [List.getElem?_append_right (Nat.le_of_not_lt within)] at there
    obtain rfl := List.mem_singleton.mp (List.mem_of_getElem? there)
    contradiction

/-- A change of one turn keeps others free, if it is not undone. -/
theorem Free.set {changed : Nat} {phase : Phase} {turn : Turn κ} (free : Free turns index key)
    (there : turns[changed]? = some turn) (kept : turn.phase = .done → phase = .done) :
    Free (turns.set changed ⟨turn.key, phase⟩) index key := by
  intro earlier first before found same
  by_cases here : earlier = changed
  · subst here
    rw [List.getElem?_set_self (List.getElem?_eq_some_iff.mp there).1] at found
    cases found
    exact kept (free earlier turn before there same)
  · rw [List.getElem?_set_ne (Ne.symm here)] at found
    exact free earlier first before found same

/-- A turn begins that is free to. -/
theorem InTurn.start (inTurn : InTurn turns) (there : turns[index]? = some ⟨key, .waiting⟩)
    (free : Free turns index key) : InTurn (turns.set index ⟨key, .running⟩) := by
  intro other turn found begun
  have kept (stays : Phase.waiting = .done) : Phase.running = .done := by cases stays
  by_cases here : index = other
  · subst here
    rw [List.getElem?_set_self (List.getElem?_eq_some_iff.mp there).1] at found
    cases found
    exact free.set there kept
  · rw [List.getElem?_set_ne here] at found
    exact (inTurn other turn found begun).set there kept

/-- A turn is done. -/
theorem InTurn.finish (inTurn : InTurn turns) (there : turns[index]? = some ⟨key, .running⟩) :
    InTurn (turns.set index ⟨key, .done⟩) := by
  intro other turn found begun
  by_cases here : index = other
  · subst here
    rw [List.getElem?_set_self (List.getElem?_eq_some_iff.mp there).1] at found
    cases found
    exact (inTurn index _ there (by simp)).set there fun _ => rfl
  · rw [List.getElem?_set_ne here] at found
    exact (inTurn other turn found begun).set there fun _ => rfl

/-- No two turns of one key run at once. -/
theorem InTurn.unique (inTurn : InTurn turns) {first second : Nat}
    (one : turns[first]? = some ⟨key, .running⟩) (two : turns[second]? = some ⟨key, .running⟩) :
    first = second := by
  rcases Nat.lt_trichotomy first second with before | same | after
  · have done := inTurn second _ two (by simp) first _ before one rfl
    contradiction
  · exact same
  · have done := inTurn first _ one (by simp) second _ after two rfl
    contradiction

/-- A turn is free to begin when the one of its key that was taken last before it is done. -/
theorem InTurn.free (inTurn : InTurn turns) {previous : Nat} (before : previous < index)
    (there : turns[previous]? = some ⟨key, .done⟩)
    (between : ∀ other turn, previous < other → other < index → turns[other]? = some turn →
      turn.key ≠ key) : Free turns index key := by
  intro earlier first within found same
  rcases Nat.lt_trichotomy earlier previous with less | same' | greater
  · exact inTurn previous _ there (by simp) earlier first less found same
  · subst same'
    rw [there] at found
    cases found
    rfl
  · exact absurd same (between earlier first greater within found)

end OpencodePty.Turns
