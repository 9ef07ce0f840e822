import Mathlib.Data.List.Basic

/-!
# Overlapping writes of one file

A call that writes a value takes its copy of the value at once, and has other work to do before it
joins the queue of the file. Calls overtake one another on their way there. The queue is served in
its order, and a call is over when its turn is. A writer may await the call that it makes, and goes
on when that call is over.

Where no awaited call overtakes one whose copy lacks what its own carries, everything that is left
to be written when the awaited call is over carries it too.
-/

namespace OpencodePty.OverlappingWrites

universe u
variable {α : Type u}

/-- A call that writes a copy of a value. -/
structure Call (α : Type u) where
  copy : α
  /-- The writer in question goes on when the call is over. -/
  awaited : Bool

/-- The calls that are not over. -/
structure Writes (α : Type u) where
  /-- Those on their way to the queue, in the order in which they took their copies. -/
  calls : List (Call α)
  /-- The queue of the file. The first call in it is being served. -/
  queue : List (Call α)

namespace Writes

variable (writes : Writes α)

/-- Nothing is being written. -/
def idle : Writes α := ⟨[], []⟩

/-- All calls that are not over, in the order in which they are served if none of them is overtaken
from now on. -/
def all : List (Call α) := writes.queue ++ writes.calls

/-- A call is made, and takes its copy. -/
def make (copy : α) (awaited : Bool) : Writes α :=
  { writes with calls := writes.calls ++ [⟨copy, awaited⟩] }

/-- A call joins the queue. -/
def enter (index : Nat) : Writes α :=
  match writes.calls[index]? with
  | some call => ⟨writes.calls.eraseIdx index, writes.queue ++ [call]⟩
  | none => writes

/-- A call is over that has not come to the queue. -/
def miss (index : Nat) : Writes α := { writes with calls := writes.calls.eraseIdx index }

/-- The turn of the first call in the queue is over. -/
def next : Writes α := { writes with queue := writes.queue.tail }

/-- Nobody awaits a call. -/
def Quiet : Prop := ∀ call ∈ writes.all, call.awaited = false

/-- At most one call is awaited, and those behind it carry what it carries. -/
def Led (carries : α → α → Prop) : Prop :=
  writes.all.Pairwise fun first second =>
    first.awaited = true → second.awaited = false ∧ carries first.copy second.copy

/-- Where the call that joins the queue is awaited, those that it overtakes carry what it carries. -/
def InOrder (carries : α → α → Prop) (index : Nat) : Prop :=
  ∀ entering ∈ writes.calls[index]?, entering.awaited = true →
    ∀ earlier ∈ writes.calls.take index, carries entering.copy earlier.copy

instance (carries : α → α → Prop) [DecidableRel carries] (index : Nat) :
    Decidable (writes.InOrder carries index) :=
  inferInstanceAs (Decidable (∀ _ ∈ _, _))

end Writes

section Calls

variable {writes : Writes α} {call : Call α} {copy : α} {awaited : Bool} {index : Nat}

/-- The calls are those from before and the new one. -/
@[simp]
theorem mem_make : call ∈ (writes.make copy awaited).all ↔
    call ∈ writes.all ∨ call = ⟨copy, awaited⟩ := by
  simp [Writes.make, Writes.all, or_assoc]

/-- The calls on their way, around one of them. -/
theorem calls_around (there : writes.calls[index]? = some call) :
    ∃ later, writes.calls = writes.calls.take index ++ call :: later ∧
      writes.calls.eraseIdx index = writes.calls.take index ++ later := by
  obtain ⟨within, rfl⟩ := List.getElem?_eq_some_iff.mp there
  refine ⟨writes.calls.drop (index + 1), ?_, List.eraseIdx_eq_take_drop_succ ..⟩
  rw [← List.drop_eq_getElem_cons within, List.take_append_drop]

/-- A call that joins the queue is still there. -/
@[simp]
theorem mem_enter : call ∈ (writes.enter index).all ↔ call ∈ writes.all := by
  unfold Writes.enter
  split
  next entering there =>
    obtain ⟨later, whole, left⟩ := calls_around there
    simp only [Writes.all, left]
    conv_rhs => rw [whole]
    simp only [List.mem_append, List.mem_cons, List.not_mem_nil, or_false]
    tauto
  · exact Iff.rfl

/-- No call is new where one is over before it came to the queue. -/
theorem miss_sublist : List.Sublist (writes.miss index).all writes.all :=
  List.Sublist.append_left (List.eraseIdx_sublist ..) _

/-- No call is new where the turn of one is over. -/
theorem next_sublist : List.Sublist writes.next.all writes.all :=
  (List.tail_sublist _).append_right _

end Calls

section Orders

variable {writes : Writes α} {carries : α → α → Prop} {copy : α} {awaited : Bool} {index : Nat}

theorem idle_quiet : (Writes.idle : Writes α).Quiet := fun _ member => nomatch member

/-- Where nobody awaits a call, any order is as good as another. -/
theorem Writes.Quiet.led (quiet : writes.Quiet) : writes.Led carries := by
  refine List.pairwise_of_forall_mem_list ?_
  intro first member second _ awaited
  rw [quiet first member] at awaited
  cases awaited

/-- A call that is made where nobody awaits one may be awaited. -/
theorem Writes.Quiet.make (quiet : writes.Quiet) : (writes.make copy awaited).Led carries := by
  have split : (writes.make copy awaited).all = writes.all ++ [⟨copy, awaited⟩] := by
    simp [Writes.make, Writes.all]
  rw [Writes.Led, split, List.pairwise_append]
  refine ⟨quiet.led, List.pairwise_singleton _ _, ?_⟩
  intro first member _ _ now
  rw [quiet first member] at now
  cases now

/-- A call that nobody awaits is made, with a copy that carries what the awaited one carries. -/
theorem Writes.Led.make (led : writes.Led carries)
    (carried : ∀ call ∈ writes.all, call.awaited = true → carries call.copy copy) :
    (writes.make copy false).Led carries := by
  have split : (writes.make copy false).all = writes.all ++ [⟨copy, false⟩] := by
    simp [Writes.make, Writes.all]
  rw [Writes.Led, split, List.pairwise_append]
  refine ⟨led, List.pairwise_singleton _ _, ?_⟩
  intro first member second last now
  obtain rfl := List.mem_singleton.mp last
  exact ⟨rfl, carried first member now⟩

/-- A call joins the queue, and overtakes none that lacks what it carries. -/
theorem Writes.Led.enter (led : writes.Led carries) (inOrder : writes.InOrder carries index) :
    (writes.enter index).Led carries := by
  unfold Writes.enter
  split
  next entering there =>
    obtain ⟨later, whole, left⟩ := calls_around there
    have before := inOrder entering there
    generalize writes.calls.take index = earlier at whole left before
    simp only [Writes.Led, Writes.all, left]
    rw [Writes.Led, Writes.all, whole] at led
    simp only [List.pairwise_append, List.pairwise_cons, List.mem_append, List.mem_cons] at led
    obtain ⟨queued, ⟨first, ⟨behind, last⟩, across⟩, ahead⟩ := led
    simp only [List.pairwise_append, List.pairwise_cons, List.mem_append, List.mem_cons,
      List.not_mem_nil, or_false]
    refine ⟨⟨queued, ⟨fun _ none => none.elim, .nil⟩, ?_⟩, ⟨first, last, ?_⟩, ?_⟩
    · rintro one member _ rfl
      exact ahead one member _ (.inr (.inl rfl))
    · intro one member two other
      exact across one member two (.inr other)
    · rintro one (member | rfl) two (other | other)
      · exact ahead one member two (.inl other)
      · exact ahead one member two (.inr (.inr other))
      · -- The one that is overtaken is not awaited, or the entering one would not be.
        intro now
        refine ⟨?_, before now two other⟩
        by_contra awaited
        rw [Bool.not_eq_false] at awaited
        have never := (across two other one (.inl rfl) awaited).1
        rw [now] at never
        cases never
      · exact behind two other
  · exact led

theorem Writes.Led.miss (led : writes.Led carries) : (writes.miss index).Led carries :=
  List.Pairwise.sublist miss_sublist led

theorem Writes.Led.next (led : writes.Led carries) : writes.next.Led carries :=
  List.Pairwise.sublist next_sublist led

/-- The first call in the queue is over, and was awaited: nobody awaits another, and all that are
left carry what it carried. -/
theorem Writes.Led.served (led : writes.Led carries) {call : Call α} {rest : List (Call α)}
    (queue : writes.queue = call :: rest) (awaited : call.awaited = true) :
    writes.next.Quiet ∧ ∀ left ∈ writes.next.all, carries call.copy left.copy := by
  have whole : writes.all = call :: writes.next.all := by
    simp [Writes.all, Writes.next, queue]
  rw [Writes.Led, whole, List.pairwise_cons] at led
  exact ⟨fun left member => (led.1 left member awaited).1,
    fun left member => (led.1 left member awaited).2⟩

/-- Where the awaited call is over before it came to the queue, nobody awaits another. -/
theorem Writes.Led.missed (led : writes.Led carries) {call : Call α}
    (there : writes.calls[index]? = some call) (awaited : call.awaited = true) :
    (writes.miss index).Quiet := by
  obtain ⟨later, whole, left⟩ := calls_around there
  rw [Writes.Led, Writes.all, whole] at led
  simp only [List.pairwise_append, List.pairwise_cons, List.mem_append, List.mem_cons] at led
  obtain ⟨_, ⟨_, ⟨behind, _⟩, across⟩, ahead⟩ := led
  have unawaited {other : Call α} (before : other.awaited = true → call.awaited = false) :
      other.awaited = false := by
    by_contra now
    rw [Bool.not_eq_false] at now
    rw [before now] at awaited
    cases awaited
  intro other member
  simp only [Writes.all, Writes.miss, left, List.mem_append] at member
  rcases member with queued | earlier | afterwards
  · exact unawaited fun now => (ahead other queued call (.inr (.inl rfl)) now).1
  · exact unawaited fun now => (across other earlier call (.inl rfl) now).1
  · exact (behind other afterwards awaited).1

end Orders

end OpencodePty.OverlappingWrites
