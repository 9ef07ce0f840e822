import Mathlib.Data.List.Forall2
import Mathlib.Logic.Relation
import Mathlib.Tactic.Common

/-!
# Regular expressions that look for a match

A pattern moves from one place of a text to another behind it. The text before a place is known, so
that a pattern may ask for the start or the end of the text. A text passes where a pattern moves on
from one of its places. Which characters a literal stands for is a parameter.

A repetition is tried on as long as it makes progress. It moves along the reflexive and transitive
closure of the moves of its body.
-/

namespace OpencodePty.RegularExpressions

universe u v

/-- The patterns, by the ways they are put together. -/
inductive Pattern (α : Type u) where
  | empty
  | start
  | finish
  | any
  | literal (character : α)
  | oneOf (characters : List α)
  | sequence (first second : Pattern α)
  | either (first second : Pattern α)
  | star (body : Pattern α)
  deriving DecidableEq

/-- A place of a text: what stands before it, the nearest character first, and what stands behind. -/
abbrev Place (γ : Type v) := List γ × List γ

variable {α : Type u} {γ : Type v} (fits : α → γ → Bool)

/-- Move over one character. -/
def consume (accepts : γ → Bool) (place : Place γ) : List (Place γ) :=
  match place.2 with
  | [] => []
  | next :: rest => if accepts next then [(next :: place.1, rest)] else []

/-- Repeat a move so many times at most, and only while it makes progress. -/
def repeats (moves : Place γ → List (Place γ)) : Nat → Place γ → List (Place γ)
  | 0, place => [place]
  | count + 1, place =>
    ((moves place).filter fun next => next.2.length < place.2.length).flatMap
      (repeats moves count) ++ [place]

/-- The places that a pattern moves to. -/
def moves : Pattern α → Place γ → List (Place γ)
  | .empty, place => [place]
  | .start, place => if place.1.isEmpty then [place] else []
  | .finish, place => if place.2.isEmpty then [place] else []
  | .any, place => consume (fun _ => true) place
  | .literal character, place => consume (fits character) place
  | .oneOf characters, place =>
    consume (fun next => characters.any fun character => fits character next) place
  | .sequence first second, place => (moves first place).flatMap (moves second)
  | .either first second, place => moves first place ++ moves second place
  | .star body, place => repeats (moves body) place.2.length place

/-- All places of a text, from a first one on. -/
def places (before : List γ) : List γ → List (Place γ)
  | [] => [(before, [])]
  | next :: rest => (before, next :: rest) :: places (next :: before) rest

/-- `test` -/
def test (pattern : Pattern α) (text : List γ) : Bool :=
  (places [] text).any fun place => !(moves fits pattern place).isEmpty

/-! ## Moves -/

/-- One place lies behind another, with a text in between. -/
def Reaches (place next : Place γ) : Prop :=
  ∃ between, place.2 = between ++ next.2 ∧ next.1 = between.reverse ++ place.1

/-- A place reaches itself. -/
theorem reaches_refl (place : Place γ) : Reaches place place := ⟨[], rfl, rfl⟩

/-- What is reached from a place that is reached is reached. -/
theorem reaches_trans {first second third : Place γ} (earlier : Reaches first second)
    (later : Reaches second third) : Reaches first third := by
  obtain ⟨one, text, before⟩ := earlier
  obtain ⟨two, textLater, beforeLater⟩ := later
  refine ⟨one ++ two, ?_, ?_⟩
  · rw [text, textLater, List.append_assoc]
  · rw [beforeLater, before, List.reverse_append, List.append_assoc]

/-- A place that is reached without progress is the same. -/
theorem reaches_eq {place next : Place γ} (reaches : Reaches place next)
    (still : ¬ next.2.length < place.2.length) : next = place := by
  obtain ⟨between, text, before⟩ := reaches
  rw [text, List.length_append] at still
  have nothing : between = [] := List.eq_nil_of_length_eq_zero (by omega)
  rw [nothing, List.nil_append] at text
  rw [nothing, List.reverse_nil, List.nil_append] at before
  exact Prod.ext before text.symm

variable {fits}

section Laws

variable {place next : Place γ}

/-- The empty pattern stays at its place. -/
@[simp] theorem mem_empty : next ∈ moves fits .empty place ↔ next = place := List.mem_singleton

/-- The start stays at its place, where no character is before it. -/
@[simp] theorem mem_start : next ∈ moves fits .start place ↔ place.1 = [] ∧ next = place := by
  rw [moves]
  split <;> simp_all

/-- The end stays at its place, where no character is behind it. -/
@[simp] theorem mem_finish : next ∈ moves fits .finish place ↔ place.2 = [] ∧ next = place := by
  rw [moves]
  split <;> simp_all

/-- One character that is accepted is consumed. -/
theorem mem_consume {accepts : γ → Bool} : next ∈ consume accepts place ↔
    ∃ character, accepts character = true ∧ place.2 = character :: next.2 ∧
      next.1 = character :: place.1 := by
  obtain ⟨before, text⟩ := place
  cases text with
  | nil => simp [consume]
  | cons first rest =>
    simp only [consume]
    split
    next accepted =>
      rw [List.mem_singleton]
      constructor
      · rintro rfl
        exact ⟨first, accepted, rfl, rfl⟩
      · rintro ⟨character, _, text, before⟩
        obtain ⟨rfl, rest⟩ := List.cons.inj text
        exact Prod.ext before rest.symm
    next refused =>
      constructor
      · exact fun member => absurd member List.not_mem_nil
      · rintro ⟨character, accepted, text, _⟩
        obtain ⟨rfl, _⟩ := List.cons.inj text
        exact absurd accepted refused

/-- Any character is consumed. -/
theorem mem_any : next ∈ moves fits .any place ↔
    ∃ character, place.2 = character :: next.2 ∧ next.1 = character :: place.1 := by
  rw [moves, mem_consume]
  simp

/-- A character that fits is consumed. -/
theorem mem_literal {character : α} : next ∈ moves fits (.literal character) place ↔
    ∃ found, fits character found = true ∧ place.2 = found :: next.2 ∧
      next.1 = found :: place.1 :=
  mem_consume

/-- A character that fits one of the list is consumed. -/
theorem mem_oneOf {characters : List α} : next ∈ moves fits (.oneOf characters) place ↔
    ∃ found, (∃ character ∈ characters, fits character found = true) ∧
      place.2 = found :: next.2 ∧ next.1 = found :: place.1 := by
  rw [moves, mem_consume]
  simp only [List.any_eq_true]

/-- A sequence moves by its first pattern, then by its second. -/
@[simp] theorem mem_sequence {first second : Pattern α} :
    next ∈ moves fits (.sequence first second) place ↔
      ∃ middle ∈ moves fits first place, next ∈ moves fits second middle :=
  List.mem_flatMap

/-- A choice moves by either of its patterns. -/
@[simp] theorem mem_either {first second : Pattern α} :
    next ∈ moves fits (.either first second) place ↔
      next ∈ moves fits first place ∨ next ∈ moves fits second place :=
  List.mem_append

/-- What repeats a move that reaches places behind reaches places behind. -/
theorem repeats_reaches {step : Place γ → List (Place γ)}
    (reaches : ∀ place next, next ∈ step place → Reaches place next) {count : Nat}
    (member : next ∈ repeats step count place) : Reaches place next := by
  induction count generalizing place with
  | zero =>
    rw [repeats, List.mem_singleton] at member
    exact member ▸ reaches_refl place
  | succ count inductionHypothesis =>
    rw [repeats, List.mem_append, List.mem_flatMap, List.mem_singleton] at member
    obtain ⟨middle, first, later⟩ | rfl := member
    · exact reaches_trans (reaches _ _ (List.mem_filter.mp first).1) (inductionHypothesis later)
    · exact reaches_refl next

/-- A pattern only moves to places behind. -/
theorem moves_reaches {pattern : Pattern α} (member : next ∈ moves fits pattern place) :
    Reaches place next := by
  induction pattern generalizing place next with
  | empty =>
    rw [mem_empty] at member
    exact member ▸ reaches_refl place
  | start =>
    rw [mem_start] at member
    exact member.2 ▸ reaches_refl place
  | finish =>
    rw [mem_finish] at member
    exact member.2 ▸ reaches_refl place
  | any =>
    obtain ⟨character, text, before⟩ := mem_any.mp member
    exact ⟨[character], text, before⟩
  | literal character =>
    obtain ⟨found, _, text, before⟩ := mem_literal.mp member
    exact ⟨[found], text, before⟩
  | oneOf characters =>
    obtain ⟨found, _, text, before⟩ := mem_oneOf.mp member
    exact ⟨[found], text, before⟩
  | sequence first second firstHypothesis secondHypothesis =>
    obtain ⟨middle, earlier, later⟩ := mem_sequence.mp member
    exact reaches_trans (firstHypothesis earlier) (secondHypothesis later)
  | either first second firstHypothesis secondHypothesis =>
    obtain left | right := mem_either.mp member
    · exact firstHypothesis left
    · exact secondHypothesis right
  | star body bodyHypothesis =>
    exact repeats_reaches (fun _ _ => bodyHypothesis) member

/-- A repetition moves along the reflexive and transitive closure of its body. -/
theorem mem_star {body : Pattern α} : next ∈ moves fits (.star body) place ↔
    Relation.ReflTransGen (fun place next => next ∈ moves fits body place) place next := by
  have sound {count : Nat} {place : Place γ} (member : next ∈ repeats (moves fits body) count place) :
      Relation.ReflTransGen (fun place next => next ∈ moves fits body place) place next := by
    induction count generalizing place with
    | zero =>
      rw [repeats, List.mem_singleton] at member
      exact member ▸ Relation.ReflTransGen.refl
    | succ count inductionHypothesis =>
      rw [repeats, List.mem_append, List.mem_flatMap, List.mem_singleton] at member
      obtain ⟨middle, first, later⟩ | rfl := member
      · exact .head (List.mem_filter.mp first).1 (inductionHypothesis later)
      · exact .refl
  constructor
  · exact fun member => sound member
  · intro run
    -- Moves without progress are left out, so that no more are needed than there are characters.
    have complete : ∀ count, place.2.length ≤ count → next ∈ repeats (moves fits body) count place := by
      induction run using Relation.ReflTransGen.head_induction_on with
      | refl =>
        intro count _
        cases count with
        | zero => exact List.mem_singleton_self _
        | succ count => exact List.mem_append_right _ (List.mem_singleton_self _)
      | @head here middle first _ inductionHypothesis =>
        intro count enough
        by_cases progress : middle.2.length < here.2.length
        · obtain ⟨fewer, rfl⟩ := Nat.exists_eq_add_one_of_ne_zero (show count ≠ 0 by omega)
          rw [repeats, List.mem_append, List.mem_flatMap]
          refine .inl ⟨middle, ?_, inductionHypothesis fewer (by omega)⟩
          rw [List.mem_filter, decide_eq_true_eq]
          exact ⟨first, progress⟩
        · have same := reaches_eq (moves_reaches first) progress
          rw [← same]
          exact inductionHypothesis count (same ▸ enough)
    exact complete _ (Nat.le_refl _)

end Laws

/-! ## Texts -/

theorem mem_places {before text : List γ} {place : Place γ} :
    place ∈ places before text ↔ Reaches (before, text) place := by
  induction text generalizing before with
  | nil =>
    rw [places, List.mem_singleton]
    constructor
    · rintro rfl
      exact reaches_refl _
    · rintro ⟨between, text, front⟩
      obtain ⟨rfl, rest⟩ := List.append_eq_nil_iff.mp text.symm
      exact Prod.ext front rest
  | cons next rest inductionHypothesis =>
    rw [places, List.mem_cons, inductionHypothesis]
    constructor
    · rintro (rfl | ⟨between, text, front⟩)
      · exact reaches_refl _
      · refine ⟨next :: between, ?_, ?_⟩
        · exact congrArg (next :: ·) text
        · rw [front, List.reverse_cons, List.append_assoc]
          rfl
    · rintro ⟨between, text, front⟩
      cases between with
      | nil => exact .inl (Prod.ext front text.symm)
      | cons first between =>
        obtain ⟨rfl, remaining⟩ := List.cons.inj text
        refine .inr ⟨between, remaining, ?_⟩
        rw [front, List.reverse_cons, List.append_assoc]
        rfl

/-- A text passes where a pattern moves on from one of its places. -/
theorem test_iff {pattern : Pattern α} {text : List γ} : test fits pattern text = true ↔
    ∃ before rest next, text = before ++ rest ∧ next ∈ moves fits pattern (before.reverse, rest) := by
  simp only [test, List.any_eq_true, Bool.not_eq_true', List.isEmpty_eq_false_iff_exists_mem]
  constructor
  · rintro ⟨⟨front, rest⟩, member, next, moved⟩
    obtain ⟨between, whole, before⟩ := mem_places.mp member
    refine ⟨between, rest, next, whole, ?_⟩
    rw [List.append_nil] at before
    exact before ▸ moved
  · rintro ⟨before, rest, next, whole, moved⟩
    refine ⟨(before.reverse, rest), ?_, next, moved⟩
    exact mem_places.mpr ⟨before, whole, (List.append_nil _).symm⟩

/-- The empty pattern in front changes no test. -/
theorem test_sequence_empty {pattern : Pattern α} {text : List γ} :
    test fits (.sequence .empty pattern) text = test fits pattern text := by
  simp [test, moves]

/-- A choice is found where either of its patterns is. -/
theorem test_either {first second : Pattern α} {text : List γ} :
    test fits (.either first second) text = true ↔
      test fits first text = true ∨ test fits second text = true := by
  rw [test_iff, test_iff, test_iff]
  constructor
  · rintro ⟨before, rest, next, whole, moved⟩
    obtain left | right := mem_either.mp moved
    · exact .inl ⟨before, rest, next, whole, left⟩
    · exact .inr ⟨before, rest, next, whole, right⟩
  · rintro (⟨before, rest, next, whole, moved⟩ | ⟨before, rest, next, whole, moved⟩)
    · exact ⟨before, rest, next, whole, mem_either.mpr (.inl moved)⟩
    · exact ⟨before, rest, next, whole, mem_either.mpr (.inr moved)⟩

/-- Patterns one behind the other, behind a first one. -/
def chain (first : Pattern α) (others : List (Pattern α)) : Pattern α :=
  others.foldl .sequence first

/-- A chain moves by its first pattern, then by the others. -/
theorem mem_chain {first : Pattern α} {others : List (Pattern α)} {place next : Place γ} :
    next ∈ moves fits (chain first others) place ↔
      ∃ middle ∈ moves fits first place, next ∈ moves fits (chain .empty others) middle := by
  induction others generalizing first place next with
  | nil => simp [chain]
  | cons pattern rest inductionHypothesis =>
    have split (front : Pattern α) :
        chain front (pattern :: rest) = chain (.sequence front pattern) rest := rfl
    rw [split, split, inductionHypothesis]
    constructor
    · rintro ⟨middle, moved, later⟩
      obtain ⟨here, earlier, moved⟩ := mem_sequence.mp moved
      refine ⟨here, earlier, inductionHypothesis.mpr ⟨middle, ?_, later⟩⟩
      exact mem_sequence.mpr ⟨here, mem_empty.mpr rfl, moved⟩
    · rintro ⟨here, earlier, later⟩
      obtain ⟨middle, moved, later⟩ := inductionHypothesis.mp later
      obtain ⟨same, empty, moved⟩ := mem_sequence.mp moved
      rw [mem_empty.mp empty] at moved
      exact ⟨middle, mem_sequence.mpr ⟨here, earlier, moved⟩, later⟩

/-! ## Patterns for finitely many words -/

namespace Pattern

/-- The pattern asks for no place and repeats nothing. -/
def isFinite : Pattern α → Bool
  | .empty | .literal _ | .oneOf _ => true
  | .sequence first second | .either first second => first.isFinite && second.isFinite
  | _ => false

/-- The words of a pattern for finitely many. -/
def words : Pattern α → List (List α)
  | .literal character => [[character]]
  | .oneOf characters => characters.map fun character => [character]
  | .sequence first second => first.words.flatMap fun front => second.words.map (front ++ ·)
  | .either first second => first.words ++ second.words
  | _ => [[]]

end Pattern

/-- A text that stands for a word lies between two places. -/
def Spells (fits : α → γ → Bool) (word : List α) (place next : Place γ) : Prop :=
  ∃ text, List.Forall₂ (fun character found => fits character found = true) word text ∧
    place.2 = text ++ next.2 ∧ next.1 = text.reverse ++ place.1

/-- No characters are spelled by staying. -/
theorem spells_nil {place next : Place γ} : Spells fits [] place next ↔ next = place := by
  constructor
  · rintro ⟨text, empty, after, before⟩
    cases empty
    exact Prod.ext before after.symm
  · rintro rfl
    exact ⟨[], .nil, rfl, rfl⟩

/-- Characters are spelled in two parts. -/
theorem spells_append {first second : List α} {place next : Place γ} :
    Spells fits (first ++ second) place next ↔
      ∃ middle, Spells fits first place middle ∧ Spells fits second middle next := by
  constructor
  · rintro ⟨text, spelled, after, before⟩
    have front := List.forall₂_take first.length spelled
    have back := List.forall₂_drop first.length spelled
    rw [List.take_left] at front
    rw [List.drop_left] at back
    have whole := List.take_append_drop first.length text
    refine ⟨((text.take first.length).reverse ++ place.1, text.drop first.length ++ next.2),
      ⟨_, front, ?_, rfl⟩, ⟨_, back, rfl, ?_⟩⟩
    · rw [after, ← List.append_assoc, whole]
    · rw [before, ← List.append_assoc, ← List.reverse_append, whole]
  · rintro ⟨middle, ⟨front, spelledFront, after, before⟩, back, spelledBack, afterBack, beforeBack⟩
    refine ⟨front ++ back, ?_, ?_, ?_⟩
    · exact List.rel_append spelledFront spelledBack
    · rw [after, afterBack, List.append_assoc]
    · rw [beforeBack, before, List.reverse_append, List.append_assoc]

/-- One character is spelled by a move of one character. -/
theorem spells_single {character : α} {place next : Place γ} :
    Spells fits [character] place next ↔ ∃ found, fits character found = true ∧
      place.2 = found :: next.2 ∧ next.1 = found :: place.1 := by
  constructor
  · rintro ⟨text, spelled, after, before⟩
    obtain ⟨found, rest, fitting, empty, rfl⟩ := List.forall₂_cons_left_iff.mp spelled
    cases empty
    exact ⟨found, fitting, after, before⟩
  · rintro ⟨found, fitting, after, before⟩
    exact ⟨[found], .cons fitting .nil, after, before⟩

/-- A pattern for finitely many words moves over the texts of its words. -/
theorem mem_words {pattern : Pattern α} (finite : pattern.isFinite = true) {place next : Place γ} :
    next ∈ moves fits pattern place ↔ ∃ word ∈ pattern.words, Spells fits word place next := by
  induction pattern generalizing place next with
  | empty => simp [Pattern.words, spells_nil]
  | start => cases finite
  | finish => cases finite
  | any => cases finite
  | star => cases finite
  | literal character =>
    rw [mem_literal, Pattern.words]
    simp [spells_single]
  | oneOf characters =>
    rw [mem_oneOf, Pattern.words]
    constructor
    · rintro ⟨found, ⟨character, member, fitting⟩, after, before⟩
      refine ⟨[character], List.mem_map.mpr ⟨character, member, rfl⟩, ?_⟩
      exact spells_single.mpr ⟨found, fitting, after, before⟩
    · rintro ⟨word, member, spelled⟩
      obtain ⟨character, inside, rfl⟩ := List.mem_map.mp member
      obtain ⟨found, fitting, after, before⟩ := spells_single.mp spelled
      exact ⟨found, ⟨character, inside, fitting⟩, after, before⟩
  | sequence first second firstHypothesis secondHypothesis =>
    obtain ⟨firstFinite, secondFinite⟩ := Bool.and_eq_true_iff.mp finite
    rw [mem_sequence, Pattern.words]
    constructor
    · rintro ⟨middle, earlier, later⟩
      obtain ⟨front, memberFront, spelledFront⟩ := (firstHypothesis firstFinite).mp earlier
      obtain ⟨back, memberBack, spelledBack⟩ := (secondHypothesis secondFinite).mp later
      refine ⟨front ++ back, ?_, spells_append.mpr ⟨middle, spelledFront, spelledBack⟩⟩
      exact List.mem_flatMap.mpr ⟨front, memberFront, List.mem_map.mpr ⟨back, memberBack, rfl⟩⟩
    · rintro ⟨word, member, spelled⟩
      obtain ⟨front, memberFront, member⟩ := List.mem_flatMap.mp member
      obtain ⟨back, memberBack, rfl⟩ := List.mem_map.mp member
      obtain ⟨middle, spelledFront, spelledBack⟩ := spells_append.mp spelled
      exact ⟨middle, (firstHypothesis firstFinite).mpr ⟨front, memberFront, spelledFront⟩,
        (secondHypothesis secondFinite).mpr ⟨back, memberBack, spelledBack⟩⟩
  | either first second firstHypothesis secondHypothesis =>
    obtain ⟨firstFinite, secondFinite⟩ := Bool.and_eq_true_iff.mp finite
    rw [mem_either, firstHypothesis firstFinite, secondHypothesis secondFinite, Pattern.words]
    simp only [List.mem_append, or_and_right, exists_or]

/-- A pattern for finitely many words passes texts with one of its words inside. -/
theorem test_words {pattern : Pattern α} (finite : pattern.isFinite = true) {text : List γ} :
    test fits pattern text = true ↔ ∃ word ∈ pattern.words, ∃ before found after,
      text = before ++ found ++ after ∧
        List.Forall₂ (fun character found => fits character found = true) word found := by
  rw [test_iff]
  constructor
  · rintro ⟨before, rest, next, whole, moved⟩
    obtain ⟨word, member, found, spelled, after, _⟩ := (mem_words finite).mp moved
    refine ⟨word, member, before, found, next.2, ?_, spelled⟩
    rw [whole, List.append_assoc]
    exact congrArg (before ++ ·) after
  · rintro ⟨word, member, before, found, after, whole, spelled⟩
    refine ⟨before, found ++ after, (found.reverse ++ before.reverse, after), ?_, ?_⟩
    · rw [whole, List.append_assoc]
    · exact (mem_words finite).mpr ⟨word, member, found, spelled, rfl, rfl⟩

/-- A word behind a pattern for finitely many words. -/
theorem chain_literals {first : Pattern α} (finite : first.isFinite = true) (word : List α) :
    (chain first (word.map .literal)).isFinite = true ∧
      (chain first (word.map .literal)).words = first.words.map (· ++ word) := by
  induction word generalizing first with
  | nil => simp [chain, finite]
  | cons character rest inductionHypothesis =>
    have longer : (Pattern.sequence first (.literal character)).isFinite = true := by
      simp [Pattern.isFinite, finite]
    obtain ⟨finiteRest, words⟩ := inductionHypothesis longer
    refine ⟨finiteRest, ?_⟩
    change (chain (.sequence first (.literal character)) (rest.map .literal)).words = _
    rw [words, Pattern.words, Pattern.words]
    simp only [List.map_cons, List.map_nil, List.map_flatMap, List.append_assoc,
      List.singleton_append]
    exact List.map_eq_flatMap.symm

end OpencodePty.RegularExpressions
