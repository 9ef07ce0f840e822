import Mathlib.Data.List.Basic

/-!
# Runs of a transition function

A system that takes one input at a time is a function from a state and an input
to the next state; a run folds it over the inputs. What one step preserves, every
run preserves, and a fact that a step keeps only in states with some invariant is
kept by every run from such a state.
-/

namespace OpencodePty.Transitions

universe u v
variable {σ : Type u} {ι : Type v}

/-- The state reached by taking the inputs in order. -/
def run (step : σ → ι → σ) (start : σ) (inputs : List ι) : σ := inputs.foldl step start

@[simp]
theorem run_nil (step : σ → ι → σ) (start : σ) : run step start [] = start := rfl

@[simp]
theorem run_cons (step : σ → ι → σ) (start : σ) (input : ι) (rest : List ι) :
    run step start (input :: rest) = run step (step start input) rest := rfl

theorem run_append (step : σ → ι → σ) (start : σ) (first second : List ι) :
    run step start (first ++ second) = run step (run step start first) second :=
  List.foldl_append

/-- What every step preserves holds throughout a run. -/
theorem run_preserves {step : σ → ι → σ} {invariant : σ → Prop}
    (preserved : ∀ state input, invariant state → invariant (step state input))
    (start : σ) (inputs : List ι) (initially : invariant start) :
    invariant (run step start inputs) := by
  induction inputs generalizing start with
  | nil => exact initially
  | cons input rest inductionHypothesis =>
    exact inductionHypothesis (step start input) (preserved start input initially)

/-- A fact that steps keep in states with an invariant is kept by runs from them. -/
theorem run_preserves_under {step : σ → ι → σ} {invariant fact : σ → Prop}
    (preserved : ∀ state input, invariant state → invariant (step state input))
    (kept : ∀ state input, invariant state → fact state → fact (step state input))
    (start : σ) (inputs : List ι) (initially : invariant start) (holds : fact start) :
    fact (run step start inputs) := by
  have both : invariant (run step start inputs) ∧ fact (run step start inputs) :=
    @run_preserves σ ι step (fun state => invariant state ∧ fact state)
      (fun state input now => ⟨preserved state input now.1, kept state input now.1 now.2⟩)
      start inputs ⟨initially, holds⟩
  exact both.2

/-- Every step of a run meets a condition in the state before it. -/
def Along (step : σ → ι → σ) (condition : σ → ι → Prop) : σ → List ι → Prop
  | _, [] => True
  | state, input :: rest => condition state input ∧ Along step condition (step state input) rest

theorem along_append {step : σ → ι → σ} {condition : σ → ι → Prop} {start : σ}
    {first second : List ι} (met : Along step condition start (first ++ second)) :
    Along step condition start first ∧ Along step condition (run step start first) second := by
  induction first generalizing start with
  | nil => exact ⟨trivial, met⟩
  | cons input rest inductionHypothesis =>
    obtain ⟨now, later⟩ := inductionHypothesis met.2
    exact ⟨⟨met.1, now⟩, later⟩

/-- A run meets a condition where each of its inputs does, in the state that those before it
lead to. -/
theorem along_of_steps {step : σ → ι → σ} {condition : σ → ι → Prop} {start : σ} {inputs : List ι}
    (met : ∀ before input, before ++ [input] <+: inputs → condition (run step start before) input) :
    Along step condition start inputs := by
  induction inputs generalizing start with
  | nil => trivial
  | cons input rest inductionHypothesis =>
    refine ⟨met [] input ⟨rest, rfl⟩, inductionHypothesis ?_⟩
    intro before later inside
    exact met (input :: before) later ((List.cons_prefix_cons).mpr ⟨rfl, inside⟩)

/-- A run meets two conditions where it meets each of them. -/
theorem Along.both {step : σ → ι → σ} {first second : σ → ι → Prop} {start : σ} {inputs : List ι}
    (one : Along step first start inputs) (two : Along step second start inputs) :
    Along step (fun state input => first state input ∧ second state input) start inputs := by
  induction inputs generalizing start with
  | nil => trivial
  | cons input rest inductionHypothesis =>
    exact ⟨⟨one.1, two.1⟩, inductionHypothesis one.2 two.2⟩

instance decidableAlong (step : σ → ι → σ) (condition : σ → ι → Prop)
    [∀ state input, Decidable (condition state input)] :
    (start : σ) → (inputs : List ι) → Decidable (Along step condition start inputs)
  | _, [] => inferInstanceAs (Decidable True)
  | state, input :: rest =>
    have := decidableAlong step condition (step state input) rest
    inferInstanceAs (Decidable (condition state input ∧ _))

/-- What a step preserves where it meets a condition is preserved by a run all of whose steps
meet it. -/
theorem run_preserves_along {step : σ → ι → σ} {condition : σ → ι → Prop} {invariant : σ → Prop}
    (preserved : ∀ state input, invariant state → condition state input →
      invariant (step state input))
    (start : σ) (inputs : List ι) (initially : invariant start)
    (met : Along step condition start inputs) : invariant (run step start inputs) := by
  induction inputs generalizing start with
  | nil => exact initially
  | cons input rest inductionHypothesis =>
    exact inductionHypothesis (step start input) (preserved start input initially met.1) met.2

end OpencodePty.Transitions
