import OpencodePty.BashTool

/-!
# Rules of permissions

The rules of a configuration are those for every agent and then those of the agent. A question is denied
where any rule that matches denies, and else it has the action of the last rule that matches.
-/

namespace OpencodePty.PermissionRules

open OpencodePty.JsValues OpencodePty.BashTool

/-! ## Matching -/

section Rules

variable (host : Host) (config : Config) (agent permission input : JsString)

/-- The rules of a configuration for an agent: those for every agent come first. -/
def rules : List Rule :=
  let ofAgent := if agent.isEmpty then none else (config.agent.lookup agent).join
  (config.permission.toList ++ ofAgent.toList).flatMap rulesFor

def isMatching (rule : Rule) : Bool :=
  wildcardMatch host permission rule.permission && wildcardMatch host input rule.pattern

/-- The rules that match a permission and what it is asked for, in their order. -/
def matching : List Rule := (rules config agent).filter (isMatching host permission input)

/-- The action of the last rule that matches. -/
def lastAction : Option PermissionAction :=
  (matching host config agent permission input).getLast?.map Rule.action

end Rules

section Evaluation

variable {host : Host} {config : Config} {agent permission input : JsString}

/-- The loop over the rules, after a result. -/
theorem evaluateRules_eq (result : Option PermissionAction) (all : List Rule) :
    evaluateRules host permission input result all =
      if ∃ rule ∈ all.filter (isMatching host permission input), rule.action = .deny then some .deny
      else ((all.filter (isMatching host permission input)).getLast?.map Rule.action).or result := by
  induction all generalizing result with
  | nil => simp [evaluateRules]
  | cons rule rest inductionHypothesis =>
    by_cases found : isMatching host permission input rule = true
    · have taken : evaluateRules host permission input result (rule :: rest) =
          if rule.action = .deny then some .deny
          else evaluateRules host permission input (some rule.action) rest := if_pos found
      rw [taken, List.filter_cons_of_pos found]
      by_cases denies : rule.action = .deny
      · rw [if_pos denies, if_pos ⟨rule, List.mem_cons_self, denies⟩]
      · -- The action holds unless a later rule matches.
        rw [if_neg denies, inductionHypothesis, List.getLast?_cons]
        simp only [List.exists_mem_cons_iff, denies, false_or]
        cases (rest.filter (isMatching host permission input)).getLast? <;> rfl
    · have passed : evaluateRules host permission input result (rule :: rest) =
          evaluateRules host permission input result rest := if_neg found
      rw [passed, List.filter_cons_of_neg found, inductionHypothesis]

theorem evaluate_eq : evaluate host config agent permission input =
    if ∃ rule ∈ matching host config agent permission input, rule.action = .deny then some .deny
    else lastAction host config agent permission input := by
  have loop : evaluate host config agent permission input = _ :=
    evaluateRules_eq none (rules config agent)
  rwa [Option.or_none] at loop

/-- A matching rule that denies is not overridden. -/
theorem evaluate_deny : evaluate host config agent permission input = some .deny ↔
    ∃ rule ∈ matching host config agent permission input, rule.action = .deny := by
  rw [evaluate_eq]
  split
  next denied => exact iff_of_true rfl denied
  next allowed =>
    refine iff_of_false (fun last => allowed ?_) allowed
    obtain ⟨rule, found, denies⟩ := Option.map_eq_some_iff.mp last
    exact ⟨rule, List.mem_of_getLast? found, denies⟩

/-- Where no rule denies, the last one decides. -/
theorem evaluate_allow : evaluate host config agent permission input = some .allow ↔
    (∀ rule ∈ matching host config agent permission input, rule.action ≠ .deny) ∧
      lastAction host config agent permission input = some .allow := by
  rw [evaluate_eq]
  split
  next denied =>
    obtain ⟨rule, found, denies⟩ := denied
    refine iff_of_false nofun fun allowed => allowed.1 rule found denies
  next allowed =>
    push Not at allowed
    exact (and_iff_right allowed).symm

end Evaluation

end OpencodePty.PermissionRules
