import Mathlib.Data.List.Infix
import Mathlib.Tactic.Common

/-!
# Replacing substrings by a marker

A text is covered by replacing some of its non-empty substrings by a fixed marker.
Where a pattern shares no symbol with the marker, every occurrence of it in the
covered text is an occurrence in the original text, and the parts before and after
it are covered separately. Replacing every occurrence of such a pattern, from the
left and without overlap, leaves none of it behind and brings no other one in.
-/

namespace OpencodePty.Substitution

universe u v
variable {α : Type u}

/-- The pattern shares no symbol with the marker. -/
def Foreign (marker pattern : List α) : Prop := ∀ symbol ∈ pattern, symbol ∉ marker

instance [DecidableEq α] (marker pattern : List α) : Decidable (Foreign marker pattern) :=
  decidable_of_iff (pattern.all fun symbol => !marker.contains symbol) (by simp [Foreign])

/-- The second list is the first with some substrings replaced by the marker. -/
inductive Covered (marker : List α) : List α → List α → Prop
  | nil : Covered marker [] []
  | keep (symbol : α) {text shown : List α} :
      Covered marker text shown → Covered marker (symbol :: text) (symbol :: shown)
  | hide (hidden : List α) {text shown : List α} :
      Covered marker text shown → Covered marker (hidden ++ text) (marker ++ shown)

namespace Covered

variable {marker : List α}

theorem refl (text : List α) : Covered marker text text := by
  induction text with
  | nil => exact nil
  | cons symbol rest inductionHypothesis => exact keep symbol inductionHypothesis

theorem append {first firstShown second secondShown : List α}
    (before : Covered marker first firstShown) (after : Covered marker second secondShown) :
    Covered marker (first ++ second) (firstShown ++ secondShown) := by
  induction before with
  | nil => exact after
  | keep symbol _ inductionHypothesis => exact keep symbol inductionHypothesis
  | hide hidden _ inductionHypothesis =>
    rw [List.append_assoc, List.append_assoc]
    exact hide hidden inductionHypothesis

/-- A foreign text at the start of what is shown stands at the start of the text. -/
theorem starts {text pattern rest : List α} (nonempty : marker ≠ [])
    (foreign : Foreign marker pattern) (covered : Covered marker text (pattern ++ rest)) :
    ∃ remaining, text = pattern ++ remaining ∧ Covered marker remaining rest := by
  induction pattern generalizing text with
  | nil => exact ⟨text, rfl, covered⟩
  | cons symbol pattern inductionHypothesis =>
    have tail : Foreign marker pattern := fun other member =>
      foreign other (List.mem_cons_of_mem symbol member)
    generalize shown : symbol :: pattern ++ rest = all at covered
    cases covered with
    | nil => simp at shown
    | keep first covered =>
      obtain ⟨rfl, rfl⟩ := List.cons.inj shown
      obtain ⟨remaining, rfl, remainder⟩ := inductionHypothesis tail covered
      exact ⟨remaining, rfl, remainder⟩
    | hide hidden covered =>
      obtain ⟨head, others, rfl⟩ := List.exists_cons_of_ne_nil nonempty
      obtain ⟨rfl, _⟩ := List.cons.inj shown
      exact absurd List.mem_cons_self (foreign symbol List.mem_cons_self)

/-- A foreign symbol that is shown splits the text and its cover alike. -/
theorem split {text before after : List α} {symbol : α} (foreign : symbol ∉ marker)
    (covered : Covered marker text (before ++ symbol :: after)) :
    ∃ first second, text = first ++ symbol :: second ∧
      Covered marker first before ∧ Covered marker second after := by
  generalize shown : before ++ symbol :: after = all at covered
  induction covered generalizing before with
  | nil => simp at shown
  | keep kept covered inductionHypothesis =>
    cases before with
    | nil =>
      obtain ⟨rfl, rfl⟩ := List.cons.inj shown
      exact ⟨[], _, rfl, nil, covered⟩
    | cons head before =>
      obtain ⟨rfl, same⟩ := List.cons.inj shown
      obtain ⟨first, second, rfl, left, right⟩ := inductionHypothesis same
      exact ⟨head :: first, second, rfl, keep head left, right⟩
  | hide hidden covered inductionHypothesis =>
    rcases List.append_eq_append_iff.mp shown with ⟨more, within, rest⟩ | ⟨more, rfl, rest⟩
    · cases more with
      | nil =>
        obtain ⟨first, second, rfl, left, right⟩ :=
          inductionHypothesis (by simpa using rest : ([] : List α) ++ symbol :: after = _)
        refine ⟨hidden ++ first, second, by simp, ?_, right⟩
        have whole : before = marker ++ [] := by simpa using within.symm
        rw [whole]
        exact hide hidden left
      | cons head more =>
        obtain ⟨rfl, _⟩ := List.cons.inj rest
        exact absurd (within ▸ by simp) foreign
    · obtain ⟨first, second, rfl, left, right⟩ := inductionHypothesis rest.symm
      exact ⟨hidden ++ first, second, by simp, hide hidden left, right⟩

/-- An occurrence of a foreign pattern in what is shown is one in the text, with the
text before and after it covered by what is shown there. -/
theorem occurrence {text before pattern after : List α} (nonempty : marker ≠ [])
    (foreign : Foreign marker pattern) (proper : pattern ≠ [])
    (covered : Covered marker text (before ++ (pattern ++ after))) :
    ∃ first second, text = first ++ (pattern ++ second) ∧
      Covered marker first before ∧ Covered marker second after := by
  obtain ⟨symbol, others, rfl⟩ := List.exists_cons_of_ne_nil proper
  obtain ⟨first, rest, rfl, left, right⟩ :=
    split (foreign symbol List.mem_cons_self) covered
  have tail : Foreign marker others := fun other member =>
    foreign other (List.mem_cons_of_mem symbol member)
  obtain ⟨second, rfl, remainder⟩ := starts nonempty tail right
  exact ⟨first, second, rfl, left, remainder⟩

theorem infix_of_shown {text shown pattern : List α} (nonempty : marker ≠ [])
    (foreign : Foreign marker pattern) (covered : Covered marker text shown)
    (occurs : pattern <:+: shown) : pattern <:+: text := by
  by_cases proper : pattern = []
  · subst proper
    exact List.nil_infix
  · obtain ⟨before, after, rfl⟩ := occurs
    rw [List.append_assoc] at covered
    obtain ⟨first, second, rfl, _⟩ := occurrence nonempty foreign proper covered
    exact ⟨first, second, by simp⟩

end Covered

/-- A foreign pattern across the end of a marker lies wholly after it. -/
theorem infix_after_marker {marker pattern shown : List α} (foreign : Foreign marker pattern)
    (proper : pattern ≠ []) (occurs : pattern <:+: marker ++ shown) : pattern <:+: shown := by
  rcases List.infix_append_iff.mp occurs with inside | behind | ⟨first, second, rfl, ends, starts⟩
  · obtain ⟨symbol, others, rfl⟩ := List.exists_cons_of_ne_nil proper
    exact absurd (inside.subset List.mem_cons_self) (foreign symbol List.mem_cons_self)
  · exact behind
  · cases first with
    | nil => exact starts.isInfix
    | cons symbol first =>
      exact absurd (ends.subset List.mem_cons_self) (foreign symbol (by simp))

/-- A foreign pattern across the start of a marker lies wholly before it. -/
theorem infix_before_marker {marker pattern shown : List α} (foreign : Foreign marker pattern)
    (proper : pattern ≠ []) (occurs : pattern <:+: shown ++ marker) : pattern <:+: shown := by
  rcases List.infix_append_iff.mp occurs with inside | behind | ⟨first, second, rfl, ends, starts⟩
  · exact inside
  · obtain ⟨symbol, others, rfl⟩ := List.exists_cons_of_ne_nil proper
    exact absurd (behind.subset List.mem_cons_self) (foreign symbol List.mem_cons_self)
  · cases second with
    | nil => simpa using ends.isInfix
    | cons symbol second =>
      exact absurd (starts.subset List.mem_cons_self) (foreign symbol (by simp))

/-- A walk that passes over a number of symbols before it starts is one of the rest. -/
theorem skip_drop {β : Type v} {walk : Nat → List α → β}
    (ends : ∀ skip, walk (skip + 1) [] = walk 0 [])
    (passes : ∀ skip symbol rest, walk (skip + 1) (symbol :: rest) = walk skip rest) (skip : Nat)
    (text : List α) : walk skip text = walk 0 (text.drop skip) := by
  induction text generalizing skip with
  | nil =>
    cases skip with
    | zero => rfl
    | succ skip => exact ends skip
  | cons symbol rest inductionHypothesis =>
    cases skip with
    | zero => rfl
    | succ skip =>
      rw [passes, List.drop_succ_cons]
      exact inductionHypothesis skip

section Replacement

variable [DecidableEq α]

/-- Replace the occurrences of a pattern from the left, without overlap. The number
counts the symbols of the current occurrence that are still to be passed over. -/
def replaceFrom (pattern marker : List α) : Nat → List α → List α
  | _, [] => []
  | skip + 1, _ :: rest => replaceFrom pattern marker skip rest
  | 0, symbol :: rest =>
    if pattern.isPrefixOf (symbol :: rest) then
      marker ++ replaceFrom pattern marker (pattern.length - 1) rest
    else symbol :: replaceFrom pattern marker 0 rest

/-- Replace every occurrence of a pattern that is not empty. -/
def replaceAll (pattern marker text : List α) : List α := replaceFrom pattern marker 0 text

variable {pattern marker : List α}

theorem replaceFrom_skip (skip : Nat) (text : List α) :
    replaceFrom pattern marker skip text = replaceAll pattern marker (text.drop skip) :=
  skip_drop (fun _ => rfl) (fun _ _ _ => rfl) skip text

/-- An occurrence at the front is replaced as a whole. -/
theorem replaceAll_occurrence (proper : pattern ≠ []) (rest : List α) :
    replaceAll pattern marker (pattern ++ rest) = marker ++ replaceAll pattern marker rest := by
  obtain ⟨symbol, others, rfl⟩ := List.exists_cons_of_ne_nil proper
  have found : (symbol :: others).isPrefixOf (symbol :: (others ++ rest)) = true := by
    rw [List.isPrefixOf_iff_prefix]
    exact ⟨rest, rfl⟩
  change replaceFrom (symbol :: others) marker 0 (symbol :: (others ++ rest)) = _
  rw [replaceFrom, if_pos found, replaceFrom_skip]
  simp

/-- A text of occurrences becomes one of markers. -/
theorem replaceAll_replicate (proper : pattern ≠ []) (number : Nat) :
    replaceAll pattern marker (List.replicate number pattern).flatten =
      (List.replicate number marker).flatten := by
  induction number with
  | zero => rfl
  | succ number inductionHypothesis =>
    rw [List.replicate_succ, List.replicate_succ, List.flatten_cons, List.flatten_cons,
      replaceAll_occurrence proper, inductionHypothesis]

/-- A symbol at which no occurrence starts is kept. -/
theorem replaceAll_keep {symbol : α} {rest : List α} (absent : ¬ pattern <+: symbol :: rest) :
    replaceAll pattern marker (symbol :: rest) = symbol :: replaceAll pattern marker rest := by
  have missed : ¬ pattern.isPrefixOf (symbol :: rest) = true := by
    rwa [List.isPrefixOf_iff_prefix]
  change replaceFrom pattern marker 0 (symbol :: rest) = _
  rw [replaceFrom, if_neg missed]
  rfl

/-- A text inside which no occurrence starts is passed over. -/
theorem replaceAll_passes {passed rest : List α}
    (absent : ∀ ending, ending <:+ passed → ending ≠ [] → ¬ pattern <+: ending ++ rest) :
    replaceAll pattern marker (passed ++ rest) = passed ++ replaceAll pattern marker rest := by
  induction passed with
  | nil => rfl
  | cons symbol passed inductionHypothesis =>
    have here : ¬ pattern <+: symbol :: (passed ++ rest) :=
      absent (symbol :: passed) (List.suffix_refl _) (List.cons_ne_nil symbol passed)
    have later := inductionHypothesis fun ending suffix =>
      absent ending (suffix.trans (List.suffix_cons symbol passed))
    rw [List.cons_append, replaceAll_keep here, later, List.cons_append]

/-- No occurrence of a foreign pattern starts inside a marker. -/
theorem replaceAll_marker (proper : pattern ≠ []) {hidden : List α}
    (foreign : Foreign hidden pattern) (rest : List α) :
    replaceAll pattern marker (hidden ++ rest) = hidden ++ replaceAll pattern marker rest := by
  apply replaceAll_passes
  rintro ending suffix nonempty found
  obtain ⟨first, others, rfl⟩ := List.exists_cons_of_ne_nil proper
  obtain ⟨symbol, remaining, rfl⟩ := List.exists_cons_of_ne_nil nonempty
  obtain ⟨rfl, _⟩ := List.cons_prefix_cons.mp found
  exact foreign first List.mem_cons_self (suffix.subset List.mem_cons_self)

/-- Replacing a foreign pattern in a covered text covers more of the same text.
The induction is on the length of what is shown: an occurrence is passed over as a
whole, and so is a marker, inside which no occurrence starts. -/
theorem Covered.replaceAll (nonempty : marker ≠ []) (foreign : Foreign marker pattern)
    (proper : pattern ≠ []) {text shown : List α} (covered : Covered marker text shown) :
    Covered marker text (replaceAll pattern marker shown) := by
  induction size : shown.length using Nat.strong_induction_on generalizing text shown with
  | _ length inductionHypothesis =>
    by_cases found : pattern <+: shown
    · obtain ⟨rest, rfl⟩ := found
      obtain ⟨remaining, rfl, restCovered⟩ := covered.starts nonempty foreign
      have shorter : rest.length < length := by
        have positive : 0 < pattern.length := List.length_pos_of_ne_nil proper
        simp only [List.length_append] at size
        omega
      rw [replaceAll_occurrence proper]
      exact .hide pattern (inductionHypothesis rest.length shorter restCovered rfl)
    · cases covered with
      | nil => exact .nil
      | keep symbol restCovered =>
        rw [replaceAll_keep found]
        refine .keep symbol (inductionHypothesis _ ?_ restCovered rfl)
        simp only [List.length_cons] at size
        omega
      | hide hidden restCovered =>
        rw [replaceAll_marker proper foreign]
        refine .hide hidden (inductionHypothesis _ ?_ restCovered rfl)
        have positive : 0 < marker.length := List.length_pos_of_ne_nil nonempty
        simp only [List.length_append] at size
        omega

/-- No occurrence of a foreign pattern is left after its replacement. -/
theorem replaceAll_absent (nonempty : marker ≠ []) (foreign : Foreign marker pattern)
    (proper : pattern ≠ []) (text : List α) :
    ¬ pattern <:+: Substitution.replaceAll pattern marker text := by
  induction size : text.length using Nat.strong_induction_on generalizing text with
  | _ length inductionHypothesis =>
    by_cases found : pattern <+: text
    · obtain ⟨rest, rfl⟩ := found
      rw [replaceAll_occurrence proper]
      intro occurs
      have shorter : rest.length < length := by
        have positive : 0 < pattern.length := List.length_pos_of_ne_nil proper
        simp only [List.length_append] at size
        omega
      exact inductionHypothesis rest.length shorter rest rfl
        (infix_after_marker foreign proper occurs)
    · cases text with
      | nil =>
        intro occurs
        exact proper (List.infix_nil.mp occurs)
      | cons symbol rest =>
        have shorter : rest.length < length := by
          simp only [List.length_cons] at size
          omega
        intro occurs
        have covered : Covered marker (symbol :: rest)
            (Substitution.replaceAll pattern marker (symbol :: rest)) :=
          (Covered.refl _).replaceAll nonempty foreign proper
        rw [replaceAll_keep found] at occurs covered
        rcases List.infix_cons_iff.mp occurs with ⟨after, starts⟩ | later
        · rw [← starts] at covered
          obtain ⟨remaining, same, _⟩ := covered.starts nonempty foreign
          exact found ⟨remaining, same.symm⟩
        · exact inductionHypothesis rest.length shorter rest rfl later

/-- How many occurrences are replaced. -/
def occurrencesFrom (pattern : List α) : Nat → List α → Nat
  | _, [] => 0
  | skip + 1, _ :: rest => occurrencesFrom pattern skip rest
  | 0, symbol :: rest =>
    if pattern.isPrefixOf (symbol :: rest) then
      occurrencesFrom pattern (pattern.length - 1) rest + 1
    else occurrencesFrom pattern 0 rest

/-- The number of occurrences of a pattern, from the left and without overlap. -/
def occurrences (pattern text : List α) : Nat := occurrencesFrom pattern 0 text

theorem length_replaceFrom (proper : pattern ≠ []) (skip : Nat) (text : List α)
    (inside : skip ≤ text.length) :
    (replaceFrom pattern marker skip text).length + skip +
        occurrencesFrom pattern skip text * pattern.length =
      text.length + occurrencesFrom pattern skip text * marker.length := by
  induction text generalizing skip with
  | nil =>
    have none : skip = 0 := Nat.le_zero.mp inside
    subst none
    simp [replaceFrom, occurrencesFrom]
  | cons symbol rest inductionHypothesis =>
    cases skip with
    | succ skip =>
      have later := inductionHypothesis skip (Nat.le_of_succ_le_succ inside)
      rw [replaceFrom, occurrencesFrom, List.length_cons]
      omega
    | zero =>
      rw [replaceFrom, occurrencesFrom, List.length_cons]
      by_cases found : pattern.isPrefixOf (symbol :: rest) = true
      · have fits : pattern.length ≤ rest.length + 1 :=
          (List.isPrefixOf_iff_prefix.mp found).length_le
        have positive : 0 < pattern.length := List.length_pos_of_ne_nil proper
        have later := inductionHypothesis (pattern.length - 1) (by omega)
        rw [if_pos found, if_pos found, List.length_append, Nat.add_mul, Nat.add_mul, Nat.one_mul,
          Nat.one_mul]
        omega
      · have later := inductionHypothesis 0 (Nat.zero_le _)
        rw [if_neg found, if_neg found, List.length_cons]
        omega

/-- A replacement makes a text longer by what the marker has more than the pattern, for every
occurrence. -/
theorem length_replaceAll (proper : pattern ≠ []) (text : List α) :
    (replaceAll pattern marker text).length + occurrences pattern text * pattern.length =
      text.length + occurrences pattern text * marker.length :=
  length_replaceFrom proper 0 text (Nat.zero_le _)

end Replacement

end OpencodePty.Substitution
