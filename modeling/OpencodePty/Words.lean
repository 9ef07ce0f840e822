import Mathlib.Data.List.DropRight

/-!
# Words between spaces

A text can be split at each space, or at each run of spaces. Where the empty parts of the one are left
out, and the text of the other is trimmed first, both give the words of the text.
-/

namespace OpencodePty.Words

universe u v
variable {α : Type u} {β : Type v}

section Splitting

variable (space : α → Bool)

/-- The parts between runs of spaces. The flag says that the last symbol was a space. -/
def splitRuns : Bool → List α → List (List α)
  | _, [] => [[]]
  | spaced, symbol :: rest =>
    if space symbol then
      if spaced then splitRuns true rest else [] :: splitRuns true rest
    else (splitRuns false rest).modifyHead (symbol :: ·)

/-- The parts between single spaces that are not empty. -/
def words (text : List α) : List (List α) := (text.splitOnP space).filter (!·.isEmpty)

def trimmed (text : List α) : List α := (text.dropWhile space).rdropWhile space

end Splitting

variable {space : α → Bool}

theorem splitRuns_space {symbol : α} (isSpace : space symbol = true) (spaced : Bool)
    (rest : List α) : splitRuns space spaced (symbol :: rest) =
      if spaced then splitRuns space true rest else [] :: splitRuns space true rest := by
  rw [splitRuns, if_pos isSpace]

theorem splitRuns_solid {symbol : α} (solid : ¬ space symbol = true) (spaced : Bool)
    (rest : List α) : splitRuns space spaced (symbol :: rest) =
      (splitRuns space false rest).modifyHead (symbol :: ·) := by
  rw [splitRuns, if_neg solid]

/-- The first parts agree, and the others agree but for empty ones. -/
theorem splitRuns_parts (text : List α) :
    (∃ part runs each, splitRuns space false text = part :: runs ∧
      text.splitOnP space = part :: each ∧
      runs.filter (!·.isEmpty) = each.filter (!·.isEmpty)) ∧
    (splitRuns space true text).filter (!·.isEmpty) = words space text := by
  induction text with
  | nil => exact ⟨⟨[], [], [], rfl, rfl, rfl⟩, rfl⟩
  | cons symbol rest inductionHypothesis =>
    obtain ⟨⟨part, runs, each, runsEqual, eachEqual, same⟩, spaced⟩ := inductionHypothesis
    by_cases isSpace : space symbol = true
    · refine ⟨⟨[], splitRuns space true rest, rest.splitOnP space, ?_, ?_, spaced⟩, ?_⟩
      · rw [splitRuns_space isSpace]
        rfl
      · rw [List.splitOnP_cons_eq_if_modifyHead, if_pos isSpace]
      · rw [splitRuns_space isSpace, if_pos rfl, spaced, words, words,
          List.splitOnP_cons_eq_if_modifyHead, if_pos isSpace]
        rfl
    · refine ⟨⟨symbol :: part, runs, each, ?_, ?_, same⟩, ?_⟩
      · rw [splitRuns_solid isSpace, runsEqual]
        rfl
      · rw [List.splitOnP_cons_eq_if_modifyHead, if_neg isSpace, eachEqual]
        rfl
      · rw [splitRuns_solid isSpace, runsEqual, words, List.splitOnP_cons_eq_if_modifyHead,
          if_neg isSpace, eachEqual, List.modifyHead_cons, List.modifyHead_cons, List.filter_cons,
          List.filter_cons, same]

theorem splitRuns_words (text : List α) :
    (splitRuns space false text).filter (!·.isEmpty) = words space text := by
  obtain ⟨⟨part, runs, each, runsEqual, eachEqual, same⟩, _⟩ := @splitRuns_parts _ space text
  rw [words, runsEqual, eachEqual, List.filter_cons, List.filter_cons, same]

theorem splitRuns_nonempty (spaced : Bool) (text : List α) : splitRuns space spaced text ≠ [] := by
  induction text generalizing spaced with
  | nil => exact List.cons_ne_nil _ _
  | cons symbol rest inductionHypothesis =>
    by_cases isSpace : space symbol = true
    · rw [splitRuns_space isSpace]
      split
      next => exact inductionHypothesis true
      next => exact List.cons_ne_nil _ _
    · rw [splitRuns_solid isSpace, ne_eq, List.modifyHead_eq_nil_iff]
      exact inductionHypothesis false

/-- Where a text ends with no space, only its first part can be empty. -/
theorem splitRuns_filled {text : List α} {last : α} (ends : text.getLast? = some last)
    (solid : space last = false) :
    (∀ part ∈ splitRuns space true text, part ≠ []) ∧
      ∀ part ∈ (splitRuns space false text).tail, part ≠ [] := by
  induction text with
  | nil => cases ends
  | cons symbol rest inductionHypothesis =>
    cases rest with
    | nil =>
      obtain rfl : symbol = last := Option.some.inj ends
      simp [splitRuns, solid]
    | cons next rest =>
      obtain ⟨spaced, fresh⟩ := inductionHypothesis (by simpa using ends)
      by_cases isSpace : space symbol = true
      · rw [splitRuns_space isSpace, splitRuns_space isSpace]
        exact ⟨spaced, spaced⟩
      · rw [splitRuns_solid isSpace, splitRuns_solid isSpace]
        cases parts : splitRuns space false (next :: rest) with
        | nil => exact absurd parts (splitRuns_nonempty false _)
        | cons part runs =>
          rw [parts] at fresh
          simpa using fresh

/-! ## Spaces at the ends -/

theorem words_dropWhile (text : List α) : words space (text.dropWhile space) = words space text := by
  induction text with
  | nil => rfl
  | cons symbol rest inductionHypothesis =>
    by_cases isSpace : space symbol = true
    · rw [List.dropWhile_cons_of_pos isSpace, inductionHypothesis, words, words,
        List.splitOnP_cons_eq_if_modifyHead, if_pos isSpace]
      rfl
    · rw [List.dropWhile_cons_of_neg isSpace]

theorem words_rdropWhile (text : List α) : words space (text.rdropWhile space) = words space text := by
  induction text using List.reverseRecOn with
  | nil => rfl
  | append_singleton text symbol inductionHypothesis =>
    by_cases isSpace : space symbol = true
    · rw [List.rdropWhile_concat_pos _ _ _ isSpace, inductionHypothesis, words, words,
        List.splitOnP_append_cons text [] isSpace, List.filter_append]
      simp
    · rw [List.rdropWhile_concat_neg _ _ _ isSpace]

/-- The parts of a trimmed text are its words, or it has only an empty part. -/
theorem splitRuns_trimmed (text : List α) :
    splitRuns space false (trimmed space text) = words space text ∨
      splitRuns space false (trimmed space text) = [[]] ∧ words space text = [] := by
  have same : words space (trimmed space text) = words space text := by
    rw [trimmed, words_rdropWhile, words_dropWhile]
  cases shown : trimmed space text with
  | nil =>
    rw [shown] at same
    exact .inr ⟨rfl, same.symm⟩
  | cons symbol rest =>
    left
    have begins : ¬ space symbol = true := by
      obtain ⟨more, whole⟩ : trimmed space text <+: text.dropWhile space :=
        List.rdropWhile_prefix space _
      rw [shown] at whole
      have first := List.head?_dropWhile_not space text
      rw [← whole] at first
      simpa using first
    have nonempty : trimmed space text ≠ [] := by simp [shown]
    obtain ⟨_, filled⟩ := splitRuns_filled (List.getLast?_eq_some_getLast nonempty)
      (Bool.eq_false_iff.mpr (List.rdropWhile_last_not space (text.dropWhile space) nonempty))
    rw [shown] at filled
    have all : ∀ part ∈ splitRuns space false (symbol :: rest), part ≠ [] := by
      intro part member
      rw [splitRuns_solid begins] at member filled
      cases parts : splitRuns space false rest with
      | nil => exact absurd parts (splitRuns_nonempty false rest)
      | cons first runs =>
        rw [parts] at member filled
        rcases List.mem_cons.mp member with rfl | later
        · exact List.cons_ne_nil _ _
        · exact filled part later
    have kept := @splitRuns_words _ space (symbol :: rest)
    rw [← same, shown, ← kept, List.filter_eq_self.mpr]
    intro part member
    simpa using all part member

/-- A part of a trimmed text that is not empty is the word at its place. -/
theorem splitRuns_get (text : List α) (place : Nat) :
    (splitRuns space false (trimmed space text))[place]?.filter (!·.isEmpty) =
      (words space text)[place]? := by
  rcases @splitRuns_trimmed _ space text with same | ⟨single, none'⟩
  · rw [same]
    cases found : (words space text)[place]? with
    | none => rfl
    | some word =>
      have filled := (List.mem_filter.mp (List.mem_of_getElem? found)).2
      rw [Option.filter_some, if_pos filled]
  · rw [single, none']
    cases place with
    | zero => rfl
    | succ place => rfl

theorem splitOnP_mem {text part : List α} (member : part ∈ text.splitOnP space) : part ⊆ text := by
  induction text generalizing part with
  | nil =>
    rw [List.mem_singleton.mp member]
    exact List.nil_subset _
  | cons symbol rest inductionHypothesis =>
    rw [List.splitOnP_cons_eq_if_modifyHead] at member
    split at member
    next =>
      rcases List.mem_cons.mp member with rfl | later
      · exact List.nil_subset _
      · exact List.Subset.trans (inductionHypothesis later) (List.subset_cons_self symbol rest)
    next =>
      cases parts : rest.splitOnP space with
      | nil => exact absurd parts (List.splitOnP_ne_nil space rest)
      | cons first others =>
        rw [parts, List.modifyHead_cons] at member
        rcases List.mem_cons.mp member with rfl | later
        · exact List.cons_subset_cons symbol (inductionHypothesis (parts ▸ List.mem_cons_self))
        · exact List.Subset.trans
            (inductionHypothesis (parts ▸ List.mem_cons_of_mem first later))
            (List.subset_cons_self symbol rest)

/-- A word has the symbols of its text. -/
theorem words_mem {text word : List α} (member : word ∈ words space text) : word ⊆ text :=
  splitOnP_mem (List.mem_filter.mp member).1

/-! ## Symbols that are written in another way -/

theorem splitOnP_map (write : α → β) {spaces : β → Bool} {text : List α}
    (same : ∀ symbol ∈ text, spaces (write symbol) = space symbol) :
    (text.map write).splitOnP spaces = (text.splitOnP space).map (List.map write) := by
  induction text with
  | nil => rfl
  | cons symbol rest inductionHypothesis =>
    obtain ⟨first, others⟩ := List.forall_mem_cons.mp same
    rw [List.map_cons, List.splitOnP_cons_eq_if_modifyHead, List.splitOnP_cons_eq_if_modifyHead,
      first, inductionHypothesis others]
    split
    next => rfl
    next =>
      cases rest.splitOnP space with
      | nil => rfl
      | cons part parts => rfl

theorem words_map (write : α → β) {spaces : β → Bool} {text : List α}
    (same : ∀ symbol ∈ text, spaces (write symbol) = space symbol) :
    words spaces (text.map write) = (words space text).map (List.map write) := by
  rw [words, splitOnP_map write same, words, List.filter_map]
  congr 1
  apply List.filter_congr
  intro part _
  cases part with
  | nil => rfl
  | cons symbol rest => rfl

end OpencodePty.Words
