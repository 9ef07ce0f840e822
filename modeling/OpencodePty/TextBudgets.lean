import OpencodePty.CharacterFronts
import OpencodePty.WorkerJournalRuns

/-!
# Text within a budget

A number of bytes may end within a character. What fits is then the longest beginning of the text
whose characters are whole. The worker finds it from the bytes alone, going back from the budget
over continuation bytes.
-/

namespace OpencodePty.TextBudgets

open OpencodePty.TextEncodings OpencodePty.CharacterFronts OpencodePty.WorkerJournal

/-- The longest beginning of a text that fits into a number of bytes. -/
def fitting : Nat → List Char → List Char
  | _, [] => []
  | budget, character :: rest =>
    if character.utf8Size ≤ budget then character :: fitting (budget - character.utf8Size) rest
    else []

/-- A beginning of a text that no further character can follow within a number of bytes. -/
structure Fits (budget : Nat) (text added : List Char) : Prop where
  within : textLength added ≤ budget
  split : text = added ∨ ∃ character rest, text = added ++ character :: rest ∧
    budget < textLength added + character.utf8Size

/-- A text of which something fits begins with a character that does. -/
theorem Fits.cons {budget : Nat} {character : Char} {rest added : List Char}
    (fits : Fits budget (character :: rest) added) (small : character.utf8Size ≤ budget) :
    ∃ more, added = character :: more ∧ Fits (budget - character.utf8Size) rest more := by
  obtain ⟨within, rfl | ⟨next, others, split, large⟩⟩ := fits
  · rw [textLength_cons] at within
    exact ⟨rest, rfl, by omega, .inl rfl⟩
  · cases added with
    | nil =>
      cases split
      rw [textLength_nil] at large
      omega
    | cons first more =>
      cases split
      rw [textLength_cons] at within large
      exact ⟨more, rfl, by omega, .inr ⟨next, others, rfl, by omega⟩⟩

theorem Fits.eq_fitting {budget : Nat} {text added : List Char} (fits : Fits budget text added) :
    added = fitting budget text := by
  induction text generalizing budget added with
  | nil =>
    obtain ⟨_, split | ⟨_, _, split, _⟩⟩ := fits
    · exact split.symm
    · simp at split
  | cons character rest inductionHypothesis =>
    by_cases small : character.utf8Size ≤ budget
    · obtain ⟨more, rfl, later⟩ := fits.cons small
      rw [fitting, if_pos small, ← inductionHypothesis later]
    · rw [fitting, if_neg small]
      obtain ⟨within, split | ⟨_, _, split, _⟩⟩ := fits
      · rw [← split, textLength_cons] at within
        omega
      · cases added with
        | nil => rfl
        | cons first more =>
          cases split
          rw [textLength_cons] at within
          omega

theorem fits_fitting (budget : Nat) (text : List Char) : Fits budget text (fitting budget text) := by
  induction text generalizing budget with
  | nil => exact ⟨Nat.zero_le budget, .inl rfl⟩
  | cons character rest inductionHypothesis =>
    rw [fitting]
    split
    next small =>
      obtain ⟨within, split⟩ := inductionHypothesis (budget - character.utf8Size)
      constructor
      · rw [textLength_cons]
        omega
      · obtain whole | ⟨next, others, split, large⟩ := split
        · exact .inl (congrArg (character :: ·) whole)
        · refine .inr ⟨next, others, congrArg (character :: ·) split, ?_⟩
          rw [textLength_cons]
          omega
    next large =>
      constructor
      · exact Nat.zero_le budget
      · refine .inr ⟨character, rest, rfl, ?_⟩
        rw [textLength_nil]
        omega

/-- Nothing fits just where the first character does not. -/
theorem fitting_eq_nil {budget : Nat} {text : List Char} :
    fitting budget text = [] ↔ ∀ character rest, text = character :: rest →
      budget < character.utf8Size := by
  cases text with
  | nil => simp [fitting]
  | cons character rest =>
    by_cases small : character.utf8Size ≤ budget
    · simp [fitting, small]
    · simp [fitting, small, Nat.lt_of_not_le small]

/-- A text that fits is not cut. -/
theorem fitting_self {budget : Nat} {text : List Char} (small : textLength text ≤ budget) :
    fitting budget text = text :=
  (Fits.eq_fitting ⟨small, .inl rfl⟩).symm

/-! ## The cut of the worker -/

/-- The loop does not go back over a byte that starts a character. -/
theorem le_backOff {bytes : List UInt8} {position stop : Nat} (below : position ≤ stop)
    (boundary : (bytes[position]?).any isContinuation = false) : position ≤ backOff bytes stop := by
  induction stop with
  | zero => exact Nat.le_trans below (Nat.zero_le _)
  | succ stop inductionHypothesis =>
    rw [backOff]
    split
    next continued =>
      apply inductionHypothesis
      have different : position ≠ stop + 1 := by
        rintro rfl
        rw [continued] at boundary
        cases boundary
      omega
    · exact below

/-- Every character starts with a byte that is no continuation byte. -/
theorem encoded_start {character : Char} {byte : UInt8}
    (found : (String.utf8EncodeChar character)[0]? = some byte) : isContinuation byte = false := by
  rw [← Bool.not_eq_true, isContinuation_iff]
  unfold String.utf8EncodeChar at found
  simp only at found
  split_ifs at found <;> cases found <;> rw [UInt8.toNat_ofNat'] <;> omega

/-- The byte behind a beginning of a text continues no character. -/
theorem boundary_append (before after : List Char) :
    ((asBytes (before ++ after))[textLength before]?).any isContinuation = false := by
  rw [asBytes_append, ← length_asBytes, List.getElem?_append_right (Nat.le_refl _), Nat.sub_self]
  cases after with
  | nil => rfl
  | cons character rest =>
    have positive := character.utf8Size_pos
    rw [← String.length_utf8EncodeChar] at positive
    rw [asBytes_cons, List.getElem?_append_left positive, List.getElem?_eq_getElem positive]
    exact encoded_start (List.getElem?_eq_getElem positive)

/-- The worker keeps what fits into the bytes that are available. -/
theorem kept_eq (worker : Worker) (data : List Char) :
    kept worker data = some (fitting (available worker data) data) := by
  unfold kept
  generalize available worker data = budget
  have below := (backOff_boundary (asBytes data) (min budget (textLength data))).1
  obtain ⟨added, rest, sliced, split, length⟩ :=
    sliceTo_backOff data (Nat.min_le_right budget (textLength data))
  rw [sliced]
  refine congrArg some (Fits.eq_fitting ⟨?_, ?_⟩)
  · omega
  · cases rest with
    | nil => exact .inl (by rw [split, List.append_nil])
    | cons character others =>
      refine .inr ⟨character, others, split, ?_⟩
      -- A character that fits would have stopped the loop behind it.
      by_contra small
      have behind := boundary_append (added ++ [character]) others
      rw [List.append_assoc, List.singleton_append, ← split] at behind
      have positive := character.utf8Size_pos
      have size : textLength (added ++ [character]) = textLength added + character.utf8Size := by
        simp
      have whole : textLength data = textLength added + (character.utf8Size + textLength others) := by
        rw [split, textLength_append, textLength_cons]
      have reached := @le_backOff _ _ (min budget (textLength data)) (by omega) behind
      omega

end OpencodePty.TextBudgets
