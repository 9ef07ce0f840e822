import Mathlib.Data.List.Infix

/-!
# Byte sequences of characters, and text with replacements

UTF-8 writes a character as a sequence of one to four bytes, and no sequence is the beginning of
another. Bytes that are not all such sequences are decoded by replacing what is left between the
characters: the longest bytes that begin a sequence, or a single byte that begins none, become one
replacement character. This determines the text.
-/

namespace OpencodePty.Utf8Sequences

/-- Some character's sequence starts with the bytes and goes on after them. -/
def Begins (bytes : List UInt8) : Prop :=
  ∃ character more, more ≠ [] ∧ String.utf8EncodeChar character = bytes ++ more

/-- The bytes at the front of others that one replacement character stands for. -/
structure MaximalSubpart (part rest : List UInt8) : Prop where
  nonempty : part ≠ []
  characterless : ∀ character, ¬ String.utf8EncodeChar character <+: part ++ rest
  single : ¬ Begins part → part.length = 1
  longest : ∀ more, more ≠ [] → more <+: rest → ¬ Begins (part ++ more)

/-- The text of bytes, with replacements. -/
inductive Lossy (replacement : Char) : List UInt8 → List Char → Prop where
  | nil : Lossy replacement [] []
  | character (value : Char) {rest : List UInt8} {text : List Char}
      (remaining : Lossy replacement rest text) :
      Lossy replacement (String.utf8EncodeChar value ++ rest) (value :: text)
  | subpart {part rest : List UInt8} {text : List Char} (maximal : MaximalSubpart part rest)
      (remaining : Lossy replacement rest text) :
      Lossy replacement (part ++ rest) (replacement :: text)

theorem encoded_nonempty (character : Char) : String.utf8EncodeChar character ≠ [] := by
  intro empty
  have length := congrArg List.length empty
  have positive := character.utf8Size_pos
  rw [String.length_utf8EncodeChar, List.length_nil] at length
  omega

/-- A character is known by the bytes that it stands before. -/
theorem encoded_inj {first second : Char} {rest others : List UInt8}
    (same : String.utf8EncodeChar first ++ rest = String.utf8EncodeChar second ++ others) :
    first = second ∧ rest = others := by
  have decoded (character : Char) (after : List UInt8) :
      (String.utf8EncodeChar character ++ after).toByteArray.utf8DecodeChar? 0 =
        some character := by
    rw [List.toByteArray_append]
    exact ByteArray.utf8DecodeChar?_utf8EncodeChar_append
  have character : first = second := by
    have left := decoded first rest
    rw [same, decoded second others] at left
    exact (Option.some.inj left).symm
  subst character
  exact ⟨rfl, List.append_cancel_left same⟩

/-- A sequence is at most four bytes long. -/
theorem Begins.length {bytes : List UInt8} (begins : Begins bytes) : bytes.length ≤ 3 := by
  obtain ⟨character, more, nonempty, encoded⟩ := begins
  have size := congrArg List.length encoded
  have positive : 0 < more.length := List.length_pos_of_ne_nil nonempty
  have limit := character.utf8Size_le_four
  rw [String.length_utf8EncodeChar, List.length_append] at size
  omega

/-- Bytes that begin a sequence hold no whole one. -/
theorem Begins.characterless {bytes : List UInt8} (begins : Begins bytes) (character : Char) :
    ¬ String.utf8EncodeChar character <+: bytes := by
  rintro ⟨rest, rfl⟩
  obtain ⟨whole, more, nonempty, encoded⟩ := begins
  rw [List.append_assoc, ← List.append_nil (String.utf8EncodeChar whole)] at encoded
  obtain ⟨_, nothing⟩ := encoded_inj encoded
  exact nonempty (List.append_eq_nil_iff.mp nothing.symm).2

/-- Two maximal subparts at the front of the same bytes are the same. -/
theorem MaximalSubpart.unique {first second rest others : List UInt8}
    (left : MaximalSubpart first rest) (right : MaximalSubpart second others)
    (same : first ++ rest = second ++ others) : first = second := by
  have shorter {part other after remaining : List UInt8} (one : MaximalSubpart part after)
      (two : MaximalSubpart other remaining) (equal : part ++ after = other ++ remaining) :
      other.length ≤ part.length := by
    by_contra longer
    obtain ⟨more, extended⟩ : part <+: other :=
      List.prefix_of_prefix_length_le ⟨after, equal⟩ (List.prefix_append other remaining) (by omega)
    subst extended
    rw [List.append_assoc, List.append_cancel_left_eq] at equal
    have nonempty : more ≠ [] := by
      rintro rfl
      simp at longer
    have one' := two.single (one.longest more nonempty ⟨remaining, equal.symm⟩)
    have positive : 0 < part.length := List.length_pos_of_ne_nil one.nonempty
    omega
  have length := Nat.le_antisymm (shorter right left same.symm) (shorter left right same)
  exact (List.append_inj same length).1

/-- The bytes determine the text. -/
theorem Lossy.unique {replacement : Char} {bytes : List UInt8} {first second : List Char}
    (left : Lossy replacement bytes first) (right : Lossy replacement bytes second) :
    first = second := by
  induction left generalizing second with
  | nil =>
    generalize none : ([] : List UInt8) = bytes at right
    cases right with
    | nil => rfl
    | character value _ => exact absurd (List.append_eq_nil_iff.mp none.symm).1 (encoded_nonempty value)
    | subpart maximal _ => exact absurd (List.append_eq_nil_iff.mp none.symm).1 maximal.nonempty
  | @character value rest text _ inductionHypothesis =>
    generalize bytes : String.utf8EncodeChar value ++ rest = all at right
    cases right with
    | nil => exact absurd (List.append_eq_nil_iff.mp bytes).1 (encoded_nonempty value)
    | character other remaining =>
      obtain ⟨rfl, rfl⟩ := encoded_inj bytes
      rw [inductionHypothesis remaining]
    | subpart maximal _ => exact absurd ⟨rest, bytes⟩ (maximal.characterless value)
  | @subpart part rest text maximal _ inductionHypothesis =>
    generalize bytes : part ++ rest = all at right
    cases right with
    | nil => exact absurd (List.append_eq_nil_iff.mp bytes).1 maximal.nonempty
    | @character other others _ _ =>
      exact absurd ⟨others, bytes.symm⟩ (maximal.characterless other)
    | subpart another remaining =>
      have same := maximal.unique another bytes
      subst same
      rw [inductionHypothesis ((List.append_cancel_left bytes) ▸ remaining)]

end OpencodePty.Utf8Sequences
