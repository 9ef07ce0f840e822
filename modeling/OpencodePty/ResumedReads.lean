import OpencodePty.LinePaging
import OpencodePty.TextEncodings

/-!
# Resuming a read at the position that the last one returned

A reader that has read everything reads again from the `nextSequence` of its first read. The second
read shows the lines that start at this position or after it. A line that the first read saw without
its end starts before, so what was appended to it since is not shown again.
-/

namespace OpencodePty.ResumedReads

open OpencodePty.JsValues OpencodePty.TextEncodings OpencodePty.JournalReader OpencodePty.LinePaging
open OpencodePty.OutputJournal (endsLine)

/-- The record counts every byte of an output of which nothing was discarded since the first
retained position. -/
def InSync (output : JsString) (record : SessionRecord) : Prop :=
  record.nextSequence = record.firstRetainedSequence + byteLength output

instance (output : JsString) (record : SessionRecord) : Decidable (InSync output record) :=
  inferInstanceAs (Decidable (_ = _))

/-- The byte at a position is one of a line that a read shows, or the line end behind it. -/
def Obtained (result : ReadResult) (position : Nat) : Prop :=
  ∃ text sequence, (text, sequence) ∈ shown result ∧
    sequence ≤ position ∧ position ≤ sequence + byteLength text

/-- A read of everything, and after an extension of the output the read that resumes it: the second
obtains every byte that was appended in between. -/
def Resumes (text added : List Char) (before after : SessionRecord) : Prop :=
  let first := read (encode text) before 0 none none
  let second := read (encode (text ++ added)) after 0 none (some first.nextSequence)
  ∀ position, first.nextSequence ≤ position → position < after.nextSequence →
    Obtained second position

/-! ## The bytes of the lines -/

/-- Every byte of parts that are each ended lies in one of the lines. -/
theorem numbered_covers {last index sequence position : Nat} {parts : List JsString}
    (within : index + parts.length ≤ last + 1) (least : sequence ≤ position)
    (inside : position < sequence + byteLength (parts.flatMap ended)) :
    ∃ line ∈ numbered last index sequence parts,
      line.sequence ≤ position ∧ position ≤ line.sequence + byteLength line.text := by
  induction parts generalizing index sequence with
  | nil =>
    rw [List.flatMap_nil, byteLength] at inside
    omega
  | cons text rest inductionHypothesis =>
    rw [List.flatMap_cons, byteLength_ended] at inside
    rw [List.length_cons] at within
    by_cases here : position ≤ sequence + byteLength text
    · exact ⟨⟨index + 1, sequence, text⟩, List.mem_cons_self, least, here⟩
    · -- The line end is counted for every part before the last one.
      have next : sequence + (byteLength text + if index < last then 1 else 0) ≤ position := by
        split <;> omega
      have more : rest ≠ [] := by
        rintro rfl
        rw [List.flatMap_nil, byteLength] at inside
        omega
      have positive := List.length_pos_of_ne_nil more
      have later : position < sequence + (byteLength text + if index < last then 1 else 0) +
          byteLength (rest.flatMap ended) := by
        rw [if_pos (by omega)]
        omega
      have remaining : index + 1 + rest.length ≤ last + 1 := by omega
      obtain ⟨line, member, found⟩ := inductionHypothesis remaining next later
      exact ⟨line, List.mem_cons_of_mem _ member, found⟩

theorem ended_intercalate {parts : List JsString} (nonempty : parts ≠ []) :
    parts.flatMap ended = [10].intercalate parts ++ [10] := by
  induction parts with
  | nil => exact absurd rfl nonempty
  | cons text rest inductionHypothesis =>
    cases rest with
    | nil => simp [ended]
    | cons next others =>
      rw [List.flatMap_cons, inductionHypothesis (List.cons_ne_nil _ _), List.intercalate_cons_cons]
      simp [ended]

theorem numbered_append {last index sequence : Nat} (front back : List JsString)
    (within : index + front.length ≤ last) :
    numbered last index sequence (front ++ back) =
      numbered last index sequence front ++
        numbered last (index + front.length) (sequence + byteLength (front.flatMap ended)) back := by
  induction front generalizing index sequence with
  | nil => simp [numbered, byteLength]
  | cons text rest inductionHypothesis =>
    rw [List.length_cons] at within
    rw [List.cons_append, numbered, numbered, if_pos (by omega), inductionHypothesis (by omega),
      List.flatMap_cons, byteLength_ended, List.length_cons, List.cons_append, Nat.add_assoc sequence,
      Nat.add_assoc index, Nat.add_comm 1]

theorem numbered_least {last index sequence : Nat} {parts : List JsString} {line : Line}
    (member : line ∈ numbered last index sequence parts) : sequence ≤ line.sequence := by
  induction parts generalizing index sequence with
  | nil => cases member
  | cons text rest inductionHypothesis =>
    cases member with
    | head => exact Nat.le_refl _
    | tail _ later => exact Nat.le_trans (Nat.le_add_right _ _) (inductionHypothesis later)

/-- The lines of an output end where it ends, or behind it. -/
theorem byteLength_lines (output : JsString) :
    byteLength output ≤ byteLength ((textLines output).flatMap ended) := by
  have closed (text : JsString) : byteLength (text ++ [10]) = byteLength text + 1 := by
    have both := byteLength_ended text []
    rwa [List.append_nil] at both
  have joined := joined_textLines output
  by_cases none : textLines output = []
  · obtain ⟨rfl, _⟩ | ⟨before, rfl, lines⟩ | ⟨nonempty, opened, lines⟩ := textLines_cases output
    · exact Nat.zero_le _
    · exact absurd (lines ▸ none) (List.splitOn_ne_nil _ _)
    · exact absurd (lines ▸ none) (List.splitOn_ne_nil _ _)
  · rw [ended_intercalate none]
    conv_lhs => rw [← joined]
    rw [closed]
    split
    · exact Nat.le_of_eq (closed _)
    · rw [List.append_nil]
      exact Nat.le_succ _

/-- What follows a line end has its own lines, which start behind it. -/
theorem textLines_append (before rest : JsString) :
    textLines (before ++ 10 :: rest) = before.splitOn 10 ++ textLines rest := by
  have split (after : JsString) :
      (before ++ 10 :: after).splitOn 10 = before.splitOn 10 ++ after.splitOn 10 :=
    List.splitOn_append_cons_self before after
  have closed (text : JsString) : textLines (text ++ [10]) = text.splitOn 10 := by
    simp [textLines, endsLine_ended, split_ended]
  obtain ⟨rfl, lines⟩ | ⟨others, rfl, lines⟩ | ⟨nonempty, opened, lines⟩ := textLines_cases rest
  · rw [lines, closed, List.append_nil]
  · rw [lines, ← split, ← closed, List.append_assoc, List.cons_append]
  · have still : endsLine (before ++ 10 :: rest) = false := by
      rw [endsLine, ← List.singleton_append, List.getLast?_append_of_ne_nil _ (by simp),
        List.getLast?_append_of_ne_nil _ nonempty]
      exact opened
    rw [lines, ← split, textLines, still]
    simp

/-- Every byte behind a line end is in a line that starts behind it. -/
theorem output_covers {before rest : JsString} {firstSequence position : Nat}
    (least : firstSequence + byteLength (before ++ [10]) ≤ position)
    (inside : position < firstSequence + byteLength (before ++ 10 :: rest)) :
    ∃ line ∈ outputLines (before ++ 10 :: rest) firstSequence,
      firstSequence + byteLength (before ++ [10]) ≤ line.sequence ∧
        line.sequence ≤ position ∧ position ≤ line.sequence + byteLength line.text := by
  have front : (before.splitOn 10).flatMap ended = before ++ [10] := by
    rw [ended_intercalate (List.splitOn_ne_nil _ _), List.intercalate_splitOn]
  have split : (before ++ 10 :: rest).splitOn 10 = before.splitOn 10 ++ rest.splitOn 10 :=
    List.splitOn_append_cons_self before rest
  have parts := textLines_length rest
  have positive := List.length_pos_of_ne_nil (List.splitOn_ne_nil 10 rest)
  have bytes : byteLength (before ++ 10 :: rest) =
      byteLength (before ++ [10]) + byteLength rest := by
    have whole := byteLength_ended before rest
    have alone := byteLength_ended before []
    rw [List.append_nil, byteLength] at alone
    rw [ended, List.append_assoc] at whole
    rw [ended] at alone
    rw [List.singleton_append] at whole
    omega
  have lines := byteLength_lines rest
  rw [outputLines_eq, textLines_append, split, List.length_append, numbered_append _ _ (by omega),
    front]
  have within : 0 + (before.splitOn 10).length + (textLines rest).length ≤
      (before.splitOn 10).length + (rest.splitOn 10).length - 1 + 1 := by omega
  obtain ⟨line, member, found⟩ := numbered_covers within least (by omega)
  exact ⟨line, List.mem_append_right _ member, numbered_least member, found⟩

theorem outputLines_covers {output : JsString} {firstSequence position : Nat}
    (least : firstSequence ≤ position) (inside : position < firstSequence + byteLength output) :
    ∃ line ∈ outputLines output firstSequence,
      line.sequence ≤ position ∧ position ≤ line.sequence + byteLength line.text := by
  have lines := byteLength_lines output
  have parts := textLines_length output
  rw [outputLines_eq]
  exact numbered_covers (by omega) least (by omega)

theorem outputLines_least {output : JsString} {firstSequence : Nat} {line : Line}
    (member : line ∈ outputLines output firstSequence) : firstSequence ≤ line.sequence := by
  rw [outputLines_eq] at member
  exact numbered_least member

/-! ## What a resumed read shows -/

/-- A resumed read obtains the bytes of the lines that start at its position or behind it. -/
theorem obtained_iff (output : JsString) (record : SessionRecord) (least position : Nat) :
    Obtained (read output record 0 none (some least)) position ↔
      ∃ line ∈ outputLines output record.firstRetainedSequence, least ≤ line.sequence ∧
        line.sequence ≤ position ∧ position ≤ line.sequence + byteLength line.text := by
  rw [Obtained, shown_read, page, List.drop_zero]
  constructor
  · rintro ⟨text, sequence, member, bounds⟩
    obtain ⟨line, found, same⟩ := List.mem_map.mp member
    obtain ⟨inside, from'⟩ := List.mem_filter.mp found
    cases same
    exact ⟨line, inside, by simpa [fromSequence] using from', bounds⟩
  · rintro ⟨line, inside, from', bounds⟩
    refine ⟨line.text, line.sequence, List.mem_map.mpr ⟨line, ?_, rfl⟩, bounds⟩
    exact List.mem_filter.mpr ⟨inside, by simpa [fromSequence] using from'⟩

/-- A line of an extended output that starts where the output ended before shows that the output
ended a line, or was empty. -/
theorem line_at_end {text added : List Char} {firstSequence : Nat} {line : Line}
    (member : line ∈ outputLines (encode (text ++ added)) firstSequence)
    (here : line.sequence = firstSequence + byteLength (encode text)) :
    text = [] ∨ endsLine (encode text) = true := by
  obtain ⟨index, found⟩ := List.mem_iff_getElem?.mp member
  obtain ⟨_, _, place, front⟩ := outputLines_get found
  have ends : ∀ parts : List JsString,
      parts.flatMap ended = [] ∨ ∃ others, parts.flatMap ended = ended others := by
    intro parts
    obtain rfl | ⟨others, text, rfl⟩ := List.eq_nil_or_concat' parts
    · exact .inl rfl
    · refine .inr ⟨others.flatMap ended ++ text, ?_⟩
      simp [ended]
  generalize before_eq : ((textLines (encode (text ++ added))).take index).flatMap ended = before at *
  have closed : before = [] ∨ ∃ others, before = ended others := before_eq ▸ ends _
  have same : byteLength before = byteLength (encode text) := by omega
  -- Of two beginnings with one length neither is longer.
  have equal : before = encode text := by
    have whole : encode text <+: encode (text ++ added) :=
      encode_append text added ▸ List.prefix_append _ _
    have empty {rest : JsString} (zero : byteLength rest = 0) : rest = [] := by
      have length := length_le_byteLength rest
      exact List.eq_nil_of_length_eq_zero (by omega)
    obtain ⟨rest, longer⟩ | ⟨rest, longer⟩ :=
      List.prefix_or_prefix_of_prefix ((List.prefix_append _ _).trans front) whole
    · have bytes : byteLength (before ++ rest) = byteLength before + byteLength rest := by
        obtain rfl | ⟨others, rfl⟩ := closed
        · simp [byteLength]
        · have alone := byteLength_ended others []
          rw [List.append_nil, byteLength] at alone
          rw [byteLength_ended]
          omega
      rw [longer] at bytes
      have nothing : rest = [] := empty (by omega)
      rw [← longer, nothing, List.append_nil]
    · have bytes := byteLength_append (validText_encode text) rest
      rw [longer] at bytes
      have nothing : rest = [] := empty (by omega)
      rw [← longer, nothing, List.append_nil]
  subst equal
  obtain none | ⟨others, last⟩ := closed
  · exact .inl (encode_eq_nil.mp none)
  · rw [last]
    exact .inr (endsLine_ended others)

/-- A resumed read obtains every byte that was appended just where nothing was appended, or the
first read saw an output that was empty or ended a line. -/
theorem resumes_iff (text added : List Char) (before after : SessionRecord)
    (synced : InSync (encode text) before) (extended : InSync (encode (text ++ added)) after)
    (retained : after.firstRetainedSequence = before.firstRetainedSequence) :
    Resumes text added before after ↔
      added = [] ∨ text = [] ∨ endsLine (encode text) = true := by
  have bytes : byteLength (encode (text ++ added)) =
      byteLength (encode text) + byteLength (encode added) := by
    rw [encode_append, byteLength_append (validText_encode text)]
  rw [InSync] at synced extended
  have first : (read (encode text) before 0 none none).nextSequence =
      after.firstRetainedSequence + byteLength (encode text) := by
    rw [retained]
    exact synced
  constructor
  · intro resumes
    by_cases none : added = []
    · exact .inl none
    · have positive := textLength_pos none
      rw [← byteLength_encode] at positive
      obtain ⟨line, member, from', least, _⟩ := (obtained_iff _ _ _ _).mp
        (resumes _ (Nat.le_refl _) (by omega))
      exact .inr (line_at_end member (by omega))
  · intro boundary position least inside
    rw [obtained_iff, first]
    rw [first] at least
    obtain rfl | rfl | closed := boundary
    · rw [List.append_nil] at extended
      omega
    · have start : after.firstRetainedSequence ≤ position := by omega
      have stop : position < after.firstRetainedSequence + byteLength (encode ([] ++ added)) := by
        omega
      obtain ⟨line, member, found⟩ := outputLines_covers start stop
      exact ⟨line, member, outputLines_least member, found⟩
    · obtain ⟨others, last⟩ : ∃ others, encode text = others ++ [10] := by
        simpa [endsLine, List.getLast?_eq_some_iff] using closed
      have whole : encode (text ++ added) = others ++ 10 :: encode added := by
        rw [encode_append, last, List.append_assoc, List.singleton_append]
      rw [last] at least ⊢
      rw [whole]
      exact output_covers least (by rw [← whole]; omega)

/-- Output that ended a line, and the start of the next line. -/
theorem resumes_line : Resumes ['a', '\n'] ['b'] ⟨0, 2, false, none, none⟩ ⟨0, 3, false, none, none⟩ :=
  (resumes_iff ['a', '\n'] ['b'] ⟨0, 2, false, none, none⟩ ⟨0, 3, false, none, none⟩
    (by decide) (by decide) rfl).mpr (.inr (.inr (by decide)))

/-- The rest of a line whose start was read is not shown. -/
theorem open_line_lost :
    ¬ ∀ (text added : List Char) (before after : SessionRecord),
      InSync (encode text) before → InSync (encode (text ++ added)) after →
      after.firstRetainedSequence = before.firstRetainedSequence →
      Resumes text added before after := by
  intro always
  obtain ⟨text, sequence, member, _⟩ := always ['a'] ['b'] ⟨0, 1, false, none, none⟩
    ⟨0, 2, false, none, none⟩ (by decide) (by decide) rfl 1 (by decide) (by decide)
  have nothing : shown (read (encode ['a', 'b']) ⟨0, 2, false, none, none⟩ 0 none (some 1)) = [] := by
    decide
  exact absurd member (nothing ▸ List.not_mem_nil)

end OpencodePty.ResumedReads
