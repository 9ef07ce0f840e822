import OpencodePty.ExitMatches
import OpencodePty.OutputJournal

/-!
# Reading and searching the journal by lines

The daemon splits the retained output into lines, gives each the number of its line and the sequence
of its first byte, counted from the first retained sequence of the record, and returns a page of
them. A line end belongs to the line before it, so that a last line end does not begin a line.

Offsets, limits and positions are natural numbers, as the requests check. `toLowerCase` is a
parameter.
-/

namespace OpencodePty.JournalReader

open OpencodePty.JsValues OpencodePty.TextEncodings OpencodePty.OutputJournal OpencodePty.ExitMatches

/-- `lineCount` of the reader. -/
def lineCount (output : JsString) : Nat :=
  if output.isEmpty then 0
  else
    let lines := output.splitOn 10
    if lines.getLast? = some [] then lines.length - 1 else lines.length

structure Line where
  lineNumber : Nat
  sequence : Nat
  text : JsString
  deriving DecidableEq

/-- The lines from an index on, where the last part has the given index. -/
def numbered (last : Nat) : Nat → Nat → List JsString → List Line
  | _, _, [] => []
  | index, sequence, text :: rest =>
    ⟨index + 1, sequence, text⟩ ::
      numbered last (index + 1) (sequence + (byteLength text + if index < last then 1 else 0)) rest

def outputLines (output : JsString) (firstSequence : Nat) : List Line :=
  if output.isEmpty then []
  else
    let parts := output.splitOn 10
    let count := if endsLine output then parts.length - 1 else parts.length
    numbered (parts.length - 1) 0 firstSequence (parts.take count)

section Search

variable (toLowerCase : JsString → JsString)

/-- A line that is not empty contains a pattern. -/
def contains (pattern : JsString) (ignoreCase : Bool) (text : JsString) : Bool :=
  let needle := if ignoreCase then toLowerCase pattern else pattern
  let haystack := if ignoreCase then toLowerCase text else text
  !text.isEmpty && includes haystack needle

def searchLines (output pattern : JsString) (ignoreCase : Bool) (firstSequence : Nat) :
    List Line :=
  (outputLines output firstSequence).filter fun line =>
    contains toLowerCase pattern ignoreCase line.text

end Search

/-- The fields of a record that a read returns or counts from. -/
structure SessionRecord where
  firstRetainedSequence : Nat
  nextSequence : Nat
  outputTruncated : Bool
  containment : Option Js
  termination : Option Js

structure ReadResult where
  lines : List JsString
  sequences : List Nat
  totalLines : Nat
  offset : Nat
  hasMore : Bool
  firstRetainedSequence : Nat
  nextSequence : Nat
  truncated : Bool
  containment : Option Js
  termination : Option Js

/-- The result of a search, with its `matches`. -/
structure SearchResult where
  found : List Line
  totalMatches : Nat
  totalLines : Nat
  offset : Nat
  hasMore : Bool
  firstRetainedSequence : Nat
  nextSequence : Nat
  truncated : Bool
  containment : Option Js
  termination : Option Js

/-- `line.sequence >= sequence`, where a sequence is given. -/
def fromSequence (sequence : Option Nat) (line : Line) : Bool :=
  sequence.all fun least => least ≤ line.sequence

/-- `lines.slice(start)` or `lines.slice(start, start + limit)` -/
def page {α : Type} (items : List α) (start : Nat) : Option Nat → List α
  | none => items.drop start
  | some limit => (items.drop start).take limit

/-- `read`, with the output that the journal gave. -/
def read (output : JsString) (record : SessionRecord) (offset : Nat) (limit sequence : Option Nat) :
    ReadResult :=
  let lines := (outputLines output record.firstRetainedSequence).filter (fromSequence sequence)
  let shown := page lines offset limit
  { lines := shown.map Line.text
    sequences := shown.map Line.sequence
    totalLines := lines.length
    offset := offset
    hasMore := offset + shown.length < lines.length
    firstRetainedSequence := record.firstRetainedSequence
    nextSequence := record.nextSequence
    truncated := record.outputTruncated
    containment := record.containment
    termination := record.termination }

/-- `search`, with the output that the journal gave. -/
def search (toLowerCase : JsString → JsString) (output : JsString) (record : SessionRecord)
    (pattern : JsString) (ignoreCase : Bool) (offset : Nat) (limit sequence : Option Nat) :
    SearchResult :=
  let found := (searchLines toLowerCase output pattern ignoreCase
    record.firstRetainedSequence).filter (fromSequence sequence)
  let shown := page found offset limit
  { found := shown
    totalMatches := found.length
    totalLines := lineCount output
    offset := offset
    hasMore := offset + shown.length < found.length
    firstRetainedSequence := record.firstRetainedSequence
    nextSequence := record.nextSequence
    truncated := record.outputTruncated
    containment := record.containment
    termination := record.termination }

/-! ## Pages -/

/-- Consecutive pages are the beginning of the list. -/
theorem pages_flatMap {α : Type} (items : List α) (limit count : Nat) :
    (List.range count).flatMap (fun index => page items (index * limit) (some limit)) =
      items.take (count * limit) := by
  induction count with
  | zero => simp
  | succ count inductionHypothesis =>
    rw [List.range_succ, List.flatMap_append, inductionHypothesis, Nat.succ_mul, List.take_add]
    simp [page]

/-- There are more items behind a page just where it ends before the last one. -/
theorem page_more {α : Type} (items : List α) (start limit : Nat) :
    start + (page items start (some limit)).length < items.length ↔
      start + limit < items.length := by
  simp only [page, List.length_take, List.length_drop]
  omega

/-! ## Lines -/

/-- A line with its end. -/
def ended (text : JsString) : JsString := text ++ [10]

/-- Text before a line end does not change the length of what follows it. -/
theorem byteLength_ended (text rest : JsString) :
    byteLength (ended text ++ rest) = byteLength text + 1 + byteLength rest := by
  have newline : byteLength (10 :: rest) = 1 + byteLength rest :=
    byteLength_single rest (by decide)
  have low : isLowSurrogate 10 = false := by decide
  induction text using byteLength.induct with
  | case1 =>
    rw [ended, List.nil_append, List.singleton_append, newline]
    simp [byteLength]
  | case2 unit =>
    change byteLength (unit :: 10 :: rest) = unitBytes unit + 1 + byteLength rest
    rw [byteLength, low, Bool.and_false, if_neg (by decide), newline]
    omega
  | case3 high second others pair inductionHypothesis =>
    change byteLength (high :: second :: (ended others ++ rest)) = _
    rw [byteLength, if_pos pair, inductionHypothesis, byteLength, if_pos pair]
    omega
  | case4 high second others pair inductionHypothesis =>
    have later : byteLength (second :: (ended others ++ rest)) =
        byteLength (second :: others) + 1 + byteLength rest := inductionHypothesis
    change byteLength (high :: second :: (ended others ++ rest)) = _
    rw [byteLength, if_neg pair, later, byteLength, if_neg pair]
    omega

theorem numbered_texts (last index sequence : Nat) (parts : List JsString) :
    (numbered last index sequence parts).map Line.text = parts := by
  induction parts generalizing index sequence with
  | nil => rfl
  | cons text rest inductionHypothesis => simp [numbered, inductionHypothesis]

theorem numbered_length (last index sequence : Nat) (parts : List JsString) :
    (numbered last index sequence parts).length = parts.length := by
  rw [← List.length_map Line.text, numbered_texts]

/-- Each line has the number behind its index, its own text, and the sequence of what stands
before it. -/
theorem numbered_get {last index sequence position : Nat} {parts : List JsString} {line : Line}
    (found : (numbered last index sequence parts)[position]? = some line)
    (within : index + position ≤ last) :
    line.lineNumber = index + position + 1 ∧ parts[position]? = some line.text ∧
      line.sequence = sequence + byteLength ((parts.take position).flatMap ended) := by
  induction position generalizing index sequence parts with
  | zero =>
    cases parts with
    | nil => simp [numbered] at found
    | cons text rest =>
      cases found
      exact ⟨rfl, rfl, rfl⟩
  | succ position inductionHypothesis =>
    cases parts with
    | nil => simp [numbered] at found
    | cons text rest =>
      rw [numbered, List.getElem?_cons_succ] at found
      obtain ⟨number, there, place⟩ := inductionHypothesis found (by omega)
      refine ⟨by omega, ?_, ?_⟩
      · rw [List.getElem?_cons_succ]
        exact there
      · rw [place, if_pos (by omega), List.take_succ_cons, List.flatMap_cons, byteLength_ended]
        omega

/-- The parts of an output, of which the last one is left out after a line end. -/
def textLines (output : JsString) : List JsString :=
  if output.isEmpty then [] else
    (output.splitOn 10).take
      (if endsLine output then (output.splitOn 10).length - 1 else (output.splitOn 10).length)

/-- Parts joined by line ends, from an index on. -/
theorem intercalate_split (parts : List JsString) (position : Nat) (within : position < parts.length) :
    [10].intercalate parts =
      (parts.take position).flatMap ended ++ [10].intercalate (parts.drop position) := by
  induction position generalizing parts with
  | zero => simp
  | succ position inductionHypothesis =>
    obtain ⟨text, rest, rfl⟩ := List.exists_cons_of_ne_nil (List.ne_nil_of_length_pos
      (Nat.lt_of_le_of_lt (Nat.zero_le _) within))
    have later : position < rest.length := by simpa using within
    have nonempty : rest ≠ [] := List.ne_nil_of_length_pos (Nat.lt_of_le_of_lt (Nat.zero_le _) later)
    rw [List.take_succ_cons, List.drop_succ_cons, List.flatMap_cons, List.append_assoc,
      ← inductionHypothesis rest later]
    obtain ⟨next, others, rfl⟩ := List.exists_cons_of_ne_nil nonempty
    simp [ended]

theorem endsLine_ended (before : JsString) : endsLine (before ++ [10]) = true := by
  simp [endsLine]

/-- An output that does not end a line has a last part that is not empty. -/
theorem split_last {output : JsString} (nonempty : output ≠ []) (open' : endsLine output = false) :
    (output.splitOn 10).getLast? ≠ some [] := by
  intro last
  obtain ⟨front, parts⟩ := List.getLast?_eq_some_iff.mp last
  have whole : [10].intercalate (output.splitOn 10) = output := List.intercalate_splitOn 10
  rw [parts, intercalate_split (front ++ [[]]) front.length (by simp), List.take_left,
    List.drop_left, List.intercalate_singleton, List.append_nil] at whole
  obtain rfl | ⟨others, text, rfl⟩ := List.eq_nil_or_concat' front
  · exact nonempty whole.symm
  · rw [List.flatMap_append, List.flatMap_singleton, ended, ← List.append_assoc] at whole
    rw [← whole, endsLine_ended] at open'
    cases open'

/-- The parts of an output that ends a line. -/
theorem split_ended (before : JsString) :
    (before ++ [10]).splitOn 10 = before.splitOn 10 ++ [[]] :=
  List.splitOn_append_cons_self before []

/-- What a whole line end, or none, says about the lines. -/
theorem textLines_cases (output : JsString) :
    output = [] ∧ textLines output = [] ∨
    (∃ before, output = before ++ [10] ∧ textLines output = before.splitOn 10) ∨
    output ≠ [] ∧ endsLine output = false ∧ textLines output = output.splitOn 10 := by
  obtain rfl | ⟨before, unit, rfl⟩ := List.eq_nil_or_concat' output
  · exact .inl ⟨rfl, rfl⟩
  · by_cases newline : unit = 10
    · subst newline
      refine .inr (.inl ⟨before, rfl, ?_⟩)
      simp [textLines, endsLine_ended, split_ended]
    · have opened : endsLine (before ++ [unit]) = false := by simpa [endsLine] using newline
      refine .inr (.inr ⟨by simp, opened, ?_⟩)
      simp [textLines, opened]

/-- The lines joined by line ends, with the one at the end, are the output. -/
theorem joined_textLines (output : JsString) :
    [10].intercalate (textLines output) ++ (if endsLine output then [10] else []) = output := by
  obtain ⟨rfl, lines⟩ | ⟨before, rfl, lines⟩ | ⟨_, opened, lines⟩ := textLines_cases output
  · rw [lines]
    rfl
  · rw [lines, List.intercalate_splitOn, endsLine_ended, if_pos rfl]
  · rw [lines, List.intercalate_splitOn, opened, if_neg (by decide), List.append_nil]

/-- The line count is the number of lines. -/
theorem lineCount_textLines (output : JsString) :
    lineCount output = (textLines output).length := by
  obtain ⟨rfl, lines⟩ | ⟨before, rfl, lines⟩ | ⟨nonempty, opened, lines⟩ := textLines_cases output
  · rfl
  · simp [lines, lineCount, split_ended]
  · simp [lines, lineCount, nonempty, split_last nonempty opened]

theorem outputLines_eq (output : JsString) (firstSequence : Nat) :
    outputLines output firstSequence =
      numbered ((output.splitOn 10).length - 1) 0 firstSequence (textLines output) := by
  unfold outputLines textLines
  split_ifs <;> rfl

theorem textLines_length (output : JsString) :
    (textLines output).length ≤ (output.splitOn 10).length := by
  unfold textLines
  split
  · exact Nat.zero_le _
  · exact List.length_take_le' _ _

/-- A line begins what is joined from it on. -/
theorem prefix_intercalate (text : JsString) (rest : List JsString) :
    text <+: [10].intercalate (text :: rest) := by
  cases rest with
  | nil => rw [List.intercalate_singleton]
  | cons next others =>
    rw [List.intercalate_cons_cons, List.append_assoc]
    exact List.prefix_append _ _

/-- A line of the output stands behind the lines before it and their ends, and its sequence counts
the bytes of these. -/
theorem outputLines_get {output : JsString} {firstSequence index : Nat} {line : Line}
    (found : (outputLines output firstSequence)[index]? = some line) :
    line.lineNumber = index + 1 ∧ (textLines output)[index]? = some line.text ∧
      line.sequence = firstSequence + byteLength (((textLines output).take index).flatMap ended) ∧
      ((textLines output).take index).flatMap ended ++ line.text <+: output := by
  rw [outputLines_eq] at found
  have inside := (List.getElem?_eq_some_iff.mp found).1
  rw [numbered_length] at inside
  have length := textLines_length output
  obtain ⟨number, there, place⟩ := numbered_get found (by omega)
  refine ⟨by omega, there, place, ?_⟩
  have joined := joined_textLines output
  rw [intercalate_split _ index inside, List.append_assoc] at joined
  obtain ⟨bound, text⟩ := List.getElem?_eq_some_iff.mp there
  have rest := List.drop_eq_getElem_cons bound
  rw [text] at rest
  rw [rest] at joined
  obtain ⟨after, front⟩ := prefix_intercalate line.text ((textLines output).drop (index + 1))
  rw [← front, List.append_assoc, ← List.append_assoc] at joined
  exact ⟨_, joined⟩

theorem outputLines_texts (output : JsString) (firstSequence : Nat) :
    (outputLines output firstSequence).map Line.text = textLines output := by
  rw [outputLines_eq, numbered_texts]

end OpencodePty.JournalReader
