import OpencodePty.JournalLags
import OpencodePty.LinePaging

/-!
# Positions of lines in the stream

A reader counts the positions of lines from the first sequence of the record, in the text that it
finds on disk. Where the worker has evicted output since the record was made, that text begins later
in the stream, and every position is too small by what was evicted.
-/

namespace OpencodePty.ReadPositions

open OpencodePty.JsValues OpencodePty.TextEncodings OpencodePty.WorkerJournal
  OpencodePty.JournalReader OpencodePty.LinePaging

/-- The lines of the end of a stream, each with its number and the byte offset in the stream at
which its text starts. -/
def streamLines (lost rest : List Char) : List Line :=
  (textLines (encode rest)).zipIdx.map fun (text, index) =>
    ⟨index + 1,
      byteLength (encode lost ++ ((textLines (encode rest)).take index).flatMap ended), text⟩

/-- Reads and searches report the offsets in the stream, and a given position keeps just the lines
that start at it or after it. -/
structure TruePositions (toLowerCase : JsString → JsString) (lost rest : List Char)
    (record : SessionRecord) : Prop where
  read : ∀ offset limit sequence,
    shown (read (encode rest) record offset limit sequence) =
      page (((streamLines lost rest).filter (fromSequence sequence)).map fun line =>
        (line.text, line.sequence)) offset limit
  search : ∀ pattern ignoreCase offset limit sequence,
    (search toLowerCase (encode rest) record pattern ignoreCase offset limit sequence).found =
      page (((streamLines lost rest).filter fun line =>
        contains toLowerCase pattern ignoreCase line.text).filter (fromSequence sequence))
          offset limit

/-- The lines are counted from the byte behind what was lost. -/
theorem streamLines_eq (lost rest : List Char) :
    streamLines lost rest = outputLines (encode rest) (textLength lost) := by
  have texts := outputLines_texts (encode rest) (textLength lost)
  apply List.ext_getElem?
  intro index
  simp only [streamLines, List.getElem?_map, List.getElem?_zipIdx]
  cases found : (outputLines (encode rest) (textLength lost))[index]? with
  | none =>
    have none : (textLines (encode rest))[index]? = none := by
      rw [← texts, List.getElem?_map, found]
      rfl
    rw [none]
    rfl
  | some line =>
    obtain ⟨number, text, place, _⟩ := outputLines_get found
    rw [text]
    simp only [Option.map_some, Nat.zero_add]
    rw [byteLength_append (validText_encode lost), byteLength_encode, ← place, ← number]

/-- Output has a first line, at the first sequence. -/
theorem outputLines_first {output : JsString} (nonempty : output ≠ []) (firstSequence : Nat) :
    ∃ text, (((outputLines output firstSequence).map fun line =>
      (line.text, line.sequence)))[0]? = some (text, firstSequence) := by
  have lines : textLines output ≠ [] := by
    obtain ⟨rfl, _⟩ | ⟨before, _, lines⟩ | ⟨_, _, lines⟩ := textLines_cases output
    · exact absurd rfl nonempty
    · rw [lines]
      exact List.splitOn_ne_nil 10 before
    · rw [lines]
      exact List.splitOn_ne_nil 10 output
  rw [← outputLines_texts output firstSequence, ne_eq, List.map_eq_nil_iff] at lines
  obtain ⟨line, rest, all⟩ := List.exists_cons_of_ne_nil lines
  have first : (outputLines output firstSequence)[0]? = some line := by
    rw [all]
    rfl
  obtain ⟨_, _, place, _⟩ := outputLines_get first
  refine ⟨line.text, ?_⟩
  rw [List.getElem?_map, first, Option.map_some, place]
  rfl

/-- The positions are true just where the record begins where the text on disk does, or there is no
text. -/
theorem truePositions_iff (toLowerCase : JsString → JsString) (lost rest : List Char)
    (record : SessionRecord) :
    TruePositions toLowerCase lost rest record ↔
      record.firstRetainedSequence = textLength lost ∨ rest = [] := by
  constructor
  · intro positions
    by_contra apart
    obtain ⟨different, nonempty⟩ := not_or.mp apart
    have all := positions.read 0 none none
    rw [shown_read, streamLines_eq, filter_all, filter_all] at all
    have output : encode rest ≠ [] := by
      rw [ne_eq, encode_eq_nil]
      exact nonempty
    obtain ⟨_, counted⟩ := outputLines_first output record.firstRetainedSequence
    obtain ⟨_, stands⟩ := outputLines_first output (textLength lost)
    rw [page, page, List.drop_zero, List.drop_zero] at all
    rw [all, stands] at counted
    simp only [Option.some.injEq, Prod.mk.injEq] at counted
    exact different counted.2.symm
  · intro inSync
    have lines : outputLines (encode rest) record.firstRetainedSequence = streamLines lost rest := by
      rw [streamLines_eq]
      obtain same | rfl := inSync
      · rw [same]
      · rfl
    constructor
    · intro offset limit sequence
      rw [shown_read, lines]
    · intro pattern ignoreCase offset limit sequence
      simp only [JournalReader.search, searchLines, lines]

/-- After any calls on a disk that works, a record with the cursors of an earlier state of the worker
gives the true positions of what is read from its files, just where nothing was evicted since that
state, or nothing is retained. -/
theorem true_positions_iff (toLowerCase : JsString → JsString) {dateParse : JsString → Option Int}
    {mode : Mode} {maxOutputBytes count : Nat} {calls : List Call}
    (working : ∀ call ∈ calls, call.disk = .working) {worker earlier : Worker}
    {stream emitted : List Char}
    (run : appendAll (started mode maxOutputBytes) calls = some (worker, stream))
    (before : appendAll (started mode maxOutputBytes) (calls.take count) = some (earlier, emitted))
    {record : SessionRecord}
    (cursors : record.firstRetainedSequence = earlier.state.firstRetainedSequence)
    {directory : OutputJournal.Directory} (listed : directory.Perm (listing worker.files))
    {output : JsString} (read : OutputJournal.readOutput dateParse directory = .ok output) :
    ∃ lost rest, stream = lost ++ rest ∧ output = encode rest ∧
      (TruePositions toLowerCase lost rest record ↔
        earlier.state.firstRetainedSequence = worker.state.firstRetainedSequence ∨
          worker.state.chunks = []) := by
  obtain ⟨retains, _⟩ := past_of_run working run before
  obtain ⟨lost, split, length⟩ := retains.suffix
  refine ⟨lost, _, split, readOutput_retained retains.described listed read, ?_⟩
  rw [truePositions_iff, cursors, length, retained_eq_nil retains.described.chained]

/-- The cursors of a worker before any output. -/
def unstarted : SessionRecord := ⟨0, 0, false, none, none⟩

theorem true_positions_iff_pieces :
    ∃ worker stream, appendAll (started .pty 3) pieces = some (worker, stream) ∧
      ∃ lost rest, stream = lost ++ rest ∧ encode "ef\n".toList = encode rest ∧
        (TruePositions id lost rest unstarted ↔
          (started .pty 3).state.firstRetainedSequence = worker.state.firstRetainedSequence ∨
            worker.state.chunks = []) := by
  obtain ⟨worker, run, _, _, _, read⟩ := pieces_run
  exact ⟨worker, _, run, @true_positions_iff id (fun _ => some 0) .pty 3 0 pieces pieces_working
    worker (started .pty 3) _ [] run rfl unstarted rfl _ .rfl _ read⟩

/-- The last of three pieces is all that is left, behind four bytes, and the record from before them
counts it from zero. -/
theorem positions_after_eviction :
    ¬ ∀ (toLowerCase : JsString → JsString) (dateParse : JsString → Option Int) (mode : Mode)
      (maxOutputBytes count : Nat) (calls : List Call) (worker earlier : Worker)
      (stream emitted : List Char) (record : SessionRecord)
      (directory : OutputJournal.Directory) (lost rest : List Char),
      (∀ call ∈ calls, call.disk = .working) →
      appendAll (started mode maxOutputBytes) calls = some (worker, stream) →
      appendAll (started mode maxOutputBytes) (calls.take count) = some (earlier, emitted) →
      record.firstRetainedSequence = earlier.state.firstRetainedSequence →
      record.nextSequence = earlier.state.nextSequence →
      directory.Perm (listing worker.files) → stream = lost ++ rest →
      OutputJournal.readOutput dateParse directory = .ok (encode rest) →
      TruePositions toLowerCase lost rest record := by
  intro always
  obtain ⟨worker, run, retains, whole, first, read⟩ := pieces_run
  obtain ⟨lost, split, length⟩ := retains.suffix
  rw [whole] at split
  have positions := always id (fun _ => some 0) .pty 3 0 pieces worker (started .pty 3) _ []
    unstarted _ lost _ pieces_working run rfl rfl rfl .rfl split read
  obtain zero | nothing := (truePositions_iff id lost _ unstarted).mp positions
  · rw [length, first] at zero
    exact absurd zero (by decide)
  · exact absurd nothing (by decide)

end OpencodePty.ReadPositions
