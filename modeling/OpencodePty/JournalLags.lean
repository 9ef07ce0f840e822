import OpencodePty.JournalRemovals
import OpencodePty.OutputRetention

/-!
# Records behind their journal

The daemon reads the files of a worker at once, and counts from cursors that an earlier snapshot told
it. The worker may have appended and evicted output since then. What is read is the retained output
of the worker; the text that was emitted up to any state of the run is a beginning of all the text,
and the first retained sequence only grows.
-/

namespace OpencodePty.WorkerJournal

open OpencodePty.JsValues OpencodePty.TextEncodings OpencodePty.SessionLoading
  OpencodePty.OutputRetention

/-! ## Runs in two parts -/

theorem appendAll_append (worker : Worker) (before after : List Call) :
    appendAll worker (before ++ after) =
      (appendAll worker before).bind fun (middle, text) =>
        (appendAll middle after).map fun (last, more) => (last, text ++ more) := by
  induction before generalizing worker with
  | nil =>
    cases ran : appendAll worker after <;> simp [appendAll, ran]
  | cons call rest inductionHypothesis =>
    rw [List.cons_append, appendAll, appendAll]
    cases appended : appendOutput worker call with
    | none => rfl
    | some next =>
      simp only [Option.bind_eq_bind, Option.bind_some, inductionHypothesis]
      cases first : appendAll next rest with
      | none => rfl
      | some middle =>
        cases second : appendAll middle.1 after <;> simp [second]

/-- A state of a run that the worker went on from: what it had emitted, and its first sequence. -/
structure Past (worker earlier : Worker) (text emitted : List Char) : Prop where
  before : emitted <+: text
  first : earlier.state.firstRetainedSequence ≤ worker.state.firstRetainedSequence
  next : earlier.state.nextSequence = textLength emitted

/-- A journal begins where the text that was lost ends. -/
theorem Retains.next {worker : Worker} {text : List Char} (retains : Retains worker text) :
    worker.state.nextSequence = textLength text := by
  obtain ⟨lost, split, length⟩ := retains.suffix
  have distance := retains.described.chained.length
  rw [split, textLength_append]
  omega

/-- Every state of a run on a disk that works is a past of its last one. -/
theorem past_of_run {mode : Mode} {maxOutputBytes count : Nat} {calls : List Call}
    (working : ∀ call ∈ calls, call.disk = .working) {worker earlier : Worker}
    {text emitted : List Char}
    (run : appendAll (started mode maxOutputBytes) calls = some (worker, text))
    (before : appendAll (started mode maxOutputBytes) (calls.take count) =
      some (earlier, emitted)) :
    Retains worker text ∧ Past worker earlier text emitted := by
  have fresh := (started_journaled mode maxOutputBytes).retains
  obtain ⟨middle, first, ran, kept, _⟩ := appendAll_retains fresh
    (fun call member => working call (List.take_subset count calls member))
  rw [before] at ran
  cases ran
  obtain ⟨last, more, rest, final, _, _, grows⟩ := appendAll_retains kept
    (fun call member => working call (List.drop_subset count calls member))
  have whole := appendAll_append (started mode maxOutputBytes) (calls.take count) (calls.drop count)
  rw [List.take_append_drop, run, before, Option.bind_some] at whole
  simp only [rest, Option.map_some] at whole
  cases whole
  rw [List.nil_append] at kept final
  exact ⟨final, List.prefix_append _ _, grows, kept.next⟩

/-- Only no chunks hold no text. -/
theorem retained_eq_nil {first last : Nat} {chunks : List JournalChunk}
    (chained : Chained first chunks last) : retained chunks = [] ↔ chunks = [] := by
  cases chunks with
  | nil => simp
  | cons chunk rest => simp [chained.2.1]

/-! ## Reads -/

theorem nonnegativeInteger_inv {value number : Nat}
    (accepted : OutputJournal.nonnegativeInteger (some (.int value)) = some number) :
    number = value := by
  simp only [OutputJournal.nonnegativeInteger, Js.int] at accepted
  split at accepted
  · cases accepted
    exact Int.toNat_natCast value
  · cases accepted

theorem text_inv {value read : JsString}
    (accepted : OutputJournal.text (some (.str value)) = some read) : read = value := by
  simp only [OutputJournal.text] at accepted
  split at accepted
  · cases accepted
    rfl
  · cases accepted

/-- A file of a chunk that the daemon accepts is read as this chunk. -/
theorem readOutputChunk_inv {dateParse : JsString → Option Int} {chunk : JournalChunk}
    {read : OutputJournal.OutputChunk}
    (accepted : OutputJournal.readOutputChunk dateParse (encode (chunkFile chunk).1)
      (some (chunkFile chunk).2) = .ok read) : read = outputChunk chunk := by
  obtain ⟨_, value, same, _, starts, ends, dated, texts, _⟩ :=
    (OutputJournal.readOutputChunk_ok dateParse).mp accepted
  cases same
  have start := nonnegativeInteger_inv starts
  have stop := nonnegativeInteger_inv ends
  have time := text_inv (Option.filter_eq_some_iff.mp dated).1
  have data := text_inv texts
  cases read
  simp only at start stop time data
  rw [start, stop, time, data]
  rfl

theorem held_member {dateParse : JsString → Option Int} {files : OutputJournal.Directory}
    {chunks : List OutputJournal.OutputChunk} (held : Held dateParse files chunks)
    {file : JsString × Option Js} (member : file ∈ files) :
    ∃ chunk, OutputJournal.readOutputChunk dateParse file.1 file.2 = .ok chunk := by
  induction held with
  | nil => cases member
  | @cons first chunk _ _ accepted _ inductionHypothesis =>
    obtain rfl | later := List.mem_cons.mp member
    · exact ⟨chunk, accepted⟩
    · exact inductionHypothesis later

/-- What the daemon reads from the files of a worker is its retained output. -/
theorem readOutput_retained {dateParse : JsString → Option Int} {worker : Worker}
    (described : Described worker) {directory : OutputJournal.Directory}
    (listed : directory.Perm (listing worker.files)) {output : JsString}
    (read : OutputJournal.readOutput dateParse directory = .ok output) :
    output = encode (retained worker.state.chunks) := by
  obtain ⟨chunks, found, joined⟩ := bind_ok read
  obtain ⟨files, same, held⟩ := read_held found
  have accepted (chunk : JournalChunk) (member : chunk ∈ worker.state.chunks) :
      OutputJournal.readOutputChunk dateParse (encode (chunkFile chunk).1)
        (some (chunkFile chunk).2) = .ok (outputChunk chunk) := by
    have stored : (encode (chunkFile chunk).1, some (chunkFile chunk).2) ∈ directory := by
      apply listed.mem_iff.mpr
      rw [described.files]
      exact List.mem_map_of_mem (List.mem_map_of_mem member)
    have named : (js ".json").isSuffixOf (encode (chunkFile chunk).1) = true := by
      simp only [chunkFile, fileName_chunkName]
      exact OutputJournal.isSuffixOf_chunkName chunk.startSequence
    obtain ⟨other, opened⟩ := held_member held
      (same.mem_iff.mpr (List.mem_filter.mpr ⟨stored, named⟩))
    rw [opened, readOutputChunk_inv opened]
  have whole : Held dateParse (listing worker.files) (worker.state.chunks.map outputChunk) := by
    rw [Held, described.files, listing, List.map_map, List.forall₂_map_left_iff,
      List.forall₂_map_right_iff, List.forall₂_same]
    exact accepted
  have all := OutputJournal.readOutputChunks_ok dateParse whole described.chained.follows listed
  rw [found] at all
  cases all
  cases joined
  exact joined_outputChunk worker.state.chunks

/-! ## A run with an eviction -/

/-- Three pieces of output, the second of which does not fit beside the first. -/
def pieces : List Call := [piece "ab".toList, piece "cd".toList, piece "ef\n".toList]

theorem pieces_working : ∀ call ∈ pieces, call.disk = .working := by
  simp [pieces, piece]

/-- The three pieces are all shown, and the last one is the newest that is retained. -/
theorem pieces_shown :
    ∃ worker more, appendAll (started .pty 3) pieces = some (worker, "abcdef\n".toList) ∧
      more ++ "ef\n".toList = retained worker.state.chunks := by
  obtain ⟨_, second, _, _, ran, retains, mode, limit, chunks⟩ :=
    @two_pieces 3 "ab".toList "cd".toList (by decide) (by decide) (by decide) (by decide) (by decide)
      (by decide)
  have room : Room second "ef\n".toList := by
    refine .inr ?_
    intro previous last
    rw [chunks] at last
    cases last
  obtain ⟨worker, last, newest, _⟩ := @appendOutput_room _ _ retains mode (piece "ef\n".toList) rfl
    (by decide) (by rw [limit]; decide) room
  have adds : addition second (piece "ef\n".toList) = "ef\n".toList :=
    addition_pty mode retains.working _
  have third : appendAll second [piece "ef\n".toList] = some (worker, "ef\n".toList) := by
    rw [appendAll, last]
    change some (worker, addition second (piece "ef\n".toList) ++ []) = _
    rw [adds, List.append_nil]
  have parts := appendAll_append (started .pty 3) [piece "ab".toList, piece "cd".toList]
    [piece "ef\n".toList]
  rw [ran, Option.bind_some] at parts
  simp only [third, Option.map_some] at parts
  obtain ⟨more, whole⟩ := newest
  exact ⟨worker, more, parts, whole⟩

/-- With a limit of three bytes the worker retains the last piece only, and the daemon reads it. -/
theorem pieces_run :
    ∃ worker, appendAll (started .pty 3) pieces = some (worker, "abcdef\n".toList) ∧
      Retains worker "abcdef\n".toList ∧ retained worker.state.chunks = "ef\n".toList ∧
      worker.state.firstRetainedSequence = 4 ∧
      OutputJournal.readOutput (fun _ => some 0) (listing worker.files) =
        .ok (encode "ef\n".toList) := by
  obtain ⟨worker, more, run, whole⟩ := pieces_shown
  obtain ⟨final, text, again, journaled, sameMode, sameLimit⟩ :=
    @appendAll_journaled (started .pty 3) [] (started_journaled .pty 3) pieces pieces_working
      (by simp [pieces, piece, Timestamps.endOfDates])
  rw [run] at again
  cases again
  refine ⟨worker, run, journaled.retains, ?_⟩
  have limited := journaled.limited sameMode
  rw [journaled.bytes, sameLimit] at limited
  have length := congrArg textLength whole
  have three : textLength "ef\n".toList = 3 := by decide
  have bound : (started .pty 3).maxOutputBytes = 3 := rfl
  rw [textLength_append, three] at length
  have nothing : more = [] := textLength_eq_zero.mp (by omega)
  have seven : textLength ([] ++ "abcdef\n".toList) = 7 := by decide
  have distance := journaled.chained.length
  have next := journaled.retains.next
  rw [nothing, List.nil_append] at whole
  rw [← whole, three] at distance
  refine ⟨whole.symm, by omega, ?_⟩
  have chunks := @Journaled.readOutputChunks (fun _ => some 0) (fun _ _ => rfl) _ _ journaled
    (by rw [next, seven]; decide) _ .rfl
  have data : retained worker.state.chunks = "ef\n".toList := whole.symm
  rw [OutputJournal.readOutput, chunks, ← data, ← joined_outputChunk]
  rfl

end OpencodePty.WorkerJournal
