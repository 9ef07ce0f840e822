import OpencodePty.WorkerJournal

/-!
# The worker's journal and the daemon's view of it

After any sequence of appends on a working disk the chunks of the worker follow one
another without a gap, their lengths and line ends are what the counters say, and the files
are just the chunks. As long as the sequence numbers are integers that the daemon accepts,
it reads these files in any order and finds the end of the text that was kept.
-/

namespace OpencodePty.WorkerJournal

open OpencodePty.JsValues OpencodePty.TextEncodings OpencodePty.Timestamps

/-- Chunks that follow one another from the first sequence number to the last, each as long
as its data. -/
def Chained : Nat → List JournalChunk → Nat → Prop
  | first, [], last => first = last
  | first, chunk :: rest, last =>
    chunk.startSequence = first ∧ chunk.data ≠ [] ∧
      chunk.endSequence = first + textLength chunk.data ∧ Chained chunk.endSequence rest last

/-- The text of the chunks. -/
def retained (chunks : List JournalChunk) : List Char := (chunks.map JournalChunk.data).flatten

/-- The file of a chunk, with its name and its JSON. -/
def chunkFile (chunk : JournalChunk) : List Char × Js :=
  (fileName chunk.startSequence, chunk.json)

/-- No chunks have no text. -/
@[simp] theorem retained_nil : retained [] = [] := rfl

/-- The text of the first chunk stands first. -/
@[simp] theorem retained_cons (chunk : JournalChunk) (rest : List JournalChunk) :
    retained (chunk :: rest) = chunk.data ++ retained rest := rfl

/-- The text of two lists of chunks is one behind the other. -/
@[simp] theorem retained_append (before after : List JournalChunk) :
    retained (before ++ after) = retained before ++ retained after := by
  simp [retained]

/-- A chain of two lists is two chains that meet. -/
theorem chained_append {first last : Nat} {before after : List JournalChunk} :
    Chained first (before ++ after) last ↔
      ∃ middle, Chained first before middle ∧ Chained middle after last := by
  induction before generalizing first with
  | nil => simp [Chained]
  | cons chunk rest inductionHypothesis =>
    constructor
    · rintro ⟨start, filled, size, later⟩
      obtain ⟨middle, left, right⟩ := inductionHypothesis.mp later
      exact ⟨middle, ⟨start, filled, size, left⟩, right⟩
    · rintro ⟨middle, ⟨start, filled, size, left⟩, right⟩
      exact ⟨start, filled, size, inductionHypothesis.mpr ⟨middle, left, right⟩⟩

/-- The text of the chunks is as long as the distance of the sequence numbers. -/
theorem Chained.length {first last : Nat} {chunks : List JournalChunk}
    (chained : Chained first chunks last) :
    first + textLength (retained chunks) = last := by
  induction chunks generalizing first with
  | nil => exact chained
  | cons chunk rest inductionHypothesis =>
    obtain ⟨_, _, size, later⟩ := chained
    have length := inductionHypothesis later
    rw [retained_cons, textLength_append]
    omega

/-- Every chunk lies between the two sequence numbers. -/
theorem Chained.bounds {first last : Nat} {chunks : List JournalChunk}
    (chained : Chained first chunks last) {chunk : JournalChunk} (member : chunk ∈ chunks) :
    first ≤ chunk.startSequence ∧ chunk.startSequence < chunk.endSequence ∧
      chunk.endSequence ≤ last ∧ chunk.data ≠ [] ∧
      chunk.endSequence = chunk.startSequence + textLength chunk.data := by
  induction chunks generalizing first with
  | nil => simp at member
  | cons other rest inductionHypothesis =>
    obtain ⟨start, filled, size, later⟩ := chained
    have positive := textLength_pos filled
    have reaches := later.length
    obtain rfl | member := List.mem_cons.mp member
    · refine ⟨by omega, by omega, by omega, filled, by omega⟩
    · obtain ⟨above, order, below, present, length⟩ := inductionHypothesis later member
      exact ⟨by omega, order, below, present, length⟩

/-- Chunks with other starts have other names. -/
theorem fileName_injective {first second : Nat} (same : fileName first = fileName second) :
    first = second :=
  padded_injective (List.append_cancel_right same)

/-- Writing the file of a chunk that has none yet. -/
theorem writeFile_fresh {chunks : List JournalChunk} {chunk : JournalChunk}
    (fresh : ∀ other ∈ chunks, other.startSequence ≠ chunk.startSequence) :
    writeFile (chunks.map chunkFile) (fileName chunk.startSequence) chunk.json =
      (chunks ++ [chunk]).map chunkFile := by
  have absent : (chunks.map chunkFile).any
      (fun file => file.1 == fileName chunk.startSequence) = false := by
    rw [List.any_eq_false]
    intro file member
    obtain ⟨other, otherMember, rfl⟩ := List.mem_map.mp member
    have different := fresh other otherMember
    simp only [chunkFile, beq_iff_eq]
    exact fun same => different (fileName_injective same)
  simp [writeFile, absent, chunkFile]

/-- Writing the file of the last chunk again. -/
theorem writeFile_last {chunks : List JournalChunk} {previous chunk : JournalChunk}
    (same : previous.startSequence = chunk.startSequence)
    (fresh : ∀ other ∈ chunks, other.startSequence ≠ chunk.startSequence) :
    writeFile ((chunks ++ [previous]).map chunkFile) (fileName chunk.startSequence) chunk.json =
      (chunks ++ [chunk]).map chunkFile := by
  have present : ((chunks ++ [previous]).map chunkFile).any
      (fun file => file.1 == fileName chunk.startSequence) = true := by
    simp [chunkFile, same]
  have others : ∀ other ∈ chunks,
      (if (chunkFile other).1 == fileName chunk.startSequence then
        (fileName chunk.startSequence, chunk.json) else chunkFile other) = chunkFile other := by
    intro other member
    have different := fresh other member
    have unequal : ((chunkFile other).1 == fileName chunk.startSequence) = false := by
      simp only [chunkFile, beq_eq_false_iff_ne, ne_eq]
      exact fun name => different (fileName_injective name)
    rw [unequal]
    rfl
  rw [writeFile, if_pos present, List.map_map, List.map_append, List.map_append]
  congr 1
  · exact List.map_congr_left others
  · simp [chunkFile, same]

/-- Removing the file of the first chunk. -/
theorem removeFile_first {first last : Nat} {chunk : JournalChunk} {rest : List JournalChunk}
    (chained : Chained first (chunk :: rest) last) :
    removeFile ((chunk :: rest).map chunkFile) (fileName chunk.startSequence) =
      rest.map chunkFile := by
  obtain ⟨start, filled, size, later⟩ := chained
  have positive := textLength_pos filled
  have others : (rest.map chunkFile).filter
      (fun file => file.1 != fileName chunk.startSequence) = rest.map chunkFile := by
    rw [List.filter_eq_self]
    intro file member
    obtain ⟨other, otherMember, rfl⟩ := List.mem_map.mp member
    have above := (later.bounds otherMember).1
    simp only [chunkFile, bne_iff_ne, ne_eq]
    intro same
    have start' := fileName_injective same
    omega
  rw [removeFile, List.map_cons, List.filter_cons_of_neg (by simp [chunkFile]), others]

/-- What the worker keeps in memory and on disk after it kept `text`. -/
structure Journaled (worker : Worker) (text : List Char) : Prop where
  working : worker.state.storageFailure = none
  chained : Chained worker.state.firstRetainedSequence worker.state.chunks
    worker.state.nextSequence
  bytes : worker.state.retainedBytes = textLength (retained worker.state.chunks)
  lines : worker.state.retainedNewlines = newlines (retained worker.state.chunks)
  suffix : ∃ lost, text = lost ++ retained worker.state.chunks ∧
    textLength lost = worker.state.firstRetainedSequence
  files : worker.files = worker.state.chunks.map chunkFile
  dated : ∀ chunk ∈ worker.state.chunks, ∃ clock : Clock,
    clock.seconds < endOfDates ∧ chunk.timestamp = now clock
  limited : worker.mode = .pty → worker.state.retainedBytes ≤ worker.maxOutputBytes

/-- The worker's view of its journal is what is on disk. -/
structure Described (worker : Worker) : Prop where
  chained : Chained worker.state.firstRetainedSequence worker.state.chunks
    worker.state.nextSequence
  bytes : worker.state.retainedBytes = textLength (retained worker.state.chunks)
  lines : worker.state.retainedNewlines = newlines (retained worker.state.chunks)
  files : worker.files = worker.state.chunks.map chunkFile

/-- A journal with what the worker kept, whatever the clock showed. -/
structure Retains (worker : Worker) (text : List Char) : Prop where
  working : worker.state.storageFailure = none
  described : Described worker
  suffix : ∃ lost, text = lost ++ retained worker.state.chunks ∧
    textLength lost = worker.state.firstRetainedSequence
  limited : worker.mode = .pty → worker.state.retainedBytes ≤ worker.maxOutputBytes

/-- The journal retains the newest of the text. -/
theorem Journaled.retains {worker : Worker} {text : List Char} (journaled : Journaled worker text) :
    Retains worker text where
  working := journaled.working
  described := ⟨journaled.chained, journaled.bytes, journaled.lines, journaled.files⟩
  suffix := journaled.suffix
  limited := journaled.limited

/-- A journal whose chunks have dates of the clock is journaled. -/
theorem Retains.journaled {worker : Worker} {text : List Char} (retains : Retains worker text)
    (dated : ∀ chunk ∈ worker.state.chunks, ∃ clock : Clock,
      clock.seconds < endOfDates ∧ chunk.timestamp = now clock) : Journaled worker text where
  working := retains.working
  chained := retains.described.chained
  bytes := retains.described.bytes
  lines := retains.described.lines
  suffix := retains.suffix
  files := retains.described.files
  dated := dated
  limited := retains.limited

/-- A worker that was just started has journaled nothing. -/
theorem started_journaled (mode : Mode) (maxOutputBytes : Nat) :
    Journaled (started mode maxOutputBytes) [] where
  working := rfl
  chained := rfl
  bytes := rfl
  lines := rfl
  suffix := ⟨[], rfl, rfl⟩
  files := rfl
  dated := by simp [started]
  limited := by simp [started]

/-- The loop removes chunks from the front, without reaching an empty list. -/
theorem evict_working {limit first last : Nat} {chunks : List JournalChunk} {worker : Worker}
    (chained : Chained first chunks last)
    (bytes : worker.state.retainedBytes = textLength (retained chunks))
    (lines : worker.state.retainedNewlines = newlines (retained chunks))
    (files : worker.files = chunks.map chunkFile) :
    ∃ gone rest truncated, chunks = gone ++ rest ∧ textLength (retained rest) ≤ limit ∧
      evict limit (fun _ => none) chunks worker =
        some { worker with
          files := rest.map chunkFile
          state :=
            { worker.state with
              chunks := rest
              retainedBytes := textLength (retained rest)
              retainedNewlines := newlines (retained rest)
              outputTruncated := truncated } } := by
  induction chunks generalizing first worker with
  | nil =>
    refine ⟨[], [], worker.state.outputTruncated, rfl, Nat.zero_le _, ?_⟩
    have empty : worker.state.retainedBytes ≤ limit := by
      rw [bytes]
      exact Nat.zero_le _
    rw [evict, if_pos empty, ← bytes, ← lines, ← files]
  | cons removed rest inductionHypothesis =>
    by_cases small : worker.state.retainedBytes ≤ limit
    · refine ⟨[], removed :: rest, worker.state.outputTruncated, rfl, bytes ▸ small, ?_⟩
      rw [evict, if_pos small, ← bytes, ← lines, ← files]
    · rw [evict, if_neg small]
      have removal := removeFile_first chained
      obtain ⟨_, _, _, later⟩ := chained
      rw [retained_cons, textLength_append] at bytes
      rw [retained_cons, newlines_append] at lines
      obtain ⟨gone, left, truncated, split, within, evicted⟩ := @inductionHypothesis
        removed.endSequence
        { worker with
          files := removeFile worker.files (fileName removed.startSequence)
          state :=
            { worker.state with
              retainedBytes := worker.state.retainedBytes - textLength removed.data
              retainedNewlines :=
                worker.state.retainedNewlines - (asBytes removed.data).count 10
              outputTruncated := true } }
        later (by simp only [bytes]; omega)
        (by simp only [lines, count_asBytes]; omega) (by rw [files]; exact removal)
      exact ⟨removed :: gone, left, truncated, by rw [split]; rfl, within, evicted⟩

/-- The cut lies in front of a character, and not behind where it started. -/
theorem backOff_boundary (bytes : List UInt8) (stop : Nat) :
    backOff bytes stop ≤ stop ∧ (backOff bytes stop = 0 ∨
      ∀ byte, bytes[backOff bytes stop]? = some byte → isContinuation byte = false) := by
  induction stop with
  | zero => exact ⟨Nat.le_refl 0, .inl rfl⟩
  | succ stop inductionHypothesis =>
    rw [backOff]
    split
    · exact ⟨Nat.le_succ_of_le inductionHypothesis.1, inductionHypothesis.2⟩
    next boundary =>
      refine ⟨Nat.le_refl _, .inr ?_⟩
      intro byte found
      simpa [found] using boundary

/-- Going back from a number of bytes within a text ends between two characters. -/
theorem sliceTo_backOff (data : List Char) {stop : Nat} (inside : stop ≤ textLength data) :
    ∃ added rest, sliceTo data (backOff (asBytes data) stop) = some added ∧ data = added ++ rest ∧
      textLength added = backOff (asBytes data) stop := by
  obtain ⟨below, zero | boundary⟩ := backOff_boundary (asBytes data) stop
  · refine ⟨[], data, ?_, rfl, zero.symm⟩
    simp only [zero, sliceTo]
  · exact sliceTo_boundary data _ (Nat.le_trans below inside) boundary

/-- A piece of output is cut between two characters. -/
theorem kept_some (worker : Worker) (data : List Char) :
    ∃ added rest, kept worker data = some added ∧ data = added ++ rest := by
  obtain ⟨added, rest, sliced, split, _⟩ :=
    sliceTo_backOff data (Nat.min_le_right (available worker data) (textLength data))
  exact ⟨added, rest, sliced, split⟩

/-- New output extends the last chunk, or makes a new one. -/
theorem place_cases (chunks : List JournalChunk) (next : Nat) (added timestamp : List Char) :
    (place chunks next added timestamp =
      (chunks, ⟨next, next + textLength added, timestamp, added⟩)) ∨
    ∃ before previous extended, chunks = before ++ [previous] ∧
      place chunks next added timestamp = (before ++ [extended], extended) ∧
      extended = ⟨previous.startSequence, next + textLength added, timestamp,
        previous.data ++ added⟩ := by
  obtain rfl | ⟨before, previous, rfl⟩ := List.eq_nil_or_concat' chunks
  · exact .inl rfl
  · simp only [place, List.getLast?_concat, List.dropLast_concat]
    split
    · exact .inr ⟨before, previous, _, rfl, rfl, rfl⟩
    · exact .inl rfl

/-- New output extends the last chunk just where both are at most 64 KiB. -/
theorem place_joins {first next : Nat} {chunks : List JournalChunk}
    (chained : Chained first chunks next) (added timestamp : List Char) :
    (∃ before previous, chunks = before ++ [previous] ∧
      textLength previous.data + textLength added ≤ 64 * 1024 ∧
      place chunks next added timestamp =
        (before ++ [⟨previous.startSequence, next + textLength added, timestamp,
          previous.data ++ added⟩],
          ⟨previous.startSequence, next + textLength added, timestamp, previous.data ++ added⟩)) ∨
    (∀ previous, chunks.getLast? = some previous →
      64 * 1024 < textLength previous.data + textLength added) ∧
      place chunks next added timestamp =
        (chunks, ⟨next, next + textLength added, timestamp, added⟩) := by
  obtain rfl | ⟨before, previous, rfl⟩ := List.eq_nil_or_concat' chunks
  · exact .inr ⟨nofun, rfl⟩
  · obtain ⟨_, _, _, _, _, ends⟩ := chained_append.mp chained
    have reaches : previous.endSequence = next := ends
    simp only [place, List.getLast?_concat, List.dropLast_concat, reaches, beq_self_eq_true,
      Bool.true_and, decide_eq_true_eq]
    split
    next close => exact .inl ⟨before, previous, rfl, close, rfl⟩
    next apart =>
      refine .inr ⟨?_, rfl⟩
      intro other found
      cases found
      omega

/-- The chunks with new output at their end, in memory and on disk. -/
theorem place_chained {first next : Nat} {chunks : List JournalChunk}
    (chained : Chained first chunks next) {added : List Char} (nonempty : added ≠ [])
    (timestamp : List Char) {placed : List JournalChunk × JournalChunk}
    (place : place chunks next added timestamp = placed) :
    ∃ pushed, (if placed.1.getLast?.all fun previous =>
          previous.startSequence != placed.2.startSequence then placed.1 ++ [placed.2]
        else placed.1) = pushed ∧
      Chained first pushed (next + textLength added) ∧
      retained pushed = retained chunks ++ added ∧
      writeFile (chunks.map chunkFile) (fileName placed.2.startSequence) placed.2.json =
        pushed.map chunkFile ∧
      ∀ chunk ∈ pushed, chunk ∈ chunks ∨ chunk.timestamp = timestamp := by
  obtain new | ⟨before, previous, extended, rfl, same, extension⟩ :=
    place_cases chunks next added timestamp
  · rw [new] at place
    subst place
    have fresh : ∀ other ∈ chunks, other.startSequence ≠ next := by
      intro other member
      have bounds := chained.bounds member
      omega
    refine ⟨_, if_pos ?_, ?_, ?_, writeFile_fresh fresh, ?_⟩
    · rw [Option.all_eq_true]
      intro other last
      simpa using fresh other (List.mem_of_getLast? last)
    · rw [chained_append]
      exact ⟨next, chained, rfl, nonempty, rfl, rfl⟩
    · simp
    · intro chunk member
      obtain old | new := List.mem_append.mp member
      · exact .inl old
      · rw [List.mem_singleton] at new
        rw [new]
        exact .inr rfl
  · rw [same] at place
    subst place
    obtain ⟨middle, left, start, filled, size, last⟩ := chained_append.mp chained
    have ends : previous.endSequence = next := last
    have starts : previous.startSequence = extended.startSequence := by rw [extension]
    have fresh : ∀ other ∈ before, other.startSequence ≠ extended.startSequence := by
      intro other member
      have bounds := left.bounds member
      omega
    refine ⟨_, if_neg ?_, ?_, ?_, writeFile_last starts fresh, ?_⟩
    · simp
    · rw [chained_append]
      refine ⟨middle, left, ?_, ?_, ?_, ?_⟩
      · rw [← starts, start]
      · simp [extension, nonempty]
      · simp only [extension, textLength_append]
        omega
      · rw [extension]
        rfl
    · simp [extension]
    · intro chunk member
      obtain old | new := List.mem_append.mp member
      · exact .inl (List.mem_append_left _ old)
      · rw [List.mem_singleton] at new
        rw [new, extension]
        exact .inr rfl

/-- Where the chunks start, or the next sequence number where there are none. -/
theorem chained_first {first last : Nat} {chunks : List JournalChunk}
    (chained : Chained first chunks last) :
    (chunks.head?.map JournalChunk.startSequence).getD last = first := by
  cases chunks with
  | nil => exact chained.symm
  | cons chunk rest => exact chained.1

/-- An execution keeps all chunks. -/
theorem settle_exec {worker : Worker} (exec : worker.mode = .exec) (call : Call)
    (added : List Char) (chunks : List JournalChunk) :
    settle worker call added chunks = some { worker with
      state := { worker.state.stream call.stdout added with chunks := chunks } } := by
  unfold settle
  split
  · rfl
  next pty => exact nomatch exec.symm.trans pty

/-- A terminal drops its oldest chunks. -/
theorem settle_pty {worker : Worker} (pty : worker.mode = .pty) (call : Call)
    (added : List Char) (chunks : List JournalChunk) :
    settle worker call added chunks =
      evict worker.maxOutputBytes call.disk.remove chunks worker := by
  unfold settle
  split
  next exec => exact nomatch exec.symm.trans pty
  · rfl

/-- What is added settles: in pty mode some chunks are removed from the front. -/
theorem settle_working {worker : Worker} {call : Call} (working : call.disk = .working)
    {added : List Char} {first last : Nat} {chunks : List JournalChunk}
    (chained : Chained first chunks last)
    (bytes : worker.state.retainedBytes = textLength (retained chunks))
    (lines : worker.state.retainedNewlines = newlines (retained chunks))
    (files : worker.files = chunks.map chunkFile) :
    ∃ next gone, settle worker call added chunks = some next ∧
      chunks = gone ++ next.state.chunks ∧
      next.state.retainedBytes = textLength (retained next.state.chunks) ∧
      next.state.retainedNewlines = newlines (retained next.state.chunks) ∧
      next.files = next.state.chunks.map chunkFile ∧
      (next.mode = .pty → next.state.retainedBytes ≤ next.maxOutputBytes) ∧
      next.state.nextSequence = worker.state.nextSequence ∧
      next.state.storageFailure = worker.state.storageFailure ∧
      next.mode = worker.mode ∧ next.maxOutputBytes = worker.maxOutputBytes := by
  unfold settle
  split
  next exec =>
    have pty : worker.mode ≠ .pty := by simp [exec]
    unfold State.stream
    split
    · exact ⟨_, [], rfl, rfl, bytes, lines, files, fun mode => absurd mode pty, rfl, rfl, rfl, rfl⟩
    · exact ⟨_, [], rfl, rfl, bytes, lines, files, fun mode => absurd mode pty, rfl, rfl, rfl, rfl⟩
  next pty =>
    rw [working]
    obtain ⟨gone, rest, truncated, split, within, evicted⟩ :=
      @evict_working worker.maxOutputBytes _ _ _ worker chained bytes lines files
    exact ⟨_, gone, evicted, split, rfl, rfl, rfl, fun _ => within, rfl, rfl, rfl, rfl⟩

/-- What a call does to a journal: chunks are removed from the front only, and every chunk was
there before or carries the time of the call. -/
structure Grows (call : Call) (worker next : Worker) : Prop where
  first : worker.state.firstRetainedSequence ≤ next.state.firstRetainedSequence
  timed : ∀ chunk ∈ next.state.chunks,
    chunk ∈ worker.state.chunks ∨ chunk.timestamp = now call.clock

/-- What is kept is stored in full, on a disk that works. -/
theorem store_retains {worker : Worker} {text : List Char} (retains : Retains worker text)
    {call : Call} (working : call.disk = .working) {added : List Char} (nonempty : added ≠ []) :
    ∃ next, store worker call added = some next ∧ Retains next (text ++ added) ∧
      next.mode = worker.mode ∧ next.maxOutputBytes = worker.maxOutputBytes ∧
      Grows call worker next := by
  obtain ⟨lost, split, lostLength⟩ := retains.suffix
  generalize placement : place worker.state.chunks worker.state.nextSequence added
    (now call.clock) = placed
  obtain ⟨pushed, push, chained, whole, written, members⟩ :=
    place_chained retains.described.chained nonempty (now call.clock) placement
  rw [← retains.described.files] at written
  obtain ⟨next, gone, settled, parts, bytes, lines, files, limited, sequence, failure, mode,
      limit⟩ := @settle_working
    { worker with
      files := writeFile worker.files (fileName placed.2.startSequence) placed.2.json
      state := worker.state.count added }
    call working added _ _ pushed chained
    (by rw [whole, textLength_append, ← retains.described.bytes]; rfl)
    (by rw [whole, newlines_append, ← retains.described.lines, ← count_asBytes added]; rfl)
    written
  have stored : store worker call added = some { next with state := next.state.refirst } := by
    simp only [store, placement, working, Disk.working, push]
    rw [settled]
    rfl
  rw [parts] at chained
  obtain ⟨middle, front, back⟩ := chained_append.mp chained
  have first : next.state.refirst.firstRetainedSequence = middle := by
    rw [← chained_first back]
    simp only [State.refirst, sequence]
    rfl
  refine ⟨_, stored, ⟨failure.trans retains.working, ⟨?_, bytes, lines, files⟩, ?_, limited⟩, mode,
    limit, ?_, ?_⟩
  · rw [first]
    change Chained middle next.state.chunks next.state.nextSequence
    rw [sequence]
    exact back
  · refine ⟨lost ++ retained gone, ?_, ?_⟩
    · change text ++ added = lost ++ retained gone ++ retained next.state.chunks
      rw [List.append_assoc, ← retained_append, ← parts, whole, split, List.append_assoc]
    · rw [first, textLength_append, lostLength]
      exact front.length
  · rw [first, ← front.length]
    exact Nat.le_add_right _ _
  · intro chunk member
    exact members chunk (parts ▸ List.mem_append_right gone member)

/-- The flags of a cut are no part of the journal. -/
theorem Retains.truncate {worker : Worker} {text : List Char} (retains : Retains worker text)
    (cut stdout : Bool) :
    Retains
      { worker with state := if cut then worker.state.truncate stdout else worker.state } text := by
  cases cut with
  | false => exact retains
  | true =>
    obtain ⟨chained, bytes, lines, files⟩ := retains.described
    unfold State.truncate
    cases stdout <;>
      exact ⟨retains.working, ⟨chained, bytes, lines, files⟩, retains.suffix, retains.limited⟩

/-- A call on a disk that works keeps the journal, and adds what is kept to its text. -/
theorem appendOutput_retains {worker : Worker} {text : List Char} (retains : Retains worker text)
    {call : Call} (working : call.disk = .working) :
    ∃ next, appendOutput worker call = some next ∧
      Retains next (text ++ addition worker call) ∧ next.mode = worker.mode ∧
      next.maxOutputBytes = worker.maxOutputBytes ∧ Grows call worker next := by
  have same (state : State) (chunks : state.chunks = worker.state.chunks)
      (first : state.firstRetainedSequence = worker.state.firstRetainedSequence) :
      Grows call worker { worker with state := state } := by
    constructor
    · exact Nat.le_of_eq first.symm
    · intro chunk member
      exact .inl (chunks ▸ member)
  by_cases empty : call.data.isEmpty = true
  · refine ⟨worker, ?_, ?_, rfl, rfl, same worker.state rfl rfl⟩
    · simp [appendOutput, empty]
    · simpa [addition, empty] using retains
  · obtain ⟨added, rest, sliced, split⟩ := kept_some worker call.data
    have adds : addition worker call = added := by
      simp [addition, empty, retains.working, sliced]
    have marked := retains.truncate (textLength added != textLength call.data) call.stdout
    have chunks : (if (textLength added != textLength call.data) = true then
        worker.state.truncate call.stdout else worker.state).chunks = worker.state.chunks := by
      unfold State.truncate
      split_ifs <;> rfl
    have first : (if (textLength added != textLength call.data) = true then
        worker.state.truncate call.stdout else worker.state).firstRetainedSequence =
          worker.state.firstRetainedSequence := by
      unfold State.truncate
      split_ifs <;> rfl
    rw [adds]
    simp only [appendOutput, empty, retains.working, Option.isSome_none, Bool.false_or, sliced,
      Option.bind_eq_bind, Option.bind_some]
    by_cases nothing : added = []
    · subst nothing
      rw [List.append_nil]
      exact ⟨_, rfl, marked, rfl, rfl, same _ chunks first⟩
    · obtain ⟨next, stored, kept, mode, limit, grows⟩ := store_retains marked working nothing
      have present : added.isEmpty = false := by simpa using nothing
      refine ⟨next, ?_, kept, mode, limit, ?_, ?_⟩
      · simpa [present] using stored
      · exact first ▸ grows.first
      · intro chunk member
        exact chunks ▸ grows.timed chunk member

/-- Every sequence of calls on a disk that works runs to its end, and keeps the journal. -/
theorem appendAll_retains {worker : Worker} {text : List Char} (retains : Retains worker text)
    {calls : List Call} (working : ∀ call ∈ calls, call.disk = .working) :
    ∃ last added, appendAll worker calls = some (last, added) ∧ Retains last (text ++ added) ∧
      last.mode = worker.mode ∧ last.maxOutputBytes = worker.maxOutputBytes ∧
      worker.state.firstRetainedSequence ≤ last.state.firstRetainedSequence := by
  induction calls generalizing worker text with
  | nil => exact ⟨worker, [], rfl, by rwa [List.append_nil], rfl, rfl, Nat.le_refl _⟩
  | cons call rest inductionHypothesis =>
    obtain ⟨works, restWorks⟩ := List.forall_mem_cons.mp working
    obtain ⟨next, appended, kept, mode, limit, grows⟩ := appendOutput_retains retains works
    obtain ⟨last, added, run, final, lastMode, lastLimit, first⟩ :=
      inductionHypothesis kept restWorks
    refine ⟨last, addition worker call ++ added, ?_, ?_, lastMode.trans mode,
      lastLimit.trans limit, Nat.le_trans grows.first first⟩
    · simp [appendAll, appended, run]
    · rwa [List.append_assoc] at final

/-- A call before the year 10000 keeps a journal with its dates. -/
theorem appendOutput_journaled {worker : Worker} {text : List Char}
    (journaled : Journaled worker text) {call : Call} (working : call.disk = .working)
    (dated : call.clock.seconds < endOfDates) :
    ∃ next, appendOutput worker call = some next ∧
      Journaled next (text ++ addition worker call) ∧ next.mode = worker.mode ∧
      next.maxOutputBytes = worker.maxOutputBytes := by
  obtain ⟨next, appended, retains, mode, limit, grows⟩ :=
    appendOutput_retains journaled.retains working
  refine ⟨next, appended, retains.journaled ?_, mode, limit⟩
  intro chunk member
  obtain old | new := grows.timed chunk member
  · exact journaled.dated chunk old
  · exact ⟨call.clock, dated, new⟩

/-- Calls before the year 10000 keep a journal with its dates. -/
theorem appendAll_journaled {worker : Worker} {text : List Char}
    (journaled : Journaled worker text) {calls : List Call}
    (working : ∀ call ∈ calls, call.disk = .working)
    (dated : ∀ call ∈ calls, call.clock.seconds < endOfDates) :
    ∃ last added, appendAll worker calls = some (last, added) ∧
      Journaled last (text ++ added) ∧ last.mode = worker.mode ∧
      last.maxOutputBytes = worker.maxOutputBytes := by
  induction calls generalizing worker text with
  | nil => exact ⟨worker, [], rfl, by rwa [List.append_nil], rfl, rfl⟩
  | cons call rest inductionHypothesis =>
    obtain ⟨works, restWorks⟩ := List.forall_mem_cons.mp working
    obtain ⟨date, restDates⟩ := List.forall_mem_cons.mp dated
    obtain ⟨next, appended, kept, mode, limit⟩ := appendOutput_journaled journaled works date
    obtain ⟨last, added, run, final, lastMode, lastLimit⟩ :=
      inductionHypothesis kept restWorks restDates
    refine ⟨last, addition worker call ++ added, ?_, ?_, lastMode.trans mode,
      lastLimit.trans limit⟩
    · simp [appendAll, appended, run]
    · rwa [List.append_assoc] at final

/-! ## The daemon's view -/

/-- A chunk as the daemon reads it. -/
def outputChunk (chunk : JournalChunk) : OutputJournal.OutputChunk :=
  ⟨chunk.startSequence, chunk.endSequence, encode chunk.timestamp, encode chunk.data⟩

/-- The daemon joins the chunks to the text that the worker retains. -/
theorem joined_outputChunk (chunks : List JournalChunk) :
    OutputJournal.joined (chunks.map outputChunk) = encode (retained chunks) := by
  rw [retained, encode_flatten, List.map_map]
  simp [OutputJournal.joined, outputChunk, Function.comp_def]

/-- The chunks of a chain follow one another for the daemon too. -/
theorem Chained.follows {first last : Nat} {chunks : List JournalChunk}
    (chained : Chained first chunks last) :
    OutputJournal.Follows first (chunks.map outputChunk) last := by
  induction chunks generalizing first with
  | nil => exact chained
  | cons chunk rest inductionHypothesis =>
    obtain ⟨start, filled, size, later⟩ := chained
    have positive := textLength_pos filled
    refine ⟨start, ?_, inductionHypothesis later⟩
    simp only [outputChunk]
    omega

/-- Worker and daemon name the file of a chunk alike. -/
theorem fileName_chunkName (startSequence : Nat) :
    encode (fileName startSequence) = OutputJournal.chunkName startSequence := by
  simp only [fileName, encode_append]
  rfl

/-- The daemon accepts the file of a chunk. -/
theorem readOutputChunk_chunkFile {dateParse : JsString → Option Int}
    (parses : ParsesDates dateParse) {chunk : JournalChunk}
    (safe : chunk.endSequence ≤ maxSafeInteger) (filled : chunk.data ≠ [])
    (size : chunk.endSequence = chunk.startSequence + textLength chunk.data)
    {clock : Clock} (dated : clock.seconds < endOfDates) (time : chunk.timestamp = now clock) :
    OutputJournal.readOutputChunk dateParse (encode (chunkFile chunk).1)
      (some (chunkFile chunk).2) = .ok (outputChunk chunk) := by
  have safeStart : chunk.startSequence ≤ maxSafeInteger := by omega
  have small : chunk.startSequence < 10 ^ 20 := by
    have limit : maxSafeInteger < 10 ^ 20 := by decide
    omega
  have name : encode (chunkFile chunk).1 = OutputJournal.chunkName chunk.startSequence :=
    fileName_chunkName chunk.startSequence
  rw [OutputJournal.readOutputChunk_ok, name]
  refine ⟨OutputJournal.isChunkName_chunkName small, chunk.json, rfl, rfl,
    OutputJournal.nonnegativeInteger_int safeStart, OutputJournal.nonnegativeInteger_int safe,
    ?_, ?_, ?_, ?_, rfl⟩
  · have parsed : (dateParse (encode chunk.timestamp)).isSome := by
      rw [time]
      exact parses (date clock) (date_valid clock dated)
    change (OutputJournal.text (some (.str (encode chunk.timestamp)))).filter _ = _
    simp [OutputJournal.text, validText_encode, parsed, outputChunk]
  · change OutputJournal.text (some (.str (encode chunk.data))) = _
    simp [OutputJournal.text, validText_encode, outputChunk]
  · simpa [outputChunk, encode_eq_nil] using filled
  · simp only [outputChunk, byteLength_encode]
    exact size

/-- The daemon reads just the chunks of the worker, in whatever order it lists the files. -/
theorem Journaled.readOutputChunks {dateParse : JsString → Option Int}
    (parses : ParsesDates dateParse) {worker : Worker} {text : List Char}
    (journaled : Journaled worker text) (safe : worker.state.nextSequence ≤ maxSafeInteger)
    {directory : OutputJournal.Directory} (listed : directory.Perm (listing worker.files)) :
    OutputJournal.readOutputChunks dateParse directory =
      .ok (worker.state.chunks.map outputChunk) := by
  refine OutputJournal.readOutputChunks_ok dateParse ?_ journaled.chained.follows listed
  rw [journaled.files, listing, List.map_map, List.forall₂_map_left_iff,
    List.forall₂_map_right_iff, List.forall₂_same]
  intro chunk member
  obtain ⟨_, _, below, filled, size⟩ := journaled.chained.bounds member
  obtain ⟨clock, dated, time⟩ := journaled.dated chunk member
  exact readOutputChunk_chunkFile parses (Nat.le_trans below safe) filled size dated time

/-- The snapshot has a partial line where the daemon finds one in the retained text. -/
theorem Journaled.hasPartialLine {worker : Worker} {text : List Char}
    (journaled : Journaled worker text) :
    worker.state.outputHasPartialLine =
      OutputJournal.hasPartialLine (encode (retained worker.state.chunks)) := by
  have chained := journaled.chained
  rw [State.outputHasPartialLine, journaled.bytes]
  obtain empty | ⟨before, chunk, chunks⟩ := List.eq_nil_or_concat' worker.state.chunks
  · rw [empty]
    rfl
  · rw [chunks] at chained ⊢
    have filled := (chained.bounds (List.mem_append_right before List.mem_cons_self)).2.2.2.1
    have whole : retained (before ++ [chunk]) = retained before ++ chunk.data := by simp
    have present : retained (before ++ [chunk]) ≠ [] := by simp [whole, filled]
    have last : (retained (before ++ [chunk])).getLast? = chunk.data.getLast? := by
      rw [whole, List.getLast?_append_of_ne_nil _ filled]
    have ends : OutputJournal.endsLine (encode (retained (before ++ [chunk]))) =
        (chunk.data.getLast? == some '\n') := by
      rw [OutputJournal.endsLine, Bool.eq_iff_iff, beq_iff_eq, beq_iff_eq, encode_getLast, last]
    have nonempty : (encode (retained (before ++ [chunk]))).isEmpty = false := by
      simpa [encode_eq_nil] using present
    have positive := textLength_pos present
    simp only [OutputJournal.hasPartialLine, ends, nonempty, positive, List.getLast?_concat,
      Option.any_some, decide_true, Bool.true_and, Bool.not_false]

/-- The snapshot counts the lines that the daemon counts in the retained text. -/
theorem Journaled.lineCount {worker : Worker} {text : List Char}
    (journaled : Journaled worker text) :
    worker.state.outputLineCount =
      OutputJournal.lineCount (encode (retained worker.state.chunks)) := by
  rw [OutputJournal.lineCount_eq, count_encode, ← journaled.hasPartialLine, State.outputLineCount,
    journaled.lines]

/-- The worker's view of its journal: the chunks, the counters and the snapshot. -/
structure Accounted (worker : Worker) : Prop where
  contiguous : worker.state.chunks.IsChain fun left right =>
    left.endSequence = right.startSequence
  lengths : ∀ chunk ∈ worker.state.chunks,
    textLength chunk.data = chunk.endSequence - chunk.startSequence
  last : ∀ chunk, worker.state.chunks.getLast? = some chunk →
    chunk.endSequence = worker.state.nextSequence
  first : (worker.state.chunks.head?.map JournalChunk.startSequence).getD
    worker.state.nextSequence = worker.state.firstRetainedSequence
  bytes : worker.state.retainedBytes =
    worker.state.nextSequence - worker.state.firstRetainedSequence
  limited : worker.mode = .pty → worker.state.retainedBytes ≤ worker.maxOutputBytes

/-- Each chunk of a chain begins where the one before it ends. -/
theorem Chained.contiguous {first last : Nat} {chunks : List JournalChunk}
    (chained : Chained first chunks last) :
    chunks.IsChain fun left right => left.endSequence = right.startSequence := by
  induction chunks generalizing first with
  | nil => exact .nil
  | cons chunk rest inductionHypothesis =>
    obtain ⟨_, _, _, later⟩ := chained
    have tail := inductionHypothesis later
    cases rest with
    | nil => exact .singleton chunk
    | cons next others => exact .cons_cons later.1.symm tail

/-- What is journaled is accounted for. -/
theorem Journaled.accounted {worker : Worker} {text : List Char}
    (journaled : Journaled worker text) : Accounted worker where
  contiguous := journaled.chained.contiguous
  lengths := by
    intro chunk member
    obtain ⟨_, _, _, _, size⟩ := journaled.chained.bounds member
    omega
  last := by
    intro chunk last
    obtain ⟨before, chunks⟩ := List.getLast?_eq_some_iff.mp last
    have chained := journaled.chained
    rw [chunks] at chained
    obtain ⟨_, _, _, _, _, ends⟩ := chained_append.mp chained
    exact ends
  first := chained_first journaled.chained
  bytes := by
    have length := journaled.chained.length
    rw [journaled.bytes]
    omega
  limited := journaled.limited

/-- After any calls on a disk that works, none of which panics, the journal is accounted for
in memory. The daemon reads just the chunks of the worker from its files, in whatever order
they are listed, as long as their sequence numbers are safe integers; it finds the suffix of
the text that was kept, with the lines that the snapshot counts. -/
theorem worker_journal_agrees {dateParse : JsString → Option Int}
    (parses : ParsesDates dateParse) (mode : Mode) (maxOutputBytes : Nat) {calls : List Call}
    (working : ∀ call ∈ calls, call.disk = .working)
    (dated : ∀ call ∈ calls, call.clock.seconds < endOfDates) :
    ∃ worker text, appendAll (started mode maxOutputBytes) calls = some (worker, text) ∧
      worker.mode = mode ∧ worker.maxOutputBytes = maxOutputBytes ∧ Accounted worker ∧
      ∃ lost rest, text = lost ++ rest ∧ textLength lost = worker.state.firstRetainedSequence ∧
        worker.state.outputLineCount = OutputJournal.lineCount (encode rest) ∧
        worker.state.outputHasPartialLine = OutputJournal.hasPartialLine (encode rest) ∧
        (worker.state.nextSequence ≤ maxSafeInteger →
          ∀ directory : OutputJournal.Directory, directory.Perm (listing worker.files) →
            OutputJournal.readOutputChunks dateParse directory =
              .ok (worker.state.chunks.map outputChunk) ∧
            OutputJournal.readOutput dateParse directory = .ok (encode rest)) := by
  obtain ⟨worker, text, run, journaled, sameMode, sameLimit⟩ :=
    appendAll_journaled (started_journaled mode maxOutputBytes) working dated
  rw [List.nil_append] at journaled
  obtain ⟨lost, split, length⟩ := journaled.suffix
  refine ⟨worker, text, run, sameMode, sameLimit, journaled.accounted, lost,
    retained worker.state.chunks, split, length, journaled.lineCount, journaled.hasPartialLine, ?_⟩
  intro safe directory listed
  have chunks := journaled.readOutputChunks parses safe listed
  refine ⟨chunks, ?_⟩
  rw [OutputJournal.readOutput, chunks, ← joined_outputChunk]
  rfl

/-- One line of output, at the beginning of 1970. -/
def oneLine : Call := ⟨true, "hé\n".toList, ⟨0, 0⟩, .working⟩

/-- An execution with one line keeps it, and its counts agree. -/
theorem worker_journal_agrees_one_line :
    ∃ worker text, appendAll (started .exec 3) [oneLine] = some (worker, text) ∧
      worker.mode = .exec ∧ worker.maxOutputBytes = 3 ∧ Accounted worker ∧
      ∃ lost rest, text = lost ++ rest ∧ textLength lost = worker.state.firstRetainedSequence ∧
        worker.state.outputLineCount = OutputJournal.lineCount (encode rest) ∧
        worker.state.outputHasPartialLine = OutputJournal.hasPartialLine (encode rest) ∧
        (worker.state.nextSequence ≤ maxSafeInteger →
          ∀ directory : OutputJournal.Directory, directory.Perm (listing worker.files) →
            OutputJournal.readOutputChunks (fun _ => some 0) directory =
              .ok (worker.state.chunks.map outputChunk) ∧
            OutputJournal.readOutput (fun _ => some 0) directory = .ok (encode rest)) :=
  worker_journal_agrees (fun _ _ => rfl) .exec 3 (by simp [oneLine]) (by simp [oneLine, endOfDates])

/-- In pty mode nothing is cut off. -/
theorem kept_pty {worker : Worker} (pty : worker.mode = .pty) (data : List Char) :
    kept worker data = some data := by
  have absent : (asBytes data)[textLength data]? = none := by
    rw [List.getElem?_eq_none_iff, length_asBytes]
  have stays : backOff (asBytes data) (textLength data) = textLength data := by
    cases length : textLength data with
    | zero => rfl
    | succ stop =>
      rw [length] at absent
      simp [backOff, absent]
  obtain ⟨added, rest, sliced, split, size⟩ :=
    sliceTo_boundary data (textLength data) (Nat.le_refl _) (by simp [absent])
  have whole : rest = [] := by
    rw [← textLength_eq_zero]
    rw [split, textLength_append] at size
    omega
  rw [whole, List.append_nil] at split
  rw [kept, available, pty, Nat.min_self, stays, sliced, ← split]

/-- The file of a first piece of output within the limit. -/
theorem first_append {limit : Nat} {call : Call} (working : call.disk = .working)
    (nonempty : call.data ≠ []) (fits : textLength call.data ≤ limit) :
    ∃ next, appendOutput (started .pty limit) call = some next ∧
      next.files = [chunkFile ⟨0, textLength call.data, now call.clock, call.data⟩] := by
  have present : call.data.isEmpty = false := by simpa using nonempty
  have whole : kept (started .pty limit) call.data = some call.data := kept_pty rfl call.data
  have appended : appendOutput (started .pty limit) call =
      store (started .pty limit) call call.data := by
    have free : (started .pty limit).state.storageFailure = none := rfl
    simp [appendOutput, present, whole, free, nonempty]
  rw [appended]
  have settled : settle
      { started .pty limit with
        files := [chunkFile ⟨0, textLength call.data, now call.clock, call.data⟩]
        state := (started .pty limit).state.count call.data }
      call call.data [⟨0, textLength call.data, now call.clock, call.data⟩] = some
      { started .pty limit with
        files := [chunkFile ⟨0, textLength call.data, now call.clock, call.data⟩]
        state :=
          { (started .pty limit).state.count call.data with
            chunks := [⟨0, textLength call.data, now call.clock, call.data⟩] } } := by
    simp [settle, started, evict, State.count, fits]
  have written : call.disk.write = none := by
    rw [working]
    rfl
  refine ⟨{ started .pty limit with
    files := [chunkFile ⟨0, textLength call.data, now call.clock, call.data⟩]
    state :=
      { (started .pty limit).state.count call.data with
        chunks := [⟨0, textLength call.data, now call.clock, call.data⟩] } }, ?_, rfl⟩
  have placement : place (started .pty limit).state.chunks
      (started .pty limit).state.nextSequence call.data (now call.clock) =
        ([], ⟨0, textLength call.data, now call.clock, call.data⟩) := by
    simp [started, place]
  simp only [store, written, placement]
  exact congrArg (fun result => result >>= fun next : Worker =>
    some { next with state := next.state.refirst }) settled

/-- A single chunk that ends beyond the safe integers is not accepted. -/
theorem readOutputChunks_beyond (dateParse : JsString → Option Int) {chunk : JournalChunk}
    (small : chunk.startSequence < 10 ^ 20) (beyond : maxSafeInteger < chunk.endSequence) :
    OutputJournal.readOutputChunks dateParse (listing [chunkFile chunk]) = .error .sequence := by
  have name : encode (chunkFile chunk).1 = OutputJournal.chunkName chunk.startSequence :=
    fileName_chunkName chunk.startSequence
  have suffix := OutputJournal.isSuffixOf_chunkName chunk.startSequence
  have ends : OutputJournal.nonnegativeInteger (chunk.json.get "endSequence") = none := by
    change OutputJournal.nonnegativeInteger (some (.int chunk.endSequence)) = none
    simp [OutputJournal.nonnegativeInteger, Js.int, JsNumber.isSafeInteger, beyond]
  have object : chunk.json.isObject = true := rfl
  have read : OutputJournal.readOutputChunk dateParse (encode (chunkFile chunk).1)
      (some (chunkFile chunk).2) = .error .sequence := by
    change OutputJournal.readOutputChunk dateParse _ (some chunk.json) = _
    rw [name]
    simp [OutputJournal.readOutputChunk, OutputJournal.isChunkName_chunkName small, object, ends]
  rw [← name] at suffix
  simp [OutputJournal.readOutputChunks, listing, suffix, read]
  rfl

/-- As much output as the daemon cannot number. -/
def hugeOutput : Call := ⟨true, List.replicate (2 ^ 53) 'a', ⟨0, 0⟩, .working⟩

/-- The worker keeps all of it, and the daemon does not accept the file. -/
theorem journal_beyond_safe_integers :
    ¬ ∀ worker text, appendAll (started .pty (2 ^ 53)) [hugeOutput] = some (worker, text) →
      OutputJournal.readOutputChunks (fun _ => some 0) (listing worker.files) =
        .ok (worker.state.chunks.map outputChunk) := by
  have repeated (count : Nat) : textLength (List.replicate count 'a') = count := by
    induction count with
    | zero => rfl
    | succ count inductionHypothesis =>
      have one : Char.utf8Size 'a' = 1 := by decide
      rw [List.replicate_succ, textLength_cons, inductionHypothesis, one, Nat.add_comm]
  have size : textLength hugeOutput.data = 2 ^ 53 := repeated (2 ^ 53)
  have nonempty : hugeOutput.data ≠ [] := by
    rw [ne_eq, ← textLength_eq_zero, size]
    decide
  obtain ⟨next, appended, files⟩ := first_append rfl nonempty (Nat.le_of_eq size)
  intro accepted
  have run : appendAll (started .pty (2 ^ 53)) [hugeOutput] =
      some (next, addition (started .pty (2 ^ 53)) hugeOutput ++ []) := by
    rw [appendAll, appended]
    rfl
  have read := accepted next _ run
  rw [files, readOutputChunks_beyond] at read
  · cases read
  · exact Nat.pow_pos (by decide)
  · rw [size]
    decide

end OpencodePty.WorkerJournal
