import OpencodePty.WorkerJournalRuns

/-!
# Retention of terminal output

A terminal worker keeps all new output and then removes whole chunks from the front, down to its
limit. New output is joined to the last chunk as long as both are at most 64 KiB. Where the limit is
smaller than that, a joined chunk may exceed the limit by itself: it is removed with the newest
output in it, and nothing is left.
-/

namespace OpencodePty.OutputRetention

open OpencodePty.TextEncodings OpencodePty.Timestamps OpencodePty.WorkerJournal

/-- The newest output is retained. -/
def NewestRetained (worker : Worker) (data : List Char) : Prop :=
  data <:+ retained worker.state.chunks ∧ (data ≠ [] → retained worker.state.chunks ≠ [])

/-- The last chunk, if it takes the new output, stays within the limit. -/
def Room (worker : Worker) (data : List Char) : Prop :=
  data = [] ∨ ∀ previous, worker.state.chunks.getLast? = some previous →
    textLength previous.data + textLength data ≤ 64 * 1024 →
    textLength previous.data + textLength data ≤ worker.maxOutputBytes

/-! ## Eviction -/

/-- Nothing is removed within the limit. -/
theorem evict_within {limit : Nat} {remove : List Char → Option (List Char)}
    {chunks : List JournalChunk} {worker : Worker} (small : worker.state.retainedBytes ≤ limit) :
    evict limit remove chunks worker =
      some { worker with state := { worker.state with chunks := chunks } } := by
  unfold evict
  exact if_pos small

/-- The last chunk is not removed as long as it fits into the limit by itself. -/
theorem evict_last {limit first last : Nat} {before : List JournalChunk} {final : JournalChunk}
    {worker : Worker} (chained : Chained first (before ++ [final]) last)
    (bytes : worker.state.retainedBytes = textLength (retained (before ++ [final])))
    (fits : textLength final.data ≤ limit) :
    ∃ next rest, evict limit (fun _ => none) (before ++ [final]) worker = some next ∧
      next.state.chunks = rest ++ [final] := by
  induction before generalizing first worker with
  | nil =>
    have small : worker.state.retainedBytes ≤ limit := by
      rw [bytes]
      simpa using fits
    exact ⟨_, [], evict_within small, rfl⟩
  | cons removed before inductionHypothesis =>
    by_cases small : worker.state.retainedBytes ≤ limit
    · exact ⟨_, removed :: before, evict_within small, rfl⟩
    · obtain ⟨_, _, _, later⟩ := chained
      rw [List.cons_append, retained_cons, textLength_append] at bytes
      rw [List.cons_append, evict, if_neg small]
      refine inductionHypothesis later ?_
      simp only [bytes]
      omega

/-- No chunk is left where the last one exceeds the limit by itself. -/
theorem nothing_within {limit : Nat} {gone rest before : List JournalChunk} {final : JournalChunk}
    (split : before ++ [final] = gone ++ rest) (within : textLength (retained rest) ≤ limit)
    (exceeds : limit < textLength final.data) : rest = [] := by
  obtain rfl | ⟨others, other, rfl⟩ := List.eq_nil_or_concat' rest
  · rfl
  · rw [← List.append_assoc] at split
    have same : final = other := by
      have ends := congrArg List.getLast? split
      simpa only [List.getLast?_concat, Option.some.injEq] using ends
    subst same
    rw [retained_append, textLength_append] at within
    simp only [retained_cons, retained_nil, List.append_nil] at within
    omega

/-! ## New output -/

/-- The chunks with new output at their end, the last one of which holds it. It is joined to the
last chunk just where `Room` asks whether both fit. -/
structure Pushed (worker : Worker) (data : List Char) (before : List JournalChunk)
    (final : JournalChunk) : Prop where
  chained : Chained worker.state.firstRetainedSequence (before ++ [final])
    (worker.state.nextSequence + textLength data)
  whole : retained (before ++ [final]) = retained worker.state.chunks ++ data
  newest : data <:+ final.data
  joined : textLength final.data = textLength data ∧
      (∀ previous, worker.state.chunks.getLast? = some previous →
        64 * 1024 < textLength previous.data + textLength data) ∨
    ∃ previous, worker.state.chunks.getLast? = some previous ∧
      textLength previous.data + textLength data ≤ 64 * 1024 ∧
      textLength final.data = textLength previous.data + textLength data

/-- The last chunk fits just where there is room for it. -/
theorem Pushed.fits_iff {worker : Worker} {data : List Char} {before : List JournalChunk}
    {final : JournalChunk} (pushed : Pushed worker data before final) (nonempty : data ≠ [])
    (small : textLength data ≤ worker.maxOutputBytes) :
    textLength final.data ≤ worker.maxOutputBytes ↔ Room worker data := by
  rcases pushed.joined with ⟨alone, apart⟩ | ⟨previous, last, close, size⟩
  · constructor
    · intro _
      refine .inr ?_
      intro previous last close
      have far := apart previous last
      omega
    · intro _
      omega
  · rw [size]
    constructor
    · intro fits
      refine .inr ?_
      intro other found _
      rw [last] at found
      cases found
      exact fits
    · rintro (empty | room)
      · exact absurd empty nonempty
      · exact room previous last close

/-- New output is placed at the end of the chunks. -/
theorem place_pushed {worker : Worker} {data timestamp : List Char}
    (chained : Chained worker.state.firstRetainedSequence worker.state.chunks
      worker.state.nextSequence) (nonempty : data ≠ [])
    {placed : List JournalChunk × JournalChunk}
    (placement : place worker.state.chunks worker.state.nextSequence data timestamp = placed) :
    ∃ before final, (if placed.1.getLast?.all fun previous =>
          previous.startSequence != placed.2.startSequence then placed.1 ++ [placed.2]
        else placed.1) = before ++ [final] ∧ Pushed worker data before final := by
  obtain ⟨pushed, push, pushedChained, whole, _⟩ :=
    place_chained chained nonempty timestamp placement
  rcases place_joins chained data timestamp with
    ⟨before, previous, chunks, close, joins⟩ | ⟨apart, fresh⟩
  · rw [joins] at placement
    subst placement
    have last : worker.state.chunks.getLast? = some previous := by
      rw [chunks, List.getLast?_concat]
    have joined : pushed = before ++ [⟨previous.startSequence,
        worker.state.nextSequence + textLength data, timestamp, previous.data ++ data⟩] := by
      rw [← push]
      simp
    subst joined
    refine ⟨before, _, push, pushedChained, whole, List.suffix_append previous.data data, ?_⟩
    exact .inr ⟨previous, last, close, textLength_append previous.data data⟩
  · rw [fresh] at placement
    subst placement
    have absent : worker.state.chunks.getLast?.all (fun previous =>
        previous.startSequence != worker.state.nextSequence) = true := by
      rw [Option.all_eq_true]
      intro other last
      have bounds := chained.bounds (List.mem_of_getLast? last)
      rw [bne_iff_ne]
      omega
    have added : pushed = worker.state.chunks ++ [⟨worker.state.nextSequence,
        worker.state.nextSequence + textLength data, timestamp, data⟩] := by
      rw [← push]
      exact if_pos absent
    subst added
    exact ⟨_, _, push, pushedChained, whole, List.suffix_refl data, .inl ⟨rfl, apart⟩⟩

/-- A call stores new output behind the chunks and enforces the limit. -/
theorem appendOutput_pty {worker : Worker} {text : List Char} (retains : Retains worker text)
    (pty : worker.mode = .pty) {call : Call} (working : call.disk = .working)
    (nonempty : call.data ≠ []) :
    ∃ before final, Pushed worker call.data before final ∧
      appendOutput worker call =
        (evict worker.maxOutputBytes (fun _ => none) (before ++ [final])
          { worker with
            files := (before ++ [final]).map chunkFile
            state := worker.state.count call.data }).map
              fun next => { next with state := next.state.refirst } := by
  have chained := retains.described.chained
  generalize placement : place worker.state.chunks worker.state.nextSequence call.data
    (now call.clock) = placed
  obtain ⟨before, final, push, pushed⟩ := place_pushed chained nonempty placement
  obtain ⟨_, same, _, _, written, _⟩ := place_chained chained nonempty (now call.clock) placement
  rw [push] at same
  subst same
  rw [← retains.described.files] at written
  have present : call.data.isEmpty = false := by simpa using nonempty
  refine ⟨before, final, pushed, ?_⟩
  simp only [appendOutput, present, retains.working, kept_pty pty, store, placement, working,
    Disk.working, push, Option.isSome_none, Bool.false_or, Bool.false_eq_true, if_false,
    Option.bind_eq_bind, Option.bind_some, bne_self_eq_false, written]
  rw [settle_pty]
  · rw [working, Option.map_eq_bind]
    rfl
  · exact pty

/-- The counters with new output are those of the chunks with it. -/
theorem Pushed.counted {worker : Worker} {text data : List Char} {before : List JournalChunk}
    {final : JournalChunk} (pushed : Pushed worker data before final)
    (retains : Retains worker text) :
    (worker.state.count data).retainedBytes = textLength (retained (before ++ [final])) ∧
      (worker.state.count data).retainedNewlines = newlines (retained (before ++ [final])) := by
  rw [pushed.whole]
  constructor
  · rw [textLength_append, ← retains.described.bytes]
    rfl
  · rw [newlines_append, ← retains.described.lines, ← count_asBytes data]
    rfl

/-- With room for new output it is retained. -/
theorem appendOutput_room {worker : Worker} {text : List Char} (retains : Retains worker text)
    (pty : worker.mode = .pty) {call : Call} (working : call.disk = .working)
    (nonempty : call.data ≠ []) (small : textLength call.data ≤ worker.maxOutputBytes)
    (room : Room worker call.data) :
    ∃ next, appendOutput worker call = some next ∧ NewestRetained next call.data := by
  obtain ⟨before, final, pushed, appended⟩ := appendOutput_pty retains pty working nonempty
  have fits := (pushed.fits_iff nonempty small).mpr room
  obtain ⟨next, rest, evicted, chunks⟩ := @evict_last worker.maxOutputBytes _ _ _ _
    { worker with
      files := (before ++ [final]).map chunkFile
      state := worker.state.count call.data }
    pushed.chained (pushed.counted retains).1 fits
  rw [appended, evicted]
  refine ⟨_, rfl, ?_⟩
  simp only [NewestRetained, State.refirst, chunks, retained_append, retained_cons,
    retained_nil, List.append_nil]
  constructor
  · exact pushed.newest.trans (List.suffix_append _ _)
  · intro _ none
    have newest := pushed.newest
    rw [(List.append_eq_nil_iff.mp none).2] at newest
    exact nonempty (List.suffix_nil.mp newest)

/-- Without room for new output nothing is retained. -/
theorem appendOutput_crowded {worker : Worker} {text : List Char} (retains : Retains worker text)
    (pty : worker.mode = .pty) {call : Call} (working : call.disk = .working)
    (nonempty : call.data ≠ []) (small : textLength call.data ≤ worker.maxOutputBytes)
    (crowded : ¬ Room worker call.data) :
    ∃ next, appendOutput worker call = some next ∧ next.state.chunks = [] := by
  obtain ⟨before, final, pushed, appended⟩ := appendOutput_pty retains pty working nonempty
  have exceeds : ¬ textLength final.data ≤ worker.maxOutputBytes :=
    fun fits => crowded ((pushed.fits_iff nonempty small).mp fits)
  obtain ⟨bytes, lines⟩ := pushed.counted retains
  obtain ⟨gone, rest, truncated, split, within, evicted⟩ :=
    @evict_working worker.maxOutputBytes _ _ _
      { worker with
        files := (before ++ [final]).map chunkFile
        state := worker.state.count call.data }
      pushed.chained bytes lines rfl
  rw [appended, evicted]
  exact ⟨_, rfl, nothing_within split within (by omega)⟩

/-- Output within the limit is retained just where there is room for it. -/
theorem appendOutput_newest {worker : Worker} {text : List Char} (retains : Retains worker text)
    (pty : worker.mode = .pty) {call : Call} (working : call.disk = .working)
    (small : textLength call.data ≤ worker.maxOutputBytes) :
    ∃ next, appendOutput worker call = some next ∧
      (NewestRetained next call.data ↔ Room worker call.data) := by
  by_cases empty : call.data = []
  · refine ⟨worker, ?_, ?_⟩
    · simp [appendOutput, empty]
    · simp [NewestRetained, Room, empty]
  · by_cases room : Room worker call.data
    · obtain ⟨next, appended, newest⟩ := appendOutput_room retains pty working empty small room
      exact ⟨next, appended, iff_of_true newest room⟩
    · obtain ⟨next, appended, chunks⟩ := appendOutput_crowded retains pty working empty small room
      refine ⟨next, appended, iff_of_false ?_ room⟩
      rintro ⟨_, present⟩
      apply present empty
      rw [chunks]
      rfl

/-- After any output on a disk that works, a call retains its output, as long as it is within the
limit, just where the last chunk has room for it. -/
theorem newest_retained_iff (maxOutputBytes : Nat) {calls : List Call}
    (working : ∀ call ∈ calls, call.disk = .working) {worker : Worker} {text : List Char}
    (run : appendAll (started .pty maxOutputBytes) calls = some (worker, text))
    {call : Call} (works : call.disk = .working) (small : textLength call.data ≤ maxOutputBytes) :
    ∃ next, appendOutput worker call = some next ∧
      (NewestRetained next call.data ↔ Room worker call.data) := by
  obtain ⟨last, added, ran, retains, mode, limit, _⟩ :=
    appendAll_retains (started_journaled .pty maxOutputBytes).retains working
  rw [run] at ran
  cases ran
  refine appendOutput_newest retains mode works ?_
  rw [limit]
  exact small

/-- A piece of output at the beginning of 1970. -/
def piece (data : List Char) : Call := ⟨true, data, ⟨0, 0⟩, .working⟩

theorem newest_retained_iff_first :
    ∃ next, appendOutput (started .pty 3) (piece "ab".toList) = some next ∧
      (NewestRetained next "ab".toList ↔ Room (started .pty 3) "ab".toList) :=
  @newest_retained_iff 3 [] (by simp) _ _ rfl (piece "ab".toList) rfl (by decide)

/-- A first piece of output within the limit becomes the last chunk. -/
theorem first_last {limit : Nat} {data : List Char} (nonempty : data ≠ [])
    (fits : textLength data ≤ limit) {worker : Worker}
    (appended : appendOutput (started .pty limit) (piece data) = some worker) :
    ∃ final, worker.state.chunks.getLast? = some final ∧
      textLength final.data = textLength data := by
  obtain ⟨before, final, pushed, stored⟩ :=
    @appendOutput_pty _ _ (started_journaled .pty limit).retains rfl (piece data) rfl nonempty
  rw [appended, evict_within (by simpa [started, State.count, piece] using fits)] at stored
  cases stored
  refine ⟨final, List.getLast?_concat, ?_⟩
  obtain ⟨alone, _⟩ | ⟨_, none, _⟩ := pushed.joined
  · exact alone
  · cases none

/-- In pty mode all output is added. -/
theorem addition_pty {worker : Worker} (pty : worker.mode = .pty)
    (free : worker.state.storageFailure = none) (call : Call) :
    addition worker call = call.data := by
  simp only [addition, free, kept_pty pty, Option.isSome_none, Bool.or_false, Option.getD_some]
  split
  next empty => exact (List.isEmpty_iff.mp empty).symm
  next => rfl

/-- Two pieces within a limit that both together exceed: nothing is left of them. -/
theorem two_pieces {limit : Nat} {first second : List Char} (present : first ≠ [])
    (other : second ≠ []) (within : textLength first ≤ limit) (small : textLength second ≤ limit)
    (close : textLength first + textLength second ≤ 64 * 1024)
    (exceeds : limit < textLength first + textLength second) :
    ∃ worker next, appendOutput (started .pty limit) (piece first) = some worker ∧
      appendOutput worker (piece second) = some next ∧
      appendAll (started .pty limit) [piece first, piece second] = some (next, first ++ second) ∧
      Retains next (first ++ second) ∧ next.mode = .pty ∧ next.maxOutputBytes = limit ∧
      next.state.chunks = [] := by
  have fresh : Retains (started .pty limit) [] := (started_journaled .pty limit).retains
  obtain ⟨worker, appended, retains, mode, bound, _⟩ :=
    @appendOutput_retains _ _ fresh (piece first) rfl
  obtain ⟨final, last, size⟩ := first_last present within appended
  have crowded : ¬ Room worker second := by
    rintro (empty | room)
    · exact other empty
    · have fits := room final last
      rw [size, bound] at fits
      exact absurd (fits close) (Nat.not_le_of_lt exceeds)
  have limited : textLength second ≤ worker.maxOutputBytes := bound ▸ small
  obtain ⟨next, result, chunks⟩ := @appendOutput_crowded _ _ retains mode (piece second) rfl other
    limited crowded
  obtain ⟨same, again, kept, nextMode, nextBound, _⟩ :=
    @appendOutput_retains _ _ retains (piece second) rfl
  rw [result] at again
  cases again
  have adds : addition (started .pty limit) (piece first) = first := addition_pty rfl rfl _
  have addsMore : addition worker (piece second) = second :=
    addition_pty mode retains.working _
  rw [adds, addsMore] at kept
  refine ⟨worker, next, appended, result, ?_, kept, nextMode.trans mode, nextBound.trans bound,
    chunks⟩
  simp [appendAll, appended, result, adds, addsMore]

/-- Two pieces of two bytes each, both within a limit of three: the second one is joined to the
first, and both are removed. -/
theorem newest_not_retained :
    ¬ ∀ (maxOutputBytes : Nat) (calls : List Call) (worker : Worker) (text : List Char) (call : Call),
      0 < maxOutputBytes → (∀ call ∈ calls, call.disk = .working) →
      appendAll (started .pty maxOutputBytes) calls = some (worker, text) →
      call.disk = .working → textLength call.data ≤ maxOutputBytes →
      ∀ next, appendOutput worker call = some next →
        call.data <:+ retained next.state.chunks ∧
          (call.data ≠ [] → retained next.state.chunks ≠ []) := by
  intro always
  obtain ⟨worker, next, appended, result, _, _, _, _, chunks⟩ :=
    @two_pieces 3 "ab".toList "cd".toList (by decide) (by decide) (by decide) (by decide) (by decide)
      (by decide)
  have run : appendAll (started .pty 3) [piece "ab".toList] =
      some (worker, addition (started .pty 3) (piece "ab".toList) ++ []) := by
    rw [appendAll, appended]
    rfl
  have kept := always 3 [piece "ab".toList] worker _ (piece "cd".toList) (by decide)
    (by simp [piece]) run rfl (by decide) next result
  apply kept.2 (by decide)
  rw [chunks]
  rfl

end OpencodePty.OutputRetention
