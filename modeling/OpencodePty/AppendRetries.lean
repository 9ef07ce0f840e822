import OpencodePty.MigratedJournals
import OpencodePty.StorageAppends

/-!
# Appends that are retried

The write of a chunk may throw, and the append ends there. The chunks that are not stored are then
appended once more. A chunk that was to be merged is in the tail already, while its file is not
written, so that the retry gives it a file of its own and merges the chunk after it into the tail:
the chunk is in two files, and the journal is no longer accepted. In all other cases the journal is
that of an append that has not failed.
-/

namespace OpencodePty.AppendRetries

open JsValues TextEncodings OutputJournal AtomicFiles StorageAppends
open SessionLoading (chunkJson)
open Timestamps (newYear parseNewYear)

/-- The chunks that a failed append has not stored, from the one whose write threw. -/
def unstored (faults : Faults) (chunk : OutputChunk) (rest : List OutputChunk) : List OutputChunk :=
  if faults.replaces then rest else chunk :: rest

/-- An append whose write of one chunk throws, and a retry with the chunks that are not stored. -/
def retried (faults : OutputChunk → Faults) (storage : OutputStorage) (before : List OutputChunk)
    (chunk : OutputChunk) (rest : List OutputChunk) : OutputStorage × Bool :=
  let failed := appendOutput faults storage (before ++ chunk :: rest)
  appendOutput noFaults failed.1 (unstored (faults chunk) chunk rest)

/-- The journal is accepted after the retry, and has the appended text once. -/
def RetrySafe (dateParse : JsString → Option Int) (faults : OutputChunk → Faults)
    (storage : OutputStorage) (before : List OutputChunk) (chunk : OutputChunk)
    (rest : List OutputChunk) : Prop :=
  ∃ text, readOutput dateParse storage.files = .ok text ∧
    readOutput dateParse (retried faults storage before chunk rest).1.files =
      .ok (text ++ joined (before ++ chunk :: rest))

/-- The bytes of the tail after some chunks that follow it, as their lengths give them. -/
def tailBytes : Option Nat → List OutputChunk → Option Nat
  | tail, [] => tail
  | tail, chunk :: rest =>
    let room := tail.filter fun size => size + bytes chunk ≤ outputSegmentBytes
    tailBytes (some (room.getD 0 + bytes chunk)) rest

/-- The chunk was to be merged and is not stored, and the chunk after it fits into the tail with
it. -/
def MergedTwice (faults : OutputChunk → Faults) (storage : OutputStorage)
    (before : List OutputChunk) (chunk : OutputChunk) (rest : List OutputChunk) : Prop :=
  (faults chunk).replaces = false ∧
    ∃ size next, tailBytes (storage.tail.map bytes) before = some size ∧ rest.head? = some next ∧
      size + bytes chunk + bytes next ≤ outputSegmentBytes

/-! ## The chunks before the failure -/

section Before

variable {dateParse : JsString → Option Int} {storage : OutputStorage}
  {segments : List OutputChunk} {groups : List (List OutputChunk)} {first last : Nat}

/-- Writes that return leave what writes without faults leave. -/
theorem appendOutput_returns {faults : OutputChunk → Faults} {before : List OutputChunk}
    (returned : ∀ other ∈ before, (faults other).returns = true) (storage : OutputStorage)
    (after : List OutputChunk) :
    appendOutput faults storage (before ++ after) =
      appendOutput faults (appendOutput noFaults storage before).1 after := by
  induction before generalizing storage with
  | nil => rfl
  | cons chunk rest inductionHypothesis =>
    obtain ⟨here, later⟩ := List.forall_mem_cons.mp returned
    have same : appendChunk (faults chunk) storage chunk =
        appendChunk Faults.none storage chunk := by
      have replaces := Faults.replaces_of_returns here
      rw [appendChunk_eq, appendChunk_eq, here, replaces]
      rfl
    have first : (appendChunk (faults chunk) storage chunk).2 = true :=
      (appendChunk_returns ..).trans here
    have second : (appendChunk (noFaults chunk) storage chunk).2 = true := appendChunk_returns ..
    rw [List.cons_append, appendOutput_returned first, same, inductionHypothesis later,
      appendOutput_returned second]
    rfl

theorem bytes_merged {previous chunk : OutputChunk}
    (former : previous.startSequence < previous.endSequence)
    (meets : previous.endSequence = chunk.startSequence)
    (grows : chunk.startSequence < chunk.endSequence) :
    bytes (merged previous chunk) = bytes previous + bytes chunk := by
  simp only [bytes, merged]
  omega

/-- The tail after one chunk. -/
theorem tail_grown (written : Written dateParse storage segments groups first last)
    {chunk : OutputChunk} (meets : chunk.startSequence = last)
    (grows : chunk.startSequence < chunk.endSequence) :
    (appendChunk Faults.none storage chunk).1.tail.map bytes =
      some (((storage.tail.map bytes).filter fun size =>
        size + bytes chunk ≤ outputSegmentBytes).getD 0 + bytes chunk) := by
  rw [appendChunk_eq]
  cases held : storage.tail with
  | none =>
    change some (bytes chunk) = some (0 + bytes chunk)
    rw [Nat.zero_add]
  | some previous =>
    have ends : previous.endSequence = chunk.startSequence :=
      (written.tail_ends held).trans meets.symm
    by_cases fits : bytes previous + bytes chunk ≤ outputSegmentBytes
    · have joined : joins previous chunk = true := by simp [joins, ends, fits]
      simp only [Option.filter_some, joined, if_true, Option.map_some,
        bytes_merged (written.tail_grows held) ends grows, fits, decide_true, Option.getD_some]
    · have apart : joins previous chunk = false := by simp [joins, fits]
      have newer : previous.endSequence < chunk.endSequence := by omega
      simp only [Option.filter_some, apart, Bool.false_eq_true, if_false, Option.map_some, fits,
        decide_false, Option.getD_none, Nat.zero_add, Option.all_some, newer, decide_true,
        Bool.and_true]
      rw [if_pos Faults.returns_none, Option.map_some]

/-- The tail of a journal has the bytes that the lengths of the chunks give. -/
theorem tail_bytes {chunks : List OutputChunk} {final : Nat}
    (written : Written dateParse storage segments groups first last)
    (follows : Follows last chunks final) (readable : ∀ chunk ∈ chunks, Appendable dateParse chunk) :
    (appendOutput noFaults storage chunks).1.tail.map bytes =
      tailBytes (storage.tail.map bytes) chunks := by
  induction chunks generalizing storage segments groups last with
  | nil => rfl
  | cons chunk rest inductionHypothesis =>
    obtain ⟨meets, _, later⟩ := follows
    obtain ⟨here, others⟩ := List.forall_mem_cons.mp readable
    obtain ⟨returned, next, nextGroups, _, stored⟩ := appendChunk_written written meets here
    rw [appendOutput_returned returned, tailBytes, ← tail_grown written meets here.grows]
    exact inductionHypothesis stored later others

end Before

/-! ## The failure and the retry -/

section Retry

variable {dateParse : JsString → Option Int} {storage : OutputStorage}
  {segments : List OutputChunk} {groups : List (List OutputChunk)} {first last final : Nat}
  {chunk : OutputChunk} {rest : List OutputChunk} {faults : Faults}

/-- A tail that no chunk joins is replaced by the next one. -/
def Unjoined (tail : Option OutputChunk) (chunks : List OutputChunk) : Prop :=
  ∀ chunk, chunks.head? = some chunk → ∀ previous, tail = some previous →
    joins previous chunk = false ∧ previous.endSequence < chunk.endSequence

theorem appendOutput_unjoined {files : Directory} {tail : Option OutputChunk}
    {chunks : List OutputChunk} (unjoined : Unjoined tail chunks) :
    (appendOutput noFaults ⟨files, tail⟩ chunks).1.files =
      (appendOutput noFaults ⟨files, none⟩ chunks).1.files := by
  cases chunks with
  | nil => rfl
  | cons chunk rest =>
    have same : appendChunk Faults.none ⟨files, tail⟩ chunk =
        appendChunk Faults.none ⟨files, none⟩ chunk := by
      rw [appendChunk_eq, appendChunk_eq]
      cases tail with
      | none => rfl
      | some previous =>
        obtain ⟨apart, newer⟩ := unjoined chunk rfl previous rfl
        simp only [Option.filter_some, apart, Bool.false_eq_true, if_false, Option.all_some, newer,
          decide_true, Option.filter_none, Option.all_none]
        rfl
    have turn (storage : OutputStorage) : appendOutput noFaults storage (chunk :: rest) =
        appendOutput noFaults (appendChunk Faults.none storage chunk).1 rest := by
      apply appendOutput_returned
      exact appendChunk_returns ..
    rw [turn, turn, same]

/-- Chunks that follow the files are read after them, where the tail does not take the first of
them. -/
theorem read_unjoined {files : Directory} {tail : Option OutputChunk}
    (written : Written dateParse ⟨files, none⟩ segments groups first last)
    (follows : Follows last rest final) (readable : ∀ chunk ∈ rest, Appendable dateParse chunk)
    (unjoined : Unjoined tail rest) :
    readOutput dateParse (appendOutput noFaults ⟨files, tail⟩ rest).1.files =
      .ok (joined (groups.flatten ++ rest)) := by
  obtain ⟨_, _, _, flat, stored⟩ := appendOutput_written written follows readable
  rw [appendOutput_unjoined unjoined, stored.text, flat]

theorem not_joins {previous : OutputChunk} (apart : previous.endSequence ≠ chunk.startSequence) :
    joins previous chunk = false := by
  simp [joins, apart]

/-- The first of chunks that follow a sequence number. -/
theorem head_follows (follows : Follows last rest final) (head : rest.head? = some chunk) :
    chunk.startSequence = last ∧ chunk.startSequence < chunk.endSequence := by
  cases rest with
  | nil => cases head
  | cons next others =>
    cases head
    obtain ⟨starts, grows, _⟩ := follows
    exact ⟨starts, starts ▸ grows⟩

/-- The tail that the chunk joins. -/
theorem joins_tail {previous : OutputChunk}
    (joined : storage.tail.filter (joins · chunk) = some previous) :
    storage.tail = some previous ∧ previous.endSequence = chunk.startSequence ∧
      bytes previous + bytes chunk ≤ outputSegmentBytes := by
  obtain ⟨held, fits⟩ := Option.filter_eq_some_iff.mp joined
  simp only [joins, Bool.and_eq_true, beq_iff_eq, decide_eq_true_eq] at fits
  exact ⟨held, fits.1, fits.2⟩

/-- The retry of a chunk that is in the tail gives it a file of its own, and leaves the tail. -/
theorem rewritten {files : Directory} {previous : OutputChunk}
    (grows : chunk.startSequence < chunk.endSequence) :
    appendOutput noFaults ⟨files, some (merged previous chunk)⟩ (chunk :: rest) =
      appendOutput noFaults ⟨withChunk files chunk, some (merged previous chunk)⟩ rest := by
  have ends : (merged previous chunk).endSequence = chunk.endSequence := rfl
  have apart : joins (merged previous chunk) chunk = false := not_joins (by omega)
  have turn : appendChunk Faults.none ⟨files, some (merged previous chunk)⟩ chunk =
      (⟨withChunk files chunk, some (merged previous chunk)⟩, true) := by
    rw [appendChunk_eq]
    simp only [Option.filter_some, apart, Bool.false_eq_true, if_false, Option.all_some, ends,
      Nat.lt_irrefl, decide_false, Bool.and_false]
    rfl
  have returned : (appendChunk (noFaults chunk) ⟨files, some (merged previous chunk)⟩ chunk).2 =
      true := appendChunk_returns ..
  rw [appendOutput_returned returned]
  exact congrArg (fun result => appendOutput noFaults result.1 rest) turn

/-- A chunk whose file is stored is read before the others. -/
theorem retry_stored (written : Written dateParse storage segments groups first last)
    (meets : chunk.startSequence = last) (here : Appendable dateParse chunk)
    (later : Follows chunk.endSequence rest final)
    (others : ∀ other ∈ rest, Appendable dateParse other) (failed : faults.returns = false)
    (stored : faults.replaces = true) :
    readOutput dateParse
        (appendOutput noFaults (appendChunk faults storage chunk).1 rest).1.files =
      .ok (joined (groups.flatten ++ chunk :: rest)) := by
  obtain ⟨_, next, nextGroups, flat, kept⟩ := appendChunk_written written meets here
  have forgotten : Written dateParse ⟨(appendChunk Faults.none storage chunk).1.files, none⟩ next
      nextGroups first chunk.endSequence := { kept with tail := .inl rfl }
  have text : joined (groups.flatten ++ chunk :: rest) = joined (nextGroups.flatten ++ rest) := by
    rw [flat, List.append_assoc, List.singleton_append]
  rw [text]
  cases joined : storage.tail.filter (joins · chunk) with
  | some previous =>
    have same : (appendChunk faults storage chunk).1 = (appendChunk Faults.none storage chunk).1 := by
      rw [appendChunk_eq, appendChunk_eq, joined, stored]
      rfl
    obtain ⟨_, _, _, flat', all⟩ := appendOutput_written kept later others
    rw [same, all.text, flat']
  | none =>
    have same : (appendChunk faults storage chunk).1 =
        ⟨(appendChunk Faults.none storage chunk).1.files, storage.tail⟩ := by
      rw [appendChunk_eq, appendChunk_eq, joined, stored, failed]
      rfl
    rw [same]
    apply read_unjoined forgotten later others
    -- the tail ends before the chunk
    intro next follows previous held
    have ends := written.tail_ends held
    obtain ⟨starts, grows⟩ := head_follows later follows
    have before := here.grows
    exact ⟨not_joins (by omega), by omega⟩

/-- A chunk that is not stored is written again, and is read before the others unless the tail that
it was added to takes the next one. -/
theorem retry_unstored (written : Written dateParse storage segments groups first last)
    (meets : chunk.startSequence = last) (here : Appendable dateParse chunk)
    (later : Follows chunk.endSequence rest final)
    (others : ∀ other ∈ rest, Appendable dateParse other) (failed : faults.returns = false)
    (lost : faults.replaces = false)
    (apart : ∀ previous next, storage.tail = some previous → rest.head? = some next →
      outputSegmentBytes < bytes previous + bytes chunk + bytes next) :
    readOutput dateParse
        (appendOutput noFaults (appendChunk faults storage chunk).1 (chunk :: rest)).1.files =
      .ok (joined (groups.flatten ++ chunk :: rest)) := by
  cases taken : storage.tail.filter (joins · chunk) with
  | some previous =>
    obtain ⟨held, ends, fits⟩ := joins_tail taken
    have kept : (appendChunk faults storage chunk).1 =
        ⟨storage.files, some (merged previous chunk)⟩ := by
      rw [appendChunk_eq, taken, lost]
      rfl
    have unfinished : Written dateParse ⟨storage.files, none⟩ segments groups first last :=
      { written with tail := .inl rfl }
    obtain ⟨_, next, nextGroups, flat, stored⟩ := appendChunk_written unfinished meets here
    have again : Written dateParse ⟨withChunk storage.files chunk, none⟩ next nextGroups first
        chunk.endSequence := { stored with tail := .inl rfl }
    have text : joined (groups.flatten ++ chunk :: rest) = joined (nextGroups.flatten ++ rest) := by
      rw [flat, List.append_assoc, List.singleton_append]
    rw [kept, text, rewritten here.grows]
    apply read_unjoined again later others
    intro follower follows tail tail_is
    cases tail_is
    obtain ⟨starts, grows⟩ := head_follows later follows
    have long := apart previous follower held follows
    have size := bytes_merged (written.tail_grows held) ends here.grows
    constructor
    · simp [joins, size, Nat.not_le_of_lt long]
    · exact (show chunk.endSequence < follower.endSequence by omega)
  | none =>
    have same : (appendChunk faults storage chunk).1 = storage := by
      rw [appendChunk_eq, taken, lost, failed]
      rfl
    have follows : Follows last (chunk :: rest) final := ⟨meets, meets ▸ here.grows, later⟩
    obtain ⟨_, _, _, flat, all⟩ := appendOutput_written written follows
      (List.forall_mem_cons.mpr ⟨here, others⟩)
    rw [same, all.text, flat]

/-! ## A chunk in two files -/

/-- A chunk has a file, and is part of an earlier one. -/
structure Overlapped (storage : OutputStorage) (chunk : OutputChunk) : Prop where
  stored : chunkFile chunk ∈ storage.files
  covered : ∃ long, chunkFile long ∈ storage.files ∧ long.startSequence < chunk.startSequence ∧
    chunk.startSequence < long.endSequence
  tail : ∀ previous, storage.tail = some previous → previous.startSequence ≠ chunk.startSequence

theorem mem_withChunk {files : Directory} {written other : OutputChunk} :
    chunkFile other ∈ withChunk files written ↔
      chunkFile other = chunkFile written ∨
        chunkFile other ∈ files ∧ other.startSequence ≠ written.startSequence := by
  have names : (chunkFile other).1 ≠ chunkName written.startSequence ↔
      other.startSequence ≠ written.startSequence :=
    not_congr ⟨SessionLoading.chunkName_injective, congrArg chunkName⟩
  rw [withChunk, List.mem_append, List.mem_filter, List.mem_singleton, bne_iff_ne, names]
  exact or_comm

/-- A write elsewhere leaves the chunk in two files. -/
theorem overlapped_withChunk {files : Directory} {written : OutputChunk}
    (stored : chunkFile chunk ∈ files)
    (covered : ∃ long, chunkFile long ∈ files ∧ long.startSequence < chunk.startSequence ∧
      chunk.startSequence < long.endSequence)
    (elsewhere : written.startSequence ≠ chunk.startSequence)
    (beyond : chunk.startSequence < written.endSequence) :
    Overlapped ⟨withChunk files written, some written⟩ chunk where
  stored := mem_withChunk.mpr (.inr ⟨stored, elsewhere.symm⟩)
  covered := by
    obtain ⟨long, held, before, after⟩ := covered
    by_cases replaced : long.startSequence = written.startSequence
    · exact ⟨written, mem_withChunk.mpr (.inl rfl), replaced ▸ before, beyond⟩
    · exact ⟨long, mem_withChunk.mpr (.inr ⟨held, replaced⟩), before, after⟩
  tail := by
    rintro _ ⟨⟩
    exact elsewhere

/-- A later chunk leaves the chunk in two files. -/
theorem overlapped_append {next : OutputChunk} (overlapped : Overlapped storage chunk)
    (later : chunk.startSequence < next.startSequence)
    (grows : next.startSequence < next.endSequence) :
    Overlapped (appendChunk Faults.none storage next).1 chunk := by
  rw [appendChunk_eq]
  cases taken : storage.tail.filter (joins · next) with
  | some previous =>
    obtain ⟨held, _, _⟩ := joins_tail taken
    exact overlapped_withChunk overlapped.stored overlapped.covered
      (overlapped.tail previous held) (Nat.lt_trans later grows)
  | none =>
    have written := overlapped_withChunk overlapped.stored overlapped.covered
      (Nat.ne_of_gt later) (Nat.lt_trans later grows)
    refine ⟨written.stored, written.covered, ?_⟩
    intro previous held
    simp only at held
    split at held
    · cases held
      exact Nat.ne_of_gt later
    · exact overlapped.tail previous held

theorem overlapped_appends (overlapped : Overlapped storage chunk)
    (later : chunk.startSequence < last) (follows : Follows last rest final) :
    Overlapped (appendOutput noFaults storage rest).1 chunk := by
  induction rest generalizing storage last with
  | nil => exact overlapped
  | cons next others inductionHypothesis =>
    obtain ⟨starts, grows, further⟩ := follows
    have returned : (appendChunk (noFaults next) storage next).2 = true := appendChunk_returns ..
    rw [appendOutput_returned returned]
    exact inductionHypothesis
      (overlapped_append overlapped (by omega) (by omega)) (by omega) further

/-- A file of those that are read is read as one of the chunks. -/
theorem read_member {files : Directory} {chunks : List OutputChunk}
    (held : SessionLoading.Held dateParse files chunks) {file : JsString × Option Js}
    (member : file ∈ files) :
    ∃ chunk ∈ chunks, readOutputChunk dateParse file.1 file.2 = .ok chunk := by
  induction held with
  | nil => cases member
  | cons read _ inductionHypothesis =>
    obtain rfl | later := List.mem_cons.mp member
    · exact ⟨_, List.mem_cons_self, read⟩
    · obtain ⟨chunk, present, known⟩ := inductionHypothesis later
      exact ⟨chunk, List.mem_cons_of_mem _ present, known⟩

/-- A journal with a chunk in two files is not accepted. -/
theorem overlapped_refused (overlapped : Overlapped storage chunk) {chunks : List OutputChunk} :
    readOutputChunks dateParse storage.files ≠ .ok chunks := by
  intro read
  obtain ⟨files, listed, held⟩ := SessionLoading.read_held read
  obtain ⟨start, stop, follows⟩ := SessionLoading.follows_of_read read
  have found {other : OutputChunk} (stored : chunkFile other ∈ storage.files) :
      ∃ known ∈ chunks, known.startSequence = other.startSequence ∧
        known.endSequence = other.endSequence := by
    have kept : chunkFile other ∈ SessionLoading.chunkFiles storage.files :=
      List.mem_filter.mpr ⟨stored, isSuffixOf_chunkName _⟩
    obtain ⟨known, member, content⟩ := read_member held (listed.mem_iff.mpr kept)
    obtain ⟨starts, ends, _⟩ := SessionLoading.read_written content
    exact ⟨known, member, starts, ends⟩
  obtain ⟨long, stored, before, after⟩ := overlapped.covered
  obtain ⟨left, leftMember, leftStarts, leftEnds⟩ := found stored
  obtain ⟨right, rightMember, rightStarts, _⟩ := found overlapped.stored
  have apart := follows_apart follows leftMember rightMember (by omega)
  omega

/-- A chunk that is not stored is written by itself, and once more with the next one, where that
fits into the tail with it. -/
theorem retry_overlaps (written : Written dateParse storage segments groups first last)
    (meets : chunk.startSequence = last) (grows : chunk.startSequence < chunk.endSequence)
    (later : Follows chunk.endSequence rest final) (lost : faults.replaces = false)
    {previous next : OutputChunk} (held : storage.tail = some previous)
    (head : rest.head? = some next)
    (fits : bytes previous + bytes chunk + bytes next ≤ outputSegmentBytes) :
    Overlapped (appendOutput noFaults (appendChunk faults storage chunk).1 (chunk :: rest)).1
      chunk := by
  have ends : previous.endSequence = chunk.startSequence := (written.tail_ends held).trans meets.symm
  have former := written.tail_grows held
  have size := bytes_merged former ends grows
  have taken : storage.tail.filter (joins · chunk) = some previous := by
    have joined : joins previous chunk = true := by
      simp only [joins, ends, beq_self_eq_true, Bool.true_and, decide_eq_true_eq]
      omega
    simp only [held, Option.filter_some, joined, if_true]
  have kept : (appendChunk faults storage chunk).1 =
      ⟨storage.files, some (merged previous chunk)⟩ := by
    rw [appendChunk_eq, taken, lost]
    rfl
  rw [kept, rewritten grows]
  cases rest with
  | nil => cases head
  | cons other others =>
    cases head
    obtain ⟨starts, _, further⟩ := later
    have joined : joins (merged previous chunk) next = true := by
      have meets : (merged previous chunk).endSequence = next.startSequence := starts.symm
      simp only [joins, meets, size, beq_self_eq_true, Bool.true_and, decide_eq_true_eq]
      exact fits
    have turn : (appendChunk (noFaults next)
        ⟨withChunk storage.files chunk, some (merged previous chunk)⟩ next).1 =
          ⟨withChunk (withChunk storage.files chunk) (merged (merged previous chunk) next),
            some (merged (merged previous chunk) next)⟩ := by
      rw [appendChunk_eq]
      simp only [Option.filter_some, joined, if_true]
      rfl
    rw [appendOutput_returned (appendChunk_returns ..), turn]
    have before : (merged (merged previous chunk) next).startSequence < chunk.startSequence :=
      ends ▸ former
    have overlapped : Overlapped
        ⟨withChunk (withChunk storage.files chunk) (merged (merged previous chunk) next),
          some (merged (merged previous chunk) next)⟩ chunk :=
      { stored := mem_withChunk.mpr (.inr ⟨mem_withChunk.mpr (.inl rfl), Nat.ne_of_gt before⟩)
        covered := by
          refine ⟨_, mem_withChunk.mpr (.inl rfl), before, ?_⟩
          exact (show chunk.startSequence < next.endSequence by omega)
        tail := by
          rintro _ ⟨⟩
          exact Nat.ne_of_lt before }
    exact overlapped_appends overlapped (show chunk.startSequence < next.endSequence by omega) further

end Retry

/-- After a run, an append whose write of one chunk throws is safe to retry but where that chunk is
merged twice. -/
theorem retry_safe_iff {dateParse : JsString → Option Int} {origin last final : Nat}
    {appended before rest : List OutputChunk} {chunk : OutputChunk} {storage : OutputStorage}
    {faults : OutputChunk → Faults} (run : Run dateParse origin appended storage)
    (ends : Follows origin appended last) (follows : Follows last (before ++ chunk :: rest) final)
    (readable : ∀ other ∈ before ++ chunk :: rest, Appendable dateParse other)
    (returned : ∀ other ∈ before, (faults other).returns = true)
    (failed : (faults chunk).returns = false) :
    RetrySafe dateParse faults storage before chunk rest ↔
      ¬ MergedTwice faults storage before chunk rest := by
  obtain ⟨dropped, segments, groups, first, reached, rfl, former, written⟩ := run.written
  have same : reached = last := follows_unique
    (follows_append_iff.mpr ⟨first, former, follows_segments written.holds written.follows⟩) ends
  subst same
  obtain ⟨middle, early, meets, _, later⟩ := follows_append_iff.mp follows
  obtain ⟨beforeReadable, fromChunk⟩ := List.forall_mem_append.mp readable
  obtain ⟨here, others⟩ := List.forall_mem_cons.mp fromChunk
  obtain ⟨_, next, nextGroups, flat, stored⟩ := appendOutput_written written early beforeReadable
  have size := tail_bytes written early beforeReadable
  have after : retried faults storage before chunk rest =
      appendOutput noFaults
        (appendChunk (faults chunk) (appendOutput noFaults storage before).1 chunk).1
        (unstored (faults chunk) chunk rest) := by
    have stops : (appendChunk (faults chunk) (appendOutput noFaults storage before).1 chunk).2 =
        false := (appendChunk_returns ..).trans failed
    rw [retried, appendOutput_returns returned, appendOutput_failed stops]
  generalize (appendOutput noFaults storage before).1 = left at *
  constructor
  · rintro ⟨_, _, read⟩ ⟨lost, held, next, tail, head, fits⟩
    rw [← size, Option.map_eq_some_iff] at tail
    obtain ⟨previous, isTail, rfl⟩ := tail
    rw [after, unstored, lost] at read
    obtain ⟨chunks, read, _⟩ := bind_ok read
    exact overlapped_refused (retry_overlaps stored meets here.grows later lost isTail head fits) read
  · intro apart
    refine ⟨_, written.text, ?_⟩
    have whole : joined groups.flatten ++ joined (before ++ chunk :: rest) =
        joined (nextGroups.flatten ++ chunk :: rest) := by
      rw [flat, List.append_assoc, joined_append groups.flatten]
    rw [after, whole, unstored]
    cases kept : (faults chunk).replaces with
    | true => exact retry_stored stored meets here later others failed kept
    | false =>
      apply retry_unstored stored meets here later others failed kept
      intro previous next held head
      rw [← Nat.not_le]
      intro fits
      refine apart ⟨kept, bytes previous, next, ?_, head, fits⟩
      rw [← size, held]
      rfl

/-- The write of one letter throws before its file is renamed. -/
def letterFaults (failing : OutputChunk) : OutputChunk → Faults := fun chunk =>
  if chunk = failing then Faults.only .writeFile else Faults.none

/-- The first chunk of a journal has no tail to be added to. -/
theorem retry_safe_iff_first :
    RetrySafe parseNewYear (letterFaults letterA) ⟨[], none⟩ [] letterA [letterB, letterC] := by
  refine (retry_safe_iff .created rfl letters_follow letters_appendable (by simp) (by decide)).mpr ?_
  rintro ⟨_, _, _, tail, _⟩
  cases tail

/-- The write of the second letter fails, and the retry merges the third one into the tail: the
second letter is in the first file, and in a file of its own. -/
theorem retry_overlaps_letter :
    let storage := (appendOutput noFaults ⟨[], none⟩ [letterA]).1
    Run parseNewYear 0 [letterA] storage ∧
      (appendOutput (letterFaults letterB) storage [letterB, letterC]).2 = false ∧
      readOutput parseNewYear
          (retried (letterFaults letterB) storage [] letterB [letterC]).1.files =
        .error .discontinuous ∧
      ¬ RetrySafe parseNewYear (letterFaults letterB) storage [] letterB [letterC] := by
  have refused : readOutput parseNewYear
      (retried (letterFaults letterB) (appendOutput noFaults ⟨[], none⟩ [letterA]).1 [] letterB
        [letterC]).1.files = .error .discontinuous := by
    rfl
  refine ⟨?_, rfl, refused, ?_⟩
  · refine .appended .created rfl ⟨rfl, by decide, rfl⟩ fun chunk member => ?_
    rw [List.mem_singleton.mp member]
    exact letters_appendable letterA (by simp [letters])
  · rintro ⟨_, _, read⟩
    rw [refused] at read
    cases read

end OpencodePty.AppendRetries
