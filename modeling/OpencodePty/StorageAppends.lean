import OpencodePty.AtomicFiles
import OpencodePty.JournalRemovals

/-!
# The journal as the storage writes it

The storage appends chunks to the journal of a session, and trims it. It keeps a copy of the chunk
that was stored last. A chunk that follows it is merged into its file as long as the two fit into
a segment, and gets a file of its own otherwise. A trim removes the oldest files and forgets the
copy, so that the next chunk begins a new file.
-/

namespace OpencodePty.StorageAppends

open JsValues TextEncodings OutputJournal AtomicFiles
open SessionLoading (chunkJson removeChunks ReadChunk)
open Timestamps (newYear parseNewYear)

/-! ## Appends -/

/-- `OUTPUT_SEGMENT_BYTES` -/
def outputSegmentBytes : Nat := 64 * 1024

/-- What the storage has of one session: its output directory, and its entry of `outputTails`. -/
structure OutputStorage where
  files : Directory
  tail : Option OutputChunk

/-- `chunk.endSequence - chunk.startSequence` -/
def bytes (chunk : OutputChunk) : Nat := chunk.endSequence - chunk.startSequence

/-- The tail with a chunk that follows it. -/
def merged (previous chunk : OutputChunk) : OutputChunk :=
  { previous with
    endSequence := chunk.endSequence
    data := previous.data ++ chunk.data }

/-- A chunk goes into the file of the tail. -/
def joins (previous chunk : OutputChunk) : Bool :=
  previous.endSequence == chunk.startSequence &&
    bytes previous + bytes chunk ≤ outputSegmentBytes

/-- The file of a chunk, by its start. -/
def chunkFile (chunk : OutputChunk) : JsString × Option Js :=
  (chunkName chunk.startSequence, some (chunkJson chunk))

/-- The directory with the file of the chunk. -/
def withChunk (directory : Directory) (chunk : OutputChunk) : Directory :=
  (directory.filter fun file => file.1 != chunkName chunk.startSequence) ++ [chunkFile chunk]

/-- `writeAtomic` of the file of a chunk. -/
def writeChunk (faults : Faults) (directory : Directory) (chunk : OutputChunk) : Directory × Bool :=
  writeAtomicNow faults (withChunk directory chunk) directory

/-- One turn of the loop of `appendOutput`, and whether its write returns. -/
def appendChunk (faults : Faults) (storage : OutputStorage) (chunk : OutputChunk) :
    OutputStorage × Bool :=
  match storage.tail.filter (joins · chunk) with
  | some previous =>
    -- The tail is extended in place, before the file is written.
    let tail := merged previous chunk
    let (files, returned) := writeChunk faults storage.files tail
    (⟨files, some tail⟩, returned)
  | none =>
    let (files, returned) := writeChunk faults storage.files chunk
    let newest := storage.tail.all fun previous => previous.endSequence < chunk.endSequence
    (⟨files, if returned && newest then some chunk else storage.tail⟩, returned)

/-- `appendOutput`, with what goes wrong in the write of each chunk. The chunks after a write that
throws are not reached. -/
def appendOutput (faults : OutputChunk → Faults) :
    OutputStorage → List OutputChunk → OutputStorage × Bool
  | storage, [] => (storage, true)
  | storage, chunk :: rest =>
    match appendChunk (faults chunk) storage chunk with
    | (next, true) => appendOutput faults next rest
    | (next, false) => (next, false)

/-- All file operations succeed. -/
def noFaults : OutputChunk → Faults := fun _ => Faults.none

/-! ## Trims -/

/-- What is left of a journal that was trimmed. -/
structure Retained where
  outputBytes : Nat
  firstRetainedSequence : Nat
  outputTruncated : Bool
  deriving DecidableEq

/-- The loop of `retainedOutput`: the chunks before `first` and those from it on, with
`retainedBytes` and `firstRetainedSequence`. -/
def dropOldest (maxBytes : Nat) :
    Nat → Nat → List OutputChunk → (List OutputChunk × List OutputChunk) × Nat × Nat
  | retainedBytes, firstRetainedSequence, [] => (([], []), retainedBytes, firstRetainedSequence)
  | retainedBytes, firstRetainedSequence, chunk :: rest =>
    if maxBytes < retainedBytes then
      let ((gone, retained), result) :=
        dropOldest maxBytes (retainedBytes - bytes chunk) chunk.endSequence rest
      ((chunk :: gone, retained), result)
    else (([], chunk :: rest), retainedBytes, firstRetainedSequence)

/-- How many bytes several chunks have. -/
def totalBytes (chunks : List OutputChunk) : Nat := (chunks.map bytes).sum

/-- The first sequence number of chunks. -/
def firstSequence (chunks : List OutputChunk) (otherwise : Nat) : Nat :=
  (chunks.head?.map OutputChunk.startSequence).getD otherwise

variable (dateParse : JsString → Option Int)

/-- The longest end of the journal that fits into the limit. -/
def retainedOutput (directory : Directory) (maxBytes : Nat) :
    Except JournalError (List OutputChunk × Retained) := do
  let allChunks ← readOutputChunks dateParse directory
  let ((gone, retained), retainedBytes, firstRetainedSequence) :=
    dropOldest maxBytes (totalBytes allChunks) (firstSequence allChunks 0) allChunks
  return (gone,
    { outputBytes := retainedBytes
      firstRetainedSequence := firstSequence retained firstRetainedSequence
      outputTruncated := !gone.isEmpty })

/-- Remove what does not fit into the limit. -/
def trimOutput (storage : OutputStorage) (maxBytes : Nat) :
    Except JournalError (OutputStorage × Retained) := do
  let (gone, retained) ← retainedOutput dateParse storage.files maxBytes
  return (⟨removeChunks storage.files gone, none⟩, retained)

/-! ## Chunks that can be read back -/

/-- A chunk that the journal accepts from its file. -/
structure Appendable (chunk : OutputChunk) : Prop extends ReadChunk chunk where
  dated : timestamp dateParse (some (.str chunk.timestamp)) = some chunk.timestamp

variable {dateParse}

/-- A chunk that can be read back is not empty. -/
theorem Appendable.grows {chunk : OutputChunk} (appendable : Appendable dateParse chunk) :
    chunk.startSequence < chunk.endSequence := by
  have length := appendable.length
  have filled := List.length_pos_iff.mpr appendable.data
  have longer := length_le_byteLength chunk.data
  omega

/-- The file of a chunk is read back as the chunk. -/
theorem readOutputChunk_chunkFile {chunk : OutputChunk} (appendable : Appendable dateParse chunk) :
    readOutputChunk dateParse (chunkFile chunk).1 (chunkFile chunk).2 = .ok chunk := by
  have ends := appendable.safe
  have grows := appendable.grows
  have starts : chunk.startSequence ≤ maxSafeInteger := by omega
  have small : chunk.startSequence < 10 ^ 20 := by
    have limit : maxSafeInteger < 10 ^ 20 := by decide
    omega
  rw [readOutputChunk_ok]
  refine ⟨isChunkName_chunkName small, chunkJson chunk, rfl, rfl, nonnegativeInteger_int starts,
    nonnegativeInteger_int ends, appendable.dated, ?_, appendable.data, appendable.length, rfl⟩
  have valid := appendable.valid
  change text (some (.str chunk.data)) = some chunk.data
  rw [text, if_pos valid]

/-- Two texts without lone surrogates make one. -/
theorem validText_append {first second : JsString} (valid : validText first = true)
    (follows : validText second = true) : validText (first ++ second) = true := by
  induction first using validText.induct with
  | case1 => exact follows
  | case2 unit =>
    have plain : (isHighSurrogate unit || isLowSurrogate unit) = false := by
      simpa only [validText, Bool.not_eq_true'] using valid
    obtain ⟨notHigh, notLow⟩ := Bool.or_eq_false_iff.mp plain
    cases second with
    | nil => exact valid
    | cons next rest =>
      simp only [List.singleton_append, validText, notHigh, notLow, Bool.false_and, Bool.or_self,
        Bool.false_eq_true, if_false, Bool.not_false, Bool.true_and]
      exact follows
  | case3 high low rest pair inductionHypothesis =>
    have tail : validText rest = true := by simpa only [validText, pair, if_true] using valid
    simpa only [List.cons_append, validText, pair, if_true] using inductionHypothesis tail
  | case4 high low rest single inductionHypothesis =>
    simp only [validText, single, Bool.false_eq_true, if_false, Bool.and_eq_true] at valid
    simp only [List.cons_append, validText, single, Bool.false_eq_true, if_false, valid.1,
      Bool.true_and]
    exact inductionHypothesis valid.2

/-- A chunk that is merged into the one before it is read back with it. -/
theorem Appendable.merged {previous chunk : OutputChunk} (former : Appendable dateParse previous)
    (appendable : Appendable dateParse chunk)
    (meets : previous.endSequence = chunk.startSequence) :
    Appendable dateParse (merged previous chunk) where
  data := List.append_ne_nil_of_left_ne_nil former.data chunk.data
  valid := validText_append former.valid appendable.valid
  length := by
    have first := former.length
    have second := appendable.length
    change chunk.endSequence = previous.startSequence + byteLength (previous.data ++ chunk.data)
    rw [byteLength_append former.valid]
    omega
  safe := appendable.safe
  dated := former.dated

/-! ## Chunks that follow one another -/

/-- Two runs of chunks follow each other where the second begins at the end of the first. -/
theorem follows_append_iff {first last : Nat} {before after : List OutputChunk} :
    Follows first (before ++ after) last ↔
      ∃ middle, Follows first before middle ∧ Follows middle after last := by
  induction before generalizing first with
  | nil =>
    constructor
    · exact fun follows => ⟨first, rfl, follows⟩
    · rintro ⟨_, rfl, follows⟩
      exact follows
  | cons chunk rest inductionHypothesis =>
    simp only [List.cons_append, Follows, inductionHypothesis]
    constructor
    · rintro ⟨start, grows, middle, former, later⟩
      exact ⟨middle, ⟨start, grows, former⟩, later⟩
    · rintro ⟨middle, ⟨start, grows, former⟩, later⟩
      exact ⟨start, grows, middle, former, later⟩

/-- Chunks that follow one another lie between the first sequence number and the last. -/
theorem follows_within {first last : Nat} {chunks : List OutputChunk}
    (follows : Follows first chunks last) :
    first ≤ last ∧ ∀ chunk ∈ chunks, chunk.startSequence < last := by
  induction chunks generalizing first with
  | nil => exact ⟨Nat.le_of_eq follows, by simp⟩
  | cons chunk rest inductionHypothesis =>
    obtain ⟨start, grows, later⟩ := follows
    obtain ⟨ordered, within⟩ := inductionHypothesis later
    refine ⟨by omega, ?_⟩
    rw [List.forall_mem_cons]
    exact ⟨by omega, within⟩

/-- Of two chunks the one that starts first ends before the other. -/
theorem follows_apart {first last : Nat} {chunks : List OutputChunk}
    (follows : Follows first chunks last) {left right : OutputChunk} (leftMember : left ∈ chunks)
    (rightMember : right ∈ chunks) (before : left.startSequence < right.startSequence) :
    left.endSequence ≤ right.startSequence := by
  induction chunks generalizing first with
  | nil => cases leftMember
  | cons chunk rest inductionHypothesis =>
    obtain ⟨start, grows, later⟩ := follows
    have after := later.starts.1
    obtain rfl | leftLater := List.mem_cons.mp leftMember
    · obtain rfl | rightLater := List.mem_cons.mp rightMember
      · exact absurd before (Nat.lt_irrefl _)
      · exact after right rightLater
    · obtain rfl | rightLater := List.mem_cons.mp rightMember
      · have beyond := after left leftLater
        omega
      · exact inductionHypothesis later leftLater rightLater

/-! ## Segments -/

/-- A file of the journal holds one chunk, or chunks that were merged and fit into a segment. -/
inductive Segment : OutputChunk → List OutputChunk → Prop
  | single {chunk : OutputChunk} (grows : chunk.startSequence < chunk.endSequence) :
    Segment chunk [chunk]
  | merged {previous chunk : OutputChunk} {chunks : List OutputChunk}
    (former : Segment previous chunks) (meets : previous.endSequence = chunk.startSequence)
    (grows : chunk.startSequence < chunk.endSequence)
    (fits : bytes previous + bytes chunk ≤ outputSegmentBytes) :
    Segment (merged previous chunk) (chunks ++ [chunk])

/-- A segment is not empty. -/
theorem Segment.grows {segment : OutputChunk} {chunks : List OutputChunk}
    (holds : Segment segment chunks) : segment.startSequence < segment.endSequence := by
  induction holds with
  | single grows => exact grows
  | merged former meets grows fits inductionHypothesis =>
    simp only [StorageAppends.merged]
    omega

/-- The texts of chunks are joined from the left to the right. -/
theorem joined_append (before after : List OutputChunk) :
    joined (before ++ after) = joined before ++ joined after := by
  simp [joined]

/-- The data of a segment is that of its chunks. -/
theorem Segment.joined {segment : OutputChunk} {chunks : List OutputChunk}
    (holds : Segment segment chunks) : segment.data = joined chunks := by
  induction holds with
  | single => simp [OutputJournal.joined]
  | merged former meets grows fits inductionHypothesis =>
    simp [StorageAppends.merged, inductionHypothesis, OutputJournal.joined]

/-- The chunks of a segment follow one another. -/
theorem Segment.follows {segment : OutputChunk} {chunks : List OutputChunk}
    (holds : Segment segment chunks) :
    Follows segment.startSequence chunks segment.endSequence := by
  induction holds with
  | single grows => exact ⟨rfl, grows, rfl⟩
  | @merged previous chunk chunks former meets grows fits inductionHypothesis =>
    apply follows_append_iff.mpr
    exact ⟨previous.endSequence, inductionHypothesis, meets.symm, meets ▸ grows, rfl⟩

/-- A segment is one chunk, or is no longer than allowed. -/
theorem Segment.bounded {segment : OutputChunk} {chunks : List OutputChunk}
    (holds : Segment segment chunks) :
    chunks = [segment] ∨ bytes segment ≤ outputSegmentBytes := by
  cases holds with
  | single => exact .inl rfl
  | merged former meets grows fits =>
    have before := former.grows
    simp only [bytes, StorageAppends.merged] at fits ⊢
    exact .inr (by omega)

section Segments

variable {segments : List OutputChunk} {groups : List (List OutputChunk)}

/-- Segments that are split are those of a split of their chunks. -/
theorem segments_split {gone kept : List OutputChunk}
    (holds : List.Forall₂ Segment (gone ++ kept) groups) :
    ∃ goneGroups keptGroups, groups = goneGroups ++ keptGroups ∧
      List.Forall₂ Segment gone goneGroups ∧ List.Forall₂ Segment kept keptGroups :=
  ⟨groups.take gone.length, groups.drop gone.length, (List.take_append_drop _ _).symm,
    (List.forall₂_take_append groups gone kept holds.flip).flip,
    (List.forall₂_drop_append groups gone kept holds.flip).flip⟩

/-- Segments have the text of their chunks. -/
theorem joined_segments (holds : List.Forall₂ Segment segments groups) :
    joined segments = joined groups.flatten := by
  induction holds with
  | nil => rfl
  | cons holds _ inductionHypothesis =>
    simp only [joined, List.map_cons, List.flatten_cons, List.map_append, List.flatten_append] at *
    rw [inductionHypothesis, holds.joined]
    rfl

/-- Where segments follow one another their chunks do. -/
theorem follows_segments (holds : List.Forall₂ Segment segments groups) {first last : Nat}
    (follows : Follows first segments last) : Follows first groups.flatten last := by
  induction holds generalizing first with
  | nil => exact follows
  | cons holds _ inductionHypothesis =>
    obtain ⟨rfl, _, later⟩ := follows
    exact follows_append_iff.mpr ⟨_, holds.follows, inductionHypothesis later⟩

/-- A segment is a chunk of its own or fits into the size of segments. -/
theorem bounded_segments (holds : List.Forall₂ Segment segments groups) :
    ∀ segment ∈ segments, segment ∈ groups.flatten ∨ bytes segment ≤ outputSegmentBytes := by
  induction holds with
  | nil => simp
  | @cons segment chunks _ _ holds _ inductionHypothesis =>
    rw [List.forall_mem_cons]
    constructor
    · obtain single | short := holds.bounded
      · exact .inl (by simp [single])
      · exact .inr short
    · intro other member
      obtain within | short := inductionHypothesis other member
      · exact .inl (by simp [within])
      · exact .inr short

end Segments

/-! ## Writes -/

/-- What a turn of `appendOutput` leaves. -/
theorem appendChunk_eq (faults : Faults) (storage : OutputStorage) (chunk : OutputChunk) :
    appendChunk faults storage chunk =
      match storage.tail.filter (joins · chunk) with
      | some previous =>
        (⟨if faults.replaces then withChunk storage.files (merged previous chunk)
          else storage.files, some (merged previous chunk)⟩, faults.returns)
      | none =>
        (⟨if faults.replaces then withChunk storage.files chunk else storage.files,
          if faults.returns &&
              storage.tail.all fun previous => previous.endSequence < chunk.endSequence then
            some chunk
          else storage.tail⟩, faults.returns) := by
  unfold appendChunk writeChunk
  cases storage.tail.filter (joins · chunk) <;> simp only [writeAtomicNow_eq]

/-- An append returns where its write does. -/
theorem appendChunk_returns (faults : Faults) (storage : OutputStorage) (chunk : OutputChunk) :
    (appendChunk faults storage chunk).2 = faults.returns := by
  rw [appendChunk_eq]
  cases storage.tail.filter (joins · chunk) <;> rfl

/-- The loop goes on after a write that returns. -/
theorem appendOutput_returned {faults : OutputChunk → Faults} {storage : OutputStorage}
    {chunk : OutputChunk} {rest : List OutputChunk}
    (returned : (appendChunk (faults chunk) storage chunk).2 = true) :
    appendOutput faults storage (chunk :: rest) =
      appendOutput faults (appendChunk (faults chunk) storage chunk).1 rest := by
  rw [appendOutput]
  cases turn : appendChunk (faults chunk) storage chunk with
  | mk next result =>
    rw [turn] at returned
    cases returned
    rfl

/-- The loop ends at a write that throws. -/
theorem appendOutput_failed {faults : OutputChunk → Faults} {storage : OutputStorage}
    {chunk : OutputChunk} {rest : List OutputChunk}
    (failed : (appendChunk (faults chunk) storage chunk).2 = false) :
    appendOutput faults storage (chunk :: rest) =
      ((appendChunk (faults chunk) storage chunk).1, false) := by
  rw [appendOutput]
  cases turn : appendChunk (faults chunk) storage chunk with
  | mk next result =>
    rw [turn] at failed
    cases failed
    rfl

/-- The file of a chunk takes the place of the one that has its name. -/
theorem withChunk_perm {files : Directory} {before replaced : List OutputChunk}
    {chunk : OutputChunk} (listed : files.Perm ((before ++ replaced).map chunkFile))
    (others : ∀ other ∈ before, other.startSequence ≠ chunk.startSequence)
    (named : ∀ other ∈ replaced, other.startSequence = chunk.startSequence) :
    (withChunk files chunk).Perm ((before ++ [chunk]).map chunkFile) := by
  have kept : (before.map chunkFile).filter
      (fun file => file.1 != chunkName chunk.startSequence) = before.map chunkFile := by
    rw [List.filter_eq_self]
    intro file member
    obtain ⟨other, present, rfl⟩ := List.mem_map.mp member
    have apart : chunkName other.startSequence ≠ chunkName chunk.startSequence := fun same =>
      others other present (SessionLoading.chunkName_injective same)
    simpa [chunkFile] using apart
  have gone : (replaced.map chunkFile).filter
      (fun file => file.1 != chunkName chunk.startSequence) = [] := by
    rw [List.filter_eq_nil_iff]
    intro file member
    obtain ⟨other, present, rfl⟩ := List.mem_map.mp member
    simp [chunkFile, named other present]
  have left := listed.filter fun file => file.1 != chunkName chunk.startSequence
  rw [List.map_append, List.filter_append, kept, gone, List.append_nil] at left
  rw [List.map_append]
  exact left.append_right _

/-- The journal of the storage from its first sequence number to the last: the files are those of
the segments, and the tail, where there is one, is the last of them. -/
structure Written (dateParse : JsString → Option Int) (storage : OutputStorage)
    (segments : List OutputChunk) (groups : List (List OutputChunk)) (first last : Nat) : Prop where
  listed : storage.files.Perm (segments.map chunkFile)
  holds : List.Forall₂ Segment segments groups
  readable : ∀ segment ∈ segments, Appendable dateParse segment
  follows : Follows first segments last
  tail : storage.tail = none ∨ storage.tail = segments.getLast?

section Journal

variable {storage : OutputStorage} {segments : List OutputChunk}
  {groups : List (List OutputChunk)} {first last : Nat}

/-- The tail ends where the journal does. -/
theorem Written.tail_ends (written : Written dateParse storage segments groups first last)
    {previous : OutputChunk} (held : storage.tail = some previous) :
    previous.endSequence = last := by
  obtain none | same := written.tail
  · rw [none] at held
    cases held
  · obtain ⟨before, rfl⟩ := List.getLast?_eq_some_iff.mp (same.symm.trans held)
    obtain ⟨middle, _, _, _, ends⟩ := follows_append_iff.mp written.follows
    exact ends

/-- The tail is not empty. -/
theorem Written.tail_grows (written : Written dateParse storage segments groups first last)
    {previous : OutputChunk} (held : storage.tail = some previous) :
    previous.startSequence < previous.endSequence := by
  obtain none | same := written.tail
  · rw [none] at held
    cases held
  · have member := List.mem_of_getLast? (same.symm.trans held)
    exact (written.readable previous member).grows

/-- The segments are read. -/
theorem Written.read (written : Written dateParse storage segments groups first last) :
    readOutputChunks dateParse storage.files = .ok segments := by
  refine readOutputChunks_ok dateParse ?_ written.follows written.listed
  rw [List.forall₂_map_left_iff, List.forall₂_same]
  exact fun segment member => readOutputChunk_chunkFile (written.readable segment member)

/-- The text of the journal is that of the chunks. -/
theorem Written.text (written : Written dateParse storage segments groups first last) :
    readOutput dateParse storage.files = .ok (joined groups.flatten) := by
  rw [readOutput, written.read, ← joined_segments written.holds]
  rfl

/-- A segment that is written in the place of its beginning, or after the others. -/
theorem Written.write {before replaced : List OutputChunk}
    {formerGroups replacedGroups : List (List OutputChunk)} {chunk : OutputChunk}
    {chunks : List OutputChunk} {middle : Nat}
    (written : Written dateParse storage (before ++ replaced) (formerGroups ++ replacedGroups)
      first last)
    (former : List.Forall₂ Segment before formerGroups)
    (start : Follows first before middle) (begins : chunk.startSequence = middle)
    (named : ∀ other ∈ replaced, other.startSequence = middle)
    (segment : Segment chunk chunks) (appendable : Appendable dateParse chunk)
    {tail : Option OutputChunk} (kept : tail = none ∨ tail = some chunk) :
    Written dateParse ⟨withChunk storage.files chunk, tail⟩ (before ++ [chunk])
      (formerGroups ++ [chunks]) first chunk.endSequence where
  listed := by
    apply withChunk_perm written.listed
    · intro other member
      have below := (follows_within start).2 other member
      omega
    · exact fun other member => (named other member).trans begins.symm
  holds := List.rel_append former (.cons segment .nil)
  readable := by
    intro other member
    obtain early | same := List.mem_append.mp member
    · exact written.readable other (List.mem_append_left _ early)
    · cases List.mem_singleton.mp same
      exact appendable
  follows := follows_append_iff.mpr ⟨middle, start, begins, begins ▸ segment.grows, rfl⟩
  tail := by
    rw [List.getLast?_concat]
    exact kept

/-- A chunk that follows the journal is appended to it: its write returns, and the segments hold it
after the others. -/
theorem appendChunk_written (written : Written dateParse storage segments groups first last)
    {chunk : OutputChunk} (meets : chunk.startSequence = last)
    (appendable : Appendable dateParse chunk) :
    (appendChunk Faults.none storage chunk).2 = true ∧
      ∃ next nextGroups, nextGroups.flatten = groups.flatten ++ [chunk] ∧
        Written dateParse (appendChunk Faults.none storage chunk).1 next nextGroups first
          chunk.endSequence := by
  rw [appendChunk_eq]
  cases joined : storage.tail.filter (joins · chunk) with
  | some previous =>
    obtain ⟨held, fits⟩ := Option.filter_eq_some_iff.mp joined
    simp only [joins, Bool.and_eq_true, beq_iff_eq, decide_eq_true_eq] at fits
    obtain ⟨adjacent, fits⟩ := fits
    -- the tail is the last segment
    have final : segments.getLast? = some previous := by
      obtain none | same := written.tail
      · rw [none] at held
        cases held
      · exact same.symm.trans held
    obtain ⟨before, rfl⟩ := List.getLast?_eq_some_iff.mp final
    obtain ⟨formerGroups, lastGroups, rfl, former, single⟩ := segments_split written.holds
    obtain ⟨middle, start, begins, _, _⟩ := follows_append_iff.mp written.follows
    cases single with
    | @cons _ chunks _ _ segment none =>
      cases none
      refine ⟨rfl, before ++ [merged previous chunk], formerGroups ++ [chunks ++ [chunk]], ?_, ?_⟩
      · simp
      · have place : (merged previous chunk).startSequence = middle := begins
        refine written.write former start place ?_ (segment.merged adjacent appendable.grows fits)
          ((written.readable previous (by simp)).merged appendable adjacent) (.inr rfl)
        intro other member
        rw [List.mem_singleton.mp member]
        exact begins
  | none =>
    refine ⟨rfl, segments ++ [chunk], groups ++ [[chunk]], by simp, ?_⟩
    have whole : Written dateParse storage (segments ++ []) (groups ++ []) first last := by
      rw [List.append_nil, List.append_nil]
      exact written
    refine whole.write written.holds written.follows meets (by simp) (.single appendable.grows)
      appendable ?_
    have newest : storage.tail.all (fun previous => previous.endSequence < chunk.endSequence) =
        true := by
      rw [Option.all_eq_true]
      intro previous held
      have ends := written.tail_ends held
      have grows := appendable.grows
      simp only [decide_eq_true_eq]
      omega
    rw [newest]
    exact .inr rfl

/-- An append of chunks that follow the journal returns, and keeps all of them. -/
theorem appendOutput_written {chunks : List OutputChunk} {final : Nat}
    (written : Written dateParse storage segments groups first last)
    (follows : Follows last chunks final) (readable : ∀ chunk ∈ chunks, Appendable dateParse chunk) :
    (appendOutput noFaults storage chunks).2 = true ∧
      ∃ next nextGroups, nextGroups.flatten = groups.flatten ++ chunks ∧
        Written dateParse (appendOutput noFaults storage chunks).1 next nextGroups first final := by
  induction chunks generalizing storage segments groups last with
  | nil =>
    cases follows
    exact ⟨rfl, segments, groups, by simp, written⟩
  | cons chunk rest inductionHypothesis =>
    obtain ⟨meets, _, later⟩ := follows
    obtain ⟨here, others⟩ := List.forall_mem_cons.mp readable
    obtain ⟨returned, next, nextGroups, flat, stored⟩ := appendChunk_written written meets here
    obtain ⟨rest_returned, more, moreGroups, flat', all⟩ := inductionHypothesis stored later others
    rw [appendOutput_returned returned]
    refine ⟨rest_returned, more, moreGroups, ?_, all⟩
    rw [flat', flat, List.append_assoc, List.singleton_append]

/-! ## The oldest files -/

/-- The bytes of chunks add up. -/
theorem totalBytes_cons (chunk : OutputChunk) (chunks : List OutputChunk) :
    totalBytes (chunk :: chunks) = bytes chunk + totalBytes chunks := rfl

/-- The last sequence number of chunks. -/
def lastSequence (chunks : List OutputChunk) (otherwise : Nat) : Nat :=
  (chunks.getLast?.map OutputChunk.endSequence).getD otherwise

/-- The last sequence is that of the last chunk. -/
theorem lastSequence_cons (chunk : OutputChunk) (chunks : List OutputChunk) (otherwise : Nat) :
    lastSequence (chunk :: chunks) otherwise = lastSequence chunks chunk.endSequence := by
  cases chunks with
  | nil => rfl
  | cons next rest => rfl

/-- What is left of chunks starts where they do, or where those that are gone end. -/
theorem firstSequence_follows {first last : Nat} {gone left : List OutputChunk}
    (filled : gone ++ left ≠ []) (follows : Follows first (gone ++ left) last) (otherwise : Nat) :
    Follows (firstSequence left (lastSequence gone otherwise)) left last := by
  induction gone generalizing first otherwise with
  | nil =>
    cases left with
    | nil => exact absurd rfl filled
    | cons chunk rest =>
      obtain ⟨rfl, grows, later⟩ := follows
      exact ⟨rfl, grows, later⟩
  | cons chunk rest inductionHypothesis =>
    rw [lastSequence_cons]
    cases remaining : rest ++ left with
    | nil =>
      obtain ⟨rfl, rfl⟩ := List.append_eq_nil_iff.mp remaining
      exact follows.2.2
    | cons next others =>
      exact inductionHypothesis (by simp [remaining]) follows.2.2 chunk.endSequence

/-- Chunks are dropped up to the longest end that is not too long. -/
theorem dropOldest_spec (maxBytes start : Nat) (chunks : List OutputChunk) :
    ∃ gone kept, chunks = gone ++ kept ∧
      dropOldest maxBytes (totalBytes chunks) start chunks =
        ((gone, kept), totalBytes kept, lastSequence gone start) ∧
      totalBytes kept ≤ maxBytes ∧
      ∀ before suffix, chunks = before ++ suffix → totalBytes suffix ≤ maxBytes →
        suffix <:+ kept := by
  induction chunks generalizing start with
  | nil =>
    refine ⟨[], [], rfl, rfl, Nat.zero_le _, ?_⟩
    intro before suffix split _
    exact (List.append_eq_nil_iff.mp split.symm).2 ▸ List.suffix_refl []
  | cons chunk rest inductionHypothesis =>
    unfold dropOldest
    by_cases long : maxBytes < totalBytes (chunk :: rest)
    · obtain ⟨gone, kept, rfl, dropped, short, longest⟩ := inductionHypothesis chunk.endSequence
      refine ⟨chunk :: gone, kept, rfl, ?_, short, ?_⟩
      · have remaining : totalBytes (chunk :: (gone ++ kept)) - bytes chunk =
            totalBytes (gone ++ kept) := by
          rw [totalBytes_cons, Nat.add_sub_cancel_left]
        rw [if_pos long, remaining, dropped, lastSequence_cons]
      · intro before suffix split fits
        cases before with
        | nil =>
          rw [List.nil_append] at split
          rw [← split] at fits
          exact absurd fits (Nat.not_le_of_lt long)
        | cons first others => exact longest others suffix (List.cons.inj split).2 fits
    · refine ⟨[], chunk :: rest, rfl, ?_, Nat.le_of_not_lt long, ?_⟩
      · rw [if_neg long]
        rfl
      · intro before suffix split _
        exact ⟨before, split.symm⟩

/-- Without the files of its first chunks the directory holds those of the others. -/
theorem removeChunks_perm {files : Directory} {gone kept : List OutputChunk}
    (listed : files.Perm ((gone ++ kept).map chunkFile))
    (follows : Follows first (gone ++ kept) last) :
    (removeChunks files gone).Perm (kept.map chunkFile) := by
  have removedFiles : removeChunks (gone.map chunkFile) gone = [] := by
    rw [removeChunks, List.filter_eq_nil_iff]
    intro file member
    obtain ⟨chunk, present, rfl⟩ := List.mem_map.mp member
    have found : (gone.any fun other =>
        (chunkFile chunk).1 == chunkName other.startSequence) = true :=
      List.any_eq_true.mpr ⟨chunk, present, beq_self_eq_true _⟩
    rw [found]
    decide
  have keptFiles : removeChunks (kept.map chunkFile) gone = kept.map chunkFile := by
    rw [removeChunks, List.filter_eq_self]
    intro file member
    obtain ⟨chunk, present, rfl⟩ := List.mem_map.mp member
    rw [Bool.not_eq_true', List.any_eq_false]
    intro other early same
    have before := (List.pairwise_append.mp follows.starts.2).2.2 other early chunk present
    have equal := SessionLoading.chunkName_injective (beq_iff_eq.mp same)
    omega
  have left := listed.filter fun file => !gone.any fun chunk =>
    file.1 == chunkName chunk.startSequence
  rw [List.map_append, List.filter_append] at left
  change (removeChunks files gone).Perm
    (removeChunks (gone.map chunkFile) gone ++ removeChunks (kept.map chunkFile) gone) at left
  rwa [removedFiles, keptFiles, List.nil_append] at left

/-- A trim keeps the longest end of the segments that is not too long. -/
theorem trimOutput_written (written : Written dateParse storage segments groups first last)
    (maxBytes : Nat) :
    ∃ gone kept goneGroups keptGroups middle,
      segments = gone ++ kept ∧ groups = goneGroups ++ keptGroups ∧
      trimOutput dateParse storage maxBytes =
        .ok (⟨removeChunks storage.files gone, none⟩,
          ⟨totalBytes kept, firstSequence kept (lastSequence gone (firstSequence segments 0)),
            !gone.isEmpty⟩) ∧
      totalBytes kept ≤ maxBytes ∧
      (∀ before suffix, segments = before ++ suffix → totalBytes suffix ≤ maxBytes →
        suffix <:+ kept) ∧
      Follows first goneGroups.flatten middle ∧
      Written dateParse ⟨removeChunks storage.files gone, none⟩ kept keptGroups middle last := by
  obtain ⟨gone, kept, rfl, dropped, short, longest⟩ :=
    dropOldest_spec maxBytes (firstSequence segments 0) segments
  obtain ⟨goneGroups, keptGroups, rfl, goneHolds, keptHolds⟩ := segments_split written.holds
  obtain ⟨middle, former, later⟩ := follows_append_iff.mp written.follows
  refine ⟨gone, kept, goneGroups, keptGroups, middle, rfl, rfl, ?_, short, longest,
    follows_segments goneHolds former, ?_⟩
  · simp only [trimOutput, retainedOutput, written.read, bind, Except.bind, pure, Except.pure,
      dropped]
  · exact
      { listed := removeChunks_perm written.listed written.follows
        holds := keptHolds
        readable := fun segment member =>
          written.readable segment (List.mem_append_right gone member)
        follows := later
        tail := .inl rfl }

end Journal

/-! ## Runs -/

/-- The storage after some appends of chunks that follow one another from the origin on, with trims
between them. A storage that is opened anew has no tail. -/
inductive Run (dateParse : JsString → Option Int) (origin : Nat) :
    List OutputChunk → OutputStorage → Prop
  | created : Run dateParse origin [] ⟨[], none⟩
  | appended {appended chunks : List OutputChunk} {storage : OutputStorage} {last final : Nat}
    (run : Run dateParse origin appended storage) (ends : Follows origin appended last)
    (follows : Follows last chunks final) (readable : ∀ chunk ∈ chunks, Appendable dateParse chunk) :
    Run dateParse origin (appended ++ chunks) (appendOutput noFaults storage chunks).1
  | trimmed {appended : List OutputChunk} {storage next : OutputStorage} {maxBytes : Nat}
    {retained : Retained} (run : Run dateParse origin appended storage)
    (trims : trimOutput dateParse storage maxBytes = .ok (next, retained)) :
    Run dateParse origin appended next
  | reopened {appended : List OutputChunk} {storage : OutputStorage}
    (run : Run dateParse origin appended storage) :
    Run dateParse origin appended ⟨storage.files, none⟩

/-- Chunks have one last sequence number. -/
theorem follows_unique {first last other : Nat} {chunks : List OutputChunk}
    (follows : Follows first chunks last) (again : Follows first chunks other) : last = other := by
  induction chunks generalizing first with
  | nil => exact follows.symm.trans again
  | cons chunk rest inductionHypothesis => exact inductionHypothesis follows.2.2 again.2.2

/-- After a run, the journal is that of the chunks that no trim has dropped. -/
theorem Run.written {origin : Nat} {appended : List OutputChunk} {storage : OutputStorage}
    (run : Run dateParse origin appended storage) :
    ∃ dropped segments groups first last, appended = dropped ++ groups.flatten ∧
      Follows origin dropped first ∧
      Written dateParse storage segments groups first last := by
  induction run with
  | created =>
    exact ⟨[], [], [], origin, origin, rfl, rfl,
      { listed := .nil
        holds := .nil
        readable := by simp
        follows := rfl
        tail := .inl rfl }⟩
  | @appended _ chunks _ last final run ends follows readable inductionHypothesis =>
    obtain ⟨dropped, segments, groups, first, reached, rfl, former, written⟩ := inductionHypothesis
    have same : reached = last := follows_unique
      (follows_append_iff.mpr ⟨first, former, follows_segments written.holds written.follows⟩) ends
    subst same
    obtain ⟨_, next, nextGroups, flat, stored⟩ := appendOutput_written written follows readable
    refine ⟨dropped, next, nextGroups, first, final, ?_, former, stored⟩
    rw [flat, List.append_assoc]
  | @trimmed _ _ next maxBytes _ run trims inductionHypothesis =>
    obtain ⟨dropped, segments, groups, first, last, rfl, former, written⟩ := inductionHypothesis
    obtain ⟨gone, kept, goneGroups, keptGroups, middle, rfl, rfl, trimmed, _, _, follows, stored⟩ :=
      trimOutput_written written maxBytes
    have left : next = ⟨removeChunks _ gone, none⟩ :=
      (Prod.mk.inj (Except.ok.inj (trims.symm.trans trimmed))).1
    subst left
    refine ⟨dropped ++ goneGroups.flatten, kept, keptGroups, middle, last, ?_,
      follows_append_iff.mpr ⟨first, former, follows⟩, stored⟩
    rw [List.flatten_append, List.append_assoc]
  | reopened run inductionHypothesis =>
    obtain ⟨dropped, segments, groups, first, last, same, former, written⟩ := inductionHypothesis
    exact ⟨dropped, segments, groups, first, last, same, former,
      { written with tail := .inl rfl }⟩

/-- In every run the journal reads as the appended chunks from its first sequence number on. Its
segments follow one another, and each is one of the chunks or fits into a segment. An append adds
its chunks to the text. A trim keeps the longest end of the segments that is not too long, and
returns its length and the sequence number that it starts from. It returns zero for the start of an
empty journal. -/
theorem journal_exact {origin : Nat} {appended : List OutputChunk} {storage : OutputStorage}
    (run : Run dateParse origin appended storage) :
    ∃ dropped kept segments first last, appended = dropped ++ kept ∧
      Follows origin dropped first ∧ Follows first kept last ∧
      readOutputChunks dateParse storage.files = .ok segments ∧
      Follows first segments last ∧
      readOutput dateParse storage.files = .ok (joined kept) ∧
      (∀ segment ∈ segments, segment ∈ kept ∨ bytes segment ≤ outputSegmentBytes) ∧
      (storage.tail = none ∨ storage.tail = segments.getLast?) ∧
      (∀ chunks final, Follows last chunks final → (∀ chunk ∈ chunks, Appendable dateParse chunk) →
        (appendOutput noFaults storage chunks).2 = true ∧
          readOutput dateParse (appendOutput noFaults storage chunks).1.files =
            .ok (joined (kept ++ chunks))) ∧
      ∀ maxBytes, ∃ gone left next retained, segments = gone ++ left ∧
        trimOutput dateParse storage maxBytes = .ok (next, retained) ∧
        readOutputChunks dateParse next.files = .ok left ∧
        totalBytes left ≤ maxBytes ∧
        (∀ before suffix, segments = before ++ suffix → totalBytes suffix ≤ maxBytes →
          suffix <:+ left) ∧
        retained.outputBytes = totalBytes left ∧
        (segments ≠ [] → Follows retained.firstRetainedSequence left last) ∧
        (segments = [] → retained.firstRetainedSequence = 0) ∧
        (retained.outputTruncated = true ↔ gone ≠ []) := by
  obtain ⟨dropped, segments, groups, first, last, same, former, written⟩ := run.written
  refine ⟨dropped, groups.flatten, segments, first, last, same, former,
    follows_segments written.holds written.follows, written.read, written.follows, written.text,
    bounded_segments written.holds, written.tail, ?_, ?_⟩
  · intro chunks final follows readable
    obtain ⟨returned, next, nextGroups, flat, stored⟩ :=
      appendOutput_written written follows readable
    refine ⟨returned, ?_⟩
    rw [stored.text, flat]
  · intro maxBytes
    obtain ⟨gone, left, _, _, _, split, _, trimmed, short, longest, _, stored⟩ :=
      trimOutput_written written maxBytes
    refine ⟨gone, left, _, _, split, trimmed, stored.read, short, longest, rfl, ?_, ?_, by simp⟩
    · intro filled
      subst split
      exact firstSequence_follows filled written.follows _
    · intro empty
      obtain ⟨rfl, rfl⟩ := List.append_eq_nil_iff.mp (split.symm.trans empty)
      rw [empty]
      rfl

/-- The first letter. -/
def letterA : OutputChunk := ⟨0, 1, newYear, js "a"⟩

/-- The second letter. -/
def letterB : OutputChunk := ⟨1, 2, newYear, js "b"⟩

/-- The third letter. -/
def letterC : OutputChunk := ⟨2, 3, newYear, js "c"⟩

/-- Three letters, each a chunk of its own. -/
def letters : List OutputChunk := [letterA, letterB, letterC]

/-- Each of them can be read back. -/
theorem letters_appendable : ∀ chunk ∈ letters, Appendable parseNewYear chunk := by
  simp only [letters, List.forall_mem_cons, List.not_mem_nil, IsEmpty.forall_iff, implies_true,
    and_true]
  exact ⟨⟨⟨by decide, by decide, by decide, by decide⟩, by decide⟩,
    ⟨⟨by decide, by decide, by decide, by decide⟩, by decide⟩,
    ⟨⟨by decide, by decide, by decide, by decide⟩, by decide⟩⟩

/-- They follow one another. -/
theorem letters_follow : Follows 0 letters 3 :=
  ⟨rfl, by decide, rfl, by decide, rfl, by decide, rfl⟩

/-- The letters are read back. -/
theorem journal_exact_letters :
    ∃ dropped kept, letters = dropped ++ kept ∧
      readOutput parseNewYear (appendOutput noFaults ⟨[], none⟩ letters).1.files =
        .ok (joined kept) := by
  have run : Run parseNewYear 0 letters (appendOutput noFaults ⟨[], none⟩ letters).1 :=
    .appended .created rfl letters_follow letters_appendable
  obtain ⟨dropped, kept, _, _, _, same, _, _, _, _, read, _⟩ := journal_exact run
  exact ⟨dropped, kept, same, read⟩

/-- A high surrogate alone, which takes up three bytes in a file. -/
def halfCharacter : OutputChunk := ⟨0, 3, newYear, [0xd800]⟩

/-- Such a chunk is appended without an error, and then the journal can neither be read nor
trimmed. -/
theorem half_character_unread :
    let appended := appendOutput noFaults ⟨[], none⟩ [halfCharacter]
    Follows 0 [halfCharacter] 3 ∧ byteLength halfCharacter.data = bytes halfCharacter ∧
      appended.2 = true ∧ readOutput parseNewYear appended.1.files = .error .sequence ∧
      ∀ maxBytes, trimOutput parseNewYear appended.1 maxBytes = .error .sequence := by
  have unread : readOutputChunks parseNewYear
      (appendOutput noFaults ⟨[], none⟩ [halfCharacter]).1.files = .error .sequence := by
    rfl
  refine ⟨⟨rfl, by decide, rfl⟩, rfl, rfl, rfl, fun maxBytes => ?_⟩
  rw [trimOutput, retainedOutput, unread]
  rfl

end OpencodePty.StorageAppends
