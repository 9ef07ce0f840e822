import OpencodePty.JournalRemovals
import OpencodePty.SessionIsolation

/-!
# The journals of migrated records

A migration imports an old output file into an empty journal and removes the files of the chunks
that the record gives up. Each of these writes is atomic, and the daemon may stop between any two
of them. A load that finds the journal of an interrupted one retains the same chunks, with one
exception: where all chunks of an old journal are to be removed, a stop after the last removal
leaves an empty journal, into which the next load imports the old output file.

The journal of a record that was reconciled with it is left as it is by every later load.
-/

namespace OpencodePty.SessionLoading

open OpencodePty.JsValues OpencodePty.Lifecycle OpencodePty.RecordChecks OpencodePty.OutputJournal
  OpencodePty.SessionCodec OpencodePty.TextEncodings

variable (dateParse : JsString → Option Int)

/-! ## What is imported and given up -/

section Journal

variable (record : SessionRecord) (importing : Bool) (files : SessionFiles)

/-- The record gives up the chunks before its first retained byte. -/
def discards : Bool :=
  isInt (record.read "outputJournalVersion") 2 && truthy (record.read "outputTruncated")

/-- The chunks that are given up. -/
def goneChunks (chunks : List OutputChunk) : List OutputChunk :=
  chunks.filter fun chunk => chunk.endSequence ≤ number (record.read "firstRetainedSequence")

/-- The chunks that are retained. -/
def keptChunks (chunks : List OutputChunk) : List OutputChunk :=
  chunks.filter fun chunk =>
    !decide (chunk.endSequence ≤ number (record.read "firstRetainedSequence"))

/-- There is an old output to import. -/
def imports : Bool := importing && files.legacyOutput.any (!·.isEmpty)

/-- The write of `importOutput`. -/
def importWrites : List Directory :=
  match readOutputChunks dateParse files.output, files.legacyOutput with
  | .ok [], some output =>
    if imports importing files then [appendOutput files.output (legacyChunk record output)] else []
  | _, _ => []

/-- The writes of `retainOutput`. -/
def retainWrites : List Directory :=
  importWrites dateParse record importing files ++
    match importOutput dateParse record importing files with
    | .error _ => []
    | .ok (directory, chunks) =>
      if cursorMatches record chunks && discards record then
        discardWrites directory (goneChunks record chunks)
      else []

end Journal

variable {dateParse : JsString → Option Int} {record : SessionRecord} {importing : Bool}
  {files : SessionFiles} {directory : Directory} {chunks : List OutputChunk}

theorem appendOutput_twice (directory : Directory) (chunk : OutputChunk) :
    appendOutput (appendOutput directory chunk) chunk = appendOutput directory chunk := by
  simp [appendOutput, List.filter_append, List.filter_filter]

/-- What an import leads to, by whether there is something to import. -/
theorem importOutput_cases :
    (importWrites dateParse record importing files = [] ∧
      importOutput dateParse record importing files =
        (readOutputChunks dateParse files.output).map fun chunks => (files.output, chunks)) ∨
    ∃ output, files.legacyOutput = some output ∧ imports importing files = true ∧
      readOutputChunks dateParse files.output = .ok [] ∧
      importWrites dateParse record importing files =
        [appendOutput files.output (legacyChunk record output)] ∧
      importOutput dateParse record importing files =
        (readOutputChunks dateParse (appendOutput files.output (legacyChunk record output))).map
          fun chunks => (appendOutput files.output (legacyChunk record output), chunks) := by
  unfold importWrites importOutput
  cases read : readOutputChunks dateParse files.output with
  | error error => exact .inl ⟨rfl, rfl⟩
  | ok chunks =>
    cases chunks with
    | cons chunk rest =>
      left
      simp [bind, Except.bind, Except.map, pure, Except.pure]
    | nil =>
      cases stored : files.legacyOutput with
      | none =>
        left
        cases importing <;> exact ⟨rfl, rfl⟩
      | some output =>
        cases output with
        | nil =>
          left
          cases importing <;> simp [imports, stored, bind, Except.bind, Except.map, pure,
            Except.pure]
        | cons character rest =>
          cases importing with
          | false =>
            left
            exact ⟨rfl, rfl⟩
          | true =>
            right
            refine ⟨_, rfl, by simp [imports, stored], rfl, by simp [imports, stored], ?_⟩
            simp only [List.isEmpty_nil, Bool.and_self, Bool.not_true, Bool.false_eq_true,
              if_false, bind, Except.bind]
            cases readOutputChunks dateParse
              (appendOutput files.output (legacyChunk record (character :: rest))) <;> rfl

theorem cursorMatches_rest {gone kept : List OutputChunk}
    (matched : cursorMatches record (gone ++ kept) = true) : cursorMatches record kept = true := by
  cases kept with
  | nil => simp [cursorMatches]
  | cons chunk rest =>
    have ends : (gone ++ chunk :: rest).getLast? = (chunk :: rest).getLast? := by
      rw [List.getLast?_append, List.getLast?_cons]
      rfl
    rw [← matched, cursorMatches, cursorMatches, ends]

/-- Chunks of which some are given up are those, and the ones that are kept. -/
theorem gone_kept (read : readOutputChunks dateParse directory = .ok chunks) :
    goneChunks record chunks ++ keptChunks record chunks = chunks := by
  obtain ⟨first, last, follows⟩ := follows_of_read read
  exact retained_split follows (number (record.read "firstRetainedSequence"))

/-- When some chunks are gone, the others are still to be given up. -/
theorem gone_rest {taken rest : List OutputChunk}
    (gone : goneChunks record chunks = taken ++ rest) :
    goneChunks record (rest ++ keptChunks record chunks) = rest ∧
      keptChunks record (rest ++ keptChunks record chunks) = keptChunks record chunks := by
  have early : ∀ chunk ∈ rest,
      chunk.endSequence ≤ number (record.read "firstRetainedSequence") := by
    intro chunk member
    have listed : chunk ∈ goneChunks record chunks := by
      rw [gone]
      exact List.mem_append_right taken member
    exact of_decide_eq_true (List.mem_filter.mp listed).2
  constructor
  · simp only [goneChunks, keptChunks, List.filter_append, List.filter_filter]
    rw [List.filter_eq_self.mpr fun chunk member => decide_eq_true (early chunk member)]
    simp
  · simp only [keptChunks, List.filter_append, List.filter_filter, Bool.and_self]
    rw [List.filter_eq_nil_iff.mpr fun chunk member => by simp [early chunk member]]
    rfl

/-- What a load retains, by the chunks that it has after the import. -/
theorem retainOutput_imported
    (imported : importOutput dateParse record importing files = .ok (directory, chunks)) :
    retainOutput dateParse record importing files =
      if cursorMatches record chunks = true then
        if discards record = true then
          .ok (removeChunks directory (goneChunks record chunks), keptChunks record chunks)
        else .ok (directory, chunks)
      else .error .cursor := by
  have read := importOutput_ok imported
  have split := @gone_kept dateParse record _ _ read
  have left : readOutputChunks dateParse (removeChunks directory (goneChunks record chunks)) =
      .ok (keptChunks record chunks) := by
    apply read_rest
    rw [split]
    exact read
  simp only [retainOutput, imported, bind, Except.bind]
  cases matched : cursorMatches record chunks with
  | false => simp [throw, throwThe, MonadExceptOf.throw]
  | true =>
    have again : cursorMatches record (keptChunks record chunks) = true := by
      apply cursorMatches_rest
      rw [split]
      exact matched
    have discarded : discardOutputBefore dateParse directory
        (number (record.read "firstRetainedSequence")) =
          .ok (removeChunks directory (goneChunks record chunks)) := by
      simp only [discardOutputBefore, read, bind, Except.bind]
      rfl
    cases drop : discards record with
    | false =>
      rw [discards] at drop
      simp [drop, pure, Except.pure]
    | true =>
      rw [discards] at drop
      simp [drop, discarded, left, again, pure, Except.pure]

/-- A load that was interrupted after some removals left enough of the journal: what was imported
is not imported again. -/
def Keeps (dateParse : JsString → Option Int) (record : SessionRecord) (importing : Bool)
    (files : SessionFiles) : Prop :=
  ∀ directory chunks, importOutput dateParse record importing files = .ok (directory, chunks) →
    imports importing files = true → discards record = true → keptChunks record chunks ≠ []

/-- The next load after an interrupted import has the chunk already. -/
theorem import_again {between : Directory}
    (written : between ∈ importWrites dateParse record importing files) :
    importOutput dateParse record importing { files with output := between } =
      importOutput dateParse record importing files := by
  obtain ⟨none, _⟩ | ⟨output, stored, nonempty, _, writes, imported⟩ :=
    @importOutput_cases dateParse record importing files
  · rw [none] at written
    cases written
  · rw [writes, List.mem_singleton] at written
    rw [imported, written]
    obtain ⟨_, again⟩ | ⟨other, same, _, read, _, again⟩ := @importOutput_cases dateParse record
      importing { files with output := appendOutput files.output (legacyChunk record output) }
    · exact again
    · have equal : other = output := by
        have both : some other = some output := same.symm.trans stored
        exact Option.some.inj both
      rw [again, equal, appendOutput_twice]

/-- The journal after some removals is imported as it is. -/
theorem import_rest {between : Directory} {rest : List OutputChunk}
    (read : readOutputChunks dateParse between = .ok rest)
    (filled : imports importing files = true → rest ≠ []) :
    importOutput dateParse record importing { files with output := between } =
      .ok (between, rest) := by
  obtain ⟨_, again⟩ | ⟨_, _, needed, empty, _⟩ := @importOutput_cases dateParse record importing
    { files with output := between }
  · rw [again]
    change (readOutputChunks dateParse between).map _ = _
    rw [read]
    rfl
  · have nothing : rest = [] := by
      have both : Except.ok (ε := JournalError) rest = .ok [] := read.symm.trans empty
      cases both
      rfl
    exact absurd nothing (filled needed)

/-- A load that follows on an interrupted one retains the same chunks. -/
theorem retain_again {between : Directory} (keeps : Keeps dateParse record importing files)
    (written : between ∈ retainWrites dateParse record importing files) :
    retainOutput dateParse record importing { files with output := between } =
        retainOutput dateParse record importing files ∧
      Keeps dateParse record importing { files with output := between } := by
  obtain early | late := List.mem_append.mp written
  · have same := import_again early
    constructor
    · simp only [retainOutput, same]
    · intro directory chunks imported
      exact keeps directory chunks (same ▸ imported)
  · cases imported : importOutput dateParse record importing files with
    | error error =>
      rw [imported] at late
      cases late
    | ok result =>
      obtain ⟨directory, chunks⟩ := result
      rw [imported] at late
      simp only at late
      split at late
      next dropped =>
        obtain ⟨matched, drop⟩ := Bool.and_eq_true_iff.mp dropped
        obtain ⟨taken, rest, gone, rfl⟩ := mem_discardWrites late
        have read := importOutput_ok imported
        have split := @gone_kept dateParse record _ _ read
        obtain ⟨left, kept⟩ := gone_rest gone
        rw [gone, List.append_assoc] at split
        have later : readOutputChunks dateParse (removeChunks directory taken) =
            .ok (rest ++ keptChunks record chunks) := by
          apply read_rest
          rw [split]
          exact read
        have again := @import_rest dateParse record importing files _ _ later (by
          intro needed
          have filled := keeps directory chunks imported needed drop
          simp [filled])
        have matchedAgain : cursorMatches record (rest ++ keptChunks record chunks) = true := by
          apply cursorMatches_rest
          rw [split]
          exact matched
        constructor
        · rw [retainOutput_imported again, retainOutput_imported imported, if_pos matchedAgain,
            if_pos matched, if_pos drop, if_pos drop, left, kept, removeChunks_append, gone]
        · intro other others found needed _
          rw [again] at found
          cases found
          rw [kept]
          exact keeps directory chunks imported needed drop
      next => cases late

/-! ## The imported chunk -/

/-- The chunk that is read of a file is the one that was written to it, up to its time. -/
theorem read_written {chunk found : OutputChunk}
    (read : readOutputChunk dateParse (chunkName chunk.startSequence) (some (chunkJson chunk)) =
      .ok found) :
    found.startSequence = chunk.startSequence ∧ found.endSequence = chunk.endSequence ∧
      found.data = chunk.data := by
  obtain ⟨_, value, stored, _, starts, ends, _, data, _⟩ := (readOutputChunk_ok dateParse).mp read
  cases stored
  have number {written read : Nat}
      (same : nonnegativeInteger (some (Js.int written)) = some read) : read = written := by
    have equal := (nonnegativeInteger_safe same).1
    simp only [Js.int, Option.some.injEq, Js.num.injEq, JsNumber.integer.injEq] at equal
    omega
  refine ⟨number starts, number ends, ?_⟩
  have texts : text (some (Js.str chunk.data)) = some found.data := data
  simp only [text] at texts
  split at texts
  · exact (Option.some.inj texts).symm
  · cases texts

/-- What is given up by a load is gone from its journal. -/
theorem retained_gone
    (retained : retainOutput dateParse record importing files = .ok (directory, chunks))
    (drop : discards record = true) : goneChunks record chunks = [] := by
  obtain ⟨⟨before, read⟩, imported, _⟩ := bind_ok retained
  rw [retainOutput_imported imported, if_pos drop] at retained
  split at retained
  · cases retained
    simp only [goneChunks, keptChunks, List.filter_filter]
    rw [List.filter_eq_nil_iff]
    intro chunk _
    simp
  · cases retained

/-! ## The journal of a migrated record -/

/-- The same changes once more leave the metadata as they are. -/
theorem update_twice (metadata : Metadata) (changes : List (String × Js)) :
    Metadata.update (Metadata.update metadata changes) changes =
      Metadata.update metadata changes := by
  have listed : ∀ entry ∈ changes, (changes.lookup entry.1).isNone = false := by
    intro entry member
    rw [Option.isNone_eq_false_iff, Option.isSome_iff_ne_none, ne_eq, List.lookup_eq_none_iff]
    intro absent
    simpa using absent entry member
  have dropped : changes.filter (fun entry => !reservedFields.contains entry.1 &&
      ((changes.lookup entry.1).isNone && !reservedFields.contains entry.1)) = [] := by
    rw [List.filter_eq_nil_iff]
    intro entry member
    simp [listed entry member]
  simp only [Metadata.update, Metadata.among, override, Metadata.mk.injEq, List.filter_append,
    List.filter_filter]
  rw [dropped, List.nil_append]
  congr 2
  funext entry
  cases reservedFields.contains entry.1 <;> cases (changes.lookup entry.1).isNone <;> rfl

/-- A record has the metadata of another one that was reconciled with its journal. -/
structure Reconciled (dateParse : JsString → Option Int) (reconciled record : SessionRecord)
    (chunks : List OutputChunk) : Prop where
  metadata : reconciled.metadata = (reconcileSession record chunks).metadata
  fits : ∃ id, Compatible dateParse record.read id
  follows : contiguous chunks = true
  known : ∀ chunk ∈ chunks, ReadChunk chunk
  cursor : cursorMatches record chunks = true
  retained : discards record = true → goneChunks record chunks = []

section Reconciled

variable {reconciled : SessionRecord}

theorem Reconciled.read (rest : Reconciled dateParse reconciled record chunks) {key : String}
    (other : key ∉ lifecycleFields) :
    reconciled.read key = (reconcileSession record chunks).read key := by
  rw [read_metadata _ other, read_metadata _ other, rest.metadata]

theorem Reconciled.version (rest : Reconciled dateParse reconciled record chunks) :
    record.read "outputJournalVersion" = some (.int 2) := by
  obtain ⟨id, fits⟩ := rest.fits
  have output := fits.output
  simp only [validOutputFields, required, Bool.and_eq_true] at output
  exact isInt_iff.mp output.2

theorem Reconciled.mode (rest : Reconciled dateParse reconciled record chunks) :
    reconciled.read "mode" = record.read "mode" := by
  rw [rest.read (by decide)]
  exact read_reconciled_other chunks (by decide)

/-- The cursor of a terminal session is kept. -/
theorem Reconciled.next (rest : Reconciled dateParse reconciled record chunks) :
    reconciled.read "nextSequence" = record.read "nextSequence" := by
  rw [rest.read (by decide)]
  cases exec : isText (record.read "mode") "exec" with
  | true => rw [read_reconciled_exec exec rest.version]
  | false =>
    obtain ⟨id, fits⟩ := rest.fits
    have output := fits.output
    simp only [validOutputFields, required, Bool.and_eq_true] at output
    obtain ⟨stored, _⟩ := validNonnegativeInteger_number output.1.1.1.1.1.1.1
    obtain ⟨same, _⟩ := journal_extent rest.follows rest.known
      ((cursorMatches_terminal exec).mp rest.cursor)
    rw [stored, ← same]
    exact read_reconciled exec rfl (by decide)

/-- A record that was reconciled with its journal is left as it is by that. -/
theorem Reconciled.again (rest : Reconciled dateParse reconciled record chunks) :
    reconcileSession reconciled chunks = reconciled := by
  have fields : journalFields reconciled chunks = journalFields record chunks := by
    have first : firstRetained reconciled chunks = firstRetained record chunks := by
      simp only [firstRetained, rest.next]
    have next : nextByte reconciled chunks = nextByte record chunks := by
      simp only [nextByte, first, rest.next]
    simp only [journalFields, next, first]
  have metadata := rest.metadata
  simp only [reconcileSession] at metadata ⊢
  rw [rest.mode, fields]
  have twice : Metadata.update reconciled.metadata
      (if isText (record.read "mode") "exec" = true then [("outputJournalVersion", .int 2)]
      else journalFields record chunks) = reconciled.metadata := by
    rw [metadata, update_twice]
  rw [twice]

theorem Reconciled.cursorAgain (rest : Reconciled dateParse reconciled record chunks) :
    cursorMatches reconciled chunks = true := by
  rw [cursorMatches, rest.mode, rest.next]
  exact rest.cursor

theorem Reconciled.compatible (rest : Reconciled dateParse reconciled record chunks) :
    ∃ id, Compatible dateParse (reconcileSession record chunks).read id := by
  obtain ⟨id, fits⟩ := rest.fits
  exact ⟨id, reconciled_compatible fits rest.follows rest.known rest.cursor⟩

/-- Nothing of its journal is given up any more. -/
theorem Reconciled.keeps (rest : Reconciled dateParse reconciled record chunks)
    (drop : discards reconciled = true) : goneChunks reconciled chunks = [] := by
  cases exec : isText (record.read "mode") "exec" with
  | true =>
    have reads := @read_reconciled_exec record chunks exec rest.version
    have first : reconciled.read "firstRetainedSequence" = record.read "firstRetainedSequence" := by
      rw [rest.read (by decide), reads]
    have truncated : reconciled.read "outputTruncated" = record.read "outputTruncated" := by
      rw [rest.read (by decide), reads]
    have version : reconciled.read "outputJournalVersion" = record.read "outputJournalVersion" := by
      rw [rest.read (by decide), reads]
    rw [discards, truncated, version] at drop
    rw [goneChunks, first]
    exact rest.retained drop
  | false =>
    have first : reconciled.read "firstRetainedSequence" =
        some (.int (firstRetained record chunks)) := by
      rw [rest.read (by decide)]
      exact read_reconciled exec rfl (by decide)
    cases starts : chunks.head? with
    | none =>
      rw [List.head?_eq_none_iff.mp starts]
      rfl
    | some chunk =>
      have start : firstRetained record chunks = chunk.startSequence := by
        rw [firstRetained, starts]
        rfl
      have after := chunk_after_first rest.follows rest.known starts
      have safe : chunk.startSequence ≤ maxSafeInteger := by
        have member := List.mem_of_mem_head? starts
        have known := rest.known chunk member
        have bound := known.safe
        have later := after chunk member
        omega
      rw [goneChunks, first, start, number_int safe, List.filter_eq_nil_iff]
      intro other member
      have later := after other member
      simp only [decide_eq_true_eq]
      omega

/-- The journal of such a record is retained as it is. -/
theorem Reconciled.retain (rest : Reconciled dateParse reconciled record chunks)
    (read : readOutputChunks dateParse files.output = .ok chunks) :
    retainOutput dateParse reconciled false files = .ok (files.output, chunks) := by
  have imported : importOutput dateParse reconciled false files = .ok (files.output, chunks) := by
    simp only [importOutput, read, bind, Except.bind]
    rfl
  have split := @gone_kept dateParse reconciled _ _ read
  rw [retainOutput_imported imported, if_pos rest.cursorAgain]
  split
  next drop =>
    have nothing := rest.keeps drop
    rw [nothing, List.nil_append] at split
    rw [nothing, split, removeChunks_nil]
  next => rfl

/-- No file of its journal is written or removed. -/
theorem Reconciled.untouched (rest : Reconciled dateParse reconciled record chunks)
    (read : readOutputChunks dateParse files.output = .ok chunks) :
    retainWrites dateParse reconciled false files = [] := by
  have imported : importOutput dateParse reconciled false files = .ok (files.output, chunks) := by
    simp only [importOutput, read, bind, Except.bind]
    rfl
  have unimported : importWrites dateParse reconciled false files = [] := by
    unfold importWrites imports
    split <;> simp
  rw [retainWrites, unimported, imported]
  simp only [List.nil_append]
  split
  next dropped =>
    rw [rest.keeps (Bool.and_eq_true_iff.mp dropped).2]
    rfl
  next => rfl

/-- Numbers and booleans are the same as themselves. -/
theorem same_self {value : Option Js}
    (plain : validNonnegativeInteger value = true ∨ isBoolean value = true ∨ isInt value 2 = true) :
    same value value = true := by
  obtain number | boolean | version := plain
  · rw [(validNonnegativeInteger_number number).1]
    simp [same, Js.int]
  · cases value with
    | none => cases boolean
    | some present =>
      cases present with
      | bool held => simp [same]
      | _ => cases boolean
  · rw [isInt_iff.mp version]
    rfl

/-- Its metadata need not be written. -/
theorem Reconciled.described (rest : Reconciled dateParse reconciled record chunks) :
    sameJournalState reconciled reconciled = true := by
  obtain ⟨id, fits⟩ := rest.compatible
  have output := fits.output
  simp only [validOutputFields, required, Bool.and_eq_true] at output
  obtain ⟨⟨⟨⟨⟨⟨⟨next, first⟩, bytes⟩, _⟩, truncated⟩, lines⟩, partialLine⟩, version⟩ := output
  rw [sameJournalState, List.all_eq_true]
  intro key listed
  have other : key ∉ lifecycleFields := by
    revert key
    decide
  rw [rest.read other]
  apply same_self
  simp only [journalFieldNames, List.mem_cons, List.not_mem_nil, or_false] at listed
  obtain rfl | rfl | rfl | rfl | rfl | rfl | rfl := listed
  · exact .inl next
  · exact .inl first
  · exact .inl bytes
  · exact .inr (.inl truncated)
  · exact .inl lines
  · exact .inr (.inl partialLine)
  · exact .inr (.inr version)

end Reconciled

end OpencodePty.SessionLoading
