import OpencodePty.RecordRewrites
import OpencodePty.SessionLoading

/-!
# Records reconciled with their journals

The chunks that the daemon reads follow one another and hold as many bytes as their sequence
numbers say. A record whose cursor is the end of the journal therefore stays acceptable when
its description of the journal is replaced by what the chunks say.
-/

namespace OpencodePty.SessionLoading

open OpencodePty.JsValues OpencodePty.Lifecycle OpencodePty.RecordChecks OpencodePty.OutputJournal
  OpencodePty.SessionCodec OpencodePty.TextEncodings

/-! ## The chunks of a journal -/

/-- What the daemon knows of a chunk that it read. -/
structure ReadChunk (chunk : OutputChunk) : Prop where
  data : chunk.data ≠ []
  valid : JsValues.validText chunk.data = true
  length : chunk.endSequence = chunk.startSequence + byteLength chunk.data
  safe : chunk.endSequence ≤ maxSafeInteger

theorem nonnegativeInteger_safe {value : Option Js} {number : Nat}
    (read : nonnegativeInteger value = some number) :
    value = some (.int number) ∧ number ≤ maxSafeInteger := by
  unfold nonnegativeInteger at read
  split at read
  next integer =>
    simp only [JsNumber.isSafeInteger, Bool.and_eq_true, decide_eq_true_eq] at read
    split at read
    next safe =>
      obtain ⟨small, positive⟩ := safe
      cases read
      constructor
      · simp only [Js.int, Int.toNat_of_nonneg positive]
      · omega
    next => cases read
  next => cases read

theorem text_valid {value : Option Js} {content : JsString} (read : text value = some content) :
    JsValues.validText content = true := by
  unfold text at read
  split at read
  next stored =>
    split at read
    next valid =>
      cases read
      exact valid
    next => cases read
  next => cases read

theorem readOutputChunk_read {dateParse : JsString → Option Int} {entry : JsString}
    {content : Option Js} {chunk : OutputChunk}
    (read : readOutputChunk dateParse entry content = .ok chunk) : ReadChunk chunk := by
  obtain ⟨_, value, _, _, _, ends, _, data, filled, length, _⟩ :=
    (readOutputChunk_ok dateParse).mp read
  exact ⟨filled, text_valid data, length, (nonnegativeInteger_safe ends).2⟩

/-- Every file that is read gives a chunk. -/
theorem mapM_chunks {dateParse : JsString → Option Int} {listing : Directory}
    {chunks : List OutputChunk}
    (read : listing.mapM (fun file => readOutputChunk dateParse file.1 file.2) = .ok chunks) :
    ∀ chunk ∈ chunks, ReadChunk chunk := by
  induction listing generalizing chunks with
  | nil =>
    cases read
    simp
  | cons file rest inductionHypothesis =>
    rw [List.mapM_cons] at read
    cases first : readOutputChunk dateParse file.1 file.2 with
    | error error =>
      rw [first] at read
      cases read
    | ok chunk =>
      cases others : rest.mapM (fun file => readOutputChunk dateParse file.1 file.2) with
      | error error =>
        rw [first, others] at read
        cases read
      | ok remaining =>
        rw [first, others] at read
        cases read
        simp only [List.forall_mem_cons]
        exact ⟨readOutputChunk_read first, inductionHypothesis others⟩

/-- The chunks that are read follow one another. -/
theorem readOutputChunks_read {dateParse : JsString → Option Int} {directory : Directory}
    {chunks : List OutputChunk} (read : readOutputChunks dateParse directory = .ok chunks) :
    contiguous chunks = true ∧ ∀ chunk ∈ chunks, ReadChunk chunk := by
  simp only [readOutputChunks, bind, Except.bind] at read
  split at read
  · cases read
  next listed found =>
    split at read
    next follows =>
      cases read
      refine ⟨follows, ?_⟩
      intro chunk member
      exact mapM_chunks found chunk ((List.mem_insertionSort _).mp member)
    next => cases read

/-- The text of chunks that follow one another is as long as their sequence numbers say. -/
theorem byteLength_joined {first last : OutputChunk} {chunks : List OutputChunk}
    (follows : contiguous chunks = true) (read : ∀ chunk ∈ chunks, ReadChunk chunk)
    (starts : chunks.head? = some first) (ends : chunks.getLast? = some last) :
    first.startSequence + byteLength (joined chunks) = last.endSequence := by
  induction chunks generalizing first with
  | nil => cases starts
  | cons chunk rest inductionHypothesis =>
    cases starts
    have known := read chunk (by simp)
    have length := known.length
    have split : byteLength (joined (chunk :: rest)) =
        byteLength chunk.data + byteLength (joined rest) := by
      simp only [joined, List.map_cons, List.flatten_cons]
      exact byteLength_append known.valid _
    cases rest with
    | nil =>
      have only : chunk = last := by simpa using ends
      have nothing : byteLength (joined []) = 0 := rfl
      rw [← only]
      omega
    | cons next others =>
      simp only [contiguous, Bool.and_eq_true, beq_iff_eq] at follows
      obtain ⟨meets, later⟩ := follows
      have tail := inductionHypothesis later (fun chunk member => read chunk (by simp [member])) rfl
        (by simpa using ends)
      omega

/-! ## Updated metadata -/

theorem lookup_filter {fields : List (String × Js)} {keep : String → Bool} {key : String}
    (kept : keep key = true) :
    (fields.filter fun entry => keep entry.1).lookup key = fields.lookup key := by
  induction fields with
  | nil => rfl
  | cons entry rest inductionHypothesis =>
    obtain ⟨name, value⟩ := entry
    by_cases found : key = name
    · subst found
      simp [kept]
    · have differs : (key == name) = false := by simpa using found
      rw [List.filter_cons]
      split
      · simp only [List.lookup_cons, differs, inductionHypothesis]
      · simp only [List.lookup_cons, differs, inductionHypothesis]

/-- A changed field has its new value, and every other field the one that it had. -/
theorem lookup_update (metadata : Metadata) (changes : List (String × Js)) {key : String}
    (free : key ∉ reservedFields) :
    (Metadata.update metadata changes).fields.lookup key =
      (changes.lookup key <|> metadata.fields.lookup key) := by
  have among : (Metadata.update metadata changes).fields.lookup key =
      (override metadata.fields changes).lookup key :=
    @lookup_filter _ (fun name => !reservedFields.contains name) key (by simpa using free)
  rw [among, override, List.lookup_append]
  cases changed : changes.lookup key with
  | some value => rfl
  | none =>
    have others := @lookup_filter metadata.fields (fun name => (changes.lookup name).isNone) key
      (by simp [changed])
    simpa using others

/-- A record with changed metadata. -/
def changed (record : SessionRecord) (changes : List (String × Js)) : SessionRecord :=
  { record with metadata := Metadata.update record.metadata changes }

/-- What is not changed is read as before. -/
theorem read_other {record : SessionRecord} {changes : List (String × Js)} {key : String}
    (other : changes.lookup key = none) : (changed record changes).read key = record.read key := by
  by_cases flat : key ∈ lifecycleFields
  · rw [read_flat _ flat, read_flat _ flat]
    rfl
  · rw [read_metadata _ flat, read_metadata _ flat]
    by_cases reserved : key ∈ reservedFields
    · rw [lookup_reserved _ reserved, lookup_reserved _ reserved]
    · simp only [changed]
      rw [lookup_update _ _ reserved, other]
      rfl

theorem read_changed {record : SessionRecord} {changes : List (String × Js)} {key : String}
    {value : Js} (listed : changes.lookup key = some value) (free : key ∉ reservedFields) :
    (changed record changes).read key = some value := by
  have other : key ∉ lifecycleFields := fun member =>
    free (List.mem_cons_of_mem _ (List.mem_cons_of_mem _ member))
  rw [read_metadata _ other]
  simp only [changed]
  rw [lookup_update _ _ free, listed]
  rfl

/-- The journal of a terminal session is described by what its chunks say. -/
theorem reconcile_terminal {record : SessionRecord} (chunks : List OutputChunk)
    (terminal : isText (record.read "mode") "exec" = false) :
    reconcileSession record chunks = changed record (journalFields record chunks) := by
  simp only [reconcileSession, changed, terminal, Bool.false_eq_true, if_false]

theorem read_reconciled {record : SessionRecord} {chunks : List OutputChunk}
    (terminal : isText (record.read "mode") "exec" = false) {key : String} {value : Js}
    (listed : (journalFields record chunks).lookup key = some value)
    (free : key ∉ reservedFields) :
    (reconcileSession record chunks).read key = some value := by
  rw [reconcile_terminal chunks terminal]
  exact read_changed listed free

theorem reconcile_exec {record : SessionRecord} (chunks : List OutputChunk)
    (exec : isText (record.read "mode") "exec" = true) :
    reconcileSession record chunks = changed record [("outputJournalVersion", .int 2)] := by
  simp only [reconcileSession, changed, exec, if_true]

/-- The journal of an exec session is not described. -/
theorem read_reconciled_exec {record : SessionRecord} {chunks : List OutputChunk}
    (exec : isText (record.read "mode") "exec" = true)
    (version : record.read "outputJournalVersion" = some (.int 2)) :
    (reconcileSession record chunks).read = record.read := by
  rw [reconcile_exec chunks exec]
  funext key
  by_cases described : key = "outputJournalVersion"
  · subst described
    rw [version, read_changed rfl (by decide)]
  · apply read_other
    have differs : (key == "outputJournalVersion") = false := by simpa using described
    simp [List.lookup_cons, differs]

/-- What does not describe the journal is read as before. -/
theorem read_reconciled_other {record : SessionRecord} (chunks : List OutputChunk) {key : String}
    (kept : key ∉ journalNames) :
    (reconcileSession record chunks).read key = record.read key := by
  simp only [journalNames, List.mem_cons, List.not_mem_nil, or_false, not_or] at kept
  cases exec : isText (record.read "mode") "exec" with
  | true =>
    rw [reconcile_exec chunks exec]
    apply read_other
    rw [List.lookup_eq_none_iff]
    simp [kept]
  | false =>
    rw [reconcile_terminal chunks exec]
    apply read_other
    rw [List.lookup_eq_none_iff]
    simp [journalFields, kept]

/-- The extent of a journal that ends at the cursor of its record. -/
theorem journal_extent {record : SessionRecord} {chunks : List OutputChunk}
    (follows : contiguous chunks = true) (read : ∀ chunk ∈ chunks, ReadChunk chunk)
    (cursor : ∀ last, chunks.getLast? = some last →
      last.endSequence = number (record.read "nextSequence")) :
    nextByte record chunks = number (record.read "nextSequence") ∧
      firstRetained record chunks + byteLength (joined chunks) =
        number (record.read "nextSequence") := by
  cases chunks with
  | nil =>
    have nothing : byteLength (joined []) = 0 := rfl
    simp only [nextByte, firstRetained, List.head?_nil, List.getLast?_nil, Option.map_none,
      Option.getD_none, nothing]
    omega
  | cons first rest =>
    obtain ⟨last, ends⟩ : ∃ last, (first :: rest).getLast? = some last :=
      ⟨_, List.getLast?_eq_some_getLast (by simp)⟩
    have length := byteLength_joined follows read rfl ends
    have stop := cursor last ends
    simp only [nextByte, firstRetained, ends, List.head?_cons, Option.map_some, Option.getD_some]
    omega

theorem validNonnegativeInteger_number {value : Option Js}
    (valid : validNonnegativeInteger value = true) :
    value = some (.int (number value)) ∧ number value ≤ maxSafeInteger := by
  obtain ⟨found, read⟩ := Option.isSome_iff_exists.mp valid
  have number : number value = found := by rw [number, read, Option.getD_some]
  rw [number]
  exact nonnegativeInteger_safe read

theorem number_int {value : Nat} (safe : value ≤ maxSafeInteger) :
    number (some (.int value)) = value := by
  rw [number, nonnegativeInteger_int safe, Option.getD_some]

theorem validNonnegativeInteger_int {value : Nat} (safe : value ≤ maxSafeInteger) :
    validNonnegativeInteger (some (.int value)) = true := by
  rw [validNonnegativeInteger, nonnegativeInteger_int safe, Option.isSome_some]

theorem cursorMatches_terminal {record : SessionRecord} {chunks : List OutputChunk}
    (terminal : isText (record.read "mode") "exec" = false) :
    cursorMatches record chunks = true ↔ ∀ last, chunks.getLast? = some last →
      last.endSequence = number (record.read "nextSequence") := by
  simp only [cursorMatches, terminal, Bool.false_or, Option.all_eq_true, beq_iff_eq]

/-- A record whose cursor is the end of its journal is as acceptable with the description of
that journal as it was before. -/
theorem reconciled_compatible {dateParse : JsString → Option Int} {record : SessionRecord}
    {id : JsString} {chunks : List OutputChunk} (fits : Compatible dateParse record.read id)
    (follows : contiguous chunks = true) (read : ∀ chunk ∈ chunks, ReadChunk chunk)
    (cursor : cursorMatches record chunks = true) :
    Compatible dateParse (reconcileSession record chunks).read id := by
  have output := fits.output
  simp only [validOutputFields, required, Bool.and_eq_true] at output
  obtain ⟨⟨⟨⟨⟨⟨⟨next, _⟩, _⟩, limit⟩, _⟩, _⟩, _⟩, version⟩ := output
  cases exec : isText (record.read "mode") "exec" with
  | true =>
    have unchanged := @read_reconciled_exec record chunks exec (isInt_iff.mp version)
    rw [unchanged]
    exact fits
  | false =>
    obtain ⟨nextSame, extent⟩ := journal_extent follows read ((cursorMatches_terminal exec).mp cursor)
    obtain ⟨_, nextSafe⟩ := validNonnegativeInteger_number next
    have lines := lineCount_le_byteLength (joined chunks)
    have other : ∀ key, key ∉ journalNames →
        (reconcileSession record chunks).read key = record.read key :=
      fun key kept => read_reconciled_other chunks kept
    have nextRead : (reconcileSession record chunks).read "nextSequence" =
        some (.int (number (record.read "nextSequence"))) := by
      rw [← nextSame]
      exact read_reconciled exec rfl (by decide)
    have firstRead : (reconcileSession record chunks).read "firstRetainedSequence" =
        some (.int (firstRetained record chunks)) :=
      read_reconciled exec rfl (by decide)
    have bytesRead : (reconcileSession record chunks).read "outputBytes" =
        some (.int (byteLength (joined chunks))) :=
      read_reconciled exec rfl (by decide)
    have truncatedRead : (reconcileSession record chunks).read "outputTruncated" =
        some (.bool (0 < firstRetained record chunks)) :=
      read_reconciled exec rfl (by decide)
    have linesRead : (reconcileSession record chunks).read "lineCount" =
        some (.int (lineCount (joined chunks))) :=
      read_reconciled exec rfl (by decide)
    have lastLineRead : (reconcileSession record chunks).read "outputHasPartialLine" =
        some (.bool (hasPartialLine (joined chunks))) :=
      read_reconciled exec rfl (by decide)
    have versionRead : (reconcileSession record chunks).read "outputJournalVersion" =
        some (.int 2) :=
      read_reconciled exec rfl (by decide)
    have sequences := fits.sequencesFit
    refine fits.journal other ?_ ?_
    · simp only [validOutputFields, required, Bool.and_eq_true, nextRead, firstRead, bytesRead,
        truncatedRead, linesRead, lastLineRead, versionRead, other "outputLimitBytes" (by decide)]
      refine ⟨⟨⟨⟨⟨⟨⟨validNonnegativeInteger_int nextSafe, ?_⟩, ?_⟩, limit⟩, rfl⟩, ?_⟩, rfl⟩, rfl⟩
      · exact validNonnegativeInteger_int (by omega)
      · exact validNonnegativeInteger_int (by omega)
      · exact validNonnegativeInteger_int (by omega)
    · simp only [sequencesAgree, Bool.and_eq_true] at sequences ⊢
      obtain ⟨⟨⟨⟨⟨created, started⟩, exited⟩, _⟩, _⟩, _⟩ := sequences
      have firstSafe : firstRetained record chunks ≤ maxSafeInteger := by omega
      have bytesSafe : byteLength (joined chunks) ≤ maxSafeInteger := by omega
      simp only [nextRead, firstRead, bytesRead, truncatedRead, number_int nextSafe,
        number_int firstSafe, number_int bytesSafe, other "createdAt" (by decide),
        other "updatedAt" (by decide), other "startedAt" (by decide),
        other "exitedAt" (by decide), other "mode" (by decide), exec, Bool.false_eq_true, if_false,
        decide_eq_true_eq]
      refine ⟨⟨⟨⟨⟨created, started⟩, exited⟩, by omega⟩, ?_⟩, by omega⟩
      by_cases start : firstRetained record chunks = 0
      · simp [start]
      · have positive : 0 < firstRetained record chunks := by omega
        simp [isBool, positive]

end OpencodePty.SessionLoading
