import OpencodePty.JournalReconciliation

/-!
# Recovery of current records

A record of the current version is loaded with its journal. The load succeeds just if the
journal ends at the cursor of the record, and the metadata need not be written or can be
refreshed without loss. It then returns the record with the extent of the journal.
-/

namespace OpencodePty.SessionLoading

open OpencodePty.JsValues OpencodePty.Lifecycle OpencodePty.RecordChecks OpencodePty.OutputJournal
  OpencodePty.SessionCodec OpencodePty.TextEncodings
open OpencodePty.Timestamps (newYear parseNewYear)

variable {dateParse : JsString → Option Int} {darwin : Bool}

/-- The id of an accepted record is the one that it was checked for. -/
theorem compatible_id {record : SessionRecord} {id : JsString}
    (fits : Compatible dateParse record.read id) : record.id = id := by
  have identity := fits.identity
  simp only [validIdentity, versioned, String.reduceEq, if_false, Bool.and_eq_true] at identity
  obtain ⟨⟨⟨⟨⟨⟨⟨⟨⟨⟨_, same⟩, _⟩, _⟩, _⟩, _⟩, _⟩, _⟩, _⟩, _⟩, _⟩ := identity
  have found : record.read "id" = some (.str id) := by
    cases stored : record.read "id" with
    | none =>
      rw [stored] at same
      cases same
    | some value =>
      rw [stored] at same
      cases value with
      | str text =>
        have equal : text = id := by simpa [JsValues.same] using same
        rw [equal]
      | _ => cases same
  simp [SessionRecord.id, found]

/-- What is known of a current record that passed its checks. -/
structure Accepted (dateParse : JsString → Option Int) (darwin : Bool) (record : SessionRecord)
    (id : JsString) : Prop where
  canonical : Canonical record.state
  projected : record.flat = projectSessionState record.state
  valid : (stateView record.state).Valid darwin
  fits : Compatible dateParse record.read id

theorem accepted_of_checks {source : Js} {id : JsString}
    (checked : runChecks (v2Checks dateParse darwin source id) = some true) :
    Accepted dateParse darwin (fromV2Session source) id := by
  obtain ⟨_, state, fits⟩ := v2Checks_pass source id |>.mp checked
  obtain ⟨value, stored⟩ : ∃ value, source.get "state" = some value := by
    cases stored : source.get "state" with
    | none =>
      rw [stored] at state
      cases state
    | some value => exact ⟨value, rfl⟩
  rw [stored, stateChecks_pass] at state
  have read : (fromV2Session source).state = readState value := by
    simp [fromV2Session, stored]
  exact
    { canonical := readState_canonical _
      projected := rfl
      valid := by
        rw [read, stateView_readState state.2]
        exact state.2
      fits := fits }

/-- The reconciled record is written just if the refresh keeps its last known kind. -/
theorem reconciled_written {record : SessionRecord} {id : JsString} {chunks : List OutputChunk}
    (accepted : Accepted dateParse darwin record id) (follows : contiguous chunks = true)
    (read : ∀ chunk ∈ chunks, ReadChunk chunk) (cursor : cursorMatches record chunks = true) :
    (∃ result, writeSession dateParse darwin (reconcileSession record chunks) = .ok result) ↔
      KindKept record.state := by
  have fits := reconciled_compatible accepted.fits follows read cursor
  have named := compatible_id fits
  refine @rewrite_accepts dateParse darwin (reconcileSession record chunks) accepted.canonical
    accepted.projected accepted.valid ?_
  rw [named]
  exact fits

theorem importOutput_ok {record : SessionRecord} {importing : Bool} {files : SessionFiles} {directory : Directory}
    {chunks : List OutputChunk}
    (imported : importOutput dateParse record importing files = .ok (directory, chunks)) :
    readOutputChunks dateParse directory = .ok chunks := by
  obtain ⟨before, read, rest⟩ := bind_ok imported
  split at rest
  · cases rest
    exact read
  · split at rest
    · cases rest
      exact read
    · cases rest
      exact read
    · obtain ⟨after, again, rest⟩ := bind_ok rest
      cases rest
      exact again

/-- The chunks with which a migration goes on are those of the directory that it leaves, and
end at the cursor. -/
theorem retainOutput_ok {record : SessionRecord} {importing : Bool} {files : SessionFiles}
    {directory : Directory} {chunks : List OutputChunk}
    (retained : retainOutput dateParse record importing files = .ok (directory, chunks)) :
    readOutputChunks dateParse directory = .ok chunks ∧ cursorMatches record chunks = true := by
  obtain ⟨⟨first, before⟩, read, rest⟩ := bind_ok retained
  have found := importOutput_ok read
  simp only [] at rest
  split at rest
  · cases rest
  next matched =>
    split at rest
    · obtain ⟨left, _, rest⟩ := bind_ok rest
      obtain ⟨kept, again, rest⟩ := bind_ok rest
      split at rest
      · cases rest
      next matchedAgain =>
        cases rest
        exact ⟨again, by simpa using matchedAgain⟩
    · cases rest
      exact ⟨found, by simpa using matched⟩

/-! ## Migration -/

/-- The migration writes the metadata. -/
def Rewrites (decoded : DecodedSession) (chunks : List OutputChunk) : Prop :=
  decoded.forceMetadataWrite = true ∨
    sameJournalState decoded.record (reconcileSession decoded.record chunks) = false

theorem removeLegacy_kept (files : SessionFiles) (record : SessionRecord) :
    (removeLegacy dateParse darwin files record).1.output = files.output ∧
      (removeLegacy dateParse darwin files record).2.metadata = record.metadata := by
  unfold removeLegacy
  simp only
  split
  · split
    next written persisted accepted =>
      obtain ⟨rfl, _, _, _⟩ := (writeSession_ok dateParse darwin).mp accepted
      exact ⟨rfl, rfl⟩
    next => exact ⟨rfl, rfl⟩
  · exact ⟨rfl, rfl⟩

/-- A migration whose journal is accepted returns the record with the description of the
journal, unless the metadata are to be written and are refused. -/
theorem migrateSession_cases {decoded : DecodedSession} {files : SessionFiles}
    {directory : Directory} {chunks : List OutputChunk}
    (retained : retainOutput dateParse decoded.record decoded.importLegacyOutput files =
      .ok (directory, chunks)) :
    ((Rewrites decoded chunks → ∃ result,
        writeSession dateParse darwin (reconcileSession decoded.record chunks) = .ok result) ∧
      ∃ after record, migrateSession dateParse darwin decoded files = .ok (after, .ok record) ∧
        after.output = directory ∧
        record.metadata = (reconcileSession decoded.record chunks).metadata) ∨
    ((Rewrites decoded chunks ∧ ¬ ∃ result,
        writeSession dateParse darwin (reconcileSession decoded.record chunks) = .ok result) ∧
      ∃ after error, migrateSession dateParse darwin decoded files = .ok (after, .error error)) := by
  have migrated : migrateSession dateParse darwin decoded files =
      .ok (settleLegacy dateParse darwin decoded (writeMigrated dateParse darwin decoded
        { files with output := directory } (reconcileSession decoded.record chunks))) := by
    simp only [migrateSession, retained, bind, Except.bind]
    rfl
  have settles (after : SessionFiles) (record : SessionRecord) : ∃ last final,
      settleLegacy dateParse darwin decoded (after, .ok record) = (last, .ok final) ∧
        last.output = after.output ∧ final.metadata = record.metadata := by
    simp only [settleLegacy]
    split
    · exact ⟨_, _, rfl, removeLegacy_kept after record⟩
    · exact ⟨_, _, rfl, rfl, rfl⟩
  have needed : (decoded.forceMetadataWrite ||
      !sameJournalState decoded.record (reconcileSession decoded.record chunks)) = true ↔
      Rewrites decoded chunks := by
    simp [Rewrites]
  rw [migrated, writeMigrated]
  split
  next write =>
    split
    next error refused =>
      right
      refine ⟨⟨needed.mp write, ?_⟩, _, _, rfl⟩
      rintro ⟨result, accepted⟩
      rw [refused] at accepted
      cases accepted
    next written persisted accepted =>
      left
      refine ⟨fun _ => ⟨_, accepted⟩, ?_⟩
      obtain ⟨last, final, settled, output, described⟩ := settles
        { files with output := directory, metadata := some (some persisted) } written
      obtain ⟨rfl, _, _, _⟩ := (writeSession_ok dateParse darwin).mp accepted
      exact ⟨last, final, congrArg _ settled, output, described⟩
  next unneeded =>
    left
    refine ⟨fun write => absurd (needed.mpr write) unneeded, ?_⟩
    obtain ⟨last, final, settled, output, described⟩ := settles
      { files with output := directory } (reconcileSession decoded.record chunks)
    exact ⟨last, final, congrArg _ settled, output, described⟩

/-! ## Journals ahead of the record -/

/-- A chunk that was read is not empty. -/
theorem ReadChunk.grows {chunk : OutputChunk} (known : ReadChunk chunk) :
    chunk.startSequence < chunk.endSequence := by
  have length := known.length
  have positive := length_le_byteLength chunk.data
  have filled : 0 < chunk.data.length := List.length_pos_iff.mpr known.data
  omega

/-- No chunk of a journal ends at or before its first byte. -/
theorem chunk_after_first {first : OutputChunk} {chunks : List OutputChunk}
    (follows : contiguous chunks = true) (read : ∀ chunk ∈ chunks, ReadChunk chunk)
    (starts : chunks.head? = some first) :
    ∀ chunk ∈ chunks, first.startSequence < chunk.endSequence := by
  induction chunks generalizing first with
  | nil => cases starts
  | cons head rest inductionHypothesis =>
    cases starts
    intro chunk member
    obtain rfl | later := List.mem_cons.mp member
    · exact (read _ (by simp)).grows
    · cases rest with
      | nil => cases later
      | cons next others =>
        simp only [contiguous, Bool.and_eq_true, beq_iff_eq] at follows
        have after := inductionHypothesis follows.2
          (fun chunk member => read chunk (by simp [member])) rfl chunk later
        have here := (read head (by simp)).grows
        omega

/-- Nothing is discarded of a journal that starts where the record says, or later. -/
theorem discard_nothing {directory : Directory} {first : OutputChunk} {chunks : List OutputChunk}
    {sequence : Nat} (read : readOutputChunks dateParse directory = .ok chunks)
    (starts : chunks.head? = some first) (later : sequence ≤ first.startSequence) :
    discardOutputBefore dateParse directory sequence = .ok directory := by
  obtain ⟨follows, known⟩ := readOutputChunks_read read
  have kept : chunks.filter (fun chunk => chunk.endSequence ≤ sequence) = [] := by
    rw [List.filter_eq_nil_iff]
    intro chunk member
    have after := chunk_after_first follows known starts chunk member
    simp only [decide_eq_true_eq]
    omega
  simp only [discardOutputBefore, read, bind, Except.bind, kept]
  simp [removeChunks, pure, Except.pure]

/-- The journal of a terminal session that starts where the record says, or later, is kept as
it is just if it ends at the cursor of the record. -/
theorem retain_ahead {record : SessionRecord} {files : SessionFiles} {first last : OutputChunk}
    {chunks : List OutputChunk} (terminal : isText (record.read "mode") "exec" = false)
    (read : readOutputChunks dateParse files.output = .ok chunks)
    (starts : chunks.head? = some first) (ends : chunks.getLast? = some last)
    (later : number (record.read "firstRetainedSequence") ≤ first.startSequence) :
    retainOutput dateParse record false files =
      if last.endSequence = number (record.read "nextSequence") then .ok (files.output, chunks)
      else .error .cursor := by
  have imported : importOutput dateParse record false files = .ok (files.output, chunks) := by
    simp only [importOutput, read, bind, Except.bind]
    rfl
  have matched : cursorMatches record chunks =
      decide (last.endSequence = number (record.read "nextSequence")) := by
    simp [cursorMatches, terminal, ends, beq_eq_decide]
  simp only [retainOutput, imported, bind, Except.bind, matched,
    discard_nothing read starts later, read]
  by_cases level : last.endSequence = number (record.read "nextSequence")
  · simp only [level, decide_true, Bool.not_true, Bool.false_eq_true, if_false, if_true]
    split <;> rfl
  · simp only [level, decide_false, Bool.not_false, if_true, if_false]
    rfl

/-- The session of a directory is returned with the extent of its journal, of which nothing is
lost. -/
def Recovered (dateParse : JsString → Option Int) (darwin : Bool)
    (realpath : JsString → Option JsString) (storage : Storage) (id : JsString)
    (chunks : List OutputChunk) (first last : OutputChunk) : Prop :=
  ∃ files record, readSession dateParse darwin realpath storage id =
      (Function.update storage id (some files), .returned record) ∧
    record.read "nextSequence" = some (.int last.endSequence) ∧
    record.read "firstRetainedSequence" = some (.int first.startSequence) ∧
    record.read "outputBytes" = some (.int (last.endSequence - first.startSequence)) ∧
    readOutputChunks dateParse files.output = .ok chunks

/-- What is decoded from a current record that passes its checks. -/
def currentSession (source : Js) : DecodedSession where
  record := fromV2Session source
  forceMetadataWrite := false
  importLegacyOutput := false
  removeLegacyOutput := isBool (fromV2Session source).flat.legacyOutputCleanupPending true

theorem decode_checked {source : Js} {id : JsString} (realpath : JsString → Option JsString)
    (checked : runChecks (v2Checks dateParse darwin source id) = some true) :
    decodeSession dateParse darwin realpath source id = .ok (currentSession source) := by
  obtain ⟨⟨version, _⟩, _, _⟩ := v2Checks_pass source id |>.mp checked
  have found := isInt_iff.mp version
  have object : source.isObject = true := by
    cases source with
    | obj fields => rfl
    | _ => cases found
  exact decode_valid dateParse darwin realpath object found checked

/-- The metadata of a current record are read as they stand in it. -/
theorem read_fromV2Session (source : Js) {key : String} (free : key ∉ reservedFields) :
    (fromV2Session source).read key = source.get key := by
  have other : key ∉ lifecycleFields := fun member =>
    free (List.mem_cons_of_mem _ (List.mem_cons_of_mem _ member))
  rw [read_metadata _ other]
  have found := @lookup_filter (properties source) (fun name => !reservedFields.contains name) key
    (by simpa using free)
  refine Eq.trans found ?_
  cases source <;> rfl

/-- What a read of a directory with a checked record comes to. -/
theorem readSession_checked (realpath : JsString → Option JsString) {storage : Storage}
    {id : JsString} {files : SessionFiles} {source : Js} (present : storage id = some files)
    (stored : files.metadata = some (some source))
    (checked : runChecks (v2Checks dateParse darwin source id) = some true) :
    readSession dateParse darwin realpath storage id =
      concludeMigration storage id id
        (migrateSession dateParse darwin (currentSession source) files) := by
  have named : (currentSession source).record.id = id :=
    compatible_id (accepted_of_checks checked).fits
  simp only [readSession, present, Option.bind_some, stored, decode_checked realpath checked, named,
    Option.getD_some]

section Ahead

variable {storage : Storage} {id : JsString} {files : SessionFiles} {source : Js}
  {chunks : List OutputChunk} {first last : OutputChunk}

theorem mode_fromV2Session (terminal : isText (source.get "mode") "pty" = true) :
    isText ((fromV2Session source).read "mode") "exec" = false := by
  rw [read_fromV2Session source (by decide), isText_iff.mp terminal]
  decide

theorem retain_source (terminal : isText (source.get "mode") "pty" = true)
    (read : readOutputChunks dateParse files.output = .ok chunks)
    (starts : chunks.head? = some first) (ends : chunks.getLast? = some last)
    (later : number (source.get "firstRetainedSequence") ≤ first.startSequence) :
    retainOutput dateParse (fromV2Session source) false files =
      if last.endSequence = number (source.get "nextSequence") then .ok (files.output, chunks)
      else .error .cursor := by
  have retained := retain_ahead (mode_fromV2Session terminal) read starts ends
  rw [read_fromV2Session source (by decide), read_fromV2Session source (by decide)] at retained
  exact retained later

/-- A session whose journal is ahead of its record is moved to the quarantine. -/
theorem quarantined_ahead (realpath : JsString → Option JsString) (present : storage id = some files)
    (stored : files.metadata = some (some source))
    (checked : runChecks (v2Checks dateParse darwin source id) = some true)
    (terminal : isText (source.get "mode") "pty" = true)
    (read : readOutputChunks dateParse files.output = .ok chunks)
    (starts : chunks.head? = some first) (ends : chunks.getLast? = some last)
    (later : number (source.get "firstRetainedSequence") ≤ first.startSequence)
    (ahead : last.endSequence ≠ number (source.get "nextSequence")) :
    readSession dateParse darwin realpath storage id =
      (Function.update storage id none, .quarantined (.journal .cursor)) := by
  have retained := retain_source terminal read starts ends later
  rw [if_neg ahead] at retained
  have failed : migrateSession dateParse darwin (currentSession source) files = .error .cursor := by
    simp only [migrateSession, currentSession, retained, bind, Except.bind]
  rw [readSession_checked realpath present stored checked, failed]
  rfl

/-- A session whose record passes its checks and whose journal is at or ahead of the record is
recovered just if the journal ends at the cursor of the record, and the record describes the
journal already or can be written again. -/
theorem journal_ahead_recovered (realpath : JsString → Option JsString)
    (present : storage id = some files)
    (stored : files.metadata = some (some source))
    (checked : runChecks (v2Checks dateParse darwin source id) = some true)
    (terminal : isText (source.get "mode") "pty" = true)
    (read : readOutputChunks dateParse files.output = .ok chunks)
    (starts : chunks.head? = some first) (ends : chunks.getLast? = some last)
    (later : number (source.get "firstRetainedSequence") ≤ first.startSequence) :
    Recovered dateParse darwin realpath storage id chunks first last ↔
      last.endSequence = number (source.get "nextSequence") ∧
        (sameJournalState (fromV2Session source)
            (reconcileSession (fromV2Session source) chunks) = true ∨
          KindKept (fromV2Session source).state) := by
  have accepted := accepted_of_checks checked
  obtain ⟨follows, known⟩ := readOutputChunks_read read
  have mode := mode_fromV2Session terminal
  have next : (fromV2Session source).read "nextSequence" = source.get "nextSequence" :=
    read_fromV2Session source (by decide)
  have retained := retain_source terminal read starts ends later
  unfold Recovered
  by_cases level : last.endSequence = number (source.get "nextSequence")
  · rw [readSession_checked realpath present stored checked]
    rw [if_pos level] at retained
    have cursor := (retainOutput_ok retained).2
    have written := reconciled_written accepted follows known cursor
    have rewrites : Rewrites (currentSession source) chunks ↔
        ¬ sameJournalState (fromV2Session source)
          (reconcileSession (fromV2Session source) chunks) = true := by
      simp [Rewrites, currentSession]
    obtain ⟨allowed, after, record, migrated, output, described⟩ |
      ⟨⟨write, refused⟩, after, error, migrated⟩ := 
        @migrateSession_cases dateParse darwin (currentSession source) files _ _ retained
    · rw [migrated]
      have reads {key : String} {value : Js} (free : key ∉ reservedFields)
          (listed : (journalFields (fromV2Session source) chunks).lookup key = some value) :
          record.read key = some value := by
        have other : key ∉ lifecycleFields := fun member =>
          free (List.mem_cons_of_mem _ (List.mem_cons_of_mem _ member))
        rw [← read_reconciled mode listed free, read_metadata _ other, read_metadata _ other,
          described]
        rfl
      obtain ⟨nextSame, extent⟩ := journal_extent follows known
        ((cursorMatches_terminal mode).mp cursor)
      have firstSame : firstRetained (fromV2Session source) chunks = first.startSequence := by
        simp [firstRetained, starts]
      rw [next, ← level] at nextSame extent
      constructor
      · intro _
        refine ⟨level, ?_⟩
        by_cases same : sameJournalState (fromV2Session source)
            (reconcileSession (fromV2Session source) chunks) = true
        · exact .inl same
        · exact .inr (written.mp (allowed (rewrites.mpr same)))
      · intro _
        refine ⟨after, record, rfl, ?_, ?_, ?_, ?_⟩
        · rw [← nextSame]
          exact reads (by decide) rfl
        · rw [← firstSame]
          exact reads (by decide) rfl
        · have bytes : ((byteLength (joined chunks) : Nat) : Int) =
              last.endSequence - first.startSequence := by omega
          rw [← bytes]
          exact reads (by decide) rfl
        · rw [output]
          exact read
    · rw [migrated]
      constructor
      · rintro ⟨other, record, same, _⟩
        cases (congrArg Prod.snd same)
      · rintro ⟨_, same | kept⟩
        · exact absurd same (rewrites.mp write)
        · exact absurd (written.mpr kept) refused
  · rw [quarantined_ahead realpath present stored checked terminal read starts ends later level]
    constructor
    · rintro ⟨after, record, same, _⟩
      cases (congrArg Prod.snd same)
    · rintro ⟨equal, _⟩
      exact absurd equal level

end Ahead

/-- A running session that wrote one letter, as the record describes it or as it was before. -/
def letterRecord (described : Bool) : SessionRecord :=
  if described then
    changed (runningRecord false none) [("nextSequence", .int 1), ("outputBytes", .int 1),
      ("lineCount", .int 1), ("outputHasPartialLine", .bool true)]
  else runningRecord false none

def letterChunk : OutputChunk := ⟨0, 1, newYear, js "a"⟩

/-- The directory of the session. -/
def letterFiles (described : Bool) : SessionFiles where
  metadata := some (some (toV2Session ((letterRecord described).refreshed false)))
  output := [(chunkName 0, some (chunkJson letterChunk))]
  legacyOutput := none

theorem letter_read (described : Bool) :
    readOutputChunks parseNewYear (letterFiles described).output = .ok [letterChunk] := by
  rfl

theorem letter_checked (described : Bool) :
    runChecks (v2Checks parseNewYear false
      (toV2Session ((letterRecord described).refreshed false)) (js "s")) = some true := by
  cases described <;> decide +kernel

/-- The session is recovered where the record describes the letter. -/
theorem journal_ahead_recovered_letter :
    Recovered parseNewYear false some (fun _ => some (letterFiles true)) (js "s")
      [letterChunk] letterChunk letterChunk := by
  refine (journal_ahead_recovered some rfl rfl (letter_checked true) ?_ (letter_read true) rfl rfl
    ?_).mpr ⟨?_, .inr ?_⟩
  · decide +kernel
  · decide +kernel
  · decide +kernel
  · trivial

/-- A record that was last written before the letter is valid, its journal goes on from it,
and the session is moved to the quarantine. -/
theorem journal_ahead_quarantined :
    runChecks (v2Checks parseNewYear false
        (toV2Session ((letterRecord false).refreshed false)) (js "s")) = some true ∧
      isText ((toV2Session ((letterRecord false).refreshed false)).get "mode") "pty" = true ∧
      readOutputChunks parseNewYear (letterFiles false).output = .ok [letterChunk] ∧
      number ((toV2Session ((letterRecord false).refreshed false)).get "nextSequence") ≤
        letterChunk.endSequence ∧
      number ((toV2Session ((letterRecord false).refreshed false)).get "firstRetainedSequence") ≤
        letterChunk.startSequence ∧
      (readSession parseNewYear false some (fun _ => some (letterFiles false)) (js "s")).2 =
        .quarantined (.journal .cursor) := by
  have mode : isText ((toV2Session ((letterRecord false).refreshed false)).get "mode") "pty" =
      true := by
    decide +kernel
  have later : number ((toV2Session ((letterRecord false).refreshed false)).get
      "firstRetainedSequence") ≤ letterChunk.startSequence := by
    decide +kernel
  refine ⟨letter_checked false, mode, letter_read false, by decide +kernel, later, ?_⟩
  rw [quarantined_ahead some rfl rfl (letter_checked false) mode (letter_read false) rfl rfl later
    (by decide +kernel)]

end OpencodePty.SessionLoading
