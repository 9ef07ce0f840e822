import OpencodePty.LegacyMigration

/-!
# Isolation of sessions at the start

The directories of a daemon are read independently of one another: what becomes of one is what
becomes of it alone. But an error that is neither of the two that the load expects fails the
load of all of them. Two kinds of records raise such an error: those whose checks raise instead
of failing, and those that are decoded and then refused when they are written again.
-/

namespace OpencodePty.SessionLoading

open OpencodePty.JsValues OpencodePty.Lifecycle OpencodePty.RecordChecks OpencodePty.OutputJournal
  OpencodePty.SessionCodec
open OpencodePty.Timestamps (newYear parseNewYear)

section Conditions

variable (dateParse : JsString → Option Int) (darwin : Bool)
  (realpath : JsString → Option JsString)

/-- The version of a record that has only the flat view. -/
def legacyVersion (source : Js) : Option LegacyVersion :=
  if (source.get "recordVersion").isNone then some .v0
  else if isInt (source.get "recordVersion") 1 then some .v1
  else none

/-- A record of version 0 with an owner that is `null` is not looked at any further. -/
def ownerless (source : Js) : Bool :=
  same (source.get "parentSessionId") (some .null) ||
    same (source.get "ownerProjectDirectory") (some .null) ||
    same (source.get "ownerCapabilityHash") (some .null)

/-- The checks of the stored value that are made first, by its version. -/
def storedChecks (source : Js) (id : JsString) : List Check :=
  if !source.isObject then []
  else
    match legacyVersion source with
    | some .v0 => if ownerless source then [] else sessionChecks dateParse source.get id .v0 false
    | some .v1 => sessionChecks dateParse source.get id .v1 false
    | none =>
      if isInt (source.get "recordVersion") 2 then v2Checks dateParse darwin source id else []

/-- A decoded record can be written with the description of its journal, where it has to be. -/
def Rewritable (source : Js) (decoded : DecodedSession) (chunks : List OutputChunk) : Prop :=
  match legacyVersion source with
  | some version => LegacyWritable source version
  | none =>
    sameJournalState decoded.record (reconcileSession decoded.record chunks) = true ∨
      KindKept decoded.record.state

/-- The files of a directory do not fail the load: the checks of the stored value return, and
where it is decoded and its journal is accepted, it can be written. -/
def Loadable (entry : Option SessionFiles) (id : JsString) : Prop :=
  ∀ files ∈ entry, ∀ source, files.metadata = some (some source) →
    runChecks (storedChecks dateParse darwin source id) ≠ none ∧
      ∀ decoded directory chunks,
        decodeSession dateParse darwin realpath source id = .ok decoded →
        retainOutput dateParse decoded.record decoded.importLegacyOutput files =
          .ok (directory, chunks) →
        Rewritable source decoded chunks

/-- What becomes of a directory that stands alone. -/
def readAlone (entry : Option SessionFiles) (id : JsString) : Option SessionFiles × Outcome :=
  let (storage, outcome) := readSession dateParse darwin realpath
    (Function.update (fun _ => none) id entry) id
  (storage id, outcome)

/-- A directory is settled: it is returned as a record, left as it is, or moved away. -/
def Settled (entry after : Option SessionFiles) : Outcome → Prop
  | .absent | .unsupported _ => after = entry
  | .returned _ => after.isSome
  | .quarantined _ => after = none
  | .rejected _ => False

/-- The load succeeds, each directory is settled as it would be alone, and no other one is
touched. -/
structure Isolated (storage : Storage) (ids : List JsString) : Prop where
  loads : ∃ records, (loadSessions dateParse darwin realpath storage ids).2 = .ok records
  outcomes : (readSessions dateParse darwin realpath storage ids).2 =
    ids.map fun id => (readAlone dateParse darwin realpath (storage id) id).2
  files : ∀ id ∈ ids, (loadSessions dateParse darwin realpath storage ids).1 id =
    (readAlone dateParse darwin realpath (storage id) id).1
  settled : ∀ id ∈ ids, Settled (storage id)
    (readAlone dateParse darwin realpath (storage id) id).1
    (readAlone dateParse darwin realpath (storage id) id).2
  others : ∀ id, id ∉ ids → (loadSessions dateParse darwin realpath storage ids).1 id = storage id

end Conditions

variable {dateParse : JsString → Option Int} {darwin : Bool}
  {realpath : JsString → Option JsString}

/-! ## What is decoded -/

section Decoding

variable {source : Js} {id : JsString} {version : LegacyVersion}

/-- Checks that passed did not raise. -/
theorem passed_quiet {checks : List Check} (passed : runChecks checks = some true) :
    ∀ check ∈ checks, check.raises = false := fun check member =>
  ((runChecks_passes checks).mp passed check member).1

/-- What the checks of an old record say of the parts that are converted to names. -/
theorem sessionChecks_parts {read : View} {allowV1 : Bool}
    (passed : runChecks (sessionChecks dateParse read id version allowV1) = some true) :
    runChecks (containmentChecks dateParse (read "containment")) = some true ∧
      runChecks (terminationChecks dateParse (read "termination")) = some true ∧
      runChecks (tombstoneChecks allowV1 (read "legacyTombstone")) = some true ∧
      tombstoneAgrees read = true := by
  have empty : runChecks [] = some true := rfl
  simp only [sessionChecks, List.cons_append, List.append_assoc, runChecks_plain,
    runChecks_append, Bool.and_eq_true, empty, and_true] at passed
  obtain ⟨_, containment, termination, _, tombstone, ⟨⟨⟨_, agrees⟩, _⟩, _⟩, _⟩ := passed
  exact ⟨containment, termination, tombstone, agrees⟩

/-- The checks of a flat view raise only where names are converted. -/
theorem compatibilityChecks_quiet {read : View}
    (containment : ∀ check ∈ containmentChecks dateParse (read "containment"),
      check.raises = false)
    (termination : ∀ check ∈ terminationChecks dateParse (read "termination"),
      check.raises = false)
    (tombstone : ∀ check ∈ tombstoneChecks true (read "legacyTombstone"), check.raises = false) :
    runChecks (compatibilityChecks dateParse read id) ≠ none := by
  apply runChecks_returns
  simp only [compatibilityChecks, sessionChecks, List.cons_append, List.append_assoc,
    List.nil_append, List.forall_mem_cons, List.forall_mem_append, String.reduceEq, if_false]
  refine ⟨rfl, containment, termination, rfl, tombstone, rfl, rfl, by simp⟩

/-- The checks of a converted record return. -/
theorem legacyRecord_quiet
    (passed : runChecks (sessionChecks dateParse source.get id version false) = some true) :
    runChecks (compatibilityChecks dateParse (legacyRecord darwin source version).read id) ≠
      none := by
  obtain ⟨containment, termination, tombstone, _⟩ := sessionChecks_parts passed
  refine compatibilityChecks_quiet (passed_quiet containment) (passed_quiet termination) ?_
  have quiet : ∀ value : Option Js, (∀ check ∈ tombstoneChecks false value, check.raises = false) →
      ∀ check ∈ tombstoneChecks true value, check.raises = false := by
    intro value before
    cases value with
    | none => simp [tombstoneChecks]
    | some present =>
      simp only [tombstoneChecks, List.forall_mem_cons] at before ⊢
      exact ⟨rfl, before.2⟩
  change ∀ check ∈ tombstoneChecks true (legacyFlat source version).legacyTombstone, _
  have kept := quiet _ (passed_quiet tombstone)
  simp only [legacyFlat]
  split
  · exact kept
  · have fresh : ∀ check ∈ tombstoneChecks true (some (JsValues.record
        [("sourceRecordVersion", some (.int (sourceRecordVersion version))),
          ("lastKnown", some (.text (legacyLastKnown (source.get "status"))))])),
        check.raises = false := by
      simp only [tombstoneChecks, List.forall_mem_cons]
      exact ⟨rfl, rfl, by simp⟩
    unfold legacyTombstone orElse
    split
    next => exact fresh
    next => exact fresh
    next present other stored =>
      rw [← stored]
      exact kept

/-- A legacy record that passed its checks is decoded, or refused with one of the two errors
that the load expects. -/
theorem decodeLegacySession_cases
    (passed : runChecks (sessionChecks dateParse source.get id version false) = some true) :
    (∃ reason, decodeLegacySession dateParse darwin realpath source id version =
        .error (.unsupported reason)) ∨
      decodeLegacySession dateParse darwin realpath source id version = .error .invalid ∨
      ∃ decoded, decodeLegacySession dateParse darwin realpath source id version = .ok decoded ∧
        decoded.record = legacyRecord darwin source version ∧ decoded.forceMetadataWrite = true ∧
        Compatible dateParse (legacyRecord darwin source version).read id := by
  unfold decodeLegacySession
  split
  · exact .inl ⟨_, rfl⟩
  · split
    · exact .inl ⟨_, rfl⟩
    · exact .inl ⟨_, rfl⟩
    · split
      · exact .inl ⟨_, rfl⟩
      · right
        change (accept (compatibilityChecks dateParse (legacyRecord darwin source version).read id)
          >>= _) = _ ∨ ∃ decoded, (accept (compatibilityChecks dateParse
            (legacyRecord darwin source version).read id) >>= _) = _ ∧ _
        have quiet := @legacyRecord_quiet dateParse darwin _ _ _ passed
        have fits := compatible_iff dateParse (legacyRecord darwin source version).read id
        unfold accept
        split
        next raised => exact absurd raised quiet
        next accepted => exact .inr ⟨_, rfl, rfl, rfl, fits.mp accepted⟩
        next => exact .inl rfl


/-- What comes of the stored value of a record. -/
inductive Decodes (dateParse : JsString → Option Int) (darwin : Bool) (source : Js)
    (id : JsString) : Except DecodeError DecodedSession → Prop where
  | raised (checks : runChecks (storedChecks dateParse darwin source id) = none) :
      Decodes dateParse darwin source id (.error .typeError)
  | invalid (checks : runChecks (storedChecks dateParse darwin source id) ≠ none) :
      Decodes dateParse darwin source id (.error .invalid)
  | unsupported (checks : runChecks (storedChecks dateParse darwin source id) ≠ none)
      (reason : Unsupported) : Decodes dateParse darwin source id (.error (.unsupported reason))
  | legacy (version : LegacyVersion) (decoded : DecodedSession)
      (checks : runChecks (storedChecks dateParse darwin source id) ≠ none)
      (old : legacyVersion source = some version)
      (record : decoded.record = legacyRecord darwin source version)
      (forced : decoded.forceMetadataWrite = true)
      (fits : Compatible dateParse (legacyRecord darwin source version).read id)
      (agrees : tombstoneAgrees source.get = true) :
      Decodes dateParse darwin source id (.ok decoded)
  | current (checks : runChecks (storedChecks dateParse darwin source id) ≠ none)
      (new : legacyVersion source = none)
      (checked : runChecks (v2Checks dateParse darwin source id) = some true) :
      Decodes dateParse darwin source id (.ok (currentSession source))

/-- A record of an old version is decoded as its checks say. -/
theorem decodes_legacy (old : legacyVersion source = some version)
    (checks : storedChecks dateParse darwin source id =
      sessionChecks dateParse source.get id version false) :
    Decodes dateParse darwin source id (do
      accept (sessionChecks dateParse source.get id version false)
      decodeLegacySession dateParse darwin realpath source id version) := by
  unfold accept
  split
  next raised => exact .raised (by rw [checks]; exact raised)
  next passed =>
    have quiet : runChecks (storedChecks dateParse darwin source id) ≠ none := by
      rw [checks, passed]
      simp
    change Decodes _ _ _ _ (decodeLegacySession dateParse darwin realpath source id version)
    obtain ⟨reason, refused⟩ | refused | ⟨decoded, accepted, record, forced, fits⟩ :=
      @decodeLegacySession_cases dateParse darwin realpath _ _ _ passed
    · rw [refused]
      exact .unsupported quiet reason
    · rw [refused]
      exact .invalid quiet
    · rw [accepted]
      exact .legacy version decoded quiet old record forced fits (sessionChecks_parts passed).2.2.2
  next failed =>
    refine .invalid ?_
    rw [checks, failed]
    simp

theorem decodeSession_decodes (source : Js) (id : JsString) :
    Decodes dateParse darwin source id
      (decodeSession dateParse darwin realpath source id) := by
  have empty : runChecks [] ≠ none := by simp [runChecks]
  unfold decodeSession
  split
  next shape =>
    refine .invalid ?_
    rw [storedChecks, if_pos shape]
    exact empty
  next shape =>
    simp only
    split
    next absent =>
      have old : legacyVersion source = some .v0 := by simp only [legacyVersion, absent, if_true]
      unfold decodeV0Session
      split
      next unowned =>
        refine .unsupported ?_ _
        have found : ownerless source = true := unowned
        simp only [storedChecks, if_neg shape, old, found, if_true]
        exact empty
      next owned =>
        have found : ¬ ownerless source = true := owned
        refine decodes_legacy old ?_
        simp only [storedChecks, if_neg shape, old, if_neg found]
    next present =>
      split
      next first =>
        have old : legacyVersion source = some .v1 := by
          simp only [legacyVersion, present, first, if_true]
          rfl
        refine decodes_legacy old ?_
        simp only [storedChecks, if_neg shape, old]
      next later =>
        have new : legacyVersion source = none := by
          simp only [legacyVersion, present, later]
          rfl
        split
        next second =>
          have checks : storedChecks dateParse darwin source id =
              v2Checks dateParse darwin source id := by
            simp only [storedChecks, if_neg shape, new, if_pos second]
          unfold decodeV2Session accept
          split
          next raised => exact .raised (by rw [checks]; exact raised)
          next passed => exact .current (by rw [checks, passed]; simp) new passed
          next failed => exact .invalid (by rw [checks, failed]; simp)
        next other =>
          have checks : storedChecks dateParse darwin source id = [] := by
            simp only [storedChecks, if_neg shape, new, if_neg other]
          split
          · exact .unsupported (by rw [checks]; exact empty) _
          · exact .invalid (by rw [checks]; exact empty)

/-- A record is decoded for the directory that it was read from. -/
theorem decoded_id {decoded : DecodedSession}
    (accepted : decodeSession dateParse darwin realpath source id = .ok decoded) :
    decoded.record.id = id := by
  have decodes := @decodeSession_decodes dateParse darwin realpath source id
  rw [accepted] at decodes
  cases decodes with
  | legacy version _ _ _ record _ fits _ =>
    rw [record]
    exact compatible_id fits
  | current _ _ checked => exact compatible_id (accepted_of_checks checked).fits

end Decoding

/-! ## One directory -/

/-- A read changes the directory that it is for and no other, and reads no other. -/
theorem readSession_alone (storage : Storage) (id : JsString) :
    readSession dateParse darwin realpath storage id =
      (Function.update storage id (readAlone dateParse darwin realpath (storage id) id).1,
        (readAlone dateParse darwin realpath (storage id) id).2) := by
  simp only [readAlone, readSession, Function.update_self]
  cases (storage id).bind SessionFiles.metadata with
  | none => simp
  | some parsed =>
    cases parsed with
    | none => simp
    | some source =>
      simp only
      cases decoding : decodeSession dateParse darwin realpath source id with
      | error error => cases error <;> simp
      | ok decoded =>
        simp only [decoded_id decoding, Function.update_self]
        cases migrateSession dateParse darwin decoded ((storage id).getD .missing) with
        | error error => simp [concludeMigration]
        | ok migration =>
          obtain ⟨files, result⟩ := migration
          cases result <;> simp [concludeMigration]

/-- The record of a decoded session is written with its journal just if it can be. -/
theorem migrated_settles {source : Js} {id : JsString} {files : SessionFiles}
    {decoded : DecodedSession} {directory : Directory} {chunks : List OutputChunk}
    (accepted : decodeSession dateParse darwin realpath source id = .ok decoded)
    (retained : retainOutput dateParse decoded.record decoded.importLegacyOutput files =
      .ok (directory, chunks)) :
    (∃ after record, migrateSession dateParse darwin decoded files = .ok (after, .ok record)) ↔
      Rewritable source decoded chunks := by
  obtain ⟨read, cursor⟩ := retainOutput_ok retained
  obtain ⟨follows, known⟩ := readOutputChunks_read read
  have writable : (Rewrites decoded chunks → ∃ result,
      writeSession dateParse darwin (reconcileSession decoded.record chunks) = .ok result) ↔
      Rewritable source decoded chunks := by
    have decodes := @decodeSession_decodes dateParse darwin realpath source id
    rw [accepted] at decodes
    cases decodes with
    | legacy version _ _ old record forced fits agrees =>
      rw [← record] at fits
      have reconciled := reconciled_compatible fits follows known cursor
      have written := @legacy_written dateParse darwin source version
        (reconcileSession decoded.record chunks) (by rw [record]; rfl) (by rw [record]; rfl)
        (by rw [compatible_id reconciled]; exact reconciled) agrees
      simp only [Rewritable, old, written, Rewrites, forced, true_or, true_implies]
    | current _ new checked =>
      have written := reconciled_written (accepted_of_checks checked) follows known cursor
      simp only [Rewritable, new, Rewrites, currentSession, Bool.false_eq_true, false_or]
      rw [written]
      cases sameJournalState (fromV2Session source)
        (reconcileSession (fromV2Session source) chunks) <;> simp
  rw [← writable]
  obtain ⟨allowed, after, record, migrated, _⟩ | ⟨⟨write, refused⟩, after, error, migrated⟩ :=
    @migrateSession_cases dateParse darwin decoded files _ _ retained
  · exact iff_of_true ⟨after, record, migrated⟩ allowed
  · refine iff_of_false ?_ fun allowed => refused (allowed write)
    rintro ⟨other, record, returned⟩
    rw [migrated] at returned
    cases returned

/-- The files of a directory whose record is decoded fail the load only where the record can
not be written. -/
theorem loadable_decoded {source : Js} {id : JsString} {files : SessionFiles}
    {decoded : DecodedSession} (stored : files.metadata = some (some source))
    (decoding : decodeSession dateParse darwin realpath source id = .ok decoded) :
    Loadable dateParse darwin realpath (some files) id ↔
      ∀ directory chunks, retainOutput dateParse decoded.record decoded.importLegacyOutput files =
        .ok (directory, chunks) → Rewritable source decoded chunks := by
  have quiet : runChecks (storedChecks dateParse darwin source id) ≠ none := by
    have decodes := @decodeSession_decodes dateParse darwin realpath source id
    rw [decoding] at decodes
    cases decodes with
    | legacy _ _ checks => exact checks
    | current checks => exact checks
  constructor
  · intro loadable directory chunks retained
    exact (loadable files rfl source stored).2 decoded directory chunks decoding retained
  · intro writable kept member other found
    cases member
    rw [stored] at found
    cases found
    refine ⟨quiet, ?_⟩
    intro again directory chunks accepted retained
    rw [decoding] at accepted
    cases accepted
    exact writable directory chunks retained

/-- The directory of a decoded record is settled just if its files do not fail the load. -/
theorem settled_decoded {source : Js} {id : JsString} {files : SessionFiles}
    {decoded : DecodedSession} (stored : files.metadata = some (some source))
    (decoding : decodeSession dateParse darwin realpath source id = .ok decoded) :
    Settled (some files) (readAlone dateParse darwin realpath (some files) id).1
        (readAlone dateParse darwin realpath (some files) id).2 ↔
      Loadable dateParse darwin realpath (some files) id := by
  rw [loadable_decoded stored decoding]
  simp only [readAlone, readSession, Function.update_self, Option.bind_some, stored, decoding,
    decoded_id decoding, Option.getD_some]
  cases retained : retainOutput dateParse decoded.record decoded.importLegacyOutput files with
  | error error =>
    have failed : migrateSession dateParse darwin decoded files = .error error := by
      simp only [migrateSession, retained, bind, Except.bind]
    simp [failed, concludeMigration, Settled]
  | ok left =>
    obtain ⟨directory, chunks⟩ := left
    have writable : (∀ other kept, (Except.ok (directory, chunks) : Except JournalError _) =
        .ok (other, kept) → Rewritable source decoded kept) ↔ Rewritable source decoded chunks := by
      simp
    rw [writable, ← migrated_settles decoding retained]
    obtain ⟨_, after, record, migrated, _⟩ | ⟨_, after, error, migrated⟩ :=
      @migrateSession_cases dateParse darwin decoded files _ _ retained
    · simp [migrated, concludeMigration, Settled]
    · simp [migrated, concludeMigration, Settled]

/-- A directory is settled just if its files do not fail the load. -/
theorem settled_iff (entry : Option SessionFiles) (id : JsString) :
    Settled entry (readAlone dateParse darwin realpath entry id).1
        (readAlone dateParse darwin realpath entry id).2 ↔
      Loadable dateParse darwin realpath entry id := by
  cases entry with
  | none => simp [readAlone, readSession, Settled, Loadable]
  | some files =>
    cases stored : files.metadata with
    | none => simp [readAlone, readSession, Settled, Loadable, stored]
    | some parsed =>
      cases parsed with
      | none => simp [readAlone, readSession, Settled, Loadable, stored]
      | some source =>
        cases decoding : decodeSession dateParse darwin realpath source id with
        | error error =>
          have decodes := @decodeSession_decodes dateParse darwin realpath source id
          rw [decoding] at decodes
          have conditions : Loadable dateParse darwin realpath (some files) id ↔
              runChecks (storedChecks dateParse darwin source id) ≠ none := by
            simp [Loadable, stored, decoding]
          rw [conditions]
          simp only [readAlone, readSession, Function.update_self, Option.bind_some, stored,
            decoding]
          cases decodes with
          | raised checks => simp [Settled, checks]
          | invalid checks => simp [Settled, checks]
          | unsupported checks reason => simp [Settled, checks]
        | ok decoded => exact settled_decoded stored decoding

/-! ## All directories -/

theorem readSessions_alone (storage : Storage) (ids : List JsString) (distinct : ids.Nodup) :
    (readSessions dateParse darwin realpath storage ids).2 =
        ids.map (fun id => (readAlone dateParse darwin realpath (storage id) id).2) ∧
      (∀ id ∈ ids, (readSessions dateParse darwin realpath storage ids).1 id =
        (readAlone dateParse darwin realpath (storage id) id).1) ∧
      ∀ id, id ∉ ids → (readSessions dateParse darwin realpath storage ids).1 id = storage id := by
  induction ids generalizing storage with
  | nil => simp [readSessions]
  | cons first rest inductionHypothesis =>
    obtain ⟨fresh, others⟩ := List.nodup_cons.mp distinct
    have later {id : JsString} (member : id ∈ rest) (value : Option SessionFiles) :
        Function.update storage first value id = storage id := by
      apply Function.update_of_ne
      rintro rfl
      exact fresh member
    obtain ⟨outcomes, files, untouched⟩ := inductionHypothesis
      (Function.update storage first (readAlone dateParse darwin realpath (storage first) first).1)
      others
    simp only [readSessions, readSession_alone]
    refine ⟨?_, ?_, ?_⟩
    · rw [outcomes, List.map_cons]
      congr 1
      apply List.map_congr_left
      intro id member
      rw [later member]
    · intro id member
      obtain rfl | member := List.mem_cons.mp member
      · rw [untouched id fresh, Function.update_self]
      · rw [files id member, later member]
    · intro id absent
      obtain ⟨other, absent⟩ := not_or.mp (mt List.mem_cons.mpr absent)
      rw [untouched id absent, Function.update_of_ne other]

theorem rejection_settled {entry after : Option SessionFiles} {outcome : Outcome}
    (settled : Settled entry after outcome) : outcome.rejection = none := by
  cases outcome with
  | rejected error => cases settled
  | _ => rfl

/-- The sessions of a daemon are loaded independently of one another just if no directory
fails the load. -/
theorem load_isolated (storage : Storage) (ids : List JsString) (distinct : ids.Nodup) :
    Isolated dateParse darwin realpath storage ids ↔
      ∀ id ∈ ids, Loadable dateParse darwin realpath (storage id) id := by
  obtain ⟨outcomes, files, others⟩ :=
    @readSessions_alone dateParse darwin realpath storage ids distinct
  constructor
  · intro isolated id member
    exact (settled_iff (storage id) id).mp (isolated.settled id member)
  · intro loadable
    have settled : ∀ id ∈ ids, Settled (storage id)
        (readAlone dateParse darwin realpath (storage id) id).1
        (readAlone dateParse darwin realpath (storage id) id).2 := fun id member =>
      (settled_iff (storage id) id).mpr (loadable id member)
    refine ⟨?_, outcomes, files, settled, others⟩
    have accepted : (readSessions dateParse darwin realpath storage ids).2.findSome?
        Outcome.rejection = none := by
      rw [outcomes, List.findSome?_eq_none_iff]
      intro outcome member
      obtain ⟨id, listed, rfl⟩ := List.mem_map.mp member
      exact rejection_settled (settled id listed)
    simp only [loadSessions, accepted]
    exact ⟨_, rfl⟩

/-- Two session directories: one holds a session that wrote a letter, the other holds what is
given. -/
def letterBeside (files : SessionFiles) : Storage := fun id =>
  if id = js "s" then some (letterFiles true) else if id = js "t" then some files else none

theorem letter_loadable :
    Loadable parseNewYear false some (some (letterFiles true)) (js "s") := by
  rw [loadable_decoded rfl (decode_checked some (letter_checked true))]
  intro directory chunks _
  have current : legacyVersion (toV2Session ((letterRecord true).refreshed false)) = none := by
    decide +kernel
  simp only [Rewritable, current]
  exact .inr trivial

/-- A session is loaded beside a directory whose metadata are no JSON. -/
theorem load_isolated_letter :
    Isolated parseNewYear false some (letterBeside ⟨some none, [], none⟩)
      [js "s", js "t"] := by
  refine (load_isolated _ _ (by decide)).mpr ?_
  intro id member
  obtain rfl | rfl : id = js "s" ∨ id = js "t" := by simpa using member
  · exact letter_loadable
  · intro files found source stored
    have kept : files = ⟨some none, [], none⟩ := by
      have different : js "t" ≠ js "s" := by decide
      simpa [letterBeside, different] using found.symm
    rw [kept] at stored
    cases stored

/-- A record whose tombstone has an object with a `toString` of its own in place of a name. -/
def unprintable : Js :=
  record [("recordVersion", some (.int 2)),
    ("state", some (record [("child", some (record [("pid", some (.int 0))])),
      ("termination", some (record [("requested", some (.bool false)),
        ("confirmed", some (.bool false))])),
      ("timedOut", some (.bool false)), ("streamDrain", some (.text "unknown")),
      ("legacy", some (record [("tombstone", some (record
        [("sourceRecordVersion", some (.int 0)),
          ("lastKnown", some (.obj [("toString", .null)]))]))]))]))]

/-- The same session is not loaded beside such a record: the whole load is rejected. -/
theorem load_rejected_beside :
    (loadSessions parseNewYear false some
      (letterBeside ⟨some (some unprintable), [], none⟩) [js "t", js "s"]).2 =
        .error .typeError := by
  have checks : runChecks (storedChecks parseNewYear false unprintable (js "t")) = none := by
    decide +kernel
  have decodes := @decodeSession_decodes parseNewYear false some unprintable (js "t")
  have raised : decodeSession parseNewYear false some unprintable (js "t") =
      .error .typeError := by
    cases decoding : decodeSession parseNewYear false some unprintable (js "t") with
    | error error =>
      rw [decoding] at decodes
      cases decodes with
      | raised => rfl
      | invalid quiet => exact absurd checks quiet
      | unsupported quiet => exact absurd checks quiet
    | ok decoded =>
      rw [decoding] at decodes
      cases decodes with
      | legacy _ _ quiet => exact absurd checks quiet
      | current quiet => exact absurd checks quiet
  have different : js "t" ≠ js "s" := by decide
  have rejected : readSession parseNewYear false some
      (letterBeside ⟨some (some unprintable), [], none⟩) (js "t") =
        (letterBeside ⟨some (some unprintable), [], none⟩, .rejected .typeError) := by
    simp [readSession, letterBeside, different, raised]
  simp only [loadSessions, readSessions, rejected, List.findSome?_cons, Outcome.rejection]

end OpencodePty.SessionLoading
