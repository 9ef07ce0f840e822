import OpencodePty.MigrationWrites
import OpencodePty.RefreshedEvidence
import OpencodePty.Transitions

/-!
# Interrupted migrations

An old session may be loaded any number of times, and each load may stop after any number of its
writes. What such a run leaves is one of a few stages: the old metadata with a part of the new
journal, the written metadata with or without the old output, and the metadata without the note
that the old output is still to be removed. A load that runs to its end from any of these stages
leaves what the first load would have left.
-/

namespace OpencodePty.SessionLoading

open OpencodePty.JsValues OpencodePty.Lifecycle OpencodePty.RecordChecks OpencodePty.OutputJournal
  OpencodePty.RefreshedEvidence OpencodePty.SessionCodec OpencodePty.TextEncodings
  OpencodePty.Transitions

variable {dateParse : JsString → Option Int} {darwin : Bool}
  {realpath : JsString → Option JsString} {source : Js} {id : JsString} {version : LegacyVersion}

/-! ## What is decoded from an old record -/

/-- What is decoded from an old record that passes its checks. -/
def legacySession (darwin : Bool) (source : Js) (version : LegacyVersion) : DecodedSession where
  record := legacyRecord darwin source version
  forceMetadataWrite := true
  importLegacyOutput := version == .v0 && !isInt (source.get "outputJournalVersion") 2
  removeLegacyOutput := legacyCleanup source version

/-- What is known of an old record that is decoded. -/
structure LegacyDecoded (dateParse : JsString → Option Int) (darwin : Bool) (source : Js)
    (id : JsString) (version : LegacyVersion) (decoded : DecodedSession) : Prop where
  session : decoded = legacySession darwin source version
  fits : Compatible dateParse decoded.record.read id
  agrees : tombstoneAgrees source.get = true

/-- The old output of a record is still to be removed. -/
def Marked (record : SessionRecord) : Prop :=
  isBool record.flat.legacyOutputCleanupPending true = true

/-- A refresh takes the evidence of a terminal state, and of one that is cleaned up, from the flat
view. -/
theorem refresh_evidence {state : SessionState} (flat : LifecycleProjection)
    (settled : state.isCleaning = true ∨ ∃ outcome evidence, state = .terminal outcome evidence) :
    (refreshSessionState darwin state flat).evidence = observedEvidence flat := by
  apply refreshed_rebuilt
  rintro ⟨_, ⟨kind, evidence, rfl⟩ | ⟨known, terminal, evidence, rfl⟩⟩
  · obtain impossible | ⟨_, _, impossible⟩ := settled <;> cases impossible
  · obtain impossible | ⟨_, _, impossible⟩ := settled <;> cases impossible

/-- The note that a refreshed record carries. -/
theorem refreshed_mark {record : SessionRecord}
    (evidence : (record.refreshed darwin).state.evidence = observedEvidence record.flat) :
    (record.refreshed darwin).flat.legacyOutputCleanupPending =
      if truthy record.flat.legacyOutputCleanupPending then some (.bool true) else none := by
  have members := (observedLegacy_members record.flat.legacyTombstone
    record.flat.legacyOutputCleanupPending).2
  rw [← members]
  have projected : (record.refreshed darwin).flat.legacyOutputCleanupPending =
    (record.refreshed darwin).state.evidence.legacy.bind Legacy.outputCleanupPending := rfl
  rw [projected, evidence]
  rfl

/-- A state that claims to be terminal is terminal or cleaned up. -/
theorem claims_settled {state : SessionState} (claims : (stateView state).claims = true) :
    state.isCleaning = true ∨ ∃ outcome evidence, state = .terminal outcome evidence := by
  cases state with
  | active kind evidence => cases kind <;> cases claims
  | terminal outcome evidence => exact .inr ⟨outcome, evidence, rfl⟩
  | unreachable => cases claims
  | cleaning => exact .inl rfl

section Accepted

variable {record : SessionRecord}

/-- The note of an accepted record is the value `true`, or there is none. -/
theorem accepted_mark (accepted : Accepted dateParse darwin record id) :
    truthy record.flat.legacyOutputCleanupPending = true ↔ Marked record := by
  have flag : record.flat.legacyOutputCleanupPending =
      record.state.evidence.legacy.bind Legacy.outputCleanupPending := by
    rw [accepted.projected]
    rfl
  unfold Marked
  rw [flag]
  cases held : record.state.evidence.legacy with
  | none => decide
  | some legacy =>
    have known := (accepted.valid.legacy legacy held).cleanup
    rw [Option.bind_some]
    cases stored : legacy.outputCleanupPending with
    | none => decide
    | some value =>
      rw [stored] at known
      rw [isBool_iff.mp known]
      decide

/-- Once the note is gone, it does not come back. -/
theorem unmarked_refreshed (accepted : Accepted dateParse darwin record id)
    (marked : Marked record) : ¬ Marked ((unmarked record).refreshed darwin) := by
  have flag : isBool (record.state.evidence.legacy.bind Legacy.outputCleanupPending) true =
      true := by
    rw [Marked, accepted.projected] at marked
    exact marked
  have claims := accepted.valid.cleanup flag
  have evidence : ((unmarked record).refreshed darwin).state.evidence =
      observedEvidence (unmarked record).flat :=
    refresh_evidence (unmarked record).flat (claims_settled claims)
  have none : (unmarked record).flat.legacyOutputCleanupPending = none := rfl
  rw [Marked, refreshed_mark evidence, none]
  decide

end Accepted

/-! ## Loads of written metadata -/

/-- Metadata that were written for a session, beside the journal that they describe. -/
structure Settling (dateParse : JsString → Option Int) (darwin : Bool)
    (realpath : JsString → Option JsString) (id : JsString) (base : SessionRecord)
    (chunks : List OutputChunk) (directory : Directory) (record : SessionRecord)
    (persisted : Js) : Prop where
  accepted : Accepted dateParse darwin record id
  decodes : decodeSession dateParse darwin realpath persisted id =
    .ok ⟨record, false, false, isBool record.flat.legacyOutputCleanupPending true⟩
  reconciled : Reconciled dateParse record base chunks
  read : readOutputChunks dateParse directory = .ok chunks

section Settling

variable {base record : SessionRecord} {chunks : List OutputChunk} {directory : Directory}
  {persisted : Js}

/-- What a load makes of written metadata. -/
theorem Settling.migrates (settling : Settling dateParse darwin realpath id base chunks directory
    record persisted) (log : Option (List Char)) :
    migrateSession dateParse darwin
        ⟨record, false, false, isBool record.flat.legacyOutputCleanupPending true⟩
        ⟨some (some persisted), directory, log⟩ =
      .ok (settleLegacy dateParse darwin
        ⟨record, false, false, isBool record.flat.legacyOutputCleanupPending true⟩
        (⟨some (some persisted), directory, log⟩, .ok record)) := by
  have retained := @Reconciled.retain dateParse base ⟨some (some persisted), directory, log⟩ chunks
    record settling.reconciled settling.read
  simp only [migrateSession, retained, bind, Except.bind, writeMigrated,
    settling.reconciled.again, settling.reconciled.described]
  rfl

/-- What a load leaves of written metadata. -/
theorem Settling.loads (settling : Settling dateParse darwin realpath id base chunks directory
    record persisted) (log : Option (List Char)) :
    readAlone dateParse darwin realpath (some ⟨some (some persisted), directory, log⟩) id =
      if isBool record.flat.legacyOutputCleanupPending true then
        let removed := removeLegacy dateParse darwin
          ⟨some (some persisted), directory, log⟩ record
        (some removed.1, .returned removed.2)
      else (some ⟨some (some persisted), directory, log⟩, .returned record) := by
  rw [readAlone_decoded rfl settling.decodes, settling.migrates log, settleLegacy]
  cases isBool record.flat.legacyOutputCleanupPending true <;> rfl

/-- The writes of such a load. -/
theorem Settling.writes (settling : Settling dateParse darwin realpath id base chunks directory
    record persisted) (log : Option (List Char)) :
    loadWrites dateParse darwin realpath (some ⟨some (some persisted), directory, log⟩) id =
      if isBool record.flat.legacyOutputCleanupPending true then
        (removalWrites dateParse darwin ⟨some (some persisted), directory, log⟩ record).map some
      else [] := by
  have retained := @Reconciled.retain dateParse base ⟨some (some persisted), directory, log⟩ chunks
    record settling.reconciled settling.read
  have untouched := @Reconciled.untouched dateParse base
    ⟨some (some persisted), directory, log⟩ chunks record settling.reconciled settling.read
  rw [loadWrites_decoded rfl settling.decodes, settling.migrates log]
  simp only [migrationWrites, untouched, retained, List.map_nil, List.nil_append, List.append_nil,
    metadataWrites, writeMigrated, settling.reconciled.again, settling.reconciled.described,
    Bool.not_true, Bool.or_self, Bool.false_eq_true, if_false, settleWrites]
  split <;> rfl

end Settling

/-! ## The written metadata of an old session -/

/-- A record that was written is accepted, and it is what is decoded from the metadata. -/
theorem write_accepted {base record : SessionRecord} {persisted : Js}
    (canonical : Canonical base.state) (named : base.id = id)
    (written : writeSession dateParse darwin base = .ok (record, persisted)) :
    Accepted dateParse darwin record id ∧
      decodeSession dateParse darwin realpath persisted id =
        .ok ⟨record, false, false, isBool record.flat.legacyOutputCleanupPending true⟩ := by
  have decodes := decode_written dateParse darwin realpath canonical written
  obtain ⟨same, persists, _, checked⟩ := (writeSession_ok dateParse darwin).mp written
  have refreshed : Canonical record.state := by
    rw [same]
    exact refresh_canonical darwin canonical base.flat
  have back : fromV2Session persisted = record := by
    rw [persists]
    exact fromV2Session_toV2Session refreshed (by rw [same]; rfl)
  have accepted := accepted_of_checks checked
  rw [back, named] at accepted
  rw [named] at decodes
  exact ⟨accepted, decodes⟩

/-- The state of a record that was converted from an old one takes its evidence from the flat
view, and its names are read of values. -/
theorem legacy_state {record : SessionRecord} (flat : record.flat = legacyFlat source version)
    (state : record.state = (legacyRecord darwin source version).state) :
    Canonical record.state ∧
      (record.refreshed darwin).state.evidence = observedEvidence record.flat := by
  by_cases ended : isOneOf (source.get "status") terminalNames = true
  · have follows := legacy_follows flat state ended
    refine ⟨follows.canonical (by rw [CanonicalOutcome, outcome_toJs]), ?_⟩
    rw [follows.refreshed, follows]
    exact terminalOrUnreachable_evidence darwin _ _ _
  · have built := legacy_unreachable flat state (Bool.eq_false_iff.mpr ended)
    constructor
    · rw [built]
      refine ⟨rfl, rfl, ?_, by simp⟩
      rw [CanonicalTarget, target_toJs]
    · apply refresh_evidence record.flat
      rw [built]
      exact .inl rfl

/-- The metadata of an old session were written with the journal that is retained. -/
structure Written (dateParse : JsString → Option Int) (darwin : Bool) (files : SessionFiles)
    (decoded : DecodedSession) (directory : Directory) (chunks : List OutputChunk)
    (record : SessionRecord) (persisted : Js) : Prop where
  retained : retainOutput dateParse decoded.record decoded.importLegacyOutput files =
    .ok (directory, chunks)
  accepted : writeSession dateParse darwin (reconcileSession decoded.record chunks) =
    .ok (record, persisted)

section Legacy

variable {files : SessionFiles} {decoded : DecodedSession} {directory : Directory}
  {chunks : List OutputChunk} {record last : SessionRecord} {persisted lastPersisted : Js}

theorem Written.settling (known : LegacyDecoded dateParse darwin source id version decoded)
    (written : Written dateParse darwin files decoded directory chunks record persisted) :
    Settling dateParse darwin realpath id decoded.record chunks directory record persisted := by
  obtain ⟨read, cursor⟩ := retainOutput_ok written.retained
  obtain ⟨follows, chunksKnown⟩ := readOutputChunks_read read
  have reconciled := reconciled_compatible known.fits follows chunksKnown cursor
  have converted : decoded.record = legacyRecord darwin source version := by
    rw [known.session]
    rfl
  have canonical := (@legacy_state darwin source version decoded.record (by rw [converted]; rfl)
    (by rw [converted])).1
  obtain ⟨accepted, decodes⟩ := @write_accepted dateParse darwin realpath id
    (reconcileSession decoded.record chunks) _ _ canonical (compatible_id reconciled)
    written.accepted
  obtain ⟨same, _⟩ := (writeSession_ok dateParse darwin).mp written.accepted
  refine ⟨accepted, decodes, ?_, read⟩
  exact
    { metadata := by rw [same]; rfl
      fits := ⟨id, known.fits⟩
      follows := follows
      known := chunksKnown
      cursor := cursor
      retained := fun drop => retained_gone written.retained drop }

/-- The metadata are also in order after the note was removed. -/
theorem Settling.unmark {base : SessionRecord}
    (settling : Settling dateParse darwin realpath id base chunks directory record persisted)
    (cleared : writeSession dateParse darwin (unmarked record) = .ok (last, lastPersisted)) :
    Settling dateParse darwin realpath id base chunks directory last lastPersisted := by
  have named : (unmarked record).id = id := by
    rw [← compatible_id settling.accepted.fits]
    simp [SessionRecord.id, SessionRecord.read, unmarked, lifecycleFields]
  obtain ⟨accepted, decodes⟩ := @write_accepted dateParse darwin realpath id (unmarked record) _ _
    settling.accepted.canonical named cleared
  obtain ⟨same, _⟩ := (writeSession_ok dateParse darwin).mp cleared
  refine ⟨accepted, decodes, ?_, settling.read⟩
  exact { settling.reconciled with
    metadata := by
      rw [same]
      exact settling.reconciled.metadata }

/-! ## Stages -/

/-- What a run of interrupted loads leaves of the directory of an old session. -/
inductive Stage (dateParse : JsString → Option Int) (darwin : Bool) (files : SessionFiles)
    (decoded : DecodedSession) : Option SessionFiles → Prop where
  | old (between : Directory)
      (same : retainOutput dateParse decoded.record decoded.importLegacyOutput
          { files with output := between } =
        retainOutput dateParse decoded.record decoded.importLegacyOutput files)
      (keeps : Keeps dateParse decoded.record decoded.importLegacyOutput
        { files with output := between }) :
      Stage dateParse darwin files decoded (some { files with output := between })
  | quarantined (error : JournalError)
      (refused : retainOutput dateParse decoded.record decoded.importLegacyOutput files =
        .error error) :
      Stage dateParse darwin files decoded none
  | written {directory : Directory} {chunks : List OutputChunk} {record : SessionRecord}
      {persisted : Js}
      (written : Written dateParse darwin files decoded directory chunks record persisted) :
      Stage dateParse darwin files decoded
        (some ⟨some (some persisted), directory, files.legacyOutput⟩)
  | removed {directory : Directory} {chunks : List OutputChunk} {record : SessionRecord}
      {persisted : Js}
      (written : Written dateParse darwin files decoded directory chunks record persisted)
      (due : decoded.removeLegacyOutput = true ∨ Marked record) :
      Stage dateParse darwin files decoded (some ⟨some (some persisted), directory, none⟩)
  | cleared {directory : Directory} {chunks : List OutputChunk} {record last : SessionRecord}
      {persisted lastPersisted : Js}
      (written : Written dateParse darwin files decoded directory chunks record persisted)
      (marked : Marked record)
      (again : writeSession dateParse darwin (unmarked record) = .ok (last, lastPersisted)) :
      Stage dateParse darwin files decoded (some ⟨some (some lastPersisted), directory, none⟩)

/-- The removal of the old output leads to one of the last two stages. -/
theorem Written.removes (known : LegacyDecoded dateParse darwin source id version decoded)
    (written : Written dateParse darwin files decoded directory chunks record persisted)
    (due : decoded.removeLegacyOutput = true ∨ Marked record) (log : Option (List Char))
    {next : SessionFiles}
    (member : next ∈ removalWrites dateParse darwin ⟨some (some persisted), directory, log⟩
      record) :
    Stage dateParse darwin files decoded (some next) := by
  have settling := @Written.settling dateParse darwin (fun _ => none) _ _ _ _ _ _ _ _ _ known
    written
  obtain rfl | later := List.mem_cons.mp member
  · exact .removed written due
  · split at later
    next marked =>
      split at later
      next last lastPersisted cleared =>
        rw [List.mem_singleton] at later
        rw [later]
        exact .cleared written ((accepted_mark settling.accepted).mp marked) cleared
      next => cases later
    next => cases later

/-- A load of the old metadata writes one stage after the other. -/
theorem old_step (known : LegacyDecoded dateParse darwin source id version decoded)
    (decodes : decodeSession dateParse darwin realpath source id = .ok decoded)
    (stored : files.metadata = some (some source)) (between : Directory)
    (same : retainOutput dateParse decoded.record decoded.importLegacyOutput
        { files with output := between } =
      retainOutput dateParse decoded.record decoded.importLegacyOutput files)
    (keeps : Keeps dateParse decoded.record decoded.importLegacyOutput
      { files with output := between })
    {next : Option SessionFiles}
    (member : next ∈ loadWrites dateParse darwin realpath (some { files with output := between })
      id) : Stage dateParse darwin files decoded next := by
  have metadata : { files with output := between }.metadata = some (some source) := stored
  rw [loadWrites_decoded metadata decodes] at member
  obtain wrote | moved := List.mem_append.mp member
  · obtain ⟨left, listed, rfl⟩ := List.mem_map.mp wrote
    obtain journal | later := List.mem_append.mp listed
    · obtain ⟨directory, left, rfl⟩ := List.mem_map.mp journal
      obtain ⟨again, kept⟩ := retain_again keeps left
      exact .old directory (again.trans same) kept
    · rw [same] at later
      cases retained : retainOutput dateParse decoded.record decoded.importLegacyOutput files with
      | error error =>
        rw [retained] at later
        cases later
      | ok result =>
        obtain ⟨directory, chunks⟩ := result
        rw [retained] at later
        have forced : decoded.forceMetadataWrite = true := by
          rw [known.session]
          rfl
        simp only [metadataWrites, writeMigrated, forced, Bool.true_or, if_true] at later
        cases accepted : writeSession dateParse darwin
            (reconcileSession decoded.record chunks) with
        | error error =>
          rw [accepted] at later
          cases later
        | ok result =>
          obtain ⟨record, persisted⟩ := result
          have written : Written dateParse darwin files decoded directory chunks record persisted :=
            ⟨retained, accepted⟩
          rw [accepted] at later
          simp only [settleWrites, List.singleton_append] at later
          obtain rfl | removals := List.mem_cons.mp later
          · exact .written written
          · split at removals
            next due => exact written.removes known (.inl due) files.legacyOutput removals
            next => cases removals
  · split at moved
    next error failed =>
      rw [List.mem_singleton] at moved
      rw [moved]
      cases retained : retainOutput dateParse decoded.record decoded.importLegacyOutput files with
      | error error => exact .quarantined error retained
      | ok result =>
        simp only [migrateSession, same, retained, bind, Except.bind] at failed
        cases failed
    next => cases moved

/-- Every write of a load leads from one stage to another. -/
theorem Stage.step (known : LegacyDecoded dateParse darwin source id version decoded)
    (decodes : decodeSession dateParse darwin realpath source id = .ok decoded)
    (stored : files.metadata = some (some source)) {entry next : Option SessionFiles}
    (stage : Stage dateParse darwin files decoded entry)
    (member : next ∈ loadWrites dateParse darwin realpath entry id) :
    Stage dateParse darwin files decoded next := by
  cases stage with
  | old between same keeps => exact old_step known decodes stored between same keeps member
  | quarantined => cases member
  | written written =>
    rw [Settling.writes (written.settling known)] at member
    split at member
    next marked =>
      obtain ⟨left, removes, rfl⟩ := List.mem_map.mp member
      exact written.removes known (.inr marked) _ removes
    next => cases member
  | removed written due =>
    rw [Settling.writes (written.settling known)] at member
    split at member
    next marked =>
      obtain ⟨left, removes, rfl⟩ := List.mem_map.mp member
      exact written.removes known (.inr marked) _ removes
    next => cases member
  | cleared written marked again =>
    have settling := @Written.settling dateParse darwin realpath _ _ _ _ _ _ _ _ _ known written
    rw [Settling.writes (settling.unmark again)] at member
    have unset := unmarked_refreshed settling.accepted marked
    obtain ⟨same, _⟩ := (writeSession_ok dateParse darwin).mp again
    rw [← same, Marked] at unset
    rw [if_neg unset] at member
    cases member

/-- A load that writes the metadata returns their record. -/
theorem Written.loads (known : LegacyDecoded dateParse darwin source id version decoded)
    (decodes : decodeSession dateParse darwin realpath source id = .ok decoded)
    (stored : files.metadata = some (some source))
    (written : Written dateParse darwin files decoded directory chunks record persisted) :
    readAlone dateParse darwin realpath (some files) id =
      if decoded.removeLegacyOutput then
        let removed := removeLegacy dateParse darwin
          ⟨some (some persisted), directory, files.legacyOutput⟩ record
        (some removed.1, .returned removed.2)
      else (some ⟨some (some persisted), directory, files.legacyOutput⟩, .returned record) := by
  have forced : decoded.forceMetadataWrite = true := by
    rw [known.session]
    rfl
  have migrated : migrateSession dateParse darwin decoded files =
      .ok (settleLegacy dateParse darwin decoded
        (⟨some (some persisted), directory, files.legacyOutput⟩, .ok record)) := by
    simp only [migrateSession, written.retained, bind, Except.bind, writeMigrated, forced,
      Bool.true_or, if_true, written.accepted]
    rfl
  rw [readAlone_decoded stored decodes, migrated, settleLegacy]
  cases decoded.removeLegacyOutput <;> rfl

/-- The note of the written record is that of the converted one. -/
theorem Written.marked (known : LegacyDecoded dateParse darwin source id version decoded)
    (written : Written dateParse darwin files decoded directory chunks record persisted) :
    Marked record ↔
      isBool (legacyFlat source version).legacyOutputCleanupPending true = true := by
  obtain ⟨same, _⟩ := (writeSession_ok dateParse darwin).mp written.accepted
  have converted : decoded.record = legacyRecord darwin source version := by
    rw [known.session]
    rfl
  have flat : (reconcileSession decoded.record chunks).flat = legacyFlat source version := by
    rw [converted]
    rfl
  have evidence := (@legacy_state darwin source version (reconcileSession decoded.record chunks)
    flat (by rw [converted]; rfl)).2
  have boolean : RecordChecks.optional isBoolean
      (legacyFlat source version).legacyOutputCleanupPending = true := by
    have flag := known.fits.cleanupPending
    rw [read_flat _ (by decide), converted] at flag
    exact flag
  rw [Marked, same, refreshed_mark evidence, flat]
  cases held : (legacyFlat source version).legacyOutputCleanupPending with
  | none => decide
  | some value =>
    rw [held] at boolean
    cases value with
    | bool flag => cases flag <;> decide
    | _ => cases boolean

/-- An old record does not carry the note before its output is to be removed. -/
def Unnoted (source : Js) (version : LegacyVersion) : Prop :=
  legacyCleanup source version = true ∨
    isBool (source.get "legacyOutputCleanupPending") true = false

/-- The old output is removed by the load that writes the metadata just if it is by the next. -/
theorem Written.due (known : LegacyDecoded dateParse darwin source id version decoded)
    (written : Written dateParse darwin files decoded directory chunks record persisted)
    (unnoted : Unnoted source version) :
    decoded.removeLegacyOutput = isBool record.flat.legacyOutputCleanupPending true := by
  have marked := written.marked known
  have removes : decoded.removeLegacyOutput = legacyCleanup source version := by
    rw [known.session]
    rfl
  rw [Bool.eq_iff_iff, removes]
  rw [Marked] at marked
  rw [marked]
  cases cleanup : legacyCleanup source version with
  | true => simp [legacyFlat, cleanup, isBool]
  | false =>
    have unset := unnoted.resolve_left (Bool.eq_false_iff.mp cleanup)
    simp [legacyFlat, cleanup, unset]

end Legacy

end OpencodePty.SessionLoading
