import OpencodePty.SessionRoundTrip

/-!
# What the checks of a record amount to

The checks of the flat view and those of the tagged state are stated here as one fact for each
group of fields, and so is what they leave unchanged: which fields may change in a record
that is accepted so that it is still accepted.
-/

namespace OpencodePty.SessionCodec

open OpencodePty.JsValues OpencodePty.Lifecycle OpencodePty.RecordChecks OpencodePty.OutputJournal

/-! ## The flat view -/

section Flat

variable (dateParse : JsString → Option Int)

/-- The view of a current record that is checked like one of version 1. -/
def versioned (read : View) : View := fun key =>
  if key = "recordVersion" then some (.int 1) else read key

/-- What a view of a record must have to pass the checks of the flat view. -/
structure Compatible (read : View) (id : JsString) : Prop where
  identity : validIdentity (versioned read) id .v1 = true
  lifecycle : validLifecycleFields dateParse read .v1 = true
  output : validOutputFields read .v1 = true
  execution : validExecution read .v1 = true
  containment : runChecks (containmentChecks dateParse (read "containment")) = some true
  termination : runChecks (terminationChecks dateParse (read "termination")) = some true
  storageFailure : optional validText (read "storageFailure") = true
  diagnostics : optional validDiagnostics (read "diagnostics") = true
  lastWaitResult : validWait dateParse (read "lastWaitResult") = true
  tombstone : runChecks (tombstoneChecks true (read "legacyTombstone")) = some true
  cleanupPending : optional isBoolean (read "legacyOutputCleanupPending") = true
  tombstoneFits : tombstoneAgrees read = true
  authorityFits : authorityAgrees read = true
  cleanupFits : cleanupAgrees read = true
  sequencesFit : sequencesAgree dateParse read = true
  streamDrain : optional (isOneOf · ["drained", "unknown"]) (read "streamDrain") = true
  lastKnown : optional (isOneOf · lastKnownNames) (read "lastKnown") = true

theorem compatible_iff (read : View) (id : JsString) :
    runChecks (compatibilityChecks dateParse read id) = some true ↔
      Compatible dateParse read id := by
  have lifecycle : validLifecycleFields dateParse (versioned read) .v1 =
      validLifecycleFields dateParse read .v1 := by
    simp only [validLifecycleFields, versioned, String.reduceEq, if_false]
  have output : validOutputFields (versioned read) .v1 = validOutputFields read .v1 := by
    simp only [validOutputFields, versioned, String.reduceEq, if_false]
  have execution : validExecution (versioned read) .v1 = validExecution read .v1 := by
    simp only [validExecution, versioned, String.reduceEq, if_false]
  have tombstone : tombstoneAgrees (versioned read) = tombstoneAgrees read := by
    simp only [tombstoneAgrees, versioned, String.reduceEq, if_false]
  have authority : authorityAgrees (versioned read) = authorityAgrees read := by
    simp only [authorityAgrees, versioned, String.reduceEq, if_false]
  have cleanup : cleanupAgrees (versioned read) = cleanupAgrees read := by
    simp only [cleanupAgrees, versioned, String.reduceEq, if_false]
  have sequences : sequencesAgree dateParse (versioned read) = sequencesAgree dateParse read := by
    simp only [sequencesAgree, versioned, String.reduceEq, if_false]
  have plainFields : ∀ key, key ≠ "recordVersion" → versioned read key = read key :=
    fun key other => if_neg other
  have empty : runChecks [] = some true := rfl
  change runChecks (sessionChecks dateParse (versioned read) id .v1 true ++ _) = some true ↔ _
  simp (disch := decide) only [sessionChecks, List.cons_append, List.append_assoc,
    List.nil_append, runChecks_plain, runChecks_append, empty, and_true, Bool.and_eq_true,
    lifecycle, output, execution, tombstone, authority, cleanup, sequences, plainFields]
  constructor
  · rintro ⟨⟨⟨⟨identity, lifecycle⟩, output⟩, execution⟩, containment, termination,
      ⟨⟨storageFailure, diagnostics⟩, lastWaitResult⟩, tombstone,
      ⟨⟨⟨⟨⟨cleanupPending, _⟩, tombstoneHolds⟩, authorityHolds⟩, cleanupHolds⟩, sequencesHold⟩,
      streamDrain, lastKnown⟩
    exact ⟨identity, lifecycle, output, execution, containment, termination, storageFailure,
      diagnostics, lastWaitResult, tombstone, cleanupPending, tombstoneHolds, authorityHolds,
      cleanupHolds, sequencesHold, streamDrain, lastKnown⟩
  · intro fits
    exact ⟨⟨⟨⟨fits.identity, fits.lifecycle⟩, fits.output⟩, fits.execution⟩, fits.containment,
      fits.termination, ⟨⟨fits.storageFailure, fits.diagnostics⟩, fits.lastWaitResult⟩,
      fits.tombstone, ⟨⟨⟨⟨⟨fits.cleanupPending, rfl⟩, fits.tombstoneFits⟩,
      fits.authorityFits⟩, fits.cleanupFits⟩, fits.sequencesFit⟩, fits.streamDrain,
      fits.lastKnown⟩

variable {dateParse} {read changed : View} {id : JsString}

/-- The fields of a record that describe its journal. -/
def journalNames : List String :=
  ["nextSequence", "firstRetainedSequence", "outputBytes", "outputTruncated", "lineCount",
    "outputHasPartialLine", "outputJournalVersion"]

/-- A record may take another description of its journal. -/
theorem Compatible.journal (fits : Compatible dateParse read id)
    (same : ∀ key, key ∉ journalNames → changed key = read key)
    (output : validOutputFields changed .v1 = true)
    (sequences : sequencesAgree dateParse changed = true) : Compatible dateParse changed id where
  identity := by
    have identity := fits.identity
    simp only [validIdentity, validOwner, versioned, String.reduceEq, if_false] at identity ⊢
    simpa (disch := decide) only [same] using identity
  lifecycle := by
    have lifecycle := fits.lifecycle
    simp only [validLifecycleFields] at lifecycle ⊢
    simpa (disch := decide) only [same] using lifecycle
  output := output
  execution := by
    have execution := fits.execution
    simp only [validExecution] at execution ⊢
    simpa (disch := decide) only [same] using execution
  containment := by simpa (disch := decide) only [same] using fits.containment
  termination := by simpa (disch := decide) only [same] using fits.termination
  storageFailure := by simpa (disch := decide) only [same] using fits.storageFailure
  diagnostics := by simpa (disch := decide) only [same] using fits.diagnostics
  lastWaitResult := by simpa (disch := decide) only [same] using fits.lastWaitResult
  tombstone := by simpa (disch := decide) only [same] using fits.tombstone
  cleanupPending := by simpa (disch := decide) only [same] using fits.cleanupPending
  tombstoneFits := by
    have agrees := fits.tombstoneFits
    simp only [tombstoneAgrees] at agrees ⊢
    simpa (disch := decide) only [same] using agrees
  authorityFits := by
    have agrees := fits.authorityFits
    simp only [authorityAgrees] at agrees ⊢
    simpa (disch := decide) only [same] using agrees
  cleanupFits := by
    have agrees := fits.cleanupFits
    simp only [cleanupAgrees] at agrees ⊢
    simpa (disch := decide) only [same] using agrees
  sequencesFit := sequences
  streamDrain := by simpa (disch := decide) only [same] using fits.streamDrain
  lastKnown := by simpa (disch := decide) only [same] using fits.lastKnown

theorem whenTruthy_cases (value : Option Js) : whenTruthy value = none ∨ whenTruthy value = value := by
  cases truthful : truthy value with
  | true => exact .inr ((whenTruthy_eq_iff value).mpr (.inr truthful))
  | false => exact .inl (whenTruthy_falsy truthful)

/-- The fields of the flat view that a refresh may change in a record that is accepted. -/
def refreshedNames : List String :=
  ["termination", "storageFailure", "streamDrain", "lastKnown", "legacyOutputCleanupPending",
    "pendingCleanup"]

/-- A record may be refreshed. -/
theorem Compatible.refresh (fits : Compatible dateParse read id)
    (same : ∀ key, key ∉ refreshedNames → changed key = read key)
    (termination : changed "termination" = whenTruthy (read "termination"))
    (storageFailure : changed "storageFailure" = whenTruthy (read "storageFailure"))
    (streamDrain : optional (isOneOf · ["drained", "unknown"]) (changed "streamDrain") = true)
    (lastKnown : optional (isOneOf · lastKnownNames) (changed "lastKnown") = true)
    (cleanup : changed "legacyOutputCleanupPending" =
      if truthy (read "legacyOutputCleanupPending") then some (.bool true) else none)
    (boolean : optional isBoolean (changed "pendingCleanup") = true)
    (pending : (read "legacyTombstone").isSome = true →
      isBool (changed "pendingCleanup") true = true) : Compatible dateParse changed id where
  identity := by
    have identity := fits.identity
    simp only [validIdentity, validOwner, versioned, String.reduceEq, if_false] at identity ⊢
    simpa (disch := decide) only [same] using identity
  lifecycle := by
    have lifecycle := fits.lifecycle
    simp only [validLifecycleFields, Bool.and_eq_true] at lifecycle ⊢
    simp (disch := decide) only [same]
    tauto
  output := by
    have output := fits.output
    simp only [validOutputFields] at output ⊢
    simpa (disch := decide) only [same] using output
  execution := by
    have execution := fits.execution
    simp only [validExecution] at execution ⊢
    simpa (disch := decide) only [same] using execution
  containment := by simpa (disch := decide) only [same] using fits.containment
  termination := by
    obtain dropped | kept := whenTruthy_cases (read "termination")
    · rw [termination, dropped]
      rfl
    · rw [termination, kept]
      exact fits.termination
  storageFailure := by
    obtain dropped | kept := whenTruthy_cases (read "storageFailure")
    · rw [storageFailure, dropped]
      rfl
    · rw [storageFailure, kept]
      exact fits.storageFailure
  diagnostics := by simpa (disch := decide) only [same] using fits.diagnostics
  lastWaitResult := by simpa (disch := decide) only [same] using fits.lastWaitResult
  tombstone := by simpa (disch := decide) only [same] using fits.tombstone
  cleanupPending := by
    rw [cleanup]
    split <;> rfl
  tombstoneFits := by
    have agrees := fits.tombstoneFits
    simp only [tombstoneAgrees, Bool.or_eq_true, Bool.and_eq_true] at agrees ⊢
    simp (disch := decide) only [same]
    obtain absent | ⟨⟨⟨⟨lost, conversation⟩, _⟩, unconfirmed⟩, running⟩ := agrees
    · exact .inl absent
    · cases buried : (read "legacyTombstone").isSome with
      | true => exact .inr ⟨⟨⟨⟨lost, conversation⟩, pending buried⟩, unconfirmed⟩, running⟩
      | false => exact .inl (by simpa using buried)
  authorityFits := by
    have agrees := fits.authorityFits
    simp only [authorityAgrees] at agrees ⊢
    simpa (disch := decide) only [same] using agrees
  cleanupFits := by
    have agrees := fits.cleanupFits
    have known := fits.cleanupPending
    simp only [cleanupAgrees, Bool.or_eq_true, Bool.and_eq_true] at agrees ⊢
    simp (disch := decide) only [same, cleanup]
    obtain unset | set := agrees
    · left
      split
      next requested =>
        -- a boolean that is truthy is `true`
        cases stored : read "legacyOutputCleanupPending" with
        | none =>
          rw [stored] at requested
          cases requested
        | some value =>
          rw [stored] at requested known unset
          cases value with
          | bool flag =>
            cases flag with
            | true => simp [isBool] at unset
            | false => cases requested
          | _ => simp [RecordChecks.optional, isBoolean] at known
      next => rfl
    · exact .inr set
  sequencesFit := by
    have agrees := fits.sequencesFit
    simp only [sequencesAgree] at agrees ⊢
    simpa (disch := decide) only [same] using agrees
  streamDrain := streamDrain
  lastKnown := lastKnown

theorem whenTruthy_object {value : Js} (object : value.isObject = true) :
    whenTruthy (some value) = some value := by
  rw [whenTruthy_eq_iff]
  right
  cases value with
  | arr | obj => rfl
  | _ => cases object

theorem optionalObject_kept {check : View → Bool} {value : Option Js}
    (passes : optionalObject check value = true) : whenTruthy value = value := by
  cases value with
  | none => rfl
  | some present =>
    simp only [optionalObject, Bool.and_eq_true] at passes
    exact whenTruthy_object passes.1

/-- The members of the evidence that a refresh drops where they are falsy, and that an
accepted record has only as objects. -/
structure Objects (flat : LifecycleProjection) : Prop where
  containment : whenTruthy flat.containment = flat.containment
  exitReason : whenTruthy flat.exitReason = flat.exitReason
  worker : whenTruthy flat.worker = flat.worker
  workerPrestart : whenTruthy flat.workerPrestart = flat.workerPrestart
  execOutput : whenTruthy flat.execOutput = flat.execOutput
  diagnostics : whenTruthy flat.diagnostics = flat.diagnostics
  lastWaitResult : whenTruthy flat.lastWaitResult = flat.lastWaitResult
  legacyTombstone : whenTruthy flat.legacyTombstone = flat.legacyTombstone

theorem read_flat (record : SessionRecord) {key : String} (flat : key ∈ lifecycleFields) :
    record.read key = flatField record.flat key := by
  simp [SessionRecord.read, flat]

theorem read_metadata (record : SessionRecord) {key : String} (other : key ∉ lifecycleFields) :
    record.read key = record.metadata.fields.lookup key := by
  simp [SessionRecord.read, other]

theorem Compatible.objects {record : SessionRecord} (fits : Compatible dateParse record.read id) :
    Objects record.flat where
  containment := by
    have passes : runChecks (containmentChecks dateParse record.flat.containment) = some true :=
      fits.containment
    cases stored : record.flat.containment with
    | none => rfl
    | some value =>
      rw [stored, containmentChecks, runChecks_plain] at passes
      exact whenTruthy_object passes.1
  exitReason := by
    have lifecycle := fits.lifecycle
    simp only [validLifecycleFields, Bool.and_eq_true] at lifecycle
    exact optionalObject_kept lifecycle.2
  worker := by
    have execution := fits.execution
    simp only [validExecution, Bool.and_eq_true] at execution
    exact optionalObject_kept execution.1.1.2
  workerPrestart := by
    have execution := fits.execution
    simp only [validExecution, Bool.and_eq_true] at execution
    exact optionalObject_kept execution.1.2
  execOutput := by
    have execution := fits.execution
    simp only [validExecution, Bool.and_eq_true] at execution
    exact optionalObject_kept execution.1.1.1.2
  diagnostics := by
    have passes : RecordChecks.optional validDiagnostics record.flat.diagnostics = true :=
      fits.diagnostics
    cases stored : record.flat.diagnostics with
    | none => rfl
    | some value =>
      rw [stored] at passes
      cases value with
      | arr items => rfl
      | _ => cases passes
  lastWaitResult := optionalObject_kept fits.lastWaitResult
  legacyTombstone := by
    have passes : runChecks (tombstoneChecks true record.flat.legacyTombstone) = some true :=
      fits.tombstone
    cases stored : record.flat.legacyTombstone with
    | none => rfl
    | some value =>
      rw [stored, tombstoneChecks, runChecks_plain, Bool.and_eq_true] at passes
      exact whenTruthy_object passes.1.1

/-- A tombstone stands only in the record of a lost session that is to be cleaned up. -/
theorem Compatible.buried {record : SessionRecord} (fits : Compatible dateParse record.read id)
    (buried : record.flat.legacyTombstone.isSome = true) :
    isText record.flat.status "lost" = true ∧ isBool record.flat.pendingCleanup true = true := by
  have agrees := fits.tombstoneFits
  simp only [tombstoneAgrees, Bool.or_eq_true, Bool.and_eq_true] at agrees
  obtain absent | ⟨⟨⟨⟨lost, _⟩, pending⟩, _⟩, _⟩ := agrees
  · have unburied : record.flat.legacyTombstone.isNone = true := absent
    simp_all
  · exact ⟨lost, pending⟩

end Flat

end OpencodePty.SessionCodec
