import OpencodePty.LifecycleRuns
import OpencodePty.MigrationRuns

/-!
# Soundness of migrations

An old record is converted to a terminal one where its evidence proves the end of the session,
and otherwise to a tombstone, which no event of the lifecycle makes a running session again. A
record whose owner is not known is left as it is. Loads may be interrupted and repeated: the
session that is returned stays the same.

The old output is removed when the metadata of the current version are on the disk. Its text is
then in the journal where it was imported or was a part of the journal before. Where the journal of
an old record was not empty, the old output is removed without a comparison with that journal.
-/

namespace OpencodePty.SessionLoading

open OpencodePty.JsValues OpencodePty.Lifecycle OpencodePty.RecordChecks OpencodePty.OutputJournal
  OpencodePty.SessionCodec OpencodePty.TextEncodings OpencodePty.Transitions
  OpencodePty.LifecycleRuns
open OpencodePty.Timestamps (newYear parseNewYear)

variable {dateParse : JsString → Option Int} {darwin : Bool}
  {realpath : JsString → Option JsString} {source : Js} {id : JsString} {version : LegacyVersion}
  {files : SessionFiles} {decoded : DecodedSession}

/-! ## Tombstones -/

/-- A state that is cleaned up after its session became unreachable. -/
def Unreached (state : SessionState) : Prop :=
  ∃ known terminal evidence, state = .cleaning .unreachable .absent known terminal evidence

theorem refresh_unreached {state : SessionState} (unreached : Unreached state)
    (flat : LifecycleProjection) : Unreached (refreshSessionState darwin state flat) := by
  obtain ⟨known, terminal, evidence, rfl⟩ := unreached
  exact ⟨_, terminal, observedEvidence flat, rfl⟩

/-- The only event that such a state accepts leaves it as it is. -/
theorem reduce_unreached {state next : SessionState} {event : LifecycleEvent}
    (unreached : Unreached state) (reduced : reduceSessionState darwin state event = some next) :
    Unreached next := by
  obtain ⟨known, terminal, evidence, rfl⟩ := unreached
  cases event with
  | unreachable =>
    cases reduced
    exact ⟨_, _, _, rfl⟩
  | _ => cases reduced

theorem transition_unreached (state : SessionState)
    (observed : LifecycleProjection × LifecycleEvent) (unreached : Unreached state) :
    Unreached (transition darwin state observed) := by
  obtain reduced | same := transition_cases darwin state observed
  · exact reduce_unreached (refresh_unreached unreached observed.1) reduced
  · rw [same]
    exact unreached

/-- A record of a session that is to be cleaned up and is not known to have ended. -/
structure Tombstone (record : SessionRecord) : Prop where
  state : Unreached record.state
  status : isText record.flat.status "lost" = true
  pending : isBool record.flat.pendingCleanup true = true
  buried : record.flat.legacyTombstone.isSome = true
  lifecycle : isText (record.read "lifecycle") "conversation" = true

/-- No event makes a session with a tombstone run again. -/
theorem Tombstone.stays {record : SessionRecord} (tombstone : Tombstone record)
    (events : List (LifecycleProjection × LifecycleEvent)) :
    (run (transition darwin) record.state events).isCleaning = true ∧
      projectedStatus (run (transition darwin) record.state events) = some (.text "lost") := by
  have unreached : Unreached (run (transition darwin) record.state events) :=
    run_preserves transition_unreached record.state events tombstone.state
  obtain ⟨known, terminal, evidence, same⟩ := unreached
  rw [same]
  exact ⟨rfl, rfl⟩

/-! ## Converted records -/

section Written

variable {directory : Directory} {chunks : List OutputChunk} {record : SessionRecord}
  {persisted : Js}

/-- The converted record of a session whose end is not proven is cleaned up. -/
theorem unproven_state {base : SessionRecord} (flat : base.flat = legacyFlat source version)
    (state : base.state = (legacyRecord darwin source version).state)
    (agrees : tombstoneAgrees source.get = true) (fits : Compatible dateParse base.read base.id)
    (unproven : legacyTerminal source = false)
    (written : ∃ result, writeSession dateParse darwin base = .ok result) :
    Unreached (base.refreshed darwin).state := by
  by_cases ended : isOneOf (source.get "status") terminalNames = true
  · have allowed := (unproven_written flat state fits agrees ended unproven).mp written
    have built := (unproven_outcome flat state fits ended unproven).resolve_left
      fun ⟨_, failed⟩ => allowed failed
    apply refresh_unreached
    rw [built.1]
    exact ⟨_, _, _, rfl⟩
  · have built := legacy_unreachable flat state (Bool.eq_false_iff.mpr ended)
    apply refresh_unreached
    rw [built]
    exact ⟨_, _, _, rfl⟩

/-- An old session whose end is not proven belongs to its conversation. -/
theorem unproven_lifecycle (unproven : legacyTerminal source = false) :
    (legacyRecord darwin source version).read "lifecycle" = some (.text "conversation") := by
  rw [read_metadata _ (by decide)]
  simp only [legacyRecord, legacyMetadata, unproven, Bool.false_eq_true, if_false]
  refine (@lookup_filter _ (fun name => !reservedFields.contains name) "lifecycle"
    (by decide)).trans ?_
  rfl

/-- The written record of a session whose end is not proven is a tombstone. -/
theorem Written.tombstone (known : LegacyDecoded dateParse darwin source id version decoded)
    (written : Written dateParse darwin files decoded directory chunks record persisted)
    (unproven : legacyTerminal source = false) : Tombstone record := by
  obtain ⟨read, cursor⟩ := retainOutput_ok written.retained
  obtain ⟨follows, chunksKnown⟩ := readOutputChunks_read read
  have fits := reconciled_compatible known.fits follows chunksKnown cursor
  have converted : decoded.record = legacyRecord darwin source version := by
    rw [known.session]
    rfl
  have flat : (reconcileSession decoded.record chunks).flat = legacyFlat source version := by
    rw [converted]
    rfl
  have state : (reconcileSession decoded.record chunks).state =
      (legacyRecord darwin source version).state := by
    rw [converted]
    rfl
  obtain ⟨same, _⟩ := (writeSession_ok dateParse darwin).mp written.accepted
  have named := compatible_id fits
  rw [← named] at fits
  have unreached : Unreached record.state := by
    rw [same]
    exact unproven_state flat state known.agrees fits unproven ⟨_, written.accepted⟩
  have evidence := (legacy_state flat state).2
  obtain ⟨kind, terminal, held, shown⟩ := unreached
  have projected : record.flat = projectSessionState record.state := by
    rw [same]
    rfl
  refine ⟨⟨kind, terminal, held, shown⟩, ?_, ?_, ?_, ?_⟩
  · rw [projected, shown]
    rfl
  · rw [projected, shown]
    rfl
  · have members := (observedLegacy_members
      (reconcileSession decoded.record chunks).flat.legacyTombstone
      (reconcileSession decoded.record chunks).flat.legacyOutputCleanupPending).1
    rw [fits.objects.legacyTombstone] at members
    have kept : record.flat.legacyTombstone =
        (reconcileSession decoded.record chunks).flat.legacyTombstone := by
      rw [projected, same, ← members]
      simp only [projectSessionState, evidence]
      rfl
    rw [kept, flat]
    simp only [legacyFlat, unproven, Bool.false_eq_true, if_false, legacyTombstone, orElse]
    split <;> rfl
  · have lifecycle : record.read "lifecycle" =
        (reconcileSession decoded.record chunks).read "lifecycle" := by
      rw [same, read_metadata _ (by decide), read_metadata _ (by decide)]
      rfl
    rw [lifecycle, read_reconciled_other chunks (by decide), converted,
      unproven_lifecycle unproven]
    rfl

end Written

/-! ## What is returned -/

/-- The metadata of a directory are those of a current record that passes its checks. -/
def Current (dateParse : JsString → Option Int) (darwin : Bool) (id : JsString)
    (files : SessionFiles) : Prop :=
  ∃ persisted, files.metadata = some (some persisted) ∧
    runChecks (v2Checks dateParse darwin persisted id) = some true

/-- What a write of a migration leaves: the metadata and the old output that were there, or
current metadata. -/
def Advances (dateParse : JsString → Option Int) (darwin : Bool) (id : JsString)
    (files next : SessionFiles) : Prop :=
  next.metadata = files.metadata ∧ next.legacyOutput = files.legacyOutput ∨
    Current dateParse darwin id next ∧
      (next.legacyOutput = files.legacyOutput ∨ next.legacyOutput = none)

end OpencodePty.SessionLoading
