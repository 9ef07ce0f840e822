import Mathlib.Tactic.MkIffOfInductiveProp
import OpencodePty.Lifecycle

/-!
# Evidence after a refresh

A refresh rebuilds the evidence of a state from a flat view. Where the flat view asks for a cleanup
that the state is not in yet, and the state is not terminal, the new evidence is spread over the old
one instead: what the flat view no longer has is then shown from the old evidence.

Absent fields and empty ones are the same in a flat view, where the refresh tests a field for being
truthy; a stream that is not said to be drained is shown as unknown.
-/

namespace OpencodePty.RefreshedEvidence

open OpencodePty.JsValues OpencodePty.Lifecycle

/-- Two flat views agree on the evidence, where empty values are taken for absent ones. -/
@[mk_iff]
structure EvidenceAgrees (shown record : LifecycleProjection) : Prop where
  pid : shown.pid = record.pid
  directChildExited : shown.directChildExited = record.directChildExited
  startedAt : shown.startedAt = record.startedAt
  exitedAt : shown.exitedAt = record.exitedAt
  timedOut : shown.timedOut = record.timedOut
  terminationRequested : shown.terminationRequested = record.terminationRequested
  terminationConfirmed : shown.terminationConfirmed = record.terminationConfirmed
  termination : whenTruthy shown.termination = whenTruthy record.termination
  containment : whenTruthy shown.containment = whenTruthy record.containment
  exitCode : shown.exitCode = record.exitCode
  exitSignal : shown.exitSignal = record.exitSignal
  exitReason : whenTruthy shown.exitReason = whenTruthy record.exitReason
  worker : whenTruthy shown.worker = whenTruthy record.worker
  workerPrestart : whenTruthy shown.workerPrestart = whenTruthy record.workerPrestart
  workerStartAttempted : shown.workerStartAttempted = record.workerStartAttempted
  streamDrain : orElse shown.streamDrain (some (.text "unknown")) =
    orElse record.streamDrain (some (.text "unknown"))
  execOutput : whenTruthy shown.execOutput = whenTruthy record.execOutput
  storageFailure : whenTruthy shown.storageFailure = whenTruthy record.storageFailure
  diagnostics : whenTruthy shown.diagnostics = whenTruthy record.diagnostics
  lastWaitResult : whenTruthy shown.lastWaitResult = whenTruthy record.lastWaitResult
  legacyTombstone : whenTruthy shown.legacyTombstone = whenTruthy record.legacyTombstone
  legacyOutputCleanupPending :
    truthy shown.legacyOutputCleanupPending = truthy record.legacyOutputCleanupPending

/-- The flat view asks for a cleanup, and the state is neither terminal nor in a cleanup. -/
def Merged (state : SessionState) (record : LifecycleProjection) : Prop :=
  truthy record.pendingCleanup = true ∧
    ((∃ kind evidence, state = .active kind evidence) ∨
      ∃ known terminal evidence, state = .unreachable known terminal evidence)

/-- A legacy object says something. -/
def Legacy.Filled (legacy : Legacy) : Prop :=
  truthy legacy.tombstone = true ∨ truthy legacy.outputCleanupPending = true

/-- Whatever the old evidence has the flat view has as well, among what a flat view may lack. -/
@[mk_iff]
structure NothingStale (stored : Evidence) (record : LifecycleProjection) : Prop where
  startedAt : stored.startedAt.isSome → record.startedAt.isSome
  exitedAt : stored.exitedAt.isSome → record.exitedAt.isSome
  containment : truthy stored.containment → truthy record.containment
  exitCode : stored.exitCode.isSome → record.exitCode.isSome
  exitSignal : stored.exitSignal.isSome → record.exitSignal.isSome
  exitReason : truthy stored.exitReason → truthy record.exitReason
  worker : truthy stored.worker → truthy record.worker
  prestart : truthy stored.prestart → truthy record.workerPrestart
  startAttempted : stored.startAttempted.isSome → record.workerStartAttempted.isSome
  execOutput : truthy stored.execOutput → truthy record.execOutput
  storageFailure : truthy stored.storageFailure → truthy record.storageFailure
  diagnostics : truthy stored.diagnostics → truthy record.diagnostics
  lastWaitResult : truthy stored.lastWaitResult → truthy record.lastWaitResult
  legacy : (∃ legacy, stored.legacy = some legacy ∧ Legacy.Filled legacy) →
    truthy record.legacyTombstone ∨ truthy record.legacyOutputCleanupPending

/-! ## The evidence of a refreshed state -/

theorem toCleaning_evidence (state : SessionState) : (toCleaning state).evidence = state.evidence := by
  cases state <;> rfl

variable {darwin : Bool} {state : SessionState} {record : LifecycleProjection}

theorem refreshed_merged (merged : Merged state record) :
    (refreshSessionState darwin state record).evidence =
      state.evidence.spread (observedEvidence record) := by
  obtain ⟨pending, ⟨kind, evidence, rfl⟩ | ⟨known, terminal, evidence, rfl⟩⟩ := merged
  · simp only [refreshSessionState, pending, if_true, toCleaning_evidence]
    rfl
  · simp only [refreshSessionState, pending, if_true, toCleaning_evidence]
    rfl

theorem refreshed_rebuilt (rebuilt : ¬ Merged state record) :
    (refreshSessionState darwin state record).evidence = observedEvidence record := by
  cases state with
  | active kind evidence =>
    have calm : truthy record.pendingCleanup = false :=
      Bool.eq_false_iff.mpr fun pending => rebuilt ⟨pending, Or.inl ⟨kind, evidence, rfl⟩⟩
    simp only [refreshSessionState, calm, Bool.false_eq_true, if_false]
    rfl
  | unreachable known terminal evidence =>
    have calm : truthy record.pendingCleanup = false :=
      Bool.eq_false_iff.mpr fun pending =>
        rebuilt ⟨pending, Or.inr ⟨known, terminal, evidence, rfl⟩⟩
    simp only [refreshSessionState, calm, Bool.false_eq_true, if_false]
    rfl
  | terminal outcome evidence =>
    simp only [refreshSessionState]
    split
    · rw [toCleaning_evidence]
      split <;> rfl
    · split <;> rfl
  | cleaning target outcome known terminal evidence =>
    simp only [refreshSessionState]
    cases target with
    | terminal => exact terminalOrUnreachable_evidence darwin _ _ _
    | _ => rfl

/-! ## Fields -/

theorem carried_iff {observed stored : Option Js} :
    (observed <|> stored) = observed ↔ (stored.isSome → observed.isSome) := by
  cases observed <;> cases stored <;> simp

theorem whenTruthy_falsy {value : Option Js} (falsy : truthy value = false) :
    whenTruthy value = none := by
  cases value with
  | none => rfl
  | some value =>
    have plain : value.truthy = false := falsy
    rw [whenTruthy, Option.filter_some, plain]
    rfl

theorem whenTruthy_truthy {value : Option Js} (filled : truthy value = true) :
    ∃ present, value = some present ∧ whenTruthy value = some present := by
  cases value with
  | none => contradiction
  | some value =>
    have plain : value.truthy = true := filled
    refine ⟨value, rfl, ?_⟩
    rw [whenTruthy, Option.filter_some, plain]
    rfl

theorem whenTruthy_again (value : Option Js) : whenTruthy (whenTruthy value) = whenTruthy value := by
  simp [whenTruthy, Option.filter_filter]

theorem whenTruthy_none_iff {value : Option Js} : whenTruthy value = none ↔ truthy value = false := by
  constructor
  · intro nothing
    by_contra filled
    obtain ⟨present, _, kept⟩ := whenTruthy_truthy (Bool.not_eq_false _ ▸ filled)
    rw [nothing] at kept
    contradiction
  · exact whenTruthy_falsy

/-- A field that is tested for being truthy is spread without loss where the old value has none to
add. -/
theorem whenTruthy_carried_iff {observed stored : Option Js} :
    whenTruthy (whenTruthy observed <|> stored) = whenTruthy observed ↔
      (truthy stored = true → truthy observed = true) := by
  by_cases filled : truthy observed = true
  · obtain ⟨present, rfl, kept⟩ := whenTruthy_truthy filled
    have first : (some present <|> stored) = some present := rfl
    rw [kept, first, kept]
    exact iff_of_true rfl fun _ => filled
  · have falsy := Bool.eq_false_iff.mpr filled
    have second : (none <|> stored) = stored := rfl
    rw [whenTruthy_falsy falsy, second, whenTruthy_none_iff, falsy]
    simp

/-- Both fields of a legacy object that is spread agree with those it is made from where an old
object has nothing to say, or a new one is made. -/
theorem legacy_carried_iff {tombstone pending : Option Js} {stored : Option Legacy} :
    (whenTruthy ((observedLegacy tombstone pending <|> stored).bind Legacy.tombstone) =
          whenTruthy tombstone ∧
        truthy ((observedLegacy tombstone pending <|> stored).bind Legacy.outputCleanupPending) =
          truthy pending) ↔
      ((∃ legacy, stored = some legacy ∧ Legacy.Filled legacy) →
        truthy tombstone = true ∨ truthy pending = true) := by
  by_cases made : truthy tombstone = true ∨ truthy pending = true
  · have first : (observedLegacy tombstone pending <|> stored) =
        some ⟨whenTruthy tombstone, if truthy pending then some (.bool true) else none⟩ := by
      rw [observedLegacy, if_pos (by simpa using made)]
      rfl
    refine iff_of_true ?_ fun _ => made
    rw [first]
    refine ⟨?_, ?_⟩
    · exact whenTruthy_again tombstone
    · cases truthy pending <;> rfl
  · obtain ⟨noTombstone, notPending⟩ := not_or.mp made
    have second : (observedLegacy tombstone pending <|> stored) = stored := by
      rw [observedLegacy, if_neg (by simpa using made)]
      rfl
    have falsy := Bool.eq_false_iff.mpr noTombstone
    have calm := Bool.eq_false_iff.mpr notPending
    rw [second, whenTruthy_falsy falsy, calm, whenTruthy_none_iff]
    cases stored with
    | none => simp [truthy]
    | some legacy => simp [Legacy.Filled, falsy]

theorem orElse_again (value fallback : Option Js) :
    orElse (orElse value fallback) fallback = orElse value fallback := by
  cases value with
  | none => cases fallback with
    | none => rfl
    | some fallback => cases fallback <;> rfl
  | some value => cases value <;> cases fallback with
    | none => rfl
    | some fallback => cases fallback <;> rfl

/-! ## Flat views -/

/-- Evidence that is spread over old evidence is shown as the flat view has it where nothing of the
old one is left. -/
theorem agrees_spread {stored : Evidence}
    (spread : state.evidence = stored.spread (observedEvidence record)) :
    EvidenceAgrees (projectSessionState state) record ↔ NothingStale stored record := by
  rw [evidenceAgrees_iff, nothingStale_iff]
  simp only [projectSessionState, spread, Evidence.spread, observedEvidence, carried_iff,
    whenTruthy_carried_iff, whenTruthy_again, orElse_again, true_and]
  rw [← legacy_carried_iff]

theorem spread_empty (observed : Evidence) : Evidence.empty.spread observed = observed := by
  have kept {α : Type} (value : Option α) : (value <|> none) = value := by cases value <;> rfl
  simp only [Evidence.spread, Evidence.empty, kept]

/-- Nothing is stale beside evidence without members. -/
theorem nothingStale_empty (record : LifecycleProjection) : NothingStale Evidence.empty record := by
  rw [nothingStale_iff]
  simp [Evidence.empty, truthy]

/-- The refreshed state shows the evidence of the flat view, unless that asks for a cleanup of a
state that is neither terminal nor in one, and the state has evidence that the flat view lacks. -/
theorem refresh_agrees_iff (darwin : Bool) (state : SessionState) (record : LifecycleProjection) :
    EvidenceAgrees (projectSessionState (refreshSessionState darwin state record)) record ↔
      (Merged state record → NothingStale state.evidence record) := by
  by_cases merged : Merged state record
  · rw [agrees_spread (refreshed_merged merged)]
    exact ⟨fun clean _ => clean, fun clean => clean merged⟩
  · have rebuilt : (refreshSessionState darwin state record).evidence = observedEvidence record :=
      refreshed_rebuilt merged
    rw [← spread_empty (observedEvidence record)] at rebuilt
    rw [agrees_spread rebuilt]
    exact iff_of_true (nothingStale_empty record) fun impossible => absurd impossible merged

/-- A session that runs, whose journal could not be written once. -/
def failedSession : SessionState :=
  .active .running { Evidence.empty with
    pid := some (.int 4711), timedOut := some (.bool false)
    terminationRequested := some (.bool false), terminationConfirmed := some (.bool false)
    streamDrain := some (.text "unknown"), storageFailure := some (.text "ENOSPC") }

/-- A flat view of it that is to be cleaned up, and has no failure any more. -/
def recoveredRecord : LifecycleProjection :=
  { projectSessionState failedSession with
    pendingCleanup := some (.bool true), storageFailure := none }

/-- The old failure is shown again. -/
theorem refresh_keeps_failure :
    ¬ EvidenceAgrees (projectSessionState (refreshSessionState false failedSession recoveredRecord))
      recoveredRecord := by
  intro agrees
  have shown := agrees.storageFailure
  simp [projectSessionState, refreshSessionState, failedSession, recoveredRecord, truthy, Js.truthy,
    toCleaning, SessionState.evidence, Evidence.spread, observedEvidence, whenTruthy, Js.text, js,
    encode, encodeChar] at shown

end OpencodePty.RefreshedEvidence
