import OpencodePty.SessionCodec

/-!
# Round trips of the codec

What is written is read back as the same record. Refreshing a state from its own projection
changes nothing just where the refresh has not taken over a member of the evidence that it would
have dropped: one that is falsy, or a legacy object without content, in a state that is to be
cleaned up from now on.
-/

namespace OpencodePty.SessionCodec

open OpencodePty.JsValues OpencodePty.Lifecycle OpencodePty.RecordChecks
open OpencodePty.Timestamps (newYear parseNewYear)

/-! ## Reading back a state -/

/-- The value of the outcome is read as the outcome itself. -/
def CanonicalOutcome (outcome : TerminalSessionOutcome) : Prop :=
  TerminalSessionOutcome.ofJs outcome.toJs = outcome

/-- The value of the kind is read as the kind itself. -/
def CanonicalTarget (target : SessionStateTarget) : Prop :=
  SessionStateTarget.ofJs target.toJs = target

/-- No tag of the state is represented as a foreign value although it has a name. Every
declared state is one of these, and every state that is read. -/
def Canonical : SessionState → Prop
  | .active _ _ => True
  | .terminal outcome _ => CanonicalOutcome outcome
  | .unreachable known terminal _ =>
    CanonicalTarget known ∧ ∀ payload ∈ terminal, CanonicalOutcome payload.outcome
  | .cleaning target outcome known terminal _ =>
    CanonicalTarget target ∧ CanonicalOutcome outcome ∧ CanonicalTarget known ∧
      ∀ payload ∈ terminal, CanonicalOutcome payload.outcome

/-- The evidence has each field once. -/
theorem evidenceFields_distinct (evidence : Evidence) :
    ((evidenceFields evidence).map Prod.fst).Nodup := by
  simp [evidenceFields]

/-- A state has each field once. -/
theorem stateFields_distinct (state : SessionState) :
    ((stateFields state).map Prod.fst).Nodup := by
  simp [stateFields, evidenceFields]

/-- Each field of a state is read back from its JSON. -/
theorem get_stateJson (state : SessionState) (key : String) :
    (stateJson state).get key = ((stateFields state).lookup key).join :=
  get_record _ key (stateFields_distinct state)

/-- What is kept of an older record is read back. -/
theorem readLegacy_legacyJson (legacy : Legacy) : readLegacy (legacyJson legacy) = legacy := by
  have distinct : ([("tombstone", legacy.tombstone),
      ("outputCleanupPending", legacy.outputCleanupPending)].map Prod.fst).Nodup := by simp
  simp [readLegacy, legacyJson, get_record _ _ distinct, List.lookup_cons]

/-- Reading the evidence from a view that has its fields. -/
theorem readEvidence_of_fields (evidence : Evidence) {read : View}
    (fields : ∀ key ∈ (evidenceFields evidence).map Prod.fst,
      read key = ((evidenceFields evidence).lookup key).join) :
    readEvidence read = evidence := by
  have child : field (read "child") "pid" = evidence.pid ∧
      field (read "child") "directExited" = evidence.directExited := by
    rw [fields "child" (by simp [evidenceFields])]
    have distinct : ([("pid", evidence.pid), ("directExited", evidence.directExited)].map
      Prod.fst).Nodup := by simp
    simp [evidenceFields, field, get_record _ _ distinct, List.lookup_cons]
  have termination : field (read "termination") "requested" = evidence.terminationRequested ∧
      field (read "termination") "confirmed" = evidence.terminationConfirmed ∧
      field (read "termination") "result" = evidence.terminationResult := by
    rw [fields "termination" (by simp [evidenceFields])]
    have distinct : ([("requested", evidence.terminationRequested),
      ("confirmed", evidence.terminationConfirmed), ("result", evidence.terminationResult)].map
      Prod.fst).Nodup := by simp
    simp [evidenceFields, field, get_record _ _ distinct, List.lookup_cons]
  have legacy : (read "legacy").map readLegacy = evidence.legacy := by
    rw [fields "legacy" (by simp [evidenceFields])]
    cases stored : evidence.legacy with
    | none => simp [evidenceFields, List.lookup_cons, stored]
    | some legacy => simp [evidenceFields, List.lookup_cons, stored, readLegacy_legacyJson]
  simp only [readEvidence, child.1, child.2, termination.1, termination.2.1, termination.2.2,
    legacy]
  simp [fields, evidenceFields, List.lookup_cons]

/-- The properties of a remembered outcome. -/
theorem get_payload (payload : TerminalSessionPayload) :
    (payloadJson payload).get "outcome" = payload.outcome.toJs ∧
      (payloadJson payload).get "evidence" = some (record (evidenceFields payload.evidence)) := by
  have distinct : ([("outcome", payload.outcome.toJs),
      ("evidence", some (record (evidenceFields payload.evidence)))].map Prod.fst).Nodup := by simp
  simp [payloadJson, get_record _ _ distinct, List.lookup_cons]

/-- A remembered end is read back. -/
theorem readPayload_payloadJson {payload : TerminalSessionPayload}
    (canonical : CanonicalOutcome payload.outcome) :
    readPayload (payloadJson payload) = payload := by
  obtain ⟨outcome, evidence⟩ := get_payload payload
  have read : readEvidence (fun key => field ((payloadJson payload).get "evidence") key) =
      payload.evidence := by
    apply readEvidence_of_fields
    intro key _
    rw [evidence]
    exact get_record _ key (evidenceFields_distinct payload.evidence)
  rw [readPayload, outcome, read, canonical]

/-- A remembered end is read back, where there is one. -/
theorem map_readPayload {remembered : Option TerminalSessionPayload}
    (each : ∀ payload ∈ remembered, CanonicalOutcome payload.outcome) :
    (remembered.map payloadJson).map readPayload = remembered := by
  cases remembered with
  | none => rfl
  | some payload => exact congrArg some (readPayload_payloadJson (each payload rfl))

/-- The tags of a state among its properties. -/
theorem get_tags (state : SessionState) :
    (stateJson state).get "kind" = (tags state).kind ∧
      (stateJson state).get "target" = (tags state).target ∧
      (stateJson state).get "outcome" = (tags state).outcome ∧
      (stateJson state).get "lastKnown" = (tags state).lastKnown ∧
      (stateJson state).get "terminal" = (tags state).terminal := by
  simp [get_stateJson, stateFields, evidenceFields, List.lookup_cons]

/-- The evidence of a state among its properties. -/
theorem get_evidence (state : SessionState) {key : String}
    (member : key ∈ (evidenceFields state.evidence).map Prod.fst) :
    (stateJson state).get key = ((evidenceFields state.evidence).lookup key).join := by
  rw [get_stateJson, stateFields, List.lookup_append]
  cases found : (evidenceFields state.evidence).lookup key with
  | some value => rfl
  | none =>
    rw [List.lookup_eq_none_iff] at found
    obtain ⟨entry, listed, rfl⟩ := List.mem_map.mp member
    have absent := found entry listed
    simp at absent

/-- A state is read back as it was written. -/
theorem readState_stateJson {state : SessionState} (canonical : Canonical state) :
    readState (stateJson state) = state := by
  obtain ⟨kindRead, targetRead, outcomeRead, knownRead, terminalRead⟩ := get_tags state
  have evidence : readEvidence (stateJson state).get = state.evidence :=
    readEvidence_of_fields state.evidence fun key member => get_evidence state member
  unfold readState
  rw [evidence, kindRead, targetRead, outcomeRead, knownRead, terminalRead]
  cases state with
  | active kind evidence => cases kind <;> rfl
  | terminal outcome evidence =>
    simp only [tags]
    rw [canonical]
    rfl
  | unreachable known remembered evidence =>
    obtain ⟨knownCanonical, each⟩ := canonical
    simp only [tags]
    rw [knownCanonical, map_readPayload each]
    rfl
  | cleaning target outcome known remembered evidence =>
    obtain ⟨targetCanonical, outcomeCanonical, knownCanonical, each⟩ := canonical
    simp only [tags]
    rw [targetCanonical, outcomeCanonical, knownCanonical, map_readPayload each]
    rfl

/-! ## Refreshing from the own projection -/

/-- The cleanup of a canonical state is canonical. -/
theorem toCleaning_canonical {state : SessionState} (canonical : Canonical state) :
    Canonical (toCleaning state) := by
  cases state with
  | active kind evidence =>
    refine ⟨?_, rfl, rfl, by simp⟩
    cases kind <;> rfl
  | terminal outcome evidence => exact ⟨rfl, canonical, rfl, by simp⟩
  | unreachable known remembered evidence => exact ⟨rfl, rfl, canonical.1, canonical.2⟩
  | cleaning target outcome known remembered evidence => exact canonical

/-- The end of a canonical state is canonical. -/
theorem terminalOrUnreachable_canonical (darwin : Bool) (state : SessionState)
    {outcome : TerminalSessionOutcome} (canonical : CanonicalOutcome outcome) (cleaning : Bool) :
    Canonical (terminalOrUnreachable darwin state outcome cleaning) := by
  have payload : ∀ payload ∈ some (⟨outcome, state.evidence⟩ : TerminalSessionPayload),
      CanonicalOutcome payload.outcome := by
    intro payload member
    cases member
    exact canonical
  simp only [terminalOrUnreachable]
  split_ifs
  · exact ⟨rfl, canonical, rfl, by simp⟩
  · exact canonical
  · exact ⟨rfl, rfl, rfl, payload⟩
  · exact ⟨rfl, payload⟩

/-- A refreshed state has no tags but those it had, and named ones. -/
theorem refresh_canonical (darwin : Bool) {state : SessionState} (canonical : Canonical state)
    (record : LifecycleProjection) :
    Canonical (refreshSessionState darwin state record) := by
  cases state with
  | active kind stored =>
    simp only [refreshSessionState]
    split
    · exact toCleaning_canonical trivial
    · trivial
  | terminal outcome stored =>
    have settled : Canonical (if terminalProven darwin (.terminal outcome (observedEvidence record))
        then SessionState.terminal outcome (observedEvidence record)
        else .unreachable .terminal (some ⟨outcome, observedEvidence record⟩)
          (observedEvidence record)) :=
      terminalOrUnreachable_canonical darwin (.terminal outcome (observedEvidence record)) canonical
        false
    simp only [refreshSessionState]
    split
    · exact toCleaning_canonical settled
    · exact settled
  | unreachable known remembered stored =>
    simp only [refreshSessionState]
    split
    · exact toCleaning_canonical canonical
    · exact canonical
  | cleaning target outcome known remembered stored =>
    obtain ⟨targetCanonical, outcomeCanonical, knownCanonical, each⟩ := canonical
    simp only [refreshSessionState]
    split
    · exact terminalOrUnreachable_canonical darwin _ outcomeCanonical true
    · refine ⟨targetCanonical, ?_, ?_, each⟩
      · split
        · exact outcomeCanonical
        · rfl
      · split
        · exact knownCanonical
        · rfl

/-- The object keeps what it has where it has content, and each of its members is one that
a refresh keeps. -/
def FilledLegacy (legacy : Legacy) : Prop :=
  (truthy legacy.tombstone = true ∨ truthy legacy.outputCleanupPending = true) ∧
    (legacy.tombstone = none ∨ truthy legacy.tombstone = true) ∧
    (legacy.outputCleanupPending = none ∨ legacy.outputCleanupPending = some (.bool true))

/-- A member that is taken over from the stored evidence where the observed one is falsy is
itself not falsy. -/
def Kept (stored observed : Option Js) : Prop :=
  truthy observed = true ∨ stored = none ∨ truthy stored = true

/-- Every member that a refresh takes over from the stored evidence is one that a refresh
keeps. -/
structure Carried (stored : Evidence) (record : LifecycleProjection) : Prop where
  containment : Kept stored.containment record.containment
  exitReason : Kept stored.exitReason record.exitReason
  worker : Kept stored.worker record.worker
  prestart : Kept stored.prestart record.workerPrestart
  execOutput : Kept stored.execOutput record.execOutput
  storageFailure : Kept stored.storageFailure record.storageFailure
  diagnostics : Kept stored.diagnostics record.diagnostics
  lastWaitResult : Kept stored.lastWaitResult record.lastWaitResult
  legacy : truthy record.legacyTombstone = true ∨
    truthy record.legacyOutputCleanupPending = true ∨ ∀ legacy ∈ stored.legacy, FilledLegacy legacy

/-- A refresh of the state from the flat view takes over nothing that the next refresh drops:
no cleanup is requested of a state that may still run or cannot be reached, or what is taken
over is kept. -/
def Steady (state : SessionState) (record : LifecycleProjection) : Prop :=
  match state with
  | .active _ stored => truthy record.pendingCleanup = true → Carried stored record
  | .unreachable known _ stored =>
    truthy record.pendingCleanup = true →
      Carried stored record ∧ (known = .absent ∨ truthy known.toJs = true)
  | _ => True

/-- The legacy object that an observed one gives rise to. -/
def settledLegacy (legacy : Legacy) : Option Legacy :=
  observedLegacy legacy.tombstone legacy.outputCleanupPending

/-- The evidence that is observed in the projection of a state with the given evidence. -/
def settled (evidence : Evidence) : Evidence :=
  { evidence with
    terminationResult := whenTruthy evidence.terminationResult
    containment := whenTruthy evidence.containment
    exitReason := whenTruthy evidence.exitReason
    worker := whenTruthy evidence.worker
    prestart := whenTruthy evidence.prestart
    streamDrain := orElse evidence.streamDrain (some (.text "unknown"))
    execOutput := whenTruthy evidence.execOutput
    storageFailure := whenTruthy evidence.storageFailure
    diagnostics := whenTruthy evidence.diagnostics
    lastWaitResult := whenTruthy evidence.lastWaitResult
    legacy := evidence.legacy.bind settledLegacy }

/-- What is observed of the projection of a state is its evidence, settled. -/
theorem observed_project (state : SessionState) :
    observedEvidence (projectSessionState state) = settled state.evidence := by
  cases legacy : state.evidence.legacy with
  | none => simp [observedEvidence, projectSessionState, settled, legacy, observedLegacy, truthy]
  | some stored =>
    simp [observedEvidence, projectSessionState, settled, legacy, settledLegacy]

/-- What is falsy is left out. -/
theorem whenTruthy_falsy {value : Option Js} (falsy : truthy value = false) :
    whenTruthy value = none := by
  cases value with
  | none => rfl
  | some present => simpa [whenTruthy, truthy] using falsy

/-- It is left out once and for all. -/
theorem whenTruthy_idem (value : Option Js) : whenTruthy (whenTruthy value) = whenTruthy value := by
  simp [whenTruthy, Option.filter_filter]

/-- A value that is filled in is filled in once and for all. -/
theorem orElse_idem (value fallback : Option Js) :
    orElse (orElse value fallback) fallback = orElse value fallback := by
  have fallbackKept : orElse fallback fallback = fallback := by
    cases fallback with
    | none => rfl
    | some present => cases present <;> rfl
  cases value with
  | none => exact fallbackKept
  | some present =>
    cases present with
    | null => exact fallbackKept
    | _ => rfl

/-- A value is kept where it is truthy, and where there is none. -/
theorem whenTruthy_eq_iff (value : Option Js) :
    whenTruthy value = value ↔ value = none ∨ truthy value = true := by
  cases value with
  | none => simp [whenTruthy]
  | some present => simp [whenTruthy, truthy]

/-- A legacy object is settled just if it is filled. -/
theorem settledLegacy_iff (legacy : Legacy) :
    settledLegacy legacy = some legacy ↔ FilledLegacy legacy := by
  obtain ⟨tombstone, pending⟩ := legacy
  have flag : (if truthy pending = true then some (Js.bool true) else none) = pending ↔
      pending = none ∨ pending = some (.bool true) := by
    constructor
    · intro kept
      split at kept
      · exact .inr kept.symm
      · exact .inl kept.symm
    · rintro (rfl | rfl) <;> rfl
  simp only [settledLegacy, observedLegacy, FilledLegacy, Bool.or_eq_true]
  split
  next filled => simp [filled, flag, whenTruthy_eq_iff]
  next empty => simp [empty]

/-- An observed legacy object is filled. -/
theorem observedLegacy_filled {tombstone pending : Option Js} {legacy : Legacy}
    (observed : observedLegacy tombstone pending = some legacy) : FilledLegacy legacy := by
  rw [← settledLegacy_iff]
  unfold observedLegacy at observed
  split at observed
  next filled =>
    cases observed
    have kept : truthy (whenTruthy tombstone) = truthy tombstone := by
      cases tombstone with
      | none => rfl
      | some value => cases value : Js.truthy value <;> simp [whenTruthy, truthy, value]
    have flag : truthy (if truthy pending = true then some (Js.bool true) else none) =
        truthy pending := by
      cases truthy pending <;> rfl
    simp only [settledLegacy, observedLegacy, kept, flag, filled, whenTruthy_idem, if_true]
  next => cases observed

/-- What is kept of an older record stays where it is filled. -/
theorem bind_settledLegacy {legacy : Option Legacy} :
    legacy.bind settledLegacy = legacy ↔ ∀ stored ∈ legacy, FilledLegacy stored := by
  cases legacy with
  | none => simp
  | some stored => simp [settledLegacy_iff]

/-- What was observed is settled. -/
theorem settled_observed (record : LifecycleProjection) :
    settled (observedEvidence record) = observedEvidence record := by
  have legacy : (observedLegacy record.legacyTombstone record.legacyOutputCleanupPending).bind
      settledLegacy = observedLegacy record.legacyTombstone record.legacyOutputCleanupPending :=
    bind_settledLegacy.mpr fun stored observed => observedLegacy_filled observed
  simp only [settled, observedEvidence, whenTruthy_idem, orElse_idem, legacy]

/-- A stored value stays just where it is kept. -/
theorem kept_iff (stored observed : Option Js) :
    whenTruthy (whenTruthy observed <|> stored) = (whenTruthy observed <|> stored) ↔
      Kept stored observed := by
  cases present : truthy observed with
  | true =>
    obtain ⟨value, rfl⟩ : ∃ value, observed = some value := by
      cases observed with
      | none => cases present
      | some value => exact ⟨value, rfl⟩
    have kept := (whenTruthy_eq_iff (some value)).mpr (.inr present)
    simp [Kept, present, kept]
  | false =>
    have dropped := whenTruthy_falsy present
    simp [Kept, present, dropped, whenTruthy_eq_iff]

/-- What a refresh takes over from the stored evidence is settled just if it is kept. -/
theorem settled_spread (stored : Evidence) (record : LifecycleProjection) :
    settled (stored.spread (observedEvidence record)) = stored.spread (observedEvidence record) ↔
      Carried stored record := by
  have legacy : ((observedLegacy record.legacyTombstone record.legacyOutputCleanupPending <|>
        stored.legacy).bind settledLegacy =
      (observedLegacy record.legacyTombstone record.legacyOutputCleanupPending <|>
        stored.legacy)) ↔
      truthy record.legacyTombstone = true ∨ truthy record.legacyOutputCleanupPending = true ∨
        ∀ legacy ∈ stored.legacy, FilledLegacy legacy := by
    rw [bind_settledLegacy]
    by_cases content : truthy record.legacyTombstone = true ∨
        truthy record.legacyOutputCleanupPending = true
    · obtain ⟨legacy, observed⟩ : ∃ legacy, observedLegacy record.legacyTombstone
          record.legacyOutputCleanupPending = some legacy := by
        simp [observedLegacy, content]
      have filled := observedLegacy_filled observed
      rw [observed, ← or_assoc]
      simp [content, filled]
    · have observed : observedLegacy record.legacyTombstone
          record.legacyOutputCleanupPending = none := by
        simpa [observedLegacy] using content
      rw [observed, ← or_assoc]
      simp [content]
  constructor
  · intro same
    simp only [settled, Evidence.spread, observedEvidence, Evidence.mk.injEq] at same
    obtain ⟨-, -, -, -, -, -, -, -, containment, -, -, exitReason, worker, prestart, -, -,
      execOutput, storageFailure, diagnostics, lastWaitResult, legacySame⟩ := same
    exact
      { containment := (kept_iff _ _).mp containment
        exitReason := (kept_iff _ _).mp exitReason
        worker := (kept_iff _ _).mp worker
        prestart := (kept_iff _ _).mp prestart
        execOutput := (kept_iff _ _).mp execOutput
        storageFailure := (kept_iff _ _).mp storageFailure
        diagnostics := (kept_iff _ _).mp diagnostics
        lastWaitResult := (kept_iff _ _).mp lastWaitResult
        legacy := legacy.mp legacySame }
  · intro carried
    simp only [settled, Evidence.spread, observedEvidence, whenTruthy_idem, orElse_idem,
      (kept_iff _ _).mpr carried.containment, (kept_iff _ _).mpr carried.exitReason,
      (kept_iff _ _).mpr carried.worker, (kept_iff _ _).mpr carried.prestart,
      (kept_iff _ _).mpr carried.execOutput, (kept_iff _ _).mpr carried.storageFailure,
      (kept_iff _ _).mpr carried.diagnostics, (kept_iff _ _).mpr carried.lastWaitResult,
      legacy.mpr carried.legacy]

section Refresh

variable (darwin : Bool)

/-- A cleanup is pending just in a cleaning state. -/
theorem project_pendingCleanup (state : SessionState) :
    truthy (projectSessionState state).pendingCleanup = state.isCleaning := by
  cases state <;> rfl

/-- A state that is not cleaned up, refreshed from its own projection. -/
theorem refresh_own_active (kind : ActiveKind) (evidence : Evidence) :
    refreshSessionState darwin (.active kind evidence)
      (projectSessionState (.active kind evidence)) = .active kind (settled evidence) := by
  simp only [refreshSessionState, project_pendingCleanup, observed_project]
  rfl

/-- An unreachable state is refreshed to itself with its evidence settled. -/
theorem refresh_own_unreachable (known : SessionStateTarget)
    (terminal : Option TerminalSessionPayload) (evidence : Evidence) :
    refreshSessionState darwin (.unreachable known terminal evidence)
      (projectSessionState (.unreachable known terminal evidence)) =
        .unreachable known terminal (settled evidence) := by
  simp only [refreshSessionState, project_pendingCleanup, observed_project]
  rfl

/-- So is a terminal state that its evidence proves. -/
theorem refresh_own_terminal {outcome : TerminalSessionOutcome} {evidence : Evidence}
    (proven : terminalProven darwin (.terminal outcome (settled evidence)) = true) :
    refreshSessionState darwin (.terminal outcome evidence)
      (projectSessionState (.terminal outcome evidence)) = .terminal outcome (settled evidence) := by
  simp only [refreshSessionState, project_pendingCleanup, observed_project, SessionState.evidence,
    proven, if_true, SessionState.isCleaning, Bool.false_eq_true, if_false]

/-- A state that is cleaned up and was not terminal, refreshed from its own projection. -/
theorem refresh_own_cleaning {target : SessionStateTarget} (other : target ≠ .terminal)
    (outcome : TerminalSessionOutcome) (known : SessionStateTarget)
    (terminal : Option TerminalSessionPayload) (evidence : Evidence) :
    refreshSessionState darwin (.cleaning target outcome known terminal evidence)
      (projectSessionState (.cleaning target outcome known terminal evidence)) =
        .cleaning target (if truthy outcome.toJs then outcome else .absent)
          (if truthy known.toJs then known else .absent) terminal (settled evidence) := by
  simp only [refreshSessionState, observed_project, SessionState.evidence]

/-- A terminal state that is cleaned up, refreshed from its own projection. -/
theorem refresh_own_cleaningTerminal {outcome : TerminalSessionOutcome} {evidence : Evidence}
    (known : SessionStateTarget) (terminal : Option TerminalSessionPayload)
    (proven : terminalProven darwin (.terminal outcome (settled evidence)) = true) :
    refreshSessionState darwin (.cleaning .terminal outcome known terminal evidence)
      (projectSessionState (.cleaning .terminal outcome known terminal evidence)) =
        .cleaning .terminal outcome .absent none (settled evidence) := by
  simp only [refreshSessionState, observed_project, SessionState.evidence, terminalOrUnreachable,
    proven, if_true]

/-- No active state has ended. -/
theorem target_ne_terminal (kind : ActiveKind) : kind.target ≠ .terminal := by
  cases kind <;> simp [ActiveKind.target]

/-- What follows from a terminal outcome is not changed by another refresh. -/
theorem refresh_own_outcome {state : SessionState} (outcome : TerminalSessionOutcome)
    (cleaning : Bool) (steady : settled state.evidence = state.evidence) :
    refreshSessionState darwin (terminalOrUnreachable darwin state outcome cleaning)
        (projectSessionState (terminalOrUnreachable darwin state outcome cleaning)) =
      terminalOrUnreachable darwin state outcome cleaning := by
  cases proven : terminalProven darwin (.terminal outcome state.evidence) with
  | true =>
    have again : terminalProven darwin (.terminal outcome (settled state.evidence)) = true := by
      rw [steady, proven]
    cases cleaning with
    | true =>
      have result : terminalOrUnreachable darwin state outcome true =
          .cleaning .terminal outcome .absent none state.evidence := by
        simp [terminalOrUnreachable, proven]
      rw [result, refresh_own_cleaningTerminal darwin _ _ again, steady]
    | false =>
      have result : terminalOrUnreachable darwin state outcome false =
          .terminal outcome state.evidence := by
        simp [terminalOrUnreachable, proven]
      rw [result, refresh_own_terminal darwin again, steady]
  | false =>
    cases cleaning with
    | true =>
      have result : terminalOrUnreachable darwin state outcome true =
          .cleaning .unreachable .absent .terminal (some ⟨outcome, state.evidence⟩)
            state.evidence := by
        simp [terminalOrUnreachable, proven]
      rw [result, refresh_own_cleaning darwin (by simp), steady]
      rfl
    | false =>
      have result : terminalOrUnreachable darwin state outcome false =
          .unreachable .terminal (some ⟨outcome, state.evidence⟩) state.evidence := by
        simp [terminalOrUnreachable, proven]
      rw [result, refresh_own_unreachable, steady]

/-- A terminal state is refreshed to what follows from its outcome. -/
theorem refresh_terminal (outcome : TerminalSessionOutcome) (stored : Evidence)
    (record : LifecycleProjection) :
    refreshSessionState darwin (.terminal outcome stored) record =
      terminalOrUnreachable darwin (.terminal outcome (observedEvidence record)) outcome
        (truthy record.pendingCleanup) := by
  simp only [refreshSessionState, terminalOrUnreachable, SessionState.evidence]
  split_ifs <;> rfl

/-- Refreshing a refreshed state from its own projection changes nothing just if the refresh
took over nothing that the next one drops. -/
theorem refresh_twice_iff (state : SessionState) (record : LifecycleProjection) :
    refreshSessionState darwin (refreshSessionState darwin state record)
        (projectSessionState (refreshSessionState darwin state record)) =
      refreshSessionState darwin state record ↔ Steady state record := by
  have observed := settled_observed record
  cases state with
  | active kind stored =>
    cases pending : truthy record.pendingCleanup with
    | false =>
      have refreshed : refreshSessionState darwin (.active kind stored) record =
          .active kind (observedEvidence record) := by
        simp [refreshSessionState, pending]
      rw [refreshed, refresh_own_active, observed]
      simp [Steady, pending]
    | true =>
      have refreshed : refreshSessionState darwin (.active kind stored) record =
          .cleaning kind.target .absent .absent none
            (stored.spread (observedEvidence record)) := by
        simp [refreshSessionState, pending, toCleaning]
      rw [refreshed, refresh_own_cleaning darwin (target_ne_terminal kind)]
      simp only [Steady, pending, forall_const, ← settled_spread]
      simp [SessionStateTarget.absent, SessionStateTarget.toJs, TerminalSessionOutcome.absent,
        TerminalSessionOutcome.toJs, truthy]
  | terminal outcome stored =>
    rw [refresh_terminal]
    simp only [Steady, iff_true]
    exact refresh_own_outcome darwin outcome _ observed
  | unreachable known terminal stored =>
    cases pending : truthy record.pendingCleanup with
    | false =>
      have refreshed : refreshSessionState darwin (.unreachable known terminal stored) record =
          .unreachable known terminal (observedEvidence record) := by
        simp [refreshSessionState, pending]
      rw [refreshed, refresh_own_unreachable, observed]
      simp [Steady, pending]
    | true =>
      have refreshed : refreshSessionState darwin (.unreachable known terminal stored) record =
          .cleaning .unreachable .absent known terminal
            (stored.spread (observedEvidence record)) := by
        simp [refreshSessionState, pending, toCleaning]
      have kept : (if truthy known.toJs = true then known else .absent) = known ↔
          known = .absent ∨ truthy known.toJs = true := by
        split
        next named => simp [named]
        next falsy =>
          rw [or_iff_left falsy]
          exact eq_comm
      rw [refreshed, refresh_own_cleaning darwin (by simp)]
      simp only [Steady, pending, forall_const, ← settled_spread, ← kept]
      simp [TerminalSessionOutcome.absent, TerminalSessionOutcome.toJs, truthy, and_comm]
  | cleaning target outcome known terminal stored =>
    simp only [Steady, iff_true]
    by_cases isTerminal : target = .terminal
    · subst isTerminal
      have refreshed : refreshSessionState darwin
          (.cleaning .terminal outcome known terminal stored) record =
            terminalOrUnreachable darwin (.terminal outcome (observedEvidence record)) outcome
              true := rfl
      rw [refreshed]
      exact refresh_own_outcome darwin outcome true observed
    · have refreshed : refreshSessionState darwin
          (.cleaning target outcome known terminal stored) record =
            .cleaning target (if truthy outcome.toJs then outcome else .absent)
              (if truthy known.toJs then known else .absent) terminal
              (observedEvidence record) := by
        cases target with
        | terminal => exact absurd rfl isTerminal
        | _ => rfl
      rw [refreshed, refresh_own_cleaning darwin isTerminal, observed]
      congr 1
      · split
        · simp
        · rfl
      · split
        · simp
        · rfl

end Refresh

/-! ## Writing and reading records -/

section Records

variable (dateParse : JsString → Option Int) (darwin : Bool)

/-- What is required holds where all checks pass. -/
theorem require_ok {checks : List Check} {failure : WriteError} :
    require checks failure = .ok () ↔ runChecks checks = some true := by
  unfold require
  split <;> simp [*]

/-- The persisted value and the record after the write. -/
theorem writeSession_ok {record written : SessionRecord} {persisted : Js} :
    writeSession dateParse darwin record = .ok (written, persisted) ↔
      written = record.refreshed darwin ∧
      persisted = toV2Session written ∧
      runChecks (compatibilityChecks dateParse written.read record.id) = some true ∧
      runChecks (v2Checks dateParse darwin persisted record.id) = some true := by
  unfold writeSession
  constructor
  · intro accepted
    simp only [bind, Except.bind] at accepted
    split at accepted
    · cases accepted
    next compatible =>
      split at accepted
      · cases accepted
      next valid =>
        cases accepted
        exact ⟨rfl, rfl, require_ok.mp compatible, require_ok.mp valid⟩
  · rintro ⟨rfl, rfl, compatible, valid⟩
    simp only [bind, Except.bind, require_ok.mpr compatible, require_ok.mpr valid]
    rfl

/-- The id of a record is metadata. -/
theorem SessionRecord.refreshed_id (record : SessionRecord) :
    (record.refreshed darwin).id = record.id := by
  simp [SessionRecord.id, SessionRecord.read, SessionRecord.refreshed, lifecycleFields]

/-- What is metadata in a persisted record is what was metadata of the record. -/
theorem among_toV2Session (record : SessionRecord) :
    Metadata.among (properties (toV2Session record)) = record.metadata := by
  obtain ⟨⟨fields, free⟩, state, flat⟩ := record
  have own : fields.filter (fun entry => !reservedFields.contains entry.1) = fields := by
    rw [List.filter_eq_self]
    intro entry member
    simpa using free entry member
  have others : ([("recordVersion", Js.int 2), ("state", stateJson state)].filter
      fun entry => !reservedFields.contains entry.1) = [] := by
    simp [reservedFields]
  simp only [Metadata.among, properties, toV2Session, List.filter_append, own, others,
    List.append_nil]

/-- A field that is no metadata is none of the properties that metadata brings. -/
theorem lookup_reserved (metadata : Metadata) {key : String} (reserved : key ∈ reservedFields) :
    metadata.fields.lookup key = none := by
  rw [List.lookup_eq_none_iff]
  intro entry member
  have free := metadata.free entry member
  simp only [bne_iff_ne, ne_eq]
  rintro rfl
  exact free reserved

/-- The record has its state. -/
theorem get_state_toV2Session (record : SessionRecord) :
    (toV2Session record).get "state" = some (stateJson record.state) := by
  have absent := lookup_reserved record.metadata (by simp [reservedFields] :
    "state" ∈ reservedFields)
  simp [toV2Session, Js.get, List.lookup_append, absent, List.lookup_cons]

/-- The record has the version two. -/
theorem get_recordVersion_toV2Session (record : SessionRecord) :
    (toV2Session record).get "recordVersion" = some (.int 2) := by
  have absent := lookup_reserved record.metadata (by simp [reservedFields] :
    "recordVersion" ∈ reservedFields)
  simp [toV2Session, Js.get, List.lookup_append, absent]

/-- A written record is read back from the persisted value. -/
theorem fromV2Session_toV2Session {record : SessionRecord} (canonical : Canonical record.state)
    (projected : record.flat = projectSessionState record.state) :
    fromV2Session (toV2Session record) = record := by
  simp only [fromV2Session, get_state_toV2Session, Option.getD_some,
    readState_stateJson canonical, among_toV2Session, ← projected]

/-- A value of the current version that passes the checks is decoded. -/
theorem decode_valid (realpath : JsString → Option JsString) {source : Js} {id : JsString}
    (object : source.isObject = true) (version : source.get "recordVersion" = some (.int 2))
    (valid : runChecks (v2Checks dateParse darwin source id) = some true) :
    decodeSession dateParse darwin realpath source id =
      .ok ⟨fromV2Session source, false, false,
        isBool (fromV2Session source).flat.legacyOutputCleanupPending true⟩ := by
  simp only [decodeSession, object, version, Option.isNone_some, Bool.not_true, Bool.false_eq_true,
    if_false]
  have first : isInt (some (Js.int 2)) 1 = false := by decide
  have second : isInt (some (Js.int 2)) 2 = true := by decide
  simp only [first, second, decodeV2Session, accept, valid, Bool.false_eq_true, if_false, if_true]
  rfl

/-- Every record that is written is read back as it was after the write. -/
theorem decode_written (realpath : JsString → Option JsString) {record written : SessionRecord}
    {persisted : Js} (canonical : Canonical record.state)
    (accepted : writeSession dateParse darwin record = .ok (written, persisted)) :
    decodeSession dateParse darwin realpath persisted record.id =
      .ok ⟨written, false, false, isBool written.flat.legacyOutputCleanupPending true⟩ := by
  obtain ⟨same, rfl, _, valid⟩ := (writeSession_ok dateParse darwin).mp accepted
  have refreshed : Canonical written.state := by
    rw [same, SessionRecord.refreshed]
    exact refresh_canonical darwin canonical record.flat
  have back : fromV2Session (toV2Session written) = written :=
    fromV2Session_toV2Session refreshed (by rw [same, SessionRecord.refreshed])
  rw [decode_valid dateParse darwin realpath rfl (get_recordVersion_toV2Session written) valid, back]

end Records

/-! ## A record at rest, and one whose cleanup is requested -/

/-- The metadata of a session that has written nothing. -/
def quietMetadata : Metadata where
  fields := [("id", .text "s"), ("title", .text "t"), ("command", .text "c"), ("args", .arr []),
    ("workdir", .text "/"), ("ownerProjectDirectory", .text "/"),
    ("ownerCapabilityHash", .str (List.replicate 64 0x61)), ("parentSessionId", .text "p"),
    ("mode", .text "pty"), ("lifecycle", .text "conversation"),
    ("environment", record [("kind", some (.text "safe")), ("keys", some (.arr [])),
      ("fingerprint", some (.text "")), ("sensitive", some (.bool false))]),
    ("createdAt", .str newYear), ("updatedAt", .str newYear), ("nextSequence", .int 0),
    ("firstRetainedSequence", .int 0), ("outputBytes", .int 0), ("outputTruncated", .bool false),
    ("lineCount", .int 0), ("outputHasPartialLine", .bool false), ("outputJournalVersion", .int 2)]
  free := by decide

/-- The evidence of a child that runs, with what was recorded of a failure to store. -/
def runningEvidence (storageFailure : Option Js) : Evidence :=
  { Evidence.empty with
    pid := some (.int 1)
    timedOut := some (.bool false)
    terminationRequested := some (.bool false)
    terminationConfirmed := some (.bool false)
    streamDrain := some (.text "unknown")
    storageFailure := storageFailure }

/-- A running session of which a cleanup was or was not requested. -/
def runningRecord (cleanup : Bool) (storageFailure : Option Js) : SessionRecord where
  metadata := quietMetadata
  state := .active .running (runningEvidence storageFailure)
  flat := { projectSessionState (.active .running (runningEvidence storageFailure)) with
    pendingCleanup := some (.bool cleanup) }

end OpencodePty.SessionCodec
