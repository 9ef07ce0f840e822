import OpencodePty.StateAcceptance

/-!
# Which records are accepted for writing

A record is written if its refreshed flat view and its refreshed state pass their checks.
Where the refresh takes the evidence from the flat view alone, the flat view changes in a few
fields only; so a record that was read is accepted for another write, with one exception: a
state that is cleaned up after its session became unreachable, and whose last known kind is
`null`, loses that kind in the refresh.
-/

namespace OpencodePty.SessionCodec

open OpencodePty.JsValues OpencodePty.Lifecycle OpencodePty.RecordChecks OpencodePty.OutputJournal

variable {dateParse : JsString → Option Int} {darwin : Bool}

/-- Nothing of the flat view is among the properties of a persisted record. -/
theorem toV2Session_plain (record : SessionRecord) :
    lifecycleFields.any (hasOwn (toV2Session record)) = false := by
  rw [List.any_eq_false]
  intro key member
  have reserved : key ∈ reservedFields := List.mem_cons_of_mem _ (List.mem_cons_of_mem _ member)
  have absent := lookup_reserved record.metadata reserved
  have others : ([("recordVersion", Js.int 2), ("state", stateJson record.state)] :
      List (String × Js)).lookup key = none := by
    rw [List.lookup_eq_none_iff]
    revert key
    simp [lifecycleFields]
  simp [hasOwn, toV2Session, Js.get, List.lookup_append, absent, others]

/-- What the checks of a persisted record amount to. -/
theorem v2Checks_pass (source : Js) (id : JsString) :
    runChecks (v2Checks dateParse darwin source id) = some true ↔
      (isInt (source.get "recordVersion") 2 = true ∧
        lifecycleFields.any (hasOwn source) = false) ∧
      runChecks (stateChecks darwin (source.get "state")) = some true ∧
      Compatible dateParse (fromV2Session source).read id := by
  simp only [v2Checks, List.cons_append, runChecks_plain, runChecks_append, compatible_iff,
    Bool.and_eq_true, Bool.not_eq_true']

/-- A record is written just if its refreshed flat view and its refreshed state are valid. -/
theorem writeSession_accepts {record : SessionRecord} (canonical : Canonical record.state) :
    (∃ result, writeSession dateParse darwin record = .ok result) ↔
      Compatible dateParse (record.refreshed darwin).read record.id ∧
        (stateView (record.refreshed darwin).state).Valid darwin := by
  have refreshed : Canonical (record.refreshed darwin).state :=
    refresh_canonical darwin canonical record.flat
  have back : fromV2Session (toV2Session (record.refreshed darwin)) = record.refreshed darwin :=
    fromV2Session_toV2Session refreshed rfl
  have version : isInt ((toV2Session (record.refreshed darwin)).get "recordVersion") 2 = true := by
    rw [get_recordVersion_toV2Session]
    rfl
  have valid : runChecks (v2Checks dateParse darwin (toV2Session (record.refreshed darwin))
        record.id) = some true ↔
      (stateView (record.refreshed darwin).state).Valid darwin ∧
        Compatible dateParse (record.refreshed darwin).read record.id := by
    rw [v2Checks_pass, get_state_toV2Session, stateJson_pass darwin refreshed, back]
    exact and_iff_right ⟨version, toV2Session_plain _⟩
  constructor
  · rintro ⟨⟨written, persisted⟩, accepted⟩
    obtain ⟨rfl, rfl, compatible, passes⟩ := (writeSession_ok dateParse darwin).mp accepted
    exact ⟨(compatible_iff _ _ _).mp compatible, (valid.mp passes).1⟩
  · rintro ⟨compatible, fits⟩
    exact ⟨_, (writeSession_ok dateParse darwin).mpr ⟨rfl, rfl,
      (compatible_iff _ _ _).mpr compatible, valid.mpr ⟨fits, compatible⟩⟩⟩

/-! ## Refreshing from the evidence of the flat view -/

/-- Fields that a refresh does not change are read as before. -/
theorem flatField_refreshed (flat : LifecycleProjection)
    (termination storageFailure streamDrain lastKnown cleanup pending : Option Js) {key : String}
    (kept : key ∉ refreshedNames) :
    flatField { flat with
      termination := termination
      storageFailure := storageFailure
      streamDrain := streamDrain
      lastKnown := lastKnown
      legacyOutputCleanupPending := cleanup
      pendingCleanup := pending } key = flatField flat key := by
  simp only [refreshedNames, List.mem_cons, List.not_mem_nil, or_false, not_or] at kept
  unfold flatField
  split <;> first | rfl | simp_all

/-- The members of an observed legacy object. -/
theorem observedLegacy_members (tombstone pending : Option Js) :
    (observedLegacy tombstone pending).bind Legacy.tombstone = whenTruthy tombstone ∧
      (observedLegacy tombstone pending).bind Legacy.outputCleanupPending =
        if truthy pending then some (.bool true) else none := by
  unfold observedLegacy
  split
  next => exact ⟨rfl, rfl⟩
  next empty =>
    simp only [Bool.or_eq_true, not_or, Bool.not_eq_true] at empty
    simp [empty.2, whenTruthy_falsy empty.1]

/-- The flat view of a state whose evidence was taken from a flat view. -/
theorem project_of_observed {flat : LifecycleProjection} (objects : Objects flat)
    {state : SessionState} (evidence : state.evidence = observedEvidence flat)
    (status : projectedStatus state = flat.status) :
    projectSessionState state =
      { flat with
        termination := whenTruthy flat.termination
        storageFailure := whenTruthy flat.storageFailure
        streamDrain := orElse flat.streamDrain (some (.text "unknown"))
        lastKnown := orElse (projectedLastKnown state) (field flat.legacyTombstone "lastKnown")
        legacyOutputCleanupPending :=
          if truthy flat.legacyOutputCleanupPending then some (.bool true) else none
        pendingCleanup := if state.isCleaning then some (.bool true) else none } := by
  obtain ⟨tombstone, cleanup⟩ :=
    observedLegacy_members flat.legacyTombstone flat.legacyOutputCleanupPending
  rw [objects.legacyTombstone] at tombstone
  simp only [projectSessionState, evidence, observedEvidence, tombstone, cleanup, status,
    objects.containment, objects.exitReason, objects.worker, objects.workerPrestart,
    objects.execOutput, objects.diagnostics, objects.lastWaitResult]

/-- The drain of an accepted record, with its default. -/
theorem streamDrain_named {value : Option Js}
    (named : RecordChecks.optional (isOneOf · drainNames) value = true) :
    isOneOf (orElse value (some (.text "unknown"))) drainNames = true := by
  cases value with
  | none => decide
  | some present =>
    cases present with
    | null => cases named
    | _ => exact named

/-- The evidence of an accepted flat view is valid. -/
theorem Compatible.evidence {record : SessionRecord} {id : JsString}
    (fits : Compatible dateParse record.read id) : ValidEvidence (observedEvidence record.flat) := by
  have lifecycle := fits.lifecycle
  simp only [validLifecycleFields, required, Bool.and_eq_true] at lifecycle
  obtain ⟨⟨⟨⟨⟨⟨⟨⟨⟨⟨⟨⟨⟨⟨⟨_, pid⟩, _⟩, _⟩, _⟩, _⟩, _⟩, _⟩, timedOut⟩, requested⟩, confirmed⟩, _⟩,
    directExited⟩, _⟩, _⟩, _⟩ := lifecycle
  exact ⟨pid, directExited, requested, confirmed, timedOut, streamDrain_named fits.streamDrain⟩

/-- The tombstone of an accepted flat view is valid. -/
theorem Compatible.validTombstone {record : SessionRecord} {id : JsString}
    (fits : Compatible dateParse record.read id) :
    ∀ tombstone ∈ record.flat.legacyTombstone, ValidTombstone tombstone := by
  intro tombstone buried
  have passes := fits.tombstone
  have read : record.read "legacyTombstone" = some tombstone := buried
  have empty : runChecks [] = some true := rfl
  simp only [read, tombstoneChecks, runChecks_plain, runChecks_convertsTo, empty,
    Bool.and_eq_true, and_true, Bool.true_and] at passes
  exact ⟨passes.1.1, passes.1.2, passes.2⟩

/-- The legacy object of an accepted flat view is valid. -/
theorem Compatible.legacy {record : SessionRecord} {id : JsString}
    (fits : Compatible dateParse record.read id) :
    ∀ legacy ∈ (observedEvidence record.flat).legacy, ValidLegacy legacy := by
  intro legacy member
  obtain ⟨tombstone, cleanup⟩ := observedLegacy_members record.flat.legacyTombstone
    record.flat.legacyOutputCleanupPending
  have found : observedLegacy record.flat.legacyTombstone record.flat.legacyOutputCleanupPending =
    some legacy := member
  rw [found, Option.bind_some] at tombstone cleanup
  rw [fits.objects.legacyTombstone] at tombstone
  constructor
  · rw [cleanup]
    split <;> rfl
  · rw [tombstone]
    exact fits.validTombstone

/-- The flat view of an accepted record is accepted after a refresh that takes the evidence
from it. -/
theorem Compatible.refreshed {record : SessionRecord} {id : JsString}
    (fits : Compatible dateParse record.read id)
    (evidence : (record.refreshed darwin).state.evidence = observedEvidence record.flat)
    (status : projectedStatus (record.refreshed darwin).state = record.flat.status)
    (lastKnown : RecordChecks.optional (isOneOf · lastKnownNames)
      (orElse (projectedLastKnown (record.refreshed darwin).state)
        (field record.flat.legacyTombstone "lastKnown")) = true)
    (pending : record.flat.legacyTombstone.isSome = true →
      (record.refreshed darwin).state.isCleaning = true) :
    Compatible dateParse (record.refreshed darwin).read id := by
  have flat : (record.refreshed darwin).flat = _ :=
    project_of_observed fits.objects evidence status
  have reads (key : String) (listed : key ∈ lifecycleFields) :
      (record.refreshed darwin).read key = flatField (record.refreshed darwin).flat key :=
    read_flat _ listed
  refine fits.refresh ?_ ?_ ?_ ?_ ?_ ?_ ?_ ?_
  · intro key kept
    by_cases listed : key ∈ lifecycleFields
    · rw [reads key listed, flat, flatField_refreshed _ _ _ _ _ _ _ kept, read_flat record listed]
    · rw [read_metadata _ listed, read_metadata _ listed]
      rfl
  · rw [reads _ (by decide), flat]
    rfl
  · rw [reads _ (by decide), flat]
    rfl
  · rw [reads _ (by decide), flat]
    have drain := streamDrain_named fits.streamDrain
    change RecordChecks.optional _ (orElse record.flat.streamDrain (some (.text "unknown"))) = true
    simp only [RecordChecks.optional, Bool.or_eq_true]
    exact .inr drain
  · rw [reads _ (by decide), flat]
    exact lastKnown
  · rw [reads _ (by decide), flat]
    rfl
  · rw [reads _ (by decide), flat]
    change RecordChecks.optional isBoolean (if _ then _ else _) = true
    split <;> rfl
  · intro buried
    rw [reads _ (by decide), flat]
    change isBool (if (record.refreshed darwin).state.isCleaning then _ else _) true = true
    rw [pending buried]
    rfl

/-! ## Refreshing what was read -/

theorem readState_canonical (value : Js) : Canonical (readState value) := by
  have outcomes (raw : Option Js) : CanonicalOutcome (.ofJs raw) := by
    rw [CanonicalOutcome, outcome_toJs]
  have targets (raw : Option Js) : CanonicalTarget (.ofJs raw) := by
    rw [CanonicalTarget, target_toJs]
  have payloads : ∀ payload ∈ (value.get "terminal").map readPayload,
      CanonicalOutcome payload.outcome := by
    intro payload member
    obtain ⟨raw, _, rfl⟩ := Option.map_eq_some_iff.mp (Option.mem_def.mp member)
    exact outcomes _
  unfold readState
  simp only
  split
  · trivial
  · trivial
  · exact outcomes _
  · exact ⟨targets _, payloads⟩
  · split
    · exact ⟨targets _, outcomes _, targets _, payloads⟩
    · trivial

/-- What is read of a valid value is what is read of the value of its state. -/
theorem stateView_readState {value : Js} (valid : (viewOf value).Valid darwin) :
    stateView (readState value) = viewOf value := by
  cases valid.tags with
  | terminal kind target lastKnown terminal =>
    change value.get "kind" = _ at kind
    have state : readState value =
        .terminal (.ofJs (value.get "outcome")) (readEvidence value.get) := by
      simp only [readState, kind]
      rfl
    rw [state]
    exact StateView.ext rfl kind.symm target.symm (outcome_toJs _) lastKnown.symm terminal.symm
  | unreachable kind target outcome lastKnown terminal =>
    change value.get "kind" = _ at kind
    have state : readState value = .unreachable (.ofJs (value.get "lastKnown"))
        ((value.get "terminal").map readPayload) (readEvidence value.get) := by
      simp only [readState, kind]
      rfl
    rw [state]
    exact StateView.ext rfl kind.symm target.symm outcome.symm (target_toJs _) rfl
  | cleaning kind target outcome lastKnown terminal buried =>
    change value.get "kind" = _ at kind
    have state : readState value = .cleaning (.ofJs (value.get "target"))
        (.ofJs (value.get "outcome")) (.ofJs (value.get "lastKnown"))
        ((value.get "terminal").map readPayload) (readEvidence value.get) := by
      simp only [readState, kind]
      rfl
    rw [state]
    exact StateView.ext rfl kind.symm (target_toJs _) (outcome_toJs _) (target_toJs _) rfl
  | active active kind target outcome lastKnown terminal legacy =>
    change value.get "kind" = _ at kind
    have state : readState value = .active active (readEvidence value.get) := by
      cases active <;> simp only [readState, kind] <;> rfl
    rw [state]
    exact StateView.ext rfl kind.symm target.symm outcome.symm lastKnown.symm terminal.symm

/-- The outcome of a state that the codec takes for proven is proven for the lifecycle. -/
theorem proven_of_proves {outcome : TerminalSessionOutcome} {view : StateView}
    (canonical : CanonicalOutcome outcome) (shown : view.outcome = outcome.toJs)
    (confirmed : isBool view.evidence.terminationConfirmed true = true)
    (proves : view.proves darwin = true) :
    terminalProven darwin (.terminal outcome view.evidence) = true := by
  have truthful {value : Option Js} (holds : isBool value true = true) : truthy value = true := by
    rw [isBool_iff.mp holds]
    rfl
  simp only [StateView.proves, Bool.or_eq_true, Bool.and_eq_true] at proves
  obtain ⟨⟨⟨failed, kind⟩, started⟩, stopped⟩ | ⟨exited, drained⟩ := proves
  · have spawnFailed : outcome = .spawnFailed := by
      rw [shown, isText_iff] at failed
      rw [← canonical, failed]
      rfl
    simp only [terminalProven, spawnFailed, noChildStarted, kind, started, truthful stopped,
      Bool.and_self, Bool.true_or]
  · simp only [terminalProven, SessionState.evidence, truthful confirmed, exited, Bool.true_and,
      Bool.or_eq_true]
    exact .inr drained

/-- The members of a settled legacy object, where the object was valid. -/
theorem settled_legacy {evidence : Evidence}
    (valid : ∀ legacy ∈ evidence.legacy, ValidLegacy legacy) :
    (settled evidence).legacy.bind Legacy.tombstone = evidence.legacy.bind Legacy.tombstone ∧
      (settled evidence).legacy.bind Legacy.outputCleanupPending =
        evidence.legacy.bind Legacy.outputCleanupPending := by
  simp only [settled]
  cases stored : evidence.legacy with
  | none => exact ⟨rfl, rfl⟩
  | some legacy =>
    obtain ⟨tombstone, cleanup⟩ :=
      observedLegacy_members legacy.tombstone legacy.outputCleanupPending
    have fits := valid legacy stored
    simp only [Option.bind_some, settledLegacy, tombstone, cleanup]
    constructor
    · cases buried : legacy.tombstone with
      | none => rfl
      | some value => exact whenTruthy_object (fits.tombstone value buried).object
    · have flag := fits.cleanup
      cases pending : legacy.outputCleanupPending with
      | none => rfl
      | some value =>
        simp only [RecordChecks.optional, pending, Option.isNone_some, Bool.false_or,
          isBool_iff] at flag
        rw [flag]
        rfl

/-- The tombstone of a settled legacy object is the one that it had. -/
theorem settled_validLegacy {evidence : Evidence}
    (valid : ∀ legacy ∈ evidence.legacy, ValidLegacy legacy) :
    ∀ legacy ∈ (settled evidence).legacy, ValidLegacy legacy := by
  intro legacy member
  obtain ⟨tombstone, cleanup⟩ := settled_legacy valid
  obtain ⟨stored, found, _⟩ := Option.bind_eq_some_iff.mp (Option.mem_def.mp member)
  have fits := valid stored found
  rw [Option.mem_def.mp member, found, Option.bind_some, Option.bind_some] at tombstone cleanup
  exact ⟨by rw [cleanup]; exact fits.cleanup, by rw [tombstone]; exact fits.tombstone⟩

/-- The view of a state whose evidence is settled. -/
def StateView.settle (view : StateView) : StateView :=
  { view with evidence := settled view.evidence }

/-- The view of a valid state is valid after its evidence is settled. -/
theorem StateView.Valid.settle {view : StateView} (valid : view.Valid darwin)
    (containment : whenTruthy view.evidence.containment = view.evidence.containment)
    (exitReason : whenTruthy view.evidence.exitReason = view.evidence.exitReason) :
    view.settle.Valid darwin := by
  obtain ⟨tombstone, cleanup⟩ := settled_legacy valid.legacy
  have evidence := valid.evidence
  have drain : orElse view.evidence.streamDrain (some (.text "unknown")) =
      view.evidence.streamDrain := by
    have named := evidence.streamDrain
    simp only [isOneOf, drainNames, List.any_cons, List.any_nil, Bool.or_false, Bool.or_eq_true,
      isText_iff] at named
    obtain drained | unknown := named
    · rw [drained]
      rfl
    · rw [unknown]
      rfl
  exact
    { evidence :=
        { pid := evidence.pid
          directExited := evidence.directExited
          requested := evidence.requested
          confirmed := evidence.confirmed
          timedOut := evidence.timedOut
          streamDrain := by
            simp only [StateView.settle, settled, drain]
            exact evidence.streamDrain }
      legacy := settled_validLegacy valid.legacy
      terminal := valid.terminal
      proven := by
        intro claimed
        obtain ⟨outcome, confirmed, proves⟩ := valid.proven claimed
        refine ⟨outcome, confirmed, ?_⟩
        simp only [StateView.proves, StateView.settle, settled, containment, exitReason]
          at proves ⊢
        exact proves
      cleanup := by
        intro pending
        exact valid.cleanup (by rw [← cleanup]; exact pending)
      tags := by
        cases valid.tags with
        | terminal kind target lastKnown terminal => exact .terminal kind target lastKnown terminal
        | unreachable kind target outcome lastKnown terminal =>
          exact .unreachable kind target outcome lastKnown terminal
        | cleaning kind target outcome lastKnown terminal buried =>
          refine .cleaning kind target outcome lastKnown terminal ?_
          simp only [StateView.tombstone, StateView.settle, tombstone]
          exact buried
        | active active kind target outcome lastKnown terminal legacy =>
          refine .active active kind target outcome lastKnown terminal ?_
          simp [StateView.settle, settled, legacy] }

/-- A refresh keeps the last known kind: it is no falsy value in a state that is cleaned up
after its session became unreachable. -/
def KindKept : SessionState → Prop
  | .cleaning .unreachable _ known _ _ => truthy known.toJs = true
  | _ => True

theorem text_ne {first second : String} (different : isText (some (.text first)) second = false) :
    some (Js.text first) ≠ some (.text second) := by
  intro same
  rw [same, isText_iff.mpr rfl] at different
  cases different

/-- The tags of a state that is cleaned up. -/
theorem cleaning_tags {target known : SessionStateTarget} {outcome : TerminalSessionOutcome}
    {terminal : Option TerminalSessionPayload} {evidence : Evidence}
    (tags : (stateView (.cleaning target outcome known terminal evidence)).ValidTags) :
    isText target.toJs "terminal" = outcome.toJs.isSome ∧
      isText target.toJs "unreachable" = known.toJs.isSome ∧
      terminal.isSome = (isText target.toJs "unreachable" && isText known.toJs "terminal") ∧
      (evidence.legacy.bind Legacy.tombstone = none ∨ isText target.toJs "unreachable" = true ∧
        same (field (evidence.legacy.bind Legacy.tombstone) "lastKnown") known.toJs = true) := by
  cases tags with
  | terminal kind => exact absurd kind (@text_ne "cleaning" "terminal" (by decide))
  | unreachable kind => exact absurd kind (@text_ne "cleaning" "unreachable" (by decide))
  | cleaning _ _ outcome lastKnown terminal buried => exact ⟨outcome, lastKnown, terminal, buried⟩
  | active active kind =>
    cases active with
    | creating => exact absurd kind (@text_ne "cleaning" "creating" (by decide))
    | running => exact absurd kind (@text_ne "cleaning" "running" (by decide))
    | stopping => exact absurd kind (@text_ne "cleaning" "stopping" (by decide))

theorem target_of_text {target : SessionStateTarget} (canonical : CanonicalTarget target)
    {name : String} (named : isText target.toJs name = true) :
    target = .ofJs (some (.text name)) := by
  rw [← canonical, isText_iff.mp named]

/-- The state with its evidence settled. -/
def settledState : SessionState → SessionState
  | .active kind evidence => .active kind (settled evidence)
  | .terminal outcome evidence => .terminal outcome (settled evidence)
  | .unreachable known terminal evidence => .unreachable known terminal (settled evidence)
  | .cleaning target outcome known terminal evidence =>
    .cleaning target outcome known terminal (settled evidence)

theorem settledState_evidence (state : SessionState) :
    (settledState state).evidence = settled state.evidence := by
  cases state <;> rfl

theorem settledState_view (state : SessionState) :
    stateView (settledState state) = (stateView state).settle := by
  cases state <;> rfl

theorem settledState_project (state : SessionState) :
    projectedStatus (settledState state) = projectedStatus state ∧
      projectedLastKnown (settledState state) = projectedLastKnown state ∧
      (settledState state).isCleaning = state.isCleaning := by
  cases state with
  | active kind evidence => cases kind <;> exact ⟨rfl, rfl, rfl⟩
  | terminal | unreachable => exact ⟨rfl, rfl, rfl⟩
  | cleaning target => cases target <;> exact ⟨rfl, rfl, rfl⟩

/-- A valid state that is refreshed from its own projection has its evidence settled, and is
left as it is otherwise. -/
theorem refresh_own_valid {state : SessionState} (canonical : Canonical state)
    (valid : (stateView state).Valid darwin)
    (containment : whenTruthy state.evidence.containment = state.evidence.containment)
    (exitReason : whenTruthy state.evidence.exitReason = state.evidence.exitReason)
    (kept : KindKept state) :
    refreshSessionState darwin state (projectSessionState state) = settledState state := by
  have settledValid := valid.settle containment exitReason
  cases state with
  | active kind evidence => exact refresh_own_active darwin kind evidence
  | terminal outcome evidence =>
    obtain ⟨_, confirmed, proves⟩ := settledValid.proven rfl
    have proven : terminalProven darwin (.terminal outcome (settled evidence)) = true :=
      proven_of_proves canonical rfl confirmed proves
    exact refresh_own_terminal darwin proven
  | unreachable known terminal evidence => exact refresh_own_unreachable darwin known terminal evidence
  | cleaning target outcome known terminal evidence =>
    obtain ⟨targetCanonical, outcomeCanonical, knownCanonical, _⟩ := canonical
    obtain ⟨outcomeShown, knownShown, payloadShown, _⟩ := cleaning_tags valid.tags
    have unknown (reached : isText target.toJs "unreachable" = false) : known = .absent := by
      have absent : known.toJs = none := by simpa [reached] using knownShown.symm
      rw [← knownCanonical, absent]
      rfl
    by_cases wasTerminal : target = .terminal
    · subst wasTerminal
      obtain ⟨_, confirmed, proves⟩ := settledValid.proven rfl
      have proven : terminalProven darwin (.terminal outcome (settled evidence)) = true :=
        proven_of_proves outcomeCanonical rfl confirmed proves
      have reached : isText SessionStateTarget.terminal.toJs "unreachable" = false := by decide
      have forgotten : terminal = none := by simpa [reached] using payloadShown
      rw [refresh_own_cleaningTerminal darwin known terminal proven, unknown reached, forgotten]
      rfl
    · have unclaimed : outcome = .absent := by
        have named : isText target.toJs "terminal" = false := by
          rw [Bool.eq_false_iff]
          exact fun named => wasTerminal (target_of_text targetCanonical named)
        have absent : outcome.toJs = none := by simpa [named] using outcomeShown.symm
        rw [← outcomeCanonical, absent]
        rfl
      have knownKept : (if truthy known.toJs = true then known else .absent) = known := by
        by_cases wasUnreachable : target = .unreachable
        · subst wasUnreachable
          exact if_pos kept
        · have named : isText target.toJs "unreachable" = false := by
            rw [Bool.eq_false_iff]
            exact fun named => wasUnreachable (target_of_text targetCanonical named)
          rw [unknown named]
          rfl
      rw [refresh_own_cleaning darwin wasTerminal, knownKept, unclaimed]
      rfl

/-- Where the last known kind is not kept, the refreshed state is not valid. -/
theorem refresh_own_invalid {state : SessionState} (lost : ¬ KindKept state) :
    ¬ (stateView (refreshSessionState darwin state (projectSessionState state))).Valid darwin := by
  intro valid
  cases state with
  | active | terminal | unreachable => exact lost trivial
  | cleaning target outcome known terminal evidence =>
    cases target with
    | unreachable =>
      have dropped : truthy known.toJs = false := by simpa [KindKept] using lost
      rw [refresh_own_cleaning darwin (by simp), dropped] at valid
      obtain ⟨_, knownShown, _⟩ := cleaning_tags valid.tags
      have named : isText SessionStateTarget.unreachable.toJs "unreachable" = true := by decide
      rw [named] at knownShown
      cases knownShown
    | _ => exact lost trivial

/-- A record that was read, possibly with other metadata, is accepted for writing just if
the refresh keeps its last known kind. -/
theorem rewrite_accepts {record : SessionRecord} (canonical : Canonical record.state)
    (projected : record.flat = projectSessionState record.state)
    (valid : (stateView record.state).Valid darwin)
    (fits : Compatible dateParse record.read record.id) :
    (∃ result, writeSession dateParse darwin record = .ok result) ↔ KindKept record.state := by
  rw [writeSession_accepts canonical]
  have objects := fits.objects
  have containment : whenTruthy record.state.evidence.containment =
      record.state.evidence.containment := by
    have kept := objects.containment
    rwa [projected] at kept
  have exitReason : whenTruthy record.state.evidence.exitReason =
      record.state.evidence.exitReason := by
    have kept := objects.exitReason
    rwa [projected] at kept
  constructor
  · rintro ⟨_, accepted⟩
    by_contra lost
    have invalid := @refresh_own_invalid darwin _ lost
    rw [← projected] at invalid
    exact invalid accepted
  · intro kept
    have state : (record.refreshed darwin).state = settledState record.state := by
      simp only [SessionRecord.refreshed, projected]
      exact refresh_own_valid canonical valid containment exitReason kept
    obtain ⟨status, lastKnown, cleaning⟩ := settledState_project record.state
    constructor
    · refine fits.refreshed ?_ ?_ ?_ ?_
      · rw [state, settledState_evidence, projected, observed_project]
      · rw [state, status, projected]
        rfl
      · have known := fits.lastKnown
        rw [read_flat record (by decide)] at known
        rw [state, lastKnown]
        have shown : flatField record.flat "lastKnown" = orElse
            (projectedLastKnown record.state) (field record.flat.legacyTombstone "lastKnown") := by
          rw [projected]
          rfl
        rwa [shown] at known
      · intro buried
        have pending := (fits.buried buried).2
        rw [projected] at pending
        rw [state, cleaning]
        cases isCleaning : record.state.isCleaning with
        | true => rfl
        | false =>
          simp only [projectSessionState, isCleaning] at pending
          cases pending
    · rw [state, settledState_view]
      exact valid.settle containment exitReason

end OpencodePty.SessionCodec
