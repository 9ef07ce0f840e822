import OpencodePty.SessionRecovery

/-!
# Migration of old records

A record of version 0 or 1 has only the flat view. It is converted to a tagged state: a
terminal one where its evidence proves the end of the session, and otherwise one that is to be
cleaned up, with a tombstone that says what was last known. The converted record is then
written, and not every record that is converted is accepted for that: a tombstone stands in
the way of an outcome that needs no evidence, and it must agree with the last known kind.
-/

namespace OpencodePty.SessionLoading

open OpencodePty.JsValues OpencodePty.Lifecycle OpencodePty.RecordChecks OpencodePty.OutputJournal
  OpencodePty.SessionCodec

variable {dateParse : JsString → Option Int} {darwin : Bool}

/-- The converted record of `decodeLegacySession`. -/
def legacyRecord (darwin : Bool) (source : Js) (version : LegacyVersion) : SessionRecord :=
  let flat := legacyFlat source version
  let status := if isOneOf (source.get "status") terminalNames then source.get "status"
    else flat.status
  ⟨legacyMetadata source, sessionStateFromCompatibility darwin { flat with status := status }, flat⟩

/-- The kinds that a tombstone may remember of a session without a terminal status. -/
def openNames : List String := ["creating", "running", "stopping", "unreachable"]

/-- The converted record of an old one can be written: its evidence proves an end, or it has a
terminal status that does not need the evidence, or its tombstone remembers one of the kinds
other than the terminal one, and nothing else is known. -/
def LegacyWritable (source : Js) (version : LegacyVersion) : Prop :=
  if isOneOf (source.get "status") terminalNames then
    legacyTerminal source = true ∨
      ¬ (isText (source.get "status") "spawn_failed" = true ∧
        noChildStarted (source.get "exitReason") = true)
  else
    isOneOf (field (legacyTombstone source version) "lastKnown") openNames = true ∧
      (source.get "lastKnown" = none ∨
        same (source.get "lastKnown") (field (legacyTombstone source version) "lastKnown") = true)

/-! ## The state of an old record -/

theorem terminalName_cases {status : Option Js} (terminal : isOneOf status terminalNames = true) :
    isText status "starting" = false ∧ isText status "running" = false ∧
      isText status "stopping" = false ∧ isText status "lost" = false ∧ status.isSome = true ∧
      Converts outcomeNames status := by
  obtain ⟨name, member, named⟩ := List.any_eq_true.mp terminal
  rw [isText_iff.mp named]
  clear named terminal
  revert name
  unfold Converts
  decide

/-- The state of a record with a terminal status. -/
theorem fromCompatibility_terminal {record : LifecycleProjection}
    (terminal : isOneOf record.status terminalNames = true) :
    sessionStateFromCompatibility darwin record =
      terminalOrUnreachable darwin
        (.terminal (.ofJs record.status) (observedEvidence record)) (.ofJs record.status)
        (truthy record.pendingCleanup) := by
  obtain ⟨starting, running, stopping, lost, _⟩ := terminalName_cases terminal
  simp only [sessionStateFromCompatibility, starting, running, stopping, lost, Bool.false_eq_true,
    if_false, refresh_terminal]
  obtain ⟨proven, result⟩ | ⟨_, result⟩ := terminalOrUnreachable_cases darwin
    (.terminal (.ofJs record.status) (observedEvidence record)) (.ofJs record.status)
    (truthy record.pendingCleanup)
  · rw [result]
    cases truthy record.pendingCleanup with
    | true => rfl
    | false =>
      simp only [SessionState.evidence] at proven
      simp [SessionState.evidence, proven]
  · rw [result]
    cases truthy record.pendingCleanup <;> rfl

/-- A refresh leaves a state as it is that was made from the same evidence. -/
theorem refresh_outcome_again (outcome : TerminalSessionOutcome) (flat : LifecycleProjection) :
    refreshSessionState darwin (terminalOrUnreachable darwin
        (.terminal outcome (observedEvidence flat)) outcome (truthy flat.pendingCleanup)) flat =
      terminalOrUnreachable darwin (.terminal outcome (observedEvidence flat)) outcome
        (truthy flat.pendingCleanup) := by
  obtain ⟨proven, result⟩ | ⟨_, result⟩ := terminalOrUnreachable_cases darwin
    (.terminal outcome (observedEvidence flat)) outcome (truthy flat.pendingCleanup)
  · rw [result]
    cases pending : truthy flat.pendingCleanup with
    | true =>
      simp only [SessionState.evidence] at proven
      simp [refreshSessionState, terminalOrUnreachable, SessionState.evidence, proven]
    | false =>
      simp only [Bool.false_eq_true, if_false, SessionState.evidence, refresh_terminal]
      rw [pending] at result
      rw [pending, result]
      rfl
  · rw [result]
    cases pending : truthy flat.pendingCleanup with
    | true => rfl
    | false => simp [refreshSessionState, pending, SessionState.evidence]

/-! ## Records with a terminal status -/

section Outcome

variable {record : SessionRecord} {outcome : TerminalSessionOutcome}

/-- The state is what follows from the outcome and the evidence of the flat view. -/
def FollowsOutcome (darwin : Bool) (record : SessionRecord) (outcome : TerminalSessionOutcome) :
    Prop :=
  record.state = terminalOrUnreachable darwin (.terminal outcome (observedEvidence record.flat))
    outcome (truthy record.flat.pendingCleanup)

theorem FollowsOutcome.refreshed (follows : FollowsOutcome darwin record outcome) :
    (record.refreshed darwin).state = record.state := by
  simp only [SessionRecord.refreshed]
  rw [follows, refresh_outcome_again]

theorem FollowsOutcome.canonical (follows : FollowsOutcome darwin record outcome)
    (named : CanonicalOutcome outcome) : Canonical record.state := by
  rw [follows]
  exact terminalOrUnreachable_canonical darwin _ named _

/-- A record whose evidence proves its outcome is written. -/
theorem write_proven (follows : FollowsOutcome darwin record outcome)
    (named : CanonicalOutcome outcome) (fits : Compatible dateParse record.read record.id)
    (status : record.flat.status = outcome.toJs)
    (terminal : isOneOf record.flat.status terminalNames = true)
    (confirmed : isBool record.flat.terminationConfirmed true = true)
    (exited : isBool record.flat.directChildExited true = true)
    (drained : containmentDrained record.flat.containment = true) :
    ∃ result, writeSession dateParse darwin record = .ok result := by
  obtain ⟨_, _, _, notLost, shownStatus, converts⟩ := terminalName_cases terminal
  have unburied : record.flat.legacyTombstone = none := by
    cases buried : record.flat.legacyTombstone with
    | none => rfl
    | some tombstone =>
      have lost := (fits.buried (by rw [buried, Option.isSome_some])).1
      rw [notLost] at lost
      cases lost
  have truthful : truthy record.flat.terminationConfirmed = true := by
    rw [isBool_iff.mp confirmed]
    rfl
  have kept : whenTruthy record.flat.containment = record.flat.containment :=
    fits.objects.containment
  have proven :
      terminalProven darwin (.terminal outcome (observedEvidence record.flat)) = true := by
    simp only [terminalProven, SessionState.evidence, observedEvidence, truthful, exited, kept,
      drained, Bool.true_or, Bool.and_self, Bool.or_true]
  have state : record.state = if truthy record.flat.pendingCleanup = true
      then .cleaning .terminal outcome .absent none (observedEvidence record.flat)
      else .terminal outcome (observedEvidence record.flat) := by
    rw [follows]
    simp only [terminalOrUnreachable, SessionState.evidence, proven, if_true]
  rw [writeSession_accepts (follows.canonical named)]
  constructor
  · refine fits.refreshed ?_ ?_ ?_ ?_
    · rw [follows.refreshed, state]
      split <;> rfl
    · rw [follows.refreshed, state, status]
      split <;> rfl
    · rw [follows.refreshed, state, unburied]
      split <;> rfl
    · intro buried
      rw [unburied] at buried
      cases buried
  · rw [follows.refreshed]
    have evidence : (stateView record.state).evidence = observedEvidence record.flat := by
      rw [state]
      split <;> rfl
    have shown : (stateView record.state).outcome = outcome.toJs := by
      rw [state]
      split <;> rfl
    have claims : (stateView record.state).claims = true := by
      rw [state]
      split <;> rfl
    have forgotten : (stateView record.state).terminal = none := by
      rw [state]
      split <;> rfl
    have tombstone : (stateView record.state).tombstone = none := by
      rw [StateView.tombstone, evidence]
      have members := (observedLegacy_members record.flat.legacyTombstone
        record.flat.legacyOutputCleanupPending).1
      rw [unburied] at members
      simp only [observedEvidence, unburied]
      exact members
    exact
      { evidence := by
          rw [evidence]
          exact fits.evidence
        legacy := by
          rw [evidence]
          exact fits.legacy
        terminal := by simp [forgotten]
        proven := by
          intro _
          rw [shown, ← status, evidence]
          refine ⟨converts, confirmed, ?_⟩
          simp only [StateView.proves, evidence, observedEvidence, exited, kept, drained,
            Bool.true_or, Bool.and_self, Bool.or_true]
        cleanup := fun _ => claims
        tags := by
          cases pending : truthy record.flat.pendingCleanup with
          | true =>
            rw [pending, if_pos rfl] at state
            rw [state] at tombstone ⊢
            have known : outcome.toJs.isSome = true := by
              rw [← status]
              exact shownStatus
            have target : Converts lastKnownNames SessionStateTarget.terminal.toJs := by
              unfold Converts
              decide
            exact .cleaning rfl target known.symm rfl rfl (.inl tombstone)
          | false =>
            rw [pending, if_neg (by decide)] at state
            rw [state]
            exact .terminal rfl rfl rfl rfl }

end Outcome

/-! ## Records with a tombstone -/

/-- The output file of a record with a tombstone is not to be removed. -/
theorem cleanup_unset {record : SessionRecord} {id : JsString}
    (fits : Compatible dateParse record.read id)
    (buried : record.flat.legacyTombstone.isSome = true) :
    (observedEvidence record.flat).legacy.bind Legacy.outputCleanupPending = none := by
  have flag : RecordChecks.optional isBoolean record.flat.legacyOutputCleanupPending = true :=
    fits.cleanupPending
  have agrees := fits.cleanupFits
  simp only [cleanupAgrees, Bool.or_eq_true, Bool.and_eq_true, Bool.not_eq_true'] at agrees
  obtain unset | ⟨⟨absent, _⟩, _⟩ := agrees
  · have members := (observedLegacy_members record.flat.legacyTombstone
      record.flat.legacyOutputCleanupPending).2
    have unset : isBool record.flat.legacyOutputCleanupPending true = false := unset
    simp only [observedEvidence, members]
    rw [if_neg]
    cases stored : record.flat.legacyOutputCleanupPending with
    | none => simp [truthy]
    | some value =>
      rw [stored] at flag unset
      cases value with
      | bool held => simpa [truthy, Js.truthy, isBool] using unset
      | _ => cases flag
  · have unburied : record.flat.legacyTombstone.isNone = true := absent
    simp_all

/-- What is the same as a value that is converted to one of the names is one of them. -/
theorem same_converts {names : List String} {first second : Option Js}
    (converts : Converts names first) (equal : same first second = true) :
    isOneOf second names = true := by
  obtain ⟨name, member, named⟩ := List.any_eq_true.mp converts.2
  refine List.any_eq_true.mpr ⟨name, member, ?_⟩
  cases first with
  | none => cases named
  | some value =>
    cases value with
    | str text =>
      cases second with
      | none => cases equal
      | some other =>
        cases other with
        | str copy =>
          have copied : text = copy := by simpa [same] using equal
          rw [← copied]
          exact named
        | _ => cases equal
    | null | bool | num => cases named
    | arr | obj => cases second <;> cases equal

/-- A declared kind is no falsy value, and it is what is read of it. -/
theorem name_kept {value : Option Js} (named : isOneOf value lastKnownNames = true)
    (fallback : Option Js) : truthy value = true ∧ orElse value fallback = value := by
  obtain ⟨name, member, equal⟩ := List.any_eq_true.mp named
  rw [isText_iff.mp equal]
  refine ⟨?_, rfl⟩
  clear equal named
  revert name
  decide

/-- A record that is cleaned up after its session became unreachable, and that has a tombstone,
is written just if the tombstone has the last known kind, and the terminal one is known where
an outcome is remembered. -/
theorem write_buried {record : SessionRecord} {known : SessionStateTarget}
    {payload : Option TerminalSessionPayload}
    (state : record.state = .cleaning .unreachable .absent known payload
      (observedEvidence record.flat))
    (canonical : Canonical record.state) (fits : Compatible dateParse record.read record.id)
    (lost : isText record.flat.status "lost" = true)
    (buried : record.flat.legacyTombstone.isSome = true)
    (remembered : ∀ terminal ∈ payload, ValidPayload terminal) :
    (∃ result, writeSession dateParse darwin record = .ok result) ↔
      isOneOf known.toJs lastKnownNames = true ∧
        payload.isSome = isText known.toJs "terminal" ∧
        same (field record.flat.legacyTombstone "lastKnown") known.toJs = true := by
  rw [writeSession_accepts canonical]
  have refreshed : (record.refreshed darwin).state = .cleaning .unreachable .absent
      (if truthy known.toJs then known else .absent) payload (observedEvidence record.flat) := by
    simp only [SessionRecord.refreshed, state]
    rfl
  have tombstone : (observedEvidence record.flat).legacy.bind Legacy.tombstone =
      record.flat.legacyTombstone := by
    have members := (observedLegacy_members record.flat.legacyTombstone
      record.flat.legacyOutputCleanupPending).1
    rw [fits.objects.legacyTombstone] at members
    exact members
  have reached : isText SessionStateTarget.unreachable.toJs "unreachable" = true := by decide
  constructor
  · rintro ⟨_, valid⟩
    rw [refreshed] at valid
    obtain ⟨_, knownShown, payloadShown, buriedShown⟩ := cleaning_tags valid.tags
    rw [tombstone] at buriedShown
    obtain unburied | ⟨_, agrees⟩ := buriedShown
    · rw [unburied] at buried
      cases buried
    have kept : truthy known.toJs = true := by
      by_contra dropped
      rw [if_neg dropped, reached] at knownShown
      cases knownShown
    rw [if_pos kept] at agrees payloadShown
    rw [reached, Bool.true_and] at payloadShown
    refine ⟨?_, payloadShown, agrees⟩
    obtain ⟨value, stored⟩ := Option.isSome_iff_exists.mp buried
    have lastKnown := (fits.validTombstone value stored).lastKnown
    rw [stored] at agrees
    exact same_converts lastKnown agrees
  · rintro ⟨named, payloadShown, agrees⟩
    obtain ⟨kept, shown⟩ := name_kept named (field record.flat.legacyTombstone "lastKnown")
    rw [if_pos kept] at refreshed
    constructor
    · refine fits.refreshed ?_ ?_ ?_ ?_
      · rw [refreshed]
        rfl
      · rw [refreshed, isText_iff.mp lost]
        rfl
      · rw [refreshed]
        simp only [projectedLastKnown, shown, RecordChecks.optional, named, Bool.or_true]
      · intro _
        rw [refreshed]
        rfl
    · rw [refreshed]
      have target : Converts lastKnownNames SessionStateTarget.unreachable.toJs := by
        unfold Converts
        decide
      have unclaimed : (stateView (.cleaning .unreachable .absent known payload
          (observedEvidence record.flat))).claims = false := by
        simp only [StateView.claims, stateView, tags]
        decide
      exact
        { evidence := fits.evidence
          legacy := fits.legacy
          terminal := remembered
          proven := by
            intro claimed
            rw [unclaimed] at claimed
            cases claimed
          cleanup := by
            intro pending
            simp only [stateView, SessionState.evidence, cleanup_unset fits buried] at pending
            cases pending
          tags := by
            refine .cleaning rfl target rfl ?_ ?_ (.inr ⟨reached, ?_⟩)
            · have present : known.toJs.isSome = true := by
                cases stored : known.toJs with
                | none =>
                  rw [stored] at kept
                  cases kept
                | some value => rfl
              simp only [stateView, tags, present, reached]
            · simp only [stateView, tags, reached, Bool.true_and]
              exact payloadShown
            · simp only [stateView, StateView.tombstone, SessionState.evidence, tombstone]
              exact agrees }

/-! ## Old records -/

theorem openNames_iff (value : Option Js) :
    isOneOf value openNames = true ↔
      isOneOf value lastKnownNames = true ∧ isText value "terminal" = false := by
  constructor
  · intro named
    obtain ⟨name, member, equal⟩ := List.any_eq_true.mp named
    rw [isText_iff.mp equal]
    clear equal named
    revert name
    decide
  · rintro ⟨named, other⟩
    simp only [isOneOf, lastKnownNames, List.any_cons, List.any_nil, Bool.or_eq_true, other,
      Bool.false_eq_true, or_false, false_or] at named
    simp only [isOneOf, openNames, List.any_cons, List.any_nil, Bool.or_eq_true,
      Bool.false_eq_true, or_false]
    exact named

/-- What is the same as a name is that name. -/
theorem same_named {names : List String} {first second : Option Js}
    (named : isOneOf second names = true) : same first second = true ↔ first = second := by
  obtain ⟨name, _, equal⟩ := List.any_eq_true.mp named
  rw [isText_iff.mp equal]
  cases first with
  | none => simp [same, Js.text]
  | some value => cases value <;> simp [same, Js.text]

/-- The last known kind of an old record, and whether it agrees with that of the tombstone. -/
theorem known_agrees {known buried : Option Js}
    (optionalName : RecordChecks.optional (isOneOf · lastKnownNames) known = true) :
    (isOneOf (orElse known (orElse buried (some (.text "unreachable")))) lastKnownNames = true ∧
        isText (orElse known (orElse buried (some (.text "unreachable")))) "terminal" = false ∧
        same buried (orElse known (orElse buried (some (.text "unreachable")))) = true) ↔
      isOneOf buried openNames = true ∧ (known = none ∨ same known buried = true) := by
  rw [openNames_iff]
  constructor
  · rintro ⟨named, unended, agrees⟩
    have equal := (same_named named).mp agrees
    rw [← equal] at named unended
    refine ⟨⟨named, unended⟩, ?_⟩
    cases stored : known with
    | none => exact .inl rfl
    | some value =>
      right
      simp only [stored, RecordChecks.optional, Option.isNone_some, Bool.false_or] at optionalName
      rw [stored, (name_kept optionalName _).2] at equal
      exact (same_named named).mpr equal.symm
  · rintro ⟨⟨named, unended⟩, unknown | agrees⟩
    · have kept := (name_kept named (some (.text "unreachable"))).2
      rw [unknown, kept]
      exact ⟨named, unended, (same_named named).mpr rfl⟩
    · rw [(same_named named).mp agrees, (name_kept named _).2]
      exact ⟨named, unended, (same_named named).mpr rfl⟩

section Source

variable {source : Js} {version : LegacyVersion} {record : SessionRecord}

/-- The state of an old record with a terminal status follows from that status. -/
theorem legacy_follows (flat : record.flat = legacyFlat source version)
    (state : record.state = (legacyRecord darwin source version).state)
    (ended : isOneOf (source.get "status") terminalNames = true) :
    FollowsOutcome darwin record (.ofJs (source.get "status")) := by
  have built := @fromCompatibility_terminal darwin
    { legacyFlat source version with status := source.get "status" } ended
  rw [FollowsOutcome, state, legacyRecord, flat]
  simp only [ended, if_true]
  exact built

/-- An outcome that is read of a value is the failed start just if the value names it. -/
theorem spawnFailed_iff (value : Option Js) :
    TerminalSessionOutcome.ofJs value = .spawnFailed ↔ isText value "spawn_failed" = true := by
  constructor
  · intro same
    rw [isText_iff, ← outcome_toJs value, same]
    rfl
  · intro named
    rw [isText_iff.mp named]
    rfl

/-- Without a confirmed end, only a failed start without a child is proven. -/
theorem unconfirmed_proven {outcome : TerminalSessionOutcome} {evidence : Evidence}
    (unconfirmed : truthy evidence.terminationConfirmed = false) :
    terminalProven darwin (.terminal outcome evidence) = true ↔
      outcome = .spawnFailed ∧ noChildStarted evidence.exitReason = true := by
  simp only [terminalProven, SessionState.evidence, unconfirmed, Bool.false_and, Bool.or_false]
  cases outcome <;> simp

/-- The state of an old record with a terminal status whose end is not proven. -/
theorem unproven_outcome (flat : record.flat = legacyFlat source version)
    (state : record.state = (legacyRecord darwin source version).state)
    (fits : Compatible dateParse record.read record.id)
    (ended : isOneOf (source.get "status") terminalNames = true)
    (unproven : legacyTerminal source = false) :
    record.state = .cleaning .terminal (.ofJs (source.get "status")) .absent none
        (observedEvidence record.flat) ∧
      isText (source.get "status") "spawn_failed" = true ∧
        noChildStarted (source.get "exitReason") = true ∨
    record.state = .cleaning .unreachable .absent .terminal
        (some ⟨.ofJs (source.get "status"), observedEvidence record.flat⟩)
        (observedEvidence record.flat) ∧
      ¬ (isText (source.get "status") "spawn_failed" = true ∧
        noChildStarted (source.get "exitReason") = true) := by
  have pending : truthy record.flat.pendingCleanup = true := by
    rw [flat]
    simp only [legacyFlat, unproven, Bool.false_eq_true, if_false]
    rfl
  have follows := legacy_follows flat state ended
  have unconfirmed : truthy (observedEvidence record.flat).terminationConfirmed = false := by
    rw [flat]
    simp only [observedEvidence, legacyFlat, unproven, Bool.false_and]
    rfl
  have reason : (observedEvidence record.flat).exitReason = source.get "exitReason" := by
    have kept : whenTruthy record.flat.exitReason = record.flat.exitReason :=
      fits.objects.exitReason
    simp only [observedEvidence, kept]
    rw [flat]
    rfl
  have proven := @unconfirmed_proven darwin (.ofJs (source.get "status")) _ unconfirmed
  rw [spawnFailed_iff, reason] at proven
  obtain ⟨holds, result⟩ | ⟨fails, result⟩ := terminalOrUnreachable_cases darwin
    (.terminal (.ofJs (source.get "status")) (observedEvidence record.flat))
    (.ofJs (source.get "status")) true
  · refine .inl ⟨?_, proven.mp holds⟩
    rw [follows, pending]
    exact result
  · refine .inr ⟨?_, fun failed => Bool.eq_false_iff.mp fails (proven.mpr failed)⟩
    rw [follows, pending]
    exact result

/-- An old record with a terminal status whose end is not proven is written just if it is no
failed start without a child. -/
theorem unproven_written (flat : record.flat = legacyFlat source version)
    (state : record.state = (legacyRecord darwin source version).state)
    (fits : Compatible dateParse record.read record.id)
    (agrees : tombstoneAgrees source.get = true)
    (ended : isOneOf (source.get "status") terminalNames = true)
    (unproven : legacyTerminal source = false) :
    (∃ result, writeSession dateParse darwin record = .ok result) ↔
      ¬ (isText (source.get "status") "spawn_failed" = true ∧
        noChildStarted (source.get "exitReason") = true) := by
  obtain ⟨_, _, _, notLost, _, converts⟩ := terminalName_cases ended
  have unburied : source.get "legacyTombstone" = none := by
    simp only [tombstoneAgrees, notLost, Bool.false_and, Bool.or_false,
      Option.isNone_iff_eq_none] at agrees
    exact agrees
  have tombstone : record.flat.legacyTombstone = some (JsValues.record
      [("sourceRecordVersion", some (.int (sourceRecordVersion version))),
        ("lastKnown", some (.text "terminal"))]) := by
    have known : legacyLastKnown (source.get "status") = "terminal" := by
      obtain ⟨starting, running, stopping, lost, _⟩ := terminalName_cases ended
      simp only [legacyLastKnown, starting, running, stopping, lost, Bool.false_eq_true, if_false]
    rw [flat]
    simp only [legacyFlat, unproven, Bool.false_eq_true, if_false, legacyTombstone, unburied, known,
      orElse]
  have buried : record.flat.legacyTombstone.isSome = true := by rw [tombstone, Option.isSome_some]
  have follows := legacy_follows flat state ended
  have canonical := follows.canonical (by rw [CanonicalOutcome, outcome_toJs])
  obtain ⟨built, holds⟩ | ⟨built, fails⟩ := unproven_outcome flat state fits ended unproven
  · -- the outcome needs no evidence, but the tombstone stands in its way
    refine iff_of_false ?_ (not_not.mpr holds)
    rw [writeSession_accepts canonical]
    rintro ⟨accepted, _⟩
    have kept : (record.refreshed darwin).state = .cleaning .terminal
        (.ofJs (source.get "status")) .absent none (observedEvidence record.flat) :=
      follows.refreshed.trans built
    have projected : (record.refreshed darwin).flat =
      projectSessionState (record.refreshed darwin).state := rfl
    rw [kept] at projected
    have members := (observedLegacy_members record.flat.legacyTombstone
      record.flat.legacyOutputCleanupPending).1
    rw [fits.objects.legacyTombstone] at members
    have still : (record.refreshed darwin).flat.legacyTombstone.isSome = true := by
      rw [projected]
      simp only [projectSessionState, SessionState.evidence, observedEvidence, members, buried]
    have lost := (accepted.buried still).1
    rw [projected] at lost
    simp only [projectSessionState, projectedStatus, outcome_toJs, notLost] at lost
    cases lost
  · refine iff_of_true ?_ fails
    have lost : isText record.flat.status "lost" = true := by
      rw [flat]
      simp only [legacyFlat, unproven, Bool.false_eq_true, if_false]
      rfl
    refine (write_buried built canonical fits lost buried ?_).mpr ⟨by decide, rfl, ?_⟩
    · intro terminal member
      cases member
      refine ⟨?_, fits.evidence⟩
      rw [outcome_toJs]
      exact converts
    · rw [tombstone]
      cases version <;> rfl

/-- The state of an old record without a terminal status. -/
theorem legacy_unreachable (flat : record.flat = legacyFlat source version)
    (state : record.state = (legacyRecord darwin source version).state)
    (ended : isOneOf (source.get "status") terminalNames = false) :
    record.state = .cleaning .unreachable .absent (.ofJs (orElse (source.get "lastKnown")
        (orElse (field (legacyTombstone source version) "lastKnown") (some (.text "unreachable")))))
      none (observedEvidence record.flat) := by
  have unproven : legacyTerminal source = false := by
    simp only [legacyTerminal, ended, Bool.false_and]
  have starting : isText (some (.text "lost")) "starting" = false := by decide
  have running : isText (some (.text "lost")) "running" = false := by decide
  have stopping : isText (some (.text "lost")) "stopping" = false := by decide
  have lost : isText (some (.text "lost")) "lost" = true := by decide
  have pending : truthy (some (.bool true)) = true := by decide
  rw [state, flat]
  simp only [legacyRecord, ended, Bool.false_eq_true, if_false, legacyFlat, unproven,
    sessionStateFromCompatibility, starting, running, stopping, lost, if_true, pending,
    refreshSessionState, toCleaning, Evidence.spread, Evidence.empty, observedEvidence,
    Option.orElse_eq_orElse, Option.orElse_eq_or, Option.or_none]

/-- The record of an old one, possibly with other metadata, is written just if it may be. -/
theorem legacy_written (flat : record.flat = legacyFlat source version)
    (state : record.state = (legacyRecord darwin source version).state)
    (fits : Compatible dateParse record.read record.id)
    (agrees : tombstoneAgrees source.get = true) :
    (∃ result, writeSession dateParse darwin record = .ok result) ↔
      LegacyWritable source version := by
  unfold LegacyWritable
  by_cases ended : isOneOf (source.get "status") terminalNames = true
  · rw [if_pos ended]
    by_cases proven : legacyTerminal source = true
    · refine iff_of_true ?_ (.inl proven)
      have parts := proven
      simp only [legacyTerminal, Bool.and_eq_true] at parts
      obtain ⟨⟨⟨_, confirmed⟩, exited⟩, drained⟩ := parts
      have status : record.flat.status = source.get "status" := by
        rw [flat]
        simp only [legacyFlat, proven, if_true]
      refine write_proven (legacy_follows flat state ended) ?_ fits ?_ ?_ ?_ ?_ ?_
      · rw [CanonicalOutcome, outcome_toJs]
      · rw [status, outcome_toJs]
      · rw [status]
        exact ended
      · rw [flat]
        simp only [legacyFlat, proven, confirmed]
        rfl
      · rw [flat]
        simp only [legacyFlat, proven, exited]
        rfl
      · rw [flat]
        exact drained
    · rw [unproven_written flat state fits agrees ended (by simpa using proven)]
      exact (or_iff_right proven).symm
  · rw [if_neg ended]
    have unended := Bool.eq_false_iff.mpr ended
    have built := legacy_unreachable flat state unended
    have unproven : legacyTerminal source = false := by
      simp only [legacyTerminal, unended, Bool.false_and]
    have tombstone : record.flat.legacyTombstone = legacyTombstone source version := by
      rw [flat]
      simp only [legacyFlat, unproven, Bool.false_eq_true, if_false]
    have buried : record.flat.legacyTombstone.isSome = true := by
      rw [tombstone]
      unfold legacyTombstone orElse
      split <;> rfl
    have lost : isText record.flat.status "lost" = true := by
      rw [flat]
      simp only [legacyFlat, unproven, Bool.false_eq_true, if_false]
      rfl
    have canonical : Canonical record.state := by
      rw [built]
      refine ⟨rfl, rfl, ?_, by simp⟩
      rw [CanonicalTarget, target_toJs]
    have known : RecordChecks.optional (isOneOf · lastKnownNames) (source.get "lastKnown") =
        true := by
      have listed := fits.lastKnown
      rw [read_flat record (by decide), flat] at listed
      exact listed
    rw [write_buried built canonical fits lost buried (by simp), target_toJs, tombstone,
      ← known_agrees known]
    simp only [Option.isSome_none, eq_comm]

end Source

end OpencodePty.SessionLoading
