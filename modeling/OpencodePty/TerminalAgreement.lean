import OpencodePty.LifecycleRuns
import OpencodePty.RecordRewrites

/-!
# The two proofs of a terminal state

Whether its evidence proves that a session is over is decided twice: by the lifecycle, when an
outcome is recorded or a terminal state is refreshed, and by the codec, when the state is
written. Both know the evidence of a child that exited and of a child that never started. The
codec asks in either case that the termination is confirmed; the lifecycle asks it only of a
child that exited. What the two decide is compared here for one evidence, and then along runs
of lifecycle operations from a state that can be written.

A terminal state that meets its own outcome again is returned as it is. The lifecycle decides
nothing on such a step, and the comparison leaves it to the runs.
-/

namespace OpencodePty.TerminalAgreement

open JsValues Lifecycle LifecycleRuns RecordChecks SessionCodec Transitions

variable (darwin : Bool)

/-- `validV2State` accepts the value of the state. -/
def Accepted (state : SessionState) : Prop :=
  runChecks (stateChecks darwin (some (stateJson state))) = some true

/-- A claim to be terminal passes the proof that the codec asks of it. -/
def ProofAccepted (state : SessionState) : Prop :=
  (stateView state).claims = true → Converts outcomeNames (stateView state).outcome ∧
    isBool state.evidence.terminationConfirmed true = true ∧
    (stateView state).proves darwin = true

/-- The state in which an outcome is recorded where the evidence proves it. -/
def recordedState (outcome : TerminalSessionOutcome) (cleaning : Bool) (evidence : Evidence) :
    SessionState :=
  if cleaning then .cleaning .terminal outcome .absent none evidence
  else .terminal outcome evidence

/-- The state in which an outcome without a proof is remembered. -/
def rememberedState (outcome : TerminalSessionOutcome) (cleaning : Bool) (evidence : Evidence) :
    SessionState :=
  if cleaning then .cleaning .unreachable .absent .terminal (some ⟨outcome, evidence⟩) evidence
  else .unreachable .terminal (some ⟨outcome, evidence⟩) evidence

/-- The child exited and nothing of its process tree is left. -/
def exitProven (evidence : Evidence) : Bool :=
  isBool evidence.directExited true && (containmentDrained evidence.containment || darwin)

/-- The evidence of a spawn failure without a child is confirmed as the codec asks for it. -/
def Coincide (outcome : TerminalSessionOutcome) (evidence : Evidence) : Prop :=
  outcome = .spawnFailed → noChildStarted evidence.exitReason = true →
    isBool evidence.terminationConfirmed true = true ∧
      (isBool (field (field evidence.exitReason "cleanup") "terminationConfirmed") true = true ∨
        exitProven darwin evidence = true)

/-! ## One evidence -/

/-- An operation of the lifecycle on a state. -/
inductive Operation where
  | reduce (event : LifecycleEvent)
  | refresh (record : LifecycleProjection)

namespace Operation

def apply (state : SessionState) : Operation → Option SessionState
  | reduce event => reduceSessionState darwin state event
  | refresh record => some (refreshSessionState darwin state record)

/-- The evidence on which the operation decides. -/
def evidence (state : SessionState) : Operation → Evidence
  | reduce _ => state.evidence
  | refresh record => observedEvidence record

/-- What the operation leads to is to be cleaned up. -/
def cleaning (state : SessionState) : Operation → Bool
  | reduce _ => state.isCleaning
  | refresh record => state.isCleaning || truthy record.pendingCleanup

end Operation

/-- The operation decides whether the outcome is proven. -/
inductive Decides : SessionState → Operation → TerminalSessionOutcome → Prop where
  | reduced {state next : SessionState} {event : LifecycleEvent}
      {outcome : TerminalSessionOutcome} (ends : terminalEvent event = some outcome)
      (admitted : reduceSessionState darwin state event = some next)
      (unsettled : ∀ recorded evidence, state ≠ .terminal recorded evidence) :
      Decides state (.reduce event) outcome
  | terminal (outcome : TerminalSessionOutcome) (stored : Evidence)
      (record : LifecycleProjection) :
      Decides (.terminal outcome stored) (.refresh record) outcome
  | cleaning (outcome : TerminalSessionOutcome) (known : SessionStateTarget)
      (payload : Option TerminalSessionPayload) (stored : Evidence)
      (record : LifecycleProjection) :
      Decides (.cleaning .terminal outcome known payload stored) (.refresh record) outcome

/-- An admitted terminal event of a state that is not terminal settles its outcome. -/
theorem reduce_settles {state next : SessionState} {event : LifecycleEvent}
    {outcome : TerminalSessionOutcome} (ends : terminalEvent event = some outcome)
    (admitted : reduceSessionState darwin state event = some next)
    (unsettled : ∀ recorded evidence, state ≠ .terminal recorded evidence) :
    next = terminalOrUnreachable darwin state outcome state.isCleaning := by
  cases state with
  | active kind evidence =>
    cases kind <;> cases event <;>
      simp_all [reduceSessionState, terminalEvent, SessionState.isCleaning]
  | terminal recorded evidence => exact absurd rfl (unsettled recorded evidence)
  | unreachable known payload evidence =>
    cases event <;> cases known <;> simp_all [reduceSessionState, terminalEvent]
  | cleaning target recorded known payload evidence =>
    cases event <;> cases target <;>
      simp_all [reduceSessionState, terminalEvent, SessionState.isCleaning]

/-- The operation that decides an outcome records it where the proof of the lifecycle goes
through, and remembers it elsewhere. -/
theorem decides_cases {state : SessionState} {operation : Operation}
    {outcome : TerminalSessionOutcome} (decides : Decides darwin state operation outcome) :
    operation.apply darwin state =
      if terminalProven darwin (.terminal outcome (operation.evidence state)) then
        some (recordedState outcome (operation.cleaning state) (operation.evidence state))
      else some (rememberedState outcome (operation.cleaning state) (operation.evidence state)) := by
  cases decides with
  | reduced ends admitted unsettled =>
    have next := reduce_settles darwin ends admitted unsettled
    simp only [Operation.apply, Operation.cleaning, Operation.evidence, admitted, next]
    obtain ⟨proven, settled⟩ | ⟨unproven, settled⟩ :=
      terminalOrUnreachable_cases darwin state outcome state.isCleaning
    · rw [settled]
      exact (if_pos proven).symm
    · rw [settled]
      exact (if_neg (Bool.eq_false_iff.mp unproven)).symm
  | terminal outcome stored record =>
    simp only [Operation.apply, Operation.cleaning, Operation.evidence, refreshSessionState,
      SessionState.isCleaning, Bool.false_or, recordedState, rememberedState]
    cases truthy record.pendingCleanup <;>
      cases terminalProven darwin (.terminal outcome (observedEvidence record)) <;> rfl
  | cleaning outcome known payload stored record =>
    simp only [Operation.apply, Operation.cleaning, Operation.evidence,
      refresh_cleaning_terminal, SessionState.isCleaning, Bool.true_or, recordedState,
      rememberedState]
    split <;> rfl

/-- The operation that decides an outcome records it just where the proof of the lifecycle goes
through. -/
theorem decides_recorded {state : SessionState} {operation : Operation}
    {outcome : TerminalSessionOutcome} (decides : Decides darwin state operation outcome) :
    operation.apply darwin state =
        some (recordedState outcome (operation.cleaning state) (operation.evidence state)) ↔
      terminalProven darwin (.terminal outcome (operation.evidence state)) = true := by
  rw [decides_cases darwin decides]
  constructor
  · intro recorded
    by_contra unproven
    rw [if_neg unproven] at recorded
    revert recorded
    cases operation.cleaning state <;> simp [recordedState, rememberedState]
  · intro proven
    rw [if_pos proven]

/-- The codec takes the value of the outcome for one of the names. -/
structure AcceptedOutcome (outcome : TerminalSessionOutcome) : Prop where
  canonical : CanonicalOutcome outcome
  converts : Converts outcomeNames outcome.toJs

theorem acceptedOutcome_named {outcome : TerminalSessionOutcome} (named : outcome.Named) :
    AcceptedOutcome outcome := by
  cases outcome with
  | other raw => exact named.elim
  | _ => exact ⟨rfl, by decide, by decide⟩

theorem AcceptedOutcome.present {outcome : TerminalSessionOutcome}
    (accepted : AcceptedOutcome outcome) : outcome.toJs.isSome = true := by
  have converts := accepted.converts.2
  cases read : outcome.toJs with
  | none => simp [read, coercesToOneOf] at converts
  | some value => rfl

theorem AcceptedOutcome.failed {outcome : TerminalSessionOutcome}
    (accepted : AcceptedOutcome outcome) :
    isText outcome.toJs "spawn_failed" = true ↔ outcome = .spawnFailed := by
  constructor
  · intro failed
    rw [← accepted.canonical, isText_iff.mp failed]
    rfl
  · rintro rfl
    decide

/-- The tags of a recorded state are those that the codec asks for. -/
theorem recorded_tags {outcome : TerminalSessionOutcome} {evidence : Evidence} (cleaning : Bool)
    (accepted : AcceptedOutcome outcome) (unmigrated : evidence.legacy = none) :
    (stateView (recordedState outcome cleaning evidence)).ValidTags := by
  cases cleaning with
  | false => exact .terminal rfl rfl rfl rfl
  | true =>
    have named : isText (some (.text "terminal")) "terminal" = outcome.toJs.isSome := by
      rw [accepted.present]
      decide
    have target : Converts lastKnownNames (some (.text "terminal")) := ⟨by decide, by decide⟩
    have reachable : isText (some (.text "terminal")) "unreachable" = false := by decide
    have unburied : evidence.legacy.bind Legacy.tombstone = none := by
      rw [unmigrated]
      rfl
    exact .cleaning rfl target named reachable (congrArg (· && _) reachable).symm (.inl unburied)

theorem recorded_canonical {outcome : TerminalSessionOutcome} (evidence : Evidence)
    (cleaning : Bool) (accepted : AcceptedOutcome outcome) :
    Canonical (recordedState outcome cleaning evidence) := by
  cases cleaning with
  | false => exact accepted.canonical
  | true => exact ⟨rfl, accepted.canonical, rfl, by simp⟩

/-- What the codec reads of a recorded state. -/
theorem recorded_view (outcome : TerminalSessionOutcome) (cleaning : Bool)
    (evidence : Evidence) :
    (stateView (recordedState outcome cleaning evidence)).claims = true ∧
      (stateView (recordedState outcome cleaning evidence)).outcome = outcome.toJs ∧
      (stateView (recordedState outcome cleaning evidence)).evidence = evidence := by
  cases cleaning <;> exact ⟨rfl, rfl, rfl⟩

/-- The codec accepts a recorded state just where its own proof goes through. -/
theorem recorded_accepted {outcome : TerminalSessionOutcome} {evidence : Evidence}
    (cleaning : Bool) (accepted : AcceptedOutcome outcome) (valid : ValidEvidence evidence)
    (unmigrated : evidence.legacy = none) :
    Accepted darwin (recordedState outcome cleaning evidence) ↔
      isBool evidence.terminationConfirmed true = true ∧
        (stateView (recordedState outcome cleaning evidence)).proves darwin = true := by
  obtain ⟨claims, recorded, read⟩ := recorded_view outcome cleaning evidence
  rw [Accepted, stateJson_pass darwin (recorded_canonical evidence cleaning accepted)]
  constructor
  · intro passed
    have proven := (passed.proven claims).2
    rwa [read] at proven
  · rintro ⟨confirmed, proves⟩
    exact
      { evidence := by rwa [read]
        legacy := by simp [read, unmigrated]
        terminal := by cases cleaning <;> simp [recordedState, stateView]
        proven := fun _ => ⟨by rw [recorded]; exact accepted.converts, by rwa [read], proves⟩
        cleanup := fun _ => claims
        tags := recorded_tags cleaning accepted unmigrated }

/-- A confirmation that is a boolean is truthy just where it is true. -/
theorem truthy_boolean {value : Option Js} (boolean : isBoolean value = true) :
    truthy value = isBool value true := by
  cases value with
  | none => cases boolean
  | some present =>
    cases present with
    | bool confirmed => cases confirmed <;> rfl
    | _ => cases boolean

/-- The proof of the lifecycle, by the two kinds of evidence. -/
theorem terminalProven_iff {outcome : TerminalSessionOutcome} {evidence : Evidence}
    (boolean : isBoolean evidence.terminationConfirmed = true) :
    terminalProven darwin (.terminal outcome evidence) = true ↔
      outcome = .spawnFailed ∧ noChildStarted evidence.exitReason = true ∨
        isBool evidence.terminationConfirmed true = true ∧ exitProven darwin evidence = true := by
  rw [← truthy_boolean boolean]
  cases outcome <;>
    simp [terminalProven, exitProven, SessionState.evidence, and_assoc]

/-- The proof of the codec, by the two kinds of evidence. -/
theorem proves_iff {outcome : TerminalSessionOutcome} {evidence : Evidence} (cleaning : Bool)
    (accepted : AcceptedOutcome outcome) :
    (stateView (recordedState outcome cleaning evidence)).proves darwin = true ↔
      outcome = .spawnFailed ∧ noChildStarted evidence.exitReason = true ∧
          isBool (field (field evidence.exitReason "cleanup") "terminationConfirmed") true = true ∨
        exitProven darwin evidence = true := by
  obtain ⟨_, recorded, read⟩ := recorded_view outcome cleaning evidence
  have believed (value : Option Js) (strict : isBool value true = true) : truthy value = true := by
    rw [isBool_iff.mp strict]
    rfl
  simp only [StateView.proves, recorded, read, Bool.or_eq_true, Bool.and_eq_true,
    accepted.failed, noChildStarted, exitProven]
  constructor
  · rintro (⟨⟨⟨outcome, kind⟩, childless⟩, confirmed⟩ | exited)
    · exact .inl ⟨outcome, ⟨⟨kind, childless⟩, believed _ confirmed⟩, confirmed⟩
    · exact .inr exited
  · rintro (⟨outcome, ⟨⟨kind, childless⟩, _⟩, confirmed⟩ | exited)
    · exact .inl ⟨⟨⟨outcome, kind⟩, childless⟩, confirmed⟩
    · exact .inr exited

/-- The two proofs agree on an evidence just where a spawn failure without a child is confirmed
as the codec asks for it. -/
theorem proofs_agree {outcome : TerminalSessionOutcome} {evidence : Evidence} (cleaning : Bool)
    (accepted : AcceptedOutcome outcome)
    (boolean : isBoolean evidence.terminationConfirmed = true) :
    (terminalProven darwin (.terminal outcome evidence) = true ↔
      isBool evidence.terminationConfirmed true = true ∧
        (stateView (recordedState outcome cleaning evidence)).proves darwin = true) ↔
      Coincide darwin outcome evidence := by
  rw [terminalProven_iff darwin boolean, proves_iff darwin cleaning accepted, Coincide]
  constructor
  · intro agree failed childless
    obtain ⟨confirmed, ⟨_, _, cleaned⟩ | exited⟩ := agree.mp (.inl ⟨failed, childless⟩)
    · exact ⟨confirmed, .inl cleaned⟩
    · exact ⟨confirmed, .inr exited⟩
  · intro coincide
    constructor
    · rintro (⟨failed, childless⟩ | ⟨confirmed, exited⟩)
      · obtain ⟨confirmed, cleaned | exited⟩ := coincide failed childless
        · exact ⟨confirmed, .inl ⟨failed, childless, cleaned⟩⟩
        · exact ⟨confirmed, .inr exited⟩
      · exact ⟨confirmed, .inr exited⟩
    · rintro ⟨confirmed, ⟨failed, childless, _⟩ | exited⟩
      · exact .inl ⟨failed, childless⟩
      · exact .inr ⟨confirmed, exited⟩

/-! ## Runs -/

/-- The state after an operation. A rejected event leaves it as it was. -/
def step (state : SessionState) (operation : Operation) : SessionState :=
  (operation.apply darwin state).getD state

/-- An operation that decides an outcome does so on evidence on which the two proofs agree, and
whether the termination is confirmed is observed as a boolean. -/
structure Agreeable (state : SessionState) (operation : Operation) : Prop where
  observed : ∀ record, operation = .refresh record → isBoolean record.terminationConfirmed = true
  coincide : ∀ outcome, Decides darwin state operation outcome →
    Coincide darwin outcome (operation.evidence state)

/-- A state with a boolean confirmation whose claim to be terminal passes the codec. -/
structure Sound (state : SessionState) : Prop where
  canonical : Canonical state
  boolean : isBoolean state.evidence.terminationConfirmed = true
  proof : ProofAccepted darwin state

/-- The states that an admitted event leads to. -/
inductive Reduced (state : SessionState) (event : LifecycleEvent) : SessionState → Prop where
  | kept : Reduced state event state
  | lost : Reduced state event (toUnreachable state state.isCleaning)
  | active (kind : ActiveKind) : Reduced state event (.active kind state.evidence)
  | stopping : Reduced state event (.cleaning .stopping .absent .absent none state.evidence)
  | decided (outcome : TerminalSessionOutcome) (ends : terminalEvent event = some outcome)
      (decides : Decides darwin state (.reduce event) outcome) :
      Reduced state event (terminalOrUnreachable darwin state outcome state.isCleaning)

theorem reduce_reduced {state next : SessionState} {event : LifecycleEvent}
    (admitted : reduceSessionState darwin state event = some next) :
    Reduced darwin state event next := by
  by_cases lost : event = .unreachable
  · subst lost
    cases admitted
    exact .lost
  cases ends : terminalEvent event with
  | some outcome =>
    by_cases settled : ∃ recorded evidence, state = .terminal recorded evidence
    · obtain ⟨recorded, evidence, rfl⟩ := settled
      simp only [reduceSessionState, lost, if_false, Option.ite_none_right_eq_some,
        Option.some.injEq] at admitted
      rw [← admitted.2]
      exact .kept
    · have unsettled : ∀ recorded evidence, state ≠ .terminal recorded evidence :=
        fun recorded evidence same => settled ⟨recorded, evidence, same⟩
      rw [reduce_settles darwin ends admitted unsettled]
      exact .decided outcome ends (.reduced ends admitted unsettled)
  | none =>
    have quiet : event = .workerReady ∨ event = .stopRequested ∨ event = .recovered := by
      cases event <;> simp_all [terminalEvent]
    cases state with
    | active kind evidence =>
      obtain rfl | rfl | rfl := quiet <;> cases kind <;>
        simp only [reduceSessionState, terminalEvent, reduceCtorEq, if_false, if_true, and_true,
          and_self, and_false, Option.map_none, Option.some.injEq] at admitted <;>
        subst admitted <;> exact .active _
    | terminal recorded evidence =>
      simp [reduceSessionState, lost, ends] at admitted
    | unreachable known payload evidence =>
      obtain rfl | rfl | rfl := quiet <;> cases known <;>
        simp only [reduceSessionState, reduceCtorEq, if_false, Option.some.injEq] at admitted <;>
        subst admitted <;> exact .active .running
    | cleaning target recorded known payload evidence =>
      obtain rfl | rfl | rfl := quiet <;> cases target <;>
        simp only [reduceSessionState, terminalEvent, reduceCtorEq, if_false, if_true,
          Option.some.injEq] at admitted <;>
        subst admitted <;> exact .stopping

theorem reduce_evidence {state next : SessionState} {event : LifecycleEvent}
    (reduced : Reduced darwin state event next) : next.evidence = state.evidence := by
  cases reduced with
  | lost =>
    rw [toUnreachable]
    split <;> rfl
  | decided outcome =>
    obtain ⟨_, settled⟩ | ⟨_, settled⟩ :=
      terminalOrUnreachable_cases darwin state outcome state.isCleaning <;>
      rw [settled] <;> split <;> rfl
  | _ => rfl

theorem refresh_confirmed (state : SessionState) (record : LifecycleProjection) :
    (refreshSessionState darwin state record).evidence.terminationConfirmed =
      record.terminationConfirmed := by
  cases state with
  | active kind stored =>
    simp only [refreshSessionState]
    split <;> rfl
  | terminal outcome stored =>
    simp only [refreshSessionState]
    split <;> split <;> rfl
  | unreachable known payload stored =>
    simp only [refreshSessionState]
    split <;> rfl
  | cleaning target outcome known payload stored =>
    cases target with
    | terminal =>
      rw [refresh_cleaning_terminal]
      split <;> rfl
    | _ => rfl

/-- The payload of a state whose tags are read as they are written. -/
theorem terminalPayload_canonical {state : SessionState} (canonical : Canonical state) :
    ∀ payload ∈ terminalPayload state, CanonicalOutcome payload.outcome := by
  intro payload member
  cases state with
  | active kind evidence => cases member
  | terminal outcome evidence =>
    cases member
    exact canonical
  | unreachable known remembered evidence => exact canonical.2 payload member
  | cleaning target outcome known remembered evidence =>
    obtain ⟨_, outcomeCanonical, _, each⟩ := canonical
    cases target with
    | terminal =>
      simp only [terminalPayload] at member
      split at member
      · cases member
        exact outcomeCanonical
      · exact each payload member
    | _ => exact each payload member

theorem lastKnown_canonical {state : SessionState} (canonical : Canonical state) :
    CanonicalTarget (lastKnown state) := by
  cases state with
  | active kind evidence => cases kind <;> rfl
  | terminal outcome evidence => rfl
  | unreachable known remembered evidence => rfl
  | cleaning target outcome known remembered evidence =>
    obtain ⟨targetCanonical, _, knownCanonical, _⟩ := canonical
    cases target with
    | unreachable =>
      simp only [lastKnown]
      split
      · rfl
      · rfl
      · exact knownCanonical
    | other raw => exact targetCanonical
    | _ => rfl

theorem reduce_canonical {state next : SessionState} {event : LifecycleEvent}
    (canonical : Canonical state) (reduced : Reduced darwin state event next) :
    Canonical next := by
  cases reduced with
  | kept => exact canonical
  | lost =>
    have known : CanonicalTarget
        (if (terminalPayload state).isSome then .terminal else lastKnown state) := by
      split
      · rfl
      · exact lastKnown_canonical canonical
    have payload := terminalPayload_canonical canonical
    rw [toUnreachable]
    cases state.isCleaning with
    | true => exact ⟨rfl, rfl, known, payload⟩
    | false => exact ⟨known, payload⟩
  | active kind => trivial
  | stopping => exact ⟨rfl, rfl, rfl, by simp⟩
  | decided outcome ends =>
    exact terminalOrUnreachable_canonical darwin state
      (acceptedOutcome_named (terminalEvent_named ends)).canonical _

/-- A state with an active kind, or one to be cleaned up after it was, claims nothing. -/
theorem unclaimed_active (kind : ActiveKind) (evidence : Evidence) :
    (stateView (.active kind evidence)).claims = false := by
  cases kind <;> rfl

/-- A state that is cleaned up claims to be terminal just where its target is. -/
theorem claims_cleaning {target : SessionStateTarget} (outcome : TerminalSessionOutcome)
    (known : SessionStateTarget) (payload : Option TerminalSessionPayload) (evidence : Evidence)
    (canonical : CanonicalTarget target) :
    (stateView (.cleaning target outcome known payload evidence)).claims = true ↔
      target = .terminal := by
  constructor
  · intro claims
    have named : isText target.toJs "terminal" = true := claims
    exact target_of_text canonical named
  · rintro rfl
    rfl

/-- A reduction to a claim kept the state, or decided the outcome. -/
theorem reduce_claims {state next : SessionState} {event : LifecycleEvent}
    (reduced : Reduced darwin state event next) (claims : (stateView next).claims = true) :
    next = state ∨ ∃ outcome, outcome.Named ∧ Decides darwin state (.reduce event) outcome := by
  cases reduced with
  | kept => exact .inl rfl
  | lost =>
    rw [toUnreachable] at claims
    split at claims <;> cases claims
  | active kind =>
    rw [unclaimed_active] at claims
    cases claims
  | stopping => cases claims
  | decided outcome ends decides => exact .inr ⟨outcome, terminalEvent_named ends, decides⟩

/-- A refresh to a claim decided the outcome that the state had claimed. -/
theorem refresh_claims {state : SessionState} {record : LifecycleProjection}
    (canonical : Canonical state)
    (claims : (stateView (refreshSessionState darwin state record)).claims = true) :
    (stateView state).claims = true ∧ ∃ outcome, (stateView state).outcome = outcome.toJs ∧
      CanonicalOutcome outcome ∧ Decides darwin state (.refresh record) outcome := by
  cases state with
  | active kind stored =>
    simp only [refreshSessionState] at claims
    split at claims
    · have target : CanonicalTarget kind.target := by cases kind <;> rfl
      have terminal := (claims_cleaning _ _ _ _ target).mp claims
      cases kind <;> cases terminal
    · rw [unclaimed_active] at claims
      cases claims
  | terminal outcome stored => exact ⟨rfl, outcome, rfl, canonical, .terminal outcome stored record⟩
  | unreachable known payload stored =>
    simp only [refreshSessionState] at claims
    split at claims
    · have target : CanonicalTarget .unreachable := rfl
      have terminal := (claims_cleaning _ _ _ _ target).mp claims
      cases terminal
    · cases claims
  | cleaning target outcome known payload stored =>
    obtain ⟨targetCanonical, outcomeCanonical, _⟩ := canonical
    by_cases terminal : target = .terminal
    · subst terminal
      exact ⟨rfl, outcome, rfl, outcomeCanonical, .cleaning outcome known payload stored record⟩
    · have kept : ∃ current last, refreshSessionState darwin
          (.cleaning target outcome known payload stored) record =
            .cleaning target current last payload (observedEvidence record) := by
        cases target with
        | terminal => exact absurd rfl terminal
        | _ => exact ⟨_, _, rfl⟩
      obtain ⟨current, last, kept⟩ := kept
      rw [kept] at claims
      exact absurd ((claims_cleaning _ _ _ _ targetCanonical).mp claims) terminal

/-- Where the two proofs agree, an operation that decides an outcome leads to a state whose claim
passes the codec. -/
theorem decides_proof {state : SessionState} {operation : Operation}
    {outcome : TerminalSessionOutcome} (accepted : AcceptedOutcome outcome)
    (decides : Decides darwin state operation outcome)
    (boolean : isBoolean (operation.evidence state).terminationConfirmed = true)
    (coincide : Coincide darwin outcome (operation.evidence state)) :
    ProofAccepted darwin (step darwin state operation) := by
  intro claims
  have cases := decides_cases darwin decides
  by_cases proven : terminalProven darwin (.terminal outcome (operation.evidence state)) = true
  · rw [if_pos proven] at cases
    have settled : step darwin state operation =
        recordedState outcome (operation.cleaning state) (operation.evidence state) := by
      rw [step, cases, Option.getD_some]
    obtain ⟨_, recorded, read⟩ :=
      recorded_view outcome (operation.cleaning state) (operation.evidence state)
    have evidence : (step darwin state operation).evidence = operation.evidence state := by
      rw [settled]
      exact read
    rw [evidence, settled, recorded]
    have agree := (proofs_agree darwin (operation.cleaning state) accepted boolean).mpr coincide
    exact ⟨accepted.converts, agree.mp proven⟩
  · rw [if_neg proven] at cases
    rw [step, cases, Option.getD_some, rememberedState] at claims
    split at claims <;> cases claims

/-- A sound state stays sound under an operation on agreeable evidence. -/
theorem step_sound {state : SessionState} {operation : Operation} (sound : Sound darwin state)
    (agreeable : Agreeable darwin state operation) : Sound darwin (step darwin state operation) := by
  cases operation with
  | reduce event =>
    cases admitted : reduceSessionState darwin state event with
    | none =>
      have kept : step darwin state (.reduce event) = state := by
        rw [step, Operation.apply, admitted, Option.getD_none]
      rwa [kept]
    | some next =>
      have moved : step darwin state (.reduce event) = next := by
        rw [step, Operation.apply, admitted, Option.getD_some]
      have reduced := reduce_reduced darwin admitted
      rw [moved]
      refine ⟨reduce_canonical darwin sound.canonical reduced, ?_, ?_⟩
      · rw [reduce_evidence darwin reduced]
        exact sound.boolean
      · intro claims
        obtain rfl | ⟨outcome, named, decides⟩ := reduce_claims darwin reduced claims
        · exact sound.proof claims
        · have proof := decides_proof darwin (acceptedOutcome_named named) decides sound.boolean
            (agreeable.coincide outcome decides)
          rw [moved] at proof
          exact proof claims
  | refresh record =>
    have boolean := agreeable.observed record rfl
    refine ⟨refresh_canonical darwin sound.canonical record, ?_, ?_⟩
    · rw [step, Operation.apply, Option.getD_some, refresh_confirmed]
      exact boolean
    · intro claims
      obtain ⟨claimed, outcome, read, canonical, decides⟩ :=
        refresh_claims darwin sound.canonical claims
      have converts := (sound.proof claimed).1
      rw [read] at converts
      exact decides_proof darwin ⟨canonical, converts⟩ decides boolean
        (agreeable.coincide outcome decides) claims

/-- A state that the codec accepts is sound. -/
theorem accepted_sound {state : SessionState} (canonical : Canonical state)
    (accepted : Accepted darwin state) : Sound darwin state := by
  have valid := (stateJson_pass darwin canonical).mp accepted
  exact ⟨canonical, valid.evidence.confirmed, valid.proven⟩

/-- The lifecycle records a terminal outcome on an evidence just where the codec accepts the
recorded state, if and only if a spawn failure without a child is confirmed as the codec asks for
it. From a state that the codec accepts, every run of operations on such evidence stays among the
states whose claims to be terminal the codec accepts. -/
theorem terminal_agreement :
    (∀ (state : SessionState) (operation : Operation) (outcome : TerminalSessionOutcome),
      Decides darwin state operation outcome → outcome.Named →
      ValidEvidence (operation.evidence state) → (operation.evidence state).legacy = none →
      ((operation.apply darwin state =
            some (recordedState outcome (operation.cleaning state) (operation.evidence state)) ↔
          Accepted darwin
            (recordedState outcome (operation.cleaning state) (operation.evidence state))) ↔
        Coincide darwin outcome (operation.evidence state))) ∧
    ∀ (start : SessionState) (operations : List Operation), Canonical start →
      Accepted darwin start → Along (step darwin) (Agreeable darwin) start operations →
      ProofAccepted darwin (run (step darwin) start operations) := by
  constructor
  · intro state operation outcome decides named valid unmigrated
    have accepted := acceptedOutcome_named named
    rw [decides_recorded darwin decides, recorded_accepted darwin _ accepted valid unmigrated]
    exact proofs_agree darwin _ accepted valid.confirmed
  · intro start operations canonical accepted along
    have sound : Sound darwin (run (step darwin) start operations) :=
      run_preserves_along (fun state operation sound agreeable => step_sound darwin sound agreeable)
        start operations (accepted_sound darwin canonical accepted) along
    exact sound.proof

/-- A spawn failure whose cleanup confirmed that no child was started, with the termination
confirmed or not. -/
def spawnFailure (confirmed : Bool) : Evidence :=
  { Evidence.empty with
    pid := some (.int 0)
    timedOut := some (.bool false)
    terminationRequested := some (.bool false)
    terminationConfirmed := some (.bool confirmed)
    streamDrain := some (.text "unknown")
    exitReason := some (record
      [("kind", some (.text "spawn_error")), ("message", some (.text "worker did not start")),
        ("cleanup", some (record
          [("requested", some (.bool false)), ("terminationConfirmed", some (.bool true)),
            ("method", some (.text "none")), ("directChildStarted", some (.bool false))]))]) }

theorem spawnFailure_valid (confirmed : Bool) : ValidEvidence (spawnFailure confirmed) := by
  cases confirmed <;> exact ⟨by decide, by decide, by decide, by decide, by decide, by decide⟩

/-- With the termination confirmed, the spawn failure is recorded and its state accepted. -/
theorem terminal_agreement_spawn_failure :
    Accepted false (recordedState .spawnFailed false (spawnFailure true)) := by
  have decides : Decides false (.active .creating (spawnFailure true)) (.reduce .spawnFailed)
      .spawnFailed := by
    refine .reduced rfl rfl ?_
    intro recorded evidence same
    cases same
  have coincide : Coincide false .spawnFailed (spawnFailure true) :=
    fun _ _ => ⟨by decide, .inl (by decide)⟩
  have agree := ((terminal_agreement false).1 (.active .creating (spawnFailure true))
    (.reduce .spawnFailed) .spawnFailed decides trivial (spawnFailure_valid true) rfl).mpr coincide
  exact agree.mp ((decides_recorded false decides).mpr (by decide))

/-- Without it, the codec accepts the session under creation, the lifecycle records its failure
as terminal, and the codec refuses the recorded state. -/
theorem unconfirmed_spawn_failure :
    Accepted false (.active .creating (spawnFailure false)) ∧
      reduceSessionState false (.active .creating (spawnFailure false)) .spawnFailed =
        some (.terminal .spawnFailed (spawnFailure false)) ∧
      ¬ Accepted false (.terminal .spawnFailed (spawnFailure false)) ∧
      ¬ ProofAccepted false (.terminal .spawnFailed (spawnFailure false)) := by
  have refused : ¬ ProofAccepted false (.terminal .spawnFailed (spawnFailure false)) := by
    intro proof
    exact absurd (proof rfl).2.1 (by decide)
  refine ⟨?_, rfl, ?_, refused⟩
  · exact (stateJson_pass false (by trivial)).mpr
      { evidence := spawnFailure_valid false
        legacy := by simp [stateView, SessionState.evidence, spawnFailure, Evidence.empty]
        terminal := by simp [stateView]
        proven := by simp [unclaimed_active]
        cleanup := by simp [stateView, SessionState.evidence, spawnFailure, Evidence.empty, isBool]
        tags := .active .creating rfl rfl rfl rfl rfl rfl }
  · intro accepted
    have canonical : Canonical (.terminal .spawnFailed (spawnFailure false)) := rfl
    exact refused (accepted_sound false canonical accepted).proof

end OpencodePty.TerminalAgreement
