import OpencodePty.Lifecycle
import OpencodePty.Transitions
import Mathlib.Logic.Function.Iterate

/-!
# Runs of the session lifecycle

The supervisor moves a session by refreshing its state with what it observed and
then reducing an event; a rejected event leaves the state as it was. The results
here are about every run of such transitions from a session under creation: a
session that is being cleaned stays so, a terminal outcome once recorded is the
outcome of every later state, a terminal state is backed by its current evidence,
and a stopping session runs again only after it was unreachable and recovered.
-/

namespace OpencodePty.LifecycleRuns

open JsValues Lifecycle Transitions

variable (darwin : Bool)

/-- One lifecycle transition of the supervisor: observe, then reduce the event.
The state before the observation is kept where the event is rejected. -/
def transition (state : SessionState) (observed : LifecycleProjection × LifecycleEvent) :
    SessionState :=
  (reduceSessionState darwin (refreshSessionState darwin state observed.1) observed.2).getD state

/-- The terminal outcome that a state records, as its own or as a payload. -/
def recordedOutcome : SessionState → Option TerminalSessionOutcome
  | .terminal outcome _ => some outcome
  | .cleaning .terminal outcome _ _ _ => some outcome
  | .unreachable _ terminal _ => terminal.map (·.outcome)
  | .cleaning _ _ _ terminal _ => terminal.map (·.outcome)
  | .active _ _ => none

/-- The evidence of a state that claims to be terminal proves it. While the state
is being cleaned, the proof is that of the terminal state it was made from. -/
def TerminalBacked : SessionState → Prop
  | .terminal outcome evidence => terminalProven darwin (.terminal outcome evidence) = true
  | .cleaning .terminal outcome _ _ evidence =>
    terminalProven darwin (.terminal outcome evidence) = true
  | _ => True

/-- The relation between the tags of a state that every transition keeps: recorded
outcomes are named, and a payload is remembered only under the last known kind
`terminal`, from which no event recovers. -/
def WellTagged : SessionState → Prop
  | .active _ _ => True
  | .terminal outcome _ => outcome.Named
  | .unreachable known terminal _ =>
    ∀ payload, terminal = some payload → known = .terminal ∧ payload.outcome.Named
  | .cleaning target outcome known terminal _ =>
    (target = .terminal → outcome.Named ∧ terminal = none) ∧
      ∀ payload, terminal = some payload →
        target = .unreachable ∧ known = .terminal ∧ payload.outcome.Named

/-- The name of an end is truthy. -/
theorem named_truthy {outcome : TerminalSessionOutcome} (named : outcome.Named) :
    truthy outcome.toJs = true := by
  cases outcome with
  | other raw => exact named.elim
  | _ => rfl

/-- An event that ends a session names the end. -/
theorem terminalEvent_named {event : LifecycleEvent} {outcome : TerminalSessionOutcome}
    (ends : terminalEvent event = some outcome) : outcome.Named := by
  cases event <;> simp only [terminalEvent, Option.some.injEq, reduceCtorEq] at ends <;>
    subst ends <;> trivial

/-- Every accepted event of a well-tagged state, with the state it leads to. -/
theorem reduce_cases {state next : SessionState} {event : LifecycleEvent}
    (tagged : WellTagged state)
    (reduced : reduceSessionState darwin state event = some next) :
    (event = .unreachable ∧ next = toUnreachable state state.isCleaning) ∨
    (event = .recovered ∧ ∃ known terminal evidence,
      state = .unreachable known terminal evidence ∧ known ≠ .terminal ∧
        next = .active .running evidence) ∨
    (∃ outcome, terminalEvent event = some outcome ∧ recordedOutcome state = none ∧
      (state.isActive || state.isCleaning) = true ∧
      next = terminalOrUnreachable darwin state outcome state.isCleaning) ∨
    next = state ∨
    (event = .workerReady ∧ ∃ evidence,
      state = .active .creating evidence ∧ next = .active .running evidence) ∨
    (∃ kind evidence, state = .active kind evidence ∧ next = .active .stopping evidence) ∨
    (∃ target outcome known evidence, state = .cleaning target outcome known none evidence ∧
      target ≠ .terminal ∧ next = .cleaning .stopping .absent .absent none evidence) := by
  by_cases lost : event = .unreachable
  · subst lost
    simp only [reduceSessionState, ↓reduceIte, Option.some.injEq] at reduced
    exact .inl ⟨rfl, reduced.symm⟩
  right
  cases state with
  | active kind evidence =>
    cases kind <;> cases event <;>
      simp_all [reduceSessionState, terminalEvent, recordedOutcome, SessionState.isActive,
        SessionState.isCleaning]
  | terminal outcome evidence =>
    simp only [reduceSessionState, lost, ↓reduceIte] at reduced
    split at reduced
    · simp_all
    · simp at reduced
  | unreachable known terminal evidence =>
    left
    cases event <;> cases known <;> simp_all [reduceSessionState]
  | cleaning target outcome known terminal evidence =>
    have settled : target ≠ .unreachable → terminal = none := by
      intro elsewhere
      cases terminal with
      | none => rfl
      | some payload => exact absurd (tagged.2 payload rfl).1 elsewhere
    cases event <;> cases target <;>
      simp_all [reduceSessionState, terminalEvent, recordedOutcome, SessionState.isActive,
        SessionState.isCleaning]

section Refresh

variable (state : SessionState) (record : LifecycleProjection)

/-- A terminal state under cleaning is proved again from the observed evidence. -/
theorem refresh_cleaning_terminal (outcome : TerminalSessionOutcome)
    (known : SessionStateTarget) (terminal : Option TerminalSessionPayload)
    (stored : Evidence) :
    refreshSessionState darwin (.cleaning .terminal outcome known terminal stored) record =
      if terminalProven darwin (.terminal outcome (observedEvidence record)) then
        .cleaning .terminal outcome .absent none (observedEvidence record)
      else .cleaning .unreachable .absent .terminal
        (some ⟨outcome, observedEvidence record⟩) (observedEvidence record) := by
  simp [refreshSessionState, terminalOrUnreachable, SessionState.evidence]

/-- A refresh keeps the recorded outcome of a well-tagged state. -/
theorem refresh_outcome (tagged : WellTagged state) :
    recordedOutcome (refreshSessionState darwin state record) = recordedOutcome state := by
  cases state with
  | active kind evidence =>
    simp only [refreshSessionState]
    split
    · cases kind <;> rfl
    · rfl
  | terminal outcome evidence =>
    simp only [refreshSessionState]
    split <;> split <;> rfl
  | unreachable known terminal evidence =>
    simp only [refreshSessionState]
    split <;> rfl
  | cleaning target outcome known terminal evidence =>
    cases target with
    | terminal =>
      rw [refresh_cleaning_terminal]
      split <;> rfl
    | _ => rfl

/-- A refresh leaves a state well tagged. -/
theorem refresh_tagged (tagged : WellTagged state) :
    WellTagged (refreshSessionState darwin state record) := by
  cases state with
  | active kind evidence =>
    simp only [refreshSessionState]
    split
    · cases kind <;> simp [toCleaning, WellTagged, ActiveKind.target]
    · trivial
  | terminal outcome evidence =>
    have named : outcome.Named := tagged
    simp only [refreshSessionState]
    split <;> split <;> simp [toCleaning, WellTagged, named]
  | unreachable known terminal evidence =>
    simp only [refreshSessionState]
    split
    · simpa [toCleaning, WellTagged] using tagged
    · exact tagged
  | cleaning target outcome known terminal evidence =>
    cases target with
    | terminal =>
      have named : outcome.Named := (tagged.1 rfl).1
      rw [refresh_cleaning_terminal]
      split <;> simp [WellTagged, named]
    | unreachable =>
      refine ⟨by simp, ?_⟩
      intro payload remembered
      obtain ⟨_, rfl, named⟩ := tagged.2 payload remembered
      exact ⟨rfl, rfl, named⟩
    | _ =>
      refine ⟨by simp, ?_⟩
      intro payload remembered
      exact absurd (tagged.2 payload remembered).1 (by simp)

/-- A terminal state is backed by its evidence after every refresh. -/
theorem refresh_backed : TerminalBacked darwin (refreshSessionState darwin state record) := by
  cases state with
  | active kind evidence =>
    simp only [refreshSessionState]
    split
    · cases kind <;> trivial
    · trivial
  | terminal outcome evidence =>
    simp only [refreshSessionState]
    by_cases proven : terminalProven darwin (.terminal outcome (observedEvidence record)) = true
    · simp only [proven, ↓reduceIte]
      split <;> exact proven
    · simp only [proven, Bool.false_eq_true, ↓reduceIte]
      split <;> trivial
  | unreachable known terminal evidence =>
    simp only [refreshSessionState]
    split <;> trivial
  | cleaning target outcome known terminal evidence =>
    cases target with
    | terminal =>
      rw [refresh_cleaning_terminal]
      split
      · assumption
      · trivial
    | _ => trivial

/-- A refresh leaves a cleanup. -/
theorem refresh_cleaning (cleaned : state.isCleaning = true) :
    (refreshSessionState darwin state record).isCleaning = true := by
  cases state with
  | cleaning target outcome known terminal evidence =>
    cases target with
    | terminal =>
      rw [refresh_cleaning_terminal]
      split <;> rfl
    | _ => rfl
  | _ => simp [SessionState.isCleaning] at cleaned

end Refresh

section Reduce

variable {state next : SessionState} {event : LifecycleEvent}

/-- An unreachable session remembers exactly the outcome it had recorded. -/
theorem toUnreachable_outcome (tagged : WellTagged state) (cleaning : Bool) :
    recordedOutcome (toUnreachable state cleaning) = recordedOutcome state := by
  have remembered : (terminalPayload state).map (·.outcome) = recordedOutcome state := by
    cases state with
    | cleaning target outcome known terminal evidence =>
      cases target with
      | terminal => simp [terminalPayload, recordedOutcome, named_truthy (tagged.1 rfl).1]
      | _ => rfl
    | _ => rfl
  cases cleaning <;> simpa [toUnreachable, recordedOutcome] using remembered

/-- An unreachable state is well tagged. -/
theorem toUnreachable_tagged (tagged : WellTagged state) (cleaning : Bool) :
    WellTagged (toUnreachable state cleaning) := by
  have outcomes : ∀ payload, terminalPayload state = some payload → payload.outcome.Named := by
    intro payload remembered
    cases state with
    | active kind evidence => simp [terminalPayload] at remembered
    | terminal outcome evidence =>
      simp only [terminalPayload, Option.some.injEq] at remembered
      subst remembered
      exact tagged
    | unreachable known terminal evidence => exact (tagged payload remembered).2
    | cleaning target outcome known terminal evidence =>
      cases target with
      | terminal =>
        simp only [terminalPayload, named_truthy (tagged.1 rfl).1, ↓reduceIte,
          Option.some.injEq] at remembered
        subst remembered
        exact (tagged.1 rfl).1
      | _ => exact (tagged.2 payload remembered).2.2
  cases cleaning <;> simp only [toUnreachable, Bool.false_eq_true, ↓reduceIte, WellTagged]
  · intro payload remembered
    exact ⟨by simp [remembered], outcomes payload remembered⟩
  · refine ⟨by simp, ?_⟩
    intro payload remembered
    exact ⟨trivial, by simp [remembered], outcomes payload remembered⟩

/-- It is a cleanup where it is to be one. -/
theorem toUnreachable_cleaning (cleaning : Bool) :
    (toUnreachable state cleaning).isCleaning = cleaning := by
  cases cleaning <;> rfl

/-- It does not say that the session has ended. -/
theorem toUnreachable_backed (cleaning : Bool) :
    TerminalBacked darwin (toUnreachable state cleaning) := by
  cases cleaning <;> trivial

/-- An accepted event keeps the outcome of a state that has recorded one. -/
theorem reduce_outcome {outcome : TerminalSessionOutcome} (tagged : WellTagged state)
    (recorded : recordedOutcome state = some outcome)
    (reduced : reduceSessionState darwin state event = some next) :
    recordedOutcome next = some outcome := by
  rcases reduce_cases darwin tagged reduced with
    ⟨_, rfl⟩ | ⟨_, known, terminal, evidence, rfl, recoverable, rfl⟩ | ⟨_, _, unrecorded, _, _⟩ |
    rfl | ⟨_, evidence, rfl, _⟩ | ⟨kind, evidence, rfl, _⟩ |
    ⟨target, _, known, evidence, rfl, elsewhere, _⟩
  · exact (toUnreachable_outcome tagged _).trans recorded
  · cases terminal with
    | none => simp [recordedOutcome] at recorded
    | some payload => exact absurd (tagged payload rfl).1 recoverable
  · simp [unrecorded] at recorded
  · exact recorded
  · simp [recordedOutcome] at recorded
  · simp [recordedOutcome] at recorded
  · cases target <;> simp_all [recordedOutcome]

/-- An event leaves a state well tagged. -/
theorem reduce_tagged (tagged : WellTagged state)
    (reduced : reduceSessionState darwin state event = some next) : WellTagged next := by
  rcases reduce_cases darwin tagged reduced with
    ⟨_, rfl⟩ | ⟨_, known, terminal, evidence, rfl, _, rfl⟩ | ⟨outcome, ends, _, _, rfl⟩ |
    rfl | ⟨_, evidence, rfl, rfl⟩ | ⟨kind, evidence, rfl, rfl⟩ |
    ⟨target, _, known, evidence, rfl, _, rfl⟩
  · exact toUnreachable_tagged tagged _
  · trivial
  · have named := terminalEvent_named ends
    rcases terminalOrUnreachable_cases darwin state outcome state.isCleaning with
      ⟨_, settled⟩ | ⟨_, settled⟩ <;> rw [settled] <;> split <;> simp [WellTagged, named]
  · exact tagged
  · trivial
  · trivial
  · simp [WellTagged]

/-- An event leads to an end only where the evidence proves it. -/
theorem reduce_backed (tagged : WellTagged state) (backed : TerminalBacked darwin state)
    (reduced : reduceSessionState darwin state event = some next) :
    TerminalBacked darwin next := by
  rcases reduce_cases darwin tagged reduced with
    ⟨_, rfl⟩ | ⟨_, known, terminal, evidence, rfl, _, rfl⟩ | ⟨outcome, ends, _, _, rfl⟩ |
    rfl | ⟨_, evidence, rfl, rfl⟩ | ⟨kind, evidence, rfl, rfl⟩ |
    ⟨target, _, known, evidence, rfl, _, rfl⟩
  · exact toUnreachable_backed darwin _
  · trivial
  · rcases terminalOrUnreachable_cases darwin state outcome state.isCleaning with
      ⟨proven, settled⟩ | ⟨_, settled⟩ <;> rw [settled] <;> split
    · exact proven
    · exact proven
    · trivial
    · trivial
  · exact backed
  · trivial
  · trivial
  · trivial

/-- An event leaves a cleanup. -/
theorem reduce_cleaning (tagged : WellTagged state) (cleaned : state.isCleaning = true)
    (reduced : reduceSessionState darwin state event = some next) :
    next.isCleaning = true := by
  rcases reduce_cases darwin tagged reduced with
    ⟨_, rfl⟩ | ⟨_, known, terminal, evidence, rfl, _, rfl⟩ | ⟨outcome, ends, _, _, rfl⟩ |
    rfl | ⟨_, evidence, rfl, rfl⟩ | ⟨kind, evidence, rfl, rfl⟩ |
    ⟨target, _, known, evidence, rfl, _, rfl⟩
  · exact (toUnreachable_cleaning _).trans cleaned
  · simp [SessionState.isCleaning] at cleaned
  · exact (terminalOrUnreachable_cleaning darwin state outcome _).trans cleaned
  · exact cleaned
  · simp [SessionState.isCleaning] at cleaned
  · simp [SessionState.isCleaning] at cleaned
  · rfl

end Reduce

/-- The state under a transition is the reduced refreshed state, or unchanged. -/
theorem transition_cases (state : SessionState)
    (observed : LifecycleProjection × LifecycleEvent) :
    (reduceSessionState darwin (refreshSessionState darwin state observed.1) observed.2 =
      some (transition darwin state observed)) ∨ transition darwin state observed = state := by
  cases reduced : reduceSessionState darwin (refreshSessionState darwin state observed.1)
    observed.2 with
  | none => exact .inr (by simp [transition, reduced])
  | some next => exact .inl (by simp [transition, reduced])

/-- An observed event leaves a state well tagged. -/
theorem transition_tagged (state : SessionState)
    (observed : LifecycleProjection × LifecycleEvent) (tagged : WellTagged state) :
    WellTagged (transition darwin state observed) := by
  rcases transition_cases darwin state observed with reduced | same
  · exact reduce_tagged darwin (refresh_tagged darwin state observed.1 tagged) reduced
  · rwa [same]

/-- An observed event leads to an end only where the evidence proves it. -/
theorem transition_backed (state : SessionState)
    (observed : LifecycleProjection × LifecycleEvent) (tagged : WellTagged state)
    (backed : TerminalBacked darwin state) :
    TerminalBacked darwin (transition darwin state observed) := by
  rcases transition_cases darwin state observed with reduced | same
  · exact reduce_backed darwin (refresh_tagged darwin state observed.1 tagged)
      (refresh_backed darwin state observed.1) reduced
  · rwa [same]

/-- An observed event leaves a cleanup. -/
theorem transition_cleaning (state : SessionState)
    (observed : LifecycleProjection × LifecycleEvent) (tagged : WellTagged state)
    (cleaned : state.isCleaning = true) :
    (transition darwin state observed).isCleaning = true := by
  rcases transition_cases darwin state observed with reduced | same
  · exact reduce_cleaning darwin (refresh_tagged darwin state observed.1 tagged)
      (refresh_cleaning darwin state observed.1 cleaned) reduced
  · rwa [same]

/-- An observed event leaves the end that is recorded. -/
theorem transition_outcome {outcome : TerminalSessionOutcome} (state : SessionState)
    (observed : LifecycleProjection × LifecycleEvent) (tagged : WellTagged state)
    (recorded : recordedOutcome state = some outcome) :
    recordedOutcome (transition darwin state observed) = some outcome := by
  rcases transition_cases darwin state observed with reduced | same
  · exact reduce_outcome darwin (refresh_tagged darwin state observed.1 tagged)
      ((refresh_outcome darwin state observed.1 tagged).trans recorded) reduced
  · rwa [same]

/-- A state that records a terminal outcome is of no active kind. -/
theorem recorded_inactive {state : SessionState} {outcome : TerminalSessionOutcome}
    (recorded : recordedOutcome state = some outcome) : state.isActive = false := by
  cases state with
  | active kind evidence => simp [recordedOutcome] at recorded
  | _ => rfl

/-- The state is active and of this kind. -/
def IsKind (kind : ActiveKind) (state : SessionState) : Prop :=
  ∃ evidence, state = .active kind evidence

/-- The state is unreachable. -/
def IsUnreachable (state : SessionState) : Prop :=
  ∃ known terminal evidence, state = .unreachable known terminal evidence

/-- An unreachable session stays so, is cleaned, or runs again by `recovered`. -/
theorem unreachable_step {state : SessionState} (tagged : WellTagged state)
    (lost : IsUnreachable state) (observed : LifecycleProjection × LifecycleEvent) :
    IsUnreachable (transition darwin state observed) ∨
      (transition darwin state observed).isCleaning = true ∨
      (observed.2 = .recovered ∧ IsKind .running (transition darwin state observed)) := by
  obtain ⟨known, terminal, stored, rfl⟩ := lost
  by_cases pending : truthy observed.1.pendingCleanup = true
  · have cleaned : (refreshSessionState darwin (.unreachable known terminal stored)
        observed.1).isCleaning = true := by
      simp [refreshSessionState, pending, toCleaning, SessionState.isCleaning]
    rcases transition_cases darwin (.unreachable known terminal stored) observed with
      reduced | same
    · exact .inr (.inl (reduce_cleaning darwin
        (refresh_tagged darwin _ observed.1 tagged) cleaned reduced))
    · exact .inl ⟨known, terminal, stored, same⟩
  · have refreshed : refreshSessionState darwin (.unreachable known terminal stored)
        observed.1 = .unreachable known terminal (observedEvidence observed.1) := by
      simp [refreshSessionState, pending]
    rcases transition_cases darwin (.unreachable known terminal stored) observed with
      reduced | same
    · rw [refreshed] at reduced
      rcases reduce_cases darwin (refreshed ▸ refresh_tagged darwin _ observed.1 tagged)
        reduced with ⟨_, next⟩ | ⟨back, _, _, evidence, _, _, next⟩ | ⟨_, _, _, other, _⟩ |
        next | ⟨_, _, other, _⟩ | ⟨_, _, other, _⟩ | ⟨_, _, _, _, other, _⟩
      · exact .inl ⟨_, _, _, next⟩
      · exact .inr (.inr ⟨back, evidence, next⟩)
      · simp [SessionState.isActive, SessionState.isCleaning] at other
      · exact .inl ⟨_, _, _, next⟩
      · simp at other
      · simp at other
      · simp at other
    · exact .inl ⟨known, terminal, stored, same⟩

/-- A stopping session stays so, is cleaned, records an outcome, or becomes
unreachable by that event. -/
theorem stopping_step {state : SessionState} (stopping : IsKind .stopping state)
    (observed : LifecycleProjection × LifecycleEvent) :
    IsKind .stopping (transition darwin state observed) ∨
      (transition darwin state observed).isCleaning = true ∨
      (∃ outcome, recordedOutcome (transition darwin state observed) = some outcome) ∨
      (observed.2 = .unreachable ∧ IsUnreachable (transition darwin state observed)) := by
  obtain ⟨stored, rfl⟩ := stopping
  by_cases pending : truthy observed.1.pendingCleanup = true
  · have cleaned : (refreshSessionState darwin (.active .stopping stored)
        observed.1).isCleaning = true := by
      simp [refreshSessionState, pending, toCleaning, SessionState.isCleaning]
    rcases transition_cases darwin (.active .stopping stored) observed with reduced | same
    · exact .inr (.inl (reduce_cleaning darwin
        (refresh_tagged darwin (.active .stopping stored) observed.1 trivial) cleaned reduced))
    · exact .inl ⟨stored, same⟩
  · have refreshed : refreshSessionState darwin (.active .stopping stored) observed.1 =
        .active .stopping (observedEvidence observed.1) := by
      simp [refreshSessionState, pending]
    rcases transition_cases darwin (.active .stopping stored) observed with reduced | same
    · rw [refreshed] at reduced
      have tagged : WellTagged (.active .stopping (observedEvidence observed.1)) := trivial
      rcases reduce_cases darwin tagged reduced with
        ⟨lost, next⟩ | ⟨_, _, _, _, other, _⟩ | ⟨outcome, _, _, _, next⟩ | next |
        ⟨_, _, other, _⟩ | ⟨_, evidence, _, next⟩ | ⟨_, _, _, _, other, _⟩
      · exact .inr (.inr (.inr ⟨lost, _, _, _, next⟩))
      · simp at other
      · refine .inr (.inr (.inl ⟨outcome, ?_⟩))
        rcases terminalOrUnreachable_cases darwin
          (.active .stopping (observedEvidence observed.1)) outcome false with
          ⟨_, settled⟩ | ⟨_, settled⟩
        · exact (congrArg recordedOutcome (next.trans settled)).trans rfl
        · exact (congrArg recordedOutcome (next.trans settled)).trans rfl
      · exact .inl ⟨_, next⟩
      · simp at other
      · exact .inl ⟨evidence, next⟩
      · simp at other
    · exact .inl ⟨stored, same⟩

section Runs

variable {state : SessionState}
  (steps : List (LifecycleProjection × LifecycleEvent)) (tagged : WellTagged state)
include tagged

/-- A run leaves a state well tagged. -/
theorem run_tagged : WellTagged (run (transition darwin) state steps) :=
  run_preserves (transition_tagged darwin) state steps tagged

/-- A run leaves a cleanup. -/
theorem run_cleaning (cleaned : state.isCleaning = true) :
    (run (transition darwin) state steps).isCleaning = true :=
  run_preserves_under (transition_tagged darwin) (transition_cleaning darwin) state steps
    tagged cleaned

/-- A run leaves the end that is recorded. -/
theorem run_outcome {outcome : TerminalSessionOutcome}
    (recorded : recordedOutcome state = some outcome) :
    recordedOutcome (run (transition darwin) state steps) = some outcome :=
  run_preserves_under (transition_tagged darwin) (transition_outcome darwin) state steps
    tagged recorded

/-- A run leads to an end only where the evidence proves it. -/
theorem run_backed (backed : TerminalBacked darwin state) :
    TerminalBacked darwin (run (transition darwin) state steps) :=
  run_preserves_under (transition_tagged darwin) (transition_backed darwin) state steps
    tagged backed

/-- An unreachable session that is running later left that state by `recovered`. -/
theorem unreachable_run (lost : IsUnreachable state)
    (running : IsKind .running (run (transition darwin) state steps)) :
    ∃ between back after, steps = between ++ (back, LifecycleEvent.recovered) :: after ∧
      IsUnreachable (run (transition darwin) state between) ∧
      IsKind .running
        (run (transition darwin) state (between ++ [(back, LifecycleEvent.recovered)])) := by
  induction steps generalizing state with
  | nil =>
    obtain ⟨_, _, _, rfl⟩ := lost
    obtain ⟨_, running⟩ := running
    simp at running
  | cons observed rest inductionHypothesis =>
    rcases unreachable_step darwin tagged lost observed with still | cleaned | ⟨back, again⟩
    · obtain ⟨between, last, after, split, before, afterwards⟩ :=
        inductionHypothesis (transition_tagged darwin state observed tagged) still running
      exact ⟨observed :: between, last, after, by simp [split], before, afterwards⟩
    · have stays := run_cleaning darwin rest (transition_tagged darwin state observed tagged)
        cleaned
      obtain ⟨_, running⟩ := running
      rw [run_cons] at running
      simp [running, SessionState.isCleaning] at stays
    · obtain ⟨view, event⟩ := observed
      subst back
      exact ⟨[], view, rest, rfl, lost, again⟩

end Runs

/-- A stopping session that is running later became unreachable by that event while
it was stopping, stayed unreachable, and then left that state by `recovered`. -/
theorem stopping_run {state : SessionState} (stopping : IsKind .stopping state)
    (steps : List (LifecycleProjection × LifecycleEvent))
    (running : IsKind .running (run (transition darwin) state steps)) :
    ∃ before lost between back after,
      steps = before ++ (lost, LifecycleEvent.unreachable) ::
        (between ++ (back, LifecycleEvent.recovered) :: after) ∧
      IsKind .stopping (run (transition darwin) state before) ∧
      IsUnreachable
        (run (transition darwin) state (before ++ [(lost, LifecycleEvent.unreachable)])) ∧
      IsUnreachable
        (run (transition darwin) state (before ++ (lost, LifecycleEvent.unreachable) :: between)) ∧
      IsKind .running (run (transition darwin) state
        (before ++ (lost, LifecycleEvent.unreachable) ::
          (between ++ [(back, LifecycleEvent.recovered)]))) := by
  induction steps generalizing state with
  | nil =>
    obtain ⟨_, rfl⟩ := stopping
    obtain ⟨_, running⟩ := running
    simp at running
  | cons observed rest inductionHypothesis =>
    have tagged : WellTagged (transition darwin state observed) := by
      obtain ⟨_, rfl⟩ := stopping
      exact transition_tagged darwin _ observed trivial
    rcases stopping_step darwin stopping observed with
      still | cleaned | ⟨outcome, recorded⟩ | ⟨away, lost⟩
    · obtain ⟨before, lost, between, back, after, split, found⟩ :=
        inductionHypothesis still running
      exact ⟨observed :: before, lost, between, back, after, by simp [split], found⟩
    · have stays := run_cleaning darwin rest tagged cleaned
      obtain ⟨_, running⟩ := running
      rw [run_cons] at running
      simp [running, SessionState.isCleaning] at stays
    · have stays := recorded_inactive (run_outcome darwin rest tagged recorded)
      obtain ⟨_, running⟩ := running
      rw [run_cons] at running
      simp [running, SessionState.isActive] at stays
    · obtain ⟨view, event⟩ := observed
      subst away
      obtain ⟨between, back, after, split, before, afterwards⟩ :=
        unreachable_run darwin rest tagged lost running
      exact ⟨[], view, between, back, after, by simp [split], stopping, lost, before, afterwards⟩

/-- In every run from a session under creation, at any two moments of it: cleaning
never ends; a recorded terminal outcome is the outcome of the later state, which is
of no active kind; a terminal state is proved by its current evidence; and a
stopping session runs later only through `unreachable` followed by `recovered`. -/
theorem lifecycle_monotone (evidence : Evidence)
    (first second : List (LifecycleProjection × LifecycleEvent)) :
    let earlier := run (transition darwin) (.active .creating evidence) first
    let later := run (transition darwin) earlier second
    (earlier.isCleaning = true → later.isCleaning = true) ∧
    (∀ outcome, recordedOutcome earlier = some outcome →
      recordedOutcome later = some outcome ∧ later.isActive = false) ∧
    TerminalBacked darwin earlier ∧
    (IsKind .stopping earlier → IsKind .running later →
      ∃ before lost between back after,
        second = before ++ (lost, .unreachable) :: (between ++ (back, .recovered) :: after) ∧
        IsKind .stopping (run (transition darwin) earlier before) ∧
        IsUnreachable (run (transition darwin) earlier (before ++ [(lost, .unreachable)])) ∧
        IsUnreachable (run (transition darwin) earlier
          (before ++ (lost, .unreachable) :: between)) ∧
        IsKind .running (run (transition darwin) earlier
          (before ++ (lost, .unreachable) :: (between ++ [(back, .recovered)])))) := by
  intro earlier later
  have started : WellTagged (.active .creating evidence) := trivial
  have tagged : WellTagged earlier := run_tagged darwin first started
  refine ⟨run_cleaning darwin second tagged, ?_, ?_, ?_⟩
  · intro outcome recorded
    have kept := run_outcome darwin second tagged recorded
    exact ⟨kept, recorded_inactive kept⟩
  · exact run_backed darwin first started trivial
  · exact fun stopping running => stopping_run darwin stopping second running

section Unreachability

/-- The kind that a state remembers in its `lastKnown` property. -/
def rememberedKind : SessionState → Option SessionStateTarget
  | .unreachable known _ _ | .cleaning _ _ known _ _ => some known
  | _ => none

/-- The state after one observation that the worker cannot be reached. -/
def unreachableOnce (state : SessionState) : SessionState :=
  (reduceSessionState darwin state .unreachable).getD state

/-- A refresh adds nothing to an unreachable state. -/
theorem unreachableOnce_eq (state : SessionState) :
    unreachableOnce darwin state = toUnreachable state state.isCleaning := by
  simp [unreachableOnce, reduceSessionState]

/-- The last known kind of a session under cleaning is never lost again: the
first observation stores it where the second one reads it. -/
theorem lastKnown_stored {target known : SessionStateTarget} (named : target.Named)
    (optional : known = .absent ∨ known.Named) (outcome other : TerminalSessionOutcome)
    (terminal : Option TerminalSessionPayload) (evidence : Evidence) :
    lastKnown (.cleaning .unreachable other
      (lastKnown (.cleaning target outcome known terminal evidence)) none evidence) =
      lastKnown (.cleaning target outcome known terminal evidence) := by
  cases target with
  | other raw => exact named.elim
  | unreachable =>
    rcases optional with rfl | knownNamed
    · rfl
    · cases known with
      | other raw => exact knownNamed.elim
      | _ => rfl
  | _ => rfl

/-- A session that is not of an active kind is the same after a second observation:
its payload and its last known kind are read back from where they were stored. -/
theorem unreachableOnce_settled {state : SessionState} (declared : state.Declared)
    (inactive : state.isActive = false) :
    unreachableOnce darwin (unreachableOnce darwin state) = unreachableOnce darwin state := by
  simp only [unreachableOnce_eq, toUnreachable_cleaning]
  cases state with
  | active kind evidence => simp [SessionState.isActive] at inactive
  | terminal outcome evidence => rfl
  | unreachable known terminal evidence => cases terminal <;> rfl
  | cleaning target outcome known terminal evidence =>
    simp only [SessionState.isCleaning, toUnreachable, ↓reduceIte, SessionState.evidence]
    generalize terminalPayload (.cleaning target outcome known terminal evidence) = payload
    cases payload with
    | some payload => rfl
    | none =>
      have stored := lastKnown_stored declared.1 declared.2.2.1 outcome .absent terminal evidence
      simp only [terminalPayload, Option.isSome_none, Bool.false_eq_true, ↓reduceIte, stored]

/-- A session of an active kind loses its last known kind at the second observation,
which reads the kind of the unreachable state itself. -/
theorem unreachableOnce_active (kind : ActiveKind) (evidence : Evidence) :
    rememberedKind (unreachableOnce darwin (.active kind evidence)) = some kind.target ∧
      rememberedKind (unreachableOnce darwin (unreachableOnce darwin (.active kind evidence))) =
        some .unreachable := by
  simp only [unreachableOnce_eq]
  exact ⟨rfl, rfl⟩

/-- Repeating an `unreachable` observation changes nothing, for every number of
repetitions, exactly when the session was not creating, running or stopping at the
first one. -/
theorem repeated_unreachable_iff (state : SessionState) (declared : state.Declared) :
    (unreachableOnce darwin (unreachableOnce darwin state) = unreachableOnce darwin state ∧
      ∀ observations, 1 ≤ observations →
        rememberedKind ((unreachableOnce darwin)^[observations] state) =
          rememberedKind (unreachableOnce darwin state) ∧
        (reduceSessionState darwin ((unreachableOnce darwin)^[observations] state)
          .recovered).isSome =
          (reduceSessionState darwin (unreachableOnce darwin state) .recovered).isSome) ↔
      state.isActive = false := by
  constructor
  · rintro ⟨twice, _⟩
    cases state with
    | active kind evidence =>
      have kinds := unreachableOnce_active darwin kind evidence
      rw [twice, kinds.1] at kinds
      cases kind <;> simp [ActiveKind.target] at kinds
    | _ => rfl
  · intro inactive
    have twice := unreachableOnce_settled darwin declared inactive
    refine ⟨twice, ?_⟩
    intro observations positive
    have same : (unreachableOnce darwin)^[observations] state = unreachableOnce darwin state := by
      obtain ⟨more, rfl⟩ := Nat.exists_eq_add_of_le' positive
      rw [Function.iterate_succ_apply]
      exact Function.iterate_fixed twice more
    rw [same]
    exact ⟨rfl, rfl⟩

/-- The evidence of a session whose child was just started. -/
def startedEvidence : Evidence :=
  { Evidence.empty with
    pid := some (.int 1)
    timedOut := some (.bool false)
    terminationRequested := some (.bool false)
    terminationConfirmed := some (.bool false)
    streamDrain := some (.text "unknown") }

/-- A terminal session stays as it is under repeated observations. -/
theorem repeated_unreachable_terminal :
    (SessionState.terminal .exited startedEvidence).Declared ∧
      unreachableOnce false (unreachableOnce false (.terminal .exited startedEvidence)) =
        unreachableOnce false (.terminal .exited startedEvidence) :=
  ⟨trivial, ((repeated_unreachable_iff false (.terminal .exited startedEvidence) trivial).mpr
    rfl).1⟩

/-- A running session that is found unreachable twice differs from one that is found
unreachable once, and can no longer recover. -/
theorem unreachable_twice_forgets_running :
    unreachableOnce false (unreachableOnce false (.active .running startedEvidence)) ≠
      unreachableOnce false (.active .running startedEvidence) ∧
    (reduceSessionState false (unreachableOnce false (.active .running startedEvidence))
      .recovered).isSome = true ∧
    (reduceSessionState false (unreachableOnce false
      (unreachableOnce false (.active .running startedEvidence))) .recovered).isSome = false := by
  refine ⟨?_, rfl, rfl⟩
  intro same
  have kinds := unreachableOnce_active false .running startedEvidence
  rw [same, kinds.1] at kinds
  simp [ActiveKind.target] at kinds

end Unreachability

end OpencodePty.LifecycleRuns
