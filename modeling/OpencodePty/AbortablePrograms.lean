import Mathlib.Tactic.Common

/-!
# Asynchronous programs that can be aborted

An asynchronous program calls other parties, waits for their answers, and reads a signal that
is aborted at most once. It runs without interruption between its awaits, so that the signal is
aborted, and calls are answered, only while it waits. An await can be given up when the signal
is aborted; what the call is answered afterwards is ignored.

What every run of a program does follows from the program alone: `Meets` walks through it for
every answer and every state of the signal, and `run_meets` carries over to runs what was found.
-/

namespace OpencodePty.AbortablePrograms

/-- A program that calls other parties. An await of a call may come with the failure that it
ends with when the signal is aborted first. A pause is the await of a promise that is settled
already. -/
inductive Program (Call : Type) (Reply : Call → Type) (Failure Result : Type) where
  | finish (outcome : Except Failure Result)
  | signal (next : Bool → Program Call Reply Failure Result)
  | pause (next : Program Call Reply Failure Result)
  | await (call : Call) (abandoned : Option Failure)
      (next : Except Failure (Reply call) → Program Call Reply Failure Result)

variable {Call : Type} {Reply : Call → Type} {Failure Result Other : Type}

namespace Program

/-- Go on with the outcome of a program. -/
def andThen : Program Call Reply Failure Result →
    (Except Failure Result → Program Call Reply Failure Other) →
    Program Call Reply Failure Other
  | finish outcome, next => next outcome
  | signal read, next => signal fun aborted => (read aborted).andThen next
  | pause rest, next => pause (rest.andThen next)
  | await call abandoned rest, next =>
    await call abandoned fun outcome => (rest outcome).andThen next

instance : Monad (Program Call Reply Failure) where
  pure value := finish (.ok value)
  bind program next := program.andThen fun
    | .ok value => next value
    | .error failure => finish (.error failure)

instance : MonadExceptOf Failure (Program Call Reply Failure) where
  throw failure := finish (.error failure)
  tryCatch program handler := program.andThen fun
    | .ok value => finish (.ok value)
    | .error failure => handler failure

/-- The value of a computation that is not asynchronous, or what it throws. -/
def lift (outcome : Except Failure Result) : Program Call Reply Failure Result := finish outcome

/-- Whether the signal is aborted. -/
def aborted : Program Call Reply Failure Bool := signal fun value => finish (.ok value)

/-- Await the answer to a call. -/
def request (call : Call) : Program Call Reply Failure (Reply call) := await call none finish

/-- Await the answer to a call, or the abort of the signal. -/
def race (call : Call) (failure : Failure) : Program Call Reply Failure (Reply call) :=
  await call (some failure) finish

/-- Await the outcome of an asynchronous function. -/
def joined (program : Program Call Reply Failure Result) : Program Call Reply Failure Result :=
  program.andThen fun outcome => pause (finish outcome)

end Program

/-! ## Runs -/

/-- What a program did, with the signal as it was at each call. -/
inductive Entry (Call : Type) (Reply : Call → Type) (Failure : Type) where
  | called (call : Call) (aborted : Bool)
  | returned (call : Call) (outcome : Except Failure (Reply call))

/-- How far a program is. -/
inductive Stage (Call : Type) (Reply : Call → Type) (Failure Result : Type) where
  | ready (program : Program Call Reply Failure Result)
  | waiting (call : Call) (abandoned : Option Failure)
      (next : Except Failure (Reply call) → Program Call Reply Failure Result)
  | ended (outcome : Except Failure Result)

/-- Where a program is, with the calls that it has made and the signal. -/
structure State (Call : Type) (Reply : Call → Type) (Failure Result : Type) where
  stage : Stage Call Reply Failure Result
  aborted : Bool
  history : List (Entry Call Reply Failure)

/-- What happens to a program: the signal is aborted, the call that it waits for is answered, or
it is its turn to run. -/
inductive Event (Call : Type) (Reply : Call → Type) (Failure : Type) where
  | abort
  | answer (outcome : (call : Call) → Except Failure (Reply call))
  | resume

/-- A program that has not begun. -/
def start (program : Program Call Reply Failure Result) : State Call Reply Failure Result :=
  ⟨.ready program, false, []⟩

/-- Run a program up to its next await. -/
def advance (aborted : Bool) (history : List (Entry Call Reply Failure)) :
    Program Call Reply Failure Result → State Call Reply Failure Result
  | .finish outcome => ⟨.ended outcome, aborted, history⟩
  | .signal next => advance aborted history (next aborted)
  | .pause next => ⟨.ready next, aborted, history⟩
  | .await call abandoned next =>
    ⟨.waiting call abandoned next, aborted, history ++ [.called call aborted]⟩

/-- The await of a call ends with an outcome. -/
def settle (aborted : Bool) (history : List (Entry Call Reply Failure)) (call : Call)
    (outcome : Except Failure (Reply call))
    (next : Except Failure (Reply call) → Program Call Reply Failure Result) :
    State Call Reply Failure Result :=
  ⟨.ready (next outcome), aborted, history ++ [.returned call outcome]⟩

/-- An event that cannot take place changes nothing. -/
def step (state : State Call Reply Failure Result) :
    Event Call Reply Failure → State Call Reply Failure Result
  | .abort =>
    if state.aborted then state
    else
      match state.stage with
      | .waiting call (some failure) next => settle true state.history call (.error failure) next
      | _ => { state with aborted := true }
  | .answer outcome =>
    match state.stage with
    | .waiting call _ next => settle state.aborted state.history call (outcome call) next
    | _ => state
  | .resume =>
    match state.stage with
    | .ready program => advance state.aborted state.history program
    | _ => state

/-- The state after some events. -/
def run (state : State Call Reply Failure Result) (events : List (Event Call Reply Failure)) :
    State Call Reply Failure Result :=
  events.foldl step state

/-! ## What a program does in every run -/

section Meets

variable (allowed : Bool → List (Entry Call Reply Failure) → Call → Prop)

/-- From a history on, a program makes only calls that are allowed after what it did before, and
ends as it should, whatever it is answered and whenever the signal is aborted. -/
def Meets (ends : Bool → List (Entry Call Reply Failure) → Except Failure Result → Prop) :
    Program Call Reply Failure Result → Bool → List (Entry Call Reply Failure) → Prop
  | .finish outcome, aborted, history => ends aborted history outcome
  | .signal next, aborted, history => Meets ends (next aborted) aborted history
  | .pause next, _, history => ∀ aborted, Meets ends next aborted history
  | .await call _ next, aborted, history =>
    allowed aborted history call ∧
      ∀ outcome later,
        Meets ends (next outcome) later (history ++ [.called call aborted, .returned call outcome])

/-- Every call of a history was allowed after what came before it. -/
def Calls (history : List (Entry Call Reply Failure)) : Prop :=
  ∀ before call aborted after, history = before ++ .called call aborted :: after →
    allowed aborted before call

variable {allowed}

/-- A call that is permitted may be made. -/
theorem Calls.called {history : List (Entry Call Reply Failure)} (calls : Calls allowed history)
    {call : Call} {aborted : Bool} (permitted : allowed aborted history call) :
    Calls allowed (history ++ [.called call aborted]) := by
  intro before other known after same
  rcases List.eq_nil_or_concat after with rfl | ⟨rest, last, rfl⟩
  · obtain ⟨rfl, equal⟩ := List.append_inj' same rfl
    cases equal
    exact permitted
  · rw [List.concat_eq_append, ← List.cons_append, ← List.append_assoc] at same
    exact calls before other known rest (List.append_inj' same rfl).1

/-- What a call returns is no call. -/
theorem Calls.returned {history : List (Entry Call Reply Failure)} (calls : Calls allowed history)
    (call : Call) (outcome : Except Failure (Reply call)) :
    Calls allowed (history ++ [.returned call outcome]) := by
  intro before other known after same
  rcases List.eq_nil_or_concat after with rfl | ⟨rest, last, rfl⟩
  · obtain ⟨_, equal⟩ := List.append_inj' same rfl
    cases equal
  · rw [List.concat_eq_append, ← List.cons_append, ← List.append_assoc] at same
    exact calls before other known rest (List.append_inj' same rfl).1

variable {ends : List (Entry Call Reply Failure) → Except Failure Result → Prop}

variable (allowed ends) in
/-- What is known of a run after each event. -/
structure Sound (state : State Call Reply Failure Result) : Prop where
  calls : Calls allowed state.history
  ready : ∀ program, state.stage = .ready program →
    ∀ aborted, Meets allowed (fun _ => ends) program aborted state.history
  waiting : ∀ call abandoned next, state.stage = .waiting call abandoned next →
    ∀ outcome aborted, Meets allowed (fun _ => ends) (next outcome) aborted
      (state.history ++ [.returned call outcome])
  ended : ∀ outcome, state.stage = .ended outcome → ends state.history outcome

/-- A program that meets what is asked is sound up to its next call. -/
theorem advance_sound {program : Program Call Reply Failure Result} {aborted : Bool}
    {history : List (Entry Call Reply Failure)} (calls : Calls allowed history)
    (meets : Meets allowed (fun _ => ends) program aborted history) :
    Sound allowed ends (advance aborted history program) := by
  induction program with
  | finish outcome =>
    refine ⟨calls, ?_, ?_, ?_⟩
    · rintro _ ⟨⟩
    · rintro _ _ _ ⟨⟩
    · rintro _ ⟨⟩
      exact meets
  | signal next inductionHypothesis => exact inductionHypothesis aborted meets
  | pause next inductionHypothesis =>
    refine ⟨calls, ?_, ?_, ?_⟩
    · rintro _ ⟨⟩
      exact meets
    · rintro _ _ _ ⟨⟩
    · rintro _ ⟨⟩
  | await call abandoned next inductionHypothesis =>
    obtain ⟨permitted, following⟩ := meets
    refine ⟨calls.called permitted, ?_, ?_, ?_⟩
    · rintro _ ⟨⟩
    · rintro _ _ _ ⟨⟩ outcome later
      simpa [advance] using following outcome later
    · rintro _ ⟨⟩

/-- It is so behind the answer to this call. -/
theorem settle_sound {state : State Call Reply Failure Result} (sound : Sound allowed ends state)
    {call : Call} {abandoned : Option Failure}
    {next : Except Failure (Reply call) → Program Call Reply Failure Result}
    (waits : state.stage = .waiting call abandoned next) (outcome : Except Failure (Reply call))
    (aborted : Bool) :
    Sound allowed ends (settle aborted state.history call outcome next) := by
  refine ⟨sound.calls.returned call outcome, ?_, ?_, ?_⟩
  · rintro _ ⟨⟩
    exact sound.waiting call abandoned next waits outcome
  · rintro _ _ _ ⟨⟩
  · rintro _ ⟨⟩

/-- One event keeps a program sound. -/
theorem step_sound {state : State Call Reply Failure Result} (sound : Sound allowed ends state)
    (event : Event Call Reply Failure) : Sound allowed ends (step state event) := by
  have marked : Sound allowed ends { state with aborted := true } :=
    ⟨sound.calls, sound.ready, sound.waiting, sound.ended⟩
  cases event with
  | abort =>
    rw [step]
    split
    next => exact sound
    next =>
      split
      next waits => exact settle_sound sound waits _ true
      next => exact marked
  | answer outcome =>
    rw [step]
    split
    next waits => exact settle_sound sound waits _ state.aborted
    next => exact sound
  | resume =>
    rw [step]
    split
    next turn => exact advance_sound sound.calls (sound.ready _ turn state.aborted)
    next => exact sound

/-- Every run of a program that meets its conditions makes only allowed calls, and ends as it
should if it ends. -/
theorem run_meets {program : Program Call Reply Failure Result}
    (meets : ∀ aborted, Meets allowed (fun _ => ends) program aborted [])
    (events : List (Event Call Reply Failure)) :
    Sound allowed ends (run (start program) events) := by
  have steps (state : State Call Reply Failure Result) (sound : Sound allowed ends state) :
      Sound allowed ends (run state events) := by
    induction events generalizing state with
    | nil => exact sound
    | cons event events inductionHypothesis =>
      exact inductionHypothesis _ (step_sound sound event)
  apply steps
  refine ⟨?_, ?_, ?_, ?_⟩
  · intro before call aborted after same
    exact absurd same.symm (by simp [start])
  · rintro _ ⟨⟩
    exact meets
  · rintro _ _ _ ⟨⟩
  · rintro _ ⟨⟩

/-! ## Rules -/

variable {afterwards : Bool → List (Entry Call Reply Failure) → Except Failure Result → Prop}
variable {aborted : Bool} {history : List (Entry Call Reply Failure)}

/-- What follows a program meets what is asked behind each of its outcomes. -/
theorem meets_andThen {program : Program Call Reply Failure Other}
    {next : Except Failure Other → Program Call Reply Failure Result} :
    Meets allowed afterwards (program.andThen next) aborted history ↔
      Meets allowed
        (fun signal later outcome => Meets allowed afterwards (next outcome) signal later)
        program aborted history := by
  induction program generalizing aborted history with
  | finish outcome => exact Iff.rfl
  | signal read inductionHypothesis => exact inductionHypothesis aborted
  | pause rest inductionHypothesis =>
    exact forall_congr' fun signal => inductionHypothesis
  | await call abandoned rest inductionHypothesis =>
    refine and_congr Iff.rfl ?_
    exact forall_congr' fun outcome => forall_congr' fun later => inductionHypothesis outcome

/-- What is asked of a program may be weakened. -/
theorem Meets.imp {program : Program Call Reply Failure Result}
    {first second : Bool → List (Entry Call Reply Failure) → Except Failure Result → Prop}
    (meets : Meets allowed first program aborted history)
    (implies : ∀ signal later outcome, first signal later outcome → second signal later outcome) :
    Meets allowed second program aborted history := by
  induction program generalizing aborted history with
  | finish outcome => exact implies aborted history outcome meets
  | signal read inductionHypothesis => exact inductionHypothesis aborted meets
  | pause rest inductionHypothesis => exact fun signal => inductionHypothesis (meets signal)
  | await call abandoned rest inductionHypothesis =>
    exact ⟨meets.1, fun outcome later => inductionHypothesis outcome (meets.2 outcome later)⟩

end Meets

/-! ## Triples -/

/-- What is known after a value is returned, or after a failure. -/
def Concluded (returns : Result → List (Entry Call Reply Failure) → Prop)
    (throws : List (Entry Call Reply Failure) → Prop) (_ : Bool)
    (history : List (Entry Call Reply Failure)) : Except Failure Result → Prop
  | .ok value => returns value history
  | .error _ => throws history

/-- From every history with a property on, a program makes only allowed calls, and the histories
after which it returns or throws have the properties given for that. -/
def Triple (allowed : Bool → List (Entry Call Reply Failure) → Call → Prop)
    (before : List (Entry Call Reply Failure) → Prop) (program : Program Call Reply Failure Result)
    (returns : Result → List (Entry Call Reply Failure) → Prop)
    (throws : List (Entry Call Reply Failure) → Prop) : Prop :=
  ∀ aborted history, before history →
    Meets allowed (Concluded returns throws) program aborted history

section MeetsRules

variable {allowed : Bool → List (Entry Call Reply Failure) → Call → Prop}
variable {program : Program Call Reply Failure Result}
variable {returns : Result → List (Entry Call Reply Failure) → Prop}
variable {throws : List (Entry Call Reply Failure) → Prop}
variable {aborted : Bool} {history : List (Entry Call Reply Failure)}

/-- One program and then another one. -/
theorem Meets.bind {program : Program Call Reply Failure Other}
    {between : Other → List (Entry Call Reply Failure) → Prop}
    {next : Other → Program Call Reply Failure Result}
    (first : Meets allowed (Concluded between throws) program aborted history)
    (following : ∀ value, Triple allowed (between value) (next value) returns throws) :
    Meets allowed (Concluded returns throws) (program >>= next) aborted history := by
  refine meets_andThen.mpr (first.imp ?_)
  intro signal later outcome concluded
  cases outcome with
  | ok value => exact following value signal later concluded
  | error _ => exact concluded

/-- A program whose errors are handled. -/
theorem Meets.tryCatch {caught : List (Entry Call Reply Failure) → Prop}
    {handler : Failure → Program Call Reply Failure Result}
    (body : Meets allowed (Concluded returns caught) program aborted history)
    (handled : ∀ failure, Triple allowed caught (handler failure) returns throws) :
    Meets allowed (Concluded returns throws) (MonadExcept.tryCatch program handler) aborted
      history := by
  refine meets_andThen.mpr (body.imp ?_)
  intro signal later outcome concluded
  cases outcome with
  | ok value => exact concluded
  | error failure => exact handled failure signal later concluded

/-- A call, whether or not its await may be given up. -/
theorem Meets.await {call : Call} {abandoned : Option Failure}
    {returns : Reply call → List (Entry Call Reply Failure) → Prop}
    (permitted : allowed aborted history call)
    (answered : ∀ value,
      returns value (history ++ [Entry.called call aborted, .returned call (.ok value)]))
    (failed : ∀ failure,
      throws (history ++ [Entry.called call aborted, .returned call (.error failure)])) :
    Meets allowed (Concluded returns throws) (.await call abandoned .finish) aborted history := by
  refine ⟨permitted, ?_⟩
  intro outcome _
  cases outcome with
  | ok value => exact answered value
  | error failure => exact failed failure

end MeetsRules

namespace Triple

variable {allowed : Bool → List (Entry Call Reply Failure) → Call → Prop}
variable {before : List (Entry Call Reply Failure) → Prop}
variable {program : Program Call Reply Failure Result}
variable {returns : Result → List (Entry Call Reply Failure) → Prop}
variable {throws : List (Entry Call Reply Failure) → Prop}

/-- A triple may be strengthened before and weakened behind. -/
theorem imp {weaker : List (Entry Call Reply Failure) → Prop}
    {returned : Result → List (Entry Call Reply Failure) → Prop}
    {thrown : List (Entry Call Reply Failure) → Prop}
    (triple : Triple allowed weaker program returned thrown)
    (starts : ∀ history, before history → weaker history)
    (value : ∀ result history, returned result history → returns result history)
    (failure : ∀ history, thrown history → throws history) :
    Triple allowed before program returns throws := by
  intro aborted history known
  refine (triple aborted history (starts history known)).imp ?_
  intro _ later outcome concluded
  cases outcome with
  | ok result => exact value result later concluded
  | error _ => exact failure later concluded

/-- A result. -/
theorem pure {result : Result} (value : ∀ history, before history → returns result history) :
    Triple allowed before (Pure.pure result) returns throws :=
  fun _ history known => value history known

/-- An error. -/
theorem throw {failure : Failure} (failed : ∀ history, before history → throws history) :
    Triple allowed before (MonadExcept.throw failure) returns throws :=
  fun _ history known => failed history known

/-- A result or an error that is known. -/
theorem lift {outcome : Except Failure Result}
    (value : ∀ result history, outcome = .ok result → before history → returns result history)
    (failed : ∀ history, before history → throws history) :
    Triple allowed before (Program.lift outcome) returns throws := by
  intro _ history known
  cases outcome with
  | ok result => exact value result history rfl known
  | error _ => exact failed history known

/-- The signal, which may be set or not. -/
theorem aborted {returns : Bool → List (Entry Call Reply Failure) → Prop}
    (value : ∀ signal history, before history → returns signal history) :
    Triple allowed before Program.aborted returns throws :=
  fun signal history known => value signal history known

/-- One program and then another one. -/
theorem bind {program : Program Call Reply Failure Other}
    {between : Other → List (Entry Call Reply Failure) → Prop}
    {next : Other → Program Call Reply Failure Result}
    (first : Triple allowed before program between throws)
    (following : ∀ value, Triple allowed (between value) (next value) returns throws) :
    Triple allowed before (program >>= next) returns throws :=
  fun aborted history known => (first aborted history known).bind following

/-- A program whose errors are handled. -/
theorem tryCatch {caught : List (Entry Call Reply Failure) → Prop}
    {handler : Failure → Program Call Reply Failure Result}
    (body : Triple allowed before program returns caught)
    (handled : ∀ failure, Triple allowed caught (handler failure) returns throws) :
    Triple allowed before (MonadExcept.tryCatch program handler) returns throws :=
  fun aborted history known => (body aborted history known).tryCatch handled

/-- A program that is awaited as a whole. -/
theorem joined (triple : Triple allowed before program returns throws) :
    Triple allowed before program.joined returns throws := by
  intro aborted history known
  refine meets_andThen.mpr ((triple aborted history known).imp ?_)
  intro _ later outcome concluded _
  cases outcome with
  | ok value => exact concluded
  | error failure => exact concluded

/-- A call that is permitted, and what it may answer. -/
theorem await {call : Call} {abandoned : Option Failure}
    {returns : Reply call → List (Entry Call Reply Failure) → Prop}
    (permitted : ∀ signal history, before history → allowed signal history call)
    (answered : ∀ signal history value, before history →
      returns value (history ++ [Entry.called call signal, .returned call (.ok value)]))
    (failed : ∀ signal history failure, before history →
      throws (history ++ [Entry.called call signal, .returned call (.error failure)])) :
    Triple allowed before (.await call abandoned .finish) returns throws :=
  fun signal history known => Meets.await (permitted signal history known)
    (fun value => answered signal history value known)
    fun failure => failed signal history failure known

end Triple

end OpencodePty.AbortablePrograms
