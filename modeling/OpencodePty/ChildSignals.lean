import OpencodePty.Transitions
import Mathlib.Logic.Function.Basic

/-!
# Signals to the direct child

A POSIX worker signals its child by its process id alone. The kernel keeps the id of a child that
has exited until somebody waits for it; after that the id may be given to another process. Every
thread of the worker that observes the exit of the child reaps it, and the loop that a termination
runs between its two signals does so as well.

A step is what a thread does under one lock. The kernel chooses when the child exits and whether
its id is used again, and the clock and the scan of the process table are the environment's.
-/

namespace OpencodePty.ChildSignals

open Transitions

/-- How the child ended. -/
inductive ExitStatus where
  | code (value : Nat)
  | signal (number : Nat)

/-- The child as the kernel keeps it. The handle remembers the status that it reaped. -/
inductive Child where
  | running
  | exited (status : ExitStatus)
  | reaped (status : ExitStatus)

/-- The child has ended, reaped or not. -/
def Child.isExited : Child → Bool
  | .exited _ => true
  | _ => false

/-- The process id of the child is free for another process. -/
def Child.isReaped : Child → Bool
  | .reaped _ => true
  | _ => false

/-- The signals that the worker sends. -/
inductive Signal where
  | term
  | kill
  deriving DecidableEq

/-- Why a termination was asked for. -/
inductive Reason where
  | timeout
  | outputLimit
  | storageFailure
  | stopped
  | code
  | signal (number : Nat)
  deriving DecidableEq

/-- What a termination reports. -/
structure TerminationResult where
  termSignalSent : Bool
  killSignalSent : Bool
  rootExited : Bool
  /-- The scan found no remaining member. -/
  drained : Bool

/-- What the state of the worker tells of the exit and of the termination. -/
structure State where
  exit : Option ExitStatus
  exitReason : Option Reason
  timedOut : Bool
  terminationRequested : Bool
  terminationConfirmed : Bool
  rootExited : Bool
  termination : Option TerminationResult

/-- A `terminate_contained` under way, within `terminate_and_wait` or not. -/
structure Termination where
  waits : Bool
  termSent : Bool
  killSent : Bool

/-- Where an `observe_exit` returns to. -/
inductive After where
  /-- The monitor or a snapshot. -/
  | caller
  | grace (termination : Termination)
  | hard (termination : Termination)
  /-- The observation after the loops. -/
  | last (termination : Termination)

/-- What a thread does next. -/
inductive Stage where
  | idle
  /-- `shutdown` looks whether the termination is confirmed. -/
  | shutdown
  | enter (reason : Reason) (waits : Bool)
  | term (waits : Bool)
  /-- The head of the loop after SIGTERM. -/
  | grace (termination : Termination)
  | observe (after : After)
  /-- `record_exit`, within an observation or after a `wait`. -/
  | record (status : ExitStatus) (after : Option After)
  | recorded (after : Option After)
  /-- The end of `observe_exit`. -/
  | refresh (after : After)
  | confirmed (termination : Termination)
  | kill (termination : Termination)
  /-- The head of the loop after SIGKILL. -/
  | hard (termination : Termination)
  | drained (termination : Termination)
  | result (termination : Termination)
  /-- `terminate_contained` has returned. -/
  | ended (waits : Bool)
  | wait

/-- A `kill` of the process id of the child. -/
structure Sent where
  signal : Signal
  /-- The child was reaped before. -/
  reaped : Bool
  /-- Another process has the id. -/
  other : Bool

/-- The worker with its threads, its lock and the signals it has sent. -/
structure Worker where
  child : Child
  /-- The process id of the child was given to another process. -/
  reused : Bool
  state : State
  threads : Nat → Stage
  signals : List Sent

/-- What a thread is asked for. -/
inductive Request where
  /-- The monitor looks for an exit, or a snapshot is taken. -/
  | observe
  /-- The monitor finds the deadline of the worker passed. -/
  | deadline
  /-- A reader exceeds the limit of the output. -/
  | outputLimit
  /-- A reader fails to store its output. -/
  | storageFailure
  | stop
  | shutdown

/-- What may happen next: a step of a thread, or of the child. -/
inductive Action where
  | exit (status : ExitStatus)
  /-- The kernel gives the id of the child to another process. -/
  | reuse
  /-- The other process has ended and was reaped. -/
  | free
  | call (thread : Nat) (request : Request)
  /-- A thread goes on. The scan of the process table finds the containment drained or not, and the
  deadline of a loop has passed or not. -/
  | go (thread : Nat) (drained late : Bool)

namespace State

variable (state : State)

/-- `record_exit` of an exit that was not recorded before, up to its refresh. -/
def recordExit (status : ExitStatus) : State :=
  { state with
    exit := some status
    exitReason := state.exitReason <|> match status with
      | .code _ => some .code
      | .signal number => some (.signal number)
    rootExited := true }

/-- `refresh_termination_confirmed`. -/
def refresh (linux drained : Bool) : State :=
  { state with terminationConfirmed := state.rootExited && (drained || !linux) }

/-- The first reason is kept. -/
def requestTermination (reason : Reason) : State :=
  { state with
    terminationRequested := true
    exitReason := some reason
    timedOut := reason = .timeout }

end State

/-- The stage at which a thread goes on after a kill. -/
def After.stage : After → Stage
  | .caller => .idle
  | .grace termination => .confirmed termination
  | .hard termination => .drained termination
  | .last termination => .result termination

/-- The stage at which a request begins. -/
def Request.stage : Request → Stage
  | .observe => .observe .caller
  | .deadline => .enter .timeout false
  | .outputLimit => .enter .outputLimit false
  | .storageFailure => .enter .storageFailure false
  | .stop => .enter .stopped true
  | .shutdown => .shutdown

namespace Worker

variable (linux : Bool) (worker : Worker)

/-- A thread goes to a stage. -/
def goto (thread : Nat) (stage : Stage) : Worker :=
  { worker with threads := Function.update worker.threads thread stage }

/-- Some process receives a signal to the process id. A child that has exited still does. -/
def reachable : Bool := !worker.child.isReaped || worker.reused

/-- `signal_direct_child`. -/
def signalDirectChild (signal : Signal) : Worker :=
  { worker with signals := worker.signals ++ [⟨signal, worker.child.isReaped, worker.reused⟩] }

/-- `try_wait`, and the `wait` that returns. Nothing while the child runs. -/
def reap : Option (ExitStatus × Worker) :=
  match worker.child with
  | .running => none
  | .exited status | .reaped status => some (status, { worker with child := .reaped status })

/-- The state behind the lock is replaced. -/
def setState (state : State) : Worker := { worker with state }

/-- The next step of a thread. -/
def go (thread : Nat) (drained late : Bool) : Worker :=
  match worker.threads thread with
  | .idle => worker
  | .shutdown =>
    if worker.state.terminationConfirmed then worker.goto thread .idle
    else worker.goto thread (.enter .stopped true)
  | .enter reason waits =>
    if worker.state.terminationRequested then worker.goto thread (.ended waits)
    else (worker.setState (worker.state.requestTermination reason)).goto thread (.term waits)
  | .term waits =>
    (worker.signalDirectChild .term).goto thread (.grace ⟨waits, worker.reachable, false⟩)
  | .grace termination =>
    if late then worker.goto thread (.kill termination)
    else worker.goto thread (.observe (.grace termination))
  | .observe after =>
    match worker.reap with
    | none => worker.goto thread (.refresh after)
    | some (status, reaped) => reaped.goto thread (.record status (some after))
  | .record status after =>
    -- an exit that is recorded already is not recorded again
    if worker.state.rootExited then
      worker.goto thread (after.elim .idle .refresh)
    else (worker.setState (worker.state.recordExit status)).goto thread (.recorded after)
  | .recorded after =>
    (worker.setState (worker.state.refresh linux drained)).goto thread (after.elim .idle .refresh)
  | .refresh after =>
    if worker.state.rootExited then
      (worker.setState (worker.state.refresh linux drained)).goto thread after.stage
    else worker.goto thread after.stage
  | .confirmed termination =>
    if worker.state.terminationConfirmed then worker.goto thread (.kill termination)
    else worker.goto thread (.grace termination)
  | .kill termination =>
    (worker.signalDirectChild .kill).goto thread
      (.hard { termination with killSent := worker.reachable })
  | .hard termination =>
    if late then worker.goto thread (.observe (.last termination))
    else worker.goto thread (.observe (.hard termination))
  | .drained termination =>
    (worker.setState (worker.state.refresh linux drained)).goto thread
      (if drained then .observe (.last termination) else .hard termination)
  | .result termination =>
    let state := worker.state.refresh linux drained
    let result : TerminationResult :=
      ⟨termination.termSent, termination.killSent, state.rootExited, drained⟩
    (worker.setState { state with termination := some result }).goto thread
      (.ended termination.waits)
  | .ended waits =>
    if waits && !worker.state.rootExited then worker.goto thread .wait
    else worker.goto thread .idle
  | .wait =>
    match worker.reap with
    | none => worker
    | some (status, reaped) => reaped.goto thread (.record status none)

/-- One step of the worker. -/
def step : Action → Worker
  | .exit status =>
    match worker.child with
    | .running => { worker with child := .exited status }
    | _ => worker
  | .reuse => if worker.child.isReaped then { worker with reused := true } else worker
  | .free => { worker with reused := false }
  | .call thread request =>
    match worker.threads thread with
    | .idle => worker.goto thread request.stage
    | _ => worker
  | .go thread drained late => worker.go linux thread drained late

/-- A worker whose child has just started. -/
def started : Worker where
  child := .running
  reused := false
  state :=
    { exit := none
      exitReason := none
      timedOut := false
      terminationRequested := false
      terminationConfirmed := false
      rootExited := false
      termination := none }
  threads := fun _ => .idle
  signals := []

end Worker

/-- Every signal went to the child, which nobody had reaped. -/
def Owned (worker : Worker) : Prop :=
  ∀ sent ∈ worker.signals, sent.reaped = false ∧ sent.other = false

/-- A requested termination has sent its SIGKILL. -/
def Worker.killed (worker : Worker) : Bool := worker.signals.any (·.signal = .kill)

/-- A thread is about to request the first termination. -/
def Stage.requests : Stage → Bool
  | .enter _ _ => true
  | _ => false

/-- A thread is about to wait for the child. -/
def Stage.waits : Stage → Bool
  | .observe _ | .wait => true
  | _ => false

/-- The first termination is requested before the child was reaped, and between the request and the
SIGKILL nobody waits for a child that has exited. -/
def Timely (worker : Worker) : Action → Prop
  | .go thread _ _ =>
    ((worker.threads thread).requests = true → worker.state.terminationRequested = false →
      worker.child.isReaped = false) ∧
    ((worker.threads thread).waits = true → worker.child.isExited = true →
      worker.state.terminationRequested = true → worker.killed = true)
  | _ => True

instance decidableTimely (worker : Worker) (action : Action) : Decidable (Timely worker action) :=
  match action with
  | .go _ _ _ => inferInstanceAs (Decidable ((_ = true → _ = false → _ = false) ∧
      (_ = true → _ = true → _ = true → _ = true)))
  | .exit _ | .reuse | .free | .call _ _ => inferInstanceAs (Decidable True)

/-! ## What every step keeps -/

/-- A thread that waits for the end still has to report it. -/
def After.owes : After → Bool
  | .grace _ => true
  | _ => false

/-- A thread has requested the termination and has yet to send SIGKILL. -/
def Stage.owes : Stage → Bool
  | .term _ | .grace _ | .confirmed _ | .kill _ => true
  | .observe after | .refresh after => after.owes
  | .record _ after | .recorded after => after.elim false After.owes
  | _ => false

/-- A termination is under way, and SIGKILL can still be sent to the child. -/
structure Pending (worker : Worker) : Prop where
  requested : worker.state.terminationRequested = true
  unkilled : worker.killed = false
  unreaped : worker.child.isReaped = false

/-- What holds of the worker between any two steps. -/
structure Sound (worker : Worker) : Prop where
  owned : Owned worker
  reused : worker.reused = true → worker.child.isReaped = true
  quiet : worker.state.terminationRequested = false → worker.signals = []
  pending : ∀ thread, (worker.threads thread).owes = true → Pending worker
  unique : ∀ first second, (worker.threads first).owes = true →
    (worker.threads second).owes = true → first = second

variable {linux : Bool} {worker : Worker}

/-- A worker that was just started is sound. -/
theorem started_sound : Sound Worker.started where
  owned _ member := nomatch member
  reused held := nomatch held
  quiet _ := rfl
  pending _ owes := nomatch owes
  unique _ _ owes := nomatch owes

/-- A thread goes on without a signal, a request or a reaped child. -/
theorem Sound.goto (sound : Sound worker) {thread : Nat} {stage : Stage} {state : State}
    (requested : state.terminationRequested = worker.state.terminationRequested)
    (owes : stage.owes = true → (worker.threads thread).owes = true) :
    Sound ((worker.setState state).goto thread stage) := by
  have owing {other : Nat}
      (now : (Function.update worker.threads thread stage other).owes = true) :
      (worker.threads other).owes = true := by
    by_cases same : other = thread
    · subst same
      rw [Function.update_self] at now
      exact owes now
    · rwa [Function.update_of_ne same] at now
  constructor
  · exact sound.owned
  · exact sound.reused
  · intro unrequested
    exact sound.quiet (requested ▸ unrequested)
  · intro other now
    obtain ⟨known, unkilled, unreaped⟩ := sound.pending other (owing now)
    exact ⟨requested.trans known, unkilled, unreaped⟩
  · intro first second one two
    exact sound.unique first second (owing one) (owing two)

/-- A thread that owes no signal goes on, or one that did still does. -/
theorem Sound.move (sound : Sound worker) {thread : Nat} {stage : Stage}
    (owes : stage.owes = true → (worker.threads thread).owes = true) :
    Sound (worker.goto thread stage) := by
  have moved := @Sound.goto worker sound thread stage worker.state rfl owes
  exact moved

/-- The first termination is requested. -/
theorem Sound.request (sound : Sound worker) {thread : Nat} (reason : Reason) (waits : Bool)
    (unrequested : worker.state.terminationRequested = false)
    (unreaped : worker.child.isReaped = false) :
    Sound ((worker.setState (worker.state.requestTermination reason)).goto thread
      (.term waits)) := by
  have silent : worker.signals = [] := sound.quiet unrequested
  -- nobody else has requested one
  have alone {other : Nat}
      (now : (Function.update worker.threads thread (Stage.term waits) other).owes = true) :
      other = thread := by
    by_contra different
    rw [Function.update_of_ne different] at now
    have requested := (sound.pending other now).requested
    rw [unrequested] at requested
    cases requested
  constructor
  · exact sound.owned
  · exact sound.reused
  · intro never
    cases never
  · intro _ _
    exact ⟨rfl, by simp [Worker.killed, Worker.goto, Worker.setState, silent], unreaped⟩
  · intro first second one two
    exact (alone one).trans (alone two).symm

/-- A thread that owes a signal sends it. -/
theorem Sound.signal (sound : Sound worker) {thread : Nat} (signal : Signal) {stage : Stage}
    (owed : (worker.threads thread).owes = true)
    (owes : stage.owes = true → signal ≠ .kill) :
    Sound ((worker.signalDirectChild signal).goto thread stage) := by
  have pending := sound.pending thread owed
  -- the thread that has sent is the only one that owed
  have alone {other : Nat}
      (now : (Function.update worker.threads thread stage other).owes = true) :
      other = thread ∧ stage.owes = true := by
    by_cases same : other = thread
    · subst same
      rw [Function.update_self] at now
      exact ⟨rfl, now⟩
    · rw [Function.update_of_ne same] at now
      exact absurd (sound.unique other thread now owed) same
  constructor
  · intro sent member
    rcases List.mem_append.mp member with known | new
    · exact sound.owned sent known
    · rw [List.mem_singleton.mp new]
      refine ⟨pending.unreaped, ?_⟩
      by_contra other
      rw [Bool.not_eq_false] at other
      have reaped := sound.reused other
      rw [pending.unreaped] at reaped
      cases reaped
  · exact sound.reused
  · intro unrequested
    have requested : worker.state.terminationRequested = true := pending.requested
    rw [show worker.state.terminationRequested = false from unrequested] at requested
    cases requested
  · intro other now
    have sends := owes (alone now).2
    refine ⟨pending.requested, ?_, pending.unreaped⟩
    have unkilled := pending.unkilled
    simp only [Worker.killed, Worker.goto, Worker.signalDirectChild, List.any_append,
      List.any_cons, List.any_nil, Bool.or_false, Bool.or_eq_false_iff] at unkilled ⊢
    exact ⟨unkilled, by simpa using sends⟩
  · intro first second one two
    exact (alone one).1.trans (alone two).1.symm

/-- Somebody waits for the child, and nobody owes a signal if that reaps it. -/
theorem Sound.reap (sound : Sound worker) {status : ExitStatus} {reaped : Worker}
    (waited : worker.reap = some (status, reaped))
    (timely : worker.child.isExited = true →
      worker.state.terminationRequested = true → worker.killed = true) :
    Sound reaped ∧ reaped.threads = worker.threads := by
  unfold Worker.reap at waited
  split at waited
  · cases waited
  next exited found =>
    cases waited
    refine ⟨⟨sound.owned, fun _ => rfl, sound.quiet, ?_, sound.unique⟩, rfl⟩
    intro thread owes
    have pending := sound.pending thread owes
    have killed := timely (by rw [found]; rfl) pending.requested
    rw [pending.unkilled] at killed
    cases killed
  next known found =>
    cases waited
    refine ⟨⟨sound.owned, fun _ => rfl, sound.quiet, ?_, sound.unique⟩, rfl⟩
    intro thread owes
    have unreaped := (sound.pending thread owes).unreaped
    rw [found] at unreaped
    cases unreaped

/-- A thread goes on. -/
theorem Sound.go (sound : Sound worker) {thread : Nat} {drained late : Bool}
    (timely : Timely worker (.go thread drained late)) :
    Sound (worker.go linux thread drained late) := by
  obtain ⟨first, nobodyWaits⟩ := timely
  unfold Worker.go
  split
  next => exact sound
  next => split_ifs <;> exact sound.move (by simp [Stage.owes])
  next reason waits stage =>
    rw [stage] at first
    split_ifs with requested
    · exact sound.move (by simp [Stage.owes])
    · rw [Bool.not_eq_true] at requested
      exact sound.request reason waits requested (first rfl requested)
  next waits stage => exact sound.signal .term (by rw [stage]; rfl) (by simp)
  next termination stage =>
    split_ifs <;> exact sound.move (fun _ => by rw [stage]; rfl)
  next after stage =>
    rw [stage] at nobodyWaits
    split
    next => exact sound.move (fun owes => by rw [stage]; exact owes)
    next status reaped waited =>
      obtain ⟨kept, threads⟩ := sound.reap waited (nobodyWaits rfl)
      exact kept.move (fun owes => by rw [threads, stage]; exact owes)
  next status after stage =>
    split_ifs
    · refine sound.move (fun owes => ?_)
      rw [stage]
      cases after with
      | none => cases owes
      | some after => exact owes
    · exact sound.goto rfl (fun owes => by rw [stage]; exact owes)
  next after stage =>
    refine sound.goto rfl (fun owes => ?_)
    rw [stage]
    cases after with
    | none => cases owes
    | some after => exact owes
  next after stage =>
    have returns (owes : after.stage.owes = true) : (worker.threads thread).owes = true := by
      rw [stage]
      cases after with
      | grace _ => rfl
      | caller | hard _ | last _ => cases owes
    split_ifs
    · exact sound.goto rfl returns
    · exact sound.move returns
  next termination stage =>
    split_ifs <;> exact sound.move (fun _ => by rw [stage]; rfl)
  next termination stage => exact sound.signal .kill (by rw [stage]; rfl) (by simp [Stage.owes])
  next => split_ifs <;> exact sound.move (by simp [Stage.owes, After.owes])
  next => split_ifs <;> exact sound.goto rfl (by simp [Stage.owes, After.owes])
  next => exact sound.goto rfl (by simp [Stage.owes])
  next => split_ifs <;> exact sound.move (by simp [Stage.owes])
  next stage =>
    rw [stage] at nobodyWaits
    split
    · exact sound
    next status reaped waited =>
      obtain ⟨kept, _⟩ := sound.reap waited (nobodyWaits rfl)
      exact kept.move (by simp [Stage.owes])

/-- What the kernel does keeps the id of a child that nobody has reaped. -/
theorem Sound.kernel (sound : Sound worker) {child : Child} {reused : Bool}
    (reaped : child.isReaped = worker.child.isReaped)
    (free : reused = true → worker.child.isReaped = true) :
    Sound { worker with child, reused } where
  owned := sound.owned
  reused given := reaped.trans (free given)
  quiet := sound.quiet
  pending thread owes :=
    have pending := sound.pending thread owes
    ⟨pending.requested, pending.unkilled, reaped.trans pending.unreaped⟩
  unique := sound.unique

/-- A timely step keeps the worker sound. -/
theorem step_sound (sound : Sound worker) {action : Action} (timely : Timely worker action) :
    Sound (worker.step linux action) := by
  cases action with
  | exit status =>
    simp only [Worker.step]
    split
    next running => exact sound.kernel (by rw [running]; rfl) sound.reused
    · exact sound
  | reuse =>
    simp only [Worker.step]
    split_ifs with reaped
    · exact sound.kernel rfl (fun _ => reaped)
    · exact sound
  | free => exact sound.kernel rfl (fun given => nomatch given)
  | call thread request =>
    simp only [Worker.step]
    split
    · refine sound.move (fun owes => ?_)
      cases request <;> cases owes
    · exact sound
  | go thread drained late => exact sound.go timely

/-- Where the first termination is requested before the child was reaped, and nobody reaps it
between the request and the SIGKILL, every signal goes to the child. -/
theorem signals_reach_child (linux : Bool) (actions : List Action)
    (timely : Along (Worker.step linux) Timely Worker.started actions) :
    Owned (run (Worker.step linux) Worker.started actions) := by
  have sound : Sound (run (Worker.step linux) Worker.started actions) :=
    @run_preserves_along _ _ (Worker.step linux) Timely Sound
      (fun _ _ sound timely => step_sound sound timely) Worker.started actions started_sound timely
  exact sound.owned

/-- A child that ignores SIGTERM, and is killed when the grace period is over. -/
def stubbornChild : List Action :=
  [.call 0 .stop, .go 0 false false, .go 0 false false, .go 0 false false, .go 0 false false,
    .go 0 false false, .go 0 false false, .go 0 false true, .go 0 false false, .exit (.signal 9),
    .go 0 true false, .go 0 true false, .go 0 true false, .go 0 true false]

/-- A child that ignores the first signal gets the second one. -/
theorem signals_reach_stubborn_child :
    Along (Worker.step true) Timely Worker.started stubbornChild ∧
      (run (Worker.step true) Worker.started stubbornChild).signals.length = 2 ∧
      Owned (run (Worker.step true) Worker.started stubbornChild) :=
  ⟨by decide, by decide, signals_reach_child true stubbornChild (by decide)⟩

/-- A child that ends on SIGTERM. The loop of the grace period reaps it, and another process gets
its id before the loop is left. -/
def obedientChild : List Action :=
  [.call 0 .stop, .go 0 false false, .go 0 false false, .exit (.signal 15), .go 0 false false,
    .go 0 false false, .go 0 false false, .go 0 true false, .go 0 true false, .go 0 false false,
    .reuse, .go 0 false false]

/-- SIGKILL goes to the other process. -/
theorem other_process_killed :
    ¬ Owned (run (Worker.step true) Worker.started obedientChild) := by
  intro owned
  have sent : (⟨.kill, true, true⟩ : Sent) ∈
      (run (Worker.step true) Worker.started obedientChild).signals :=
    .tail _ (.head _)
  cases (owned _ sent).2

end OpencodePty.ChildSignals
