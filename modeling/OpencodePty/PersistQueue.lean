import OpencodePty.TaskChains
import OpencodePty.Transitions

/-!
# The queue of wait results

The result of a wait is written into the metadata of its session through one chain of tasks
that all sessions share. Every operation first awaits that chain, so a write that fails is seen
by each operation that awaits it as the last task, whichever session it is for. The promise of a
wait that was registered is resolved after its own write; where that write fails, nothing
settles the promise.
-/

namespace OpencodePty.PersistQueue

open OpencodePty.TaskChains OpencodePty.Transitions

abbrev SessionId := Nat

/-- The write of the result of a wait. A wait is registered where its condition did not hold at
once; otherwise it returns what `finishWait` returns. -/
structure WaitWrite where
  session : SessionId
  registered : Bool
  deriving DecidableEq

/-- The operations, each of which first awaits `flush`. -/
inductive Kind where
  | spawn
  | write
  | sendWait
  | wait
  | resize
  | read
  | search
  | get
  | list
  | stop
  | cleanup
  deriving DecidableEq

/-- What has come of the flush of an operation. -/
inductive Flush where
  | waiting
  | passed
  | rejected
  deriving DecidableEq

/-- An operation for a session, with the length of the queue when it called `flush`. -/
structure Operation where
  kind : Kind
  session : SessionId
  awaits : Nat
  flush : Flush

structure Supervisor where
  persistQueue : Chain WaitWrite
  operations : List Operation

/-- The promise that `wait` returned. -/
inductive Promise where
  | pending
  | resolved
  | rejected
  deriving DecidableEq

/-- `settle` of a registered wait calls `finishWait(record, result).then(resolve)`, which does
nothing where the write fails. -/
def promise (entry : Entry WaitWrite) : Promise :=
  match entry.outcome with
  | .queued => .pending
  | .fulfilled => .resolved
  | .rejected => if entry.task.registered then .pending else .rejected

inductive Action where
  | begin (kind : Kind) (session : SessionId)
  /-- `finishWait` adds the write of a result. -/
  | finishWait (session : SessionId) (registered : Bool)
  /-- `writeSession` of the write whose turn it is returns or fails. -/
  | write (succeeds : Bool)
  /-- An operation goes on after its flush. -/
  | resume (index : Nat)
  deriving DecidableEq

namespace Supervisor

variable (supervisor : Supervisor)

/-- What an operation learns from the chain that it awaited. -/
def resumed (operation : Operation) : Operation :=
  match operation.flush, awaited supervisor.persistQueue operation.awaits with
  | .waiting, .fulfilled => { operation with flush := .passed }
  | .waiting, .rejected => { operation with flush := .rejected }
  | _, _ => operation

def step : Action → Supervisor
  | .begin kind session =>
    { supervisor with
      operations := supervisor.operations ++
        [⟨kind, session, supervisor.persistQueue.length, .waiting⟩] }
  | .finishWait session registered =>
    { supervisor with persistQueue := enqueue supervisor.persistQueue ⟨session, registered⟩ }
  | .write succeeds =>
    { supervisor with persistQueue := settle succeeds supervisor.persistQueue }
  | .resume index =>
    { supervisor with operations := supervisor.operations.modify index supervisor.resumed }

end Supervisor

def quiet : Supervisor := ⟨[], []⟩

/-- The operation awaits the write whose turn it is. -/
def AwaitsCurrent (supervisor : Supervisor) (operation : Operation) : Prop :=
  awaited supervisor.persistQueue operation.awaits = .queued ∧
    awaited (settle false supervisor.persistQueue) operation.awaits = .rejected

instance (supervisor : Supervisor) (operation : Operation) :
    Decidable (AwaitsCurrent supervisor operation) :=
  inferInstanceAs (Decidable (_ ∧ _))

/-- A write that fails is not that of a registered wait, and no operation for another session
awaits it. -/
def Contained (supervisor : Supervisor) : Action → Prop
  | .begin _ session =>
    ∀ entry ∈ supervisor.persistQueue.getLast?, entry.outcome = .rejected →
      entry.task.session = session
  | .write false =>
    ∀ task ∈ current supervisor.persistQueue, task.registered = false ∧
      ∀ operation ∈ supervisor.operations, AwaitsCurrent supervisor operation →
        operation.session = task.session
  | _ => True

/-- An operation is not rejected for a write of another session. -/
def Undisturbed (supervisor : Supervisor) (operation : Operation) : Prop :=
  operation.flush = .rejected → ∃ entry, supervisor.persistQueue[operation.awaits - 1]? = some entry ∧
    entry.task.session = operation.session

/-- No operation is rejected for a write of another session, and when all writes have finished
every promise of a wait is settled. -/
structure Isolated (supervisor : Supervisor) : Prop where
  operations : ∀ operation ∈ supervisor.operations, Undisturbed supervisor operation
  promises : Idle supervisor.persistQueue → ∀ entry ∈ supervisor.persistQueue,
    promise entry ≠ .pending

/-- What every step keeps: a write that failed is of the session of whoever awaited it, and of no
registered wait. -/
structure Kept (supervisor : Supervisor) : Prop where
  own : ∀ operation ∈ supervisor.operations,
    awaited supervisor.persistQueue operation.awaits = .rejected →
    ∃ entry, supervisor.persistQueue[operation.awaits - 1]? = some entry ∧
      entry.task.session = operation.session
  within : ∀ operation ∈ supervisor.operations,
    operation.awaits ≤ supervisor.persistQueue.length
  learned : ∀ operation ∈ supervisor.operations, operation.flush = .rejected →
    awaited supervisor.persistQueue operation.awaits = .rejected
  immediate : ∀ entry ∈ supervisor.persistQueue, entry.outcome = .rejected →
    entry.task.registered = false

theorem quiet_kept : Kept quiet :=
  ⟨by simp [quiet], by simp [quiet], by simp [quiet], by simp [quiet]⟩

/-- The outcome of the last task is what is awaited of the whole chain. -/
theorem awaited_length {chain : Chain WaitWrite} (failed : awaited chain chain.length = .rejected) :
    ∃ entry ∈ chain.getLast?, chain[chain.length - 1]? = some entry ∧
      entry.outcome = .rejected := by
  cases size : chain.length with
  | zero =>
    rw [size] at failed
    cases failed
  | succ position =>
    rw [size] at failed
    simp only [awaited] at failed
    cases found : chain[position]? with
    | none =>
      rw [found] at failed
      cases failed
    | some entry =>
      rw [found] at failed
      have last : chain.getLast? = some entry := by
        rw [List.getLast?_eq_getElem?, size]
        exact found
      exact ⟨entry, last, found, failed⟩

section Step

variable {supervisor : Supervisor}

/-- Operations may learn what they awaited. -/
theorem Kept.resume (kept : Kept supervisor) (index : Nat) :
    Kept { supervisor with
      operations := supervisor.operations.modify index supervisor.resumed } := by
  have same (operation : Operation) :
      (supervisor.resumed operation).awaits = operation.awaits ∧
        (supervisor.resumed operation).session = operation.session := by
    unfold Supervisor.resumed
    split <;> exact ⟨rfl, rfl⟩
  have before {operation : Operation}
      (member : operation ∈ supervisor.operations.modify index supervisor.resumed) :
      ∃ former ∈ supervisor.operations,
        operation = former ∨ operation = supervisor.resumed former := by
    rw [List.mem_iff_getElem?] at member
    obtain ⟨place, found⟩ := member
    rw [List.getElem?_modify] at found
    cases stored : supervisor.operations[place]? with
    | none => simp [stored] at found
    | some former =>
      refine ⟨former, List.mem_of_getElem? stored, ?_⟩
      by_cases changed : index = place
      · right
        simpa [stored, changed] using found.symm
      · left
        simpa [stored, changed] using found.symm
  exact
    { own := by
        intro operation member
        obtain ⟨former, known, rfl | rfl⟩ := before member
        · exact kept.own operation known
        · rw [(same former).1, (same former).2]
          exact kept.own former known
      within := by
        intro operation member
        obtain ⟨former, known, rfl | rfl⟩ := before member
        · exact kept.within operation known
        · rw [(same former).1]
          exact kept.within former known
      learned := by
        intro operation member rejected
        obtain ⟨former, known, rfl | rfl⟩ := before member
        · exact kept.learned operation known rejected
        · rw [(same former).1]
          unfold Supervisor.resumed at rejected
          split at rejected
          · cases rejected
          next failed => exact failed
          · exact kept.learned former known rejected
      immediate := kept.immediate }

/-- A write may finish: what then fails is the write of an immediate wait, and whoever awaited it
is of its session. -/
theorem Kept.write (kept : Kept supervisor) {succeeds : Bool}
    (contained : Contained supervisor (.write succeeds)) :
    Kept { supervisor with persistQueue := settle succeeds supervisor.persistQueue } := by
  have sameTask {position : Nat} {entry : Entry WaitWrite}
      (found : supervisor.persistQueue[position]? = some entry) :
      ∃ after, (settle succeeds supervisor.persistQueue)[position]? = some after ∧
        after.task = entry.task := by
    have tasks := congrArg (·[position]?) (tasks_settle succeeds supervisor.persistQueue)
    simp only [List.getElem?_map, found, Option.map_some, Option.map_eq_some_iff] at tasks
    exact tasks
  exact
    { own := by
        intro operation member failed
        rcases awaited_settle succeeds supervisor.persistQueue operation.awaits with
          same | ⟨task, found, turn, settled⟩
        · rw [same] at failed
          obtain ⟨entry, found, own⟩ := kept.own operation member failed
          obtain ⟨after, foundAfter, unchanged⟩ := sameTask found
          exact ⟨after, foundAfter, by rw [unchanged]; exact own⟩
        · obtain ⟨after, foundAfter, unchanged⟩ := sameTask found
          refine ⟨after, foundAfter, ?_⟩
          rw [unchanged]
          cases succeeds with
          | true =>
            rw [settled] at failed
            cases failed
          | false =>
            refine ((contained task turn).2 operation member ⟨?_, failed⟩).symm
            cases position : operation.awaits with
            | zero =>
              rw [position] at failed
              cases failed
            | succ before =>
              rw [position, Nat.add_sub_cancel] at found
              simp [awaited, found]
      within := by
        intro operation member
        rw [length_settle]
        exact kept.within operation member
      learned := by
        intro operation member rejected
        have before := kept.learned operation member rejected
        rcases awaited_settle succeeds supervisor.persistQueue operation.awaits with
          same | ⟨task, found, turn, settled⟩
        · rw [same]
          exact before
        · exfalso
          cases position : operation.awaits with
          | zero =>
            rw [position] at before
            cases before
          | succ place =>
            rw [position, Nat.add_sub_cancel] at found
            rw [position] at before
            simp [awaited, found] at before
      immediate := by
        intro entry member rejected
        rcases settle_cases succeeds supervisor.persistQueue with
          ⟨_, same⟩ | ⟨before, task, after, queue, _, turn, same⟩
        · rw [same] at member
          exact kept.immediate entry member rejected
        · rw [same, List.mem_append, List.mem_cons] at member
          have earlier (known : entry ∈ before ∨ entry ∈ after) :
              entry.task.registered = false := by
            refine kept.immediate entry ?_ rejected
            rw [queue, List.mem_append, List.mem_cons]
            exact known.imp_right Or.inr
          rcases member with known | rfl | known
          · exact earlier (.inl known)
          · cases succeeds with
            | true => cases rejected
            | false => exact (contained task turn).1
          · exact earlier (.inr known) }

theorem step_kept (kept : Kept supervisor) {action : Action}
    (contained : Contained supervisor action) : Kept (supervisor.step action) := by
  cases action with
  | begin kind session =>
    have members {operation : Operation} (member : operation ∈ (supervisor.step
        (.begin kind session)).operations) : operation ∈ supervisor.operations ∨
        operation = ⟨kind, session, supervisor.persistQueue.length, .waiting⟩ := by
      simpa [Supervisor.step] using member
    exact
      { own := by
          intro operation member failed
          obtain known | rfl := members member
          · exact kept.own operation known failed
          · obtain ⟨entry, last, found, rejected⟩ := awaited_length failed
            exact ⟨entry, found, contained entry last rejected⟩
        within := by
          intro operation member
          obtain known | rfl := members member
          · exact kept.within operation known
          · exact Nat.le_refl _
        learned := by
          intro operation member rejected
          obtain known | rfl := members member
          · exact kept.learned operation known rejected
          · cases rejected
        immediate := kept.immediate }
  | finishWait session registered =>
    have extended {position : Nat} {entry : Entry WaitWrite}
        (found : supervisor.persistQueue[position]? = some entry) :
        (enqueue supervisor.persistQueue ⟨session, registered⟩)[position]? = some entry := by
      obtain ⟨inside, _⟩ := List.getElem?_eq_some_iff.mp found
      rw [enqueue, List.getElem?_append_left inside]
      exact found
    exact
      { own := by
          intro operation member failed
          simp only [Supervisor.step] at failed
          rw [awaited_enqueue _ _ (kept.within operation member)] at failed
          obtain ⟨entry, found, own⟩ := kept.own operation member failed
          exact ⟨entry, extended found, own⟩
        within := by
          intro operation member
          have bound := kept.within operation member
          simp only [Supervisor.step, enqueue, List.length_append]
          omega
        learned := by
          intro operation member rejected
          simp only [Supervisor.step]
          rw [awaited_enqueue _ _ (kept.within operation member)]
          exact kept.learned operation member rejected
        immediate := by
          intro entry member rejected
          simp only [Supervisor.step, enqueue, List.mem_append, List.mem_singleton] at member
          obtain known | rfl := member
          · exact kept.immediate entry known rejected
          · cases rejected }
  | write succeeds => exact kept.write contained
  | resume index => exact kept.resume index

end Step

theorem Kept.isolated {supervisor : Supervisor} (kept : Kept supervisor) : Isolated supervisor where
  operations := by
    intro operation member rejected
    exact kept.own operation member (kept.learned operation member rejected)
  promises := by
    intro idle entry member
    have finished := idle entry member
    cases outcome : entry.outcome with
    | queued => exact absurd outcome finished
    | fulfilled => simp [promise, outcome]
    | rejected => simp [promise, outcome, kept.immediate entry member outcome]

/-- Where every write that fails is that of an immediate wait which no operation for another
session awaits, no operation is rejected for a write of another session and no promise of a wait
stays unsettled. -/
theorem persist_failure_isolated (actions : List Action)
    (contained : Along Supervisor.step Contained quiet actions) :
    Isolated (run Supervisor.step quiet actions) :=
  (@run_preserves_along _ _ Supervisor.step Contained Kept
    (fun _ _ kept met => step_kept kept met) quiet actions quiet_kept contained).isolated

/-- The write of an immediate wait of session 0 fails; the operation of session 0 that awaited it
is rejected and one of session 1 that began before is not. -/
theorem persist_failure_isolated_immediate :
    (run Supervisor.step quiet [.begin .list 1, .finishWait 0 false, .begin .get 0, .write false,
      .resume 0, .resume 1]).operations.map (fun operation => (operation.session, operation.flush)) =
        [(1, .passed), (0, .rejected)] ∧
    Isolated (run Supervisor.step quiet [.begin .list 1, .finishWait 0 false, .begin .get 0,
      .write false, .resume 0, .resume 1]) := by
  refine ⟨by decide, persist_failure_isolated _ ?_⟩
  refine ⟨?_, trivial, ?_, ?_, trivial, trivial, trivial⟩
  · intro entry last
    cases last
  · intro entry last failed
    cases last
    cases failed
  · intro task turn
    cases turn
    refine ⟨rfl, ?_⟩
    intro operation member awaits
    simp only [Supervisor.step, quiet, List.nil_append, List.cons_append, List.mem_cons,
      List.not_mem_nil, or_false] at member
    rcases member with rfl | rfl
    · cases awaits.1
    · rfl

/-- The write of a registered wait of session 0 fails. An operation for session 1 that begins
afterwards is rejected, and the promise of the wait stays unsettled. -/
theorem persist_failure_disturbs :
    ¬Isolated (run Supervisor.step quiet
      [.finishWait 0 true, .write false, .begin .spawn 1, .resume 0]) ∧
    (run Supervisor.step quiet [.finishWait 0 true, .write false, .begin .spawn 1,
      .resume 0]).operations.map (fun operation => (operation.session, operation.flush)) =
        [(1, .rejected)] ∧
    (run Supervisor.step quiet [.finishWait 0 true, .write false, .begin .spawn 1,
      .resume 0]).persistQueue.map promise = [.pending] := by
  refine ⟨?_, by decide, by decide⟩
  intro isolated
  have settled := isolated.promises (by intro entry member; cases member with
    | head => decide
    | tail _ rest => cases rest) ⟨⟨0, true⟩, .rejected⟩ (List.mem_singleton.mpr rfl)
  exact settled rfl

end OpencodePty.PersistQueue
