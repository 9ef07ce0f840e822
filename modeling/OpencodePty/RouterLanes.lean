import OpencodePty.JsValues
import OpencodePty.PromiseLanes

/-!
# The lanes of the router

The router keeps two maps of promises by session id, one for the tasks that write a session and one
for those that change it. A task of the second kind may add tasks of the first and await them. The
tasks of one map and id are a lane: they run one at a time in the order in which they were added,
and each promise that was returned gets the result of its own task.
-/

namespace OpencodePty.RouterLanes

open JsValues PromiseLanes Turns

/-- The maps of promises. -/
inductive Lane where
  | persists
  | mutations
  deriving DecidableEq

/-- What comes of a task. -/
inductive TaskResult where
  | fulfilled (value : Js)
  | rejected (error : Js)

/-- The promises of the router, each in the lane of its map and session id. -/
abbrev SessionRouter := Lanes (Lane × JsString) TaskResult

abbrev RouterEntry := Entry (Lane × JsString) TaskResult

abbrev RouterEvent := Event (Lane × JsString) TaskResult

/-- Add a task that writes the session. -/
def persist (router : SessionRouter) (id : JsString) : SessionRouter := router.enqueue (.persists, id)

/-- Add a task that changes the session. -/
def mutate (router : SessionRouter) (id : JsString) : SessionRouter := router.enqueue (.mutations, id)

/-- What an event makes of the router, where it is possible. -/
def SessionRouter.after (router : SessionRouter) : RouterEvent → Option SessionRouter
  | .enqueue (.persists, id) => some (persist router id)
  | .enqueue (.mutations, id) => some (mutate router id)
  | .move index move => router.step (.move index move)

/-- An event is a step of the lanes. -/
theorem SessionRouter.after_step (router : SessionRouter) (event : RouterEvent) :
    router.after event = router.step event := by
  match event with
  | .enqueue (.persists, _) | .enqueue (.mutations, _) | .move _ _ => rfl

/-- An entry of the map. -/
def InLane (router : SessionRouter) (lane : Lane) (index : Nat) : Prop :=
  ∃ entry, router.entries[index]? = some entry ∧ entry.key.1 = lane

variable {history : List RouterEvent} {router : SessionRouter}

/-- Two tasks of a lane do not run at once. -/
theorem running_unique (run : Run history router) {first second : Nat}
    {one two : RouterEntry} (here : router.entries[first]? = some one)
    (there : router.entries[second]? = some two) (same : one.key = two.key)
    (runs : one.stage = .running) (also : two.stage = .running) : first = second := by
  have former := turns_there here
  have latter := turns_there there
  rw [runs] at former
  rw [also, ← same] at latter
  exact run.linked.inTurn.unique former latter

/-- A task is called when those that were added to its lane before it have finished. -/
theorem called_after (run : Run history router) {earlier later : Nat}
    {one two : RouterEntry} (before : earlier < later)
    (here : router.entries[earlier]? = some one) (there : router.entries[later]? = some two)
    (same : one.key = two.key) (called : two.stage ≠ .waiting) : one.stage.result.isSome = true := by
  have begun : two.stage.phase ≠ .waiting := by
    intro waiting
    apply called
    cases held : two.stage <;> rw [held] at waiting <;> first | rfl | cases waiting
  have done := run.linked.inTurn later _ (turns_there there) begun earlier _ before
    (turns_there here) same
  cases held : one.stage <;> rw [held] at done <;> first | rfl | cases done

/-- In every run, tasks of one map and id run one at a time, in the order in which they were added,
each once, and what was returned for a task gets its own result, whatever came of the others. There
is an end to what happens after each task, and when nothing can happen any more, where only tasks of
mutations await promises and only those of persists, every task was called and has finished. -/
theorem lanes_exact (run : Run history router) :
    router.entries.map Entry.key = added history ∧
    (∀ (first second : Nat) (one two : RouterEntry), router.entries[first]? = some one →
      router.entries[second]? = some two → one.key = two.key → one.stage = .running →
      two.stage = .running → first = second) ∧
    (∀ (earlier later : Nat) (one two : RouterEntry), earlier < later → router.entries[earlier]? = some one →
      router.entries[later]? = some two → one.key = two.key → two.stage ≠ .waiting →
      one.stage.result.isSome = true) ∧
    (∀ index entry, router.entries[index]? = some entry →
      results index history = entry.stage.result.toList ∧
        calls index history = entry.stage.calls) ∧
    moves history ≤ 5 * router.entries.length ∧
    ∀ awaits : Nat → Nat → Prop,
      (∀ index other, awaits index other →
        InLane router .mutations index ∧ InLane router .persists other) →
      (∀ index, ¬ Enabled router awaits index) →
      ∀ index entry, router.entries[index]? = some entry →
        ∃ result, entry.stage = .swept result ∧ results index history = [result] ∧
          calls index history = 1 := by
  have told := run.told
  refine ⟨told.keys, fun _ _ _ _ => running_unique run, fun _ _ _ _ => called_after run,
    told.result, ?_, ?_⟩
  · have count := told.count
    omega
  · intro awaits nested stuck index entry there
    have : Nonempty TaskResult := ⟨.fulfilled .null⟩
    obtain ⟨_, result, again, swept⟩ := all_swept run.linked
      (fun key : Lane × JsString => key.1 = .persists)
      (by
        intro index other entry waits here inner
        obtain ⟨⟨_, found, outer⟩, _⟩ := nested index other waits
        rw [here] at found
        cases found
        rw [inner] at outer
        cases outer)
      (fun index other waits => (nested index other waits).2) stuck there
    rw [there] at again
    cases again
    obtain ⟨own, called⟩ := told.result index entry there
    rw [swept] at own called
    exact ⟨result, swept, own, called⟩

/-- The events that are possible one after the other are a run. -/
theorem run_of_events {events : List RouterEvent}
    (possible : events.foldlM SessionRouter.after .empty = some router) : Run events router := by
  suffices general : ∀ {former : List RouterEvent} {reached : SessionRouter}, Run former reached →
      events.foldlM SessionRouter.after reached = some router → Run (former ++ events) router from
    general .nil possible
  clear possible
  induction events with
  | nil =>
    intro former reached run possible
    rw [List.append_nil, ← Option.some.inj possible]
    exact run
  | cons event events inductionHypothesis =>
    intro former reached run possible
    rw [List.foldlM_cons, SessionRouter.after_step] at possible
    obtain ⟨next, step, possible⟩ := Option.bind_eq_some_iff.mp possible
    rw [List.append_cons]
    exact inductionHypothesis (.snoc run step) possible

/-- A mutation that persists its session and awaits that, and a second mutation that is added while
the first one runs. The persisting fails; all the same both mutations run, one after the other. -/
def mutationEvents : List RouterEvent :=
  [.enqueue (.mutations, js "s"), .move 0 .start, .enqueue (.persists, js "s"), .move 1 .start,
    .enqueue (.mutations, js "s"), .move 1 (.finish (.rejected .null)), .move 1 .resolve,
    .move 0 (.finish (.fulfilled .null)), .move 1 .settle, .move 0 .resolve, .move 1 .sweep,
    .move 0 .settle, .move 2 .start, .move 0 .sweep, .move 2 (.finish (.fulfilled .null)),
    .move 2 .resolve, .move 2 .settle, .move 2 .sweep]

/-- The task that fails ends its promise only; nothing can happen any more, and each of the three
tasks was called once and its promise has its own result. -/
theorem lanes_exact_mutations :
    ∃ router, Run mutationEvents router ∧
      router.entries.map Entry.key =
        [(.mutations, js "s"), (.persists, js "s"), (.mutations, js "s")] ∧
      results 1 mutationEvents = [.rejected .null] ∧
      moves mutationEvents = 5 * router.entries.length ∧
      ∀ index entry, router.entries[index]? = some entry →
        ∃ result, entry.stage = .swept result ∧ results index mutationEvents = [result] ∧
          calls index mutationEvents = 1 := by
  obtain ⟨router, possible, stages⟩ : ∃ router : SessionRouter,
      mutationEvents.foldlM SessionRouter.after .empty = some router ∧
      router.entries = [⟨(.mutations, js "s"), none, .swept (.fulfilled .null)⟩,
        ⟨(.persists, js "s"), none, .swept (.rejected .null)⟩,
        ⟨(.mutations, js "s"), some 0, .swept (.fulfilled .null)⟩] :=
    ⟨_, rfl, rfl⟩
  have run := run_of_events possible
  obtain ⟨keys, _, _, _, _, settled⟩ := lanes_exact run
  refine ⟨router, run, keys, rfl, ?_, settled (fun index other => index = 0 ∧ other = 1) ?_ ?_⟩
  · rw [stages]
    rfl
  · rintro _ _ ⟨rfl, rfl⟩
    rw [InLane, InLane, stages]
    exact ⟨⟨_, rfl, rfl⟩, _, rfl, rfl⟩
  · rintro index ⟨move, movable, _⟩
    simp only [Lanes.step, stages] at movable
    rcases index with _ | _ | _ | later
    · cases move <;> cases movable
    · cases move <;> cases movable
    · cases move <;> cases movable
    · cases movable

end OpencodePty.RouterLanes
