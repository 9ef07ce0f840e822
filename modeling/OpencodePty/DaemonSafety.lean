import OpencodePty.DaemonServing

/-!
# At most one daemon serves

In every run in which the start lock is not disturbed, and in which a daemon that serves can be
told from the descriptor, at most one daemon serves at a time, and once it has released the
lock the descriptor is its own until it stops. A daemon passes its check under the lock, so
that the one that serves is the one in the descriptor or the one that holds the lock.
-/

namespace OpencodePty.DaemonServing

open OpencodePty.StartLock (ProcessId Token Lock Drawn Exclusive)
open OpencodePty.Transitions

/-- The daemon holds the lock and has called on it no further. -/
def Stage.inside : Stage → Bool
  | .checking | .rereading _ | .identifying _ _ | .asking _ | .preparing | .publishing
  | .removalReading | .removing => true
  | _ => false

/-- The descriptor is the one of the daemon. -/
def Stage.published : Stage → Bool
  | .releasing | .serving => true
  | _ => false

/-- What a daemon has read in its check. -/
def Stage.reads : Stage → List Descriptor
  | .rereading descriptor | .asking descriptor => [descriptor]
  | .identifying descriptor reread => [descriptor, reread]
  | _ => []

/-- The daemon has passed its check and has not yet written its descriptor. -/
def Stage.passed : Stage → Bool
  | .preparing | .publishing => true
  | _ => false

/-- The daemon neither holds the lock nor serves. -/
def Stage.plain : Stage → Bool
  | .launched | .locking | .failing | .stopping | .removalLocking | .removalReleasing | .ended =>
    true
  | _ => false

theorem passed_inside {stage : Stage} (passed : stage.passed = true) : stage.inside = true := by
  cases stage with
  | preparing | publishing => rfl
  | _ => cases passed

/-- What holds of the daemons in every state. -/
structure Sole (clients : ProcessId → Prop) (system : System) : Prop where
  exclusive : Exclusive system.lock
  drawn : Drawn clients system.lock
  role : ∀ process, clients process ↔ system.stages process = .client
  inside : ∀ process, system.alive process = true → (system.stages process).inside = true →
    system.lock.pc process = .idle ∧ (system.lock.lease process).isSome = true
  published : ∀ process, system.alive process = true →
    (system.stages process).published = true → system.descriptor = some (system.own process)
  read : ∀ process, system.alive process = true →
    ∀ descriptor ∈ (system.stages process).reads, system.descriptor = some descriptor
  removes : ∀ process, system.alive process = true → system.stages process = .removing →
    ∃ descriptor, system.descriptor = some descriptor ∧ descriptor.pid = process
  alone : ∀ process, system.alive process = true → (system.stages process).passed = true →
    ∀ other, system.serves other = true → other = process

theorem sole_initial {system : System} (initial : Initial system) :
    Sole (fun process => system.stages process = .client) system := by
  have nothing (process : ProcessId) (lock : Lock) :
      ¬ (system.lock.processes process).Owns lock := by
    have idle : (system.lock.processes process).pc = .idle := initial.lock.idle process
    have free : (system.lock.processes process).lease = none := initial.lock.free process
    simp [StartLock.Process.Owns, idle, free]
  have early (process : ProcessId) : (system.stages process).inside = false ∧
      (system.stages process).published = false ∧ (system.stages process).reads = [] ∧
      system.stages process ≠ .removing ∧ (system.stages process).passed = false := by
    rcases initial.stages process with stage | stage
    · rw [stage]
      exact ⟨rfl, rfl, rfl, by decide, rfl⟩
    · rw [stage]
      exact ⟨rfl, rfl, rfl, by decide, rfl⟩
  refine
    { exclusive := StartLock.exclusive_initial initial.lock
      drawn := ⟨?_, ?_, ?_, ?_, ?_, ?_⟩
      role := fun _ => Iff.rfl
      inside := fun process _ holds => by simp [(early process).1] at holds
      published := fun process _ holds => by simp [(early process).2.1] at holds
      read := fun process _ descriptor holds => by simp [(early process).2.2.1] at holds
      removes := fun process _ holds => absurd holds (early process).2.2.2.1
      alone := fun process _ holds => by simp [(early process).2.2.2.2] at holds }
  · exact fun process lock _ owns => absurd owns (nothing process lock)
  · exact fun first _ lock _ _ owns => absurd owns (nothing first lock)
  · intro receiver token given
    simp [initial.given] at given
  · intro process lock token _ owns
    exact absurd owns (nothing process lock)
  · intro process token goes
    rw [initial.lock.idle process] at goes
    cases goes
  · intro token used
    simp [initial.handedOff] at used

section
variable {clients : ProcessId → Prop} {before : System}

/-- Two live daemons that hold the lock are the same. -/
theorem Sole.same_inside (sole : Sole clients before) {first second : ProcessId}
    (living : before.alive first = true) (one : (before.stages first).inside = true)
    (living' : before.alive second = true) (other : (before.stages second).inside = true) :
    first = second := by
  have holds {process : ProcessId} (living : before.alive process = true)
      (inside : (before.stages process).inside = true) : before.lock.holds process = true := by
    have daemon : ¬ clients process := by
      rw [sole.role]
      intro same
      rw [same] at inside
      cases inside
    obtain ⟨lock, leased⟩ := Option.isSome_iff_exists.mp (sole.inside process living inside).2
    have free := sole.drawn.not_handed_off daemon (.inl leased)
    simp only [StartLock.System.holds, Bool.and_eq_true, Option.any_eq_true, Bool.not_eq_true',
      Option.any_eq_false]
    refine ⟨living, lock, leased, ?_⟩
    intro token same
    by_contra used
    refine free ⟨token, ?_, same⟩
    simpa using used
  exact sole.exclusive.unique (holds living one) (holds living' other)

/-- A live daemon goes on to another stage, and maybe calls on the lock or writes the
descriptor. -/
theorem Sole.move (sole : Sole clients before) {process : ProcessId}
    (living : before.alive process = true) (daemon : before.stages process ≠ .client)
    {lock : StartLock.System} {descriptor : Option Descriptor} {stage : Stage}
    (others : ∀ other, other ≠ process → lock.processes other = before.lock.processes other)
    (alive : ∀ other, lock.alive other = true → before.alive other = true)
    (exclusive : Exclusive lock) (drawn : Drawn clients lock)
    (written : descriptor = before.descriptor ∨
      (before.stages process).inside = true ∧ ∀ other, before.alive other = true →
        other ≠ process → (before.stages other).serves = false)
    (role : stage ≠ .client)
    (inside : stage.inside = true →
      lock.pc process = .idle ∧ (lock.lease process).isSome = true)
    (published : stage.published = true → descriptor = some (before.own process))
    (read : ∀ present ∈ stage.reads, descriptor = some present)
    (removes : stage = .removing → ∃ present, descriptor = some present ∧ present.pid = process)
    (alone : stage.passed = true → ∀ other, before.serves other = true → other = process)
    (serves : stage.serves = true →
      (before.stages process).serves = true ∨ before.stages process = .preparing) :
    Sole clients
      (System.goto { before with lock := lock, descriptor := descriptor } process stage) := by
  have self : (System.goto { before with lock := lock, descriptor := descriptor } process
      stage).stages process = stage := by simp [System.goto]
  have away (other : ProcessId) (different : other ≠ process) :
      (System.goto { before with lock := lock, descriptor := descriptor } process
        stage).stages other = before.stages other := by simp [System.goto, different]
  -- What another live daemon that holds the lock knows is not written over.
  have kept (other : ProcessId) (different : other ≠ process)
      (now : before.alive other = true)
      (holds : (before.stages other).inside = true ∨ (before.stages other).serves = true)
      {present : Descriptor} (file : before.descriptor = some present) :
      descriptor = some present := by
    rcases written with same | ⟨mine, unserved⟩
    · rw [same, file]
    · rcases holds with inside | serves
      · exact absurd (sole.same_inside now inside living mine) different
      · rw [unserved other now different] at serves
        cases serves
  refine
    { exclusive := exclusive
      drawn := drawn
      role := ?_
      inside := ?_
      published := ?_
      read := ?_
      removes := ?_
      alone := ?_ }
  · intro other
    by_cases same : other = process
    · subst same
      rw [self, sole.role]
      exact ⟨fun client => absurd client daemon, fun client => absurd client role⟩
    · rw [away other same]
      exact sole.role other
  · intro other now holds
    by_cases same : other = process
    · subst same
      rw [self] at holds
      exact inside holds
    · rw [away other same] at holds
      have old := sole.inside other (alive other now) holds
      rw [StartLock.System.pc, StartLock.System.lease, ← others other same] at old
      exact old
  · intro other now holds
    by_cases same : other = process
    · subst same
      rw [self] at holds
      exact published holds
    · rw [away other same] at holds
      refine kept other same (alive other now) ?_ (sole.published other (alive other now) holds)
      cases stage' : before.stages other with
      | releasing => exact .inr rfl
      | serving => exact .inr rfl
      | _ => simp [stage', Stage.published] at holds
  · intro other now present holds
    by_cases same : other = process
    · subst same
      rw [self] at holds
      exact read present holds
    · rw [away other same] at holds
      refine kept other same (alive other now) (.inl ?_) (sole.read other (alive other now) _ holds)
      cases stage' : before.stages other with
      | rereading | identifying | asking => rfl
      | _ => simp [stage', Stage.reads] at holds
  · intro other now holds
    by_cases same : other = process
    · subst same
      rw [self] at holds
      exact removes holds
    · rw [away other same] at holds
      obtain ⟨present, file, mine⟩ := sole.removes other (alive other now) holds
      exact ⟨present, kept other same (alive other now) (.inl (by rw [holds]; rfl)) file, mine⟩
  · intro first now passed second two
    simp only [System.serves, Bool.and_eq_true] at two
    have living' := alive second two.1
    by_cases mine : first = process
    · subst mine
      rw [self] at passed
      by_cases yours : second = first
      · exact yours
      · rw [away second yours] at two
        refine alone passed second ?_
        simp [System.serves, living', two.2]
    · rw [away first mine] at passed
      have here := alive first now
      by_cases yours : second = process
      · subst yours
        rw [self] at two
        rcases serves two.2 with served | prepared
        · refine sole.alone first here passed second ?_
          simp [System.serves, living', served]
        · exact sole.same_inside living' (by rw [prepared]; rfl) here (passed_inside passed)
      · rw [away second yours] at two
        refine sole.alone first here passed second ?_
        simp [System.serves, living', two.2]

/-- A live daemon goes on without a call on the lock. -/
theorem Sole.goto (sole : Sole clients before) {process : ProcessId}
    (living : before.alive process = true) (daemon : before.stages process ≠ .client)
    {stage : Stage} (role : stage ≠ .client)
    (inside : stage.inside = true →
      before.lock.pc process = .idle ∧ (before.lock.lease process).isSome = true)
    (published : stage.published = true → before.descriptor = some (before.own process))
    (read : ∀ present ∈ stage.reads, before.descriptor = some present)
    (removes : stage = .removing →
      ∃ present, before.descriptor = some present ∧ present.pid = process)
    (alone : stage.passed = true → ∀ other, before.serves other = true → other = process)
    (serves : stage.serves = true →
      (before.stages process).serves = true ∨ before.stages process = .preparing) :
    Sole clients (before.goto process stage) :=
  sole.move living daemon (fun _ _ => rfl) (fun _ now => now) sole.exclusive sole.drawn (.inl rfl)
    role inside published read removes alone serves

/-- A daemon begins a call on the lock. -/
inductive Begins (process : ProcessId) : StartLock.Action → Prop where
  | acquire : Begins process (.acquire process)
  | claim (handoffToken : Token) : Begins process (.claim process handoffToken)
  | release : Begins process (.release process)

/-- A live daemon calls on the lock, and maybe has written the descriptor. -/
theorem Sole.call (sole : Sole clients before) {process : ProcessId}
    (living : before.alive process = true) (daemon : before.stages process ≠ .client)
    {action : StartLock.Action} (begins : Begins process action) {descriptor : Option Descriptor}
    {stage : Stage} (role : stage ≠ .client) (outside : stage.inside = false)
    (written : descriptor = before.descriptor ∨
      (before.stages process).inside = true ∧ ∀ other, before.alive other = true →
        other ≠ process → (before.stages other).serves = false)
    (published : stage.published = true → descriptor = some (before.own process))
    (serves : stage.serves = true → (before.stages process).serves = true) :
    Sole clients (System.call { before with descriptor := descriptor } action process stage) := by
  have mine : action.process = process := by cases begins <;> rfl
  have undisturbed : StartLock.Undisturbed before.lock action := by cases begins <;> trivial
  have gives : ∀ giver receiver, action = .give giver receiver → clients giver := by
    rintro giver receiver rfl
    cases begins
  refine sole.move living daemon ?_ (StartLock.step_alive before.lock action)
    (StartLock.step_exclusive sole.exclusive undisturbed) (StartLock.step_drawn sole.drawn gives)
    written role ?_ published ?_ ?_ ?_ ?_
  · intro other different
    exact StartLock.step_others before.lock action (by rwa [mine])
  · intro holds
    rw [outside] at holds
    cases holds
  · intro present holds
    cases stage <;> simp [Stage.reads, Stage.inside] at holds outside
  · rintro rfl
    cases outside
  · intro passed
    cases stage <;> simp [Stage.passed, Stage.inside] at passed outside
  · exact fun now => .inl (serves now)

/-- A live daemon calls on the lock to neither hold it nor serve from then on. -/
theorem Sole.leave (sole : Sole clients before) {process : ProcessId}
    (living : before.alive process = true) (daemon : before.stages process ≠ .client)
    {action : StartLock.Action} (begins : Begins process action) {stage : Stage}
    (plain : stage.plain = true) : Sole clients (before.call action process stage) := by
  refine sole.call living daemon begins ?_ ?_ (.inl rfl) ?_ ?_
  all_goals cases stage <;> simp [Stage.plain, Stage.inside, Stage.published, Stage.serves] at *

/-- A live daemon neither holds the lock nor serves from then on. -/
theorem Sole.settle (sole : Sole clients before) {process : ProcessId}
    (living : before.alive process = true) (daemon : before.stages process ≠ .client)
    {stage : Stage} (plain : stage.plain = true) : Sole clients (before.goto process stage) := by
  refine sole.goto living daemon ?_ ?_ ?_ ?_ ?_ ?_ ?_
  all_goals
    cases stage <;>
      simp [Stage.plain, Stage.inside, Stage.published, Stage.serves, Stage.reads, Stage.passed] at *

/-- `start` fails: the lock is released and no request is accepted. -/
theorem Sole.abandon (sole : Sole clients before) {process : ProcessId}
    (living : before.alive process = true) (daemon : before.stages process ≠ .client) :
    Sole clients (before.abandon process) := sole.leave living daemon .release rfl

/-- A daemon that serves while another one holds the lock is the one in the descriptor. -/
theorem Sole.described (sole : Sole clients before) {process : ProcessId}
    (living : before.alive process = true) (inside : (before.stages process).inside = true)
    (unserved : (before.stages process).serves = false) {other : ProcessId}
    (serves : before.serves other = true) : before.descriptor = some (before.own other) := by
  simp only [System.serves, Bool.and_eq_true] at serves
  cases stage : before.stages other with
  | publishing =>
    have same := sole.same_inside serves.1 (by rw [stage]; rfl) living inside
    rw [same, unserved] at serves
    cases serves.2
  | releasing => exact sole.published other serves.1 (by rw [stage]; rfl)
  | serving => exact sole.published other serves.1 (by rw [stage]; rfl)
  | _ => simp [stage, Stage.serves] at serves

/-- Where the descriptor names no daemon that serves, the one that holds the lock passes its
check. -/
theorem Sole.pass (sole : Sole clients before) {process : ProcessId}
    (living : before.alive process = true) (inside : (before.stages process).inside = true)
    (idle : (before.stages process).serves = false) (unserved : before.Unserved) :
    Sole clients (before.goto process .preparing) := by
  refine sole.goto living ?_ (by decide) ?_ (by simp [Stage.published]) (by simp [Stage.reads])
    (by simp) ?_ (by simp [Stage.serves])
  · intro client
    rw [client] at inside
    cases inside
  · exact fun _ => sole.inside process living inside
  · intro _ other serves
    have quiet := unserved _ (sole.described living inside idle serves)
    have same : (before.own other).pid = other := rfl
    rw [same, serves] at quiet
    cases quiet

/-- What is told of the process in the descriptor decides the check. -/
theorem Sole.judge (sole : Sole clients before) {process : ProcessId}
    (living : before.alive process = true) {descriptor reread : Descriptor}
    (stage : before.stages process = .identifying descriptor reread) (event : Event) :
    Sole clients (before.judge process descriptor reread event) := by
  have daemon : before.stages process ≠ .client := by simp [stage]
  have read := sole.read process living
  simp only [stage, Stage.reads, List.mem_cons, List.not_mem_nil, or_false, forall_eq_or_imp,
    forall_eq] at read
  have inside : (before.stages process).inside = true := by rw [stage]; rfl
  have pass (dead : before.alive reread.pid = false) :
      Sole clients (before.goto process .preparing) := by
    refine sole.pass living inside (by rw [stage]; rfl) ?_
    intro present file
    rw [read.2, Option.some_inj] at file
    simp [System.serves, ← file, dead]
  cases event with
  | identified =>
    simp only [System.judge]
    split
    · exact sole.abandon living daemon
    next dead => exact pass (by simpa using dead)
  | unidentified reused =>
    simp only [System.judge]
    split
    · split
      · exact sole.abandon living daemon
      · refine sole.goto living daemon (by simp) (fun _ => sole.inside process living inside)
          (by simp [Stage.published]) ?_ (by simp) (by simp [Stage.passed]) (by simp [Stage.serves])
        simpa [Stage.reads] using read.1
    next dead =>
      refine pass ?_
      simp only [Bool.or_eq_true, not_or, Bool.not_eq_true] at dead
      exact dead.1
  | fail => exact sole.abandon living daemon
  | launch | next | misread | answered | failLate | signal => exact sole

/-- A live daemon has obtained the lock. -/
theorem Sole.enter (sole : Sole clients before) {process : ProcessId}
    (living : before.alive process = true) (daemon : before.stages process ≠ .client)
    (returned : before.returned process = true)
    (leased : (before.lock.lease process).isSome = true) {stage : Stage}
    (first : stage = .checking ∨ stage = .removalReading) :
    Sole clients (before.goto process stage) := by
  have here : before.lock.pc process = .idle := by simpa [System.returned] using returned
  rcases first with rfl | rfl
  · exact sole.goto living daemon (by decide) (fun _ => ⟨here, leased⟩) (by simp [Stage.published])
      (by simp [Stage.reads]) (by simp) (by simp [Stage.passed]) (by simp [Stage.serves])
  · exact sole.goto living daemon (by decide) (fun _ => ⟨here, leased⟩) (by simp [Stage.published])
      (by simp [Stage.reads]) (by simp) (by simp [Stage.passed]) (by simp [Stage.serves])

/-- The daemon that has passed its check writes its descriptor: no other daemon serves. -/
theorem Sole.publish (sole : Sole clients before) {process : ProcessId}
    (living : before.alive process = true) (stage : before.stages process = .publishing)
    {next : Stage} (after : next = .releasing ∨ next = .failing) :
    Sole clients
      (System.call { before with descriptor := some (before.own process) } (.release process)
        process next) := by
  have inside : (before.stages process).inside = true := by rw [stage]; rfl
  refine sole.call living (by simp [stage]) .release ?_ ?_ (.inr ⟨inside, ?_⟩) (fun _ => rfl)
    (fun _ => by rw [stage]; rfl)
  · rcases after with rfl | rfl <;> decide
  · rcases after with rfl | rfl <;> rfl
  · intro other now different
    by_contra serves
    refine different (sole.alone process living (by rw [stage]; rfl) other ?_)
    simpa [System.serves, now] using serves

/-- The descriptor that a daemon removes is that of no daemon that serves. -/
theorem Sole.remove (sole : Sole clients before) {process : ProcessId}
    (living : before.alive process = true) (stage : before.stages process = .removing) :
    Sole clients (System.leaveRemoval { before with descriptor := none } process) := by
  have inside : (before.stages process).inside = true := by rw [stage]; rfl
  refine sole.call living (by simp [stage]) .release (by decide) rfl (.inr ⟨inside, ?_⟩)
    (by simp [Stage.published]) (by simp [Stage.serves])
  intro other now different
  by_contra serves
  obtain ⟨descriptor, file, mine⟩ := sole.removes process living stage
  have theirs : before.descriptor = some (before.own other) :=
    sole.described living inside (by rw [stage]; rfl) (by simpa [System.serves, now] using serves)
  rw [file, Option.some_inj] at theirs
  rw [theirs] at mine
  exact different mine

/-- An event of a live daemon keeps what holds of the daemons. -/
theorem react_sole (sole : Sole clients before) {process : ProcessId}
    (living : before.alive process = true) {event : Event}
    (sound : Sound before (.daemon process event)) :
    Sole clients (before.react process (before.stages process) event) := by
  simp only [Sound] at sound
  cases stage : before.stages process with
  | client => cases event <;> exact sole
  | launched =>
    have daemon : before.stages process ≠ .client := by simp [stage]
    cases event with
    | launch handoffToken =>
      cases handoffToken with
      | none => exact sole.leave living daemon .acquire rfl
      | some handoffToken => exact sole.leave living daemon (.claim handoffToken) rfl
    | _ => exact sole
  | locking =>
    have daemon : before.stages process ≠ .client := by simp [stage]
    cases event with
    | next =>
      simp only [System.react]
      split
      next returned =>
        split
        next leased => exact sole.enter living daemon returned leased (.inl rfl)
        next => exact sole.settle living daemon rfl
      next => exact sole
    | _ => exact sole
  | checking =>
    have daemon : before.stages process ≠ .client := by simp [stage]
    have inside : (before.stages process).inside = true := by rw [stage]; rfl
    have idle : (before.stages process).serves = false := by rw [stage]; rfl
    rw [stage] at sound
    cases event with
    | next =>
      simp only [System.react]
      split
      next absent => exact sole.pass living inside idle (by simp [System.Unserved, absent])
      next descriptor present =>
        exact sole.goto living daemon (by simp) (fun _ => sole.inside process living inside)
          (by simp [Stage.published]) (by simpa [Stage.reads] using present) (by simp)
          (by simp [Stage.passed]) (by simp [Stage.serves])
    | misread => exact sole.pass living inside idle sound
    | fail => exact sole.abandon living daemon
    | _ => exact sole
  | rereading descriptor =>
    have daemon : before.stages process ≠ .client := by simp [stage]
    have inside : (before.stages process).inside = true := by rw [stage]; rfl
    have idle : (before.stages process).serves = false := by rw [stage]; rfl
    have read := sole.read process living descriptor (by simp [stage, Stage.reads])
    rw [stage] at sound
    cases event with
    | next =>
      simp only [System.react]
      split
      next absent => exact sole.pass living inside idle (by simp [System.Unserved, absent])
      next reread present =>
        have same : descriptor = reread := by simpa [read] using present
        refine sole.goto living daemon (by simp) (fun _ => sole.inside process living inside)
          (by simp [Stage.published]) ?_ (by simp) (by simp [Stage.passed]) (by simp [Stage.serves])
        simp [Stage.reads, read, same]
    | misread => exact sole.pass living inside idle sound
    | fail => exact sole.abandon living daemon
    | _ => exact sole
  | identifying descriptor reread => exact sole.judge living stage event
  | asking descriptor =>
    have daemon : before.stages process ≠ .client := by simp [stage]
    have inside : (before.stages process).inside = true := by rw [stage]; rfl
    have idle : (before.stages process).serves = false := by rw [stage]; rfl
    rw [stage] at sound
    cases event with
    | answered healthy =>
      cases healthy with
      | true => exact sole.abandon living daemon
      | false => exact sole.pass living inside idle sound
    | _ => exact sole
  | preparing =>
    have daemon : before.stages process ≠ .client := by simp [stage]
    have inside : (before.stages process).inside = true := by rw [stage]; rfl
    cases event with
    | next =>
      exact sole.goto living daemon (by decide) (fun _ => sole.inside process living inside)
        (by simp [Stage.published]) (by simp [Stage.reads]) (by simp)
        (fun _ => sole.alone process living (by rw [stage]; rfl)) (fun _ => .inr stage)
    | fail => exact sole.abandon living daemon
    | _ => exact sole
  | publishing =>
    cases event with
    | next => exact sole.publish living stage (.inl rfl)
    | failLate => exact sole.publish living stage (.inr rfl)
    | fail => exact sole.abandon living (by simp [stage])
    | _ => exact sole
  | releasing =>
    have daemon : before.stages process ≠ .client := by simp [stage]
    cases event with
    | next =>
      simp only [System.react]
      split
      · split
        · exact sole.abandon living daemon
        · exact sole.goto living daemon (by decide) (by simp [Stage.inside])
            (fun _ => sole.published process living (by rw [stage]; rfl)) (by simp [Stage.reads])
            (by simp) (by simp [Stage.passed]) (fun _ => .inl (by rw [stage]; rfl))
      · exact sole
    | _ => exact sole
  | serving =>
    cases event with
    | signal => exact sole.settle living (by simp [stage]) rfl
    | _ => exact sole
  | failing | removalReleasing =>
    cases event with
    | next =>
      simp only [System.react]
      split
      · exact sole.settle living (by simp [stage]) rfl
      · exact sole
    | _ => exact sole
  | stopping =>
    cases event with
    | next => exact sole.leave living (by simp [stage]) .acquire rfl
    | fail => exact sole.settle living (by simp [stage]) rfl
    | _ => exact sole
  | removalLocking =>
    have daemon : before.stages process ≠ .client := by simp [stage]
    cases event with
    | next =>
      simp only [System.react]
      split
      next returned =>
        split
        next leased => exact sole.enter living daemon returned leased (.inr rfl)
        next => exact sole.settle living daemon rfl
      next => exact sole
    | _ => exact sole
  | removalReading =>
    have daemon : before.stages process ≠ .client := by simp [stage]
    have inside : (before.stages process).inside = true := by rw [stage]; rfl
    cases event with
    | next =>
      simp only [System.react]
      split
      next matching =>
        obtain ⟨descriptor, file, same⟩ := (Option.any_eq_true _ _).mp matching
        simp only [Bool.and_eq_true, decide_eq_true_eq] at same
        exact sole.goto living daemon (by decide) (fun _ => sole.inside process living inside)
          (by simp [Stage.published]) (by simp [Stage.reads])
          (fun _ => ⟨descriptor, file, same.2⟩) (by simp [Stage.passed]) (by simp [Stage.serves])
      next => exact sole.leave living daemon .release rfl
    | misread => exact sole.leave living daemon .release rfl
    | _ => exact sole
  | removing =>
    cases event with
    | next => exact sole.remove living stage
    | fail => exact sole.leave living (by simp [stage]) .release rfl
    | _ => exact sole
  | ended => cases event <;> exact sole

/-- An operation on the lock keeps what holds of the daemons: none that holds the lock has
called on it. -/
theorem Sole.transfer (sole : Sole clients before) {action : StartLock.Action}
    (permitted : before.permits action = true)
    (undisturbed : StartLock.Undisturbed before.lock action) :
    Sole clients { before with lock := before.lock.step action } := by
  have alive : ∀ other, (before.lock.step action).alive other = true →
      before.alive other = true := StartLock.step_alive before.lock action
  have gives : ∀ giver receiver, action = .give giver receiver → clients giver := by
    rintro giver receiver rfl
    simpa [System.permits, sole.role] using permitted
  have serves (other : ProcessId)
      (now : System.serves { before with lock := before.lock.step action } other = true) :
      before.serves other = true := by
    simp only [System.serves, Bool.and_eq_true] at now ⊢
    exact ⟨alive other now.1, now.2⟩
  refine
    { exclusive := StartLock.step_exclusive sole.exclusive undisturbed
      drawn := StartLock.step_drawn sole.drawn gives
      role := sole.role
      inside := ?_
      published := fun process now => sole.published process (alive process now)
      read := fun process now => sole.read process (alive process now)
      removes := fun process now => sole.removes process (alive process now)
      alone := fun process now passed other serving =>
        sole.alone process (alive process now) passed other (serves other serving) }
  intro process now inside
  obtain ⟨idle, leased⟩ := sole.inside process (alive process now) inside
  have daemon : before.stages process ≠ .client := by
    intro client
    rw [client] at inside
    cases inside
  change (before.lock.step action).pc process = .idle ∧
    ((before.lock.step action).lease process).isSome = true
  by_cases same : process = action.process
  · cases action with
    | acquire | release | give | claim =>
      subst same
      simp [System.permits, daemon] at permitted daemon
    | advance other =>
      subst same
      have still : before.lock.step (.advance process) = before.lock := by
        simp only [StartLock.System.step, StartLock.System.advance]
        rw [show before.lock.pc process = .idle from idle]
        split <;> rfl
      rw [still]
      exact ⟨idle, leased⟩
    | fail other =>
      subst same
      have here : before.lock.pc process = .idle := idle
      have held : (before.lock.processes process).lease.isSome = true := leased
      simp only [StartLock.System.step]
      split
      · rw [here]
        simpa [StartLock.System.pc, StartLock.System.lease, StartLock.System.afterFailure]
          using held
      · exact ⟨idle, leased⟩
    | crash other =>
      subst same
      have here : (before.lock.processes process).pc = .idle := idle
      have held : (before.lock.processes process).lease.isSome = true := leased
      simp [StartLock.System.step, StartLock.System.pc, StartLock.System.lease,
        here, held]
  · rw [StartLock.System.pc, StartLock.System.lease, StartLock.step_others before.lock action same]
    exact ⟨idle, leased⟩

/-- Two daemons that serve are the same: one in the descriptor, or one that has passed its
check. -/
theorem Sole.unique (sole : Sole clients before) {first second : ProcessId}
    (one : before.serves first = true) (other : before.serves second = true) : first = second := by
  have stage {process : ProcessId} (serves : before.serves process = true) :
      before.alive process = true ∧ ((before.stages process).passed = true ∨
        before.descriptor = some (before.own process)) := by
    simp only [System.serves, Bool.and_eq_true] at serves
    refine ⟨serves.1, ?_⟩
    cases stage : before.stages process with
    | publishing => exact .inl rfl
    | releasing => exact .inr (sole.published process serves.1 (by rw [stage]; rfl))
    | serving => exact .inr (sole.published process serves.1 (by rw [stage]; rfl))
    | _ => simp [stage, Stage.serves] at serves
  obtain ⟨living, passed | mine⟩ := stage one
  · exact (sole.alone first living passed second other).symm
  · obtain ⟨living', passed | theirs⟩ := stage other
    · exact sole.alone second living' passed first one
    · rw [mine, Option.some_inj] at theirs
      exact congrArg Descriptor.pid theirs

/-- A step keeps what holds of the daemons. -/
theorem step_sole (sole : Sole clients before) {action : Action} (sound : Sound before action) :
    Sole clients (before.step action) := by
  cases action with
  | daemon process event =>
    simp only [System.step]
    split
    next living => exact react_sole sole living sound
    next => exact sole
  | lock action =>
    simp only [System.step]
    split
    next permitted => exact sole.transfer permitted sound
    next => exact sole

end

/-- At most one daemon serves at a time, and once it has released the start lock the descriptor
is its own, in every run in which the start lock is not disturbed and the daemon that serves
can be told from the descriptor. -/
theorem one_daemon_serves {start : System} (initial : Initial start) (actions : List Action)
    (sound : Along System.step Sound start actions) :
    (∀ first second, (run System.step start actions).serves first = true →
      (run System.step start actions).serves second = true → first = second) ∧
    ∀ process, (run System.step start actions).alive process = true →
      (run System.step start actions).stages process = .serving →
      (run System.step start actions).descriptor =
        some ((run System.step start actions).own process) := by
  have sole : Sole (fun process => start.stages process = .client) (run System.step start actions) :=
    @run_preserves_along System Action System.step Sound
      (Sole fun process => start.stages process = .client)
      (fun _ _ now met => step_sole now met) start actions (sole_initial initial) sound
  exact ⟨fun first second one other => sole.unique one other,
    fun process living stage => sole.published process living (by rw [stage]; rfl)⟩

/-- A client, and processes that are to become daemons. -/
def quietSystem : System where
  lock := StartLock.quietSystem
  descriptor := none
  stages := fun process => if process = 0 then .client else .launched
  token := fun process => process

theorem quietSystem_initial : Initial quietSystem where
  lock := StartLock.quietSystem_initial
  given := rfl
  handedOff := rfl
  stages := fun process => by
    by_cases client : process = 0
    · simp [quietSystem, client]
    · simp [quietSystem, client]

/-- A client launches daemon 1 with its handoff token. When daemon 1 serves, daemon 2 starts
and finds it in the descriptor. -/
def secondStart : List Action :=
  [.lock (.acquire 0), .lock (.advance 0), .lock (.advance 0), .lock (.give 0 1),
    .daemon 1 (.launch (some 1)), .lock (.advance 1), .lock (.advance 1), .lock (.advance 1),
    .lock (.advance 1), .daemon 1 .next, .daemon 1 .next, .daemon 1 .next, .daemon 1 .next,
    .lock (.advance 1), .lock (.advance 1), .daemon 1 .next,
    .daemon 2 (.launch none), .lock (.advance 2), .lock (.advance 2), .daemon 2 .next,
    .daemon 2 .next, .daemon 2 .next, .daemon 2 .identified]

theorem secondStart_sound : Along System.step Sound quietSystem secondStart :=
  ⟨trivial, trivial, trivial, trivial, trivial, trivial, trivial, fun _ file => .inl file,
    trivial, trivial, trivial, trivial, trivial, trivial, fun _ file => .inl file, trivial,
    trivial, trivial, trivial, trivial, trivial, trivial, trivial, trivial⟩

theorem one_daemon_serves_after_second_start :
    (run System.step quietSystem secondStart).serves 1 = true ∧
    (run System.step quietSystem secondStart).stages 2 = .failing ∧
    (run System.step quietSystem secondStart).descriptor = some ⟨1, 1, 8⟩ ∧
    ∀ process, (run System.step quietSystem secondStart).serves process = true → process = 1 := by
  have serves : (run System.step quietSystem secondStart).serves 1 = true := by decide
  have held := one_daemon_serves quietSystem_initial secondStart secondStart_sound
  exact ⟨serves, by decide, held.2 1 (by decide) (by decide),
    fun process other => held.1 process 1 other serves⟩

end OpencodePty.DaemonServing
