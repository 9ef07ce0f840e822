import OpencodePty.StartLockSafety

/-!
# Who can hand the start lock off

A handoff token is drawn with its lock, so that no two processes own locks with the same
one, and only the process that owns a lock can give its token away. A process that gives
none away keeps the lock it has until it releases it.
-/

namespace OpencodePty.StartLock

/-- The handoff token that a call goes by. -/
def Pc.claimed : Pc → Option Token
  | .recoveryLink (.claim token) | .recoveryRead (.claim token) | .recoveryProbe (.claim token) _
  | .recoveryRename (.claim token) _ | .recoveryCompare (.claim token) _ _ | .claimRead token
  | .claimWrite token _ => some token
  | _ => none

/-- The handoff tokens of the locks that are owned, given away and used. A process outside
`givers` has given none away. -/
structure Drawn (givers : ProcessId → Prop) (system : System) : Prop where
  owned : ∀ process lock token, (system.processes process).Owns lock →
    lock.handoffToken = some token → token < system.nextToken
  single : ∀ first second lock other token, (system.processes first).Owns lock →
    (system.processes second).Owns other → lock.handoffToken = some token →
    other.handoffToken = some token → first = second
  given : ∀ receiver token, (receiver, token) ∈ system.given → token < system.nextToken
  kept : ∀ process lock token, ¬ givers process → (system.processes process).Owns lock →
    lock.handoffToken = some token → ∀ receiver, (receiver, token) ∉ system.given
  claimed : ∀ process token, (system.pc process).claimed = some token →
    (process, token) ∈ system.given
  used : ∀ token ∈ system.handedOff, ∃ receiver, (receiver, token) ∈ system.given

/-- The lock of a process that gives no token away is not handed off. -/
theorem Drawn.not_handed_off {givers : ProcessId → Prop} {system : System}
    (drawn : Drawn givers system) {process : ProcessId} (outside : ¬ givers process) {lock : Lock}
    (owns : (system.processes process).Owns lock) : ¬ HandedOff system.handedOff lock := by
  rintro ⟨token, used, same⟩
  obtain ⟨receiver, given⟩ := drawn.used token used
  exact drawn.kept process lock token outside owns same receiver given

/-- What an operation of a process changes of the locks and of the tokens: a lock that it
brings has a token drawn by it, and a token is used up by the call that goes by it. -/
structure Draws (before after : System) (process : ProcessId) : Prop where
  others : ∀ other, other ≠ process → after.processes other = before.processes other
  given : after.given = before.given
  next : before.nextToken ≤ after.nextToken
  owned : ∀ lock, (after.processes process).Owns lock →
    (before.processes process).Owns lock ∨
      ∀ token, lock.handoffToken = some token →
        before.nextToken ≤ token ∧ token < after.nextToken
  claimed : ∀ token, (after.pc process).claimed = some token →
    (process, token) ∈ before.given ∨ (before.pc process).claimed = some token
  used : ∀ token ∈ after.handedOff,
    token ∈ before.handedOff ∨ (before.pc process).claimed = some token

/-- An operation keeps what is known of the tokens. -/
theorem Draws.drawn {givers : ProcessId → Prop} {before after : System} {process : ProcessId}
    (draws : Draws before after process) (drawn : Drawn givers before) : Drawn givers after := by
  have origin (other : ProcessId) (lock : Lock) (owns : (after.processes other).Owns lock) :
      (before.processes other).Owns lock ∨
        other = process ∧ ∀ token, lock.handoffToken = some token →
          before.nextToken ≤ token ∧ token < after.nextToken := by
    by_cases same : other = process
    · subst same
      rcases draws.owned lock owns with old | fresh
      · exact .inl old
      · exact .inr ⟨rfl, fresh⟩
    · rw [draws.others other same] at owns
      exact .inl owns
  refine ⟨?_, ?_, ?_, ?_, ?_, ?_⟩
  · intro other lock token owns same
    rcases origin other lock owns with old | ⟨_, fresh⟩
    · exact Nat.lt_of_lt_of_le (drawn.owned other lock token old same) draws.next
    · exact (fresh token same).2
  · intro first second lock other token one two here there
    rcases origin first lock one with old | ⟨mine, fresh⟩
    · rcases origin second other two with older | ⟨_, fresh⟩
      · exact drawn.single first second lock other token old older here there
      · have below := drawn.owned first lock token old here
        exact absurd below (Nat.not_lt.mpr (fresh token there).1)
    · rcases origin second other two with older | ⟨yours, _⟩
      · have below := drawn.owned second other token older there
        exact absurd below (Nat.not_lt.mpr (fresh token here).1)
      · rw [mine, yours]
  · intro receiver token given
    rw [draws.given] at given
    exact Nat.lt_of_lt_of_le (drawn.given receiver token given) draws.next
  · intro other lock token outside owns same receiver given
    rw [draws.given] at given
    rcases origin other lock owns with old | ⟨_, fresh⟩
    · exact drawn.kept other lock token outside old same receiver given
    · have below := drawn.given receiver token given
      exact absurd below (Nat.not_lt.mpr (fresh token same).1)
  · intro other token goes
    rw [draws.given]
    by_cases same : other = process
    · subst same
      rcases draws.claimed token goes with given | before
      · exact given
      · exact drawn.claimed other token before
    · rw [System.pc, draws.others other same] at goes
      exact drawn.claimed other token goes
  · intro token used
    rw [draws.given]
    rcases draws.used token used with old | goes
    · exact drawn.used token old
    · exact ⟨process, drawn.claimed process token goes⟩

/-- A process goes on with an operation that brings it no lock. -/
theorem Draws.goto {before after : System} {process : ProcessId} {pc : Pc} (empty : pc.Empty)
    (claimed : ∀ token, pc.claimed = some token →
      (process, token) ∈ before.given ∨ (before.pc process).claimed = some token)
    (processes : after.processes = before.processes) (given : after.given = before.given)
    (next : before.nextToken ≤ after.nextToken) (used : after.handedOff = before.handedOff) :
    Draws before (after.goto process pc) process where
  others other different := by rw [goto_processes_other _ different, processes]
  given := given
  next := next
  owned := by
    rintro lock (leased | acquired | ended | written)
    · exact .inl (.inl (by simpa [processes] using leased))
    · exact absurd (by simpa using acquired) (empty.1 lock)
    · exact absurd (by simpa using ended) (empty.2.1 lock)
    · exact absurd (by simpa using written) (empty.2.2 lock)
  claimed token goes := claimed token (by simpa [System.pc] using goes)
  used token present := .inl (by rwa [← used])

/-- A call returns with a lock of its process. -/
theorem Draws.finish {before after : System} {process : ProcessId} {lease : Option Lock}
    (owned : ∀ lock, lease = some lock → (before.processes process).Owns lock)
    (processes : after.processes = before.processes) (given : after.given = before.given)
    (next : before.nextToken ≤ after.nextToken) (used : after.handedOff = before.handedOff) :
    Draws before (after.finish process lease) process where
  others other different := by rw [finish_processes_other _ different, processes]
  given := given
  next := next
  owned := by
    rintro lock (leased | acquired | ended | written)
    · exact .inl (owned lock (by simpa using leased))
    · simp at acquired
    · simp at ended
    · simp at written
  claimed token goes := by simp [System.pc, Pc.claimed] at goes
  used token present := .inl (by rwa [← used])

/-- A process writes a lock, with a token that is drawn for it or with none. -/
theorem Draws.write {before after : System} {process : ProcessId} {pc : Pc} (lock : Lock)
    (brings : ∀ other, pc = .acquired other ∨ pc = .acquireEnd (some other) ∨
      pc = .claimEnd (some other) → other = lock)
    (fresh : ∀ token, lock.handoffToken = some token →
      before.nextToken ≤ token ∧ token < after.nextToken)
    (plain : pc.claimed = none)
    (processes : after.processes = before.processes) (given : after.given = before.given)
    (next : before.nextToken ≤ after.nextToken)
    (used : ∀ token ∈ after.handedOff,
      token ∈ before.handedOff ∨ (before.pc process).claimed = some token) :
    Draws before (after.goto process pc) process where
  others other different := by rw [goto_processes_other _ different, processes]
  given := given
  next := next
  owned := by
    intro other owns
    rcases owns_goto owns with old | ⟨_, brought⟩
    · rw [processes] at old
      exact .inl old
    · rw [brings other brought]
      exact .inr fresh
  claimed token goes := by simp [System.pc, plain] at goes
  used := used

/-- What a purpose goes by is kept by what follows once the recovery lock is taken. -/
theorem claimed_after_recovery (purpose : Purpose) :
    (System.afterRecovery purpose).claimed = (Pc.recoveryLink purpose).claimed := by
  cases purpose <;> rfl

/-- One operation of a call. -/
theorem advance_draws (system : System) (process : ProcessId) :
    Draws system (system.advance process) process := by
  have own : ∀ lock, system.lease process = some lock →
      (system.processes process).Owns lock := fun lock leased => .inl leased
  -- The operation that follows goes by the same token, or by none.
  have pass {pc : Pc} {after : System} (passive : pc.passive = true)
      (claimed : pc.claimed = none ∨ pc.claimed = (system.pc process).claimed)
      (processes : after.processes = system.processes) (given : after.given = system.given)
      (next : system.nextToken ≤ after.nextToken) (used : after.handedOff = system.handedOff) :
      Draws system (after.goto process pc) process := by
    refine .goto ⟨?_, ?_, ?_⟩ ?_ processes given next used
    · rintro lock rfl
      cases passive
    · rintro lock rfl
      cases passive
    · rintro lock rfl
      cases passive
    · intro token goes
      rcases claimed with plain | same
      · rw [plain] at goes
        cases goes
      · exact .inr (by rw [← same, goes])
  have more : system.nextToken ≤ system.nextToken + 2 := Nat.le_add_right _ 2
  unfold System.advance
  cases here : system.pc process with
  | idle =>
    exact ⟨fun _ _ => rfl, rfl, Nat.le_refl _, fun _ owns => .inl owns, fun _ goes => .inr goes,
      fun _ used => .inl used⟩
  | link =>
    simp only
    split
    · exact pass rfl (.inl rfl) rfl rfl (Nat.le_refl _) rfl
    · exact .write (system.newLock process) (by simp) (by simp [System.newLock]) rfl rfl rfl
        more (fun _ used => .inl used)
  | acquired linked =>
    refine .finish ?_ rfl rfl (Nat.le_refl _) rfl
    intro lock same
    cases same
    exact .inr (.inl here)
  | read =>
    simp only
    split <;> exact pass rfl (.inl rfl) rfl rfl (Nat.le_refl _) rfl
  | probe current =>
    simp only
    split
    · exact .finish own rfl rfl (Nat.le_refl _) rfl
    · exact pass rfl (.inl rfl) rfl rfl (Nat.le_refl _) rfl
  | recoveryLink purpose =>
    have same : (System.afterRecovery purpose).claimed = (system.pc process).claimed := by
      rw [here, claimed_after_recovery]
    simp only
    split
    · exact pass rfl (.inr (by rw [here]; cases purpose <;> rfl)) rfl rfl (Nat.le_refl _) rfl
    · refine pass ?_ (.inr same) rfl rfl more rfl
      cases purpose <;> rfl
  | recoveryRead purpose =>
    simp only
    split <;>
      exact pass rfl (.inr (by rw [here]; cases purpose <;> rfl)) rfl rfl (Nat.le_refl _) rfl
  | recoveryProbe purpose recovery =>
    simp only
    split
    · exact .finish own rfl rfl (Nat.le_refl _) rfl
    · exact pass rfl (.inr (by rw [here]; cases purpose <;> rfl)) rfl rfl (Nat.le_refl _) rfl
  | recoveryRename purpose recovery =>
    simp only
    split <;>
      exact pass rfl (.inr (by rw [here]; cases purpose <;> rfl)) rfl rfl (Nat.le_refl _) rfl
  | recoveryCompare purpose recovery quarantined =>
    simp only
    split
    · exact pass rfl (.inr (by rw [here]; cases purpose <;> rfl)) rfl rfl (Nat.le_refl _) rfl
    · exact pass rfl (.inl rfl) rfl rfl (Nat.le_refl _) rfl
  | recoveryRestore quarantined => exact .finish own rfl rfl (Nat.le_refl _) rfl
  | reread =>
    simp only
    split <;> exact pass rfl (.inl rfl) rfl rfl (Nat.le_refl _) rfl
  | reprobe replacement =>
    simp only
    split
    · exact pass rfl (.inl rfl) rfl rfl (Nat.le_refl _) rfl
    · exact .goto (by simp [Pc.Empty]) (by simp [Pc.claimed]) rfl rfl (Nat.le_refl _) rfl
  | remove replacement => exact pass rfl (.inl rfl) rfl rfl (Nat.le_refl _) rfl
  | relink =>
    simp only
    split
    · exact pass rfl (.inl rfl) rfl rfl (Nat.le_refl _) rfl
    · exact .write (system.newLock process) (by simp) (by simp [System.newLock]) rfl rfl rfl
        more (fun _ used => .inl used)
  | acquireEnd linked =>
    refine .finish ?_ rfl rfl (Nat.le_refl _) rfl
    intro lock same
    cases linked with
    | none => exact own lock same
    | some linked =>
      cases same
      exact .inr (.inr (.inl here))
  | claimRead handoffToken =>
    simp only
    split
    · split
      · exact .goto (by simp [Pc.Empty]) (fun token goes => .inr (by rw [here]; exact goes)) rfl rfl
          (Nat.le_refl _) rfl
      · exact pass rfl (.inl rfl) rfl rfl (Nat.le_refl _) rfl
    · exact pass rfl (.inl rfl) rfl rfl (Nat.le_refl _) rfl
  | claimWrite handoffToken lock =>
    refine .write (system.newPlainLock process) (by simp) (by simp [System.newPlainLock])
      rfl rfl rfl more ?_
    intro token used
    rcases List.mem_cons.mp used with same | old
    · exact .inr (by rw [here, same]; rfl)
    · exact .inl old
  | claimEnd written =>
    refine .finish ?_ rfl rfl (Nat.le_refl _) rfl
    intro lock same
    cases written with
    | none => exact own lock same
    | some written =>
      cases same
      exact .inr (.inr (.inr here))
  | releaseRead token =>
    simp only
    split
    · split
      · exact .goto (by simp [Pc.Empty]) (by simp [Pc.claimed]) rfl rfl (Nat.le_refl _) rfl
      · exact .finish (by simp) rfl rfl (Nat.le_refl _) rfl
    · exact .finish (by simp) rfl rfl (Nat.le_refl _) rfl
  | releaseRemove lock => exact .finish (by simp) rfl rfl (Nat.le_refl _) rfl

/-- The process that takes an action. -/
def Action.process : Action → ProcessId
  | .acquire process | .claim process _ | .release process | .give process _ | .advance process
  | .fail process | .crash process => process

/-- A step keeps what is known of the tokens, where only givers give theirs away. -/
theorem step_drawn {givers : ProcessId → Prop} {system : System} (drawn : Drawn givers system)
    {action : Action} (gives : ∀ process receiver, action = .give process receiver → givers process) :
    Drawn givers (system.step action) := by
  have quiet {pc : Pc} (process : ProcessId) (passive : pc.passive = true)
      (claimed : ∀ token, pc.claimed = some token → (process, token) ∈ system.given) :
      Drawn givers (system.goto process pc) := by
    refine Draws.drawn (.goto ⟨?_, ?_, ?_⟩ ?_ rfl rfl (Nat.le_refl _) rfl) drawn
    · rintro lock rfl
      cases passive
    · rintro lock rfl
      cases passive
    · rintro lock rfl
      cases passive
    · exact fun token goes => .inl (claimed token goes)
  cases action with
  | acquire process =>
    simp only [System.step]
    split
    · exact quiet process rfl (by simp [Pc.claimed])
    · exact drawn
  | claim process handoffToken =>
    simp only [System.step]
    split
    next may =>
      refine quiet process rfl ?_
      rintro token ⟨rfl⟩
      simp only [Bool.and_eq_true, List.contains_iff_mem] at may
      exact may.2
    next => exact drawn
  | release process =>
    simp only [System.step]
    split
    · split
      · exact quiet process rfl (by simp [Pc.claimed])
      · exact drawn
    · exact drawn
  | give process receiver =>
    have giver := gives process receiver rfl
    simp only [System.step]
    split
    next handoffToken present =>
      obtain ⟨lock, leased, same⟩ := Option.bind_eq_some_iff.mp present
      have owns : (system.processes process).Owns lock := .inl leased
      split
      · refine ⟨drawn.owned, drawn.single, ?_, ?_, ?_, ?_⟩
        · intro other token given
          rcases List.mem_cons.mp given with new | old
          · cases new
            exact drawn.owned process lock handoffToken owns same
          · exact drawn.given other token old
        · intro other held token outside holds carries receiver' given
          rcases List.mem_cons.mp given with new | old
          · cases new
            have mine := drawn.single process other lock held handoffToken owns holds same carries
            exact outside (mine ▸ giver)
          · exact drawn.kept other held token outside holds carries receiver' old
        · exact fun other token goes => List.mem_cons_of_mem _ (drawn.claimed other token goes)
        · intro token used
          obtain ⟨other, given⟩ := drawn.used token used
          exact ⟨other, List.mem_cons_of_mem _ given⟩
      · exact drawn
    · exact drawn
  | advance process =>
    simp only [System.step]
    split
    · exact (advance_draws system process).drawn drawn
    · exact drawn
  | fail process =>
    simp only [System.step]
    split
    · refine quiet process ?_ ?_
      · unfold System.afterFailure
        split <;> rfl
      · unfold System.afterFailure
        split <;> simp [Pc.claimed]
    · exact drawn
  | crash process =>
    have owns (other : ProcessId) (lock : Lock) :
        ((system.step (.crash process)).processes other).Owns lock ↔
          (system.processes other).Owns lock := by
      by_cases same : other = process
      · subst same
        simp [System.step, Process.Owns]
      · simp [System.step, same]
    have pc (other : ProcessId) : (system.step (.crash process)).pc other = system.pc other := by
      by_cases same : other = process
      · subst same
        simp [System.step, System.pc]
      · simp [System.step, System.pc, same]
    refine ⟨?_, ?_, drawn.given, ?_, ?_, drawn.used⟩
    · exact fun other lock token held => drawn.owned other lock token ((owns other lock).mp held)
    · exact fun first second lock other token one two =>
        drawn.single first second lock other token ((owns first lock).mp one)
          ((owns second other).mp two)
    · exact fun other lock token outside held =>
        drawn.kept other lock token outside ((owns other lock).mp held)
    · exact fun other token goes => drawn.claimed other token (by rwa [← pc other])

/-- A step leaves the other processes as they are. -/
theorem step_others (system : System) (action : Action) {other : ProcessId}
    (different : other ≠ action.process) :
    (system.step action).processes other = system.processes other := by
  cases action with
  | acquire process | fail process =>
    simp only [System.step]
    split
    · exact goto_processes_other system different _
    · rfl
  | claim process handoffToken =>
    simp only [System.step]
    split
    · exact goto_processes_other system different _
    · rfl
  | release process =>
    simp only [System.step]
    split
    · split
      · exact goto_processes_other system different _
      · rfl
    · rfl
  | give process receiver =>
    simp only [System.step]
    split
    · split <;> rfl
    · rfl
  | advance process =>
    simp only [System.step]
    split
    · exact (advance_draws system process).others other different
    · rfl
  | crash process =>
    have away : other ≠ process := different
    simp [System.step, away]

/-- A step revives no process. -/
theorem step_alive (system : System) (action : Action) (other : ProcessId)
    (now : (system.step action).alive other = true) : system.alive other = true := by
  by_cases same : other = action.process
  · subst same
    cases action with
    | acquire process | fail process | claim process handoffToken =>
      simp only [System.step] at now
      split at now
      · rwa [alive_goto] at now
      · exact now
    | release process =>
      simp only [System.step] at now
      split at now
      · split at now
        · rwa [alive_goto] at now
        · exact now
      · exact now
    | give process receiver =>
      simp only [System.step] at now
      split at now
      · split at now <;> exact now
      · exact now
    | advance process =>
      simp only [System.step] at now
      split at now
      next living => exact living
      next => exact now
    | crash process => simp [System.step, System.alive, Action.process] at now
  · rwa [System.alive, step_others system action same] at now

end OpencodePty.StartLock
