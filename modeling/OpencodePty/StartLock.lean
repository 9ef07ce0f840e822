import Mathlib.Logic.Function.Basic
import OpencodePty.Transitions

/-!
# The start lock of the daemon

Processes that want to start the daemon take a lock file. A lock whose owner is dead is
taken over under a second lock file, the recovery lock, which is itself taken over by a
rename. The owner of a lock can give its handoff token to another process, which then
claims the lock by overwriting it.

A process performs one call at a time, and one operation on a shared file at a time: a
link, a rename, a removal, a read or a write by rename. A quarantined recovery lock has a
name of its own and is touched by no other process. A process can crash at any point, and
any operation can fail, which ends the call and runs its `finally` part. A probe tells
whether the owner of the lock it is asked about is alive.
-/

namespace OpencodePty.StartLock

abbrev ProcessId := Nat
abbrev Token := Nat

/-- The content of a lock file. The process id stands for the id and the start identity,
which together name one process. -/
structure Lock where
  token : Token
  handoffToken : Option Token
  pid : ProcessId
  deriving DecidableEq

/-- What the recovery lock is taken for. -/
inductive Purpose where
  | acquire
  | claim (handoffToken : Token)
  deriving DecidableEq

/-- The next operation of a process, with what it has read. -/
inductive Pc where
  /-- No call is running. -/
  | idle
  /-- `acquireStartLock`: link the new lock. -/
  | link
  /-- Read the lock that is in the way. -/
  | read
  | probe (current : Lock)
  /-- `acquireStartLockRecovery`: link the recovery lock. -/
  | recoveryLink (purpose : Purpose)
  | recoveryRead (purpose : Purpose)
  | recoveryProbe (purpose : Purpose) (recovery : Lock)
  | recoveryRename (purpose : Purpose) (recovery : Option Lock)
  /-- Read the quarantined lock, and remove it if it is the stale one. -/
  | recoveryCompare (purpose : Purpose) (recovery : Option Lock) (quarantined : Lock)
  /-- Link the quarantined lock back. -/
  | recoveryRestore (quarantined : Lock)
  /-- Read the lock again under the recovery lock. -/
  | reread
  | reprobe (replacement : Lock)
  | remove (replacement : Option Lock)
  | relink
  /-- Remove the recovery lock and return what was linked. -/
  | acquireEnd (linked : Option Lock)
  /-- Return the lock that was linked at once. -/
  | acquired (linked : Lock)
  /-- `claimStartLock`: read the lock under the recovery lock. -/
  | claimRead (handoffToken : Token)
  | claimWrite (handoffToken : Token) (lock : Lock)
  /-- Remove the recovery lock and return what was written. -/
  | claimEnd (written : Option Lock)
  /-- `releaseStartLock`: read the lock. -/
  | releaseRead (token : Token)
  | releaseRemove (lock : Lock)
  deriving DecidableEq

/-- A process: whether it lives, its next operation, and the lock it obtained and has not
released. -/
structure Process where
  alive : Bool
  pc : Pc
  lease : Option Lock

/-- The shared files and all processes. `given` says which process was given which
handoff token, `handedOff` which of them was used to claim a lock. -/
structure System where
  startLock : Option Lock
  recoveryLock : Option Lock
  processes : ProcessId → Process
  given : List (ProcessId × Token)
  handedOff : List Token
  nextToken : Token

inductive Action where
  /-- Call `acquireStartLock`. -/
  | acquire (process : ProcessId)
  /-- Call `claimStartLock` with a handoff token that was given to the process. -/
  | claim (process : ProcessId) (handoffToken : Token)
  /-- Call `releaseStartLock` for the lock that the process has. -/
  | release (process : ProcessId)
  /-- Give the handoff token of a lock to a process. -/
  | give (process receiver : ProcessId)
  /-- The next operation of a call. -/
  | advance (process : ProcessId)
  /-- The next operation fails. -/
  | fail (process : ProcessId)
  | crash (process : ProcessId)
  deriving DecidableEq

namespace System

variable (system : System)

def alive (process : ProcessId) : Bool := (system.processes process).alive

def pc (process : ProcessId) : Pc := (system.processes process).pc

def lease (process : ProcessId) : Option Lock := (system.processes process).lease

/-- A process goes on with another operation. -/
def goto (process : ProcessId) (pc : Pc) : System :=
  { system with
    processes :=
      Function.update system.processes process { system.processes process with pc := pc } }

/-- A call returns, with the lock it obtained in place of the one there was. -/
def finish (process : ProcessId) (lease : Option Lock) : System :=
  { system with
    processes :=
      Function.update system.processes process
        { system.processes process with pc := .idle, lease := lease } }

/-- `newStartLock`. -/
def newLock (process : ProcessId) : Lock :=
  ⟨system.nextToken, some (system.nextToken + 1), process⟩

/-- The lock that a claim writes, or a recovery lock. -/
def newPlainLock (process : ProcessId) : Lock := ⟨system.nextToken, none, process⟩

/-- What follows once the recovery lock is taken. -/
def afterRecovery : Purpose → Pc
  | .acquire => .reread
  | .claim handoffToken => .claimRead handoffToken

/-- One operation of a call. -/
def advance (process : ProcessId) : System :=
  let next := { system with nextToken := system.nextToken + 2 }
  match system.pc process with
  | .idle => system
  | .link =>
    match system.startLock with
    | some _ => system.goto process .read
    | none =>
      { next with startLock := some (system.newLock process) }.goto process
        (.acquired (system.newLock process))
  | .acquired linked => system.finish process (some linked)
  | .read =>
    match system.startLock with
    | some current => system.goto process (.probe current)
    | none => system.goto process (.recoveryLink .acquire)
  | .probe current =>
    if system.alive current.pid then system.finish process (system.lease process)
    else system.goto process (.recoveryLink .acquire)
  | .recoveryLink purpose =>
    match system.recoveryLock with
    | some _ => system.goto process (.recoveryRead purpose)
    | none =>
      { next with recoveryLock := some (system.newPlainLock process) }.goto process
        (afterRecovery purpose)
  | .recoveryRead purpose =>
    match system.recoveryLock with
    | some recovery => system.goto process (.recoveryProbe purpose recovery)
    | none => system.goto process (.recoveryRename purpose none)
  | .recoveryProbe purpose recovery =>
    if system.alive recovery.pid then system.finish process (system.lease process)
    else system.goto process (.recoveryRename purpose (some recovery))
  | .recoveryRename purpose recovery =>
    match system.recoveryLock with
    | none => system.goto process (.recoveryLink purpose)
    | some quarantined =>
      { system with recoveryLock := none }.goto process
        (.recoveryCompare purpose recovery quarantined)
  | .recoveryCompare purpose recovery quarantined =>
    if recovery.map Lock.token = some quarantined.token then
      system.goto process (.recoveryLink purpose)
    else system.goto process (.recoveryRestore quarantined)
  | .recoveryRestore quarantined =>
    { system with recoveryLock := some (system.recoveryLock.getD quarantined) }.finish process
      (system.lease process)
  | .reread =>
    match system.startLock with
    | some replacement => system.goto process (.reprobe replacement)
    | none => system.goto process (.remove none)
  | .reprobe replacement =>
    if system.alive replacement.pid then system.goto process (.acquireEnd none)
    else system.goto process (.remove (some replacement))
  | .remove _ => { system with startLock := none }.goto process .relink
  | .relink =>
    match system.startLock with
    | some _ => system.goto process (.acquireEnd none)
    | none =>
      { next with startLock := some (system.newLock process) }.goto process
        (.acquireEnd (some (system.newLock process)))
  | .acquireEnd linked =>
    { system with recoveryLock := none }.finish process (linked.or (system.lease process))
  | .claimRead handoffToken =>
    match system.startLock with
    | some lock =>
      if lock.handoffToken = some handoffToken then
        system.goto process (.claimWrite handoffToken lock)
      else system.goto process (.claimEnd none)
    | none => system.goto process (.claimEnd none)
  | .claimWrite handoffToken _ =>
    { next with
      startLock := some (system.newPlainLock process)
      handedOff := handoffToken :: system.handedOff }.goto process
        (.claimEnd (some (system.newPlainLock process)))
  | .claimEnd written =>
    { system with recoveryLock := none }.finish process (written.or (system.lease process))
  | .releaseRead token =>
    match system.startLock with
    | some lock =>
      if lock.token = token ∧ lock.pid = process then system.goto process (.releaseRemove lock)
      else system.finish process none
    | none => system.finish process none
  | .releaseRemove _ => { system with startLock := none }.finish process none

/-- What follows when an operation fails: the `finally` part under the recovery lock, else
the end of the call. -/
def afterFailure : Pc → Pc
  | .reread | .reprobe _ | .remove _ | .relink | .acquireEnd (some _) => .acquireEnd none
  | .claimRead _ | .claimWrite _ _ | .claimEnd (some _) => .claimEnd none
  | _ => .idle

/-- An action of a process that is dead, or that cannot be taken now, changes nothing. -/
def step : Action → System
  | .acquire process =>
    if system.alive process && system.pc process = .idle then system.goto process .link
    else system
  | .claim process handoffToken =>
    if system.alive process && system.pc process = .idle &&
        system.given.contains (process, handoffToken) then
      system.goto process (.recoveryLink (.claim handoffToken))
    else system
  | .release process =>
    match system.lease process with
    | some lock =>
      if system.alive process && system.pc process = .idle then
        system.goto process (.releaseRead lock.token)
      else system
    | none => system
  | .give process receiver =>
    match (system.lease process).bind Lock.handoffToken with
    | some handoffToken =>
      if system.alive process then
        { system with given := (receiver, handoffToken) :: system.given }
      else system
    | none => system
  | .advance process => if system.alive process then system.advance process else system
  | .fail process =>
    if system.alive process then system.goto process (afterFailure (system.pc process))
    else system
  | .crash process =>
    { system with
      processes :=
        Function.update system.processes process
          { system.processes process with alive := false } }

/-- A live process obtained a lock that it has neither released nor handed off. -/
def holds (process : ProcessId) : Bool :=
  system.alive process &&
    (system.lease process).any fun lock =>
      !lock.handoffToken.any fun handoffToken => system.handedOff.contains handoffToken

end System

/-- No call is running and no lock is held. The files may hold locks of dead processes. -/
structure Initial (system : System) : Prop where
  idle : ∀ process, system.pc process = .idle
  free : ∀ process, system.lease process = none

/-- A start lock that a process may remove or overwrite after it has read `seen`: the file
is absent, has the content that was read, or is the lock of a dead process. -/
def Replaceable (system : System) (seen : Option Lock) : Prop :=
  ∀ lock, system.startLock = some lock → seen = some lock ∨ system.alive lock.pid = false

/-- Where a process removes or overwrites the start lock, the file is absent, has the
content that the process read last, or is the lock of a dead process. -/
def Undisturbed (system : System) : Action → Prop
  | .advance process =>
    match system.pc process with
    | .remove replacement => Replaceable system replacement
    | .claimWrite _ lock => Replaceable system (some lock)
    | .releaseRemove lock => Replaceable system (some lock)
    | _ => True
  | _ => True

/-- Every step of the run meets the condition in the state before it. -/
def UndisturbedRun (system : System) : List Action → Prop
  | [] => True
  | action :: rest => Undisturbed system action ∧ UndisturbedRun (system.step action) rest

end OpencodePty.StartLock
