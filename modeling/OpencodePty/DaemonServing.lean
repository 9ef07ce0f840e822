import OpencodePty.HandoffTokens

/-!
# Daemons that start, serve and stop

A daemon claims or acquires the start lock, reads the descriptor to see that no other daemon
is alive, serves, writes the descriptor and releases the lock. When it is told to stop it
serves no longer, acquires the lock again and removes the descriptor if it is its own.

Clients launch daemons. They take the lock, give its handoff token away and release it at any
time, and do not write the descriptor. Every operation on a shared file is a step of its own,
a process can crash at any point, and an operation that fails ends the call as it does in the
source.
-/

namespace OpencodePty.DaemonServing

open OpencodePty.StartLock (ProcessId Token)

/-- The content of the descriptor. The process id stands for the id and the start identity,
which together name one process. -/
structure Descriptor where
  pid : ProcessId
  token : Token
  protocolVersion : Nat
  deriving DecidableEq

def daemonProtocolVersion : Nat := 8

/-- Where a daemon stands in `start` and `stop`. -/
inductive Stage where
  /-- Not a daemon. -/
  | client
  | launched
  /-- `claimStartLock` or `acquireStartLock`. -/
  | locking
  /-- `descriptorOwnerAlive`: read the descriptor. -/
  | checking
  /-- `descriptorOwnerStatus`: read it again. -/
  | rereading (descriptor : Descriptor)
  /-- `processStartIdentity` of the process in the descriptor. -/
  | identifying (descriptor reread : Descriptor)
  /-- `authenticatedDescriptorHealthy`. -/
  | asking (descriptor : Descriptor)
  /-- What comes before the daemon serves. -/
  | preparing
  /-- The daemon serves, and writes its descriptor. -/
  | publishing
  /-- `releaseStartLock`. -/
  | releasing
  | serving
  /-- `start` has failed: the daemon serves no longer and releases the lock. -/
  | failing
  /-- `stop`: the daemon serves no longer. -/
  | stopping
  /-- `removeDescriptor`: `acquireStartLock`. -/
  | removalLocking
  | removalReading
  | removing
  | removalReleasing
  | ended
  deriving DecidableEq

/-- The daemon accepts requests. -/
def Stage.serves : Stage → Bool
  | .publishing | .releasing | .serving => true
  | _ => false

/-- What happens to a daemon besides the operations on the lock. -/
inductive Event where
  /-- `main` begins `start`, with a handoff token or without. -/
  | launch (handoffToken : Option Token)
  /-- The next operation succeeds. -/
  | next
  /-- The descriptor cannot be read. -/
  | misread
  /-- The start identity is read of the process that has the id of the descriptor. -/
  | identified
  /-- No start identity is read. The id may belong to another process by now. -/
  | unidentified (reused : Bool)
  /-- What the daemon in the descriptor answers. -/
  | answered (healthy : Bool)
  /-- The next operation fails. -/
  | fail
  /-- The descriptor is written, then an operation fails. -/
  | failLate
  /-- The process is told to stop. -/
  | signal
  deriving DecidableEq

inductive Action where
  | lock (action : StartLock.Action)
  | daemon (process : ProcessId) (event : Event)
  deriving DecidableEq

/-- The lock files and the processes, the descriptor unless it is missing or not valid, and for
each process where it stands and the token it was launched with. -/
structure System where
  lock : StartLock.System
  descriptor : Option Descriptor
  stages : ProcessId → Stage
  token : ProcessId → Token

namespace System

variable (system : System)

def alive (process : ProcessId) : Bool := system.lock.alive process

/-- A call on the lock has returned. -/
def returned (process : ProcessId) : Bool := system.lock.pc process = .idle

/-- The descriptor that a daemon writes. -/
def own (process : ProcessId) : Descriptor :=
  ⟨process, system.token process, daemonProtocolVersion⟩

def goto (process : ProcessId) (stage : Stage) : System :=
  { system with stages := Function.update system.stages process stage }

/-- A daemon goes on with a call on the lock. -/
def call (action : StartLock.Action) (process : ProcessId) (stage : Stage) : System :=
  { system with lock := system.lock.step action }.goto process stage

/-- The `catch` part of `start`. -/
def abandon (process : ProcessId) : System := system.call (.release process) process .failing

/-- The `finally` part of `removeDescriptor`. -/
def leaveRemoval (process : ProcessId) : System :=
  system.call (.release process) process .removalReleasing

/-- Whether the process of a descriptor is still there, as far as this can be told: its
identity matches, or it is not known and the id is in use. -/
def judge (process : ProcessId) (descriptor reread : Descriptor) : Event → System
  | .identified =>
    if system.alive reread.pid then system.abandon process else system.goto process .preparing
  | .unidentified reused =>
    if system.alive reread.pid || reused then
      if descriptor.protocolVersion ≠ daemonProtocolVersion then system.abandon process
      else system.goto process (.asking descriptor)
    else system.goto process .preparing
  | .fail => system.abandon process
  | _ => system

/-- What an event does to a daemon at a stage. -/
def react (process : ProcessId) : Stage → Event → System
  | .launched, .launch none => system.call (.acquire process) process .locking
  | .launched, .launch (some handoffToken) =>
    system.call (.claim process handoffToken) process .locking
  | .locking, .next =>
    if system.returned process then
      if (system.lock.lease process).isSome then system.goto process .checking
      else system.goto process .ended
    else system
  | .checking, .next =>
    match system.descriptor with
    | none => system.goto process .preparing
    | some descriptor => system.goto process (.rereading descriptor)
  | .checking, .misread => system.goto process .preparing
  | .rereading descriptor, .next =>
    match system.descriptor with
    | none => system.goto process .preparing
    | some reread => system.goto process (.identifying descriptor reread)
  | .rereading _, .misread => system.goto process .preparing
  | .identifying descriptor reread, event => system.judge process descriptor reread event
  | .asking _, .answered healthy =>
    if healthy then system.abandon process else system.goto process .preparing
  | .preparing, .next => system.goto process .publishing
  | .checking, .fail | .rereading _, .fail | .preparing, .fail | .publishing, .fail =>
    system.abandon process
  | .publishing, .next =>
    { system with descriptor := some (system.own process) }.call (.release process) process
      .releasing
  | .publishing, .failLate =>
    { system with descriptor := some (system.own process) }.abandon process
  | .releasing, .next =>
    if system.returned process then
      if (system.lock.lease process).isSome then system.abandon process
      else system.goto process .serving
    else system
  | .failing, .next | .removalReleasing, .next =>
    if system.returned process then system.goto process .ended else system
  | .serving, .signal => system.goto process .stopping
  | .stopping, .next => system.call (.acquire process) process .removalLocking
  | .stopping, .fail => system.goto process .ended
  | .removalLocking, .next =>
    if system.returned process then
      if (system.lock.lease process).isSome then system.goto process .removalReading
      else system.goto process .ended
    else system
  | .removalReading, .next =>
    if system.descriptor.any fun descriptor =>
        descriptor.token = system.token process && descriptor.pid = process then
      system.goto process .removing
    else system.leaveRemoval process
  | .removalReading, .misread => system.leaveRemoval process
  | .removing, .next => { system with descriptor := none }.leaveRemoval process
  | .removing, .fail => system.leaveRemoval process
  | _, _ => system

/-- A client calls on the lock as it likes, a daemon within `start` and `stop`. -/
def permits : StartLock.Action → Bool
  | .acquire process | .release process | .give process _ => system.stages process = .client
  | .claim _ _ => false
  | .advance _ | .fail _ | .crash _ => true

/-- An action of a process that is dead, or that cannot be taken now, changes nothing. -/
def step : Action → System
  | .lock action =>
    if system.permits action then { system with lock := system.lock.step action } else system
  | .daemon process event =>
    if system.alive process then system.react process (system.stages process) event else system

/-- A live daemon accepts requests. -/
def serves (process : ProcessId) : Bool :=
  system.alive process && (system.stages process).serves

end System

/-- Neither lock nor token is held, and no daemon has started. The files may hold what dead
processes have left. -/
structure Initial (system : System) : Prop where
  lock : StartLock.Initial system.lock
  given : system.lock.given = []
  handedOff : system.lock.handedOff = []
  stages : ∀ process, system.stages process = .client ∨ system.stages process = .launched

/-- The descriptor names no daemon that serves. -/
def System.Unserved (system : System) : Prop :=
  ∀ descriptor, system.descriptor = some descriptor → system.serves descriptor.pid = false

/-- The start lock is not disturbed, and of a daemon that serves the descriptor can be read
and, where its identity cannot be, an answer comes. -/
def Sound (system : System) : Action → Prop
  | .lock action => StartLock.Undisturbed system.lock action
  | .daemon process event =>
    match system.stages process, event with
    | .checking, .misread | .rereading _, .misread | .asking _, .answered false => system.Unserved
    | _, _ => True

end OpencodePty.DaemonServing
