import OpencodePty.AbortablePrograms
import OpencodePty.OwnershipSecrets
import OpencodePty.Substitution
import OpencodePty.WorkerReports

/-!
# How the client finds or launches a daemon

The client reads the descriptor of the daemon and asks the daemon for its health. Where there is
none it takes the start lock, reads the descriptor once more, and launches a daemon that it gives
the handoff token of the lock to. Then it waits until a healthy daemon has written its descriptor,
until the process it launched has exited, or until its time is over. Whichever way it ends, it
releases the lock that it has.

Each of these is a call that the storage, the daemon or the system answers or fails. The loop takes
as fuel the number of its rounds; that the fuel is used up is the same as the end of the time.
-/

namespace OpencodePty.DaemonLaunches

open JsValues AbortablePrograms
open OwnershipSecrets (trim)

/-- The message of an error. -/
abbrev Failure := JsString

/-- The version of the protocol that the client speaks. -/
def daemonProtocolVersion : Int := 8
/-- How long a client waits for a daemon to start. -/
def daemonStartTimeoutMs : Int := 20000
/-- How much of the errors of a start is kept. -/
def startupStderrTailChars : Nat := 4096

/-! ## Descriptors -/

/-- What the file of a daemon says of it. -/
structure DaemonDescriptor where
  pid : Int
  processIdentity : JsString
  protocolVersion : Int
  token : JsString
  endpoint : JsString
  deriving DecidableEq

/-- The number in decimals of a port, as a URL writes it. -/
def isPort (text : JsString) : Bool :=
  text.length ≤ 5 && text.all TextEncodings.isDigit && !text.isEmpty &&
    (text.length = 1 || text.head? ≠ some 48) &&
      (let port := text.foldl (fun value unit => 10 * value + (unit.toNat - 48)) 0
      port ≤ 65535 && port ≠ 80)

/-- The text is the origin of a URL of HTTP on the local host with a port of its own. -/
def isLocalOrigin (endpoint : JsString) : Bool :=
  let hosts := [js "http://127.0.0.1:", js "http://[::1]:"]
  hosts.any fun host => host.isPrefixOf endpoint && isPort (endpoint.drop host.length)

/-- `typeof value === 'number'`, a safe integer and not less than 1. -/
def positive (value : Option Js) : Option Int :=
  match value with
  | some (.num (.integer number)) =>
    if (JsNumber.integer number).isSafeInteger && 1 ≤ number then some number else none
  | _ => none

/-- `typeof value === 'string'` -/
def text (value : Option Js) : Option JsString :=
  match value with
  | some (.str text) => some text
  | _ => none

/-- The value is a descriptor whose fields can be used. -/
def isSafeDescriptor (value : Js) : Option DaemonDescriptor := do
  let pid ← positive (value.get "pid")
  let processIdentity ← text (value.get "processIdentity")
  guard !processIdentity.isEmpty
  let protocolVersion ← positive (value.get "protocolVersion")
  let token ← text (value.get "token")
  guard (!token.isEmpty && token.length ≤ 256)
  let endpoint ← text (value.get "endpoint")
  guard (isLocalOrigin endpoint)
  return { pid, processIdentity, protocolVersion, token, endpoint }

/-! ## Calls -/

/-- The lock that a client holds while it starts a daemon. -/
structure StartLockLease where
  token : JsString
  handoffToken : JsString
  deriving DecidableEq

/-- What is known of the process that holds the lock. -/
inductive OwnerStatus where
  | alive
  | dead
  | unknown
  deriving DecidableEq

/-- What the client asks of the world outside. -/
inductive Call where
  | now
  | readDescriptor
  /-- The question for the health of a daemon, with the time that it may take. -/
  | health (descriptor : DaemonDescriptor) (timeoutMs : Int)
  | descriptorOwnerStatus
  | descriptorOwnerAlive
  | acquireStartLock
  | releaseStartLock (token : JsString)
  | randomUUID
  /-- Start the process of a daemon, with the token it is to have and the one of the lock. -/
  | launch (token handoffToken : JsString)
  /-- `startupExitCode` -/
  | exitCode
  /-- `await startupStderrDone` -/
  | stderrDone
  /-- `startupStderr` -/
  | stderr
  | sleep

/-- What a call is answered. A launch answers whether the standard error is captured. -/
def Call.Reply : Call → Type
  | .now => Int
  | .readDescriptor => Option Js
  | .health _ _ => Js
  | .descriptorOwnerStatus => OwnerStatus
  | .descriptorOwnerAlive => Bool
  | .acquireStartLock => Option StartLockLease
  | .randomUUID => JsString
  | .launch _ _ => Bool
  | .exitCode => Option Int
  | .stderr => JsString
  | .releaseStartLock _ | .stderrDone | .sleep => Unit

/-- A program of the client, which may be aborted while it waits. -/
abbrev Async (Result : Type) := Program Call Call.Reply Failure Result

/-- The program that waits for one call. -/
def awaited (call : Call) : Async call.Reply := Program.request call

/-! ## Health -/

/-- What the client finds out about a daemon. -/
inductive Probe where
  | healthy
  | incompatible
  | unreachable
  deriving DecidableEq

/-- What the answer of a daemon says of it. -/
def judged (descriptor : DaemonDescriptor) (reply : Js) : Probe :=
  match truthy (reply.get "ok") with
  | false =>
    if isText (field (reply.get "error") "code") "protocol" then .incompatible else .unreachable
  | true =>
    match reply.get "result" with
    | none | some .null => .unreachable
    | some result =>
      if !isInt (result.get "protocolVersion") descriptor.protocolVersion then .incompatible
      else if !isInt (result.get "pid") descriptor.pid ||
          text (result.get "processIdentity") ≠ some descriptor.processIdentity then .unreachable
      else if descriptor.protocolVersion = daemonProtocolVersion then .healthy
      else .incompatible

/-- The daemon of the descriptor is asked who it is. -/
def probe (descriptor : DaemonDescriptor) (deadline : Int) : Async Probe :=
  if descriptor.protocolVersion ≠ daemonProtocolVersion then return .incompatible
  else
    tryCatch
      (do
        let now : Int ← awaited .now
        let timeoutMs := min 250 (max 0 (deadline - now))
        if timeoutMs = 0 then return .unreachable
        else
          let reply ← awaited (.health descriptor timeoutMs)
          return judged descriptor reply)
      fun _ => return .unreachable

/-- A daemon of another version may be replaced where it holds no session. -/
def canRecoverIncompatibleDaemon : Async Bool := do
  let status : OwnerStatus ← awaited .descriptorOwnerStatus
  return decide (status = .dead)

/-- The failure that names both versions. -/
def incompatibleProtocol (descriptor : DaemonDescriptor) : Failure :=
  js "PTY daemon protocol " ++ encode (WorkerReports.signed descriptor.protocolVersion) ++
    js " is incompatible with client protocol 8; its owner could not be proven dead, so it was " ++
    js "not replaced. Stop or restart the older OpenCode process, then retry."

/-- A probe, which throws for a daemon of another version that cannot be proven dead. -/
def probeOrThrow (descriptor : DaemonDescriptor) (deadline : Int) : Async Probe := do
  let state ← probe descriptor deadline
  match state with
  | .incompatible => do
    let recoverable ← canRecoverIncompatibleDaemon
    if recoverable then return state else throw (incompatibleProtocol descriptor)
  | _ => return state

/-- The daemon of a descriptor that was read, if the descriptor is safe. -/
def considered (value : Option Js) (deadline : Int) :
    Async (Option (DaemonDescriptor × Probe)) :=
  match value.bind isSafeDescriptor with
  | none => return none
  | some descriptor => do
    let state ← probeOrThrow descriptor deadline
    return some (descriptor, state)

/-! ## Standard error -/

/-- The errors of a start, with the secrets hidden. -/
def safeStartupStderrTail (tail : JsString) (secrets : List JsString) : Option JsString :=
  if tail.isEmpty || (trim tail).isEmpty then none
  else
    let hidden := secrets.foldl
      (fun text secret =>
        if secret.isEmpty then text else Substitution.replaceAll secret (js "[REDACTED]") text) tail
    let trimmed := trim hidden
    let sanitized := trimmed.drop (trimmed.length - startupStderrTailChars)
    if sanitized.isEmpty then none else some sanitized

/-! ## The launch -/

/-- What the client knows of the process that it has launched. -/
structure Launched where
  token : JsString
  options : JsString

/-- `startupToken` and `startupOptions`, which are empty before the launch. -/
def secrets : Option Launched → List JsString
  | none => [[], []]
  | some launched => [launched.token, launched.options]

/-- The tail of the standard error at the end of a message. -/
def diagnostic (tail : JsString) (launched : Option Launched) : JsString :=
  match safeStartupStderrTail tail (secrets launched) with
  | none => []
  | some tail => js " Startup stderr: " ++ tail

/-- What the client finds in its process: how it writes the options of a launch. -/
structure Host where
  launchOptions : (token handoffToken : JsString) → JsString

/-- How a round of the loop ends. -/
inductive Round where
  | done (descriptor : DaemonDescriptor)
  | again (startLock : Option StartLockLease) (launched : Option Launched)
  | expired

variable (host : Host) (deadline : Int)

/-- The end of a round that waits, unless the process that was launched has exited. -/
def watch (startLock : Option StartLockLease) (launched : Option Launched) : Async Round := do
  match launched with
  | none => do
    awaited .sleep
    return .again startLock none
  | some started => do
    let exitCode : Option Int ← awaited .exitCode
    match exitCode with
    | none => do
      awaited .sleep
      return .again startLock (some started)
    | some exitCode => do
      awaited .stderrDone
      let tail : JsString ← awaited .stderr
      throw (js "PTY daemon exited before publishing its descriptor (exit code " ++
        encode (WorkerReports.signed exitCode) ++ js ")." ++ diagnostic tail (some started))

/-- Launch a daemon, unless there is a healthy one by now. -/
def launchUnder (lease : StartLockLease) : Async Round := do
  let value ← awaited .readDescriptor
  let seen ← considered value deadline
  match seen with
  | some (descriptor, .healthy) => return .done descriptor
  | _ => do
    let token : JsString ← awaited .randomUUID
    let captured : Bool ← tryCatch (awaited (.launch token lease.handoffToken)) fun _ =>
      throw (js "PTY daemon could not be launched.")
    if captured then
      return .again (some lease) (some ⟨token, host.launchOptions token lease.handoffToken⟩)
    else throw (js "PTY daemon stderr could not be captured.")

/-- What a round does when no daemon was found. -/
def proceed (startLock : Option StartLockLease) (launched : Option Launched) : Async Round :=
  match startLock, launched with
  | none, launched => do
    let acquired : Option StartLockLease ← awaited .acquireStartLock
    match acquired with
    | some lease => return .again (some lease) launched
    | none => watch none launched
  | some lease, none => launchUnder host deadline lease
  | some lease, some launched => watch (some lease) (some launched)

/-- One round of the loop: probe, then lock, then launch. -/
def round (startLock : Option StartLockLease) (launched : Option Launched) : Async Round := do
  let now : Int ← awaited .now
  if deadline ≤ now then return .expired
  else
    let value ← awaited .readDescriptor
    let seen ← considered value deadline
    match seen with
    | some (descriptor, .healthy) => return .done descriptor
    | some _ => do
      let alive : Bool ← awaited .descriptorOwnerAlive
      if alive then
        awaited .sleep
        return .again startLock launched
      else proceed host deadline startLock launched
    | none => proceed host deadline startLock launched

/-- The `finally` of the loop. -/
def released (startLock : Option StartLockLease) : Async Unit :=
  match startLock with
  | none => return ()
  | some lease => awaited (.releaseStartLock lease.token)

/-- What is left to do when the time is up. -/
def expire (startLock : Option StartLockLease) (launched : Option Launched) :
    Async DaemonDescriptor := do
  released startLock
  let tail : JsString ← awaited .stderr
  throw (js "PTY daemon did not start within 20 seconds." ++ diagnostic tail launched)

/-- The rounds, as long as there is time. -/
def loop : Nat → Option StartLockLease → Option Launched → Async DaemonDescriptor
  | 0, startLock, launched => expire startLock launched
  | rounds + 1, startLock, launched =>
    (round host deadline startLock launched).andThen fun
      | .ok (.done descriptor) => do
        released startLock
        return descriptor
      | .ok (.again startLock launched) => loop rounds startLock launched
      | .ok .expired => expire startLock launched
      | .error failure => do
        released startLock
        throw failure

/-- `ensureDaemon`, with the descriptor of the last call. -/
def ensureDaemon (rounds : Nat) (known : Option DaemonDescriptor) : Async DaemonDescriptor := do
  let startedAt : Int ← awaited .now
  let deadline := startedAt + daemonStartTimeoutMs
  match known with
  | none => loop host deadline rounds none none
  | some descriptor => do
    let state ← probeOrThrow descriptor deadline
    match state with
    | .healthy => return descriptor
    | _ => loop host deadline rounds none none

end OpencodePty.DaemonLaunches
