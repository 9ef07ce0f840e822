import OpencodePty.AbortablePrograms
import OpencodePty.Approvals

/-!
# The tool that runs a shell command

The tool asks the local permission policy about a command, gets an approval from the daemon
where the policy asks for one, asks the host about a directory outside the project, and starts
the command. Each of these is a call that another party answers or fails, and the host may abort
the tool at any time. What the host does at once, such as showing a notice, either returns or
throws, and does not abort the tool.

Reading the configuration ends in a parsed configuration or fails. The path functions of the
platform, the lower case of a text and the digest of an agent's name are parameters.
-/

namespace OpencodePty.BashTool

open JsValues AbortablePrograms
open Approvals (ApprovalRequest ApprovalStatus Intent OwnerContext)

/-- The message of an error. -/
abbrev Failure := JsString

/-- What the tool finds in the process and the host that it runs in. -/
structure Host where
  windows : Bool
  comSpec : Option JsString
  upperComSpec : Option JsString
  existsSync : JsString → Bool
  realpathSync : JsString → Except Failure JsString
  relative : JsString → JsString → JsString
  isAbsolute : JsString → Bool
  dirname : JsString → JsString
  separator : JsString
  trim : JsString → JsString
  toLowerCase : JsString → JsString
  /-- The hexadecimal SHA-256 digest of the normalized text. -/
  digest : JsString → JsString
  metadata : JsString → Except Failure Unit
  /-- Whether the context has a function to ask the user with. -/
  asks : Bool
  /-- The directory of the project. -/
  directory : JsString

/-- What the tool is called with. -/
structure BashArgs where
  command : JsString
  workdir : Option JsString
  timeout : Option JsNumber

/-- The session, the directory and the agent that a tool is called for. -/
structure ToolContext where
  sessionID : JsString
  directory : JsString
  agent : JsString

/-! ## Permission rules -/

/-- What a rule says. -/
inductive PermissionAction where
  | allow
  | ask
  | deny
  deriving DecidableEq

/-- The rule of a permission: one action, or one for each pattern. -/
inductive PermissionRule where
  | action (action : PermissionAction)
  | patterns (actions : List (JsString × PermissionAction))

/-- The permissions of a configuration: one action, or a rule for each permission. -/
inductive PermissionConfig where
  | action (action : PermissionAction)
  | permissions (rules : List (JsString × PermissionRule))

/-- The permissions for every agent, and those of each agent. -/
structure Config where
  permission : Option PermissionConfig
  agent : List (JsString × Option PermissionConfig)

/-- A rule with the permissions and the inputs that it is about. -/
structure Rule where
  permission : JsString
  pattern : JsString
  action : PermissionAction

/-- The rules in the order in which they are evaluated. -/
def rulesFor : PermissionConfig → List Rule
  | .action action => [⟨js "*", js "*", action⟩]
  | .permissions rules => rules.flatMap fun (key, rule) =>
    match rule with
    | .action action => [⟨key, js "*", action⟩]
    | .patterns actions => actions.map fun (pattern, action) => ⟨key, pattern, action⟩

/-- The regular expression of a pattern: a star stands for any text, and a question mark for one
code unit. -/
def wildcard : JsString → JsString → Bool
  | [], text => text.isEmpty
  | unit :: pattern, text =>
    if [unit] = js "*" then text.tails.any (wildcard pattern)
    else
      match text with
      | [] => false
      | first :: rest => ([unit] = js "?" || unit == first) && wildcard pattern rest

/-- The separator of paths on Windows. -/
def backslash : UInt16 := 0x5c
/-- The separator of paths elsewhere. -/
def slash : UInt16 := 0x2f

/-- A path with slashes only. -/
def forward (path : JsString) : JsString :=
  path.map fun unit => if unit = backslash then slash else unit

/-- A text as patterns are matched with: with slashes, and in lower case on Windows. -/
def normalize (host : Host) (value : JsString) : JsString :=
  if host.windows then host.toLowerCase (forward value) else forward value

/-- `match`. A pattern that ends with a blank and a star also stands for the text before them. -/
def wildcardMatch (host : Host) (text pattern : JsString) : Bool :=
  let text := normalize host text
  let pattern := normalize host pattern
  (js " *").isSuffixOf pattern && text == pattern.take (pattern.length - 2) ||
    wildcard pattern text

/-- The action of the last rule that matches, or `deny` where any rule that matches denies. -/
def evaluateRules (host : Host) (permission input : JsString) :
    Option PermissionAction → List Rule → Option PermissionAction
  | result, [] => result
  | result, rule :: rules =>
    if wildcardMatch host permission rule.permission && wildcardMatch host input rule.pattern then
      if rule.action = .deny then some .deny
      else evaluateRules host permission input (some rule.action) rules
    else evaluateRules host permission input result rules

/-- What the rules of a configuration say: a rule that denies ends the loop, and else the last one
counts. -/
def evaluate (host : Host) (config : Config) (agent permission input : JsString) :
    Option PermissionAction :=
  let ofAgent := if agent.isEmpty then none else (config.agent.lookup agent).join
  evaluateRules host permission input none
    ((config.permission.toList ++ ofAgent.toList).flatMap rulesFor)

/-! ## Calls -/

/-- `ApprovalPreparation` -/
inductive ApprovalPreparation where
  | request (request : ApprovalRequest)
  | approvedSession

/-- A question for the user. -/
structure AskRequest where
  permission : JsString
  patterns : List JsString
  always : List JsString
  output : JsString
  deriving DecidableEq

/-- What a command is started with. -/
structure ExecOptions where
  command : JsString
  args : List JsString
  workdir : JsString
  title : JsString
  parentSessionId : JsString
  parentAgent : JsString
  timeoutSeconds : Nat
  deriving DecidableEq

/-- What is known of the processes of a command. -/
structure Containment where
  status : JsString
  rootIdentityVerified : Bool
  observedGroupPids : List Nat
  observedSessionPids : List Nat
  observedEscapedDescendantPids : List Nat

/-- What a command has written, and how it ended. -/
structure ExecResult where
  status : JsString
  stdout : JsString
  stderr : JsString
  exitCode : Option Int
  timedOut : Bool
  terminationConfirmed : Bool
  containment : Option Containment
  /-- Whether the direct child exited, where the result has a termination. -/
  directChildExited : Option Bool

/-- What the tool awaits. -/
inductive Call where
  | configGet
  | realpaths (workdir directory : JsString)
  | gitToplevel (directory : JsString)
  | realpath (path : JsString)
  | showToast (message : JsString)
  | prepareApproval (intent : Intent) (expirySeconds uiLeaseSeconds : Nat) (owner : OwnerContext)
  | waitForApproval (id : JsString) (timeoutSeconds : Nat) (owner : OwnerContext)
  | ask (request : AskRequest)
  | approveNativeApproval (id : JsString) (owner : OwnerContext)
  | consumeApproval (id : JsString) (details : Intent) (owner : OwnerContext)
  | cancelApproval (id : JsString) (owner : OwnerContext)
  | execStart (options : ExecOptions) (owner : OwnerContext)
  | execWait (id : JsString) (timeoutSeconds : Nat) (owner : OwnerContext) (abortable : Bool)
  | stop (id : JsString) (owner : OwnerContext)

/-- What a call is answered. -/
def Call.Reply : Call → Type
  | configGet => Config
  | realpaths _ _ => JsString × JsString
  | gitToplevel _ | realpath _ => JsString
  | prepareApproval _ _ _ _ => ApprovalPreparation
  | waitForApproval _ _ _ | approveNativeApproval _ _ | consumeApproval _ _ _
  | cancelApproval _ _ => ApprovalRequest
  | execStart _ _ => JsString
  | execWait _ _ _ _ => ExecResult
  | showToast _ | ask _ | stop _ _ => Unit

/-- A program that awaits calls. -/
abbrev Async (Result : Type) : Type := Program Call Call.Reply Failure Result

/-- Await one call. -/
def awaited (call : Call) : Async call.Reply := Program.request call

/-- Await a call that may fail. -/
def attempted (call : Call) : Async Unit :=
  try
    let _ ← awaited call
  catch _ => pure ()

/-- An error where a condition holds. -/
def throwIf (condition : Bool) (message : String) : Async Unit :=
  if condition then throw (js message) else pure ()

/-! ## The policy -/

/-- What the rules leave to do for a command that they do not deny. -/
structure Policy where
  action : PermissionAction
  workdir : JsString
  externalAction : Option PermissionAction
  externalPattern : Option JsString

/-- A working directory, and whether it is outside the project. -/
structure ResolvedWorkdir where
  workdir : JsString
  outside : Bool
  action : Option PermissionAction
  pattern : JsString

/-- The configuration of the host, or an error where it cannot be read. -/
def permissionConfig : Async Config :=
  try awaited .configGet
  catch _ => throw (js "PTY spawn denied: permission configuration is unavailable.")

/-- Show the user that a command is denied, and throw. -/
def deny {Result : Type} (message : JsString) : Async Result := do
  attempted (.showToast message)
  throw message

/-- The top level of the repository, or else the directory of the project. -/
def worktreeBoundary (host : Host) (directory : JsString) : Async JsString :=
  try
    let stdout ← awaited (.gitToplevel directory)
    awaited (.realpath (host.trim stdout))
  catch _ => pure directory

/-- Whether a path relative to the boundary of the project leads out of it. -/
def leadsOut (host : Host) (path : JsString) : Bool :=
  path == js ".." || (js ".." ++ host.separator).isPrefixOf path || host.isAbsolute path

/-- The working directory with what the permissions say about it. -/
def resolveWorkdir (host : Host) (permissions : Config) (agent : JsString)
    (resolvedWorkdir boundary : JsString) : ResolvedWorkdir :=
  let outside := leadsOut host (host.relative boundary resolvedWorkdir)
  { workdir := resolvedWorkdir
    outside
    action :=
      if outside then evaluate host permissions agent (js "external_directory") resolvedWorkdir
      else none
    pattern := forward (host.dirname resolvedWorkdir) ++ js "/*" }

/-- The working directory with what the rules say about it. -/
def workdirAuthorization (host : Host) (permissions : Config) (workdir : Option JsString)
    (agent : JsString) : Async ResolvedWorkdir := do
  throwIf host.directory.isEmpty
    "PTY command denied: the plugin host did not provide a project directory."
  let resolvedPaths : JsString × JsString ←
    try awaited (.realpaths (workdir.getD host.directory) host.directory)
    catch _ => throw (js "PTY command denied: unable to verify the working directory.")
  let boundary ← (worktreeBoundary host resolvedPaths.2).joined
  pure (resolveWorkdir host permissions agent resolvedPaths.1 boundary)

/-- The policy for a command and its directory, unless one of them is denied. -/
def bashPolicy (action : Option PermissionAction) (resolved : ResolvedWorkdir) : Option Policy :=
  if action = some .deny ∨ resolved.action = some .deny then none
  else
    some {
      action := if action = some .allow then .allow else .ask
      workdir := resolved.workdir
      externalAction := if resolved.outside then resolved.action else none
      externalPattern := if resolved.outside then some resolved.pattern else none }

/-- The policy for a shell command, or an error where it is denied. -/
def createBashAuthorizer (host : Host) (command : JsString) (workdir : Option JsString)
    (agent : JsString) : Async Policy := do
  let permissions ← permissionConfig.joined
  let action := evaluate host permissions agent (js "bash") command
  let resolved ← (workdirAuthorization host permissions workdir agent).joined
  match bashPolicy action resolved with
  | none => (deny (js "Bash command denied by local permission policy.")).joined
  | some policy => pure policy

/-! ## Arguments of the start -/

/-- How long a command may run. -/
def maxExecRuntimeSeconds : Nat := 3600
/-- How long the tool waits for a command. -/
def maxExecWaitSeconds : Nat := maxExecRuntimeSeconds + 5
/-- How long a command may run when the call does not say so. -/
def defaultTimeoutMs : Int := 120000
/-- How long a request for an approval stays open. -/
def approvalExpirySeconds : Nat := maxExecRuntimeSeconds
/-- How long a user interface may claim the request. -/
def approvalUiLeaseSeconds : Nat := 5

/-- The shell of the host with the arguments that make it run a command. -/
def bashArgv (host : Host) (command : JsString) : Except Failure (JsString × List JsString) :=
  let shell := if host.windows then host.comSpec <|> host.upperComSpec else some (js "/bin/sh")
  match shell.filter fun shell => !shell.isEmpty && host.existsSync shell with
  | none =>
    .error (js "Bash compatibility shell is unavailable: " ++ shell.getD (js "none") ++ js ".")
  | some shell =>
    .ok (shell, if host.windows then [js "/d", js "/s", js "/c", command] else [js "-lc", command])

/-- The timeout of a call in whole seconds. -/
def bashTimeout (timeout : Option JsNumber) : Except Failure Nat :=
  match timeout.getD (.integer defaultTimeoutMs) with
  | .integer timeout =>
    if !(JsNumber.integer timeout).isSafeInteger || timeout < 1000 then
      .error (js "Bash timeout must be a whole number of milliseconds of at least 1000.")
    else if (timeout / 1000).toNat > maxExecRuntimeSeconds then
      .error (js "Bash timeout exceeds the 3600 second limit.")
    else .ok (timeout / 1000).toNat
  | .other _ => .error (js "Bash timeout must be a whole number of milliseconds of at least 1000.")

/-- The capability under which the commands of an agent are approved. -/
def bashApprovalCapability (host : Host) (agent : JsString) : JsString :=
  js "bash:" ++ host.digest agent

/-- The owner for whom the tool acts, with the canonical directory of the project. -/
def ownerContext (host : Host) (parentSessionId projectDirectory : JsString) :
    Except Failure OwnerContext :=
  if parentSessionId.isEmpty || projectDirectory.isEmpty then
    .error (js "PTY owner context requires a session id and project directory.")
  else (host.realpathSync projectDirectory).map fun directory => ⟨parentSessionId, directory⟩

/-! ## The answer -/

/-- The characters of a text that XML allows. -/
def sanitize : JsString → JsString
  | [] => []
  | [unit] => if validUnit unit then [unit] else [0xfffd]
  | high :: low :: rest =>
    if isHighSurrogate high && isLowSurrogate low then high :: low :: sanitize rest
    else (if validUnit high then high else 0xfffd) :: sanitize (low :: rest)
where
  validUnit (unit : UInt16) : Bool :=
    unit == 0x9 || unit == 0xa || unit == 0xd || (0x20 ≤ unit && unit ≤ 0xd7ff) ||
      (0xe000 ≤ unit && unit ≤ 0xfffd)

/-- Every occurrence of a unit is replaced. -/
def replaceUnit (replaced : UInt16) (entity : String) (text : JsString) : JsString :=
  text.flatMap fun unit => if unit = replaced then js entity else [unit]

/-- A text with its markup escaped. -/
def escapeXml (value : JsString) : JsString :=
  replaceUnit 0x27 "&apos;" (replaceUnit 0x22 "&quot;" (replaceUnit 0x3e "&gt;"
    (replaceUnit 0x3c "&lt;" (replaceUnit 0x26 "&amp;" (sanitize value)))))

/-- A flag in the answer of a tool. -/
def truth (value : Bool) : JsString := js (if value then "true" else "false")

/-- Numbers of processes in the answer of a tool. -/
def pids (values : List Nat) : JsString :=
  (js ",").intercalate (values.map fun value => js (toString value))

/-- The XML element, or an empty line where there is no containment. -/
def containmentLine (result : ExecResult) : JsString :=
  match result.containment with
  | none => []
  | some containment =>
    js "<containment status=\"" ++ escapeXml containment.status ++
      js "\" direct_child_exited=\"" ++ truth (result.directChildExited.getD false) ++
      js "\" root_identity_verified=\"" ++ truth containment.rootIdentityVerified ++
      js "\" group_pids=\"" ++ pids containment.observedGroupPids ++
      js "\" session_pids=\"" ++ pids containment.observedSessionPids ++
      js "\" escaped_pids=\"" ++ pids containment.observedEscapedDescendantPids ++ js "\"/>"

/-- What the tool returns for a command that ended. -/
def bashOutput (result : ExecResult) : JsString :=
  let exitCode := (result.exitCode.map fun code => js (toString code)).getD (js "unknown")
  (js "\n").intercalate
    [js "<bash origin=\"opencode-pty\" mode=\"foreground\" status=\"" ++ escapeXml result.status ++
        js "\" exit_code=\"" ++ escapeXml exitCode ++ js "\" timed_out=\"" ++
        truth result.timedOut ++ js "\" termination_confirmed=\"" ++
        truth result.terminationConfirmed ++ js "\" terminal=\"true\">",
      js "<stdout>" ++ escapeXml result.stdout ++ js "</stdout>",
      js "<stderr>" ++ escapeXml result.stderr ++ js "</stderr>",
      containmentLine result,
      js "</bash>"]

/-! ## The tool -/

/-- What is shown while an approval is awaited. -/
def awaitingApproval : JsString := js "[opencode-pty · foreground · awaiting approval]"

/-- Wait for an approval, unless the call is aborted. -/
def abortableApprovalWait (id : JsString) (owner : OwnerContext) : Async ApprovalRequest := do
  throwIf (← Program.aborted) "Bash approval cancelled before prompting."
  Program.race (Call.waitForApproval id approvalExpirySeconds owner)
    (js "Bash approval cancelled before prompting.")

/-- The question about a permission for a pattern. -/
def askRequest (permission pattern : JsString) : AskRequest :=
  ⟨permission, [pattern], [pattern], awaitingApproval⟩

/-- Ask the user, unless the call is aborted before or meanwhile. -/
def abortableAsk (host : Host) (permission pattern : JsString) : Async Unit := do
  throwIf (← Program.aborted) "Bash approval cancelled before prompting."
  throwIf (!host.asks) "Bash approval is unavailable in this host."
  let _ ← Program.race (Call.ask (askRequest permission pattern))
    (js "Bash approval cancelled before prompting.")
  throwIf (← Program.aborted) "Bash approval cancelled before execution."

/-- The end of a command is confirmed. -/
def terminalExecResult (result : ExecResult) : Bool :=
  result.terminationConfirmed &&
    (result.status == js "exited" || result.status == js "timed_out" ||
      result.status == js "output_limited")

/-- Wait for a command. Where the call is aborted the command is stopped, and its end is waited for
a little longer. -/
def abortableExec (id : JsString) (owner : OwnerContext) (timeoutSeconds : Nat) :
    Async ExecResult :=
  try awaited (.execWait id timeoutSeconds owner true)
  catch error => do
    if !(← Program.aborted) then throw error
    else
      attempted (.stop id owner)
      let terminal ←
        try
          let result : ExecResult ← awaited (.execWait id 5 owner false)
          pure (if terminalExecResult result then some result else none)
        catch _ => pure none
      throw (js "Bash execution aborted; termination_confirmed=" ++
        truth ((terminal.map ExecResult.terminationConfirmed).getD false) ++ js ".")

/-- The request that a preparation leaves to be approved. -/
def ApprovalPreparation.unapproved : ApprovalPreparation → Option ApprovalRequest
  | .request pending => if pending.status = .approvedSession then none else some pending
  | .approvedSession => none

/-- Whether a consumption lets the command run. -/
def granted (consumed : ApprovalRequest) : Bool :=
  consumed.status = .consumed || consumed.status = .approvedSession

/-- The question of the host where the daemon leaves the approval to it. -/
def nativeApproval (host : Host) (request waiting : ApprovalRequest) (intent : Intent)
    (owner : OwnerContext) : Async Unit :=
  if waiting.status = .nativeFallback then do
    (abortableAsk host (js "bash") intent.command).joined
    let _ ← awaited (.approveNativeApproval request.id owner)
  else pure ()

/-- The approval of a request, up to its consumption. -/
def consumption (host : Host) (request : ApprovalRequest) (intent : Intent)
    (owner : OwnerContext) : Async Unit := do
  let waiting ← (abortableApprovalWait request.id owner).joined
  nativeApproval host request waiting intent owner
  let consumed : ApprovalRequest ← awaited (.consumeApproval request.id intent owner)
  throwIf (!granted consumed) "Bash command approval was not granted."

/-- The approval of a request, which is cancelled where it fails. -/
def approve (host : Host) (request : ApprovalRequest) (intent : Intent) (owner : OwnerContext) :
    Async Unit :=
  try consumption host request intent owner
  catch error => do
    attempted (.cancelApproval request.id owner)
    throw error

/-- The approval that the policy asks for. -/
def authorize (host : Host) (policy : Policy) (intent : Intent) (owner : OwnerContext) :
    Async Unit :=
  if policy.action = .ask then do
    let approval : ApprovalPreparation ← awaited
      (.prepareApproval intent approvalExpirySeconds approvalUiLeaseSeconds owner)
    match approval.unapproved with
    | none => pure ()
    | some request => approve host request intent owner
  else pure ()

/-- The question about a directory outside the project. -/
def authorizeExternal (host : Host) (policy : Policy) : Async Unit :=
  match policy.externalPattern with
  | none => pure ()
  | some pattern =>
    if !pattern.isEmpty ∧ policy.externalAction ≠ some .allow then
      (abortableAsk host (js "external_directory") pattern).joined
    else pure ()

/-- The start of the command and the wait for its end. -/
def startAndWait (host : Host) (options : ExecOptions) (owner : OwnerContext) : Async JsString :=
  try
    let session : JsString ← awaited (.execStart options owner)
    let result ← (abortableExec session owner
      (min (options.timeoutSeconds + 5) maxExecWaitSeconds)).joined
    throwIf (!terminalExecResult result) "Bash execution completed without terminal evidence."
    Program.lift (host.metadata (js "[opencode-pty · foreground · completed]"))
    pure (bashOutput result)
  catch error => do
    Program.lift (host.metadata (js "[opencode-pty · foreground · request failed]"))
    throw error

/-- What the tool asks an approval for. -/
def bashIntent (host : Host) (args : BashArgs) (ctx : ToolContext) (policy : Policy) : Intent :=
  ⟨args.command, none, bashApprovalCapability host ctx.agent, policy.workdir⟩

/-- How the tool starts a command line. -/
def execOptions (ctx : ToolContext) (policy : Policy) (argv : JsString × List JsString)
    (timeoutSeconds : Nat) : ExecOptions where
  command := argv.1
  args := argv.2
  workdir := policy.workdir
  title := js "Bash"
  parentSessionId := ctx.sessionID
  parentAgent := ctx.agent
  timeoutSeconds := timeoutSeconds

/-- The rest of `execute` after its approvals. -/
def startCommand (host : Host) (args : BashArgs) (ctx : ToolContext) (policy : Policy)
    (owner : OwnerContext) : Async JsString := do
  throwIf (← Program.aborted) "Bash execution cancelled before start."
  let argv ← Program.lift (bashArgv host args.command)
  let timeoutSeconds ← Program.lift (bashTimeout args.timeout)
  Program.lift (host.metadata (js "[opencode-pty · foreground · running]"))
  startAndWait host (execOptions ctx policy argv timeoutSeconds) owner

/-- `execute`. Its authorizer throws where it denies, so that no policy with the action `deny` comes
back from it; an authorizer that returns one is not modelled. -/
def execute (host : Host) (args : BashArgs) (ctx : ToolContext) : Async JsString := do
  throwIf args.command.isEmpty "Bash command is required."
  Program.lift (host.metadata awaitingApproval)
  let policy ← (createBashAuthorizer host args.command args.workdir ctx.agent).joined
  let owner ← Program.lift (ownerContext host ctx.sessionID ctx.directory)
  authorize host policy (bashIntent host args ctx policy) owner
  authorizeExternal host policy
  startCommand host args ctx policy owner

end OpencodePty.BashTool
