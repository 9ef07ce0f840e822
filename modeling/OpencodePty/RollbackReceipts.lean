import OpencodePty.ExitMatches
import OpencodePty.ExitedSnapshots
import OpencodePty.SessionStarts
import OpencodePty.WorkerReceipts

/-!
# Rollback receipts

A rollback frame makes the worker leave its loop, terminate its child and print a receipt with
the number of the child. The daemon looks for the receipt in the output of the worker, and takes
it for the proof that the termination is confirmed; without one, it looks for the receipt of a
worker that was never told to start a child.

The worker prints the receipt when its waits have come to their ends, whatever they have found.
What the receipt proves is decided by the last containment report that one of its threads has
turned into the verdict before.
-/

namespace OpencodePty.RollbackReceipts

open JsValues TextEncodings EvidencedDeletion ExitedSnapshots Transitions WorkerReceipts
open WorkerVerdicts
open ProcessScans (Containment ContainmentReport ContainmentStatus)
open SessionStarts (SpawnCleanup)
open Timestamps (Clock)
open WorkerReports (Reporter digits)

/-! ## The worker -/

/-- A child that `main` has spawned, and what its threads report of it at first. -/
structure Spawned where
  reporter : Reporter
  containment : Containment
  positive : 0 < containment.rootPid
  small : containment.rootPid < 2 ^ 32

/-- Where the main thread of the worker is. A number is that of the report that it goes on
with. -/
inductive Main where
  /-- It waits for the first control frame. -/
  | awaiting
  | serving
  /-- It has left the loop that accepts connections. -/
  | left
  /-- `terminate_contained` -/
  | requesting
  | signalled
  | grace
  | ending
  | refreshing (number : Nat)
  | overriding (number : Nat)
  /-- `terminate_contained` has returned. -/
  | terminated
  | waiting
  /-- `record_exit` -/
  | recording (exit : ExitStatus)
  | recorded
  | confirming (number : Nat)
  /-- Nothing but the receipt is left. -/
  | settled
  | ended

/-- What the main thread finds at its next step. -/
structure Answers where
  /-- The first control frame is authentic and starts a child. -/
  start : Bool
  /-- The child is spawned. -/
  spawned : Bool
  /-- The listener fails. -/
  acceptFails : Bool
  look : Look
  /-- What the wait for the child returns. -/
  exit : Option ExitStatus
  clock : Clock
  time : Nat
  /-- Whether the job was seen to drain, on Windows. -/
  drained : Option Bool

/-- A worker that runs. Its state and that of its child are what the actions of its threads
have made of them. -/
structure Running where
  main : Main
  actions : List Action
  rollback : Bool
  shutdown : Bool
  stdout : JsString
  /-- `prestart-no-child.json`. -/
  prestartNoChild : Option Js
  /-- The actions before the rollback receipt, where it was printed. -/
  printed : Option (List Action)

/-- There is a child, and the threads that follow it run. -/
def Main.hasChild : Main → Bool
  | .awaiting => false
  | .ended => false
  | _ => true

/-- What may happen next during a rollback. -/
inductive Move where
  | thread (action : Action)
  | rollbackFrame
  | shutdown
  | main (answers : Answers)

/-- The line that says that the worker listens. -/
def readyLine : JsString := js "\x7b\"ready\":true\x7d\n"

section Worker

variable (platform : Platform) (worker : WorkerProcess) (spawned : Spawned)

/-- The worker and its child after some actions. -/
def reached (actions : List Action) : System :=
  run (step platform) (start spawned.reporter spawned.containment) actions

/-- The line of the rollback receipt. -/
def receiptLine : JsString :=
  js "\x7b\"rollback\":true,\"token\":\"" ++ worker.controlToken ++ js "\",\"pid\":" ++
    encode (digits spawned.containment.rootPid) ++ js "\x7d\n"

/-- `terminate_and_wait(&worker, "stopped")`, where the termination is not confirmed: the next
place of the main thread, and what it does. In its loops the thread does what the monitor does
as well; this is left to the actions of the threads. -/
def terminationStep (system : System) (answers : Answers) : Main → Main × List Action
  | .left => (if system.state.terminationConfirmed then .settled else .requesting, [])
  | .requesting =>
    if system.state.terminationRequested then (.terminated, [])
    else (if platform = .windows then .ending else .signalled,
      [.requestTermination "stopped".toList])
  -- The reports before each signal.
  | .signalled => (.grace, [.takeReport answers.look])
  | .grace => (.ending, [.takeReport answers.look])
  -- The hard timeout has passed, or a report was drained.
  | .ending => (.refreshing system.taken.length, [.takeReport answers.look])
  | .refreshing number =>
    (if platform = .windows then .overriding number else .terminated, [.refresh number])
  | .overriding number => (.terminated, [.confirmTermination number answers.drained])
  | .terminated =>
    (if platform ≠ .windows ∧ system.state.rootExited = true then .settled else .waiting, [])
  | .waiting =>
    match answers.exit with
    | none => (.settled, [])
    | some exit =>
      if system.child = .running then (.waiting, []) else (.recording exit, [.reap])
  | .recording exit =>
    if system.state.rootExited then (.settled, [])
    else (.recorded, [.recordExit exit answers.clock answers.time])
  | .recorded => (.confirming system.taken.length, [.takeReport answers.look])
  | .confirming number => (.settled, [.refresh number])
  | main => (main, [])

/-- The next step of the main thread. -/
def mainStep (answers : Answers) (running : Running) : Running :=
  match running.main with
  | .awaiting =>
    if !answers.start then
      { running with main := .ended, prestartNoChild := some worker.prestartReceipt }
    else if answers.spawned then { running with main := .serving }
    -- The failure is written to a file of its own.
    else { running with main := .ended }
  | .serving =>
    if running.shutdown || answers.acceptFails then { running with main := .left } else running
  | .settled =>
    if running.rollback then
      { running with
        main := .ended
        stdout := running.stdout ++ receiptLine worker spawned
        printed := some running.actions }
    else { running with main := .ended }
  | .ended => running
  | main =>
    let (next, done) := terminationStep platform (reached platform spawned running.actions)
      answers main
    { running with main := next, actions := running.actions ++ done }

/-- One move of the threads; what is not possible changes nothing. -/
def advance (running : Running) : Move → Running
  | .thread action =>
    if running.main.hasChild then { running with actions := running.actions ++ [action] }
    else running
  | .rollbackFrame =>
    if running.main.hasChild then { running with rollback := true } else running
  | .shutdown => if running.main.hasChild then { running with shutdown := true } else running
  | .main answers => mainStep platform worker spawned answers running

/-- The worker after its ready line. -/
def launched : Running := ⟨.awaiting, [], false, false, readyLine, none, none⟩

/-- The worker after some moves. -/
def moved (moves : List Move) : Running := run (advance platform worker spawned) launched moves

end Worker

/-! ## The daemon -/

/-- What makes an output of the worker hold a receipt. -/
def receiptMark (token : JsString) : JsString :=
  js "\"rollback\":true,\"token\":\"" ++ token ++ js "\""

/-- The chunks are appended to the output until it holds a receipt. -/
def readReceipt (token output : JsString) : List JsString → Option JsString
  | [] => none
  | chunk :: rest =>
    if ExitMatches.includes (output ++ chunk) (receiptMark token) then some (output ++ chunk)
    else readReceipt token (output ++ chunk) rest

/-- The key in front of the process id. -/
def pidKey : JsString := js "\"pid\":"

/-- The number that some digits are. -/
def numberOf (units : JsString) : Nat :=
  Nat.ofDigitChars 10 (units.map fun unit => Char.ofNat unit.toNat) 0

/-- `/"pid":(\d+)/.exec(output)?.[1]` as a number. -/
def pidIn : JsString → Option Nat
  | [] => none
  | unit :: rest =>
    let found := ((unit :: rest).drop pidKey.length).takeWhile isDigit
    if pidKey.isPrefixOf (unit :: rest) && !found.isEmpty then some (numberOf found)
    else pidIn rest

section Daemon

variable (fingerprint : JsString → JsString) (worker : WorkerProcess)

/-- `rollback`, with the error of its control frame, the chunks of the output that are read
before the deadline, and the files that are found after. -/
def rollback (owned : Bool) (controlFailure : Option JsString) (chunks : List JsString)
    (files : WorkerFiles) : SpawnCleanup :=
  if !owned then
    SessionStarts.unconfirmedCleanup
      (some (js "Worker rollback channel is not owned by this daemon."))
  else
    match readReceipt worker.controlToken [] chunks with
    | some output =>
      let pid := (pidIn output).filter fun pid => decide (0 < pid) && decide (pid ≤ maxSafeInteger)
      { requested := true
        terminationConfirmed := pid.isSome
        method := .rollback
        directChildStarted := none
        directChildPid := pid
        message := none }
    | none =>
      if hasVerifiedPrestartNoChildReceipt fingerprint files (worker.reference fingerprint none) then
        { requested := false
          terminationConfirmed := true
          method := .none
          directChildStarted := some false
          directChildPid := none
          message := some (js "Worker confirmed that no start frame created a child.") }
      else
        { requested := true
          terminationConfirmed := false
          method := .rollback
          directChildStarted := none
          directChildPid := none
          message :=
            match controlFailure.filter (· ≠ []) with
            | some failure => some (js "Worker rollback control failed: " ++ failure)
            | none =>
              some (js "Worker exited without an authenticated direct-child rollback receipt.") }

end Daemon

/-! ## The last report that was used -/

/-- A report that is turned into the verdict, and whether the exit was recorded before. On
Windows, `terminate_contained` also has the result of its own wait. -/
inductive Use where
  | refreshed (exited : Bool) (report : ContainmentReport)
  | confirmed (exited : Bool) (report : ContainmentReport) (drained : Option Bool)

section Uses

variable (platform : Platform)

/-- The report that an action turns into the verdict. -/
def useOf (system : System) : Action → Option Use
  | .refresh number =>
    system.taken[number]?.map fun taken => .refreshed system.state.rootExited taken.report
  | .confirmTermination number drained =>
    if platform = .windows then
      system.taken[number]?.map fun taken =>
        .confirmed system.state.rootExited taken.report drained
    else none
  | _ => none

/-- The last use of a report. -/
def lastUse (system : System) : List Action → Option Use
  | [] => none
  | action :: rest =>
    (lastUse (step platform system action) rest).or (useOf platform system action)

/-- The report is used after the exit, and shows that nothing is left. -/
def Use.conclusive : Use → Bool
  | .refreshed exited report => exited && (containmentDrained report || platform == .macos)
  | .confirmed exited report drained =>
    exited && drained == some true && report.status == .windowsJobEmpty

/-- The last report that was used is conclusive. -/
def Concluded (system : System) (actions : List Action) : Prop :=
  (lastUse platform system actions).any (Use.conclusive platform) = true

instance decidableConcluded (system : System) (actions : List Action) :
    Decidable (Concluded platform system actions) :=
  inferInstanceAs (Decidable (_ = true))

variable {platform}

/-- Only the use of a report changes the verdict. -/
theorem step_verdict (system : System) (action : Action) :
    (step platform system action).state.terminationConfirmed =
      ((useOf platform system action).map (Use.conclusive platform)).getD
        system.state.terminationConfirmed := by
  cases action with
  | childExits =>
    rw [step]
    split <;> rfl
  | reap =>
    rw [step]
    split <;> rfl
  | recordExit exit clock time =>
    rw [step]
    split
    · exact recordExit_confirmed _ _ _ _ _
    · rfl
  | refresh number =>
    simp only [step, useOf]
    cases system.taken[number]? with
    | none => rfl
    | some taken => rfl
  | confirmTermination number drained =>
    cases platform with
    | linux => rfl
    | macos => rfl
    | windows =>
      simp only [step, useOf]
      cases system.taken[number]? with
      | none => rfl
      | some taken =>
        cases drained with
        | none => simp [System.confirm, confirmTermination, Use.conclusive]
        | some empty =>
          cases empty <;> simp [System.confirm, confirmTermination, Use.conclusive]
  | requestTermination reason => exact (requestTermination_same reason _).terminationConfirmed
  | readerEof stdout => exact (markReaderEof_same stdout _).terminationConfirmed
  | updateReaderDrain time => exact (updateReaderDrain_same platform time _).terminationConfirmed
  | releaseTerminal time => exact (releaseWindowsTerminal_same time _).terminationConfirmed
  | _ => rfl

/-- After a run, the verdict is that of the last report that was used. -/
theorem run_verdict (system : System) (actions : List Action) :
    (run (step platform) system actions).state.terminationConfirmed =
      ((lastUse platform system actions).map (Use.conclusive platform)).getD
        system.state.terminationConfirmed := by
  induction actions generalizing system with
  | nil => rfl
  | cons action rest inductionHypothesis =>
    rw [run_cons, inductionHypothesis, lastUse]
    cases lastUse platform (step platform system action) rest with
    | none => exact step_verdict system action
    | some use => rfl

/-- A termination is concluded where the worker says so in its state. -/
theorem concluded_iff (spawned : Spawned) (actions : List Action) :
    Concluded platform (start spawned.reporter spawned.containment) actions ↔
      (reached platform spawned actions).state.terminationConfirmed = true := by
  rw [reached, run_verdict, Concluded]
  cases lastUse platform (start spawned.reporter spawned.containment) actions with
  | none => simp [start, started]
  | some use => rfl

end Uses

/-! ## What the worker tells -/

section Told

variable {platform : Platform} {worker : WorkerProcess} {spawned : Spawned}

/-- What the worker has told so far: nothing, that it never started a child, or the rollback
receipt. -/
inductive Told (worker : WorkerProcess) (spawned : Spawned) (running : Running) : Prop where
  | nothing (stdout : running.stdout = readyLine) (prestart : running.prestartNoChild = none)
      (printed : running.printed = none)
  | prestart (ended : running.main = .ended) (stdout : running.stdout = readyLine)
      (prestart : running.prestartNoChild = some worker.prestartReceipt)
      (printed : running.printed = none)
  | receipt (ended : running.main = .ended)
      (stdout : running.stdout = readyLine ++ receiptLine worker spawned)
      (prestart : running.prestartNoChild = none)
      (actions : List Action) (printed : running.printed = some actions)

/-- A main thread that has ended takes no step. -/
theorem mainStep_ended {answers : Answers} {running : Running} (ended : running.main = .ended) :
    mainStep platform worker spawned answers running = running := by
  rw [mainStep, ended]

/-- The main thread tells nothing but what it saw. -/
theorem mainStep_told {running : Running} (answers : Answers)
    (told : Told worker spawned running) :
    Told worker spawned (mainStep platform worker spawned answers running) := by
  cases told with
  | prestart ended stdout prestart printed =>
    rw [mainStep_ended ended]
    exact .prestart ended stdout prestart printed
  | receipt ended stdout prestart actions printed =>
    rw [mainStep_ended ended]
    exact .receipt ended stdout prestart actions printed
  | nothing stdout prestart printed =>
    unfold mainStep
    split
    · split
      · exact .prestart rfl stdout rfl printed
      · split <;> exact .nothing stdout prestart printed
    · split <;> exact .nothing stdout prestart printed
    · split
      · refine .receipt rfl ?_ prestart running.actions rfl
        rw [stdout]
      · exact .nothing stdout prestart printed
    · exact .nothing stdout prestart printed
    · exact .nothing stdout prestart printed

/-- One move tells nothing but what was seen. -/
theorem advance_told {running : Running} (move : Move) (told : Told worker spawned running) :
    Told worker spawned (advance platform worker spawned running move) := by
  have other {next : Running} (main : next.main = running.main)
      (stdout : next.stdout = running.stdout)
      (prestart : next.prestartNoChild = running.prestartNoChild)
      (printed : next.printed = running.printed) : Told worker spawned next := by
    cases told with
    | nothing out receipt line =>
      exact .nothing (stdout.trans out) (prestart.trans receipt) (printed.trans line)
    | prestart ended out receipt line =>
      exact .prestart (main.trans ended) (stdout.trans out) (prestart.trans receipt)
        (printed.trans line)
    | receipt ended out receipt actions line =>
      exact .receipt (main.trans ended) (stdout.trans out) (prestart.trans receipt) actions
        (printed.trans line)
  cases move with
  | thread action =>
    rw [advance]
    split <;> exact other rfl rfl rfl rfl
  | rollbackFrame =>
    rw [advance]
    split <;> exact other rfl rfl rfl rfl
  | shutdown =>
    rw [advance]
    split <;> exact other rfl rfl rfl rfl
  | main answers => exact mainStep_told answers told

/-- All moves tell nothing but what was seen. -/
theorem moved_told (moves : List Move) :
    Told worker spawned (moved platform worker spawned moves) :=
  run_preserves (fun _ move before => advance_told move before) _ moves (.nothing rfl rfl rfl)

end Told

/-! ## What the daemon reads -/

/-- The code unit of `p`, which stands in the key of the number and nowhere before it. -/
def letterP : UInt16 := 112

/-- The units of the key. -/
theorem pidKey_eq : pidKey = [34, letterP, 105, 100, 34, 58] := by decide

/-- A receipt that was read lies in what was read. -/
theorem readReceipt_inside {token output found : JsString} {chunks : List JsString}
    (read : readReceipt token output chunks = some found) :
    receiptMark token <:+: output ++ chunks.flatten := by
  induction chunks generalizing output with
  | nil => exact nomatch read
  | cons chunk rest inductionHypothesis =>
    rw [readReceipt] at read
    rw [List.flatten_cons, ← List.append_assoc]
    split at read
    next inside => exact (of_decide_eq_true inside).trans (List.prefix_append _ _).isInfix
    · exact inductionHypothesis read

/-- The ready line holds no receipt. -/
theorem ready_unmarked (token : JsString) : ¬ receiptMark token <:+: readyLine := by
  intro inside
  -- The code unit of `k`
  have marked : 107 ∈ receiptMark token := by
    rw [receiptMark, List.append_assoc]
    exact List.mem_append_left _ (by decide)
  exact absurd (inside.subset marked) (by decide)

/-- Up to a text without `p`, the key of the number does not begin. -/
theorem pidIn_skip {before rest : JsString} (without : letterP ∉ before) :
    pidIn (before ++ 34 :: rest) = pidIn (34 :: rest) := by
  induction before with
  | nil => rfl
  | cons unit others inductionHypothesis =>
    obtain ⟨_, later⟩ := List.ne_and_not_mem_of_not_mem_cons without
    have apart : pidKey.isPrefixOf (unit :: (others ++ 34 :: rest)) = false := by
      rw [Bool.eq_false_iff, ne_eq, List.isPrefixOf_iff_prefix, pidKey_eq]
      rintro ⟨_, same⟩
      have second := congrArg (fun text => text[1]?) same
      cases others with
      | nil =>
        have quote : letterP = 34 := Option.some.inj second
        exact absurd quote (by decide)
      | cons next _ =>
        have next : letterP = next := by simpa using second
        exact (List.ne_and_not_mem_of_not_mem_cons later).1 next
    rw [List.cons_append, pidIn, apart, Bool.false_and, if_neg Bool.false_ne_true,
      inductionHypothesis later]

/-- The digits after the key are the number. -/
theorem pidIn_key (pid : Nat) (rest : JsString) (stops : rest.head?.any isDigit = false) :
    pidIn (pidKey ++ encode (digits pid) ++ rest) = some pid := by
  have all : ∀ digit ∈ digits pid, digit.isDigit = true := fun _ member => toDigits_digits member
  have units : ∀ unit ∈ encode (digits pid), isDigit unit = true :=
    List.all_eq_true.mp (encode_digits all).2
  have stop : rest.takeWhile isDigit = [] := by
    cases rest with
    | nil => rfl
    | cons unit rest => rw [List.takeWhile_cons, show isDigit unit = false from stops]; rfl
  have found : ((pidKey ++ encode (digits pid) ++ rest).drop pidKey.length).takeWhile isDigit =
      encode (digits pid) := by
    rw [List.append_assoc, List.drop_left, List.takeWhile_append_of_pos units, stop,
      List.append_nil]
  have nonempty : encode (digits pid) ≠ [] := by
    rw [ne_eq, encode_eq_nil]
    exact Nat.toDigits_ne_nil
  have value : numberOf (encode (digits pid)) = pid := by
    rw [numberOf, digits_encoded all]
    exact Nat.ofDigitChars_ten_toDigits
  have begins : pidKey.isPrefixOf (pidKey ++ encode (digits pid) ++ rest) = true := by
    rw [List.isPrefixOf_iff_prefix, List.append_assoc]
    exact List.prefix_append _ _
  obtain ⟨unit, text, whole⟩ :=
    List.exists_cons_of_ne_nil (show pidKey ++ encode (digits pid) ++ rest ≠ [] by
      simp [nonempty])
  rw [whole] at found begins ⊢
  rw [pidIn, begins, found, value]
  simp [nonempty]

section Read

variable {worker : WorkerProcess} {spawned : Spawned}

/-- A token is written in hexadecimal digits. -/
theorem token_without : letterP ∉ worker.controlToken := by
  intro inside
  have shape := worker.token
  simp only [generated, Bool.and_eq_true, List.all_eq_true] at shape
  obtain ⟨_, hexadecimal⟩ := shape
  have ascii : ∀ digit ∈ worker.bootstrap.workerControlToken, digit.toNat < 128 := by
    intro digit member
    have range := hexadecimal digit member
    simp only [Char.isDigit, Bool.or_eq_true, Bool.and_eq_true, decide_eq_true_eq,
      Char.le_def, UInt32.le_iff_toNat_le] at range
    rcases range with ⟨_, decimal⟩ | ⟨_, letter⟩
    · have high : digit.toNat ≤ 57 := decimal
      omega
    · have high : digit.toNat ≤ 102 := letter
      omega
  have letter : 'p' ∈ worker.bootstrap.workerControlToken := by
    rw [← encode_ascii ascii]
    exact List.mem_map.mpr ⟨letterP, inside, by decide⟩
  exact absurd (hexadecimal 'p' letter) (by decide)

/-- The line holds a receipt. -/
theorem line_marked : receiptMark worker.controlToken <:+: receiptLine worker spawned := by
  refine ⟨js "\x7b", js ",\"pid\":" ++ encode (digits spawned.containment.rootPid) ++
    js "\x7d\n", ?_⟩
  have front : js "\x7b\"rollback\":true,\"token\":\"" =
      js "\x7b" ++ js "\"rollback\":true,\"token\":\"" := by decide
  have key : js "\",\"pid\":" = js "\"" ++ js ",\"pid\":" := by decide
  rw [receiptLine, receiptMark, front, key]
  simp only [List.append_assoc]

/-- The line names the child. -/
theorem line_pid : pidIn (receiptLine worker spawned) = some spawned.containment.rootPid := by
  have key : js "\",\"pid\":" = js "\"," ++ pidKey := by decide
  have quote : pidKey = 34 :: pidKey.tail := by decide
  have split : receiptLine worker spawned =
      (js "\x7b\"rollback\":true,\"token\":\"" ++ worker.controlToken ++ js "\",") ++
        (pidKey ++ encode (digits spawned.containment.rootPid) ++ js "\x7d\n") := by
    rw [receiptLine, key]
    simp only [List.append_assoc]
  have without : letterP ∉
      js "\x7b\"rollback\":true,\"token\":\"" ++ worker.controlToken ++ js "\"," := by
    simp only [List.mem_append, not_or]
    exact ⟨⟨by decide, token_without⟩, by decide⟩
  have found := pidIn_key spawned.containment.rootPid (js "\x7d\n") (by decide)
  rw [quote] at found split
  rw [split]
  exact (pidIn_skip without).trans found

/-- The daemon that reads the line of the receipt takes the termination for confirmed. -/
theorem rollback_line (fingerprint : JsString → JsString) (files : WorkerFiles) :
    (rollback fingerprint worker true none [receiptLine worker spawned] files).terminationConfirmed =
      true := by
  have read : readReceipt worker.controlToken [] [receiptLine worker spawned] =
      some (receiptLine worker spawned) := if_pos (decide_eq_true line_marked)
  have safe : spawned.containment.rootPid ≤ maxSafeInteger := by
    have small := spawned.small
    unfold maxSafeInteger
    omega
  simp [rollback, read, line_pid, spawned.positive, safe]

end Read

/-! ## Evidence -/

section Evidence

variable (fingerprint : JsString → JsString) (platform : Platform) (worker : WorkerProcess)
  (spawned : Spawned) (running : Running)

/-- What the daemon finds: a part of the output, and no file that the worker has not written. -/
structure Finds (chunks : List JsString) (files : WorkerFiles) : Prop where
  stdout : chunks.flatten <:+: running.stdout
  prestart : files.prestartNoChild = none ∨ files.prestartNoChild = running.prestartNoChild

/-- The worker has written a verified receipt that it never started a child. -/
def PrestartVerified : Prop :=
  running.prestartNoChild.any (verifiedPrestartNoChildReceipt fingerprint ·
    (worker.reference fingerprint none)) = true

/-- When the worker printed the rollback receipt, its child had exited and its termination was
confirmed. -/
def Backed : Prop :=
  ∃ actions, running.printed = some actions ∧ (reached platform spawned actions).child ≠ .running ∧
    (reached platform spawned actions).state.rootExited = true ∧
    (reached platform spawned actions).state.terminationConfirmed = true

/-- Every rollback that returns that the termination is confirmed has evidence of it. -/
def EvidenceBacked : Prop :=
  ∀ (owned : Bool) (controlFailure : Option JsString) (chunks : List JsString)
    (files : WorkerFiles), Finds running chunks files →
      (rollback fingerprint worker owned controlFailure chunks files).terminationConfirmed = true →
        PrestartVerified fingerprint worker running ∨ Backed platform spawned running

variable {fingerprint platform worker spawned running}

/-- A rollback is backed where the printed line was printed after the end. -/
theorem backed_iff : Backed platform spawned running ↔ ∃ actions, running.printed = some actions ∧
    Concluded platform (start spawned.reporter spawned.containment) actions := by
  simp only [concluded_iff]
  constructor
  · rintro ⟨actions, printed, _, _, confirmed⟩
    exact ⟨actions, printed, confirmed⟩
  · rintro ⟨actions, printed, confirmed⟩
    have recorded := run_recorded platform spawned.reporter spawned.containment actions
    have exited := recorded.confirmed confirmed
    refine ⟨actions, printed, ?_, exited, confirmed⟩
    rw [reached, recorded.recorded exited]
    exact nofun

/-- A rollback confirms with a receipt that was printed, or with a prestart receipt. -/
theorem confirmed_cases {owned : Bool} {controlFailure : Option JsString}
    {chunks : List JsString} {files : WorkerFiles} (told : Told worker spawned running)
    (finds : Finds running chunks files)
    (confirmed : (rollback fingerprint worker owned controlFailure chunks files).terminationConfirmed =
      true) :
    PrestartVerified fingerprint worker running ∨ ∃ actions, running.printed = some actions := by
  cases owned with
  | false => cases confirmed
  | true =>
    cases read : readReceipt worker.controlToken [] chunks with
    | some output =>
      have marked := (readReceipt_inside read).trans finds.stdout
      right
      cases told with
      | nothing stdout prestart printed =>
        rw [stdout] at marked
        exact absurd marked (ready_unmarked _)
      | prestart ended stdout prestart printed =>
        rw [stdout] at marked
        exact absurd marked (ready_unmarked _)
      | receipt ended stdout prestart actions printed => exact ⟨actions, printed⟩
    | none =>
      left
      simp only [rollback, read, Bool.not_true, Bool.false_eq_true, if_false] at confirmed
      split at confirmed
      next verified =>
        rw [hasVerifiedPrestartNoChildReceipt] at verified
        rcases finds.prestart with absent | written
        · rw [absent] at verified
          cases verified
        · rw [written] at verified
          exact verified
      · cases confirmed

/-- When a receipt was printed, the daemon can read it, and has evidence of nothing else. -/
theorem backed_of_printed {actions : List Action} (told : Told worker spawned running)
    (printed : running.printed = some actions)
    (backed : EvidenceBacked fingerprint platform worker spawned running) :
    Backed platform spawned running := by
  cases told with
  | nothing _ _ unprinted => exact nomatch unprinted.symm.trans printed
  | prestart _ _ _ unprinted => exact nomatch unprinted.symm.trans printed
  | receipt _ stdout prestart _ _ =>
    have finds : Finds running [receiptLine worker spawned] ⟨none, none, none⟩ := by
      refine ⟨?_, .inl rfl⟩
      rw [stdout, List.flatten_singleton]
      exact (List.suffix_append _ _).isInfix
    rcases backed true none _ _ finds (rollback_line fingerprint _) with verified | evidence
    · rw [PrestartVerified, prestart] at verified
      exact nomatch verified
    · exact evidence

/-- In every run of the worker, whatever its threads do and its scans find: every rollback that
confirms the termination has evidence of it if and only if the last report that a thread turned
into the verdict before the receipt was printed is conclusive. -/
theorem rollback_backed_iff (fingerprint : JsString → JsString) (platform : Platform)
    (worker : WorkerProcess) (spawned : Spawned) (moves : List Move) :
    EvidenceBacked fingerprint platform worker spawned (moved platform worker spawned moves) ↔
      ∀ actions, (moved platform worker spawned moves).printed = some actions →
        Concluded platform (start spawned.reporter spawned.containment) actions := by
  have told : Told worker spawned (moved platform worker spawned moves) := moved_told moves
  constructor
  · intro backed actions printed
    obtain ⟨others, same, concluded⟩ := backed_iff.mp (backed_of_printed told printed backed)
    rw [printed] at same
    rw [Option.some.inj same]
    exact concluded
  · intro concluded owned controlFailure chunks files finds confirmed
    rcases confirmed_cases told finds confirmed with verified | ⟨actions, printed⟩
    · exact .inl verified
    · exact .inr (backed_iff.mpr ⟨actions, printed, concluded actions printed⟩)

end Evidence

/-- A worker whose child has the process id ten. -/
def spawnedTen : Spawned := ⟨execReporter, childOfTen, by decide, by decide⟩

/-- The child has a child of its own in its session. -/
def parentLook : Look :=
  ⟨⟨0, 0⟩, some ⟨[⟨10, 1, 10, 10, ['5']⟩, ⟨12, 10, 10, 10, ['9']⟩], []⟩, none⟩

/-- Only the child of the child is left. -/
def orphanLook : Look := ⟨⟨1, 0⟩, some ⟨[⟨12, 1, 10, 10, ['9']⟩], []⟩, none⟩

/-- A look that finds no process. -/
def emptyLook : Look := ⟨⟨1, 0⟩, some ⟨[], []⟩, none⟩

/-- The main thread takes a step, and looks at the processes where it does. -/
def mainLooks (look : Look) : Move := .main ⟨true, true, false, look, none, ⟨1, 0⟩, 5, none⟩

/-- The child is started and rolled back. It ends at the first signal, the monitor records its
exit and looks at the processes, and so does the main thread after its waits. -/
def rollbackRun (look : Look) : List Move :=
  [mainLooks parentLook, .rollbackFrame, .shutdown, mainLooks parentLook, mainLooks parentLook,
    mainLooks parentLook, mainLooks parentLook, .thread .childExits, .thread .reap,
    .thread (.recordExit ⟨none, some 15⟩ ⟨1, 0⟩ 5), .thread (.takeReport look),
    .thread (.refresh 1), mainLooks look, mainLooks look, mainLooks look, mainLooks look,
    mainLooks look]

/-- A rollback after which nothing is left. -/
theorem rollback_backed_empty :
    (moved .linux listener spawnedTen (rollbackRun emptyLook)).printed.isSome = true ∧
      EvidenceBacked digestOf .linux listener spawnedTen
        (moved .linux listener spawnedTen (rollbackRun emptyLook)) := by
  refine ⟨by decide, ?_⟩
  apply (rollback_backed_iff digestOf .linux listener spawnedTen (rollbackRun emptyLook)).mpr
  intro actions printed
  rw [← Option.some.inj printed]
  decide

/-- The child of the child outlives the waits, and the daemon takes the receipt for the proof
that nothing is left. -/
theorem rollback_orphan :
    ¬ ∀ (fingerprint : JsString → JsString) (platform : Platform) (worker : WorkerProcess)
        (spawned : Spawned) (moves : List Move),
      EvidenceBacked fingerprint platform worker spawned
        (moved platform worker spawned moves) := by
  intro backed
  have unconfirmed : ((moved .linux listener spawnedTen (rollbackRun orphanLook)).printed.map
      fun actions => (reached .linux spawnedTen actions).state.terminationConfirmed) =
        some false := by
    decide
  obtain ⟨actions, printed, denied⟩ := Option.map_eq_some_iff.mp unconfirmed
  obtain ⟨others, same, _, _, confirmed⟩ := backed_of_printed (moved_told _) printed
    (backed digestOf .linux listener spawnedTen (rollbackRun orphanLook))
  rw [printed] at same
  rw [Option.some.inj same, confirmed] at denied
  exact nomatch denied

end OpencodePty.RollbackReceipts
