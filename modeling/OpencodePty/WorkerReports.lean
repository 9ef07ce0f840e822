import OpencodePty.Redaction
import OpencodePty.WorkerJournal

/-!
# What the worker reports about its output

Beside the journal the worker keeps the errors of its readers and up to four diagnostics for
the daemon. A diagnostic is cut to 512 characters and then redacted. A worker with a Windows
terminal keeps three, since its snapshot adds one about the terminal.

A failed file operation leaves its error in the state of the journal, and a diagnostic. The
daemon takes the counters and the diagnostics of a snapshot into the record of the session.
-/

namespace OpencodePty.WorkerReports

open OpencodePty.Redaction OpencodePty.WorkerJournal

/-! ## The diagnostic of a Windows terminal -/

/-- The outcome of the last operation on a terminal. -/
inductive IoStatus where
  | pending
  | none
  | ok
  | eof
  | zeroBytes
  | error (code : Int32)

inductive ReaderOutcome where
  | pending
  | eof
  | error

structure WindowsPtyDiagnostic where
  hpconNonzero : Bool
  readerStarted : Bool
  readerReads : UInt64
  readerBytes : UInt64
  readerLastBytes : Option UInt64
  readerLastStatus : IoStatus
  readerOutcome : ReaderOutcome
  writeCalls : UInt64
  writeBytes : UInt64
  writeLastStatus : IoStatus
  directChildExitObserved : Bool
  jobEmptyObserved : Bool
  terminalReleaseInvoked : Bool
  releaseReaderActive : Option Bool
  releaseOutputBytes : Option UInt64

def digits (number : Nat) : List Char := Nat.toDigits 10 number

/-- An integer in decimals. -/
def signed (number : Int) : List Char :=
  if number < 0 then '-' :: digits number.natAbs else digits number.natAbs

def IoStatus.text : IoStatus → List Char
  | .pending => "pending".toList
  | .none => "none".toList
  | .ok => "ok".toList
  | .eof => "eof".toList
  | .zeroBytes => "zero_bytes".toList
  | .error code => "error:".toList ++ signed code.toInt

def ReaderOutcome.text : ReaderOutcome → List Char
  | .pending => "pending".toList
  | .eof => "eof".toList
  | .error => "error".toList

/-- The JSON of a flag. -/
def flag (value : Bool) : List Char := if value then "true".toList else "false".toList

/-- The JSON of a number. -/
def count (value : UInt64) : List Char := digits value.toNat

/-- The JSON of a value that may be missing. -/
def nullable {α : Type} (json : α → List Char) : Option α → List Char
  | some value => json value
  | none => "null".toList

/-- The JSON of a text without characters to escape. -/
def quoted (text : List Char) : List Char := '"' :: text ++ ['"']

/-- A member of an object in JSON. -/
def member (key : String) (value : List Char) : List Char := quoted key.toList ++ ':' :: value

/-- The members of the object that stands for a diagnostic. -/
def WindowsPtyDiagnostic.members (diagnostic : WindowsPtyDiagnostic) : List (List Char) :=
  [member "hpconNonzero" (flag diagnostic.hpconNonzero),
    member "readerStarted" (flag diagnostic.readerStarted),
    member "readerReads" (count diagnostic.readerReads),
    member "readerBytes" (count diagnostic.readerBytes),
    member "readerLastBytes" (nullable count diagnostic.readerLastBytes),
    member "readerLastStatus" (quoted diagnostic.readerLastStatus.text),
    member "readerOutcome" (quoted diagnostic.readerOutcome.text),
    member "writeCalls" (count diagnostic.writeCalls),
    member "writeBytes" (count diagnostic.writeBytes),
    member "writeLastStatus" (quoted diagnostic.writeLastStatus.text),
    member "directChildExitObserved" (flag diagnostic.directChildExitObserved),
    member "jobEmptyObserved" (flag diagnostic.jobEmptyObserved),
    member "terminalReleaseInvoked" (flag diagnostic.terminalReleaseInvoked),
    member "releaseReaderActive" (nullable flag diagnostic.releaseReaderActive),
    member "releaseOutputBytes" (nullable count diagnostic.releaseOutputBytes)]

/-- `serde_json::to_string` of a diagnostic. -/
def WindowsPtyDiagnostic.json (diagnostic : WindowsPtyDiagnostic) : List Char :=
  '{' :: [','].intercalate diagnostic.members ++ ['}']

/-! ## The worker -/

/-- A worker with what it reports about its output. -/
structure Reporter where
  worker : Worker
  secrets : List (List Char)
  stdoutReaderError : Option (List Char)
  stderrReaderError : Option (List Char)
  outputIncomplete : Bool
  diagnostics : List (List Char)
  windowsPtyDiagnostic : Option WindowsPtyDiagnostic

/-- How many diagnostics are kept. -/
def Reporter.limit (reporter : Reporter) : Nat :=
  if reporter.windowsPtyDiagnostic.isSome then 3 else 4

/-- `push_diagnostic` -/
def Reporter.pushDiagnostic (reporter : Reporter) (message : List Char) : Reporter :=
  if reporter.diagnostics.length < reporter.limit then
    { reporter with
      diagnostics := reporter.diagnostics ++ [redact (message.take 512) reporter.secrets] }
  else reporter

/-- The text of a reader error. -/
def readerMessage (stdout : Bool) (error : List Char) : List Char :=
  (if stdout then "stdout".toList else "stderr".toList) ++ " reader error: ".toList ++ error

/-- `mark_reader_failure` -/
def Reporter.markReaderFailure (reporter : Reporter) (stdout : Bool) (error : List Char) :
    Reporter :=
  let diagnostic := readerMessage stdout error
  let marked :=
    if stdout then { reporter with stdoutReaderError := some diagnostic }
    else { reporter with stderrReaderError := some diagnostic }
  { marked with outputIncomplete := true }.pushDiagnostic diagnostic

/-- The text of a failed file operation. -/
def storageMessage (error : List Char) : List Char := "output storage failure: ".toList ++ error

/-- `append_output` with the diagnostic of a file operation that fails in the call. -/
def Reporter.appendOutput (reporter : Reporter) (call : Call) : Option Reporter := do
  let next ← WorkerJournal.appendOutput reporter.worker call
  let appended := { reporter with worker := next }
  match reporter.worker.state.storageFailure, next.state.storageFailure with
  | none, some error => return appended.pushDiagnostic (storageMessage error)
  | _, _ => return appended

/-- What the readers of the worker do. -/
inductive Action where
  | append (call : Call)
  | readerFailure (stdout : Bool) (error : List Char)

/-- One action; a panic is no result. -/
def Reporter.act (reporter : Reporter) : Action → Option Reporter
  | .append call => reporter.appendOutput call
  | .readerFailure stdout error => some (reporter.markReaderFailure stdout error)

/-- The actions in order. -/
def Reporter.actAll (reporter : Reporter) : List Action → Option Reporter
  | [] => some reporter
  | action :: rest => do
    let next ← reporter.act action
    next.actAll rest

/-- The diagnostics of a snapshot. -/
def Reporter.snapshotDiagnostics (reporter : Reporter) (jobEmpty : Bool) : List (List Char) :=
  match reporter.windowsPtyDiagnostic with
  | some diagnostic =>
    reporter.diagnostics ++
      [{ diagnostic with jobEmptyObserved := diagnostic.jobEmptyObserved || jobEmpty }.json]
  | none => reporter.diagnostics

/-- `outputBytes` of the record, from a snapshot. -/
def outputBytes (worker : Worker) : Nat :=
  match worker.mode with
  | .exec => worker.state.stdoutBytes + worker.state.stderrBytes
  | .pty => worker.state.nextSequence - worker.state.firstRetainedSequence

/-- A worker before any output, with its secrets and, on Windows, the diagnostic of its
terminal. -/
def started (mode : Mode) (maxOutputBytes : Nat) (secrets : List (List Char))
    (windowsPtyDiagnostic : Option WindowsPtyDiagnostic) : Reporter where
  worker := WorkerJournal.started mode maxOutputBytes
  secrets := secrets
  stdoutReaderError := none
  stderrReaderError := none
  outputIncomplete := false
  diagnostics := []
  windowsPtyDiagnostic := windowsPtyDiagnostic

end OpencodePty.WorkerReports
