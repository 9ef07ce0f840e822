import Mathlib.Logic.Function.Basic
import OpencodePty.SessionCodec

/-!
# Loading the sessions of a daemon

At its start the daemon reads every session directory: it decodes the metadata, compares the
record with the output journal, imports the output file of an old record, drops the chunks
that retention has given up, and writes the metadata again where they changed. A directory
that cannot be read is moved away, one that is not supported is left as it is, and an error of
any other kind fails the load of all sessions.

All file operations succeed here. A call for one directory builds its paths from the id of
the record that it decoded. The directories are read one after the other, although the source
interleaves the calls.
-/

namespace OpencodePty.SessionLoading

open OpencodePty.JsValues OpencodePty.Lifecycle OpencodePty.RecordChecks OpencodePty.OutputJournal
  OpencodePty.SessionCodec

/-- The files of a session directory: the parsed content of `session.json`, which may be
missing and may be no JSON, the chunk files, and the text of `output.log`. -/
structure SessionFiles where
  metadata : Option (Option Js)
  output : Directory
  legacyOutput : Option (List Char)

/-- A directory that does not exist is read like one without files. -/
def SessionFiles.missing : SessionFiles := ⟨none, [], none⟩

/-- The session directories, by name. -/
abbrev Storage := JsString → Option SessionFiles

/-- Why a directory is moved to the quarantine. -/
inductive Corruption where
  | metadata
  | journal (error : JournalError)
  deriving DecidableEq

def Corruption.reason : Corruption → String
  | .metadata => "malformed metadata"
  | .journal error => "corrupt output journal: " ++ error.message

/-- What becomes of a directory. A directory without metadata is passed over. -/
inductive Outcome where
  | absent
  | returned (record : SessionRecord)
  | unsupported (reason : Unsupported)
  | quarantined (reason : Corruption)
  | rejected (error : WriteError)

/-! ## The journal of a record -/

def chunkJson (chunk : OutputChunk) : Js :=
  record [("startSequence", some (.int chunk.startSequence)),
    ("endSequence", some (.int chunk.endSequence)),
    ("timestamp", some (.str chunk.timestamp)), ("data", some (.str chunk.data))]

/-- `appendOutput` of one chunk to a journal that was not written before. -/
def appendOutput (directory : Directory) (chunk : OutputChunk) : Directory :=
  (directory.filter fun file => file.1 != chunkName chunk.startSequence) ++
    [(chunkName chunk.startSequence, some (chunkJson chunk))]

/-- The chunk that holds the output of an old record. -/
def legacyChunk (record : SessionRecord) (output : List Char) : OutputChunk :=
  let startSequence := number (record.read "firstRetainedSequence")
  { startSequence := startSequence
    endSequence := startSequence + byteLength (encode output)
    timestamp := (text (record.read "updatedAt")).getD []
    data := encode output }

/-- The journal of the record ends where its metadata say. The journal of an exec session is
not compared. -/
def cursorMatches (record : SessionRecord) (chunks : List OutputChunk) : Bool :=
  isText (record.read "mode") "exec" ||
    chunks.getLast?.all fun last => last.endSequence == number (record.read "nextSequence")

/-- The files without those of the given chunks. -/
def removeChunks (directory : Directory) (chunks : List OutputChunk) : Directory :=
  directory.filter fun file => !chunks.any fun chunk => file.1 == chunkName chunk.startSequence

variable (dateParse : JsString → Option Int)

/-- `discardOutputBefore` -/
def discardOutputBefore (directory : Directory) (sequence : Nat) :
    Except JournalError Directory := do
  let chunks ← readOutputChunks dateParse directory
  return removeChunks directory (chunks.filter fun chunk => chunk.endSequence ≤ sequence)

/-- The journal of a record. The output of an old record is imported where it has no journal
yet. -/
def importOutput (record : SessionRecord) (importLegacyOutput : Bool) (files : SessionFiles) :
    Except JournalError (Directory × List OutputChunk) := do
  let chunks ← readOutputChunks dateParse files.output
  if !(importLegacyOutput && chunks.isEmpty) then return (files.output, chunks)
  else
    match files.legacyOutput with
    | none | some [] => return (files.output, chunks)
    | some output =>
      let written := appendOutput files.output (legacyChunk record output)
      return (written, ← readOutputChunks dateParse written)

/-- The journal of a record with the chunks that it retains: the part of `migrateSession`
before the metadata are reconciled. -/
def retainOutput (record : SessionRecord) (importLegacyOutput : Bool) (files : SessionFiles) :
    Except JournalError (Directory × List OutputChunk) := do
  let (directory, chunks) ← importOutput dateParse record importLegacyOutput files
  if !cursorMatches record chunks then throw .cursor
  if isInt (record.read "outputJournalVersion") 2 && truthy (record.read "outputTruncated") then
    let retained ← discardOutputBefore dateParse directory
      (number (record.read "firstRetainedSequence"))
    let chunks ← readOutputChunks dateParse retained
    if !cursorMatches record chunks then throw .retainedCursor
    return (retained, chunks)
  else return (directory, chunks)

/-! ## Reconciled metadata -/

/-- The metadata with the given fields in place of those of the same names. -/
def Metadata.update (metadata : Metadata) (changes : List (String × Js)) : Metadata :=
  .among (override metadata.fields changes)

/-- The sequence number of the first retained byte. -/
def firstRetained (record : SessionRecord) (chunks : List OutputChunk) : Nat :=
  (chunks.head?.map OutputChunk.startSequence).getD (number (record.read "nextSequence"))

/-- The sequence number of the next byte. -/
def nextByte (record : SessionRecord) (chunks : List OutputChunk) : Nat :=
  max (number (record.read "nextSequence"))
    ((chunks.getLast?.map OutputChunk.endSequence).getD (firstRetained record chunks))

/-- The fields of a record that describe its journal. -/
def journalFields (record : SessionRecord) (chunks : List OutputChunk) : List (String × Js) :=
  let output := joined chunks
  [("nextSequence", .int (nextByte record chunks)),
    ("firstRetainedSequence", .int (firstRetained record chunks)),
    ("outputBytes", .int (byteLength output)),
    ("outputTruncated", .bool (0 < firstRetained record chunks)),
    ("lineCount", .int (lineCount output)),
    ("outputHasPartialLine", .bool (hasPartialLine output)),
    ("outputJournalVersion", .int 2)]

/-- `reconcileSession` -/
def reconcileSession (record : SessionRecord) (chunks : List OutputChunk) : SessionRecord :=
  { record with
    metadata := Metadata.update record.metadata
      (if isText (record.read "mode") "exec" then [("outputJournalVersion", .int 2)]
      else journalFields record chunks) }

/-- The fields that `sameJournalState` compares. -/
def journalFieldNames : List String :=
  ["nextSequence", "firstRetainedSequence", "outputBytes", "outputTruncated", "lineCount",
    "outputHasPartialLine", "outputJournalVersion"]

/-- `sameJournalState` -/
def sameJournalState (left right : SessionRecord) : Bool :=
  journalFieldNames.all fun key => same (left.read key) (right.read key)

/-! ## Migration -/

variable (darwin : Bool)

/-- What a migration leaves: the files, and the record or the error of the refused write. -/
abbrev Migration := SessionFiles × Except WriteError SessionRecord

/-- The metadata of a migrated record are written where they changed. -/
def writeMigrated (decoded : DecodedSession) (files : SessionFiles) (migrated : SessionRecord) :
    Migration :=
  if decoded.forceMetadataWrite || !sameJournalState decoded.record migrated then
    match writeSession dateParse darwin migrated with
    | .error error => (files, .error error)
    | .ok (written, persisted) => ({ files with metadata := some (some persisted) }, .ok written)
  else (files, .ok migrated)

/-- The removal of an old output file, and of the note that it is still to be removed. An
error of the write is caught, after the record was refreshed. -/
def removeLegacy (files : SessionFiles) (record : SessionRecord) : SessionFiles × SessionRecord :=
  let files := { files with legacyOutput := none }
  if truthy record.flat.legacyOutputCleanupPending then
    let cleared := { record with flat := { record.flat with legacyOutputCleanupPending := none } }
    match writeSession dateParse darwin cleared with
    | .ok (written, persisted) => ({ files with metadata := some (some persisted) }, written)
    | .error _ => (files, cleared.refreshed darwin)
  else (files, record)

/-- The old output is removed after the metadata are durable. -/
def settleLegacy (decoded : DecodedSession) : Migration → Migration
  | (files, .error error) => (files, .error error)
  | (files, .ok record) =>
    if decoded.removeLegacyOutput then
      let (files, record) := removeLegacy dateParse darwin files record
      (files, .ok record)
    else (files, .ok record)

/-- `migrateSession` -/
def migrateSession (decoded : DecodedSession) (files : SessionFiles) :
    Except JournalError Migration := do
  let (directory, chunks) ← retainOutput dateParse decoded.record decoded.importLegacyOutput files
  return settleLegacy dateParse darwin decoded (writeMigrated dateParse darwin decoded
    { files with output := directory } (reconcileSession decoded.record chunks))

variable (realpath : JsString → Option JsString)

/-- What follows from a migration of the record in directory `place` that was read from
directory `id`. A directory in quarantine is no session directory any more. -/
def concludeMigration (storage : Storage) (id place : JsString) :
    Except JournalError Migration → Storage × Outcome
  | .error error => (Function.update storage id none, .quarantined (.journal error))
  | .ok (files, .error error) => (Function.update storage place (some files), .rejected error)
  | .ok (files, .ok record) => (Function.update storage place (some files), .returned record)

/-- `readSession` -/
def readSession (storage : Storage) (id : JsString) : Storage × Outcome :=
  match (storage id).bind SessionFiles.metadata with
  | none => (storage, .absent)
  | some none => (Function.update storage id none, .quarantined .metadata)
  | some (some source) =>
    match decodeSession dateParse darwin realpath source id with
    | .error .typeError => (storage, .rejected .typeError)
    | .error .invalid => (Function.update storage id none, .quarantined .metadata)
    | .error (.unsupported reason) => (storage, .unsupported reason)
    | .ok decoded =>
      let place := decoded.record.id
      concludeMigration storage id place
        (migrateSession dateParse darwin decoded ((storage place).getD .missing))

/-- The calls of `readSession` for all directories. -/
def readSessions (storage : Storage) : List JsString → Storage × List Outcome
  | [] => (storage, [])
  | id :: rest =>
    let (next, outcome) := readSession dateParse darwin realpath storage id
    let (last, outcomes) := readSessions next rest
    (last, outcome :: outcomes)

def Outcome.rejection : Outcome → Option WriteError
  | .rejected error => some error
  | _ => none

def Outcome.record : Outcome → Option SessionRecord
  | .returned record => some record
  | _ => none

/-- `loadSessions`: the records that were returned, or the first error. -/
def loadSessions (storage : Storage) (ids : List JsString) :
    Storage × Except WriteError (List SessionRecord) :=
  let (last, outcomes) := readSessions dateParse darwin realpath storage ids
  (last, match outcomes.findSome? Outcome.rejection with
    | some error => .error error
    | none => .ok (outcomes.filterMap Outcome.record))

end OpencodePty.SessionLoading
