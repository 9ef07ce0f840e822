import OpencodePty.OutputJournal

/-!
# The output journal as the worker writes it

The worker appends the output of its child to a journal of chunks, in memory and on disk.
In exec mode it keeps output up to a limit and cuts the rest off between two characters; in
pty mode it keeps all new output and then drops whole chunks from the front, down to the
limit. Small pieces are joined into one chunk.

Output is appended under a lock, one piece after the other. A write or a removal of a file
can fail with the text of an error. Indexing inside a character and removing from an empty
list panic, which is no result. Sequence numbers are natural numbers; no result below
depends on them beyond the integers that the daemon accepts, so that none of them wraps.
What the worker keeps for other purposes, its diagnostics among it, is left out.
-/

namespace OpencodePty.WorkerJournal

open OpencodePty.JsValues OpencodePty.TextEncodings OpencodePty.Timestamps

inductive Mode where
  | pty
  | exec
  deriving DecidableEq

structure JournalChunk where
  startSequence : Nat
  endSequence : Nat
  timestamp : List Char
  data : List Char
  deriving DecidableEq

/-- The part of the state of a worker that output changes. -/
structure State where
  stdout : List Char
  stderr : List Char
  stdoutBytes : Nat
  stderrBytes : Nat
  stdoutTruncated : Bool
  stderrTruncated : Bool
  nextSequence : Nat
  firstRetainedSequence : Nat
  outputTruncated : Bool
  retainedBytes : Nat
  retainedNewlines : Nat
  chunks : List JournalChunk
  exitReason : Option (List Char)
  storageFailure : Option (List Char)

/-- A worker and the files of its output directory, by name, with the JSON values that they
hold. -/
structure Worker where
  mode : Mode
  maxOutputBytes : Nat
  state : State
  files : List (List Char × Js)

/-- The errors of the file operations in a call. -/
structure Disk where
  write : Option (List Char)
  remove : List Char → Option (List Char)

/-- A disk on which every operation succeeds. -/
def Disk.working : Disk := ⟨none, fun _ => none⟩

/-- A call of `append_output`, with the clock during the call. -/
structure Call where
  stdout : Bool
  data : List Char
  clock : Clock
  disk : Disk

/-- The JSON of a chunk. -/
def JournalChunk.json (chunk : JournalChunk) : Js :=
  .obj [("startSequence", .int chunk.startSequence), ("endSequence", .int chunk.endSequence),
    ("timestamp", .str (encode chunk.timestamp)), ("data", .str (encode chunk.data))]

/-- The name of the file of a chunk: `format!("{:020}.json", start_sequence)`. -/
def fileName (startSequence : Nat) : List Char := padded 20 startSequence ++ ".json".toList

/-- `write_atomic`: the file is replaced, or a new one added. -/
def writeFile (files : List (List Char × Js)) (name : List Char) (content : Js) :
    List (List Char × Js) :=
  if files.any (fun file => file.1 == name) then
    files.map fun file => if file.1 == name then (name, content) else file
  else files ++ [(name, content)]

/-- `remove_file` -/
def removeFile (files : List (List Char × Js)) (name : List Char) : List (List Char × Js) :=
  files.filter fun file => file.1 != name

/-- The loop that moves a cut to the left until no continuation byte follows it. -/
def backOff (bytes : List UInt8) : Nat → Nat
  | 0 => 0
  | stop + 1 => if (bytes[stop + 1]?).any isContinuation then backOff bytes stop else stop + 1

/-- How many bytes of a piece of output may be kept. -/
def available (worker : Worker) (data : List Char) : Nat :=
  match worker.mode with
  | .exec => worker.maxOutputBytes - worker.state.retainedBytes
  | .pty => textLength data

/-- What is kept of a piece of output. -/
def kept (worker : Worker) (data : List Char) : Option (List Char) :=
  sliceTo data (backOff (asBytes data) (min (available worker data) (textLength data)))

/-- The chunk that takes new output, after the last one or in its place, and the list with
the last chunk extended. -/
def place (chunks : List JournalChunk) (startSequence : Nat) (added timestamp : List Char) :
    List JournalChunk × JournalChunk :=
  let fresh := ⟨startSequence, startSequence + textLength added, timestamp, added⟩
  match chunks.getLast? with
  | some previous =>
    if previous.endSequence == startSequence &&
        textLength previous.data + textLength added ≤ 64 * 1024 then
      let extended :=
        { previous with
          endSequence := startSequence + textLength added
          timestamp := timestamp
          data := previous.data ++ added }
      (chunks.dropLast ++ [extended], extended)
    else (chunks, fresh)
  | none => (chunks, fresh)

/-- A file operation failed. -/
def State.fail (state : State) (error : List Char) : State :=
  { state with
    storageFailure := some error
    exitReason := some "storage_failure".toList }

/-- Remove chunks from the front while more bytes are retained than the limit allows. -/
def evict (limit : Nat) (remove : List Char → Option (List Char)) :
    List JournalChunk → Worker → Option Worker
  | chunks, worker =>
    if worker.state.retainedBytes ≤ limit then
      some { worker with state := { worker.state with chunks := chunks } }
    else
      match chunks with
      | [] => none
      | removed :: rest =>
        match remove (fileName removed.startSequence) with
        | some error =>
          some { worker with state := { worker.state with chunks := rest }.fail error }
        | none =>
          evict limit remove rest
            { worker with
              files := removeFile worker.files (fileName removed.startSequence)
              state :=
                { worker.state with
                  retainedBytes := worker.state.retainedBytes - textLength removed.data
                  retainedNewlines :=
                    worker.state.retainedNewlines - (asBytes removed.data).count 10
                  outputTruncated := true } }

/-- The counters after output was added. -/
def State.count (state : State) (added : List Char) : State :=
  { state with
    nextSequence := state.nextSequence + textLength added
    retainedBytes := state.retainedBytes + textLength added
    retainedNewlines := state.retainedNewlines + (asBytes added).count 10 }

/-- The text of one stream, which is kept in exec mode only. -/
def State.stream (state : State) (stdout : Bool) (added : List Char) : State :=
  if stdout then
    { state with
      stdout := state.stdout ++ added
      stdoutBytes := state.stdoutBytes + textLength added }
  else
    { state with
      stderr := state.stderr ++ added
      stderrBytes := state.stderrBytes + textLength added }

/-- The first sequence number after chunks were added and removed. -/
def State.refirst (state : State) : State :=
  { state with
    firstRetainedSequence :=
      (state.chunks.head?.map JournalChunk.startSequence).getD state.nextSequence }

/-- What follows in one of the modes when output was added: its text is kept, or the limit
is enforced. -/
def settle (worker : Worker) (call : Call) (added : List Char) (chunks : List JournalChunk) :
    Option Worker :=
  match worker.mode with
  | .exec =>
    some { worker with
      state := { worker.state.stream call.stdout added with chunks := chunks } }
  | .pty => evict worker.maxOutputBytes call.disk.remove chunks worker

/-- Store what is kept: the file first, then the counters, then the limit. -/
def store (worker : Worker) (call : Call) (added : List Char) : Option Worker :=
  let (chunks, chunk) :=
    place worker.state.chunks worker.state.nextSequence added (now call.clock)
  match call.disk.write with
  | some error =>
    some { worker with state := { worker.state with chunks := chunks }.fail error }
  | none => do
    let pushed :=
      if chunks.getLast?.all fun previous => previous.startSequence != chunk.startSequence then
        chunks ++ [chunk]
      else chunks
    let counted :=
      { worker with
        files := writeFile worker.files (fileName chunk.startSequence) chunk.json
        state := worker.state.count added }
    let next ← settle counted call added pushed
    return { next with state := next.state.refirst }

/-- The flags of a stream of which some output was not kept. -/
def State.truncate (state : State) (stdout : Bool) : State :=
  if stdout then { state with stdoutTruncated := true, outputTruncated := true }
  else { state with stderrTruncated := true, outputTruncated := true }

/-- `append_output`, without the request to terminate the child that a cut or a failure
makes. -/
def appendOutput (worker : Worker) (call : Call) : Option Worker :=
  if call.data.isEmpty || worker.state.storageFailure.isSome then some worker
  else do
    let added ← kept worker call.data
    let state :=
      if textLength added != textLength call.data then worker.state.truncate call.stdout
      else worker.state
    let marked := { worker with state := state }
    if added.isEmpty then return marked
    store marked call added

/-- `outputHasPartialLine` of the snapshot. -/
def State.outputHasPartialLine (state : State) : Bool :=
  0 < state.retainedBytes &&
    !state.chunks.getLast?.any fun chunk => chunk.data.getLast? == some '\n'

/-- `outputLineCount` of the snapshot. -/
def State.outputLineCount (state : State) : Nat :=
  state.retainedNewlines + if state.outputHasPartialLine then 1 else 0

/-- A worker before any output. -/
def started (mode : Mode) (maxOutputBytes : Nat) : Worker where
  mode := mode
  maxOutputBytes := maxOutputBytes
  state :=
    { stdout := []
      stderr := []
      stdoutBytes := 0
      stderrBytes := 0
      stdoutTruncated := false
      stderrTruncated := false
      nextSequence := 0
      firstRetainedSequence := 0
      outputTruncated := false
      retainedBytes := 0
      retainedNewlines := 0
      chunks := []
      exitReason := none
      storageFailure := none }
  files := []

/-- The text that a call adds to what was kept. -/
def addition (worker : Worker) (call : Call) : List Char :=
  if call.data.isEmpty || worker.state.storageFailure.isSome then []
  else (kept worker call.data).getD []

/-- A sequence of calls, with all the text that was kept in them. -/
def appendAll (worker : Worker) : List Call → Option (Worker × List Char)
  | [] => some (worker, [])
  | call :: rest => do
    let next ← appendOutput worker call
    let (last, text) ← appendAll next rest
    return (last, addition worker call ++ text)

/-- The output directory as the daemon lists it. -/
def listing (files : List (List Char × Js)) : OutputJournal.Directory :=
  files.map fun file => (encode file.1, some file.2)

end OpencodePty.WorkerJournal
