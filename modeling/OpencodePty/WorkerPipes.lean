import OpencodePty.ByteStreams
import OpencodePty.SensitiveKeys
import OpencodePty.StartProtocol
import OpencodePty.WorkerReceipts
import OpencodePty.WorkerReports

/-!
# The input of a worker

The daemon writes frames to the input of a worker: its bootstrap, and then control frames with the
token of the worker. A frame is the JSON of a value behind its length. The worker reads its bootstrap
and one control frame before it creates a child, and one more while the child runs.

The daemon may die within a frame, and what it has written arrives in pieces. What the worker does
depends on the frames alone that have arrived whole. A start frame that is cut creates no child.
So the worker does on bytes what the protocol of the start has it do on frames.

The parsers of `serde_json` are parameters, and what the daemon writes is parsed as it was.
-/

namespace OpencodePty.WorkerPipes

open JsValues TextEncodings ByteStreams WorkerReports
open WorkerReceipts (generated)

/-! ## The daemon -/

/-- How many bytes a frame may have. -/
def maxFrameBytes : Nat := 1024 * 1024

/-- `frame`, of the JSON of a value. -/
def frame (payload : List UInt8) : List UInt8 := framed 4 payload

/-- The check of `prepare`, and the frame that it writes. -/
def bootstrapFrame (payload : List UInt8) : Except JsString (List UInt8) :=
  if maxFrameBytes < payload.length then
    .error (js "native_worker_unavailable: bootstrap too large.")
  else .ok (frame payload)

/-- What the daemon tells a worker through the pipe. -/
inductive Operation where
  | start
  | rollback
  deriving DecidableEq

/-- The name of an operation in its frame. -/
def Operation.name : Operation → List Char
  | .start => "start".toList
  | .rollback => "rollback".toList

/-- The frame of an operation, with the token of the worker. -/
structure Control where
  operation : List Char
  token : List Char
  deriving DecidableEq

/-- `JSON.stringify` of a control, whose texts have no characters to escape. -/
def Control.json (control : Control) : List UInt8 :=
  asBytes ('{' :: member "operation" (quoted control.operation) ++
    ',' :: member "token" (quoted control.token) ++ ['}'])

/-- An operation as the daemon writes it. -/
def controlFrame (token : List Char) (operation : Operation) : List UInt8 :=
  frame (Control.json ⟨operation.name, token⟩)

/-- What the daemon writes: the bootstrap, and the operations that follow. -/
def written (payload : List UInt8) (token : List Char) (operations : List Operation) : List UInt8 :=
  frame payload ++ (operations.map (controlFrame token)).flatten

/-! ## The worker -/

/-- What `main` looks at in its bootstrap before it is ready. -/
structure Bootstrap where
  mode : List Char
  workerControlToken : List Char
  env : List (List Char × List Char)
  redactionSecrets : List (List Char)

/-- How many bytes a sensitive value may have. -/
def maxRedactionSecretBytes : Nat := 4096

/-- No sensitive value is too long to be redacted. -/
def sensitiveValuesWithinLimit (environment : List (List Char × List Char))
    (redactionSecrets : List (List Char)) : Bool :=
  environment.all (fun (key, value) =>
    !SensitiveKeys.sensitiveEnvironmentKey key || textLength value ≤ maxRedactionSecretBytes) &&
    redactionSecrets.all fun value => textLength value ≤ maxRedactionSecretBytes

/-- The checks of `main`. -/
def checked (bootstrap : Bootstrap) : Except String Unit :=
  if bootstrap.mode ≠ "exec".toList && bootstrap.mode ≠ "pty".toList then
    .error "mode must be exec or pty"
  else if textLength bootstrap.workerControlToken < 16 then .error "invalid worker token"
  else if !sensitiveValuesWithinLimit bootstrap.env bootstrap.redactionSecrets then
    .error "sensitive environment value exceeds 4096 UTF-8 bytes"
  else .ok ()

/-- `read_exact`. Nothing where it waits for more of an input that is not closed. -/
def readExact (closed : Bool) (count : Nat) (input : List UInt8) :
    Option (Except String (List UInt8 × List UInt8)) :=
  match exactly count input with
  | some found => some (.ok found)
  | none => if closed then some (.error "failed to fill whole buffer") else none

/-- `read_frame`, with the input that is left. -/
def readFrame (closed : Bool) (input : List UInt8) :
    Option (Except String (List UInt8 × List UInt8)) :=
  match readExact closed 4 input with
  | some (.ok (length, rest)) =>
    if ofBigEndian length = 0 || maxFrameBytes < ofBigEndian length then
      some (.error "bootstrap frame exceeds limit")
    else readExact closed (ofBigEndian length) rest
  | stopped => stopped

/-- `serde_json::from_slice` -/
structure Parsers where
  bootstrap : List UInt8 → Except String Bootstrap
  control : List UInt8 → Except String Control

variable (parsers : Parsers)

/-- `control`, with the input that is left. -/
def control (closed : Bool) (token : List Char) (input : List UInt8) :
    Option (Except String (Control × List UInt8)) :=
  (readFrame closed input).map fun frame => do
    let (data, rest) ← frame
    let control ← parsers.control data
    if control.token ≠ token ||
        (control.operation ≠ Operation.start.name && control.operation ≠ Operation.rollback.name) then
      throw "invalid worker control frame"
    return (control, rest)

/-- How far `main` comes with its input. -/
inductive Phase where
  /-- It waits for its bootstrap. -/
  | booting
  | refused (error : String)
  /-- It is ready, and waits for its control frame. -/
  | controlling
  /-- It has left the receipt that it has no child. -/
  | prestart
  /-- It has gone on to create a child, and one of its threads waits for another frame. -/
  | started
  /-- The thread has ended, and the child goes on. -/
  | detached
  /-- The thread has made `main` roll back. -/
  | rolledBack
  deriving DecidableEq

/-- The thread that waits for a rollback. -/
def awaitRollback (closed : Bool) (token : List Char) (input : List UInt8) : Phase :=
  match control parsers closed token input with
  | none => .started
  | some (.ok (control, _)) =>
    if control.operation = Operation.rollback.name then .rolledBack else .detached
  | some (.error _) => .detached

/-- The worker waits for its first operation, which starts the child or ends the worker. -/
def awaitStart (closed : Bool) (token : List Char) (input : List UInt8) : Phase :=
  match control parsers closed token input with
  | none => .controlling
  | some (.ok (control, rest)) =>
    if control.operation = Operation.start.name then awaitRollback parsers closed token rest
    else .prestart
  | some (.error _) => .prestart

/-- `main`, as far as its input decides. -/
def main (closed : Bool) (input : List UInt8) : Phase :=
  match readFrame closed input with
  | none => .booting
  | some (.error error) => .refused error
  | some (.ok (data, rest)) =>
    match parsers.bootstrap data with
    | .error error => .refused error
    | .ok bootstrap =>
      match checked bootstrap with
      | .error error => .refused error
      | .ok _ => awaitStart parsers closed bootstrap.workerControlToken rest

/-! ## Frames that have arrived -/

/-- The operations that have arrived, or nothing where the bootstrap has not. -/
def arrived (payload : List UInt8) (token : List Char) (operations : List Operation)
    (number : Nat) : Option (List Operation) :=
  if (frame payload).length ≤ number then
    some (operations.take (wholeFrames (number - (frame payload).length)
      (operations.map (controlFrame token))))
  else none

/-- What the worker does with what has arrived. -/
def phaseOf (closed : Bool) : Option (List Operation) → Phase
  | none => if closed then .refused "failed to fill whole buffer" else .booting
  | some [] => if closed then .prestart else .controlling
  | some (.rollback :: _) => .prestart
  | some [.start] => if closed then .detached else .started
  | some (.start :: .rollback :: _) => .rolledBack
  | some (.start :: .start :: _) => .detached

/-! ## Reading a pipe that may end anywhere -/

/-- A part is read whole where all of it has arrived. -/
theorem readExact_take (closed : Bool) (front rest : List UInt8) (number : Nat) :
    readExact closed front.length ((front ++ rest).take number) =
      if front.length ≤ number then some (.ok (front, rest.take (number - front.length)))
      else if closed then some (.error "failed to fill whole buffer") else none := by
  rw [readExact, exactly_take]
  split
  next found equal =>
    split at equal
    next whole => rw [if_pos whole, ← Option.some.inj equal]
    next => cases equal
  next equal =>
    split at equal
    next => cases equal
    next cut => rw [if_neg cut]

/-- The first frame of a pipe is read if it is whole. -/
theorem readFrame_take (closed : Bool) {payload : List UInt8} (nonempty : payload ≠ [])
    (small : payload.length ≤ maxFrameBytes) (rest : List UInt8) (number : Nat) :
    readFrame closed ((frame payload ++ rest).take number) =
      if (frame payload).length ≤ number then
        some (.ok (payload, rest.take (number - (frame payload).length)))
      else if closed then some (.error "failed to fill whole buffer") else none := by
  have positive : payload.length ≠ 0 := by simpa using nonempty
  have narrow : payload.length < 256 ^ 4 := by
    unfold maxFrameBytes at small
    omega
  have header := readExact_take closed (bigEndian 4 payload.length) (payload ++ rest) number
  rw [length_bigEndian, ← List.append_assoc, ← framed, ← frame] at header
  have body := readExact_take closed payload rest (number - 4)
  rw [readFrame, header, frame, length_framed]
  by_cases headed : 4 ≤ number
  · simp only [if_pos headed, ofBigEndian_length narrow, positive, Nat.not_lt.mpr small,
      decide_false, Bool.or_self, Bool.false_eq_true, if_false, body]
    have same : payload.length ≤ number - 4 ↔ 4 + payload.length ≤ number := by omega
    simp only [Nat.sub_sub, same]
  · have cut : ¬ 4 + payload.length ≤ number := by omega
    rw [if_neg headed, if_neg cut]
    cases closed with
    | true => rfl
    | false => rfl

/-- The parser gives the control that the daemon has written. -/
def Parsers.Speaks (token : List Char) : Prop :=
  ∀ operation : Operation, parsers.control (Control.json ⟨operation.name, token⟩) =
    .ok ⟨operation.name, token⟩

/-- A frame is not empty. -/
theorem json_nonempty (control : Control) : control.json ≠ [] := by
  apply List.ne_nil_of_length_pos
  rw [Control.json, length_asBytes]
  apply textLength_pos
  simp only [ne_eq, List.append_eq_nil_iff, List.cons_ne_nil, and_false, not_false_eq_true]

/-- The frame of a control is short. -/
theorem json_small {token : List Char} (hexadecimal : generated token = true)
    (operation : Operation) :
    (Control.json ⟨operation.name, token⟩).length ≤ maxFrameBytes := by
  have bound (text : List Char) : textLength text ≤ 4 * text.length := by
    induction text with
    | nil => exact Nat.le_refl 0
    | cons character text inductionHypothesis =>
      have size := character.utf8Size_le_four
      simp only [textLength, List.map_cons, List.sum_cons, List.length_cons] at inductionHypothesis ⊢
      omega
  have length : token.length = 64 := by
    simp only [generated, Bool.and_eq_true, decide_eq_true_eq] at hexadecimal
    exact hexadecimal.1
  have name : operation.name.length ≤ 8 := by
    cases operation with
    | start => decide
    | rollback => decide
  have operationKey : "operation".toList.length = 9 := by decide
  have tokenKey : "token".toList.length = 5 := by decide
  rw [Control.json, length_asBytes]
  refine (bound _).trans ?_
  simp only [member, quoted, List.length_append, List.length_cons, List.length_nil, length,
    operationKey, tokenKey, maxFrameBytes]
  omega

section Arrived

variable {parsers} {token : List Char}

/-- The frame of an operation is read where all of it has arrived. -/
theorem control_take (speaks : parsers.Speaks token) (hexadecimal : generated token = true)
    (closed : Bool) (operation : Operation) (rest : List UInt8) (number : Nat) :
    control parsers closed token ((controlFrame token operation ++ rest).take number) =
      if (controlFrame token operation).length ≤ number then
        some (.ok (⟨operation.name, token⟩,
          rest.take (number - (controlFrame token operation).length)))
      else if closed then some (.error "failed to fill whole buffer") else none := by
  rw [control, controlFrame, readFrame_take closed (json_nonempty _)
    (json_small hexadecimal operation)]
  split
  next =>
    have known : operation.name = Operation.start.name ∨
        operation.name = Operation.rollback.name := by
      cases operation with
      | start => exact .inl rfl
      | rollback => exact .inr rfl
    have checked : (decide (operation.name ≠ Operation.start.name) &&
        decide (operation.name ≠ Operation.rollback.name)) = false := by
      rcases known with same | same <;> simp [same]
    simp only [Option.map_some, bind, Except.bind, speaks operation, checked, ne_eq,
      not_true_eq_false, decide_false, Bool.or_self, Bool.false_eq_true, if_false]
    rfl
  next =>
    cases closed with
    | true => rfl
    | false => rfl

/-- Where nothing has arrived the worker waits, or finds the pipe closed. -/
theorem control_empty (closed : Bool) :
    control parsers closed token [] =
      if closed then some (.error "failed to fill whole buffer") else none := by
  cases closed with
  | true => rfl
  | false => rfl

/-- Behind the start the worker does what the operations that have arrived tell it. -/
theorem awaitRollback_arrived (speaks : parsers.Speaks token)
    (hexadecimal : generated token = true) (closed : Bool) (operations : List Operation)
    (number : Nat) :
    awaitRollback parsers closed token ((operations.map (controlFrame token)).flatten.take number) =
      phaseOf closed (some (.start :: operations.take
        (wholeFrames number (operations.map (controlFrame token))))) := by
  cases operations with
  | nil =>
    rw [awaitRollback, List.map_nil, List.flatten_nil, List.take_nil, control_empty]
    cases closed with
    | true => rfl
    | false => rfl
  | cons operation operations =>
    rw [awaitRollback, List.map_cons, List.flatten_cons, control_take speaks hexadecimal,
      wholeFrames]
    by_cases whole : (controlFrame token operation).length ≤ number
    · simp only [if_pos whole, List.take_succ_cons]
      cases operation with
      | start => rfl
      | rollback => rfl
    · simp only [if_neg whole, List.take_zero]
      cases closed with
      | true => rfl
      | false => rfl

/-- Before the start the worker does what the operations that have arrived tell it. -/
theorem awaitStart_arrived (speaks : parsers.Speaks token)
    (hexadecimal : generated token = true) (closed : Bool) (operations : List Operation)
    (number : Nat) :
    awaitStart parsers closed token ((operations.map (controlFrame token)).flatten.take number) =
      phaseOf closed (some (operations.take
        (wholeFrames number (operations.map (controlFrame token))))) := by
  cases operations with
  | nil =>
    rw [awaitStart, List.map_nil, List.flatten_nil, List.take_nil, control_empty]
    cases closed with
    | true => rfl
    | false => rfl
  | cons operation operations =>
    rw [awaitStart, List.map_cons, List.flatten_cons, control_take speaks hexadecimal,
      wholeFrames]
    by_cases whole : (controlFrame token operation).length ≤ number
    · simp only [if_pos whole, List.take_succ_cons]
      cases operation with
      | start =>
        rw [if_pos rfl]
        exact awaitRollback_arrived speaks hexadecimal closed operations _
      | rollback => rfl
    · simp only [if_neg whole, List.take_zero]
      cases closed with
      | true => rfl
      | false => rfl

/-- The worker does what the whole frames that have arrived tell it. -/
theorem main_arrived {payload : List UInt8} {bootstrap : Bootstrap}
    (speaks : parsers.Speaks bootstrap.workerControlToken)
    (hexadecimal : generated bootstrap.workerControlToken = true)
    (nonempty : payload ≠ []) (small : payload.length ≤ maxFrameBytes)
    (parsed : parsers.bootstrap payload = .ok bootstrap) (admitted : checked bootstrap = .ok ())
    (closed : Bool) (operations : List Operation) (number : Nat) :
    main parsers closed ((written payload bootstrap.workerControlToken operations).take number) =
      phaseOf closed (arrived payload bootstrap.workerControlToken operations number) := by
  rw [main, written, readFrame_take closed nonempty small, arrived]
  by_cases whole : (frame payload).length ≤ number
  · simp only [if_pos whole, parsed, admitted]
    exact awaitStart_arrived speaks hexadecimal closed operations _
  · simp only [if_neg whole]
    cases closed with
    | true => rfl
    | false => rfl

end Arrived

/-! ## The protocol of the start -/

section Protocol

open StartProtocol (Frame System Launch)

/-- The frames of a pipe that has been written up to a number of bytes. Where it is closed, a frame
that was not written to its end is torn. -/
def pipeOf (closed : Bool) : Nat → List (Frame × List UInt8) → List Frame
  | _, [] => []
  | number, (name, bytes) :: rest =>
    if bytes.length ≤ number then name :: pipeOf closed (number - bytes.length) rest
    else if closed && 0 < number then [.torn] else []

/-- The frame of an operation in the protocol of the start. -/
def Operation.frame : Operation → Frame
  | .start => .start
  | .rollback => .rollback

/-- What the daemon writes, frame by frame. -/
def sent (payload : List UInt8) (token : List Char) (operations : List Operation) :
    List (Frame × List UInt8) :=
  (.bootstrap, WorkerPipes.frame payload) ::
    operations.map fun operation => (operation.frame, controlFrame token operation)

/-- The state of the worker in the protocol. -/
def Phase.worker : Phase → StartProtocol.Worker
  | .booting => .booting
  | .refused _ | .prestart => .ended
  | .controlling => .controlling
  | .started | .detached | .rolledBack => .spawning

/-- After a start frame the worker creates a child, whatever follows. -/
theorem phase_start (closed : Bool) (later : List Operation) :
    (phaseOf closed (some (.start :: later))).worker = .spawning ∧
      phaseOf closed (some (.start :: later)) ≠ .prestart := by
  rcases later with _ | ⟨_ | _, later⟩
  · cases closed with
    | true => exact ⟨rfl, by decide⟩
    | false => exact ⟨rfl, by decide⟩
  · exact ⟨rfl, Phase.noConfusion⟩
  · exact ⟨rfl, Phase.noConfusion⟩

/-- The protocol takes the frames for the ones that have arrived. -/
theorem control_phase (launched : Launch) (closed : Bool) (token : List Char)
    (operations : List Operation) (number : Nat) (system : System)
    (waits : system.worker = .controlling) (ends : system.closed = closed)
    (pipe : system.pipe = pipeOf closed number (operations.map fun operation =>
      (operation.frame, controlFrame token operation))) :
    let phase := phaseOf closed (some (operations.take
      (wholeFrames number (operations.map (controlFrame token)))))
    (system.control launched true).worker = phase.worker ∧
      (system.control launched true).receiptWritten =
        (system.receiptWritten || decide (phase = .prestart)) := by
  cases operations with
  | nil =>
    have empty : system.pipe = [] := pipe
    cases closed with
    | true => simp [System.control, System.readFrame, waits, empty, ends, phaseOf, Phase.worker]
    | false => simp [System.control, System.readFrame, waits, empty, ends, phaseOf, Phase.worker]
  | cons operation operations =>
    rw [List.map_cons, pipeOf] at pipe
    by_cases whole : (controlFrame token operation).length ≤ number
    · rw [if_pos whole] at pipe
      simp only [List.map_cons, wholeFrames, if_pos whole, List.take_succ_cons]
      cases operation with
      | start =>
        simp [System.control, System.readFrame, waits, pipe, Operation.frame,
          phase_start closed (operations.take _)]
      | rollback =>
        simp [System.control, System.readFrame, waits, pipe, Operation.frame, phaseOf,
          Phase.worker]
    · rw [if_neg whole] at pipe
      simp only [List.map_cons, wholeFrames, if_neg whole, List.take_zero]
      cases closed with
      | true =>
        cases number with
        | zero =>
          simp [System.control, System.readFrame, waits, pipe, ends, phaseOf, Phase.worker]
        | succ number =>
          simp [System.control, System.readFrame, waits, pipe, phaseOf, Phase.worker]
      | false =>
        simp [System.control, System.readFrame, waits, pipe, ends, phaseOf, Phase.worker]

/-- In the protocol the worker boots and does the same on whole frames. -/
theorem boot_phase (launched : Launch) (closed : Bool) (payload : List UInt8) (token : List Char)
    (operations : List Operation) (number : Nat) (system : System)
    (boots : system.worker = .booting) (ends : system.closed = closed)
    (pipe : system.pipe = pipeOf closed number (sent payload token operations)) :
    let phase := phaseOf closed (arrived payload token operations number)
    ((system.boot true).control launched true).worker = phase.worker ∧
      ((system.boot true).control launched true).receiptWritten =
        (system.receiptWritten || decide (phase = .prestart)) := by
  rw [sent, pipeOf] at pipe
  by_cases whole : (WorkerPipes.frame payload).length ≤ number
  · rw [if_pos whole] at pipe
    simp only [arrived, if_pos whole]
    have booted : system.boot true =
        { system with
          pipe := pipeOf closed (number - (WorkerPipes.frame payload).length)
            (operations.map fun operation => (operation.frame, controlFrame token operation))
          worker := .controlling } := by
      simp [System.boot, System.readFrame, boots, pipe]
    rw [booted]
    exact control_phase launched closed token operations _ _ rfl ends rfl
  · rw [if_neg whole] at pipe
    simp only [arrived, if_neg whole]
    cases closed with
    | true =>
      cases number with
      | zero =>
        simp [System.boot, System.control, System.readFrame, boots, pipe, ends, phaseOf,
          Phase.worker]
      | succ number =>
        simp [System.boot, System.control, System.readFrame, boots, pipe, phaseOf, Phase.worker]
    | false =>
      simp [System.boot, System.control, System.readFrame, boots, pipe, ends, phaseOf,
        Phase.worker]

/-- However much of what the daemon writes has arrived, and whether or not the pipe is closed, the
worker does what the operations that are whole tell it, and on the bytes it does what it does on
frames in the protocol of the start. -/
theorem worker_reads_whole_frames (parsers : Parsers) (launched : Launch)
    {payload bytes : List UInt8} {bootstrap : Bootstrap}
    (speaks : parsers.Speaks bootstrap.workerControlToken)
    (hexadecimal : generated bootstrap.workerControlToken = true)
    (nonempty : payload ≠ []) (accepted : bootstrapFrame payload = .ok bytes)
    (parsed : parsers.bootstrap payload = .ok bootstrap) (admitted : checked bootstrap = .ok ())
    (closed : Bool) (operations : List Operation) (number : Nat) (system : System)
    (boots : system.worker = .booting) (ends : system.closed = closed)
    (pipe : system.pipe =
      pipeOf closed number (sent payload bootstrap.workerControlToken operations)) :
    let phase := main parsers closed
      ((bytes ++ (operations.map (controlFrame bootstrap.workerControlToken)).flatten).take number)
    phase = phaseOf closed (arrived payload bootstrap.workerControlToken operations number) ∧
      ((system.boot true).control launched true).worker = phase.worker ∧
      ((system.boot true).control launched true).receiptWritten =
        (system.receiptWritten || decide (phase = .prestart)) := by
  obtain ⟨small, rfl⟩ : payload.length ≤ maxFrameBytes ∧ WorkerPipes.frame payload = bytes := by
    rw [bootstrapFrame] at accepted
    split at accepted
    next => cases accepted
    next small => exact ⟨Nat.not_lt.mp small, Except.ok.inj accepted⟩
  have read := main_arrived speaks hexadecimal nonempty small parsed admitted closed operations
    number
  rw [written] at read
  dsimp only
  rw [read]
  exact ⟨rfl, boot_phase launched closed payload _ operations number system boots ends pipe⟩

/-- A token of 64 characters. -/
def sampleToken : List Char := List.replicate 64 'a'

/-- The JSON of a bootstrap. -/
def samplePayload : List UInt8 :=
  asBytes ("\x7b\"command\":\"ls\",\"args\":[],\"workdir\":\"/\",\"env\":\x7b\x7d,".toList ++
    "\"redactionSecrets\":[],\"sessionDirectory\":\"/s\",\"workerControlToken\":\"".toList ++
    sampleToken ++ "\",\"workerId\":\"w\",\"maxOutputBytes\":9,\"mode\":\"exec\"\x7d".toList)

/-- The bootstrap of a worker for a command. -/
def sampleBootstrap : Bootstrap := ⟨"exec".toList, sampleToken, [], []⟩

/-- Parsers that know one bootstrap, and the controls with its token. -/
def sampleParsers : Parsers where
  bootstrap data :=
    if data = samplePayload then .ok sampleBootstrap else .error "expected value at line 1 column 1"
  control data :=
    if data = Control.json ⟨Operation.start.name, sampleToken⟩ then
      .ok ⟨Operation.start.name, sampleToken⟩
    else if data = Control.json ⟨Operation.rollback.name, sampleToken⟩ then
      .ok ⟨Operation.rollback.name, sampleToken⟩
    else .error "expected value at line 1 column 1"

/-- A worker that boots, with a torn frame behind its bootstrap. -/
def sampleSystem : System :=
  { System.opened with
    worker := .booting
    pipe := [.bootstrap, .torn]
    closed := true }

/-- The launch of this worker. -/
def sampleLaunch : Launch :=
  ⟨js "w", encode sampleToken, 7, js "posix:7:1", js "http://127.0.0.1:4096"⟩

/-- These parsers know what the daemon writes. -/
theorem sample_speaks : sampleParsers.Speaks sampleToken := by
  intro operation
  cases operation with
  | start => simp only [sampleParsers, if_true]
  | rollback =>
    have other : Control.json ⟨Operation.rollback.name, sampleToken⟩ ≠
        Control.json ⟨Operation.start.name, sampleToken⟩ := by
      decide +kernel
    simp only [sampleParsers, if_neg other, if_true]

/-- The daemon dies one byte before the end of the start frame. -/
theorem worker_reads_cut_start :
    main sampleParsers true ((WorkerPipes.frame samplePayload ++
        ([Operation.start].map (controlFrame sampleToken)).flatten).take 334) = .prestart ∧
      ((sampleSystem.boot true).control sampleLaunch true).receiptWritten = true := by
  have small : bootstrapFrame samplePayload = .ok (WorkerPipes.frame samplePayload) :=
    if_neg (by decide +kernel)
  have parsed : sampleParsers.bootstrap samplePayload = .ok sampleBootstrap := by
    simp only [sampleParsers, if_true]
  have cut : arrived samplePayload sampleToken [.start] 334 = some [] := by decide +kernel
  have read := @worker_reads_whole_frames sampleParsers sampleLaunch samplePayload
    (WorkerPipes.frame samplePayload) sampleBootstrap sample_speaks (by decide +kernel)
    (by decide +kernel) small parsed (by decide +kernel) true [.start] 334 sampleSystem rfl rfl
    (by decide +kernel)
  obtain ⟨phase, _, written⟩ := read
  have left := phase.trans (congrArg (phaseOf true) cut)
  refine ⟨left, written.trans ?_⟩
  rw [left]
  rfl

end Protocol

end OpencodePty.WorkerPipes
