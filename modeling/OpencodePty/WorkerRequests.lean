import OpencodePty.ByteStreams
import OpencodePty.JsValues
import OpencodePty.ProcessIdentities

/-!
# The requests of a worker

The daemon asks a worker over HTTP. The worker reads from the connection until it has the empty line,
takes the length of the content from the header, and reads on until it has the content. A request
that was cut is dropped, and one with the token of the worker is handled.

However a request is cut into reads, it is answered once it has arrived whole, and never before. What
`serde_json` makes of the content, and what `handle` makes of the request, are parameters.
-/

namespace OpencodePty.WorkerRequests

open JsValues TextEncodings ByteStreams StreamDecoding
open ProcessIdentities (isWhitespace parseUnsigned encoded_single fromUtf8_text)

/-- The longest header and the longest content, in bytes. -/
def maxFrameBytes : Nat := 1024 * 1024

/-! ## Headers -/

/-- `line.strip_suffix('\r')`, where there is one. -/
def stripReturn (line : List Char) : List Char :=
  if line.getLast? = some '\r' then line.dropLast else line

/-- `text.lines()` -/
def lines (text : List Char) : List (List Char) :=
  let parts := text.splitOn '\n'
  parts.dropLast.map stripReturn ++ (parts.getLast?.filter (!·.isEmpty)).toList

/-- `value.trim()` -/
def trim (value : List Char) : List Char := Words.trimmed isWhitespace value

/-- The value in the line of the length. -/
def lengthValue (line : List Char) : Option (List Char) :=
  (List.dropPrefix? line "Content-Length:".toList).orElse fun _ =>
    List.dropPrefix? line "content-length:".toList

/-- The length of the content, which is 0 where the first line of it holds no number. -/
def contentLength (lines : List (List Char)) : Nat :=
  ((lines.findSome? lengthValue).bind fun value => parseUnsigned 64 (trim value)).getD 0

/-- The header carries the token of the worker. -/
def authenticated (token : List Char) (lines : List (List Char)) : Bool :=
  lines.any fun line =>
    line == "Authorization: Bearer ".toList ++ token ||
      line == "authorization: Bearer ".toList ++ token

/-! ## Reading -/

/-- `windows(4).position(|part| part == b"\r\n\r\n")` -/
def emptyLine : List UInt8 → Option Nat
  | [] => none
  | byte :: bytes =>
    if [13, 10, 13, 10].isPrefixOf (byte :: bytes) then some 0
    else (emptyLine bytes).map (· + 1)

/-- The end of the header in what was read, or nothing in place of it where that is too long. -/
def headerEnd (bytes : List UInt8) : Option (Option Nat) :=
  if maxFrameBytes < bytes.length then some none
  else (emptyLine bytes).map fun position => some (position + 4)

/-- What was read is as long as it must be, or longer. -/
def complete (length : Nat) (bytes : List UInt8) : Option Bool :=
  if bytes.length < length then none else some (bytes.length = length)

/-- The content behind a header. More than the content may have been read with the end of the
header, but what is read for the content must end with it. -/
def receiveContent (stop : Nat) (header : List (List Char)) (bytes : List UInt8)
    (reads : List (List UInt8)) : Option (List (List Char) × List UInt8) :=
  let length := contentLength header
  if length = 0 || maxFrameBytes < length then none
  else if stop + length ≤ bytes.length then some (header, bytes.drop stop)
  else
    match readUntil (complete (stop + length)) bytes reads with
    | some (true, bytes, _) => some (header, bytes.drop stop)
    | _ => none

/-- The lines of the header of a request, and its content. A read of nothing is the end. -/
def receive (reads : List (List UInt8)) : Option (List (List Char) × List UInt8) :=
  match readUntil headerEnd [] (reads.takeWhile (!·.isEmpty)) with
  | some (some stop, bytes, reads) =>
    match fromUtf8 (bytes.take stop) with
    | .error _ => none
    | .ok header => receiveContent stop (lines header) bytes reads
  | _ => none

/-- What the worker answers instead of a result. -/
structure WorkerError where
  code : JsString
  message : JsString

variable (fromSlice : List UInt8 → Option Js) (handle : Js → Except WorkerError (Js × Bool))

/-- The object of an error. -/
def failure (error : WorkerError) : Js :=
  .obj [("ok", .bool false),
    ("error", .obj [("code", .str error.code), ("message", .str error.message)])]

/-- The response, and whether the worker is to stop. -/
def respond (token : List Char) (header : List (List Char)) (request : Js) : Js × Bool :=
  if authenticated token header then
    match handle request with
    | .ok (result, stop) => (.obj [("ok", .bool true), ("result", result)], stop)
    | .error error => (failure error, false)
  else (failure ⟨js "authentication", js "Invalid worker credential."⟩, false)

/-- `serve`: the response to what was read, if there is one. -/
def serve (token : List Char) (reads : List (List UInt8)) : Option (Js × Bool) := do
  let (header, content) ← receive reads
  let request ← fromSlice content
  return respond handle token header request

/-! ## Requests as they are written -/

/-- A line of a header. -/
structure PlainLine (line : List Char) : Prop where
  nonempty : line ≠ []
  noReturn : '\r' ∉ line
  noNewline : '\n' ∉ line

/-- The lines of a header, each with its end. -/
def headerText (header : List (List Char)) : List Char :=
  (header.map (· ++ ['\r', '\n'])).flatten ++ ['\r', '\n']

/-- The header as bytes. -/
def headerBytes (header : List (List Char)) : List UInt8 := asBytes (headerText header)

/-- The first line of a header stands first. -/
theorem headerText_cons (line : List Char) (header : List (List Char)) :
    headerText (line :: header) = line ++ '\r' :: '\n' :: headerText header := by
  simp [headerText]

/-- The bytes of the first line stand first. -/
theorem headerBytes_cons (line : List Char) (header : List (List Char)) :
    headerBytes (line :: header) = asBytes line ++ 13 :: 10 :: headerBytes header := by
  rw [headerBytes, headerText_cons, asBytes_append, asBytes_cons, asBytes_cons]
  rfl

/-- The return at the end of a line is taken off. -/
theorem stripReturn_line (line : List Char) : stripReturn (line ++ ['\r']) = line := by
  rw [stripReturn, if_pos List.getLast?_concat, List.dropLast_concat]

/-- The lines of the header, and the empty line. -/
theorem lines_headerText {header : List (List Char)} (plain : ∀ line ∈ header, PlainLine line) :
    lines (headerText header) = header ++ [[]] := by
  have parts : (headerText header).splitOn '\n' = header.map (· ++ ['\r']) ++ [['\r'], []] := by
    induction header with
    | nil => decide
    | cons line header inductionHypothesis =>
      obtain ⟨first, others⟩ := List.forall_mem_cons.mp plain
      have absent : '\n' ∉ line ++ ['\r'] := by
        simp [first.noNewline]
      have split : headerText (line :: header) = (line ++ ['\r']) ++ '\n' :: headerText header := by
        rw [headerText_cons]
        simp
      rw [split, List.splitOn_append_cons_self_of_not_mem absent, inductionHypothesis others]
      rfl
  have kept : (header.map (· ++ ['\r'])).map stripReturn = header := by
    rw [List.map_map]
    exact (List.map_congr_left fun line _ => stripReturn_line line).trans (List.map_id _)
  have last : header.map (· ++ ['\r']) ++ [['\r'], []] =
      (header.map (· ++ ['\r']) ++ [['\r']]) ++ [[]] := by
    rw [List.append_assoc]
    rfl
  rw [lines, parts, last, List.dropLast_concat, List.getLast?_concat, List.map_append, kept]
  simp [stripReturn]

/-! ## The empty line -/

/-- Bytes without a return are skipped in the search for the empty line. -/
theorem emptyLine_skip {front : List UInt8} (absent : 13 ∉ front) (rest : List UInt8) :
    emptyLine (front ++ rest) = (emptyLine rest).map (· + front.length) := by
  induction front with
  | nil => simp
  | cons byte front inductionHypothesis =>
    obtain ⟨other, later⟩ := List.ne_and_not_mem_of_not_mem_cons absent
    have apart : [13, 10, 13, 10].isPrefixOf (byte :: (front ++ rest)) = false := by
      simp [List.isPrefixOf, other]
    rw [List.cons_append, emptyLine, apart, inductionHypothesis later, Option.map_map]
    simp [Function.comp_def, Nat.add_assoc]

/-- The end of a line with another line behind it is no empty line. -/
theorem emptyLine_next {byte : UInt8} (other : byte ≠ 13) (rest : List UInt8) :
    emptyLine (13 :: 10 :: byte :: rest) = (emptyLine (byte :: rest)).map (· + 2) := by
  have apart : [13, 10, 13, 10].isPrefixOf (13 :: 10 :: byte :: rest) = false := by
    simp [List.isPrefixOf, other.symm]
  have newline : [13, 10, 13, 10].isPrefixOf (10 :: byte :: rest) = false := by
    simp [List.isPrefixOf]
  rw [emptyLine, apart, emptyLine, newline]
  cases emptyLine (byte :: rest) with
  | none => rfl
  | some position => rfl

/-- The bytes of a plain line have no return. -/
theorem asBytes_plain {line : List Char} (plain : PlainLine line) : 13 ∉ asBytes line := by
  intro member
  obtain ⟨character, inside, byte⟩ := List.mem_flatMap.mp member
  have same : character = '\r' := @encoded_single '\r' character 13 rfl rfl byte
  exact plain.noReturn (same ▸ inside)

/-- The empty line ends the header. -/
theorem emptyLine_header {header : List (List Char)} (nonempty : header ≠ [])
    (plain : ∀ line ∈ header, PlainLine line) (content : List UInt8) :
    ∃ position, emptyLine (headerBytes header ++ content) = some position ∧
      position + 4 = (headerBytes header).length := by
  induction header with
  | nil => exact absurd rfl nonempty
  | cons line header inductionHypothesis =>
    obtain ⟨first, others⟩ := List.forall_mem_cons.mp plain
    rw [headerBytes_cons, List.append_assoc, List.cons_append, List.cons_append,
      emptyLine_skip (asBytes_plain first)]
    cases header with
    | nil =>
      have ended : headerBytes [] = [13, 10] := by decide
      refine ⟨(asBytes line).length, ?_, ?_⟩
      · rw [ended]
        simp [emptyLine, List.isPrefixOf]
      · rw [ended]
        simp
    | cons next header =>
      obtain ⟨position, found, ends⟩ := inductionHypothesis (List.cons_ne_nil _ _) others
      have plainNext := others next List.mem_cons_self
      obtain ⟨byte, more, starts⟩ : ∃ byte more, asBytes next = byte :: more :=
        List.exists_cons_of_ne_nil (by
          apply List.ne_nil_of_length_pos
          rw [length_asBytes]
          exact textLength_pos plainNext.nonempty)
      have other : byte ≠ 13 := by
        rintro rfl
        exact asBytes_plain plainNext (starts ▸ List.mem_cons_self)
      have whole : headerBytes (next :: header) ++ content =
          byte :: (more ++ 13 :: 10 :: headerBytes header ++ content) := by
        rw [headerBytes_cons, starts]
        simp
      rw [whole] at found ⊢
      refine ⟨position + 2 + (asBytes line).length, ?_, ?_⟩
      · rw [emptyLine_next other, found]
        rfl
      · rw [List.length_append, List.length_cons, List.length_cons, ← ends]
        omega

/-! ## Requests that are cut -/

/-- The empty line that is found lies within the bytes. -/
theorem emptyLine_within {bytes : List UInt8} {position : Nat}
    (found : emptyLine bytes = some position) : position + 4 ≤ bytes.length := by
  induction bytes generalizing position with
  | nil => cases found
  | cons byte bytes inductionHypothesis =>
    rw [emptyLine] at found
    split at found
    next here =>
      cases found
      exact (List.isPrefixOf_iff_prefix.mp here).length_le
    next =>
      obtain ⟨later, same, rfl⟩ := Option.map_eq_some_iff.mp found
      have within := inductionHypothesis same
      rw [List.length_cons]
      omega

/-- What was found of a request is found with more of it. -/
theorem emptyLine_append {bytes : List UInt8} {position : Nat}
    (found : emptyLine bytes = some position) (more : List UInt8) :
    emptyLine (bytes ++ more) = some position := by
  induction bytes generalizing position with
  | nil => cases found
  | cons byte bytes inductionHypothesis =>
    rw [emptyLine] at found
    rw [List.cons_append, emptyLine]
    split at found
    next here =>
      have still : [13, 10, 13, 10].isPrefixOf (byte :: (bytes ++ more)) = true := by
        rw [List.isPrefixOf_iff_prefix] at here ⊢
        exact here.trans (List.prefix_append (byte :: bytes) more)
      rwa [if_pos still]
    next absent =>
      obtain ⟨later, same, rfl⟩ := Option.map_eq_some_iff.mp found
      have within := emptyLine_within same
      have still : ¬ [13, 10, 13, 10].isPrefixOf (byte :: (bytes ++ more)) = true := by
        rw [List.isPrefixOf_iff_prefix] at absent ⊢
        intro here
        apply absent
        apply List.prefix_of_prefix_length_le here (List.prefix_append (byte :: bytes) more)
        simp only [List.length_cons, List.length_nil]
        omega
      rw [if_neg still, inductionHypothesis same]
      rfl

/-- Where the header ends does not change with the bytes that follow. -/
theorem headerEnd_stable {stream : List UInt8} (small : stream.length ≤ maxFrameBytes) :
    Stable headerEnd stream := by
  intro before after result within decided
  have length : (before ++ after).length ≤ maxFrameBytes := Nat.le_trans within.length_le small
  have shorter : before.length ≤ maxFrameBytes := by
    rw [List.length_append] at length
    omega
  rw [headerEnd, if_neg (Nat.not_lt.mpr shorter)] at decided
  obtain ⟨position, found, rfl⟩ := Option.map_eq_some_iff.mp decided
  rw [headerEnd, if_neg (Nat.not_lt.mpr length), emptyLine_append found]
  rfl

/-- A content that is complete stays complete. -/
theorem complete_stable {length : Nat} {stream : List UInt8} (whole : stream.length ≤ length) :
    Stable (complete length) stream := by
  intro before after result within decided
  have total := Nat.le_trans within.length_le whole
  rw [List.length_append] at total
  rw [complete] at decided ⊢
  split at decided
  next => cases decided
  next reached =>
    have nothing : after = [] := List.length_eq_zero_iff.mp (by omega)
    rw [nothing, List.append_nil, if_neg reached, ← decided]

/-- A request with a header that declares the length of its content. -/
structure Request where
  header : List (List Char)
  content : List UInt8
  nonempty : header ≠ []
  plain : ∀ line ∈ header, PlainLine line
  declared : contentLength header = content.length
  present : content ≠ []
  small : (headerBytes header ++ content).length ≤ maxFrameBytes

/-- The request as the client writes it. -/
def Request.bytes (request : Request) : List UInt8 := headerBytes request.header ++ request.content

/-- The empty line declares no length. -/
theorem contentLength_empty (header : List (List Char)) :
    contentLength (header ++ [[]]) = contentLength header := by
  have none' : [[]].findSome? lengthValue = none := by decide
  rw [contentLength, List.findSome?_append, none', Option.or_none, ← contentLength]

/-- The empty line carries no token. -/
theorem authenticated_empty (token : List Char) (header : List (List Char)) :
    authenticated token (header ++ [[]]) = authenticated token header := by
  rw [authenticated, List.any_append, ← authenticated]
  exact Bool.or_false _

variable {request : Request}

/-- The header of a request ends where its content begins. -/
theorem headerEnd_request (request : Request) :
    headerEnd request.bytes = some (some (headerBytes request.header).length) := by
  obtain ⟨position, found, ends⟩ := emptyLine_header request.nonempty request.plain request.content
  rw [headerEnd, Request.bytes, if_neg (Nat.not_lt.mpr request.small), found, Option.map_some, ends]

/-- A front of a request in which the end of the header is found has the header. -/
theorem headerEnd_front {front rest : List UInt8} (whole : front ++ rest = request.bytes)
    {result : Option Nat} (decided : headerEnd front = some result) :
    result = some (headerBytes request.header).length ∧
      front.take (headerBytes request.header).length = headerBytes request.header := by
  have stable := headerEnd_stable request.small front rest result
    (whole ▸ List.prefix_refl _) decided
  rw [whole, headerEnd_request] at stable
  obtain rfl := Option.some.inj stable
  have within : (headerBytes request.header).length ≤ front.length := by
    rw [headerEnd] at decided
    split at decided
    next => cases decided
    next =>
      obtain ⟨position, found, same⟩ := Option.map_eq_some_iff.mp decided
      rw [← Option.some.inj same]
      exact emptyLine_within found
  refine ⟨rfl, ?_⟩
  rw [← List.take_append_of_le_length within, whole, Request.bytes, List.take_left]

/-- A request is as long as its header and its content. -/
theorem length_bytes (request : Request) : request.bytes.length =
    (headerBytes request.header).length + request.content.length := by
  rw [Request.bytes, List.length_append]

/-- What is received of a request behind its header. -/
theorem receiveContent_prefix (request : Request) {front missing : List UInt8}
    {rest : List (List UInt8)} (whole : front ++ (rest.flatten ++ missing) = request.bytes) :
    receiveContent (headerBytes request.header).length (request.header ++ [[]]) front rest =
      if missing = [] then some (request.header ++ [[]], request.content) else none := by
  have length := length_bytes request
  have positive : 0 < request.content.length := List.length_pos_of_ne_nil request.present
  have small := request.small
  rw [← Request.bytes] at small
  have declared : contentLength (request.header ++ [[]]) = request.content.length := by
    rw [contentLength_empty, request.declared]
  have accepted : (decide (request.content.length = 0) ||
      decide (maxFrameBytes < request.content.length)) = false := by
    simp only [Bool.or_eq_false_iff, decide_eq_false_iff_not]
    omega
  have parts : front.length + (rest.flatten.length + missing.length) = request.bytes.length := by
    rw [← whole, List.length_append, List.length_append]
  have content : request.bytes.drop (headerBytes request.header).length = request.content := by
    rw [Request.bytes, List.drop_left]
  simp only [receiveContent, declared, accepted, Bool.false_eq_true, if_false, ← length]
  by_cases received : request.bytes.length ≤ front.length
  · have nothing : rest.flatten = [] ∧ missing = [] := by
      constructor
      · exact List.length_eq_zero_iff.mp (by omega)
      · exact List.length_eq_zero_iff.mp (by omega)
    rw [nothing.1, nothing.2, List.append_nil, List.append_nil] at whole
    rw [if_pos received, if_pos nothing.2, whole, content]
  · rw [if_neg received]
    have stable : Stable (complete request.bytes.length) (front ++ rest.flatten) := by
      apply complete_stable
      rw [List.length_append]
      omega
    have outcome := readUntil_whole stable
    rw [complete, List.length_append] at outcome
    by_cases finished : missing = []
    · rw [finished, List.length_nil] at parts
      rw [if_neg (by omega), decide_eq_true (by omega)] at outcome
      obtain ⟨⟨_, bytes, left⟩, found, rfl⟩ := Option.map_eq_some_iff.mp outcome
      obtain ⟨decided, stream⟩ := readUntil_some found
      have reached : bytes.length = request.bytes.length := by
        rw [complete] at decided
        split at decided
        next => cases decided
        next => exact of_decide_eq_true (Option.some.inj decided)
      rw [finished, List.append_nil, ← stream] at whole
      have all := congrArg List.length whole
      rw [List.length_append] at all
      have behind : left.flatten = [] := List.length_eq_zero_iff.mp (by omega)
      rw [behind, List.append_nil] at whole
      rw [found, if_pos finished, whole]
      dsimp only
      rw [content]
    · have longer : 0 < missing.length := List.length_pos_of_ne_nil finished
      rw [if_pos (by omega)] at outcome
      rw [Option.map_eq_none_iff.mp outcome, if_neg finished]

/-- What is received of the beginning of a request. -/
theorem receive_prefix (request : Request) {reads : List (List UInt8)} {missing : List UInt8}
    (nonempty : ∀ read ∈ reads, read ≠ []) (whole : reads.flatten ++ missing = request.bytes) :
    receive reads =
      if missing = [] then some (request.header ++ [[]], request.content) else none := by
  have kept : reads.takeWhile (!·.isEmpty) = reads := by
    rw [List.takeWhile_eq_self_iff]
    intro read member
    simpa using nonempty read member
  rw [receive, kept]
  cases found : readUntil headerEnd [] reads with
  | none =>
    have stable : Stable headerEnd ([] ++ reads.flatten) := by
      apply headerEnd_stable
      have small := request.small
      rw [← Request.bytes, ← whole, List.length_append] at small
      rw [List.nil_append]
      omega
    have outcome := readUntil_whole stable
    rw [found, List.nil_append, Option.map_none] at outcome
    rw [if_neg]
    rintro rfl
    rw [List.append_nil] at whole
    rw [whole, headerEnd_request] at outcome
    cases outcome
  | some state =>
    obtain ⟨result, front, rest⟩ := state
    obtain ⟨decided, stream⟩ := readUntil_some found
    rw [List.nil_append] at stream
    have split : front ++ (rest.flatten ++ missing) = request.bytes := by
      rw [← List.append_assoc, stream, whole]
    obtain ⟨rfl, header⟩ := headerEnd_front split decided
    dsimp only
    have decoded : fromUtf8 (headerBytes request.header) = .ok (headerText request.header) :=
      fromUtf8_text _
    rw [header, decoded]
    dsimp only
    rw [lines_headerText request.plain]
    exact receiveContent_prefix request split

/-- However a request is cut into reads, it is answered when all of it has arrived, and where the
connection ends before that it is not handled. -/
theorem request_any_cut (fromSlice : List UInt8 → Option Js)
    (handle : Js → Except WorkerError (Js × Bool)) (token : List Char) (request : Request)
    {reads : List (List UInt8)} {missing : List UInt8} (nonempty : ∀ read ∈ reads, read ≠ [])
    (whole : reads.flatten ++ missing = request.bytes) :
    serve fromSlice handle token reads =
      if missing = [] then (fromSlice request.content).map (respond handle token request.header)
      else none := by
  rw [serve, receive_prefix request nonempty whole]
  by_cases finished : missing = []
  · have same (value : Js) : respond handle token (request.header ++ [[]]) value =
        respond handle token request.header value := by
      rw [respond, authenticated_empty, ← respond]
    rw [if_pos finished, if_pos finished]
    change ((fromSlice request.content).bind fun value =>
      some (respond handle token (request.header ++ [[]]) value)) = _
    simp only [same]
    cases fromSlice request.content with
    | none => rfl
    | some value => rfl
  · rw [if_neg finished, if_neg finished]
    rfl

/-- The question for the health of a worker with the token `t`. -/
def healthRequest : Request where
  header := ["POST / HTTP/1.1".toList, "authorization: Bearer t".toList, "content-length: 22".toList]
  content := asBytes "\x7b\"operation\":\"health\"\x7d".toList
  nonempty := List.cons_ne_nil _ _
  plain line member := by
    simp only [List.mem_cons, List.not_mem_nil, or_false] at member
    rcases member with rfl | rfl | rfl <;> exact ⟨by decide, by decide, by decide⟩
  declared := by decide +kernel
  present := by decide +kernel
  small := by decide +kernel

/-- A request that is cut within its header, and behind it. -/
theorem health_in_three_reads :
    serve (fun _ => some (.obj [("operation", .text "health")])) (fun _ => .ok (.null, false)) ['t']
        [healthRequest.bytes.take 9, (healthRequest.bytes.drop 9).take 60,
          healthRequest.bytes.drop 69] =
      some (.obj [("ok", .bool true), ("result", .null)], false) := by
  have whole : [healthRequest.bytes.take 9, (healthRequest.bytes.drop 9).take 60,
      healthRequest.bytes.drop 69].flatten ++ [] = healthRequest.bytes := by
    decide +kernel
  have answered := request_any_cut (fun _ => some (.obj [("operation", .text "health")]))
    (fun _ => .ok (.null, false)) ['t'] healthRequest (by decide +kernel) whole
  rw [answered, if_pos rfl]
  rfl

end OpencodePty.WorkerRequests
