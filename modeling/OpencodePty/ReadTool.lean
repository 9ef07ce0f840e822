import OpencodePty.JournalReader
import OpencodePty.XmlEscapes

/-!
# The tool that reads the output of a session

The tool answers with an element of XML. Its attributes describe the session, its content is a page
of lines, each with its number, the sequence of its first byte and its text, which is truncated
before it is escaped. After a timeout a reminder follows, in an element of its own. The tags of an
answer are these, whatever the session printed.

What the daemon finds of the session and of its output is a parameter.
-/

namespace OpencodePty.ReadTool

open JsValues TextEncodings TagScanning XmlEscapes
open BashTool (escapeXml truth pids)
open DaemonRedaction (arrayFrom)
open JournalReader (Line ReadResult SearchResult)

/-- How many lines are shown when the call does not say so. -/
def defaultReadLimit : Nat := 500

/-- How much of a line is shown. -/
def maxLineLength : Nat := 2000

/-! ## Lines -/

/-- A number that a length is compared with. Of a fraction it counts which integer is below it. -/
inductive Length where
  | integer (value : Int)
  | fraction (below : Int)
  | infinite
  | negativeInfinite
  | nan

/-- `count > maxLength` -/
def Length.exceeded (count : Nat) : Length → Bool
  | .integer value => value < count
  | .fraction below => below < count
  | .infinite => false
  | .negativeInfinite => true
  | .nan => false

/-- `slice(0, maxLength)`: a fraction is truncated, and a negative end counts from the back. -/
def slice {α : Type} (items : List α) : Length → List α
  | .integer value => items.take (position value)
  | .fraction below => items.take (position (if below < 0 then below + 1 else below))
  | .infinite => items
  | .negativeInfinite => []
  | .nan => []
where
  position (value : Int) : Nat := (if value < 0 then items.length + value else value).toNat

/-- A number in the answer. -/
def number (value : Nat) : JsString := js (toString value)

/-- A line with its number and its position, cut where it is too long. -/
def formatLine (line : JsString) (lineNum : Nat) (maxLength : Length) (sequence : Option Nat) :
    JsString :=
  let characters := arrayFrom line
  let truncatedLine :=
    if maxLength.exceeded characters.length then (slice characters maxLength).flatten ++ js "..."
    else line
  let position := (sequence.map fun sequence => js "@" ++ number sequence).getD []
  encode (padded 5 lineNum) ++ position ++ js "| " ++ escapeXml truncatedLine

example : formatLine (js "<output>") 1 (.integer 2000) none = js "00001| &lt;output&gt;" := by
  decide

/-! ## Answers -/

/-- A process that has left the session of the command. -/
structure EscapedDescendant where
  pid : Nat
  startIdentity : JsString

/-- What the tool shows of the containment of a session. -/
structure ContainmentReport where
  status : JsString
  observedGroupPids : List Nat
  observedSessionPids : List Nat
  observedEscapedDescendantPids : List Nat
  observedEscapedDescendants : Option (List EscapedDescendant)

/-- What the read tool shows of a session. -/
structure PTYSessionInfo where
  status : JsString
  timeoutSeconds : Option Nat
  timedOut : Bool
  terminationConfirmed : Bool
  containment : Option ContainmentReport
  outputSequence : Option Nat
  firstRetainedSequence : Option Nat
  outputTruncated : Option Bool

/-- What a session that has timed out is remarked with. -/
def buildTimeoutReminder (session : PTYSessionInfo) : JsString :=
  let termination := if session.terminationConfirmed then js "Termination was confirmed."
    else js "Termination was requested but is not confirmed."
  (js "\n").intercalate
    [js "<system_reminder>",
      js "This session reached `timeoutSeconds=" ++
        (session.timeoutSeconds.map number).getD (js "unknown") ++ js "`. " ++ termination,
      js "Use `pty_read` to inspect the final output or `pty_list` to review other sessions.",
      js "</system_reminder>"]

/-- The answer with the remark, where there is one. -/
def appendTimeoutReminder (output : JsString) (session : PTYSessionInfo) : JsString :=
  if session.timedOut then output ++ js "\n\n" ++ buildTimeoutReminder session else output

/-- The attributes of a tag, each with its value in quotes. -/
abbrev Attributes := List (String × JsString)

/-- An attribute with its escaped value. -/
def xmlAttribute (name : String) (value : JsString) : JsString :=
  js " " ++ js name ++ js "=\"" ++ value ++ js "\""

/-- The tag that an answer begins with. -/
def openingTag (attributes : Attributes) : JsString :=
  js "<pty_output" ++ attributes.flatMap (fun (name, value) => xmlAttribute name value) ++ js ">"

/-- The tag that an answer ends with. -/
def closingTag : JsString := js "</pty_output>"

/-- The processes that have left, each with its identity. -/
def identities (descendants : List EscapedDescendant) : JsString :=
  (js ",").intercalate (descendants.map fun descendant =>
    number descendant.pid ++ js ":" ++ descendant.startIdentity)

/-- The attributes about the processes of the command. -/
def containmentAttributes (session : PTYSessionInfo) : Attributes :=
  match session.containment with
  | none => []
  | some containment =>
    [("containment", escapeXml containment.status),
      ("termination_confirmed", truth session.terminationConfirmed),
      ("group_pids", pids containment.observedGroupPids),
      ("session_pids", pids containment.observedSessionPids),
      ("escaped_pids", pids containment.observedEscapedDescendantPids),
      ("escaped_identities",
        escapeXml ((containment.observedEscapedDescendants.map identities).getD []))]

/-- The attributes of the element. -/
def outputAttributes (id status : JsString) (outputSequence retainedFrom : Nat) (truncated : Bool)
    (pattern : Option JsString) (session : PTYSessionInfo) : Attributes :=
  [("id", escapeXml id), ("status", escapeXml status), ("output_sequence", number outputSequence),
      ("retained_from", number retainedFrom), ("truncated", truth truncated)] ++
    (pattern.map fun pattern => ("pattern", escapeXml pattern)).toList ++
    containmentAttributes session

/-- The answer: the lines between two tags, and what the next call may ask for. -/
def formatPtyOutput (id status : JsString) (pattern : Option JsString) (session : PTYSessionInfo)
    (formattedLines : List JsString) (hasMore : Bool) (paginationMessage endMessage : JsString) :
    JsString :=
  (js "\n").intercalate
    (openingTag (outputAttributes id status (session.outputSequence.getD 0)
        (session.firstRetainedSequence.getD 0) (session.outputTruncated.getD false)
        (pattern.filter fun pattern => !pattern.isEmpty) session) ::
      (formattedLines ++ [[], if hasMore then paginationMessage else endMessage, closingTag]))

/-- The error of a session that is not there. -/
def notFound (id : JsString) : JsString :=
  js "PTY session '" ++ id ++ js "' not found. Use pty_list to see active sessions."

/-- The session, with what a result says about its output. -/
def PTYSessionInfo.withResult (session : PTYSessionInfo) (nextSequence firstRetainedSequence : Nat)
    (truncated : Bool) : PTYSessionInfo :=
  { session with
    outputSequence := some nextSequence
    firstRetainedSequence := some firstRetainedSequence
    outputTruncated := some truncated }

/-- The answer to a call with a pattern. -/
def handlePatternRead (id pattern : JsString) (session : PTYSessionInfo) (offset : Nat) :
    Option SearchResult → Except JsString JsString
  | none => .error (notFound id)
  | some result =>
    if result.found.isEmpty then
      .ok (appendTimeoutReminder
        ((js "\n").intercalate
          [openingTag (outputAttributes id session.status result.nextSequence
              result.firstRetainedSequence result.truncated (some pattern) session),
            js "No lines matched the pattern '" ++ escapeXml pattern ++ js "'.",
            js "Total lines in buffer: " ++ number result.totalLines, closingTag])
        session)
    else
      let formattedLines := result.found.map fun line =>
        formatLine line.text line.lineNumber (.integer maxLineLength) (some line.sequence)
      let paginationMessage := js "(" ++ number result.found.length ++ js " of " ++
        number result.totalMatches ++ js " matches shown. Use offset=" ++
        number (offset + result.found.length) ++ js " to see more.)"
      let endMessage := js "(" ++ number result.totalMatches ++ js " match" ++
        (if result.totalMatches = 1 then [] else js "es") ++ js " from " ++
        number result.totalLines ++ js " total lines)"
      .ok (appendTimeoutReminder
        (formatPtyOutput id session.status (some pattern)
          (session.withResult result.nextSequence result.firstRetainedSequence result.truncated)
          formattedLines result.hasMore paginationMessage endMessage)
        session)

/-- The answer to a call without a pattern. -/
def handlePlainRead (id : JsString) (session : PTYSessionInfo) :
    Option ReadResult → Except JsString JsString
  | none => .error (notFound id)
  | some result =>
    if result.lines.isEmpty then
      .ok (appendTimeoutReminder
        ((js "\n").intercalate
          [openingTag (outputAttributes id session.status result.nextSequence
              result.firstRetainedSequence result.truncated none session),
            js "(No output available - buffer is empty)",
            js "Total lines: " ++ number result.totalLines, closingTag])
        session)
    else
      let formattedLines := result.lines.zipIdx.map fun (line, index) =>
        formatLine line (result.offset + index + 1) (.integer maxLineLength)
          result.sequences[index]?
      let shown := result.offset + result.lines.length
      let paginationMessage := js "(Buffer has more lines. Use offset=" ++ number shown ++
        js " to read beyond line " ++ number shown ++ js ")"
      let endMessage := js "(End of buffer - total " ++ number result.totalLines ++ js " lines)"
      .ok (appendTimeoutReminder
        (formatPtyOutput id session.status none
          (session.withResult result.nextSequence result.firstRetainedSequence result.truncated)
          formattedLines result.hasMore paginationMessage endMessage)
        session)

/-- What the daemon finds. -/
structure Manager where
  get : JsString → Option PTYSessionInfo
  search : JsString → JsString → Option Bool → Nat → Nat → Option Nat → Option SearchResult
  read : JsString → Nat → Nat → Option Nat → Option ReadResult

/-- What the read tool is called with. -/
structure ReadArgs where
  id : JsString
  offset : Option Nat
  limit : Option Nat
  pattern : Option JsString
  ignoreCase : Option Bool
  sequence : Option Nat

/-- `execute` of `ptyRead` -/
def execute (manager : Manager) (args : ReadArgs) : Except JsString JsString :=
  match manager.get args.id with
  | none => .error (notFound args.id)
  | some session =>
    let offset := args.offset.getD 0
    let limit := args.limit.getD defaultReadLimit
    match args.pattern.filter fun pattern => !pattern.isEmpty with
    | some pattern =>
      handlePatternRead args.id pattern session offset
        (manager.search args.id pattern args.ignoreCase offset limit args.sequence)
    | none => handlePlainRead args.id session (manager.read args.id offset limit args.sequence)

/-! ## Plain texts -/

/-- Digits have no markup. -/
theorem plain_digits {digits : List Char} (all : ∀ digit ∈ digits, digit.isDigit = true) :
    Plain markup (encode digits) := by
  intro unit member marked
  have digit : isDigit unit = true := List.all_eq_true.mp (encode_digits all).2 unit member
  have others : (markup.symbols.all fun symbol => !isDigit symbol) = true := by decide
  have other := List.all_eq_true.mp others unit marked
  rw [digit] at other
  cases other

/-- A number has no markup. -/
theorem plain_number (value : Nat) : Plain markup (number value) := by
  have written : (toString value).toList = Nat.toDigits 10 value := Nat.toList_repr
  rw [number, js, written]
  exact plain_digits fun _ member => toDigits_digits member

/-- A flag has no markup. -/
theorem plain_truth (value : Bool) : Plain markup (truth value) := by
  cases value
  · decide
  · decide

/-- Numbers of processes have no markup. -/
theorem plain_pids (values : List Nat) : Plain markup (pids values) := by
  refine Plain.joined (by decide) ?_
  intro text member
  obtain ⟨value, _, rfl⟩ := List.mem_map.mp member
  exact plain_number value

/-- A line has no markup, whatever the output is. -/
theorem plain_formatLine (line : JsString) (lineNum : Nat) (maxLength : Length)
    (sequence : Option Nat) : Plain markup (formatLine line lineNum maxLength sequence) := by
  have position :
      Plain markup ((sequence.map fun sequence => js "@" ++ number sequence).getD []) := by
    cases sequence with
    | none => exact (by decide : Plain markup [])
    | some sequence => exact plain_append.mpr ⟨by decide, plain_number sequence⟩
  have numbered := plain_digits fun digit => @padded_digits 5 lineNum digit
  simp only [formatLine, plain_append]
  exact ⟨⟨⟨numbered, position⟩, by decide⟩, plain_escapeXml _⟩

/-! ## Tags -/

/-- What the tags of an answer are made of. -/
def PlainAttributes (attributes : Attributes) : Prop :=
  ∀ entry ∈ attributes, Plain markup (js entry.1) ∧ Plain markup entry.2

/-- The quote around the value of an attribute. -/
def doubleQuote : markup.Quote := ⟨0x22, by decide⟩

/-- The value of an attribute stands in quotes and does not end them. -/
theorem enclosed_xmlAttribute {name : String} {value : JsString} (named : Plain markup (js name))
    (plain : Plain markup value) : Enclosed markup (xmlAttribute name value) := by
  have blank : Enclosed markup (js " ") := by decide
  have begins : within (none : Option markup.Quote) (js "=\"") = some (some doubleQuote) := by
    decide
  have ends : within (some doubleQuote) (js "\"") = some none := by decide
  have before := within_append (within_append blank (within_plain named none)) begins
  exact within_append (within_append before (within_plain plain _)) ends

/-- What the attributes contain stays between their quotes. -/
theorem enclosed_attributes {attributes : Attributes} (plain : PlainAttributes attributes) :
    Enclosed markup (attributes.flatMap fun (name, value) => xmlAttribute name value) := by
  induction attributes with
  | nil => exact (by decide : Enclosed markup [])
  | cons entry rest inductionHypothesis =>
    obtain ⟨⟨named, value⟩, later⟩ := List.forall_mem_cons.mp plain
    rw [List.flatMap_cons]
    exact (enclosed_xmlAttribute named value).append (inductionHypothesis later)

/-- The attributes about the processes have no markup. -/
theorem plain_containmentAttributes (session : PTYSessionInfo) :
    PlainAttributes (containmentAttributes session) := by
  rw [containmentAttributes]
  cases session.containment with
  | none => exact fun _ member => absurd member List.not_mem_nil
  | some containment =>
    simp only [PlainAttributes, List.forall_mem_cons]
    exact ⟨⟨by decide, plain_escapeXml _⟩, ⟨by decide, plain_truth _⟩, ⟨by decide, plain_pids _⟩,
      ⟨by decide, plain_pids _⟩, ⟨by decide, plain_pids _⟩, ⟨by decide, plain_escapeXml _⟩,
      fun _ member => absurd member List.not_mem_nil⟩

/-- The attributes of an answer have no markup. -/
theorem plain_outputAttributes (id status : JsString) (outputSequence retainedFrom : Nat)
    (truncated : Bool) (pattern : Option JsString) (session : PTYSessionInfo) :
    PlainAttributes
      (outputAttributes id status outputSequence retainedFrom truncated pattern session) := by
  have fixed : PlainAttributes [("id", escapeXml id), ("status", escapeXml status),
      ("output_sequence", number outputSequence), ("retained_from", number retainedFrom),
      ("truncated", truth truncated)] := by
    simp only [PlainAttributes, List.forall_mem_cons]
    exact ⟨⟨by decide, plain_escapeXml _⟩, ⟨by decide, plain_escapeXml _⟩,
      ⟨by decide, plain_number _⟩, ⟨by decide, plain_number _⟩, ⟨by decide, plain_truth _⟩,
      fun _ member => absurd member List.not_mem_nil⟩
  have patterned :
      PlainAttributes (pattern.map fun pattern => ("pattern", escapeXml pattern)).toList := by
    cases pattern with
    | none => exact fun _ member => absurd member List.not_mem_nil
    | some pattern =>
      intro entry member
      obtain rfl := List.mem_singleton.mp member
      exact ⟨(by decide : Plain markup (js "pattern")), plain_escapeXml pattern⟩
  exact List.forall_mem_append.mpr
    ⟨List.forall_mem_append.mpr ⟨fixed, patterned⟩, plain_containmentAttributes session⟩

/-- A text between angle brackets in which no quote stays open is a tag. -/
theorem bracketed_read {text body : JsString} (enclosed : Enclosed markup body)
    (bracketed : text = js "<" ++ body ++ js ">") :
    Settled markup text ∧ tags markup text = [text] := by
  have opening : js "<" = [markup.opening] := by decide
  have closing : js ">" = [markup.closing] := by decide
  rw [bracketed, opening, closing]
  exact enclosed.tag

/-- The opening tag is read as one tag. -/
theorem openingTag_read {attributes : Attributes} (plain : PlainAttributes attributes) :
    Settled markup (openingTag attributes) ∧
      tags markup (openingTag attributes) = [openingTag attributes] := by
  have named : Enclosed markup (js "pty_output") := by decide
  have begins : js "<pty_output" = js "<" ++ js "pty_output" := by decide
  refine bracketed_read (named.append (enclosed_attributes plain)) ?_
  rw [openingTag, begins, List.append_assoc (js "<")]

/-- The closing tag is read as one tag. -/
theorem closingTag_read : Settled markup closingTag ∧ tags markup closingTag = [closingTag] :=
  bracketed_read (by decide : Enclosed markup (js "/pty_output")) (by decide)

/-- The tags of an answer: those of its element, and behind a timeout those of the reminder. -/
def answerTags (attributes : Attributes) (session : PTYSessionInfo) : List JsString :=
  [openingTag attributes, closingTag] ++
    if session.timedOut then [js "<system_reminder>", js "</system_reminder>"] else []

/-- Lines without an opening bracket between the tags of an element. -/
theorem element_read {attributes : Attributes} (plain : PlainAttributes attributes)
    {lines : List JsString} (unopened : ∀ line ∈ lines, markup.opening ∉ line) :
    Settled markup ((js "\n").intercalate (openingTag attributes :: (lines ++ [closingTag]))) ∧
      tags markup ((js "\n").intercalate (openingTag attributes :: (lines ++ [closingTag]))) =
        [openingTag attributes, closingTag] := by
  obtain ⟨opened, openingTags⟩ := openingTag_read plain
  obtain ⟨closed, closingTags⟩ := closingTag_read
  have settled : ∀ line ∈ openingTag attributes :: (lines ++ [closingTag]),
      Settled markup line := by
    refine List.forall_mem_cons.mpr ⟨opened, List.forall_mem_append.mpr ⟨?_, ?_⟩⟩
    · exact fun line member => settled_of_unopened (unopened line member)
    · exact List.forall_mem_singleton.mpr closed
  obtain ⟨whole, found⟩ := joined_lines (by decide : Plain markup (js "\n")) settled
  refine ⟨whole, ?_⟩
  have between : lines.flatMap (tags markup) = [] :=
    List.flatMap_eq_nil_iff.mpr fun line member => tags_of_unopened (unopened line member)
  rw [found, List.flatMap_cons, List.flatMap_append, between, openingTags, List.flatMap_singleton,
    closingTags]
  rfl

/-- The remark has its own two tags only. -/
theorem buildTimeoutReminder_tags (session : PTYSessionInfo) :
    tags markup (buildTimeoutReminder session) =
      [js "<system_reminder>", js "</system_reminder>"] := by
  have opened := bracketed_read (by decide : Enclosed markup (js "system_reminder"))
    (by decide : js "<system_reminder>" = _)
  have closed := bracketed_read (by decide : Enclosed markup (js "/system_reminder"))
    (by decide : js "</system_reminder>" = _)
  have timeout : Plain markup ((session.timeoutSeconds.map number).getD (js "unknown")) := by
    cases session.timeoutSeconds with
    | none => exact (by decide : Plain markup (js "unknown"))
    | some seconds => exact plain_number seconds
  have termination : Plain markup (if session.terminationConfirmed then
      js "Termination was confirmed." else
      js "Termination was requested but is not confirmed.") := by
    split
    · decide
    · decide
  have reached : Plain markup (js "This session reached `timeoutSeconds=" ++
      (session.timeoutSeconds.map number).getD (js "unknown") ++ js "`. " ++
      if session.terminationConfirmed then js "Termination was confirmed." else
        js "Termination was requested but is not confirmed.") := by
    simp only [plain_append]
    exact ⟨⟨⟨by decide, timeout⟩, by decide⟩, termination⟩
  have advice : Plain markup (js
      "Use `pty_read` to inspect the final output or `pty_list` to review other sessions.") := by
    decide
  have settled := List.forall_mem_cons.mpr ⟨opened.1, List.forall_mem_cons.mpr
    ⟨reached.inert.settled, List.forall_mem_cons.mpr ⟨advice.inert.settled,
      List.forall_mem_singleton.mpr closed.1⟩⟩⟩
  have found := (joined_lines (by decide : Plain markup (js "\n")) settled).2
  refine found.trans ?_
  simp only [List.flatMap_cons, List.flatMap_nil, opened.2, closed.2, reached.inert.tags,
    advice.inert.tags]
  rfl

/-- The reminder stands behind the element. -/
theorem appendTimeoutReminder_tags {attributes : Attributes} {element : JsString}
    (session : PTYSessionInfo)
    (read : Settled markup element ∧ tags markup element = [openingTag attributes, closingTag]) :
    tags markup (appendTimeoutReminder element session) = answerTags attributes session := by
  obtain ⟨settled, found⟩ := read
  rw [appendTimeoutReminder, answerTags]
  split
  · have blank : Inert markup (js "\n\n") := (by decide : Plain markup (js "\n\n")).inert
    rw [(settled.append blank.settled).tags_append, settled.tags_append, found, blank.tags,
      buildTimeoutReminder_tags]
    rfl
  · exact found

/-- An answer without lines has two messages instead. -/
theorem message_tags {attributes : Attributes} {first second : JsString} (session : PTYSessionInfo)
    (plain : PlainAttributes attributes) (one : markup.opening ∉ first)
    (two : markup.opening ∉ second) :
    tags markup (appendTimeoutReminder
      ((js "\n").intercalate [openingTag attributes, first, second, closingTag]) session) =
        answerTags attributes session := by
  have unopened : ∀ line ∈ [first, second], markup.opening ∉ line :=
    List.forall_mem_cons.mpr ⟨one, List.forall_mem_singleton.mpr two⟩
  exact appendTimeoutReminder_tags session (element_read plain unopened)

/-- Lines and messages that are plain leave the tags of an answer as they are. -/
theorem formatPtyOutput_tags (id status : JsString) (pattern : Option JsString)
    (session shown : PTYSessionInfo) {formattedLines : List JsString} (hasMore : Bool)
    {paginationMessage endMessage : JsString}
    (formatted : ∀ line ∈ formattedLines, Plain markup line)
    (pagination : Plain markup paginationMessage) (ending : Plain markup endMessage) :
    ∃ attributes, PlainAttributes attributes ∧
      tags markup (appendTimeoutReminder (formatPtyOutput id status pattern shown formattedLines
        hasMore paginationMessage endMessage) session) = answerTags attributes session := by
  have message : Plain markup (if hasMore then paginationMessage else endMessage) := by
    split
    · exact pagination
    · exact ending
  have unopened :
      ∀ line ∈ formattedLines ++ [[], if hasMore then paginationMessage else endMessage],
        markup.opening ∉ line := by
    refine List.forall_mem_append.mpr ⟨fun line member => (formatted line member).unopened, ?_⟩
    exact List.forall_mem_cons.mpr ⟨List.not_mem_nil,
      List.forall_mem_singleton.mpr message.unopened⟩
  have plain := plain_outputAttributes id status (shown.outputSequence.getD 0)
    (shown.firstRetainedSequence.getD 0) (shown.outputTruncated.getD false)
    (pattern.filter fun pattern => !pattern.isEmpty) shown
  have read := element_read plain unopened
  rw [List.append_assoc] at read
  exact ⟨_, plain, appendTimeoutReminder_tags session read⟩

/-! ## Answers -/

/-- An answer to a pattern has the tags of the tool only. -/
theorem handlePatternRead_tags {id pattern output : JsString} {session : PTYSessionInfo}
    {offset : Nat} {result : Option SearchResult}
    (answered : handlePatternRead id pattern session offset result = .ok output) :
    ∃ attributes, PlainAttributes attributes ∧
      tags markup output = answerTags attributes session := by
  cases result with
  | none => cases answered
  | some result =>
    rw [handlePatternRead] at answered
    split at answered
    · cases answered
      have told : markup.opening ∉
          js "No lines matched the pattern '" ++ escapeXml pattern ++ js "'." := by
        simp only [List.mem_append, not_or]
        exact ⟨⟨by decide, (plain_escapeXml pattern).unopened⟩, by decide⟩
      have total : Plain markup (js "Total lines in buffer: " ++ number result.totalLines) :=
        plain_append.mpr ⟨by decide, plain_number _⟩
      have plain := plain_outputAttributes id session.status result.nextSequence
        result.firstRetainedSequence result.truncated (some pattern) session
      exact ⟨_, plain, message_tags session plain told total.unopened⟩
    · cases answered
      refine formatPtyOutput_tags id session.status (some pattern) session _ result.hasMore
        ?formatted ?pagination ?ending
      case formatted =>
        intro line member
        obtain ⟨found, _, rfl⟩ := List.mem_map.mp member
        exact plain_formatLine _ _ _ _
      case pagination =>
        simp only [plain_append]
        exact ⟨⟨⟨⟨⟨⟨by decide, plain_number _⟩, by decide⟩, plain_number _⟩, by decide⟩,
          plain_number _⟩, by decide⟩
      case ending =>
        have plural : Plain markup (if result.totalMatches = 1 then [] else js "es") := by
          split
          · decide
          · decide
        simp only [plain_append]
        exact ⟨⟨⟨⟨⟨⟨by decide, plain_number _⟩, by decide⟩, plural⟩, by decide⟩,
          plain_number _⟩, by decide⟩

/-- An answer without a pattern has the tags of the tool only. -/
theorem handlePlainRead_tags {id output : JsString} {session : PTYSessionInfo}
    {result : Option ReadResult} (answered : handlePlainRead id session result = .ok output) :
    ∃ attributes, PlainAttributes attributes ∧
      tags markup output = answerTags attributes session := by
  cases result with
  | none => cases answered
  | some result =>
    rw [handlePlainRead] at answered
    split at answered
    · cases answered
      have empty : Plain markup (js "(No output available - buffer is empty)") := by decide
      have total : Plain markup (js "Total lines: " ++ number result.totalLines) :=
        plain_append.mpr ⟨by decide, plain_number _⟩
      have plain := plain_outputAttributes id session.status result.nextSequence
        result.firstRetainedSequence result.truncated none session
      exact ⟨_, plain, message_tags session plain empty.unopened total.unopened⟩
    · cases answered
      refine formatPtyOutput_tags id session.status none session _ result.hasMore
        ?formatted ?pagination ?ending
      case formatted =>
        intro line member
        obtain ⟨found, _, rfl⟩ := List.mem_map.mp member
        exact plain_formatLine _ _ _ _
      case pagination =>
        simp only [plain_append]
        exact ⟨⟨⟨⟨by decide, plain_number _⟩, by decide⟩, plain_number _⟩, by decide⟩
      case ending =>
        simp only [plain_append]
        exact ⟨⟨by decide, plain_number _⟩, by decide⟩

/-- Whatever a session has written, an answer has the tags of the tool only. -/
theorem execute_tags {manager : Manager} {args : ReadArgs} {output : JsString}
    (answered : execute manager args = .ok output) :
    ∃ session attributes, manager.get args.id = some session ∧ PlainAttributes attributes ∧
      tags markup output = answerTags attributes session := by
  rw [execute] at answered
  split at answered
  · cases answered
  · rename_i session found
    refine ⟨session, ?_⟩
    dsimp only at answered
    split at answered
    · obtain ⟨attributes, same⟩ := handlePatternRead_tags answered
      exact ⟨attributes, found, same⟩
    · obtain ⟨attributes, same⟩ := handlePlainRead_tags answered
      exact ⟨attributes, found, same⟩

/-- Escaping is exact, a rendered line is inert wherever it stands, and the tags of an answer are
those of the tool. -/
theorem xml_escaping :
    (∀ text, Escapes text (escapeXml text)) ∧
      (∀ line lineNum maxLength sequence,
        Inert markup (formatLine line lineNum maxLength sequence)) ∧
      ∀ manager args output, execute manager args = .ok output →
        ∃ session attributes, manager.get args.id = some session ∧ PlainAttributes attributes ∧
          tags markup output = answerTags attributes session := by
  refine ⟨escapes, ?_, ?_⟩
  · intro line lineNum maxLength sequence
    exact (plain_formatLine line lineNum maxLength sequence).inert
  · intro manager args output answered
    exact execute_tags answered

end OpencodePty.ReadTool
