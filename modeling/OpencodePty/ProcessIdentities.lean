import OpencodePty.OwnershipSecrets
import OpencodePty.ProcessScans
import OpencodePty.StreamDecoding
import OpencodePty.Words

/-!
# Identities of processes

On Linux a process is told from a later one with the same number by its start time, which is the
twentieth field of `/proc/<pid>/stat` behind the name of its program. The name stands in parentheses,
and may hold anything: spaces, parentheses, and bytes that are no text. The daemon, the worker for
itself, the worker for its child and the scans of the worker each find the start time in their own
way, and compare what they have found as texts.

The daemon decodes the file with replacements, and the worker gives up where it is no text. What
stands behind the last parenthesis is ASCII.
-/

namespace OpencodePty.ProcessIdentities

open JsValues TextEncodings StreamDecoding Words Utf8Sequences
open OwnershipSecrets (isTrimmed trim)
open ProcessScans (ProcessInfo)

/-! ## The daemon -/

/-- `text.slice(text.lastIndexOf(unit) + 1)`: the whole text where the unit is missing. -/
def afterLast (unit : UInt16) (text : JsString) : JsString := text.rtakeWhile (· != unit)

/-- `.split(/\s+/)[19]` of what is behind the last parenthesis, where it is not empty. -/
def startTimeOf (stat : List UInt8) : Option JsString :=
  (splitRuns isTrimmed false (trim (afterLast 41 (encode (fromUtf8Lossy stat)))))[19]?.filter
    (!·.isEmpty)

/-- `processStartIdentity` on Linux of a positive safe number, with the content of the file. -/
def processStartIdentity (pid : Nat) (stat : Option (List UInt8)) : Option JsString :=
  (stat.bind startTimeOf).map fun startTime =>
    js "posix:" ++ encode (Nat.toDigits 10 pid) ++ js ":" ++ startTime

/-! ## The worker -/

/-- `White_Space` -/
def isWhitespace (character : Char) : Bool :=
  let code := character.toNat
  (9 ≤ code && code ≤ 13) || code == 32 || code == 0x85 || code == 0xa0 || code == 0x1680 ||
    (0x2000 ≤ code && code ≤ 0x200a) || code == 0x2028 || code == 0x2029 || code == 0x202f ||
    code == 0x205f || code == 0x3000

/-- `rsplit_once`, of which only what is behind is used. -/
def behindLast (character : Char) (text : List Char) : Option (List Char) :=
  if character ∈ text then some (text.rtakeWhile (· != character)) else none

/-- `read_to_string` -/
def readToString (stat : Except String (List UInt8)) : Except String (List Char) := do
  match fromUtf8 (← stat) with
  | .ok text => return text
  | .error _ => throw "stream did not contain valid UTF-8"

/-- `format!("posix:{pid}:{start_time}")` -/
def identity (pid : Nat) (startTime : List Char) : List Char :=
  "posix:".toList ++ Nat.toDigits 10 pid ++ ':' :: startTime

/-- The identity in a file, with the errors of its caller. -/
def startIdentity (invalid missing : String) (pid : Nat) (stat : Except String (List UInt8)) :
    Except String (List Char) := do
  match behindLast ')' (← readToString stat) with
  | none => throw invalid
  | some tail =>
    match (words isWhitespace tail)[19]? with
    | none => throw missing
    | some startTime => return identity pid startTime

/-- `process_identity` -/
def processIdentity : Nat → Except String (List UInt8) → Except String (List Char) :=
  startIdentity "invalid /proc/self/stat" "missing /proc/self/stat start time"

/-- `child_start_identity` -/
def childStartIdentity : Nat → Except String (List UInt8) → Except String (List Char) :=
  startIdentity "invalid child /proc stat" "missing child start time"

/-- `str::parse` of an unsigned number of so many bits. -/
def parseUnsigned (bits : Nat) (text : List Char) : Option Nat :=
  let digits := if text.head? = some '+' then text.tail else text
  if digits ≠ [] && digits.all Char.isDigit then
    let number := Nat.ofDigitChars 10 digits 0
    if number < 2 ^ bits then some number else none
  else none

/-- What `linux_processes` makes of a file. Nothing where the number is unreadable. -/
def scanned (pid : Nat) (stat : Except String (List UInt8)) : Option ProcessInfo := do
  let text ← (readToString stat).toOption
  let tail ← behindLast ')' text
  let fields := words isWhitespace tail
  let ppid ← fields[1]?.bind (parseUnsigned 32)
  let pgid ← fields[2]?.bind (parseUnsigned 32)
  let sid ← fields[3]?.bind (parseUnsigned 32)
  let startTime ← fields[19]?
  return { pid, ppid, pgid, sid, startTime }

/-! ## What is behind the parenthesis -/

/-- A byte that is a character is a byte of no other character. -/
theorem encoded_single {single character : Char} {byte : UInt8}
    (alone : String.utf8EncodeChar single = [byte]) (begins : isContinuation byte = false)
    (member : byte ∈ String.utf8EncodeChar character) : character = single := by
  obtain ⟨position, found⟩ := List.mem_iff_getElem?.mp member
  cases position with
  | zero =>
    obtain ⟨rest, same⟩ : ∃ rest, String.utf8EncodeChar character = byte :: rest := by
      cases bytes : String.utf8EncodeChar character with
      | nil => exact absurd bytes (encoded_nonempty character)
      | cons first rest =>
        rw [bytes] at found
        exact ⟨rest, by rw [Option.some.inj found]⟩
    have whole : String.utf8EncodeChar character ++ [] = String.utf8EncodeChar single ++ rest := by
      rw [List.append_nil, same, alone]
      rfl
    exact (encoded_inj whole).1
  | succ position =>
    rw [encoded_continuation found] at begins
    cases begins

/-- No character but the parenthesis has its byte. -/
theorem parenthesis_alone {before after : List UInt8} {character : Char}
    (same : String.utf8EncodeChar character = before ++ 41 :: after) : before = [] := by
  have member : 41 ∈ String.utf8EncodeChar character :=
    same ▸ List.mem_append_right before List.mem_cons_self
  have single : String.utf8EncodeChar ')' = [41] := rfl
  rw [encoded_single single rfl member, single] at same
  have length := congrArg List.length same
  simp only [List.length_append, List.length_cons, List.length_nil] at length
  exact List.length_eq_zero_iff.mp (by omega)

/-- No character has bytes on both sides of a parenthesis. -/
theorem character_before {bytes more : List UInt8} {character : Char} (nonempty : bytes ≠ [])
    (inside : String.utf8EncodeChar character <+: bytes ++ 41 :: more) :
    String.utf8EncodeChar character <+: bytes := by
  by_cases shorter : (String.utf8EncodeChar character).length ≤ bytes.length
  · exact List.prefix_of_prefix_length_le inside (List.prefix_append _ _) shorter
  · obtain ⟨front, same⟩ : bytes <+: String.utf8EncodeChar character :=
      List.prefix_of_prefix_length_le (List.prefix_append _ _) inside (by omega)
    rw [← same, List.prefix_append_right_inj] at inside
    cases front with
    | nil =>
      rw [List.append_nil] at same
      exact absurd (Nat.le_of_eq (congrArg List.length same.symm)) shorter
    | cons first rest =>
      obtain rfl : first = 41 := (List.cons_prefix_cons.mp inside).1
      exact absurd (parenthesis_alone same.symm) nonempty

/-- A broken sequence does not grow into the parenthesis. -/
theorem maximal_parenthesis {part rest : List UInt8} (maximal : MaximalSubpart part rest)
    (more : List UInt8) : MaximalSubpart part (rest ++ 41 :: more) where
  nonempty := maximal.nonempty
  characterless character inside := by
    rw [← List.append_assoc] at inside
    have present : part ++ rest ≠ [] := by simp [maximal.nonempty]
    exact maximal.characterless character (character_before present inside)
  single := maximal.single
  longest extra nonempty inside begins := by
    by_cases shorter : extra.length ≤ rest.length
    · exact maximal.longest extra nonempty
        (List.prefix_of_prefix_length_le inside (List.prefix_append _ _) shorter) begins
    · obtain ⟨front, same⟩ : rest <+: extra :=
        List.prefix_of_prefix_length_le (List.prefix_append _ _) inside (by omega)
      rw [← same, List.prefix_append_right_inj] at inside
      obtain ⟨character, after, _, encoded⟩ := begins
      cases front with
      | nil =>
        rw [List.append_nil] at same
        exact absurd (Nat.le_of_eq (congrArg List.length same.symm)) shorter
      | cons first others =>
        obtain rfl : first = 41 := (List.cons_prefix_cons.mp inside).1
        have split : String.utf8EncodeChar character =
            (part ++ rest) ++ 41 :: (others ++ after) := by
          rw [encoded, ← same]
          simp
        have empty := parenthesis_alone split
        exact maximal.nonempty (List.append_eq_nil_iff.mp empty).1

/-- Whole text is decoded as itself. -/
theorem lossy_text (text : List Char) : Lossy replacement (asBytes text) text := by
  induction text with
  | nil => exact .nil
  | cons character text inductionHypothesis =>
    rw [asBytes_cons]
    exact .character character inductionHypothesis

/-- The parenthesis is one byte. -/
theorem asBytes_parenthesis (tail : List Char) : asBytes (')' :: tail) = 41 :: asBytes tail := by
  rw [asBytes_cons]
  rfl

/-- A parenthesis ends every sequence before it. -/
theorem lossy_parenthesis {bytes : List UInt8} {text : List Char}
    (lossy : Lossy replacement bytes text) (tail : List Char) :
    Lossy replacement (bytes ++ asBytes (')' :: tail)) (text ++ ')' :: tail) := by
  induction lossy with
  | nil => exact lossy_text (')' :: tail)
  | character value _ inductionHypothesis =>
    rw [List.append_assoc, List.cons_append]
    exact .character value inductionHypothesis
  | subpart maximal _ inductionHypothesis =>
    rw [List.append_assoc, List.cons_append]
    rw [asBytes_parenthesis] at inductionHypothesis ⊢
    exact .subpart (maximal_parenthesis maximal (asBytes tail)) inductionHypothesis

/-- What is decoded in front of the parenthesis does not depend on what follows it. -/
theorem decoded_parenthesis (before : List UInt8) (tail : List Char) :
    fromUtf8Lossy (before ++ asBytes (')' :: tail)) = fromUtf8Lossy before ++ ')' :: tail :=
  (fromUtf8Lossy_lossy _).unique (lossy_parenthesis (fromUtf8Lossy_lossy before) tail)

/-- What is behind the last of a symbol. -/
theorem rtakeWhile_last {α : Type} [DecidableEq α] {symbol : α} {tail : List α}
    (absent : symbol ∉ tail) (before : List α) :
    (before ++ symbol :: tail).rtakeWhile (· != symbol) = tail := by
  have kept : ∀ other ∈ tail.reverse, (other != symbol) = true := by
    intro other member
    rw [bne_iff_ne]
    rintro rfl
    exact absent (List.mem_reverse.mp member)
  rw [List.rtakeWhile, List.reverse_append, List.reverse_cons, List.append_assoc,
    List.takeWhile_append_of_pos kept]
  simp

/-! ## ASCII -/

/-- All characters are of one byte. -/
def Ascii (text : List Char) : Prop := ∀ character ∈ text, character.toNat < 128

/-- The unit of such a character. -/
def unitOf (character : Char) : UInt16 := character.toNat.toUInt16

/-- Such a text has one unit for each character. -/
theorem encode_units {text : List Char} (ascii : Ascii text) : encode text = text.map unitOf := by
  induction text with
  | nil => rfl
  | cons character text inductionHypothesis =>
    obtain ⟨small, others⟩ := List.forall_mem_cons.mp ascii
    have single : encodeChar character = [unitOf character] := by
      rw [encodeChar, if_pos (by omega), unitOf]
    rw [encode_cons, single, List.singleton_append, List.map_cons, inductionHypothesis others]

/-- Both languages have the same spaces in ASCII. -/
theorem spaces_agree {character : Char} (small : character.toNat < 128) :
    isTrimmed (unitOf character) = isWhitespace character := by
  unfold unitOf isWhitespace
  generalize character.toNat = code at small
  revert code
  decide

/-- Only the parenthesis has its unit. -/
theorem unitOf_parenthesis {character : Char} (small : character.toNat < 128)
    (same : unitOf character = 41) : character = ')' := by
  have value : character.toNat = 41 := by
    rw [← toNat_toUInt16 (show character.toNat < 0x10000 by omega), ← unitOf, same]
    rfl
  rw [← Char.ofNat_toNat character, value]

section Files

variable {tail : List Char}

/-- The start time is the twentieth word behind the last parenthesis. -/
theorem startTimeOf_tail (ascii : Ascii tail) (plain : ')' ∉ tail) (before : List UInt8) :
    startTimeOf (before ++ asBytes (')' :: tail)) =
      (words isWhitespace tail)[19]?.map encode := by
  have absent : 41 ∉ encode tail := by
    rw [encode_units ascii]
    intro member
    obtain ⟨character, inside, same⟩ := List.mem_map.mp member
    exact plain (unitOf_parenthesis (ascii character inside) same ▸ inside)
  have parenthesis : encode (')' :: tail) = 41 :: encode tail := by
    rw [encode_cons]
    rfl
  have behind : afterLast 41 (encode (fromUtf8Lossy (before ++ asBytes (')' :: tail)))) =
      encode tail := by
    rw [decoded_parenthesis, encode_append, parenthesis, afterLast, rtakeWhile_last absent]
  rw [startTimeOf, behind]
  have written : words isTrimmed (encode tail) = (words isWhitespace tail).map encode := by
    rw [encode_units ascii, words_map unitOf fun character member =>
      spaces_agree (ascii character member)]
    apply List.map_congr_left
    intro word member
    rw [encode_units fun character inside => ascii character (words_mem member inside)]
  exact (splitRuns_get (encode tail) 19).trans (by rw [written, List.getElem?_map])

/-- Where the file is a text, it is the decoded one. -/
theorem readToString_ok {bytes : List UInt8} {text : List Char}
    (read : readToString (.ok bytes) = .ok text) : text = fromUtf8Lossy bytes := by
  have view := checked_fromUtf8 bytes
  change (match fromUtf8 bytes with
    | .ok text => Except.ok text
    | .error _ => Except.error "stream did not contain valid UTF-8") = .ok text at read
  generalize fromUtf8 bytes = outcome at view read
  cases view with
  | valid found =>
    cases read
    exact (lossy_text text).unique (fromUtf8Lossy_lossy _)
  | broken found refused => cases read
  | unfinished found begins nonempty => cases read

/-- The bytes of a text are that text. -/
theorem fromUtf8_text (text : List Char) : fromUtf8 (asBytes text) = .ok text := by
  rw [fromUtf8, validFrom_text]
  rfl

/-- A file with the bytes of a text is read as that text. -/
theorem readToString_text (text : List Char) : readToString (.ok (asBytes text)) = .ok text := by
  change (match fromUtf8 (asBytes text) with
    | .ok text => Except.ok text
    | .error _ => Except.error "stream did not contain valid UTF-8") = .ok text
  rw [fromUtf8_text]

/-- Behind the last parenthesis stands the rest of the line. -/
theorem behindLast_tail (plain : ')' ∉ tail) (before : List Char) :
    behindLast ')' (before ++ ')' :: tail) = some tail := by
  rw [behindLast, if_pos (by simp), rtakeWhile_last plain]

/-- The units of four texts that follow one another. -/
theorem encode_parts (first second third fourth : List Char) :
    encode (first ++ second ++ (third ++ fourth)) =
      encode first ++ encode second ++ encode third ++ encode fourth := by
  simp only [encode_append, List.append_assoc]

/-- The identity has its process id and its start time. -/
theorem encode_identity (pid : Nat) (startTime : List Char) :
    encode (identity pid startTime) =
      js "posix:" ++ encode (Nat.toDigits 10 pid) ++ js ":" ++ encode startTime :=
  encode_parts _ _ ":".toList startTime

/-- The daemon reads the twentieth word behind the last parenthesis. -/
theorem processStartIdentity_tail (ascii : Ascii tail) (plain : ')' ∉ tail) (pid : Nat)
    (before : List UInt8) :
    processStartIdentity pid (some (before ++ asBytes (')' :: tail))) =
      (words isWhitespace tail)[19]?.map fun startTime => encode (identity pid startTime) := by
  rw [processStartIdentity, Option.bind_some, startTimeOf_tail ascii plain, Option.map_map]
  congr 1
  funext startTime
  exact (encode_identity pid startTime).symm

/-- What the worker finds behind the parenthesis of a file that is a text. -/
theorem startIdentity_tail (plain : ')' ∉ tail) {invalid missing : String} {pid : Nat}
    {bytes before : List UInt8} {text : List Char} (read : readToString (.ok bytes) = .ok text)
    (same : bytes = before ++ asBytes (')' :: tail)) :
    startIdentity invalid missing pid (.ok bytes) =
      match (words isWhitespace tail)[19]? with
      | none => .error missing
      | some startTime => .ok (identity pid startTime) := by
  have behind : behindLast ')' text = some tail := by
    rw [readToString_ok read, same, decoded_parenthesis, behindLast_tail plain]
  rw [startIdentity, read]
  change (match behindLast ')' text with
    | none => throw invalid
    | some tail =>
      match (words isWhitespace tail)[19]? with
      | none => throw missing
      | some startTime => pure (identity pid startTime)) = _
  rw [behind]
  rfl

/-- An identity that the worker finds in a file is the one that the daemon finds. -/
theorem startIdentity_ok (ascii : Ascii tail) (plain : ')' ∉ tail) {invalid missing : String}
    {pid : Nat} {before : List UInt8} {found : List Char}
    (identified : startIdentity invalid missing pid (.ok (before ++ asBytes (')' :: tail))) =
      .ok found) :
    processStartIdentity pid (some (before ++ asBytes (')' :: tail))) = some (encode found) := by
  cases read : readToString (.ok (before ++ asBytes (')' :: tail))) with
  | error message =>
    rw [startIdentity, read] at identified
    cases identified
  | ok text =>
    rw [startIdentity_tail plain read rfl] at identified
    rw [processStartIdentity_tail ascii plain]
    cases field : (words isWhitespace tail)[19]? with
    | none =>
      rw [field] at identified
      cases identified
    | some startTime =>
      rw [field] at identified
      cases identified
      rfl

/-- What the scan records of a process is what the daemon reads of it. -/
theorem scanned_identity (ascii : Ascii tail) (plain : ')' ∉ tail) {pid : Nat}
    {before : List UInt8} {process : ProcessInfo}
    (found : scanned pid (.ok (before ++ asBytes (')' :: tail))) = some process) :
    process.pid = pid ∧ processStartIdentity pid (some (before ++ asBytes (')' :: tail))) =
      some (encode process.identity) := by
  obtain ⟨text, read, found⟩ := Option.bind_eq_some_iff.mp found
  obtain ⟨behind, split, found⟩ := Option.bind_eq_some_iff.mp found
  obtain ⟨ppid, _, found⟩ := Option.bind_eq_some_iff.mp found
  obtain ⟨pgid, _, found⟩ := Option.bind_eq_some_iff.mp found
  obtain ⟨sid, _, found⟩ := Option.bind_eq_some_iff.mp found
  obtain ⟨startTime, field, found⟩ := Option.bind_eq_some_iff.mp found
  cases found
  have text' : readToString (.ok (before ++ asBytes (')' :: tail))) = .ok text := by
    cases outcome : readToString (.ok (before ++ asBytes (')' :: tail))) with
    | error message =>
      rw [outcome] at read
      cases read
    | ok known =>
      rw [outcome] at read
      exact congrArg Except.ok (Option.some.inj read)
  rw [readToString_ok text', decoded_parenthesis, behindLast_tail plain] at split
  cases split
  refine ⟨rfl, ?_⟩
  rw [processStartIdentity_tail ascii plain, field]
  rfl

end Files

/-! ## Identities -/

/-- Texts are known by what is in front of the first of a symbol, and behind it. -/
theorem parted {α : Type} {symbol : α} {first second behind after : List α}
    (absent : symbol ∉ first) (missing : symbol ∉ second)
    (same : first ++ symbol :: behind = second ++ symbol :: after) :
    first = second ∧ behind = after := by
  induction first generalizing second with
  | nil =>
    cases second with
    | nil => exact ⟨rfl, (List.cons.inj same).2⟩
    | cons other second =>
      obtain ⟨rfl, _⟩ := List.cons.inj same
      exact absurd List.mem_cons_self missing
  | cons head first inductionHypothesis =>
    cases second with
    | nil =>
      obtain ⟨rfl, _⟩ := List.cons.inj same
      exact absurd List.mem_cons_self absent
    | cons other second =>
      obtain ⟨rfl, rest⟩ := List.cons.inj same
      obtain ⟨rfl, equal⟩ := inductionHypothesis (fun member =>
        absent (List.mem_cons_of_mem _ member)) (fun member =>
        missing (List.mem_cons_of_mem _ member)) rest
      exact ⟨rfl, equal⟩

/-- An identity names one number and one start time. -/
theorem identity_injective {pid other : Nat} {startTime later : List Char}
    (same : identity pid startTime = identity other later) : pid = other ∧ startTime = later := by
  have digits (number : Nat) : ':' ∉ Nat.toDigits 10 number :=
    fun member => absurd (toDigits_digits member) (by decide)
  have behind : Nat.toDigits 10 pid ++ ':' :: startTime = Nat.toDigits 10 other ++ ':' :: later :=
    List.append_cancel_left ((List.append_assoc "posix:".toList _ _).symm.trans
      (same.trans (List.append_assoc _ _ _)))
  obtain ⟨numbers, times⟩ := parted (digits pid) (digits other) behind
  refine ⟨?_, times⟩
  rw [← @Nat.ofDigitChars_ten_toDigits pid, numbers, Nat.ofDigitChars_ten_toDigits]

/-- Whatever the name of the program is, what the worker finds in the file of a process, for itself,
for its child or in a scan, is what the daemon finds, and where the name is a text the worker finds
for itself and for its child what the daemon does. Another number or start time gives another
identity. -/
theorem identities_agree (pid : Nat) (before : List UInt8) {tail : List Char}
    (ascii : Ascii tail) (plain : ')' ∉ tail) :
    let stat := before ++ asBytes (')' :: tail)
    (∀ found, processIdentity pid (.ok stat) = .ok found ∨
        childStartIdentity pid (.ok stat) = .ok found →
      processStartIdentity pid (some stat) = some (encode found)) ∧
    (∀ process, scanned pid (.ok stat) = some process →
      processStartIdentity pid (some stat) = some (encode process.identity)) ∧
    (∀ name found, before = asBytes name → processStartIdentity pid (some stat) = some found →
      ∃ text, encode text = found ∧ processIdentity pid (.ok stat) = .ok text ∧
        childStartIdentity pid (.ok stat) = .ok text) ∧
    ∀ other past {rest : List Char}, Ascii rest → ')' ∉ rest →
      processStartIdentity pid (some stat) =
        processStartIdentity other (some (past ++ asBytes (')' :: rest))) →
      processStartIdentity pid (some stat) ≠ none →
      pid = other ∧ (words isWhitespace tail)[19]? = (words isWhitespace rest)[19]? := by
  refine ⟨?_, ?_, ?_, ?_⟩
  · rintro found (identified | identified)
    · exact startIdentity_ok ascii plain identified
    · exact startIdentity_ok ascii plain identified
  · exact fun process found => (scanned_identity ascii plain found).2
  · rintro name found rfl identified
    have read := readToString_text (name ++ ')' :: tail)
    rw [asBytes_append] at read
    rw [processStartIdentity_tail ascii plain] at identified
    obtain ⟨startTime, field, rfl⟩ := Option.map_eq_some_iff.mp identified
    refine ⟨identity pid startTime, rfl, ?_, ?_⟩
    · rw [processIdentity, startIdentity_tail plain read rfl, field]
    · rw [childStartIdentity, startIdentity_tail plain read rfl, field]
  · intro other past rest ascii' plain' same present
    rw [processStartIdentity_tail ascii plain] at same present
    rw [processStartIdentity_tail ascii' plain'] at same
    cases field : (words isWhitespace tail)[19]? with
    | none => exact absurd (by rw [field]; rfl) present
    | some startTime =>
      rw [field] at same
      obtain ⟨later, found, equal⟩ := Option.map_eq_some_iff.mp same.symm
      obtain ⟨rfl, rfl⟩ := identity_injective (encode_injective equal)
      exact ⟨rfl, found.symm⟩

/-- The name of a program, up to its last parenthesis. -/
def sampleName : List UInt8 := asBytes "7 (a) b".toList

/-- What stands behind the name of a process. -/
def sampleTail : List Char := " S 1 7 7 0 -1 0 0 0 0 0 0 0 0 0 20 0 1 0 99 0\n".toList

/-- The worker and the daemon name this process alike. -/
theorem child_identified :
    childStartIdentity 7 (.ok (sampleName ++ asBytes (')' :: sampleTail))) =
        .ok "posix:7:99".toList ∧
      processStartIdentity 7 (some (sampleName ++ asBytes (')' :: sampleTail))) =
        some (js "posix:7:99") := by
  have identified : childStartIdentity 7 (.ok (sampleName ++ asBytes (')' :: sampleTail))) =
      .ok "posix:7:99".toList := by
    decide +kernel
  have all : sampleTail.all (fun character => character.toNat < 128) = true := by decide +kernel
  have ascii : Ascii sampleTail :=
    fun character member => of_decide_eq_true (List.all_eq_true.mp all character member)
  have agree := identities_agree 7 sampleName ascii (by decide +kernel)
  exact ⟨identified, agree.1 _ (.inr identified)⟩

end OpencodePty.ProcessIdentities
