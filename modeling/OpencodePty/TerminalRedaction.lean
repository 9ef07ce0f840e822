import OpencodePty.Redaction
import OpencodePty.TextEncodings

/-!
# Redaction of terminal output with flushes

A terminal worker redacts its output as a stream, but before it accepts input it flushes what
the stream holds back, so that output from before the input is not mistaken for output after
it. A flush decodes an incomplete character as a replacement character, hides the held back
text where it ends with at least four characters that start a secret, and shows it otherwise.
A secret whose first characters were shown by a flush is not recognised when its other
characters arrive.
-/

namespace OpencodePty.TerminalRedaction

open OpencodePty.Substitution OpencodePty.Redaction

/-! ## Decoding -/

/-- What stands at the front of bytes that are decoded: a character, bytes that belong to no
character, or the beginning of a character that later bytes may complete. -/
inductive Front where
  | character (value : Char) (width : Nat)
  | invalid (width : Nat)
  | incomplete

/-- The width of a character by its first byte, and the bounds of its second byte. -/
def sequence (first : UInt8) : Option (Nat × UInt8 × UInt8) :=
  if 0xc2 ≤ first ∧ first ≤ 0xdf then some (2, 0x80, 0xbf)
  else if first = 0xe0 then some (3, 0xa0, 0xbf)
  else if first = 0xed then some (3, 0x80, 0x9f)
  else if 0xe1 ≤ first ∧ first ≤ 0xef then some (3, 0x80, 0xbf)
  else if first = 0xf0 then some (4, 0x90, 0xbf)
  else if 0xf1 ≤ first ∧ first ≤ 0xf3 then some (4, 0x80, 0xbf)
  else if first = 0xf4 then some (4, 0x80, 0x8f)
  else none

/-- The character with the given leading bits and continuation bytes. -/
def assemble (leading : Nat) (continuation : List UInt8) : Char :=
  Char.ofNat (continuation.foldl (fun value byte => value * 64 + byte.toNat % 64) leading)

/-- `std::str::from_utf8` at the front of bytes, with the length of an error as it reports it. -/
def decodeFront : List UInt8 → Front
  | [] => .incomplete
  | first :: rest =>
    if first < 0x80 then .character (Char.ofNat first.toNat) 1
    else
      match sequence first, rest with
      | none, _ => .invalid 1
      | some _, [] => .incomplete
      | some (width, low, high), second :: rest =>
        if ¬ (low ≤ second ∧ second ≤ high) then .invalid 1
        else if width = 2 then .character (assemble (first.toNat % 32) [second]) 2
        else
          match rest with
          | [] => .incomplete
          | third :: rest =>
            if !TextEncodings.isContinuation third then .invalid 2
            else if width = 3 then .character (assemble (first.toNat % 16) [second, third]) 3
            else
              match rest with
              | [] => .incomplete
              | fourth :: _ =>
                if !TextEncodings.isContinuation fourth then .invalid 3
                else .character (assemble (first.toNat % 8) [second, third, fourth]) 4

/-- `char::REPLACEMENT_CHARACTER` -/
def replacement : Char := Char.ofNat 0xfffd

/-- The text that bytes decode to, and the bytes at their end that are not complete. The number
counts the bytes of the current character that are still to be passed over. -/
def decodeFrom : Nat → List UInt8 → List Char × List UInt8
  | _, [] => ([], [])
  | skip + 1, _ :: rest => decodeFrom skip rest
  | 0, first :: rest =>
    match decodeFront (first :: rest) with
    | .character value width =>
      let (text, carry) := decodeFrom (width - 1) rest
      (value :: text, carry)
    | .invalid width =>
      let (text, carry) := decodeFrom (width - 1) rest
      (replacement :: text, carry)
    | .incomplete => ([], first :: rest)

/-- `decode_utf8_stream`: the decoded text and the new carry. -/
def decodeUtf8Stream (carry data : List UInt8) : List Char × List UInt8 := decodeFrom 0 (carry ++ data)

/-- `flush_utf8_carry`: what is not complete becomes one replacement character. -/
def flushUtf8Carry (carry : List UInt8) : List Char :=
  let (text, rest) := decodeFrom 0 carry
  text ++ if rest.isEmpty then [] else [replacement]

/-! ## The terminal -/

/-- What a terminal worker keeps between calls: the bytes of an incomplete character, and the
text that is held back. -/
structure Terminal where
  carry : List UInt8
  tail : List Char

/-- A call for the output of a terminal: bytes that were read, or a flush. -/
inductive Call where
  | read (data : List UInt8)
  | flush

def Call.data : Call → List UInt8
  | read data => data
  | flush => []

def Call.finish : Call → Bool
  | read _ => false
  | flush => true

/-- The text that a call decodes, and the bytes that it leaves. -/
def decoded (carry : List UInt8) (call : Call) : List Char × List UInt8 :=
  let (text, rest) := decodeUtf8Stream carry call.data
  if call.finish then (text ++ flushUtf8Carry rest, []) else (text, rest)

variable (secrets : List (List Char))

/-- `append_terminal_output`: the terminal after the call, and the text for `append_output`. -/
def appendTerminalOutput (terminal : Terminal) (call : Call) : Terminal × List Char :=
  let (text, carry) := decoded terminal.carry call
  let (shown, tail) := redactStream text terminal.tail secrets call.finish
  (⟨carry, tail⟩, shown)

/-- `flush_terminal_redaction_tail` -/
def flushTerminalRedactionTail (terminal : Terminal) : Terminal × List Char :=
  appendTerminalOutput secrets terminal .flush

/-- The text for `append_output` over a whole run. -/
def handedOut : Terminal → List Call → List Char
  | _, [] => []
  | terminal, call :: rest =>
    let (next, shown) := appendTerminalOutput secrets terminal call
    shown ++ handedOut next rest

/-! ## Runs of decoded text -/

/-- The calls of a run as the redactor sees them: decoded text, and whether it is flushed. -/
abbrev Texts := List (List Char × Bool)

def texts : List UInt8 → List Call → Texts
  | _, [] => []
  | carry, call :: rest =>
    ((decoded carry call).1, call.finish) :: texts (decoded carry call).2 rest

/-- What the redactor shows from a given tail on. -/
def shownFrom : List Char → Texts → List Char
  | _, [] => []
  | tail, (text, finish) :: rest =>
    let call := redactStream text tail secrets finish
    call.1 ++ shownFrom call.2 rest

/-- The text of the calls. -/
def wholeText (calls : Texts) : List Char := (calls.map Prod.fst).flatten

theorem handedOut_eq (terminal : Terminal) (calls : List Call) :
    handedOut secrets terminal calls =
      shownFrom secrets terminal.tail (texts terminal.carry calls) := by
  induction calls generalizing terminal with
  | nil => rfl
  | cons call rest inductionHypothesis =>
    simp only [handedOut, texts, shownFrom, appendTerminalOutput]
    rw [inductionHypothesis]

/-- The secrets that the redactor is made for: long enough, apart from the marker, and such
that no two occurrences of them overlap. -/
structure Separate : Prop where
  long : ∀ secret ∈ secrets, 4 ≤ secret.length
  foreign : ∀ secret ∈ secrets, Foreign marker secret
  apart : ∀ first ∈ secrets, ∀ second ∈ secrets, ∀ ending ∈ first.tails, ending ≠ [] →
    ending ≠ first → ¬ ending <+: second
  outside : ∀ first ∈ secrets, ∀ second ∈ secrets, first <:+: second → first = second

/-- No flush of a run shows the first characters of a secret whose other characters follow:
where it cuts a secret, the text that is held back ends with at least four characters that
start one. -/
def FlushesKept : List Char → Texts → Prop
  | _, [] => True
  | tail, (text, finish) :: rest =>
    (finish = true → ∀ first second, first ≠ [] → second ≠ [] → first ++ second ∈ secrets →
      first <:+ tail ++ text → second <+: wholeText rest →
      ∃ secret ∈ secrets, ∃ ending, ending <:+ tail ++ text ∧ startsSecret ending secret = true) ∧
    FlushesKept (redactStream text tail secrets finish).2 rest

variable {secrets}

/-! ## Separate secrets -/

theorem Separate.hidden (separate : Separate secrets) : ∀ secret ∈ secrets, Hidden secret :=
  fun secret member => ⟨separate.long secret member, separate.foreign secret member⟩

/-- No two occurrences of separate secrets overlap. -/
theorem Separate.disjoint (separate : Separate secrets) {text : List Char} {earlier later : Place}
    (first : earlier.1 ∈ secrets) (second : later.1 ∈ secrets)
    (firstOccurs : earlier.Occurs text) (secondOccurs : later.Occurs text)
    (after : earlier.2 < later.2) : earlier.stop ≤ later.2 := by
  by_contra overlap
  have inside : later.2 - earlier.2 < earlier.1.length := by
    simp only [Place.stop] at overlap
    omega
  obtain ⟨rest, found⟩ := occurs_iff.mp firstOccurs
  -- the rest of the earlier occurrence, from the start of the later one on
  have remains : earlier.1.drop (later.2 - earlier.2) ++ rest = text.drop later.2 := by
    have split := congrArg (List.drop (later.2 - earlier.2)) found
    rw [List.drop_append_of_le_length (by omega), List.drop_drop] at split
    rw [split]
    congr 1
    omega
  have ending : earlier.1.drop (later.2 - earlier.2) <+: text.drop later.2 := ⟨rest, remains⟩
  have starts := occurs_iff.mp secondOccurs
  rcases List.prefix_or_prefix_of_prefix ending starts with shorter | longer
  · refine separate.apart earlier.1 first later.1 second _
      ((List.mem_tails _ _).mpr (List.drop_suffix _ _)) ?_ ?_ shorter
    · intro empty
      have length := congrArg List.length empty
      simp only [List.length_drop, List.length_nil] at length
      omega
    · intro whole
      have length := congrArg List.length whole
      simp only [List.length_drop] at length
      omega
  · have same := separate.outside later.1 second earlier.1 first
      (longer.isInfix.trans (List.drop_suffix _ _).isInfix)
    have length := longer.length_le
    rw [same, List.length_drop] at length
    omega

/-- The condition on the order of the scan is met by separate secrets. -/
theorem Separate.nested (separate : Separate secrets) (text : List Char) : Nested secrets text := by
  refine List.Pairwise.imp_of_mem ?_ (List.pairwise_of_forall (fun _ _ => trivial))
  intro earlier later earlierVisited laterVisited _ first second after overlap _
  have disjoint := separate.disjoint (mem_scanOrder.mp earlierVisited).1
    (mem_scanOrder.mp laterVisited).1 first second after
  omega

/-- The start of a secret at the end of a text lies in no whole occurrence of that secret. -/
theorem Separate.unoverlapped (separate : Separate secrets) {text secret : List Char} {start : Nat}
    (member : secret ∈ secrets) (partly : startsSecret (text.drop start) secret = true) :
    overlapsFullSecret text secret start = false := by
  rw [Bool.eq_false_iff]
  intro overlaps
  simp only [overlapsFullSecret, Bool.and_eq_true, List.any_eq_true, List.mem_range,
    decide_eq_true_eq] at overlaps
  obtain ⟨_, full, _, ⟨before, inside⟩, occurs⟩ := overlaps
  simp only [startsSecret, Bool.and_eq_true, decide_eq_true_eq, beq_iff_eq] at partly
  obtain ⟨⟨_, shorter⟩, starts⟩ := partly
  have found : Place.Occurs text (secret, full) := occurs
  obtain ⟨rest, whole⟩ := occurs_iff.mp found
  have remains : secret.drop (start - full) ++ rest = text.drop start := by
    have split := congrArg (List.drop (start - full)) whole
    rw [List.drop_append_of_le_length (by simp only; omega), List.drop_drop] at split
    rw [split]
    congr 1
    simp only
    omega
  have within : secret.drop (start - full) <+: secret := by
    have first : secret.drop (start - full) <+: text.drop start := ⟨rest, remains⟩
    rw [starts] at first
    exact first.trans (List.take_prefix _ _)
  have length := congrArg List.length remains
  simp only [List.length_append, List.length_drop] at length shorter
  refine separate.apart secret member secret member _
    ((List.mem_tails _ _).mpr (List.drop_suffix _ _)) ?_ ?_ within
  · intro empty
    have size := congrArg List.length empty
    simp only [List.length_drop, List.length_nil] at size
    omega
  · intro same
    have size := congrArg List.length same
    simp only [List.length_drop] at size
    omega

/-! ## Flushes -/

/-- The final scan stops at or before every place that it finds. -/
theorem finishSplit_le {text secret : List Char} {start : Nat} (member : secret ∈ secrets)
    (inside : start < text.length) (partly : startsSecret (text.drop start) secret = true)
    (unoverlapped : overlapsFullSecret text secret start = false) :
    finishSplit text secrets ≤ start := by
  have step (other : List Char) (split position : Nat) :
      finishStart text other split position ≤ split := by
    unfold finishStart
    split <;> omega
  have scan (other : List Char) (starts : List Nat) (split : Nat) :
      starts.foldl (finishStart text other) split ≤ split := by
    induction starts generalizing split with
    | nil => exact Nat.le_refl _
    | cons position starts inductionHypothesis =>
      exact Nat.le_trans (inductionHypothesis _) (step other split position)
  have found (starts : List Nat) (listed : start ∈ starts) (split : Nat) :
      starts.foldl (finishStart text secret) split ≤ start := by
    induction starts generalizing split with
    | nil => simp at listed
    | cons position starts inductionHypothesis =>
      rw [List.foldl_cons]
      rcases List.mem_cons.mp listed with rfl | later
      · refine Nat.le_trans (scan secret starts _) ?_
        simp only [finishStart, partly, unoverlapped, Bool.not_false, Bool.and_self, if_true]
        exact Nat.min_le_right _ _
      · exact inductionHypothesis later _
  have all (others : List (List Char)) (split : Nat) :
      others.foldl (fun split secret =>
        (List.range text.length).foldl (finishStart text secret) split) split ≤ split := by
    induction others generalizing split with
    | nil => exact Nat.le_refl _
    | cons other others inductionHypothesis =>
      exact Nat.le_trans (inductionHypothesis _) (scan other _ split)
  have visited (others : List (List Char)) (listed : secret ∈ others) (split : Nat) :
      others.foldl (fun split secret =>
        (List.range text.length).foldl (finishStart text secret) split) split ≤ start := by
    induction others generalizing split with
    | nil => simp at listed
    | cons other others inductionHypothesis =>
      rw [List.foldl_cons]
      rcases List.mem_cons.mp listed with rfl | later
      · exact Nat.le_trans (all others _) (found _ (List.mem_range.mpr inside) split)
      · exact inductionHypothesis later _
  exact visited secrets member text.length

/-- A flush of text that ends with a start of a secret hides that end. -/
theorem flush_hides (separate : Separate secrets) {text tail ending secret : List Char}
    (member : secret ∈ secrets) (ends : ending <:+ tail ++ text)
    (partly : startsSecret ending secret = true) :
    ∃ shown, (redactStream text tail secrets true).1 = shown ++ marker := by
  obtain ⟨before, whole⟩ := ends
  have dropped : (tail ++ text).drop before.length = ending := by
    rw [← whole, List.drop_left]
  rw [← dropped] at partly
  have long : 4 ≤ ending.length := by
    rw [dropped] at partly
    simp only [startsSecret, Bool.and_eq_true, decide_eq_true_eq] at partly
    exact partly.1.1
  have inside : before.length < (tail ++ text).length := by
    rw [← whole, List.length_append]
    omega
  have early := finishSplit_le member inside partly (separate.unoverlapped member partly)
  simp only [redactStream, if_true]
  rcases finishSplit_cases (tail ++ text) secrets with last | ⟨other, known, found⟩
  · omega
  · refine ⟨redact ((tail ++ text).take (finishSplit (tail ++ text) secrets)) secrets, ?_⟩
    have starts : secrets.any
        (startsSecret ((tail ++ text).drop (finishSplit (tail ++ text) secrets))) = true :=
      List.any_eq_true.mpr ⟨other, known, found⟩
    rw [redactTail, starts]
    rfl

/-! ## Whole runs -/

/-- A call shows a beginning of the text it has, with substrings replaced by the marker, and
keeps the rest. -/
theorem call_covered (hidden : ∀ secret ∈ secrets, Hidden secret) (text tail : List Char)
    (finish : Bool) :
    ∃ done, done ++ (redactStream text tail secrets finish).2 = tail ++ text ∧
      Covered marker done (redactStream text tail secrets finish).1 := by
  cases finish with
  | true =>
    refine ⟨tail ++ text, ?_, finish_covered hidden text tail⟩
    simp [redactStream]
  | false =>
    refine ⟨(tail ++ text).take (callSplit secrets (tail ++ text)), ?_, ?_⟩
    · rw [redactStream_tail, List.take_append_drop]
    · exact redact_covered hidden (.refl _)

/-- A run shows a beginning of the text it reads, with substrings replaced by the marker. -/
theorem shownFrom_covered (hidden : ∀ secret ∈ secrets, Hidden secret) (tail : List Char)
    (calls : Texts) :
    ∃ done, done <+: tail ++ wholeText calls ∧
      Covered marker done (shownFrom secrets tail calls) := by
  induction calls generalizing tail with
  | nil => exact ⟨[], List.nil_prefix, .nil⟩
  | cons call rest inductionHypothesis =>
    obtain ⟨text, finish⟩ := call
    obtain ⟨now, split, shown⟩ := call_covered hidden text tail finish
    obtain ⟨later, starts, following⟩ :=
      inductionHypothesis (redactStream text tail secrets finish).2
    refine ⟨now ++ later, ?_, shown.append following⟩
    have whole : tail ++ wholeText ((text, finish) :: rest) =
        now ++ ((redactStream text tail secrets finish).2 ++ wholeText rest) := by
      rw [← List.append_assoc now, split]
      simp [wholeText]
    rw [whole, List.prefix_append_right_inj]
    exact starts

/-- What a foreign text at the start of what a run shows stands for. -/
theorem shown_starts (hidden : ∀ secret ∈ secrets, Hidden secret) {tail pattern : List Char}
    {calls : Texts} (foreign : Foreign marker pattern)
    (starts : pattern <+: shownFrom secrets tail calls) : pattern <+: tail ++ wholeText calls := by
  obtain ⟨done, first, covered⟩ := shownFrom_covered hidden tail calls
  obtain ⟨rest, shown⟩ := starts
  rw [← shown] at covered
  obtain ⟨remaining, same, _⟩ := covered.starts marker_nonempty foreign
  rw [same] at first
  exact (List.prefix_append pattern remaining).trans first

/-- A secret is not cut by a call whose text goes on: neither one that holds text back, nor a
flush that is kept. -/
theorem uncut (separate : Separate secrets) {text tail first second following : List Char}
    {finish : Bool} (member : first ++ second ∈ secrets) (left : first ≠ []) (right : second ≠ [])
    (kept : finish = true → first <:+ tail ++ text → second <+: following →
      ∃ secret ∈ secrets, ∃ ending, ending <:+ tail ++ text ∧ startsSecret ending secret = true)
    (ends : first <:+ (redactStream text tail secrets finish).1)
    (starts : second <+: (redactStream text tail secrets finish).2 ++ following) : False := by
  have hidden := separate.hidden
  have foreign : Foreign marker first := fun symbol inside =>
    separate.foreign _ member symbol (List.mem_append_left second inside)
  cases finish with
  | false =>
    obtain ⟨before, shown⟩ := ends
    have emitted := redact_covered hidden
      (.refl ((tail ++ text).take (callSplit secrets (tail ++ text))))
    rw [← redactStream_shown, ← shown] at emitted
    rw [redactStream_tail] at starts
    obtain ⟨other, known, contained⟩ := crossing_contains (separate.nested (tail ++ text)) member
      left right (covered_ends foreign left emitted) starts
    have same := separate.outside other known _ member
      (contained.isInfix.trans (List.suffix_append first second).isInfix)
    have length := contained.length_le
    have positive : 0 < first.length := List.length_pos_of_ne_nil left
    rw [same, List.length_append] at length
    omega
  | true =>
    have whole : first <:+ tail ++ text := by
      obtain ⟨before, shown⟩ := ends
      have covered := finish_covered hidden text tail
      rw [← shown] at covered
      exact covered_ends foreign left covered
    have goesOn : second <+: following := by simpa [redactStream] using starts
    obtain ⟨secret, known, ending, suffix, partly⟩ := kept rfl whole goesOn
    obtain ⟨before, shown⟩ := flush_hides separate known suffix partly
    -- the start of the secret would share a character with the marker
    rw [shown] at ends
    rcases List.suffix_or_suffix_of_suffix ends (List.suffix_append before marker) with
      inside | around
    · obtain ⟨symbol, others, rfl⟩ := List.exists_cons_of_ne_nil left
      exact foreign symbol List.mem_cons_self (inside.subset List.mem_cons_self)
    · obtain ⟨symbol, others, same⟩ := List.exists_cons_of_ne_nil marker_nonempty
      have found : symbol ∈ marker := by simp [same]
      exact foreign symbol (around.subset found) found

/-- A run whose flushes are kept shows no secret. -/
theorem shownFrom_absent (separate : Separate secrets) (tail : List Char) (calls : Texts)
    (kept : FlushesKept secrets tail calls) :
    ∀ secret ∈ secrets, ¬ secret <:+: shownFrom secrets tail calls := by
  have hidden := separate.hidden
  induction calls generalizing tail with
  | nil =>
    intro secret member occurs
    exact (hidden secret member).proper (List.infix_nil.mp occurs)
  | cons call rest inductionHypothesis =>
    obtain ⟨text, finish⟩ := call
    obtain ⟨flush, remaining⟩ := kept
    have later := inductionHypothesis _ remaining
    have now : ∀ secret ∈ secrets, ¬ secret <:+: (redactStream text tail secrets finish).1 := by
      cases finish with
      | true => exact finish_absent hidden text tail
      | false => exact redact_absent hidden _
    intro secret member occurs
    simp only [shownFrom] at occurs
    rcases List.infix_append_iff.mp occurs with
      inside | behind | ⟨first, second, rfl, ends, starts⟩
    · exact now secret member inside
    · exact later secret member behind
    · by_cases left : first = []
      · subst left
        exact later second member starts.isInfix
      by_cases right : second = []
      · subst right
        rw [List.append_nil] at member
        exact now first member ends.isInfix
      have foreign : Foreign marker second := fun symbol inside =>
        separate.foreign _ member symbol (List.mem_append_right first inside)
      exact uncut separate member left right
        (fun finished suffix goesOn => flush finished first second left right member suffix goesOn)
        ends (shown_starts hidden foreign starts)

/-- The output of a terminal never contains a secret in a run in which no flush shows the first
characters of a secret that goes on. -/
theorem terminal_never_leaks (secrets : List (List Char)) (calls : List Call)
    (separate : Separate secrets) (kept : FlushesKept secrets [] (texts [] calls)) :
    ∀ secret ∈ secrets, ¬ secret <:+: handedOut secrets ⟨[], []⟩ calls := by
  rw [handedOut_eq]
  exact shownFrom_absent separate [] (texts [] calls) kept

/-- The reads and flushes of a terminal that shows the given texts, with a flush after each. -/
def flushedReads (pieces : List String) : List Call :=
  pieces.flatMap fun piece => [.read (TextEncodings.asBytes piece.toList), .flush]

theorem one_separate : Separate ["hunter2key".toList] :=
  ⟨by decide, by decide, by decide, by decide⟩

/-- A secret that a flush cuts after seven characters is hidden. -/
theorem terminal_never_leaks_after_seven :
    ¬ "hunter2key".toList <:+:
      handedOut ["hunter2key".toList] ⟨[], []⟩ (flushedReads ["a hunter2", "key"]) := by
  refine terminal_never_leaks _ _ one_separate ?_ _ (by decide)
  refine ⟨?_, ?_, ?_, ?_, trivial⟩
  · intro flushed
    cases flushed
  · intro _ first second _ _ _ _ _
    exact ⟨"hunter2key".toList, by decide, "hunter2".toList, by decide, by decide⟩
  · intro flushed
    cases flushed
  · intro _ first second _ right _ _ goesOn
    exact absurd (List.prefix_nil.mp goesOn) right

/-- A secret that a flush cuts after three characters is shown. -/
theorem terminal_leaks_after_three :
    Separate ["hunter2key".toList] ∧
      handedOut ["hunter2key".toList] ⟨[], []⟩ (flushedReads ["hun", "ter2key"]) =
        "hunter2key".toList :=
  ⟨one_separate, by decide⟩

end OpencodePty.TerminalRedaction
