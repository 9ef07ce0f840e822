import OpencodePty.OutputRetention
import OpencodePty.StreamDecoding
import OpencodePty.TextBudgets

/-!
# Input in the middle of a character

The terminal reader and the write handler decode the output of a terminal with one carry. A write
first reads what the terminal has, and then flushes the stream, so that the redactor shows what it
holds back; the flush decodes an incomplete character as well. Without secrets the journal of a
terminal is the decoded stream just where no write finds a character of which only the first bytes
were read.
-/

namespace OpencodePty.InputFlushes

open OpencodePty.TextEncodings OpencodePty.TerminalRedaction OpencodePty.Redaction
  OpencodePty.Utf8Sequences OpencodePty.CharacterFronts OpencodePty.StreamDecoding
  OpencodePty.TextBudgets

/-- What happens to the output of a terminal: the reader reads, or a write is accepted, which drains
the terminal in some reads of its own. -/
inductive Event where
  | read (data : List UInt8)
  | write (drained : List (List UInt8))

/-- The calls of `append_terminal_output` in an event: one for each read, and one for the flush of a
write. -/
def Event.calls : Event → List Call
  | read data => [.read data]
  | write drained => drained.map Call.read ++ [.flush]

/-- All the calls of a run, with the flush at the end of the output. -/
def calls (events : List Event) : List Call := events.flatMap Event.calls ++ [.flush]

def Event.bytes : Event → List UInt8
  | read data => data
  | write drained => drained.flatten

/-- The bytes that the terminal gave. -/
def stream (events : List Event) : List UInt8 := events.flatMap Event.bytes

/-- The text of each call of `append_output`, without secrets. -/
def handed : Terminal → List Call → List (List Char)
  | _, [] => []
  | terminal, call :: rest =>
    let (next, shown) := appendTerminalOutput [] terminal call
    shown :: handed next rest

/-- Bytes that are whole characters. -/
def Characters (bytes : List UInt8) : Prop := ∃ text, bytes = asBytes text

/-- At every write, all the bytes that were read until then are whole characters. -/
def WholeAtWrites : List UInt8 → List Event → Prop
  | _, [] => True
  | seen, .read data :: rest => WholeAtWrites (seen ++ data) rest
  | seen, .write drained :: rest =>
    Characters (seen ++ drained.flatten) ∧ WholeAtWrites (seen ++ drained.flatten) rest

/-! ## Without secrets -/

theorem redactStream_nothing (text : List Char) (finish : Bool) :
    redactStream text [] [] finish = (text, []) := by
  cases finish with
  | false => simp [redactStream, streamSplit, hold, redact]
  | true => simp [redactStream, finishSplit, redactTail, redact]

/-- The text of some bytes that are pending, and of the calls that follow. -/
def emitted : List UInt8 → List Call → List Char
  | pending, [] => (decodeFrom 0 pending).1
  | pending, .read data :: rest => emitted (pending ++ data) rest
  | pending, .flush :: rest => fromUtf8Lossy pending ++ emitted [] rest

/-- What is decoded of pending bytes, with the calls that follow, is what they emit. -/
theorem handed_emitted (pending : List UInt8) (calls : List Call) :
    (decodeFrom 0 pending).1 ++ (handed ⟨(decodeFrom 0 pending).2, []⟩ calls).flatten =
      emitted pending calls := by
  induction calls generalizing pending with
  | nil =>
    rw [handed, List.flatten_nil, List.append_nil]
    rfl
  | cons call rest inductionHypothesis =>
    cases call with
    | read data =>
      have later := inductionHypothesis (pending ++ data)
      rw [decodeFrom_append] at later
      rw [emitted, ← later, List.append_assoc]
      simp only [handed, appendTerminalOutput, decoded, Call.data, Call.finish,
        TerminalRedaction.decodeUtf8Stream, redactStream_nothing]
      rfl
    | flush =>
      have begins := decodeFrom_carry pending
      have later := inductionHypothesis []
      have flushed : decoded (decodeFrom 0 pending).2 .flush =
          (if (decodeFrom 0 pending).2.isEmpty then [] else [replacement], []) := by
        simp only [decoded, Call.data, Call.finish, TerminalRedaction.decodeUtf8Stream,
          flushUtf8Carry, List.append_nil, decodeFrom_begins begins, List.nil_append, if_true]
      rw [emitted, ← later, fromUtf8Lossy, List.append_assoc]
      simp only [handed, appendTerminalOutput, flushed, Call.finish, redactStream_nothing]
      rfl

/-! ## Counting characters -/

/-- The bytes that start a character. -/
def starts (bytes : List UInt8) : Nat := bytes.countP fun byte => !isContinuation byte

/-- One where bytes begin within a character. -/
def within (bytes : List UInt8) : Nat := if bytes.head?.any isContinuation then 1 else 0

@[simp] theorem starts_append (first second : List UInt8) :
    starts (first ++ second) = starts first + starts second :=
  List.countP_append

theorem within_append {first : List UInt8} (nonempty : first ≠ []) (second : List UInt8) :
    within (first ++ second) = within first := by
  obtain ⟨byte, rest, rfl⟩ := List.exists_cons_of_ne_nil nonempty
  rfl

/-- The bytes of a character are one that starts it, and continuation bytes. -/
theorem encoded_bytes (character : Char) :
    ∃ first rest, String.utf8EncodeChar character = first :: rest ∧
      isContinuation first = false ∧ ∀ byte ∈ rest, isContinuation byte = true := by
  obtain ⟨first, rest, encoded⟩ := List.exists_cons_of_ne_nil (encoded_nonempty character)
  refine ⟨first, rest, encoded, ?_, ?_⟩
  · apply @encoded_start character
    rw [encoded]
    rfl
  · intro byte member
    obtain ⟨position, found⟩ := List.mem_iff_getElem?.mp member
    apply @encoded_continuation character position
    rw [encoded, List.getElem?_cons_succ]
    exact found

theorem starts_continued {bytes : List UInt8}
    (continued : ∀ byte ∈ bytes, isContinuation byte = true) : starts bytes = 0 := by
  rw [starts, List.countP_eq_zero]
  intro byte member
  simp [continued byte member]

theorem starts_encoded (character : Char) :
    starts (String.utf8EncodeChar character) = 1 ∧ within (String.utf8EncodeChar character) = 0 := by
  obtain ⟨first, rest, encoded, starting, continued⟩ := encoded_bytes character
  rw [encoded]
  constructor
  · have none := starts_continued continued
    rw [starts] at none
    rw [starts, List.countP_cons_of_pos (by simp [starting]), none]
  · simp [within, starting]

/-- Bytes that begin a character have no second start. -/
theorem starts_begins {bytes : List UInt8} (begins : Begins bytes) :
    starts bytes ≤ 1 ∧ within bytes = 0 := by
  obtain ⟨character, more, _, encoded⟩ := begins
  obtain ⟨one, zero⟩ := starts_encoded character
  rw [encoded] at one zero
  constructor
  · rw [starts_append] at one
    omega
  · cases bytes with
    | nil => rfl
    | cons first rest => exact zero

theorem starts_text (text : List Char) : starts (asBytes text) = text.length := by
  induction text with
  | nil => rfl
  | cons character rest inductionHypothesis =>
    rw [asBytes_cons, starts_append, inductionHypothesis, (starts_encoded character).1,
      List.length_cons, Nat.add_comm]

/-- A maximal subpart is at most one start, and a single byte where it begins within a character. -/
theorem starts_refused {part rest : List UInt8} (refused : Refused part rest) :
    starts part + within part ≤ 1 := by
  by_cases begins : Begins part
  · obtain ⟨one, zero⟩ := starts_begins begins
    omega
  · obtain ⟨byte, rfl⟩ := List.length_eq_one_iff.mp (refused.single begins)
    cases continued : isContinuation byte <;> simp [starts, within, continued]

/-- Every start, and what begins within a character, is decoded to a character of its own. -/
theorem starts_lossy (bytes : List UInt8) :
    starts bytes + within bytes ≤ (fromUtf8Lossy bytes).length := by
  induction bytes using bytes_induction with
  | stop bytes begins =>
    obtain ⟨one, zero⟩ := starts_begins begins
    cases bytes with
    | nil => exact Nat.le_refl 0
    | cons first rest =>
      simp only [fromUtf8Lossy, decodeFrom_begins begins, List.isEmpty_cons]
      simpa [zero] using one
  | character value rest inductionHypothesis =>
    obtain ⟨one, zero⟩ := starts_encoded value
    simp only [fromUtf8Lossy, decodeFrom_character] at inductionHypothesis ⊢
    rw [starts_append, within_append (encoded_nonempty value), one, zero, List.cons_append,
      List.length_cons]
    omega
  | invalid part rest refused inductionHypothesis =>
    have one := starts_refused refused
    simp only [fromUtf8Lossy, decodeFrom_refused refused] at inductionHypothesis ⊢
    rw [starts_append, within_append refused.nonempty, List.cons_append, List.length_cons]
    omega

/-- The bytes of calls. -/
def read (calls : List Call) : List UInt8 := calls.flatMap Call.data

/-- Flushes add characters, and take none away. -/
theorem emitted_length (pending : List UInt8) (calls : List Call) :
    starts (pending ++ read calls) + within (pending ++ read calls) ≤
      (emitted pending (calls ++ [.flush])).length := by
  induction calls generalizing pending with
  | nil =>
    have lossy := starts_lossy pending
    simpa [read, emitted, decodeFrom] using lossy
  | cons call rest inductionHypothesis =>
    cases call with
    | read data =>
      have later := inductionHypothesis (pending ++ data)
      rw [List.append_assoc] at later
      exact later
    | flush =>
      have lossy := starts_lossy pending
      have later := inductionHypothesis []
      rw [List.nil_append] at later
      have bytes : read (.flush :: rest) = read rest := rfl
      rw [List.cons_append, emitted, List.length_append, bytes, starts_append]
      by_cases nothing : pending = []
      · have none : starts [] = 0 := rfl
        rw [nothing, List.nil_append, none]
        omega
      · rw [within_append nothing]
        omega

/-! ## Cuts -/

/-- Characters in front of a text are the beginning of the text. -/
theorem text_behind {whole text : List Char} {rest : List UInt8}
    (same : asBytes whole ++ rest = asBytes text) :
    ∃ others, text = whole ++ others ∧ rest = asBytes others := by
  induction whole generalizing text with
  | nil => exact ⟨text, rfl, same⟩
  | cons character whole inductionHypothesis =>
    rw [asBytes_cons, List.append_assoc] at same
    cases text with
    | nil => exact absurd (List.append_eq_nil_iff.mp same).1 (encoded_nonempty character)
    | cons first text =>
      rw [asBytes_cons] at same
      obtain ⟨rfl, later⟩ := encoded_inj same
      obtain ⟨others, rfl, bytes⟩ := inductionHypothesis later
      exact ⟨others, rfl, bytes⟩

theorem within_text (text : List Char) : within (asBytes text) = 0 := by
  cases text with
  | nil => rfl
  | cons character rest =>
    rw [asBytes_cons, within_append (encoded_nonempty character), (starts_encoded character).2]

/-- A text is cut between two characters, or what follows begins within one. -/
theorem cut_cases {text : List Char} {front rest : List UInt8} (same : front ++ rest = asBytes text) :
    Characters front ∨ within rest = 1 := by
  induction text generalizing front with
  | nil => exact .inl ⟨[], (List.append_eq_nil_iff.mp same).1⟩
  | cons character text inductionHypothesis =>
    rw [asBytes_cons] at same
    obtain ⟨more, encoded, rfl⟩ | ⟨more, rfl, later⟩ := List.append_eq_append_iff.mp same
    · cases front with
      | nil => exact .inl ⟨[], rfl⟩
      | cons first front =>
        cases more with
        | nil =>
          refine .inl ⟨[character], ?_⟩
          rw [asBytes_cons, encoded, List.append_nil]
          exact (List.append_nil _).symm
        | cons next more =>
          obtain ⟨_, bytes, split, _, continued⟩ := encoded_bytes character
          rw [encoded, List.cons_append] at split
          cases split
          refine .inr ?_
          simp [within, continued next (by simp)]
    · obtain ⟨others, rfl⟩ | cut := inductionHypothesis later.symm
      · exact .inl ⟨character :: others, (asBytes_cons character others).symm⟩
      · exact .inr cut

/-- At every flush, the bytes that are pending are whole characters. -/
def WholeAtFlushes : List UInt8 → List Call → Prop
  | _, [] => True
  | pending, .read data :: rest => WholeAtFlushes (pending ++ data) rest
  | pending, .flush :: rest => Characters pending ∧ WholeAtFlushes [] rest

theorem fromUtf8Lossy_text (text : List Char) : fromUtf8Lossy (asBytes text) = text := by
  have whole := decodeFrom_text text []
  rw [List.append_nil] at whole
  simp [fromUtf8Lossy, whole, decodeFrom]

/-- The bytes of a text are emitted as this text just where every flush finds whole characters. -/
theorem emitted_iff {pending : List UInt8} {calls : List Call} {text : List Char}
    (bytes : pending ++ read calls = asBytes text) :
    emitted pending (calls ++ [.flush]) = text ↔ WholeAtFlushes pending calls := by
  induction calls generalizing pending text with
  | nil =>
    rw [read, List.flatMap_nil, List.append_nil] at bytes
    simp [bytes, emitted, fromUtf8Lossy_text, decodeFrom, WholeAtFlushes]
  | cons call rest inductionHypothesis =>
    cases call with
    | read data =>
      apply inductionHypothesis
      rw [List.append_assoc]
      exact bytes
    | flush =>
      have later : pending ++ read rest = asBytes text := bytes
      rw [List.cons_append, emitted, WholeAtFlushes]
      obtain ⟨whole, rfl⟩ | cut := cut_cases later
      · obtain ⟨others, rfl, remaining⟩ := text_behind later
        rw [fromUtf8Lossy_text, List.append_cancel_left_eq,
          inductionHypothesis (by rw [List.nil_append, remaining])]
        simp [Characters]
      · apply iff_of_false
        · intro same
          have lossy := starts_lossy pending
          have tail := emitted_length [] rest
          have all := starts_text text
          have length := congrArg List.length same
          rw [← later, starts_append] at all
          rw [List.length_append] at length
          rw [List.nil_append, cut] at tail
          omega
        · rintro ⟨⟨whole, rfl⟩, _⟩
          obtain ⟨others, _, remaining⟩ := text_behind later
          rw [remaining, within_text] at cut
          cases cut

/-! ## Events -/

theorem read_calls (events : List Event) : read (events.flatMap Event.calls) = stream events := by
  have drains (drained : List (List UInt8)) :
      (drained.map Call.read).flatMap Call.data = drained.flatten := by
    rw [List.flatMap_map]
    exact List.flatMap_id
  induction events with
  | nil => rfl
  | cons event rest inductionHypothesis =>
    have bytes : read event.calls = event.bytes := by
      cases event with
      | read data => simp [read, Event.calls, Event.bytes, Call.data]
      | write drained => simp [read, Event.calls, Event.bytes, drains, Call.data]
    rw [read] at inductionHypothesis bytes
    rw [read, stream, List.flatMap_cons, List.flatMap_append, List.flatMap_cons, bytes,
      inductionHypothesis, stream]

/-- A write reads what the terminal has before it flushes. -/
theorem wholeAtFlushes_drained (pending : List UInt8) (drained : List (List UInt8))
    (rest : List Call) :
    WholeAtFlushes pending (drained.map Call.read ++ .flush :: rest) ↔
      Characters (pending ++ drained.flatten) ∧ WholeAtFlushes [] rest := by
  induction drained generalizing pending with
  | nil =>
    rw [List.map_nil, List.nil_append, List.flatten_nil, List.append_nil]
    rfl
  | cons data drained inductionHypothesis =>
    rw [List.flatten_cons, ← List.append_assoc, ← inductionHypothesis]
    rfl

/-- Characters stay characters without some at their front. -/
theorem characters_behind (whole : List Char) (bytes : List UInt8) :
    Characters (asBytes whole ++ bytes) ↔ Characters bytes := by
  constructor
  · rintro ⟨text, same⟩
    obtain ⟨others, _, rest⟩ := text_behind same
    exact ⟨others, rest⟩
  · rintro ⟨text, rfl⟩
    exact ⟨whole ++ text, (asBytes_append whole text).symm⟩

/-- What is pending at a write are whole characters just where all that was read before it are. -/
theorem wholeAtFlushes_calls (whole : List Char) (pending : List UInt8) (events : List Event) :
    WholeAtFlushes pending (events.flatMap Event.calls) ↔
      WholeAtWrites (asBytes whole ++ pending) events := by
  induction events generalizing whole pending with
  | nil => exact Iff.rfl
  | cons event rest inductionHypothesis =>
    cases event with
    | read data =>
      have later := inductionHypothesis whole (pending ++ data)
      rw [← List.append_assoc] at later
      exact later
    | write drained =>
      rw [List.flatMap_cons, Event.calls, List.append_assoc, List.singleton_append,
        wholeAtFlushes_drained, WholeAtWrites, List.append_assoc, characters_behind]
      apply and_congr_right
      rintro ⟨text, same⟩
      have later := inductionHypothesis (whole ++ text) []
      rw [List.append_nil, asBytes_append] at later
      rw [same, later]

/-- What a run hands to the journal is the text of the bytes, just where every write finds whole
characters. -/
theorem handed_iff {text : List Char} {events : List Event} (bytes : stream events = asBytes text) :
    (handed ⟨[], []⟩ (calls events)).flatten = text ↔ WholeAtWrites [] events := by
  have all := handed_emitted [] (calls events)
  have same := @emitted_iff [] (events.flatMap Event.calls) text (by
    rw [List.nil_append, read_calls, bytes])
  rw [calls] at all ⊢
  rw [← all] at same
  exact same.trans (wholeAtFlushes_calls [] [] events)

/-- A terminal worker keeps all that it is given. -/
theorem appendAll_pty {worker : WorkerJournal.Worker} {text : List Char}
    (retains : WorkerJournal.Retains worker text) (pty : worker.mode = .pty)
    {outputs : List WorkerJournal.Call} (working : ∀ call ∈ outputs, call.disk = .working) :
    ∃ last, WorkerJournal.appendAll worker outputs =
      some (last, (outputs.map WorkerJournal.Call.data).flatten) := by
  induction outputs generalizing worker text with
  | nil => exact ⟨worker, rfl⟩
  | cons call rest inductionHypothesis =>
    obtain ⟨works, restWorks⟩ := List.forall_mem_cons.mp working
    obtain ⟨next, appended, kept, mode, _⟩ := WorkerJournal.appendOutput_retains retains works
    obtain ⟨last, run⟩ := inductionHypothesis kept (mode.trans pty) restWorks
    refine ⟨last, ?_⟩
    simp [WorkerJournal.appendAll, appended, run,
      OutputRetention.addition_pty pty retains.working call]

/-- Without secrets, however the bytes of a text are split into reads and whenever input is written,
the journal of a terminal gets the text just where at every write the bytes that were read until then
are whole characters. -/
theorem journalled_text_iff (maxOutputBytes : Nat) {text : List Char} {events : List Event}
    (bytes : stream events = asBytes text) {outputs : List WorkerJournal.Call}
    (given : outputs.map WorkerJournal.Call.data = handed ⟨[], []⟩ (calls events))
    (working : ∀ call ∈ outputs, call.disk = .working) :
    ∃ worker journalled, WorkerJournal.appendAll (WorkerJournal.started .pty maxOutputBytes) outputs =
        some (worker, journalled) ∧ (journalled = text ↔ WholeAtWrites [] events) := by
  have fresh := (WorkerJournal.started_journaled .pty maxOutputBytes).retains
  obtain ⟨worker, run⟩ := appendAll_pty fresh rfl working
  refine ⟨worker, _, run, ?_⟩
  rw [given]
  exact handed_iff bytes

/-- The output of the calls of a run, all at the beginning of 1970. -/
def outputs (events : List Event) : List WorkerJournal.Call :=
  (handed ⟨[], []⟩ (calls events)).map OutputRetention.piece

theorem journalled_text_iff_split :
    ∃ worker journalled,
      WorkerJournal.appendAll (WorkerJournal.started .pty 8)
          (outputs [.read [0xc3], .read [0xa9], .write []]) = some (worker, journalled) ∧
        (journalled = "é".toList ↔ WholeAtWrites [] [.read [0xc3], .read [0xa9], .write []]) :=
  @journalled_text_iff 8 "é".toList [.read [0xc3], .read [0xa9], .write []] (by decide) _
    (by simp [outputs, OutputRetention.piece, Function.comp_def]) (by simp [outputs, OutputRetention.piece])

/-- A write between the two bytes of a character makes it two replacement characters. -/
theorem character_lost :
    ¬ ∀ (maxOutputBytes : Nat) (text : List Char) (events : List Event)
      (outputs : List WorkerJournal.Call) (worker : WorkerJournal.Worker) (journalled : List Char),
      stream events = asBytes text →
      outputs.map WorkerJournal.Call.data = handed ⟨[], []⟩ (calls events) →
      (∀ call ∈ outputs, call.disk = .working) →
      WorkerJournal.appendAll (WorkerJournal.started .pty maxOutputBytes) outputs =
        some (worker, journalled) → journalled = text := by
  intro always
  have fresh := (WorkerJournal.started_journaled .pty 8).retains
  have given : (outputs [.read [0xc3], .write [], .read [0xa9]]).map WorkerJournal.Call.data =
      handed ⟨[], []⟩ (calls [.read [0xc3], .write [], .read [0xa9]]) := by
    simp [outputs, OutputRetention.piece, Function.comp_def]
  have working : ∀ call ∈ outputs [.read [0xc3], .write [], .read [0xa9]],
      call.disk = .working := by
    simp [outputs, OutputRetention.piece]
  obtain ⟨worker, run⟩ := appendAll_pty fresh rfl working
  have same := always 8 "é".toList _ _ worker _ (by decide) given working run
  rw [given] at same
  exact absurd same (by decide)

end OpencodePty.InputFlushes
