import OpencodePty.TextBudgets

/-!
# Output of a command up to a limit

In exec mode the two streams share the bytes of the limit. What a call keeps is the longest
beginning of its text that fits into the bytes that are left, and the stream counts as truncated
when that is not all. The bytes that a wide character did not fit into are still there for the next
call: where it brings a narrower character, the stream goes on behind a hole.
-/

namespace OpencodePty.ExecOutput

open OpencodePty.TextEncodings OpencodePty.WorkerJournal OpencodePty.TextBudgets

/-- `stdout` or `stderr` -/
def text (state : State) (stdout : Bool) : List Char :=
  if stdout then state.stdout else state.stderr

/-- `stdout_truncated` or `stderr_truncated` -/
def truncated (state : State) (stdout : Bool) : Bool :=
  if stdout then state.stdoutTruncated else state.stderrTruncated

/-- How many bytes the limit leaves. -/
def budget (worker : Worker) : Nat := worker.maxOutputBytes - worker.state.retainedBytes

/-- All the pieces of one stream. -/
def offered (calls : List Call) (stdout : Bool) : List Char :=
  (calls.filter fun call => call.stdout == stdout).flatMap Call.data

/-- Each stream is a beginning of its pieces, both are within the limit together, and a stream
counts as truncated just where it is not all of its pieces. -/
structure Prefixed (worker : Worker) (offered : Bool → List Char) : Prop where
  start : ∀ stdout, text worker.state stdout <+: offered stdout
  limited : textLength worker.state.stdout + textLength worker.state.stderr ≤ worker.maxOutputBytes
  flagged : ∀ stdout, truncated worker.state stdout = true ↔
    text worker.state stdout <+: offered stdout ∧ text worker.state stdout ≠ offered stdout

/-- A piece of a stream that is truncated already starts with a character for which no bytes
are left. -/
def Heeds (worker : Worker) (call : Call) : Prop :=
  truncated worker.state call.stdout = true → ∀ character rest, call.data = character :: rest →
    budget worker < character.utf8Size

/-- Every call of a run meets a condition in the state before it. -/
def EveryCall (condition : Worker → Call → Prop) : Worker → List Call → Prop
  | _, [] => True
  | worker, call :: rest =>
    condition worker call ∧
      ∀ next, appendOutput worker call = some next → EveryCall condition next rest

/-! ## One call -/

/-- What is kept of a call. -/
def keeps (worker : Worker) (call : Call) : List Char := fitting (budget worker) call.data

/-- What a call changes in exec mode. -/
structure Appended (worker : Worker) (call : Call) (next : Worker) : Prop where
  mode : next.mode = .exec
  limit : next.maxOutputBytes = worker.maxOutputBytes
  working : next.state.storageFailure = none
  bytes : next.state.retainedBytes = worker.state.retainedBytes + textLength (keeps worker call)
  text : ∀ stdout, text next.state stdout =
    text worker.state stdout ++ if call.stdout = stdout then keeps worker call else []
  truncated : ∀ stdout, truncated next.state stdout =
    (truncated worker.state stdout || (call.stdout == stdout && keeps worker call != call.data))

/-- A worker with the flags of what was cut off. -/
def marked (worker : Worker) (call : Call) : Worker :=
  { worker with
    state :=
      if keeps worker call != call.data then worker.state.truncate call.stdout
      else worker.state }

/-- What is kept of a call is its front. -/
theorem keeps_prefix (worker : Worker) (call : Call) : keeps worker call <+: call.data := by
  obtain ⟨_, whole | ⟨character, rest, split, _⟩⟩ := fits_fitting (budget worker) call.data
  · rw [keeps, ← whole]
  · exact ⟨character :: rest, split.symm⟩

/-- The length tells whether anything was cut off. -/
theorem keeps_length (worker : Worker) (call : Call) :
    (textLength (keeps worker call) != textLength call.data) = (keeps worker call != call.data) := by
  obtain ⟨rest, split⟩ := keeps_prefix worker call
  rw [Bool.eq_iff_iff, bne_iff_ne, bne_iff_ne, not_iff_not, ← split]
  constructor
  · intro same
    rw [textLength_append] at same
    have nothing : rest = [] := textLength_eq_zero.mp (by omega)
    rw [nothing, List.append_nil]
  · intro same
    rw [← same]

/-- Storing changes the text of one stream. -/
theorem store_exec {worker : Worker} (exec : worker.mode = .exec) {call : Call}
    (working : call.disk = .working) (added : List Char) :
    ∃ next, store worker call added = some next ∧ next.mode = .exec ∧
      next.maxOutputBytes = worker.maxOutputBytes ∧
      next.state.storageFailure = worker.state.storageFailure ∧
      next.state.retainedBytes = worker.state.retainedBytes + textLength added ∧
      (∀ stdout, text next.state stdout =
        text worker.state stdout ++ if call.stdout = stdout then added else []) ∧
      ∀ stdout, truncated next.state stdout = truncated worker.state stdout := by
  unfold store
  generalize place worker.state.chunks worker.state.nextSequence added _ = placed
  obtain ⟨chunks, chunk⟩ := placed
  simp only [settle, exec, working, Disk.working]
  refine ⟨_, rfl, rfl, rfl, ?_, ?_, ?_, ?_⟩
  · cases call.stdout <;> rfl
  · cases call.stdout <;> rfl
  · intro stdout
    cases call.stdout <;> cases stdout <;>
      simp [text, State.stream, State.refirst, State.count]
  · intro stdout
    cases call.stdout <;> cases stdout <;> rfl

/-- The mark is set where not all of the call is kept. -/
theorem marked_truncated (worker : Worker) (call : Call) (stdout : Bool) :
    truncated (marked worker call).state stdout =
      (truncated worker.state stdout ||
        (call.stdout == stdout && keeps worker call != call.data)) := by
  unfold marked
  cases keeps worker call != call.data <;> cases call.stdout <;> cases stdout <;>
    simp [truncated, State.truncate]

/-- The mark leaves the text. -/
theorem marked_text (worker : Worker) (call : Call) (stdout : Bool) :
    text (marked worker call).state stdout = text worker.state stdout := by
  unfold marked
  cases keeps worker call != call.data <;> cases call.stdout <;> rfl

/-- The mark leaves the count of the bytes. -/
theorem marked_retainedBytes (worker : Worker) (call : Call) :
    (marked worker call).state.retainedBytes = worker.state.retainedBytes := by
  unfold marked
  cases keeps worker call != call.data <;> cases call.stdout <;> rfl

/-- The mark leaves what is known of the storage. -/
theorem marked_storageFailure (worker : Worker) (call : Call) :
    (marked worker call).state.storageFailure = worker.state.storageFailure := by
  unfold marked
  cases keeps worker call != call.data <;> cases call.stdout <;> rfl

/-- A call in exec mode keeps what fits into the bytes that are left. -/
theorem appendOutput_exec {worker : Worker} (exec : worker.mode = .exec)
    (free : worker.state.storageFailure = none) {call : Call} (working : call.disk = .working) :
    ∃ next, appendOutput worker call = some next ∧ Appended worker call next := by
  have room : available worker call.data = budget worker := by
    unfold available
    rw [exec]
    rfl
  by_cases empty : call.data = []
  · have nothing : keeps worker call = [] := by
      rw [keeps, empty]
      rfl
    refine ⟨worker, ?_, exec, rfl, free, ?_, ?_, ?_⟩
    · simp [appendOutput, empty]
    · rw [nothing]
      rfl
    · simp [nothing]
    · simp [nothing, empty]
  · have present : call.data.isEmpty = false := by simpa using empty
    have sliced : kept worker call.data = some (keeps worker call) := by
      rw [kept_eq, room]
      rfl
    have failure := (marked_storageFailure worker call).trans free
    simp only [appendOutput, present, free, sliced, keeps_length, Option.isSome_none,
      Bool.false_or, Bool.false_eq_true, if_false, Option.bind_eq_bind, Option.bind_some]
    by_cases nothing : keeps worker call = []
    · refine ⟨marked worker call, ?_, exec, rfl, failure, ?_, ?_, marked_truncated worker call⟩
      · simp [nothing, marked]
      · rw [nothing, marked_retainedBytes]
        rfl
      · intro stdout
        rw [marked_text, nothing, ite_self, List.append_nil]
    · have some : (keeps worker call).isEmpty = false := by simpa using nothing
      obtain ⟨next, stored, mode, limit, working, retained, texts, flags⟩ :=
        @store_exec (marked worker call) exec call working (keeps worker call)
      refine ⟨next, ?_, mode, limit, working.trans failure, ?_, ?_, ?_⟩
      · rw [some]
        exact stored
      · rw [retained, marked_retainedBytes]
      · intro stdout
        rw [texts, marked_text]
      · intro stdout
        rw [flags, marked_truncated]

/-! ## One stream -/

/-- A stream that is all of its pieces so far, or was cut where a character did not fit into the
bytes that are left. -/
inductive Stream (left : Nat) : List Char → List Char → Bool → Prop where
  | whole (held : List Char) : Stream left held held false
  | cut (held : List Char) {character : Char} (rest : List Char)
      (wide : left < character.utf8Size) : Stream left (held ++ character :: rest) held true

/-- A stream that differs from its pieces within both. -/
inductive Torn : List Char → List Char → Prop where
  | torn (before rest more : List Char) {character other : Char} (different : character ≠ other) :
      Torn (before ++ character :: rest) (before ++ other :: more)

/-- What is held of a stream is its front. -/
theorem Stream.start {left : Nat} {offered held : List Char} {flag : Bool}
    (stream : Stream left offered held flag) : held <+: offered := by
  cases stream with
  | whole => exact List.prefix_refl offered
  | cut held rest _ => exact List.prefix_append held _

/-- The flag is set exactly where something is missing. -/
theorem Stream.flagged {left : Nat} {offered held : List Char} {flag : Bool}
    (stream : Stream left offered held flag) :
    flag = true ↔ held <+: offered ∧ held ≠ offered := by
  cases stream with
  | whole => simp
  | cut held rest _ => simp

/-- Fewer bytes are left when the other stream keeps some. -/
theorem Stream.shrink {left fewer : Nat} {offered held : List Char} {flag : Bool}
    (stream : Stream left offered held flag) (less : fewer ≤ left) :
    Stream fewer offered held flag := by
  cases stream with
  | whole => exact .whole offered
  | cut held rest wide => exact .cut held rest (by omega)

/-- A piece that a truncated stream can keep nothing of leaves no hole. -/
theorem Stream.extend {left : Nat} {offered held data : List Char} {flag : Bool}
    (stream : Stream left offered held flag)
    (heeds : flag = true → ∀ character rest, data = character :: rest →
      left < character.utf8Size) :
    Stream (left - textLength (fitting left data)) (offered ++ data) (held ++ fitting left data)
      (flag || fitting left data != data) := by
  cases stream with
  | whole =>
    obtain ⟨within, whole | ⟨character, rest, split, wide⟩⟩ := fits_fitting left data
    · rw [← whole, bne_self_eq_false]
      exact .whole (offered ++ data)
    · have cut : (fitting left data != data) = true := by
        rw [bne_iff_ne]
        intro same
        have size := congrArg textLength split
        rw [same, textLength_append] at size
        have positive := textLength_pos (List.cons_ne_nil character rest)
        omega
      rw [cut]
      have pieces : offered ++ data = offered ++ fitting left data ++ character :: rest := by
        rw [List.append_assoc, ← split]
      rw [pieces]
      exact .cut (offered ++ fitting left data) rest (by omega)
  | cut held rest wide =>
    have nothing : fitting left data = [] := fitting_eq_nil.mpr (heeds rfl)
    rw [nothing, List.append_nil, List.append_assoc, List.cons_append]
    exact .cut held (rest ++ data) (by omega)

/-- A piece that a truncated stream keeps something of leaves a hole: its first character fits,
and so is not the one that did not fit. -/
theorem Stream.tear {left : Nat} {offered held rest : List Char} {character : Char}
    (stream : Stream left offered held true) (fits : character.utf8Size ≤ left) :
    Torn (offered ++ character :: rest) (held ++ fitting left (character :: rest)) := by
  cases stream with
  | cut held others wide =>
    rw [fitting, if_pos fits, List.append_assoc, List.cons_append]
    apply Torn.torn
    rintro rfl
    omega

/-- A stream that is torn stays torn. -/
theorem Torn.extend {offered held : List Char} (torn : Torn offered held)
    (data added : List Char) : Torn (offered ++ data) (held ++ added) := by
  cases torn with
  | torn before rest more different =>
    rw [List.append_assoc, List.append_assoc]
    exact .torn before (rest ++ data) (more ++ added) different

/-- What is held of a torn stream is not its front. -/
theorem Torn.not_prefix {offered held : List Char} (torn : Torn offered held) :
    ¬ held <+: offered := by
  cases torn with
  | torn before rest more different =>
    rintro ⟨others, same⟩
    rw [List.append_assoc, List.append_cancel_left_eq] at same
    exact different (List.cons.inj same).1.symm

/-! ## Both streams -/

/-- The data of the first call stands first. -/
theorem offered_cons (call : Call) (rest : List Call) (stdout : Bool) :
    offered (call :: rest) stdout =
      (if call.stdout = stdout then call.data else []) ++ offered rest stdout := by
  by_cases same : call.stdout = stdout
  · simp [offered, same]
  · simp [offered, same]

/-- What was offered with one more call. -/
def seenWith (seen : Bool → List Char) (call : Call) (stdout : Bool) : List Char :=
  seen stdout ++ if call.stdout = stdout then call.data else []

/-- A worker neither of whose streams has a hole. -/
structure Streams (worker : Worker) (seen : Bool → List Char) : Prop where
  mode : worker.mode = .exec
  working : worker.state.storageFailure = none
  limited : worker.state.retainedBytes ≤ worker.maxOutputBytes
  bytes : worker.state.retainedBytes =
    textLength worker.state.stdout + textLength worker.state.stderr
  stream : ∀ stdout, Stream (budget worker) (seen stdout) (text worker.state stdout)
    (truncated worker.state stdout)

/-- Both streams are held in front. -/
theorem Streams.prefixed {worker : Worker} {seen : Bool → List Char}
    (streams : Streams worker seen) : Prefixed worker seen where
  start stdout := (streams.stream stdout).start
  limited := streams.bytes ▸ streams.limited
  flagged stdout := (streams.stream stdout).flagged

/-- A stream with a hole never becomes a beginning of its pieces again. -/
theorem appendAll_torn {worker : Worker} {seen : Bool → List Char} {stdout : Bool}
    (exec : worker.mode = .exec) (free : worker.state.storageFailure = none)
    (torn : Torn (seen stdout) (text worker.state stdout)) {calls : List Call}
    (working : ∀ call ∈ calls, call.disk = .working) :
    ∃ last added, appendAll worker calls = some (last, added) ∧
      Torn (seen stdout ++ offered calls stdout) (text last.state stdout) := by
  induction calls generalizing worker seen with
  | nil => exact ⟨worker, [], rfl, by simpa [offered] using torn⟩
  | cons call rest inductionHypothesis =>
    obtain ⟨works, restWorks⟩ := List.forall_mem_cons.mp working
    obtain ⟨next, appended, changes⟩ := appendOutput_exec exec free works
    have later : Torn (seenWith seen call stdout) (text next.state stdout) := by
      rw [changes.text]
      exact torn.extend _ _
    obtain ⟨last, added, run, final⟩ :=
      inductionHypothesis changes.mode changes.working later restWorks
    refine ⟨last, addition worker call ++ added, ?_, ?_⟩
    · simp [appendAll, appended, run]
    · rw [offered_cons, ← List.append_assoc]
      exact final

/-- A call that leaves no hole keeps both streams. -/
theorem Streams.extend {worker : Worker} {seen : Bool → List Char} (streams : Streams worker seen)
    {call : Call} (heeds : Heeds worker call) {next : Worker} (changes : Appended worker call next) :
    Streams next (seenWith seen call) := by
  have fits := (fits_fitting (budget worker) call.data).within
  have left : budget next = budget worker - textLength (keeps worker call) := by
    unfold budget
    rw [changes.limit, changes.bytes]
    omega
  constructor
  · exact changes.mode
  · exact changes.working
  · have room : worker.state.retainedBytes ≤ worker.maxOutputBytes := streams.limited
    rw [changes.limit, changes.bytes, keeps]
    unfold budget at fits ⊢
    omega
  · have first : next.state.stdout = worker.state.stdout ++ _ := changes.text true
    have second : next.state.stderr = worker.state.stderr ++ _ := changes.text false
    rw [changes.bytes, streams.bytes, first, second, textLength_append, textLength_append]
    cases call.stdout <;> simp <;> omega
  · intro stdout
    have stream := streams.stream stdout
    rw [left, changes.text, changes.truncated, seenWith]
    by_cases same : call.stdout = stdout
    · subst same
      rw [if_pos rfl, if_pos rfl, beq_self_eq_true, Bool.true_and]
      exact stream.extend heeds
    · have other : (call.stdout == stdout) = false := by simpa using same
      simp only [same, other, if_false, List.append_nil, Bool.false_and, Bool.or_false]
      exact stream.shrink (Nat.sub_le _ _)

/-- Without a hole so far, there is none in the end just where no call leaves one. -/
theorem appendAll_prefixed {worker : Worker} {seen : Bool → List Char}
    (streams : Streams worker seen) {calls : List Call}
    (working : ∀ call ∈ calls, call.disk = .working) :
    ∃ last added, appendAll worker calls = some (last, added) ∧
      (Prefixed last (fun stdout => seen stdout ++ offered calls stdout) ↔
        EveryCall Heeds worker calls) := by
  induction calls generalizing worker seen with
  | nil =>
    refine ⟨worker, [], rfl, iff_of_true ?_ trivial⟩
    simpa [offered] using streams.prefixed
  | cons call rest inductionHypothesis =>
    obtain ⟨works, restWorks⟩ := List.forall_mem_cons.mp working
    obtain ⟨next, appended, changes⟩ := appendOutput_exec streams.mode streams.working works
    have pieces : (fun stdout => seen stdout ++ offered (call :: rest) stdout) =
        fun stdout => seenWith seen call stdout ++ offered rest stdout := by
      funext stdout
      rw [offered_cons, ← List.append_assoc, seenWith]
    rw [pieces]
    by_cases heeds : Heeds worker call
    · obtain ⟨last, added, run, decided⟩ :=
        inductionHypothesis (streams.extend heeds changes) restWorks
      refine ⟨last, addition worker call ++ added, ?_, ?_⟩
      · simp [appendAll, appended, run]
      · rw [decided]
        simp [EveryCall, heeds, appended]
    · have torn : Torn (seenWith seen call call.stdout) (text next.state call.stdout) := by
        simp only [Heeds, not_forall, Nat.not_lt] at heeds
        obtain ⟨flag, character, others, data, fits⟩ := heeds
        have stream := streams.stream call.stdout
        rw [flag] at stream
        rw [changes.text, seenWith, if_pos rfl, if_pos rfl, keeps, data]
        exact stream.tear fits
      obtain ⟨last, added, run, final⟩ :=
        appendAll_torn changes.mode changes.working torn restWorks
      refine ⟨last, addition worker call ++ added, ?_, iff_of_false ?_ ?_⟩
      · simp [appendAll, appended, run]
      · intro prefixed
        exact final.not_prefix (prefixed.start call.stdout)
      · rintro ⟨heeded, _⟩
        exact heeds heeded

/-- At first nothing is offered and nothing is held. -/
theorem started_streams (maxOutputBytes : Nat) :
    Streams (started .exec maxOutputBytes) (fun _ => []) where
  mode := rfl
  working := rfl
  limited := Nat.zero_le maxOutputBytes
  bytes := rfl
  stream stdout := by cases stdout <;> exact .whole []

/-- After any pieces of output on a disk that works, each stream is a beginning of its pieces, both
are within the limit together and a stream counts as truncated just where it is not all of its
pieces, just where no piece of a truncated stream starts with a character that still fits. -/
theorem exec_output_prefix_iff (maxOutputBytes : Nat) {calls : List Call}
    (working : ∀ call ∈ calls, call.disk = .working) :
    ∃ worker added, appendAll (started .exec maxOutputBytes) calls = some (worker, added) ∧
      (Prefixed worker (offered calls) ↔ EveryCall Heeds (started .exec maxOutputBytes) calls) :=
  appendAll_prefixed (started_streams maxOutputBytes) working

/-- A piece of standard output at the beginning of 1970. -/
def piece (data : List Char) : Call := ⟨true, data, ⟨0, 0⟩, .working⟩

/-- Two calls, of which the second no longer fits. -/
theorem exec_output_prefix_iff_two :
    ∃ worker added, appendAll (started .exec 2) [piece "aé".toList, piece "b".toList] =
        some (worker, added) ∧
      (Prefixed worker (offered [piece "aé".toList, piece "b".toList]) ↔
        EveryCall Heeds (started .exec 2) [piece "aé".toList, piece "b".toList]) :=
  exec_output_prefix_iff 2 (by simp [piece])

/-- A limit of two bytes keeps the first character of a piece whose second one takes two bytes, and
then all of a piece of one byte. -/
theorem exec_output_with_hole :
    ¬ ∀ (maxOutputBytes : Nat) (calls : List Call) (worker : Worker) (added : List Char),
      (∀ call ∈ calls, call.disk = .working) →
      appendAll (started .exec maxOutputBytes) calls = some (worker, added) →
      Prefixed worker (offered calls) := by
  intro always
  obtain ⟨first, appended, changes⟩ :=
    @appendOutput_exec (started .exec 2) rfl rfl (piece "aé".toList) rfl
  obtain ⟨last, added, run, decided⟩ := @appendAll_prefixed _ _ (started_streams 2)
    [piece "aé".toList, piece "b".toList] (by simp [piece])
  have heeded := decided.mp (always 2 _ last added (by simp [piece]) run)
  have keeping : keeps (started .exec 2) (piece "aé".toList) = ['a'] := by decide
  have flag : truncated first.state true = true := by
    rw [changes.truncated, keeping]
    decide
  have wide := (heeded.2 first appended).1 flag 'b' [] rfl
  have left : budget first = 1 := by
    rw [budget, changes.limit, changes.bytes, keeping]
    decide
  rw [left] at wide
  exact absurd wide (by decide)

end OpencodePty.ExecOutput
