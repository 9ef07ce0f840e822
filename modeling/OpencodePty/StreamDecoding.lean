import OpencodePty.CharacterFronts

/-!
# Decoding a stream in pieces

A reader of the worker decodes what it reads in a loop: it takes the longest valid text at the
front of its bytes, replaces the bytes that the error names, and goes on behind them, until it has
decoded everything or an incomplete character is left. That character is carried over to the next
read, and is flushed at the end of the stream. However a stream is cut into reads, the text is that
of the whole stream, decoded at once with maximal subparts replaced.

`std::str::from_utf8` and `String::from_utf8_lossy` are modelled after their documentation, over
the same front of the bytes. The text that this gives is the one of the byte sequences.
-/

namespace OpencodePty.StreamDecoding

open OpencodePty.TextEncodings OpencodePty.TerminalRedaction OpencodePty.Utf8Sequences
  OpencodePty.CharacterFronts

/-! ## The standard library -/

/-- `std::str::Utf8Error`: the length of the valid text before the error, and the length of what
is invalid, or nothing where the bytes end within a character. -/
structure Utf8Error where
  validUpTo : Nat
  errorLen : Option Nat

/-- The longest valid text at the front of bytes, and the bytes behind it. The number counts the
bytes of the current character that are still to be passed over. -/
def validFrom : Nat → List UInt8 → List Char × List UInt8
  | _, [] => ([], [])
  | skip + 1, _ :: rest => validFrom skip rest
  | 0, first :: rest =>
    match decodeFront (first :: rest) with
    | .character value width =>
      let (text, remaining) := validFrom (width - 1) rest
      (value :: text, remaining)
    | _ => ([], first :: rest)

/-- `std::str::from_utf8` -/
def fromUtf8 (bytes : List UInt8) : Except Utf8Error (List Char) :=
  let (text, rest) := validFrom 0 bytes
  if rest.isEmpty then .ok text
  else
    .error
      { validUpTo := bytes.length - rest.length
        errorLen :=
          match decodeFront rest with
          | .invalid width => some width
          | _ => none }

/-- `String::from_utf8_lossy`: what is invalid or incomplete becomes a replacement character. -/
def fromUtf8Lossy (bytes : List UInt8) : List Char :=
  let (text, rest) := decodeFrom 0 bytes
  text ++ if rest.isEmpty then [] else [replacement]

/-! ## The loop -/

/-- The loop of `decode_utf8_stream`, with what is decoded and how many bytes of the carry are
consumed. Nothing is returned where the fuel is spent or the valid prefix is not valid. -/
def decodeLoop : Nat → List UInt8 → Nat → List Char → Option (List Char × Nat)
  | 0, _, _, _ => none
  | fuel + 1, carry, consumed, decoded =>
    match fromUtf8 (carry.drop consumed) with
    | .ok valid => some (decoded ++ valid, carry.length)
    | .error error =>
      match fromUtf8 ((carry.drop consumed).take error.validUpTo) with
      | .error _ => none
      | .ok valid =>
        match error.errorLen with
        | some invalid =>
          decodeLoop fuel carry (consumed + error.validUpTo + invalid)
            (decoded ++ valid ++ [replacement])
        | none => some (decoded ++ valid, consumed + error.validUpTo)

/-- `decode_utf8_stream`: the decoded text and the new carry. Every turn of the loop that goes on
consumes a byte, so that there are no more turns than one more than the bytes. -/
def decodeUtf8Stream (carry data : List UInt8) : Option (List Char × List UInt8) :=
  (decodeLoop ((carry ++ data).length + 1) (carry ++ data) 0 []).map fun (decoded, consumed) =>
    (decoded, (carry ++ data).drop consumed)

/-- The text of the reads of a stream, from a given carry on, and the carry that they leave. -/
def decodeAll : List UInt8 → List (List UInt8) → Option (List Char × List UInt8)
  | carry, [] => some ([], carry)
  | carry, chunk :: chunks => do
    let (text, next) ← decodeUtf8Stream carry chunk
    let (later, last) ← decodeAll next chunks
    return (text ++ later, last)

/-! ## One call at once -/

theorem decodeFrom_skip (skip : Nat) (bytes : List UInt8) :
    decodeFrom skip bytes = decodeFrom 0 (bytes.drop skip) :=
  Substitution.skip_drop (fun _ => rfl) (fun _ _ _ => rfl) skip bytes

theorem validFrom_skip (skip : Nat) (bytes : List UInt8) :
    validFrom skip bytes = validFrom 0 (bytes.drop skip) :=
  Substitution.skip_drop (fun _ => rfl) (fun _ _ _ => rfl) skip bytes

/-- Bytes that are passed over after the first one. -/
theorem drop_rest {part rest others : List UInt8} {first : UInt8}
    (bytes : part ++ rest = first :: others) (nonempty : part ≠ []) :
    others.drop (part.length - 1) = rest := by
  obtain ⟨head, tail, rfl⟩ := List.exists_cons_of_ne_nil nonempty
  obtain ⟨rfl, rfl⟩ := List.cons.inj bytes
  simp

theorem decodeFrom_character (value : Char) (rest : List UInt8) :
    decodeFrom 0 (String.utf8EncodeChar value ++ rest) =
      (value :: (decodeFrom 0 rest).1, (decodeFrom 0 rest).2) := by
  have front := decodeFront_encode value rest
  cases bytes : String.utf8EncodeChar value ++ rest with
  | nil => exact absurd (List.append_eq_nil_iff.mp bytes).1 (encoded_nonempty value)
  | cons first others =>
    have passed := drop_rest bytes (encoded_nonempty value)
    rw [String.length_utf8EncodeChar] at passed
    rw [bytes] at front
    rw [decodeFrom, front]
    simp only [decodeFrom_skip (value.utf8Size - 1), passed]

theorem decodeFrom_refused {part rest : List UInt8} (refused : Refused part rest) :
    decodeFrom 0 (part ++ rest) =
      (replacement :: (decodeFrom 0 rest).1, (decodeFrom 0 rest).2) := by
  have front := refused.decides (List.take_prefix 1 rest)
  cases bytes : part ++ rest with
  | nil => exact absurd (List.append_eq_nil_iff.mp bytes).1 refused.nonempty
  | cons first others =>
    have passed := drop_rest bytes refused.nonempty
    rw [bytes] at front
    rw [decodeFrom, front]
    simp only [decodeFrom_skip (part.length - 1), passed]

theorem decodeFrom_begins {bytes : List UInt8} (begins : Begins bytes) :
    decodeFrom 0 bytes = ([], bytes) := by
  cases bytes with
  | nil => rfl
  | cons first others => rw [decodeFrom, decodeFront_begins begins]

theorem validFrom_character (value : Char) (rest : List UInt8) :
    validFrom 0 (String.utf8EncodeChar value ++ rest) =
      (value :: (validFrom 0 rest).1, (validFrom 0 rest).2) := by
  have front := decodeFront_encode value rest
  cases bytes : String.utf8EncodeChar value ++ rest with
  | nil => exact absurd (List.append_eq_nil_iff.mp bytes).1 (encoded_nonempty value)
  | cons first others =>
    have passed := drop_rest bytes (encoded_nonempty value)
    rw [String.length_utf8EncodeChar] at passed
    rw [bytes] at front
    rw [validFrom, front]
    simp only [validFrom_skip (value.utf8Size - 1), passed]

/-- Valid text is decoded as such, whatever follows. -/
theorem decodeFrom_text (text : List Char) (rest : List UInt8) :
    decodeFrom 0 (asBytes text ++ rest) =
      (text ++ (decodeFrom 0 rest).1, (decodeFrom 0 rest).2) := by
  induction text with
  | nil => rfl
  | cons character text inductionHypothesis =>
    rw [asBytes_cons, List.append_assoc, decodeFrom_character, inductionHypothesis]
    rfl

/-- What a stream leaves behind begins a sequence. -/
theorem decodeFrom_carry (bytes : List UInt8) : Begins (decodeFrom 0 bytes).2 := by
  induction bytes using bytes_induction with
  | stop bytes begins =>
    rw [decodeFrom_begins begins]
    exact begins
  | character value rest inductionHypothesis =>
    rw [decodeFrom_character]
    exact inductionHypothesis
  | invalid part rest refused inductionHypothesis =>
    rw [decodeFrom_refused refused]
    exact inductionHypothesis

/-- A stream that goes on is decoded from what it left behind. -/
theorem decodeFrom_append (bytes more : List UInt8) :
    decodeFrom 0 (bytes ++ more) =
      ((decodeFrom 0 bytes).1 ++ (decodeFrom 0 ((decodeFrom 0 bytes).2 ++ more)).1,
        (decodeFrom 0 ((decodeFrom 0 bytes).2 ++ more)).2) := by
  induction bytes using bytes_induction with
  | stop bytes begins => rw [decodeFrom_begins begins]; rfl
  | character value rest inductionHypothesis =>
    rw [List.append_assoc, decodeFrom_character, decodeFrom_character, inductionHypothesis]
    rfl
  | invalid part rest refused inductionHypothesis =>
    rw [List.append_assoc, decodeFrom_refused refused, decodeFrom_refused (refused.append more),
      inductionHypothesis]
    rfl

/-! ## The text of the byte sequences -/

/-- The text at once is the one that the byte sequences determine. -/
theorem fromUtf8Lossy_lossy (bytes : List UInt8) :
    Lossy replacement bytes (fromUtf8Lossy bytes) := by
  induction bytes using bytes_induction with
  | stop bytes begins =>
    simp only [fromUtf8Lossy, decodeFrom_begins begins, List.nil_append]
    cases bytes with
    | nil => exact .nil
    | cons first rest =>
      have waits := maximal_of_begins begins (List.cons_ne_nil first rest)
      rw [← List.append_nil (first :: rest)]
      exact .subpart waits .nil
  | character value rest inductionHypothesis =>
    simp only [fromUtf8Lossy, decodeFrom_character, List.cons_append]
    exact .character value inductionHypothesis
  | invalid part rest refused inductionHypothesis =>
    simp only [fromUtf8Lossy, decodeFrom_refused refused, List.cons_append]
    exact .subpart refused.maximal inductionHypothesis

/-! ## The loop -/

/-- The error of bytes that are not valid stands behind valid text. -/
theorem validFrom_spec (bytes : List UInt8) :
    bytes = asBytes (validFrom 0 bytes).1 ++ (validFrom 0 bytes).2 ∧
      ∀ value width, decodeFront (validFrom 0 bytes).2 ≠ .character value width := by
  induction bytes using bytes_induction with
  | stop bytes begins =>
    have front := decodeFront_begins begins
    have stopped : validFrom 0 bytes = ([], bytes) := by
      cases bytes with
      | nil => rfl
      | cons first rest => rw [validFrom, front]
    rw [stopped]
    refine ⟨rfl, ?_⟩
    intro value width same
    rw [front] at same
    cases same
  | character value rest inductionHypothesis =>
    obtain ⟨split, stopped⟩ := inductionHypothesis
    rw [validFrom_character]
    refine ⟨?_, stopped⟩
    rw [asBytes_cons, List.append_assoc, ← split]
  | invalid part rest refused inductionHypothesis =>
    have front := refused.decides (List.take_prefix 1 rest)
    have stopped : validFrom 0 (part ++ rest) = ([], part ++ rest) := by
      cases bytes : part ++ rest with
      | nil => rfl
      | cons first others =>
        rw [bytes] at front
        rw [validFrom, front]
    rw [stopped]
    refine ⟨rfl, ?_⟩
    intro value width same
    rw [front] at same
    cases same

/-- What checking bytes says about them. -/
inductive Checked : List UInt8 → Except Utf8Error (List Char) → Prop where
  | valid (text : List Char) : Checked (asBytes text) (.ok text)
  | broken (text : List Char) {part rest : List UInt8} (refused : Refused part rest) :
      Checked (asBytes text ++ (part ++ rest))
        (.error ⟨(asBytes text).length, some part.length⟩)
  | unfinished (text : List Char) {rest : List UInt8} (begins : Begins rest) (nonempty : rest ≠ []) :
      Checked (asBytes text ++ rest) (.error ⟨(asBytes text).length, none⟩)

theorem checked_fromUtf8 (bytes : List UInt8) : Checked bytes (fromUtf8 bytes) := by
  obtain ⟨split, stopped⟩ := validFrom_spec bytes
  unfold fromUtf8
  generalize validFrom 0 bytes = found at split stopped ⊢
  obtain ⟨text, rest⟩ := found
  simp only at split stopped ⊢
  subst split
  have view := frontOf_decodeFront rest
  by_cases nothing : rest = []
  · subst nothing
    rw [List.append_nil]
    exact .valid text
  have present : rest.isEmpty = false := by simpa using nothing
  have before : (asBytes text ++ rest).length - rest.length = (asBytes text).length := by
    rw [List.length_append, Nat.add_sub_cancel]
  simp only [present, before]
  generalize decodeFront rest = front at view stopped
  cases view with
  | character value others => exact absurd rfl (stopped value value.utf8Size)
  | invalid refused => exact .broken text refused
  | incomplete begins => exact .unfinished text begins nothing

theorem validFrom_text (text : List Char) : validFrom 0 (asBytes text) = (text, []) := by
  induction text with
  | nil => rfl
  | cons character text inductionHypothesis =>
    rw [asBytes_cons, validFrom_character, inductionHypothesis]

/-- The prefix that the error calls valid is valid. -/
theorem fromUtf8_prefix (text : List Char) (rest : List UInt8) :
    fromUtf8 ((asBytes text ++ rest).take (asBytes text).length) = .ok text := by
  rw [List.take_left, fromUtf8, validFrom_text]
  rfl

/-- The loop decodes what is not consumed yet, in at most one turn more than there are bytes.
A turn that goes on consumes what it replaces, so that fewer bytes are left for the next one. -/
theorem decodeLoop_decodes (fuel : Nat) (carry : List UInt8) (consumed : Nat) (decoded : List Char)
    (enough : (carry.drop consumed).length < fuel) :
    ∃ last, decodeLoop fuel carry consumed decoded =
        some (decoded ++ (decodeFrom 0 (carry.drop consumed)).1, last) ∧
      carry.drop last = (decodeFrom 0 (carry.drop consumed)).2 := by
  induction fuel generalizing consumed decoded with
  | zero => omega
  | succ fuel inductionHypothesis =>
    have checked := checked_fromUtf8 (carry.drop consumed)
    generalize remaining : carry.drop consumed = bytes at checked enough ⊢
    generalize result : fromUtf8 bytes = outcome at checked
    cases checked with
    | valid text =>
      refine ⟨carry.length, ?_, ?_⟩
      · have whole := decodeFrom_text text []
        rw [List.append_nil] at whole
        simp [decodeLoop, remaining, result, whole, decodeFrom]
      · have whole := decodeFrom_text text []
        rw [List.append_nil] at whole
        rw [whole, List.drop_length]
        rfl
    | @broken text part rest refused =>
      have positive : 0 < part.length := List.length_pos_of_ne_nil refused.nonempty
      have next : carry.drop (consumed + (asBytes text).length + part.length) = rest := by
        rw [Nat.add_assoc, ← List.drop_drop, remaining, ← List.append_assoc, ← List.length_append,
          List.drop_left]
      obtain ⟨last, looped, left⟩ := inductionHypothesis
        (consumed + (asBytes text).length + part.length) (decoded ++ text ++ [replacement]) (by
          rw [next]
          simp only [List.length_append] at enough
          omega)
      rw [next] at looped left
      refine ⟨last, ?_, ?_⟩
      · simp only [decodeLoop, remaining, result, fromUtf8_prefix]
        rw [looped, decodeFrom_text, decodeFrom_refused refused]
        simp
      · rw [left, decodeFrom_text, decodeFrom_refused refused]
    | @unfinished text rest begins nonempty =>
      refine ⟨consumed + (asBytes text).length, ?_, ?_⟩
      · simp only [decodeLoop, remaining, result, fromUtf8_prefix]
        rw [decodeFrom_text, decodeFrom_begins begins, List.append_nil]
      · rw [← List.drop_drop, remaining, List.drop_left, decodeFrom_text, decodeFrom_begins begins]

/-- The loop ends for every carry and every read, with the text and the carry that decoding
the bytes from the front gives. -/
theorem decodeUtf8Stream_eq (carry data : List UInt8) :
    decodeUtf8Stream carry data = some (TerminalRedaction.decodeUtf8Stream carry data) := by
  obtain ⟨last, looped, left⟩ :=
    decodeLoop_decodes ((carry ++ data).length + 1) (carry ++ data) 0 [] (Nat.lt_succ_self _)
  rw [decodeUtf8Stream, looped, Option.map_some]
  simp only [left]
  rfl

/-! ## Whole streams -/

/-- The reads of a stream are decoded like the whole of it. -/
theorem decodeAll_eq (carry : List UInt8) (begins : Begins carry) (chunks : List (List UInt8)) :
    decodeAll carry chunks = some (decodeFrom 0 (carry ++ chunks.flatten)) := by
  induction chunks generalizing carry with
  | nil =>
    rw [List.flatten_nil, List.append_nil, decodeFrom_begins begins]
    rfl
  | cons chunk chunks inductionHypothesis =>
    have later := inductionHypothesis (decodeFrom 0 (carry ++ chunk)).2 (decodeFrom_carry _)
    simp only [decodeAll, decodeUtf8Stream_eq, TerminalRedaction.decodeUtf8Stream,
      Option.bind_eq_bind, Option.bind_some, later, List.flatten_cons]
    rw [← List.append_assoc, decodeFrom_append (carry ++ chunk)]
    rfl

/-- However a stream is cut into reads, every call of the decoder ends, and leaves at most three
bytes, which begin a sequence. The decoded text with what a flush adds is the text of the whole
stream, which is the one that its byte sequences determine. -/
theorem stream_decoded_whole (chunks : List (List UInt8)) :
    ∃ text carry, decodeAll [] chunks = some (text, carry) ∧ carry.length ≤ 3 ∧ Begins carry ∧
      text ++ flushUtf8Carry carry = fromUtf8Lossy chunks.flatten ∧
      ∀ lossy, Lossy replacement chunks.flatten lossy ↔ lossy = fromUtf8Lossy chunks.flatten := by
  have begins := decodeFrom_carry chunks.flatten
  refine ⟨_, _, decodeAll_eq [] begins_nothing chunks, begins.length, begins, ?_, ?_⟩
  · simp only [List.nil_append, flushUtf8Carry, fromUtf8Lossy, decodeFrom_begins begins]
  · intro lossy
    constructor
    · intro decoded
      exact decoded.unique (fromUtf8Lossy_lossy _)
    · rintro rfl
      exact fromUtf8Lossy_lossy _

end OpencodePty.StreamDecoding
