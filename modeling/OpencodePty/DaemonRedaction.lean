import OpencodePty.Redaction
import OpencodePty.TextEncodings

/-!
# Streaming redaction of the worker's own output

The daemon redacts what a worker writes to its standard error as the worker redacts the output of its
child, but on strings: a secret and a tail are measured in code units, and so is what is held back,
while the scans go over the characters that `Array.from` makes of a string. On encoded texts the scans
are those of the worker.
-/

namespace OpencodePty.DaemonRedaction

open OpencodePty.JsValues OpencodePty.TextEncodings OpencodePty.Substitution

/-- What stands in place of a secret. -/
def marker : JsString := js "[REDACTED]"

/-- `redact`, where a secret is replaced by splitting the text at it and joining the parts. -/
def redact (text : JsString) (secrets : List JsString) : JsString :=
  secrets.foldl
    (fun text secret => if secret.length ≥ 4 then replaceAll secret marker text else text) text

/-- `redactTail` -/
def redactTail (tail : JsString) (secrets : List JsString) : JsString :=
  if secrets.any fun secret =>
      tail.length ≥ 4 && tail.length < secret.length && tail.isPrefixOf secret
  then marker else redact tail secrets

/-- `Array.from` -/
def arrayFrom : JsString → List JsString
  | [] => []
  | [unit] => [[unit]]
  | high :: low :: rest =>
    if isHighSurrogate high && isLowSurrogate low then [high, low] :: arrayFrom rest
    else [high] :: arrayFrom (low :: rest)

/-- The number of characters that are held back. -/
def hold (secrets : List JsString) : Nat :=
  (secrets.map fun secret => secret.length - 1).foldl max 0

/-- Whether the text from a position on is a start, of at least four characters, of a secret. -/
def isPartial (characters secret : List JsString) (start : Nat) : Bool :=
  let suffix := characters.length - start
  suffix ≥ 4 && suffix < secret.length && (characters.drop start).isPrefixOf secret

/-- The secret stands across the place. -/
def overlapsFullSecret (characters secret : List JsString) (start : Nat) : Bool :=
  characters.length ≥ secret.length &&
    (List.range (characters.length - secret.length + 1)).any fun fullStart =>
      fullStart ≤ start && start < fullStart + secret.length &&
        ((characters.drop fullStart).take secret.length).isPrefixOf secret

/-- The split of the last call. -/
def finishSplit (characters : List JsString) (secrets : List JsString) : Nat :=
  (secrets.map arrayFrom).foldl
    (fun split secret => (List.range characters.length).foldl
      (fun split start =>
        if isPartial characters secret start && !overlapsFullSecret characters secret start then
          min split start
        else split) split)
    characters.length

/-- The split of a call that is not the last one. -/
def streamSplit (characters : List JsString) (secrets : List JsString) (initialSplit : Nat) : Nat :=
  (secrets.map arrayFrom).foldl
    (fun split secret => (List.range initialSplit).foldl
      (fun split start =>
        if start + secret.length > split &&
            ((characters.drop start).take (min (characters.length - start) secret.length)).isPrefixOf
              secret then start
        else split) split)
    initialSplit

/-- `redactStream`: the output and the new tail. -/
def redactStream (data tail : JsString) (secrets : List JsString) (finish : Bool) :
    JsString × JsString :=
  let characters := arrayFrom (tail ++ data)
  let split :=
    if finish then finishSplit characters secrets
    else streamSplit characters secrets (characters.length - hold secrets)
  let safe := (characters.take split).flatten
  let tail := (characters.drop split).flatten
  let redacted := redact safe secrets
  (if finish then redacted ++ redactTail tail secrets else redacted, tail)

/-- The outputs of `captureWorkerStderr`, one after the other: a call for each decoded chunk, and a
last one for what the decoder still carries. -/
def captureWorkerStderr (secrets : List JsString) : JsString → List JsString → JsString → JsString
  | tail, [], carry => (redactStream carry tail secrets true).1
  | tail, chunk :: chunks, carry =>
    let call := redactStream chunk tail secrets false
    call.1 ++ captureWorkerStderr secrets call.2 chunks carry

/-! ## Encoded texts -/

/-- Other characters have other units. -/
theorem encodeChar_injective : Function.Injective encodeChar := by
  intro first second same
  have units : encodeChar first ++ [] = encodeChar second ++ [] := by rw [same]
  exact (encodeChar_inj units).1

/-- The units of a text are parted into its characters. -/
theorem arrayFrom_encode (text : List Char) : arrayFrom (encode text) = text.map encodeChar := by
  induction text with
  | nil => rfl
  | cons character rest inductionHypothesis =>
    rw [encode_cons, List.map_cons, ← inductionHypothesis]
    obtain ⟨unit, single, plain, _⟩ | ⟨high, low, pair, opens, closes, _⟩ :=
      encodeChar_cases character
    · rw [single, List.singleton_append]
      cases encode rest with
      | nil => rfl
      | cons next others => simp [arrayFrom, plain]
    · simp [arrayFrom, pair, opens, closes]

/-- The units of a text are those of its characters. -/
theorem encode_eq_flatten (text : List Char) : encode text = (text.map encodeChar).flatten :=
  List.flatMap_def

/-- A text is a start of another one just where its code units are. -/
theorem encode_starts {text whole : List Char} : encode text <+: encode whole ↔ text <+: whole := by
  constructor
  · rintro ⟨rest, same⟩
    induction text generalizing whole with
    | nil => exact List.nil_prefix
    | cons character text inductionHypothesis =>
      rw [encode_cons, List.append_assoc] at same
      cases whole with
      | nil => exact absurd (List.append_eq_nil_iff.mp same).1 (encodeChar_ne_nil character)
      | cons other whole =>
        rw [encode_cons] at same
        obtain ⟨rfl, later⟩ := encodeChar_inj same
        exact List.cons_prefix_cons.mpr ⟨rfl, inductionHypothesis later⟩
  · rintro ⟨rest, rfl⟩
    rw [encode_append]
    exact List.prefix_append _ _

/-- A text begins with another where its characters do. -/
theorem map_starts {text whole : List Char} :
    text.map encodeChar <+: whole.map encodeChar ↔ text <+: whole := by
  constructor
  · intro found
    obtain ⟨start, inside, same⟩ := List.prefix_map_iff.mp found
    rwa [List.map_injective_iff.mpr encodeChar_injective same]
  · exact fun found => found.map encodeChar

/-- No text starts in the middle of a character. -/
theorem encode_aligned {secret rest : List Char} (proper : secret ≠ []) {character : Char}
    {ending : JsString} (suffix : ending <:+ encodeChar character) (nonempty : ending ≠ [])
    (found : encode secret <+: ending ++ encode rest) : ending = encodeChar character := by
  obtain ⟨first, others, rfl⟩ := List.exists_cons_of_ne_nil proper
  obtain ⟨unit, single, _⟩ | ⟨high, low, pair, _, closes, _⟩ := encodeChar_cases character
  · rw [single] at suffix ⊢
    obtain same | inside := List.suffix_cons_iff.mp suffix
    · exact same
    · exact absurd (List.suffix_nil.mp inside) nonempty
  · rw [pair] at suffix ⊢
    obtain same | inside := List.suffix_cons_iff.mp suffix
    · exact same
    · obtain rfl | empty := List.suffix_cons_iff.mp inside
      · -- A secret does not begin with the second unit of a pair.
        exfalso
        rw [encode_cons] at found
        obtain ⟨unit, single, _, plain, _⟩ | ⟨other, last, double, opens, _⟩ := encodeChar_cases first
        · rw [single] at found
          obtain ⟨rfl, _⟩ := List.cons_prefix_cons.mp found
          rw [closes] at plain
          cases plain
        · rw [double] at found
          obtain ⟨rfl, _⟩ := List.cons_prefix_cons.mp found
          rw [isHighSurrogate_iff] at opens
          rw [isLowSurrogate_iff] at closes
          omega
      · exact absurd (List.suffix_nil.mp empty) nonempty

/-- Units are replaced as characters are. -/
theorem replaceAll_encode {secret : List Char} (proper : secret ≠ []) (mark text : List Char) :
    replaceAll (encode secret) (encode mark) (encode text) = encode (replaceAll secret mark text) := by
  have units : encode secret ≠ [] := fun empty => proper (encode_eq_nil.mp empty)
  induction size : text.length using Nat.strong_induction_on generalizing text with
  | _ length inductionHypothesis =>
    by_cases found : secret <+: text
    · obtain ⟨rest, rfl⟩ := found
      have shorter : rest.length < length := by
        have positive : 0 < secret.length := List.length_pos_of_ne_nil proper
        rw [List.length_append] at size
        omega
      rw [encode_append, replaceAll_occurrence units, replaceAll_occurrence proper, encode_append,
        inductionHypothesis rest.length shorter rest rfl]
    · cases text with
      | nil => rfl
      | cons character rest =>
        have shorter : rest.length < length := by
          rw [List.length_cons] at size
          omega
        rw [encode_cons, replaceAll_passes, replaceAll_keep found, encode_cons,
          inductionHypothesis rest.length shorter rest rfl]
        intro ending suffix nonempty starts
        rw [encode_aligned proper suffix nonempty starts, ← encode_cons] at starts
        exact found (encode_starts.mp starts)

/-! ## Scans of encoded texts -/

/-- A secret begins at the end in units as in characters. -/
theorem isPartial_map (characters secret : List Char) (start : Nat) :
    isPartial (characters.map encodeChar) (secret.map encodeChar) start =
      Redaction.startsSecret (characters.drop start) secret := by
  rw [Bool.eq_iff_iff]
  simp only [isPartial, Redaction.startsSecret, ← List.map_drop, List.length_map, List.length_drop,
    Bool.and_eq_true, List.isPrefixOf_iff_prefix, map_starts, beq_iff_eq]
  rw [← List.length_drop, ← List.prefix_iff_eq_take]

/-- A secret stands across a place in units as in characters. -/
theorem overlapsFullSecret_map (characters secret : List Char) (start : Nat) :
    overlapsFullSecret (characters.map encodeChar) (secret.map encodeChar) start =
      Redaction.overlapsFullSecret characters secret start := by
  rw [Bool.eq_iff_iff]
  simp only [overlapsFullSecret, Redaction.overlapsFullSecret, Redaction.occursAt, List.length_map,
    ← List.map_drop, ← List.map_take, Bool.and_eq_true, List.any_eq_true, List.mem_range,
    List.isPrefixOf_iff_prefix, map_starts, beq_iff_eq, decide_eq_true_eq]
  refine and_congr_right fun fits => exists_congr fun full => and_congr_right fun within => ?_
  refine and_congr_right fun _ => ?_
  have whole : ((characters.drop full).take secret.length).length = secret.length := by
    rw [List.length_take, List.length_drop]
    omega
  rw [List.prefix_iff_eq_take, whole, List.take_length]

/-- The secrets are parted into their characters. -/
theorem arrayFrom_secrets (secrets : List (List Char)) :
    (secrets.map encode).map arrayFrom = secrets.map fun secret => secret.map encodeChar := by
  rw [List.map_map]
  exact List.map_congr_left fun secret _ => arrayFrom_encode secret

/-- The last split is the one of the worker. -/
theorem finishSplit_map (characters : List Char) (secrets : List (List Char)) :
    finishSplit (characters.map encodeChar) (secrets.map encode) =
      Redaction.finishSplit characters secrets := by
  rw [finishSplit, arrayFrom_secrets, List.foldl_map, Redaction.finishSplit, List.length_map]
  simp only [isPartial_map, overlapsFullSecret_map]
  rfl

/-- The split is the one of the worker. -/
theorem streamSplit_map (characters : List Char) (secrets : List (List Char)) (initialSplit : Nat) :
    streamSplit (characters.map encodeChar) (secrets.map encode) initialSplit =
      Redaction.streamSplit characters secrets initialSplit := by
  have agrees (secret : List Char) (start : Nat) :
      (((characters.map encodeChar).drop start).take
        (min (characters.length - start) secret.length)).isPrefixOf (secret.map encodeChar) =
          Redaction.agrees characters secret start := by
    have length : ((characters.drop start).take
        (min (characters.length - start) secret.length)).length =
          min (characters.length - start) secret.length := by
      rw [List.length_take, List.length_drop]
      omega
    rw [Bool.eq_iff_iff, Redaction.agrees, List.isPrefixOf_iff_prefix, ← List.map_drop,
      ← List.map_take, map_starts, beq_iff_eq, List.prefix_iff_eq_take, length]
  rw [streamSplit, arrayFrom_secrets, List.foldl_map, Redaction.streamSplit]
  simp only [List.length_map, agrees]
  rfl

end OpencodePty.DaemonRedaction
