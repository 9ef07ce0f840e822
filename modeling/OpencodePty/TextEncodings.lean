import OpencodePty.JsValues

/-!
# One text in two encodings

A Rust string is a text whose bytes are its UTF-8 form, and it is cut at byte positions
that must lie between two characters. Written as JSON and parsed again, the same text is
a JavaScript string of UTF-16 code units. Byte lengths, line ends and the well-formedness
of the string agree in both encodings.
-/

namespace OpencodePty.TextEncodings

open OpencodePty.JsValues

/-- `str::len`. -/
def textLength (text : List Char) : Nat := (text.map Char.utf8Size).sum

/-- `str::as_bytes`. -/
def asBytes (text : List Char) : List UInt8 := text.flatMap String.utf8EncodeChar

/-- The bytes of a text are those of its characters, one after the other. -/
theorem asBytes_cons (character : Char) (rest : List Char) :
    asBytes (character :: rest) = String.utf8EncodeChar character ++ asBytes rest :=
  List.flatMap_cons

/-- The bytes of two texts in a row. -/
theorem asBytes_append (before after : List Char) :
    asBytes (before ++ after) = asBytes before ++ asBytes after :=
  List.flatMap_append

/-- The bytes of a character after its first. -/
def isContinuation (byte : UInt8) : Bool := byte &&& 0xc0 == 0x80

/-- `&text[..end]`, which panics inside a character and after the text. -/
def sliceTo : List Char → Nat → Option (List Char)
  | _, 0 => some []
  | [], _ + 1 => none
  | character :: rest, stop + 1 =>
    if character.utf8Size ≤ stop + 1 then
      (sliceTo rest (stop + 1 - character.utf8Size)).map (character :: ·)
    else none

/-- The number of line ends. -/
def newlines (text : List Char) : Nat := text.count '\n'

/-- The digits of a number, with leading zeros up to the width: `{:0width}`. -/
def padded (width value : Nat) : List Char :=
  List.replicate (width - (Nat.toDigits 10 value).length) '0' ++ Nat.toDigits 10 value

/-- No character has no byte. -/
@[simp] theorem textLength_nil : textLength [] = 0 := rfl

/-- The lengths of the characters add up. -/
@[simp] theorem textLength_cons (character : Char) (rest : List Char) :
    textLength (character :: rest) = character.utf8Size + textLength rest := by
  simp [textLength]

/-- The lengths of two texts add up. -/
@[simp] theorem textLength_append (first second : List Char) :
    textLength (first ++ second) = textLength first + textLength second := by
  simp [textLength]

/-- A text that is not empty has a byte. -/
theorem textLength_pos {text : List Char} (nonempty : text ≠ []) : 0 < textLength text := by
  obtain ⟨character, rest, rfl⟩ := List.exists_cons_of_ne_nil nonempty
  have positive := character.utf8Size_pos
  rw [textLength_cons]
  omega

/-- Only the empty text has no bytes. -/
theorem textLength_eq_zero {text : List Char} : textLength text = 0 ↔ text = [] := by
  constructor
  · intro zero
    by_contra nonempty
    have positive := textLength_pos nonempty
    omega
  · rintro rfl
    rfl

/-- The newlines of two texts add up. -/
@[simp] theorem newlines_append (first second : List Char) :
    newlines (first ++ second) = newlines first + newlines second := by
  simp [newlines]

/-- No character has no code unit. -/
@[simp] theorem encode_nil : encode [] = [] := rfl

/-- The code units of two texts in a row. -/
@[simp] theorem encode_append (first second : List Char) :
    encode (first ++ second) = encode first ++ encode second := by
  simp [encode]

/-- The code units of a text are those of its characters, one after the other. -/
@[simp] theorem encode_cons (character : Char) (rest : List Char) :
    encode (character :: rest) = encodeChar character ++ encode rest := by
  simp [encode]

/-- The code units of several texts in a row. -/
@[simp] theorem encode_flatten (texts : List (List Char)) :
    encode texts.flatten = (texts.map encode).flatten := by
  induction texts with
  | nil => rfl
  | cons text rest inductionHypothesis => simp [inductionHypothesis]

/-! ## Bytes -/

/-- A text has as many bytes as its length says. -/
theorem length_asBytes (text : List Char) : (asBytes text).length = textLength text := by
  simp [asBytes, textLength]

/-- Six bits behind the mark of a continuation are one. -/
theorem continuation_byte (bits : UInt8) : isContinuation (bits &&& 0x3f ||| 0x80) = true := by
  have masked : (bits &&& 0x3f ||| 0x80) &&& 0xc0 = 0x80 := by
    rw [← UInt8.toNat_inj]
    simp only [UInt8.toNat_and, UInt8.toNat_or, Nat.and_or_distrib_right, Nat.and_assoc]
    have disjoint : (0x3f : UInt8).toNat &&& (0xc0 : UInt8).toNat = 0 := by decide
    rw [disjoint, Nat.and_zero, Nat.zero_or]
    decide
  simp [isContinuation, masked]

/-- Every byte of a character but the first is a continuation byte. -/
theorem encoded_continuation {character : Char} {position : Nat} {byte : UInt8}
    (found : (String.utf8EncodeChar character)[position + 1]? = some byte) :
    isContinuation byte = true := by
  rw [String.utf8EncodeChar_eq_utf8EncodeCharFast] at found
  unfold String.utf8EncodeCharFast at found
  simp only at found
  split at found
  · simp at found
  split at found
  · match position with
    | 0 =>
      cases found
      exact continuation_byte _
    | _ + 1 => simp at found
  split at found
  · match position with
    | 0 | 1 =>
      cases found
      exact continuation_byte _
    | _ + 2 => simp at found
  · match position with
    | 0 | 1 | 2 =>
      cases found
      exact continuation_byte _
    | _ + 3 => simp at found

/-- A text is cut between two characters wherever the byte that follows is no continuation
byte. -/
theorem sliceTo_boundary (text : List Char) (stop : Nat) (within : stop ≤ textLength text)
    (boundary : ∀ byte, (asBytes text)[stop]? = some byte → isContinuation byte = false) :
    ∃ kept rest, sliceTo text stop = some kept ∧ text = kept ++ rest ∧
      textLength kept = stop := by
  induction text generalizing stop with
  | nil =>
    have zero : stop = 0 := by simpa using within
    subst zero
    exact ⟨[], [], rfl, rfl, rfl⟩
  | cons character rest inductionHypothesis =>
    cases stop with
    | zero => exact ⟨[], character :: rest, rfl, rfl, rfl⟩
    | succ stop =>
      have size := String.length_utf8EncodeChar character
      by_cases whole : character.utf8Size ≤ stop + 1
      · have later : ∀ byte, (asBytes rest)[stop + 1 - character.utf8Size]? = some byte →
            isContinuation byte = false := by
          intro byte found
          refine boundary byte ?_
          rw [asBytes_cons, List.getElem?_append_right (by omega), size]
          exact found
        rw [textLength_cons] at within
        obtain ⟨kept, remaining, sliced, split, length⟩ :=
          inductionHypothesis (stop + 1 - character.utf8Size) (by omega) later
        refine ⟨character :: kept, remaining, ?_, ?_, ?_⟩
        · simp [sliceTo, whole, sliced]
        · rw [split, List.cons_append]
        · rw [textLength_cons, length]
          omega
      · have inside : stop + 1 < (String.utf8EncodeChar character).length := by omega
        have found := List.getElem?_eq_getElem inside
        have continued := encoded_continuation found
        have stops := boundary (String.utf8EncodeChar character)[stop + 1]
          (by rw [asBytes_cons, List.getElem?_append_left inside, found])
        rw [continued] at stops
        cases stops

/-- The line ends of a text are the bytes that are line ends. -/
theorem count_asBytes (text : List Char) : (asBytes text).count 10 = newlines text := by
  induction text with
  | nil => rfl
  | cons character rest inductionHypothesis =>
    have upper (bits mask : UInt8) (high : 128 ≤ mask.toNat) : bits ||| mask ≠ 10 := by
      intro same
      have value : (bits ||| mask).toNat = 10 := by
        rw [same]
        rfl
      rw [UInt8.toNat_or] at value
      have above : mask.toNat ≤ bits.toNat ||| mask.toNat := Nat.right_le_or
      omega
    rw [asBytes_cons, List.count_append, inductionHypothesis, newlines, newlines, List.count_cons,
      Nat.add_comm]
    congr 1
    rw [String.utf8EncodeChar_eq_utf8EncodeCharFast]
    unfold String.utf8EncodeCharFast
    simp only
    split
    next ascii =>
      have same : character.toUInt8 = 10 ↔ character = '\n' := by
        rw [← Char.toUInt8_val, ← UInt8.toNat_inj, ← Char.val_inj, ← UInt32.toNat_inj, UInt32.toNat_toUInt8]
        rw [UInt32.le_iff_toNat_le] at ascii
        have limit : (0x7f : UInt32).toNat = 127 := by decide
        have left : (10 : UInt8).toNat = 10 := by decide
        have right : ('\n' : Char).val.toNat = 10 := by decide
        omega
      simp [List.count_cons, same]
    next wide =>
      have different : character ≠ '\n' := by
        rintro rfl
        exact wide (by decide)
      have none : (character == '\n') = false := by simpa using different
      rw [none]
      have high (bits : UInt8) : bits ||| 0x80 ≠ 10 := upper bits 0x80 (by decide)
      split
      · simp [high, upper _ 0xc0 (by decide)]
      split
      · simp [high, upper _ 0xe0 (by decide)]
      · simp [high, upper _ 0xf0 (by decide)]

/-! ## Code units -/

/-- The range of the high surrogates. -/
theorem isHighSurrogate_iff (unit : UInt16) :
    isHighSurrogate unit = true ↔ 0xd800 ≤ unit.toNat ∧ unit.toNat ≤ 0xdbff := by
  simp [isHighSurrogate, UInt16.le_iff_toNat_le]

/-- The range of the low surrogates. -/
theorem isLowSurrogate_iff (unit : UInt16) :
    isLowSurrogate unit = true ↔ 0xdc00 ≤ unit.toNat ∧ unit.toNat ≤ 0xdfff := by
  simp [isLowSurrogate, UInt16.le_iff_toNat_le]

/-- How many bytes a code unit has that is encoded by itself. -/
theorem unitBytes_eq (unit : UInt16) :
    unitBytes unit = if unit.toNat < 0x80 then 1 else if unit.toNat < 0x800 then 2 else 3 := by
  simp [unitBytes, UInt16.lt_iff_toNat_lt]

/-- How many bytes a character has, by its number. -/
theorem utf8Size_eq (character : Char) :
    character.utf8Size = if character.toNat < 0x80 then 1 else if character.toNat < 0x800 then 2
      else if character.toNat < 0x10000 then 3 else 4 := by
  have value : character.val.toNat = character.toNat := rfl
  simp only [Char.utf8Size, UInt32.le_iff_toNat_le, value, UInt32.toNat_ofNatLT]
  split_ifs <;> omega

/-- A small number is kept by sixteen bits. -/
theorem toNat_toUInt16 {value : Nat} (small : value < 0x10000) : value.toUInt16.toNat = value := by
  rw [Nat.toUInt16_eq, UInt16.toNat_ofNat']
  omega

/-- A surrogate is no newline. -/
theorem unit_ne_newline {unit : UInt16} (surrogate : 0xd800 ≤ unit.toNat) : unit ≠ 10 := by
  rintro rfl
  exact absurd surrogate (by decide)

/-- A character is one code unit outside the surrogates, or a surrogate pair. -/
theorem encodeChar_cases (character : Char) :
    (∃ unit, encodeChar character = [unit] ∧ isHighSurrogate unit = false ∧
      isLowSurrogate unit = false ∧ unitBytes unit = character.utf8Size ∧
      (unit = 10 ↔ character = '\n')) ∨
    ∃ high low, encodeChar character = [high, low] ∧ isHighSurrogate high = true ∧
      isLowSurrogate low = true ∧ character.utf8Size = 4 ∧ high ≠ 10 ∧ low ≠ 10 ∧
      character ≠ '\n' := by
  have valid : character.toNat < 0xd800 ∨ 0xdfff < character.toNat ∧ character.toNat < 0x110000 :=
    character.valid
  have newline : character = '\n' ↔ character.toNat = 10 := by
    rw [← Char.val_inj, ← UInt32.toNat_inj]
    rfl
  by_cases basic : character.toNat < 0x10000
  · have value := toNat_toUInt16 basic
    refine .inl ⟨character.toNat.toUInt16, ?_, ?_, ?_, ?_, ?_⟩
    · simp [encodeChar, basic]
    · rw [Bool.eq_false_iff, ne_eq, isHighSurrogate_iff, value]
      omega
    · rw [Bool.eq_false_iff, ne_eq, isLowSurrogate_iff, value]
      omega
    · rw [unitBytes_eq, utf8Size_eq, value, if_pos basic]
    · rw [newline, ← UInt16.toNat_inj, value]
      rfl
  · have above : (0xd800 + (character.toNat - 0x10000) / 0x400).toUInt16.toNat =
        0xd800 + (character.toNat - 0x10000) / 0x400 := toNat_toUInt16 (by omega)
    have below : (0xdc00 + (character.toNat - 0x10000) % 0x400).toUInt16.toNat =
        0xdc00 + (character.toNat - 0x10000) % 0x400 := toNat_toUInt16 (by omega)
    refine .inr ⟨(0xd800 + (character.toNat - 0x10000) / 0x400).toUInt16,
      (0xdc00 + (character.toNat - 0x10000) % 0x400).toUInt16, ?_, ?_, ?_, ?_, ?_, ?_, ?_⟩
    · simp [encodeChar, basic]
    · rw [isHighSurrogate_iff, above]
      omega
    · rw [isLowSurrogate_iff, below]
      omega
    · rw [utf8Size_eq]
      split_ifs <;> omega
    · exact unit_ne_newline (by omega)
    · exact unit_ne_newline (by omega)
    · rw [ne_eq, newline]
      omega

/-- A code unit that opens no pair is read by itself. -/
theorem byteLength_single {unit : UInt16} (rest : JsString) (plain : isHighSurrogate unit = false) :
    byteLength (unit :: rest) = unitBytes unit + byteLength rest := by
  cases rest <;> simp [byteLength, plain]

/-- A text has as many bytes in UTF-16 units as in characters. -/
theorem byteLength_encode (text : List Char) : byteLength (encode text) = textLength text := by
  induction text with
  | nil => rfl
  | cons character rest inductionHypothesis =>
    rw [encode_cons, textLength_cons, ← inductionHypothesis]
    obtain ⟨unit, encoded, plain, _, bytes, _⟩ | ⟨high, low, encoded, opens, closes, bytes, _⟩ :=
      encodeChar_cases character
    · rw [encoded, List.singleton_append, byteLength_single _ plain, bytes]
    · simp [encoded, byteLength, opens, closes, bytes]

/-- The length of valid text and what follows it: no surrogate pair lies across. -/
theorem byteLength_append {first : JsString} (valid : validText first = true) (second : JsString) :
    byteLength (first ++ second) = byteLength first + byteLength second := by
  induction first using validText.induct with
  | case1 => simp [byteLength]
  | case2 unit =>
    have plain : isHighSurrogate unit = false := by
      simp only [validText, Bool.not_eq_true', Bool.or_eq_false_iff] at valid
      exact valid.1
    rw [List.singleton_append, byteLength_single second plain, byteLength]
  | case3 high low rest pair inductionHypothesis =>
    have tail : validText rest = true := by simpa only [validText, pair, if_true] using valid
    simp only [List.cons_append, byteLength, pair, if_true, inductionHypothesis tail]
    omega
  | case4 high low rest single inductionHypothesis =>
    simp only [validText, single, Bool.false_eq_true, if_false, Bool.and_eq_true,
      Bool.not_eq_true', Bool.or_eq_false_iff] at valid
    obtain ⟨⟨plain, _⟩, tail⟩ := valid
    rw [List.cons_append, byteLength_single _ plain, byteLength_single _ plain,
      inductionHypothesis tail]
    omega

/-- Every code unit has a byte. -/
theorem length_le_byteLength (text : JsString) : text.length ≤ byteLength text := by
  have positive (unit : UInt16) : 1 ≤ unitBytes unit := by
    unfold unitBytes
    split_ifs <;> omega
  induction text using byteLength.induct with
  | case1 => exact Nat.le_refl 0
  | case2 unit => exact positive unit
  | case3 high low rest pair inductionHypothesis =>
    simp only [byteLength, pair, if_true, List.length_cons]
    omega
  | case4 high low rest single inductionHypothesis =>
    have first := positive high
    simp only [byteLength, single, Bool.false_eq_true, if_false]
    simp only [List.length_cons] at inductionHypothesis ⊢
    omega

/-- A text of characters has no lone surrogate. -/
theorem validText_encode (text : List Char) : validText (encode text) = true := by
  induction text with
  | nil => rfl
  | cons character rest inductionHypothesis =>
    rw [encode_cons]
    obtain ⟨unit, encoded, plain, single, _⟩ | ⟨high, low, encoded, opens, closes, _⟩ :=
      encodeChar_cases character
    · rw [encoded, List.singleton_append]
      cases remaining : encode rest with
      | nil => simp [validText, plain, single]
      | cons next others =>
        rw [remaining] at inductionHypothesis
        simp [validText, plain, single, inductionHypothesis]
    · simp [encoded, validText, opens, closes, inductionHypothesis]

/-- A code unit that opens no pair is a code point by itself. -/
theorem codePoints_single {unit : UInt16} (rest : JsString) (plain : isHighSurrogate unit = false) :
    codePoints (unit :: rest) = 1 + codePoints rest := by
  cases rest <;> simp [codePoints, plain]

/-- A text has as many code points as characters. -/
theorem codePoints_encode (text : List Char) : codePoints (encode text) = text.length := by
  induction text with
  | nil => rfl
  | cons character rest inductionHypothesis =>
    rw [encode_cons, List.length_cons, ← inductionHypothesis, Nat.add_comm]
    obtain ⟨unit, encoded, plain, _⟩ | ⟨high, low, encoded, opens, closes, _⟩ :=
      encodeChar_cases character
    · rw [encoded, List.singleton_append, codePoints_single _ plain]
    · simp [encoded, codePoints, opens, closes]

/-- A character is one or two code units. -/
theorem length_le_encode (text : List Char) : text.length ≤ (encode text).length := by
  induction text with
  | nil => exact Nat.le_refl 0
  | cons character rest inductionHypothesis =>
    have single : 1 ≤ (encodeChar character).length := by
      obtain ⟨unit, encoded, _⟩ | ⟨high, low, encoded, _⟩ := encodeChar_cases character
      · exact Nat.le_of_eq (congrArg List.length encoded).symm
      · exact Nat.le_trans (Nat.le_succ 1) (Nat.le_of_eq (congrArg List.length encoded).symm)
    rw [encode_cons, List.length_append, List.length_cons, Nat.add_comm]
    exact Nat.add_le_add single inductionHypothesis

/-- A text has as many newlines in UTF-16 units as in characters. -/
theorem count_encode (text : List Char) : (encode text).count 10 = newlines text := by
  induction text with
  | nil => rfl
  | cons character rest inductionHypothesis =>
    rw [encode_cons, List.count_append, inductionHypothesis, newlines, newlines, List.count_cons,
      Nat.add_comm]
    congr 1
    obtain ⟨unit, encoded, _, _, _, same⟩ | ⟨high, low, encoded, _, _, _, first, second, other⟩ :=
      encodeChar_cases character
    · simp [encoded, List.count_cons, same]
    · simp [encoded, first, second, other]

/-- Every character has a code unit. -/
theorem encodeChar_ne_nil (character : Char) : encodeChar character ≠ [] := by
  unfold encodeChar
  split <;> simp

/-- Only the empty text has no code unit. -/
theorem encode_eq_nil {text : List Char} : encode text = [] ↔ text = [] := by
  cases text with
  | nil => simp
  | cons character rest => simp [encodeChar_ne_nil]

/-- A character is known by the code units that it stands before. -/
theorem encodeChar_inj {first second : Char} {rest others : JsString}
    (same : encodeChar first ++ rest = encodeChar second ++ others) :
    first = second ∧ rest = others := by
  have valid (character : Char) : character.toNat < 0xd800 ∨
      0xdfff < character.toNat ∧ character.toNat < 0x110000 := character.valid
  have validFirst := valid first
  have validSecond := valid second
  have unit (value : Nat) : value.toUInt16.toNat = value % 0x10000 := by
    rw [Nat.toUInt16_eq, UInt16.toNat_ofNat']
  have numbers : first.toNat = second.toNat ∧ rest = others := by
    unfold encodeChar at same
    split_ifs at same <;>
      simp only [List.cons_append, List.nil_append, List.cons.injEq, ← UInt16.toNat_inj,
        unit] at same
    · exact ⟨by omega, same.2⟩
    · omega
    · omega
    · exact ⟨by omega, same.2.2⟩
  exact ⟨Char.toNat_inj.mp numbers.1, numbers.2⟩

/-- Different texts have different code units. -/
theorem encode_injective {first second : List Char} (same : encode first = encode second) :
    first = second := by
  induction first generalizing second with
  | nil => exact (encode_eq_nil.mp same.symm).symm
  | cons character rest inductionHypothesis =>
    cases second with
    | nil =>
      rw [encode_nil, encode_eq_nil] at same
      exact same
    | cons other others =>
      rw [encode_cons, encode_cons] at same
      obtain ⟨rfl, later⟩ := encodeChar_inj same
      rw [inductionHypothesis later]

/-- The text ends with a line end in both encodings or in none. -/
theorem encode_getLast (text : List Char) :
    (encode text).getLast? = some 10 ↔ text.getLast? = some '\n' := by
  obtain rfl | ⟨before, character, rfl⟩ := List.eq_nil_or_concat' text
  · simp
  · obtain ⟨unit, encoded, _, _, _, same⟩ | ⟨high, low, encoded, _, _, _, _, other, different⟩ :=
      encodeChar_cases character
    · simp [encoded, same]
    · simp [encoded, other, different]

/-- ASCII text is its code units. -/
theorem encode_ascii {text : List Char} (ascii : ∀ character ∈ text, character.toNat < 128) :
    (encode text).map (fun unit => Char.ofNat unit.toNat) = text := by
  induction text with
  | nil => rfl
  | cons character rest inductionHypothesis =>
    have small := ascii character List.mem_cons_self
    have value := toNat_toUInt16 (show character.toNat < 0x10000 by omega)
    have single : encodeChar character = [character.toNat.toUInt16] := by
      rw [encodeChar, if_pos (by omega)]
    rw [encode_cons, single, List.singleton_append, List.map_cons, value, Char.ofNat_toNat,
      inductionHypothesis fun other member => ascii other (List.mem_cons_of_mem _ member)]

/-! ## Digits -/

/-- A number that fits the width has as many digits as the width. -/
theorem length_padded {width value : Nat} (positive : 0 < width) (small : value < 10 ^ width) :
    (padded width value).length = width := by
  have fits := (Nat.length_toDigits_le_iff (by decide) positive).mpr small
  simp only [padded, List.length_append, List.length_replicate]
  omega

/-- The range of the digits. -/
theorem digit_range {digit : Char} (isADigit : digit.isDigit = true) :
    0x30 ≤ digit.toNat ∧ digit.toNat ≤ 0x39 := by
  simp only [Char.isDigit, Bool.and_eq_true, decide_eq_true_eq, UInt32.le_iff_toNat_le,
    ge_iff_le] at isADigit
  exact isADigit

/-- A number is written with digits. -/
theorem toDigits_digits {value : Nat} {digit : Char} (member : digit ∈ Nat.toDigits 10 value) :
    digit.isDigit = true :=
  Nat.isDigit_of_mem_toDigits (by decide) (by decide) member

/-- A padded number is written with digits. -/
theorem padded_digits {width value : Nat} {digit : Char} (member : digit ∈ padded width value) :
    digit.isDigit = true := by
  simp only [padded, List.mem_append, List.mem_replicate] at member
  obtain ⟨_, rfl⟩ | member := member
  · decide
  · exact toDigits_digits member

/-- A padded number is read back. -/
theorem ofDigitChars_padded (width value : Nat) :
    Nat.ofDigitChars 10 (padded width value) 0 = value := by
  have zeros (count : Nat) (rest : List Char) :
      Nat.ofDigitChars 10 (List.replicate count '0' ++ rest) 0 = Nat.ofDigitChars 10 rest 0 := by
    induction count with
    | zero => rfl
    | succ count inductionHypothesis =>
      rw [List.replicate_succ, List.cons_append, ← inductionHypothesis]
      rfl
  rw [padded, zeros, Nat.ofDigitChars_ten_toDigits]

/-- Different numbers are padded differently. -/
theorem padded_injective {width first second : Nat}
    (same : padded width first = padded width second) : first = second := by
  rw [← ofDigitChars_padded width first, same, ofDigitChars_padded]

/-- A code unit that is a digit. -/
def isDigit (unit : UInt16) : Bool := 0x30 ≤ unit && unit ≤ 0x39

/-- Digits are code units by themselves. -/
theorem encode_digits {digits : List Char} (all : ∀ digit ∈ digits, digit.isDigit = true) :
    (encode digits).length = digits.length ∧ (encode digits).all isDigit = true := by
  induction digits with
  | nil => exact ⟨rfl, rfl⟩
  | cons digit rest inductionHypothesis =>
    obtain ⟨length, others⟩ := inductionHypothesis fun other member =>
      all other (List.mem_cons_of_mem digit member)
    have range := digit_range (all digit List.mem_cons_self)
    have value : digit.toNat.toUInt16.toNat = digit.toNat := toNat_toUInt16 (by omega)
    have single : encodeChar digit = [digit.toNat.toUInt16] := by
      rw [encodeChar, if_pos (by omega)]
    refine ⟨?_, ?_⟩
    · simp [single, length]
    · simp [single, others, isDigit, UInt16.le_iff_toNat_le, value, range]

/-- The code units of digits are their codes. -/
theorem digits_encoded {digits : List Char} (all : ∀ digit ∈ digits, digit.isDigit = true) :
    (encode digits).map (fun unit => Char.ofNat unit.toNat) = digits := by
  refine encode_ascii fun digit member => ?_
  have range := digit_range (all digit member)
  omega

end OpencodePty.TextEncodings
