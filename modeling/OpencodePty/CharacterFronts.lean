import OpencodePty.TerminalRedaction
import OpencodePty.Utf8Sequences

/-!
# The front of decoded bytes

The decoder of the worker looks at the front of its bytes and finds a character, bytes that belong
to none, or the beginning of a character that later bytes may complete. It finds a character just
where the sequence of one stands, and the beginning of one just where bytes begin a sequence; what
it gives up as invalid is a maximal subpart, and no byte that follows changes that.
-/

namespace OpencodePty.CharacterFronts

open OpencodePty.TextEncodings OpencodePty.TerminalRedaction OpencodePty.Utf8Sequences

/-! ## Sequences by their bytes -/

/-- The bytes from 128 up to 191 continue a character. -/
theorem isContinuation_iff (byte : UInt8) :
    isContinuation byte = true ↔ 128 ≤ byte.toNat ∧ byte.toNat < 192 := by
  have all : ∀ value < 256, value &&& 192 = 128 ↔ 128 ≤ value ∧ value < 192 := by decide +kernel
  rw [isContinuation, beq_iff_eq, ← UInt8.toNat_inj, UInt8.toNat_and]
  exact all byte.toNat byte.toNat_lt

/-- The first two bytes of a sequence of the given width. -/
inductive Leads (first second : UInt8) : Nat → Prop where
  | two (least : 194 ≤ first.toNat) (most : first.toNat ≤ 223) : Leads first second 2
  | three (least : 224 ≤ first.toNat) (most : first.toNat ≤ 239)
      (long : first.toNat = 224 → 160 ≤ second.toNat)
      (scalar : first.toNat = 237 → second.toNat ≤ 159) : Leads first second 3
  | four (least : 240 ≤ first.toNat) (most : first.toNat ≤ 244)
      (long : first.toNat = 240 → 144 ≤ second.toNat)
      (scalar : first.toNat = 244 → second.toNat ≤ 143) : Leads first second 4

/-- The bounds of a sequence are those of its character. -/
theorem sequence_leads {first second low high : UInt8} {width : Nat}
    (found : sequence first = some (width, low, high)) (least : low ≤ second)
    (most : second ≤ high) :
    128 ≤ second.toNat ∧ second.toNat < 192 ∧ Leads first second width := by
  simp only [TerminalRedaction.sequence, UInt8.le_iff_toNat_le, ← UInt8.toNat_inj,
    UInt8.reduceToNat] at found least most
  split_ifs at found <;> cases found <;> simp only [UInt8.reduceToNat] at least most <;>
    refine ⟨by omega, by omega, ?_⟩
  · exact .two (by omega) (by omega)
  · exact .three (by omega) (by omega) (by omega) (by omega)
  · exact .three (by omega) (by omega) (by omega) (by omega)
  · exact .three (by omega) (by omega) (by omega) (by omega)
  · exact .four (by omega) (by omega) (by omega) (by omega)
  · exact .four (by omega) (by omega) (by omega) (by omega)
  · exact .four (by omega) (by omega) (by omega) (by omega)

/-- Two bytes that lead a character are within the bounds. -/
theorem leads_sequence {first second : UInt8} {width : Nat} (leads : Leads first second width)
    (least : 128 ≤ second.toNat) (most : second.toNat < 192) :
    ∃ low high, sequence first = some (width, low, high) ∧ low ≤ second ∧ second ≤ high := by
  simp only [TerminalRedaction.sequence, UInt8.le_iff_toNat_le, ← UInt8.toNat_inj,
    UInt8.reduceToNat]
  cases leads <;> split_ifs <;> first
    | exact ⟨_, _, rfl, by simp only [UInt8.reduceToNat]; omega,
        by simp only [UInt8.reduceToNat]; omega⟩
    | omega

/-- The bytes of a character that is given by its number. -/
theorem encode_ofNat {value : Nat} (valid : value.isValidChar) :
    String.utf8EncodeChar (Char.ofNat value) =
      if value ≤ 127 then [UInt8.ofNat value]
      else if value ≤ 2047 then
        [UInt8.ofNat (value / 64 % 32 + 192), UInt8.ofNat (value % 64 + 128)]
      else if value ≤ 65535 then
        [UInt8.ofNat (value / 4096 % 16 + 224), UInt8.ofNat (value / 64 % 64 + 128),
          UInt8.ofNat (value % 64 + 128)]
      else
        [UInt8.ofNat (value / 262144 % 8 + 240), UInt8.ofNat (value / 4096 % 64 + 128),
          UInt8.ofNat (value / 64 % 64 + 128), UInt8.ofNat (value % 64 + 128)] := by
  have number : (Char.ofNat value).val.toNat = value := by
    rw [Char.ofNat, dif_pos valid]
    rfl
  rw [String.utf8EncodeChar, number]

/-- A byte is given back by its number. -/
theorem ofNat_eq {value : Nat} {byte : UInt8} (same : value = byte.toNat) :
    UInt8.ofNat value = byte := by
  rw [same, UInt8.ofNat_toNat]

/-! ## Whole sequences -/

/-- Bytes that are decoded as the character whose sequence they are, whatever follows. -/
def Whole (bytes : List UInt8) : Prop :=
  ∃ character, String.utf8EncodeChar character = bytes ∧
    ∀ rest, decodeFront (bytes ++ rest) = .character character bytes.length

/-- A byte that is a character by itself. -/
theorem whole_one {first : UInt8} (ascii : first < 0x80) : Whole [first] := by
  have small := UInt8.lt_iff_toNat_lt.mp ascii
  simp only [UInt8.reduceToNat] at small
  refine ⟨Char.ofNat first.toNat, ?_, ?_⟩
  · rw [encode_ofNat (.inl (by omega)), if_pos (by omega), UInt8.ofNat_toNat]
  · intro rest
    simp [decodeFront, ascii]

/-- A byte that leads is no single byte. -/
theorem Leads.wide {first second : UInt8} {width : Nat} (leads : Leads first second width) :
    ¬ first < 0x80 := by
  rw [UInt8.lt_iff_toNat_lt]
  simp only [UInt8.reduceToNat]
  cases leads <;> omega

/-- Two such bytes are a character. -/
theorem whole_two {first second : UInt8} (leads : Leads first second 2)
    (least : 128 ≤ second.toNat) (most : second.toNat < 192) : Whole [first, second] := by
  obtain ⟨low, high, found, below, above⟩ := leads_sequence leads least most
  refine ⟨assemble (first.toNat % 32) [second], ?_, ?_⟩
  · change String.utf8EncodeChar (Char.ofNat (first.toNat % 32 * 64 + second.toNat % 64)) = _
    cases leads with
    | two _ _ =>
      rw [encode_ofNat (.inl (by omega)), if_neg (by omega), if_pos (by omega)]
      simp only [List.cons.injEq, and_true]
      exact ⟨ofNat_eq (by omega), ofNat_eq (by omega)⟩
  · intro rest
    simp [decodeFront, leads.wide, found, below, above]

/-- Three such bytes are a character. -/
theorem whole_three {first second third : UInt8} (leads : Leads first second 3)
    (least : 128 ≤ second.toNat) (most : second.toNat < 192)
    (continued : isContinuation third = true) : Whole [first, second, third] := by
  obtain ⟨low, high, found, below, above⟩ := leads_sequence leads least most
  refine ⟨assemble (first.toNat % 16) [second, third], ?_, ?_⟩
  · change String.utf8EncodeChar (Char.ofNat
      ((first.toNat % 16 * 64 + second.toNat % 64) * 64 + third.toNat % 64)) = _
    rw [isContinuation_iff] at continued
    cases leads with
    | three _ _ long scalar =>
      have valid : ((first.toNat % 16 * 64 + second.toNat % 64) * 64 +
          third.toNat % 64).isValidChar := by
        unfold Nat.isValidChar
        omega
      rw [encode_ofNat valid, if_neg (by omega), if_neg (by omega), if_pos (by omega)]
      simp only [List.cons.injEq, and_true]
      exact ⟨ofNat_eq (by omega), ofNat_eq (by omega), ofNat_eq (by omega)⟩
  · intro rest
    simp [decodeFront, leads.wide, found, below, above, continued]

/-- Four such bytes are a character. -/
theorem whole_four {first second third fourth : UInt8} (leads : Leads first second 4)
    (least : 128 ≤ second.toNat) (most : second.toNat < 192)
    (continued : isContinuation third = true) (ended : isContinuation fourth = true) :
    Whole [first, second, third, fourth] := by
  obtain ⟨low, high, found, below, above⟩ := leads_sequence leads least most
  refine ⟨assemble (first.toNat % 8) [second, third, fourth], ?_, ?_⟩
  · change String.utf8EncodeChar (Char.ofNat
      (((first.toNat % 8 * 64 + second.toNat % 64) * 64 + third.toNat % 64) * 64 +
        fourth.toNat % 64)) = _
    rw [isContinuation_iff] at continued ended
    cases leads with
    | four _ _ long scalar =>
      have valid : (((first.toNat % 8 * 64 + second.toNat % 64) * 64 + third.toNat % 64) * 64 +
          fourth.toNat % 64).isValidChar := by
        unfold Nat.isValidChar
        omega
      rw [encode_ofNat valid, if_neg (by omega), if_neg (by omega), if_neg (by omega)]
      simp only [List.cons.injEq, and_true]
      exact ⟨ofNat_eq (by omega), ofNat_eq (by omega), ofNat_eq (by omega), ofNat_eq (by omega)⟩
  · intro rest
    simp [decodeFront, leads.wide, found, below, above, continued, ended]

/-- Every sequence is decoded as its character. -/
theorem whole_encoded (character : Char) : Whole (String.utf8EncodeChar character) := by
  have byte (value : Nat) : (UInt8.ofNat value).toNat = value % 256 := UInt8.toNat_ofNat'
  have continuation (value : Nat) : isContinuation (UInt8.ofNat (value % 64 + 128)) = true := by
    rw [isContinuation_iff, byte]
    omega
  have valid : character.val.toNat < 55296 ∨
      57343 < character.val.toNat ∧ character.val.toNat < 1114112 := character.valid
  unfold String.utf8EncodeChar
  simp only
  generalize character.val.toNat = value at valid
  split_ifs with one two three
  · apply whole_one
    rw [UInt8.lt_iff_toNat_lt, byte]
    simp only [UInt8.reduceToNat]
    omega
  · apply whole_two
    · apply Leads.two <;> rw [byte] <;> omega
    · rw [byte]
      omega
    · rw [byte]
      omega
  · apply whole_three
    · apply Leads.three <;> simp only [byte] <;> omega
    · rw [byte]
      omega
    · rw [byte]
      omega
    · exact continuation _
  · apply whole_four
    · apply Leads.four <;> simp only [byte] <;> omega
    · rw [byte]
      omega
    · rw [byte]
      omega
    · exact continuation _
    · exact continuation _

/-! ## Beginnings -/

/-- Bytes that other bytes complete begin a sequence. -/
theorem begins_of_whole (bytes : List UInt8) (next : UInt8) (others : List UInt8)
    (whole : Whole (bytes ++ next :: others)) : Begins bytes := by
  obtain ⟨character, encoded, _⟩ := whole
  exact ⟨character, next :: others, List.cons_ne_nil next others, encoded⟩

/-- The least byte that continues is 128. -/
theorem continuation_least : isContinuation 0x80 = true := by decide

/-- Three bytes of four begin a sequence. -/
theorem begins_three {first second third : UInt8} (leads : Leads first second 4)
    (least : 128 ≤ second.toNat) (most : second.toNat < 192)
    (continued : isContinuation third = true) : Begins [first, second, third] :=
  begins_of_whole _ 0x80 [] (whole_four leads least most continued continuation_least)

/-- Two bytes of three or four begin a sequence. -/
theorem begins_two {first second : UInt8} {width : Nat} (leads : Leads first second width)
    (least : 128 ≤ second.toNat) (most : second.toNat < 192) (wide : width ≠ 2) :
    Begins [first, second] := by
  cases leads with
  | two _ _ => exact absurd rfl wide
  | three above below long scalar =>
    exact begins_of_whole _ 0x80 []
      (whole_three (.three above below long scalar) least most continuation_least)
  | four above below long scalar =>
    exact begins_of_whole _ 0x80 [0x80]
      (whole_four (.four above below long scalar) least most continuation_least continuation_least)

/-- A byte that opens a sequence begins one. -/
theorem begins_one {first low high : UInt8} {width : Nat}
    (found : sequence first = some (width, low, high)) : Begins [first] := by
  have ordered : low ≤ high := by
    simp only [TerminalRedaction.sequence] at found
    split_ifs at found <;> cases found <;> decide
  obtain ⟨least, most, leads⟩ := sequence_leads found (UInt8.le_refl low) ordered
  cases leads with
  | two above below =>
    exact begins_of_whole _ low [] (whole_two (.two above below) least most)
  | three above below long scalar =>
    exact begins_of_whole _ low [0x80]
      (whole_three (.three above below long scalar) least most continuation_least)
  | four above below long scalar =>
    exact begins_of_whole _ low [0x80, 0x80]
      (whole_four (.four above below long scalar) least most continuation_least continuation_least)

/-- Nothing begins every character. -/
theorem begins_nothing : Begins [] :=
  begins_of_whole [] 0x20 [] (whole_one (by decide))

/-! ## Fronts -/

/-- Bytes that are given up because of the byte that follows, or at once. -/
structure Refused (part rest : List UInt8) : Prop where
  nonempty : part ≠ []
  single : ¬ Begins part → part.length = 1
  decided : ∀ more, decodeFront (part ++ rest.take 1 ++ more) = .invalid part.length

/-- What the front of bytes says about them. -/
inductive FrontOf : List UInt8 → Front → Prop where
  | character (value : Char) (rest : List UInt8) :
      FrontOf (String.utf8EncodeChar value ++ rest) (.character value value.utf8Size)
  | invalid {part rest : List UInt8} (refused : Refused part rest) :
      FrontOf (part ++ rest) (.invalid part.length)
  | incomplete {bytes : List UInt8} (begins : Begins bytes) : FrontOf bytes .incomplete

/-- A whole character is decoded as itself. -/
theorem FrontOf.whole (part rest : List UInt8) (whole : Whole part) :
    FrontOf (part ++ rest) (decodeFront (part ++ rest)) := by
  obtain ⟨value, encoded, decoded⟩ := whole
  rw [decoded, ← encoded, String.length_utf8EncodeChar]
  exact .character value rest

/-- Bytes that the next byte does not go on. -/
theorem FrontOf.refuse (part : List UInt8) (next : UInt8) (rest : List UInt8) (nonempty : part ≠ [])
    (single : ¬ Begins part → part.length = 1)
    (refused : ∀ others, decodeFront (part ++ next :: others) = .invalid part.length) :
    FrontOf (part ++ next :: rest) (decodeFront (part ++ next :: rest)) := by
  rw [refused]
  refine .invalid ⟨nonempty, single, fun more => ?_⟩
  rw [List.append_assoc]
  exact refused more

section Opened

variable {first second third low high : UInt8}

/-- The front of a character of four bytes. -/
theorem frontOf_four (ascii : ¬ first < 0x80) (found : sequence first = some (4, low, high))
    (below : low ≤ second) (above : second ≤ high) (continued : isContinuation third = true)
    (rest : List UInt8) :
    FrontOf (first :: second :: third :: rest)
      (decodeFront (first :: second :: third :: rest)) := by
  obtain ⟨least, most, leads⟩ := sequence_leads found below above
  have begins : Begins [first, second, third] := begins_three leads least most continued
  match rest with
  | [] =>
    have waits : decodeFront [first, second, third] = .incomplete := by
      simp [decodeFront, ascii, found, below, above, continued]
    rw [waits]
    exact .incomplete begins
  | fourth :: rest =>
    cases ended : isContinuation fourth with
    | false =>
      apply FrontOf.refuse [first, second, third] fourth rest (List.cons_ne_nil _ _)
      · exact fun alone => absurd begins alone
      · intro others
        simp [decodeFront, ascii, found, below, above, continued, ended]
    | true =>
      exact FrontOf.whole [first, second, third, fourth] rest
        (whole_four leads least most continued ended)

/-- The front of a character of three bytes. -/
theorem frontOf_three {width : Nat} (ascii : ¬ first < 0x80)
    (found : sequence first = some (width, low, high)) (below : low ≤ second)
    (above : second ≤ high) (wide : width ≠ 2) (rest : List UInt8) :
    FrontOf (first :: second :: rest) (decodeFront (first :: second :: rest)) := by
  obtain ⟨least, most, leads⟩ := sequence_leads found below above
  have begins : Begins [first, second] := begins_two leads least most wide
  match rest with
  | [] =>
    have waits : decodeFront [first, second] = .incomplete := by
      simp [decodeFront, ascii, found, below, above, wide]
    rw [waits]
    exact .incomplete begins
  | third :: rest =>
    cases continued : isContinuation third with
    | false =>
      apply FrontOf.refuse [first, second] third rest (List.cons_ne_nil _ _)
      · exact fun alone => absurd begins alone
      · intro others
        simp [decodeFront, ascii, found, below, above, wide, continued]
    | true =>
      cases leads with
      | two _ _ => exact absurd rfl wide
      | three opens closes long scalar =>
        exact FrontOf.whole [first, second, third] rest
          (whole_three (.three opens closes long scalar) least most continued)
      | four _ _ _ _ => exact frontOf_four ascii found below above continued rest

end Opened

/-- Whatever the bytes, the front that is decoded is theirs. -/
theorem frontOf_decodeFront (bytes : List UInt8) : FrontOf bytes (decodeFront bytes) := by
  match bytes with
  | [] => exact .incomplete begins_nothing
  | first :: rest =>
    by_cases ascii : first < 0x80
    · exact FrontOf.whole [first] rest (whole_one ascii)
    cases found : sequence first with
    | none =>
      have refused (others : List UInt8) : decodeFront (first :: others) = .invalid 1 := by
        simp [decodeFront, ascii, found]
      rw [refused]
      exact @FrontOf.invalid [first] _ ⟨List.cons_ne_nil _ _, fun _ => rfl, fun _ => refused _⟩
    | some opened =>
      obtain ⟨width, low, high⟩ := opened
      have begins : Begins [first] := begins_one found
      match rest with
      | [] =>
        have waits : decodeFront [first] = .incomplete := by simp [decodeFront, ascii, found]
        rw [waits]
        exact .incomplete begins
      | second :: rest =>
        by_cases inside : low ≤ second ∧ second ≤ high
        · by_cases two : width = 2
          · subst two
            obtain ⟨least, most, leads⟩ := sequence_leads found inside.1 inside.2
            exact FrontOf.whole [first, second] rest (whole_two leads least most)
          · exact frontOf_three ascii found inside.1 inside.2 two rest
        · apply FrontOf.refuse [first] second rest (List.cons_ne_nil _ _)
          · exact fun _ => rfl
          · intro others
            simp [decodeFront, ascii, found, inside]

/-- The bytes of a character are decoded as that character. -/
theorem decodeFront_encode (character : Char) (rest : List UInt8) :
    decodeFront (String.utf8EncodeChar character ++ rest) =
      .character character character.utf8Size := by
  obtain ⟨value, encoded, decoded⟩ := whole_encoded character
  have same : value = character := by
    have sequences : String.utf8EncodeChar value ++ [] = String.utf8EncodeChar character ++ [] := by
      rw [encoded]
    exact (encoded_inj sequences).1
  rw [decoded, String.length_utf8EncodeChar, same]

/-- What is given up is given up whatever comes after the byte that follows. -/
theorem Refused.decides {part rest others : List UInt8} (refused : Refused part rest)
    (same : rest.take 1 <+: others) : decodeFront (part ++ others) = .invalid part.length := by
  obtain ⟨more, rfl⟩ := same
  rw [← List.append_assoc]
  exact refused.decided more

/-- Bytes that are refused stay refused. -/
theorem Refused.append {part rest : List UInt8} (refused : Refused part rest) (more : List UInt8) :
    Refused part (rest ++ more) where
  nonempty := refused.nonempty
  single := refused.single
  decided others := by
    rw [List.append_assoc]
    apply refused.decides
    cases rest with
    | nil => exact List.nil_prefix
    | cons first rest => exact ⟨others, by simp⟩

/-- Bytes that begin a sequence wait for more. -/
theorem decodeFront_begins {bytes : List UInt8} (begins : Begins bytes) :
    decodeFront bytes = .incomplete := by
  have view := frontOf_decodeFront bytes
  generalize decodeFront bytes = front at view
  cases view with
  | character value rest => exact absurd (List.prefix_append _ _) (begins.characterless value)
  | @invalid part rest refused =>
    obtain ⟨character, more, _, encoded⟩ := begins
    have decoded := decodeFront_encode character []
    rw [encoded, List.append_nil, List.append_assoc,
      refused.decides ((List.take_prefix 1 rest).trans (List.prefix_append rest more))] at decoded
    cases decoded
  | incomplete _ => rfl

/-- What is given up is a maximal subpart. -/
theorem Refused.maximal {part rest : List UInt8} (refused : Refused part rest) :
    MaximalSubpart part rest where
  nonempty := refused.nonempty
  characterless character := by
    rintro ⟨others, same⟩
    have decoded := decodeFront_encode character others
    rw [same, refused.decides (List.take_prefix 1 rest)] at decoded
    cases decoded
  single := refused.single
  longest more nonempty inside begins := by
    have waits := decodeFront_begins begins
    have next : rest.take 1 <+: more := by
      obtain ⟨others, rfl⟩ := inside
      obtain ⟨first, tail, rfl⟩ := List.exists_cons_of_ne_nil nonempty
      exact ⟨tail, rfl⟩
    rw [refused.decides next] at waits
    cases waits

/-- Bytes that begin a sequence are a maximal subpart where nothing follows. -/
theorem maximal_of_begins {bytes : List UInt8} (begins : Begins bytes) (nonempty : bytes ≠ []) :
    MaximalSubpart bytes [] where
  nonempty := nonempty
  characterless character := by
    rw [List.append_nil]
    exact begins.characterless character
  single alone := absurd begins alone
  longest more goesOn inside := absurd (List.prefix_nil.mp inside) goesOn

/-- A fact about bytes that is shown as they are decoded from the front. -/
theorem bytes_induction {motive : List UInt8 → Prop}
    (stop : ∀ bytes, Begins bytes → motive bytes)
    (character : ∀ value rest, motive rest → motive (String.utf8EncodeChar value ++ rest))
    (invalid : ∀ part rest, Refused part rest → motive rest → motive (part ++ rest))
    (bytes : List UInt8) : motive bytes := by
  induction size : bytes.length using Nat.strong_induction_on generalizing bytes with
  | _ length inductionHypothesis =>
    have view := frontOf_decodeFront bytes
    generalize decodeFront bytes = front at view
    cases view with
    | character value rest =>
      have positive : 0 < (String.utf8EncodeChar value).length :=
        List.length_pos_of_ne_nil (encoded_nonempty value)
      rw [List.length_append] at size
      exact character value rest (inductionHypothesis rest.length (by omega) rest rfl)
    | @invalid part rest refused =>
      have positive : 0 < part.length := List.length_pos_of_ne_nil refused.nonempty
      rw [List.length_append] at size
      exact invalid part rest refused (inductionHypothesis rest.length (by omega) rest rfl)
    | incomplete begins => exact stop bytes begins

end OpencodePty.CharacterFronts
