import Mathlib.Data.Bool.AllAny
import Mathlib.Data.List.Infix
import Mathlib.Tactic.Tauto
import OpencodePty.RegExpPatterns
import OpencodePty.TextEncodings

/-!
# Keys of sensitive values

The daemon tests the key of an environment value with a regular expression, the worker looks for
words in it. Both ignore the case of letters. They agree on most words, but the worker takes a private
or a signing key for one only with a separator in its name, and then anywhere in the key, and the
daemon takes it for one also without, but only between separators.
-/

namespace OpencodePty.SensitiveKeys

open OpencodePty.JsValues OpencodePty.TextEncodings OpencodePty.RegularExpressions
open OpencodePty.RegExpPatterns

/-- The text of `SENSITIVE_ENVIRONMENT_KEY`. -/
def sensitiveSource : JsString :=
  js "(token|secret|password|credential|api[_-]?key|auth|cookie|(?:^|[_-])(?:ssh|tls)?[_-]?private[_-]?key(?:$|[_-])|(?:^|[_-])signing[_-]?key(?:$|[_-]))"

/-- A code unit as the flag `i` compares it with an ASCII code unit: no other code unit has the
upper case of one. -/
def canonicalize (unit : UInt16) : UInt16 :=
  if code 'a' ≤ unit ∧ unit ≤ code 'z' then unit - 32 else unit

/-- Two code units are the same but for their case. -/
def ignoreCase (unit found : UInt16) : Bool := canonicalize unit == canonicalize found

/-- `SENSITIVE_ENVIRONMENT_KEY.test` of the supervisor and of the worker client. -/
def testSensitive (key : JsString) : Bool :=
  (parse sensitiveSource).any fun regex => test ignoreCase regex key

/-- `to_ascii_lowercase` -/
def toAsciiLowercase (text : List Char) : List Char := text.map Char.toLower

/-- A word stands somewhere in a text. -/
def contains (text : List Char) (word : String) : Bool := word.toList <:+: text

/-- `sensitive_environment_key` of the worker. -/
def sensitiveEnvironmentKey (key : List Char) : Bool :=
  let key := toAsciiLowercase key
  contains key "token" || contains key "secret" || contains key "password" ||
    contains key "credential" || contains key "api_key" || contains key "api-key" ||
    contains key "auth" || contains key "cookie" || contains key "private_key" ||
    contains key "private-key" || contains key "signing_key" || contains key "signing-key"

/-! ## The regular expression -/

/-- The characters of a word, one after the other. -/
def literals (terms : RegExp) (word : String) : RegExp :=
  chain terms (word.toList.map fun character => .literal (code character))

/-- An underscore or a hyphen. -/
def separator : RegExp := .oneOf [code '_', code '-']

/-- A pattern that may be left out. -/
def optional (pattern : RegExp) : RegExp := .either pattern .empty

/-- `(?:^|[_-])` -/
def opening : RegExp := .either (.sequence .empty .start) (.sequence .empty separator)

/-- `(?:$|[_-])` -/
def closing : RegExp := .either (.sequence .empty .finish) (.sequence .empty separator)

/-- `api[_-]?key` -/
def apiKey : RegExp :=
  literals (.sequence (literals .empty "api") (optional separator)) "key"

/-- `(?:ssh|tls)?[_-]?private[_-]?key` behind terms. -/
def privateName (terms : RegExp) : RegExp :=
  literals (.sequence (literals (.sequence
    (.sequence terms (optional (.either (literals .empty "ssh") (literals .empty "tls"))))
    (optional separator)) "private") (optional separator)) "key"

/-- `signing[_-]?key` behind terms. -/
def signingName (terms : RegExp) : RegExp :=
  literals (.sequence (literals terms "signing") (optional separator)) "key"

/-- The expression that its source is parsed to. -/
def sensitiveExpression : RegExp :=
  .sequence .empty <| .either (.either (.either (.either (.either (.either (.either (.either
    (literals .empty "token") (literals .empty "secret")) (literals .empty "password"))
    (literals .empty "credential")) apiKey) (literals .empty "auth")) (literals .empty "cookie"))
    (.sequence (privateName (.sequence .empty opening)) closing))
    (.sequence (signingName (.sequence .empty opening)) closing)

set_option maxRecDepth 20000 in
/-- The source of the expression is parsed to it. -/
theorem parse_sensitiveSource : parse sensitiveSource = some sensitiveExpression := by
  decide +kernel

/-! ## Words of a key -/

/-- The lower case of a code unit. -/
def lowered (unit : UInt16) : Char := (Char.ofNat unit.toNat).toLower

/-- The characters of the words that are looked for. -/
def wordCharacters : List Char := "abcdefghijklmnopqrstuvwxyz_-".toList

/-- A character behind the ASCII letters has no lower case of ASCII. -/
theorem toLower_other {character : Char} (other : 128 ≤ character.toNat) :
    character.toLower = character := by
  delta Char.toLower
  rw [dif_neg]
  rintro ⟨_, most⟩
  have least : character.toNat ≤ 90 := UInt32.le_iff_toNat_le.mp most
  omega

/-- No code unit above the ASCII range is folded into a word. -/
theorem lowered_other {unit : UInt16} (other : 128 ≤ unit.toNat) : lowered unit ∉ wordCharacters := by
  have small : ∀ character ∈ wordCharacters, character.toNat ≠ 0 ∧ character.toNat < 128 :=
    List.all_iff_forall_prop.mp (by decide)
  intro member
  obtain ⟨positive, ascii⟩ := small _ member
  rw [lowered] at positive ascii
  by_cases valid : unit.toNat.isValidChar
  · have value : (Char.ofNat unit.toNat).toNat = unit.toNat := by
      rw [Char.ofNat, dif_pos valid]
      rfl
    rw [toLower_other (by omega), value] at ascii
    omega
  · rw [Char.ofNat, dif_neg valid] at positive
    exact positive rfl

/-- A code unit matches a character of a word just where it is folded to it. -/
theorem ignoreCase_iff {character : Char} (word : character ∈ wordCharacters) (unit : UInt16) :
    ignoreCase (code character) unit = true ↔ lowered unit = character := by
  by_cases ascii : unit.toNat < 128
  · have all : ∀ character ∈ wordCharacters, ∀ value < 128,
        (ignoreCase (code character) (.ofNat value) = true ↔ lowered (.ofNat value) = character) :=
      List.all_iff_forall_prop.mp (by decide +kernel)
    have same := all character word unit.toNat ascii
    rwa [UInt16.ofNat_toNat] at same
  · have small : ∀ character ∈ wordCharacters, (canonicalize (code character)).toNat < 128 :=
      List.all_iff_forall_prop.mp (by decide)
    have kept : canonicalize unit = unit := by
      rw [canonicalize, if_neg]
      rintro ⟨_, most⟩
      have least : unit.toNat ≤ 122 := UInt16.le_iff_toNat_le.mp most
      omega
    constructor
    · intro same
      rw [ignoreCase, kept, beq_iff_eq] at same
      have bound := small character word
      rw [same] at bound
      omega
    · rintro rfl
      exact absurd word (lowered_other (by omega))

/-- Code units spell a word just where they are folded to it. -/
theorem spelled_iff {word : List Char} (lower : ∀ character ∈ word, character ∈ wordCharacters)
    (found : JsString) :
    List.Forall₂ (fun unit found => ignoreCase unit found = true) (word.map code) found ↔
      found.map lowered = word := by
  rw [List.forall₂_map_left_iff]
  induction word generalizing found with
  | nil => simp
  | cons character rest inductionHypothesis =>
    have others : ∀ other ∈ rest, other ∈ wordCharacters := fun other member =>
      lower other (List.mem_cons_of_mem _ member)
    cases found with
    | nil => simp
    | cons unit more =>
      rw [List.forall₂_cons, inductionHypothesis others, ignoreCase_iff (lower _ List.mem_cons_self),
        List.map_cons, List.cons.injEq]

/-- A pattern with finitely many words, in lower case. -/
structure HasWords (pattern : RegExp) (words : List (List Char)) : Prop where
  finite : pattern.isFinite = true
  language : pattern.words = words.map fun word => word.map code
  lower : ∀ word ∈ words, ∀ character ∈ word, character ∈ wordCharacters

/-- The check of the words means what it says. -/
theorem lowerWords_iff {words : List (List Char)} :
    (words.all fun word => word.all fun character => decide (character ∈ wordCharacters)) = true ↔
      ∀ word ∈ words, ∀ character ∈ word, character ∈ wordCharacters := by
  simp only [List.all_eq_true, decide_eq_true_eq]

/-- A pattern with finitely many words passes the keys with one of them in their lower case. -/
theorem test_hasWords {pattern : RegExp} {words : List (List Char)} (has : HasWords pattern words)
    (key : JsString) : test ignoreCase pattern key = true ↔
      ∃ word ∈ words, word <:+: key.map lowered := by
  rw [test_words has.finite, has.language]
  constructor
  · rintro ⟨_, member, before, found, after, rfl, spelled⟩
    obtain ⟨word, inside, rfl⟩ := List.mem_map.mp member
    rw [spelled_iff (has.lower word inside)] at spelled
    refine ⟨word, inside, before.map lowered, after.map lowered, ?_⟩
    rw [List.map_append, List.map_append, spelled]
  · rintro ⟨word, inside, before, after, whole⟩
    obtain ⟨front, back, rfl, frontEq, rfl⟩ := List.map_eq_append_iff.mp whole.symm
    obtain ⟨first, found, rfl, rfl, same⟩ := List.map_eq_append_iff.mp frontEq
    refine ⟨_, List.mem_map.mpr ⟨word, inside, rfl⟩, first, found, back, rfl, ?_⟩
    exact (spelled_iff (has.lower word inside) found).mpr same

/-! ## Names between separators -/

/-- The character separates words. -/
def isSeparator (character : Char) : Bool := character == '_' || character == '-'

/-- A name stands in a key between separators or the ends of the key. -/
def Delimited (name key : List Char) : Prop :=
  ∃ before after, key = before ++ name ++ after ∧
    before.getLast?.all isSeparator = true ∧ after.head?.all isSeparator = true

/-- A separator is read. -/
theorem mem_separator {place next : Place UInt16} :
    next ∈ moves ignoreCase separator place ↔ ∃ found, isSeparator (lowered found) = true ∧
      place.2 = found :: next.2 ∧ next.1 = found :: place.1 := by
  have units (found : UInt16) : (∃ unit ∈ [code '_', code '-'], ignoreCase unit found = true) ↔
      isSeparator (lowered found) = true := by
    rw [isSeparator, Bool.or_eq_true, beq_iff_eq, beq_iff_eq, ← ignoreCase_iff (by decide) found,
      ← ignoreCase_iff (by decide) found]
    simp
  rw [separator, mem_oneOf]
  simp only [units]

/-- Before a name is the begin of the text or a separator. -/
theorem mem_opening {place next : Place UInt16} :
    next ∈ moves ignoreCase opening place ↔
      place.1 = [] ∧ next = place ∨ next ∈ moves ignoreCase separator place := by
  rw [opening, mem_either]
  simp

/-- Behind a name is the end of the text or a separator. -/
theorem mem_closing {place next : Place UInt16} :
    next ∈ moves ignoreCase closing place ↔
      place.2 = [] ∧ next = place ∨ next ∈ moves ignoreCase separator place := by
  rw [closing, mem_either]
  simp

/-- Patterns for finitely many words between separators pass the keys with such a word. -/
theorem test_delimited {parts : List RegExp} {words : List (List Char)}
    (has : HasWords (chain .empty parts) words) (key : JsString) :
    test ignoreCase (.sequence (chain (.sequence .empty opening) parts) closing) key = true ↔
      ∃ word ∈ words, Delimited word (key.map lowered) := by
  rw [test_iff]
  constructor
  · rintro ⟨front, rest, next, whole, moved⟩
    obtain ⟨last, moved, closed⟩ := mem_sequence.mp moved
    obtain ⟨first, moved, named⟩ := mem_chain.mp moved
    obtain ⟨_, empty, opened⟩ := mem_sequence.mp moved
    obtain rfl := mem_empty.mp empty
    obtain ⟨_, member, found, spelled, after, _⟩ := (mem_words has.finite).mp named
    rw [has.language] at member
    obtain ⟨word, inside, rfl⟩ := List.mem_map.mp member
    rw [spelled_iff (has.lower word inside)] at spelled
    -- What stands before the name ends in a separator, what stands behind it begins with one.
    have opens : ∃ before, key = before ++ first.2 ∧
        (before.map lowered).getLast?.all isSeparator = true := by
      obtain ⟨start, rfl⟩ | separated := mem_opening.mp opened
      · exact ⟨front, whole, by simp [List.reverse_eq_nil_iff.mp start]⟩
      · obtain ⟨unit, isOne, text, _⟩ := mem_separator.mp separated
        refine ⟨front ++ [unit], ?_, by simp [isOne]⟩
        rw [whole, List.append_assoc]
        exact congrArg (front ++ ·) text
    have closes : (last.2.map lowered).head?.all isSeparator = true := by
      obtain ⟨finish, rfl⟩ | separated := mem_closing.mp closed
      · rw [finish]
        rfl
      · obtain ⟨unit, isOne, text, _⟩ := mem_separator.mp separated
        rw [text]
        simpa using isOne
    obtain ⟨before, whole, opens⟩ := opens
    refine ⟨word, inside, before.map lowered, last.2.map lowered, ?_, opens, closes⟩
    rw [whole, after, List.map_append, List.map_append, spelled, List.append_assoc]
  · rintro ⟨word, inside, before, after, whole, opens, closes⟩
    obtain ⟨front, back, rfl, frontEq, rfl⟩ := List.map_eq_append_iff.mp whole
    obtain ⟨first, found, rfl, rfl, same⟩ := List.map_eq_append_iff.mp frontEq
    have spelled := (spelled_iff (has.lower word inside) found).mpr same
    have named : Spells ignoreCase (word.map code) (first.reverse, found ++ back)
        (found.reverse ++ first.reverse, back) := ⟨found, spelled, rfl, rfl⟩
    have moved : (found.reverse ++ first.reverse, back) ∈
        moves ignoreCase (chain .empty parts) (first.reverse, found ++ back) := by
      refine (mem_words has.finite).mpr ⟨_, ?_, named⟩
      rw [has.language]
      exact List.mem_map.mpr ⟨word, inside, rfl⟩
    have opened : ∃ start rest, first ++ (found ++ back) = start ++ rest ∧
        (first.reverse, found ++ back) ∈ moves ignoreCase opening (start.reverse, rest) := by
      obtain rfl | ⟨others, unit, rfl⟩ := List.eq_nil_or_concat' first
      · exact ⟨[], found ++ back, rfl, mem_opening.mpr (.inl ⟨rfl, rfl⟩)⟩
      · have isOne : isSeparator (lowered unit) = true := by simpa using opens
        refine ⟨others, unit :: (found ++ back), by simp, mem_opening.mpr (.inr ?_)⟩
        exact mem_separator.mpr ⟨unit, isOne, rfl, by simp⟩
    have closed : ∃ next, next ∈
        moves ignoreCase closing (found.reverse ++ first.reverse, back) := by
      cases back with
      | nil => exact ⟨_, mem_closing.mpr (.inl ⟨rfl, rfl⟩)⟩
      | cons unit others =>
        have isOne : isSeparator (lowered unit) = true := by simpa using closes
        exact ⟨(unit :: (found.reverse ++ first.reverse), others),
          mem_closing.mpr (.inr (mem_separator.mpr ⟨unit, isOne, rfl, rfl⟩))⟩
    obtain ⟨start, rest, split, opened⟩ := opened
    obtain ⟨next, closed⟩ := closed
    refine ⟨start, rest, next, ?_, mem_sequence.mpr ⟨_, mem_chain.mpr ⟨_, ?_, moved⟩, closed⟩⟩
    · rw [← split, List.append_assoc]
    · exact mem_sequence.mpr ⟨_, mem_empty.mpr rfl, opened⟩

/-! ## The two tests -/

/-- The words that both sides look for anywhere in a key. -/
def sharedWords : List (List Char) :=
  ["token".toList, "secret".toList, "password".toList, "credential".toList, "api_key".toList,
    "api-key".toList, "auth".toList, "cookie".toList]

/-- The words that only the worker looks for anywhere in a key. -/
def separatedWords : List (List Char) :=
  ["private_key".toList, "private-key".toList, "signing_key".toList, "signing-key".toList]

/-- The names of private keys with what stands before `key`: `(ssh|tls)?[_-]?private`. -/
def privateNames (separators : List (List Char)) : List (List Char) :=
  ["ssh".toList, "tls".toList, []].flatMap fun kind => [['_'], ['-'], []].flatMap fun between =>
    separators.map fun separator => kind ++ between ++ "private".toList ++ separator ++ "key".toList

/-- The names of signing keys, with each choice of separators. -/
def signingNames (separators : List (List Char)) : List (List Char) :=
  separators.map fun separator => "signing".toList ++ separator ++ "key".toList

/-- One of some words stands in a key. -/
def Holds (words : List (List Char)) (key : List Char) : Prop := ∃ word ∈ words, word <:+: key

/-- A private or a signing name stands between separators. -/
def Named (separators : List (List Char)) (key : List Char) : Prop :=
  ∃ name ∈ privateNames separators ++ signingNames separators, Delimited name key

/-- What the daemon alone looks for: a name without a separator. -/
def Joined (key : List Char) : Prop := "apikey".toList <:+: key ∨ Named [[]] key

/-- A key in lower case that both sides take alike: it has a word that both look for, or a name with a
separator that is itself between separators, or what each side alone looks for it has both or none. -/
def Alike (key : List Char) : Prop :=
  Holds sharedWords key ∨ Named [['_'], ['-']] key ∨ (Joined key ↔ Holds separatedWords key)

/-- A word stands for itself only. -/
theorem hasWords_literals (word : String)
    (lower : ∀ character ∈ word.toList, character ∈ wordCharacters) :
    HasWords (literals .empty word) [word.toList] := by
  have same : literals .empty word = chain .empty ((word.toList.map code).map .literal) := by
    rw [literals, List.map_map]
    rfl
  obtain ⟨finite, words⟩ := chain_literals (rfl : Pattern.empty.isFinite = true)
    (word.toList.map code)
  constructor
  · rw [same, finite]
  · rw [same, words]
    rfl
  · intro found member
    rw [List.mem_singleton.mp member]
    exact lower

/-- The parts of the names of private keys. -/
def privateParts : List RegExp :=
  [optional (.either (literals .empty "ssh") (literals .empty "tls")), optional separator] ++
    ("private".toList.map fun character => .literal (code character)) ++ [optional separator] ++
    ("key".toList.map fun character => .literal (code character))

/-- The parts of the names of signing keys. -/
def signingParts : List RegExp :=
  ("signing".toList.map fun character => .literal (code character)) ++ [optional separator] ++
    ("key".toList.map fun character => .literal (code character))

/-- The expression of private keys stands for their names. -/
theorem hasWords_private :
    HasWords (chain .empty privateParts) (privateNames [['_'], ['-'], []]) := by
  constructor
  · decide +kernel
  · decide +kernel
  · exact lowerWords_iff.mp (by decide +kernel)

/-- The expression of signing keys stands for their names. -/
theorem hasWords_signing :
    HasWords (chain .empty signingParts) (signingNames [['_'], ['-'], []]) := by
  constructor
  · decide +kernel
  · decide +kernel
  · exact lowerWords_iff.mp (by decide +kernel)

/-- The expression of an API key stands for its three names. -/
theorem hasWords_apiKey : HasWords apiKey ["api_key".toList, "api-key".toList, "apikey".toList] := by
  constructor
  · decide +kernel
  · decide +kernel
  · exact lowerWords_iff.mp (by decide +kernel)

/-- The name of a private key is its parts, one after the other. -/
theorem privateName_parts (terms : RegExp) : privateName terms = chain terms privateParts := rfl

/-- The name of a signing key is its parts, one after the other. -/
theorem signingName_parts (terms : RegExp) : signingName terms = chain terms signingParts := rfl

/-- A word is found where the folded key has it. -/
theorem test_literals (word : String)
    (lower : word.toList.all fun character => character ∈ wordCharacters) (key : JsString) :
    test ignoreCase (literals .empty word) key = true ↔ word.toList <:+: key.map lowered := by
  rw [test_hasWords (hasWords_literals word (List.all_iff_forall_prop.mp lower))]
  simp

/-- A key is named by one list of names or by the other. -/
theorem named_append (first second : List (List Char)) (key : List Char) :
    Named (first ++ second) key ↔ Named first key ∨ Named second key := by
  simp only [Named, privateNames, signingNames, List.map_append, List.mem_append, List.mem_flatMap]
  constructor
  · rintro ⟨name, (⟨kind, kinds, between, betweens, member | member⟩ | member | member), delimited⟩
    · exact .inl ⟨name, .inl ⟨kind, kinds, between, betweens, member⟩, delimited⟩
    · exact .inr ⟨name, .inl ⟨kind, kinds, between, betweens, member⟩, delimited⟩
    · exact .inl ⟨name, .inr member, delimited⟩
    · exact .inr ⟨name, .inr member, delimited⟩
  · rintro (⟨name, ⟨kind, kinds, between, betweens, member⟩ | member, delimited⟩ |
      ⟨name, ⟨kind, kinds, between, betweens, member⟩ | member, delimited⟩)
    · exact ⟨name, .inl ⟨kind, kinds, between, betweens, .inl member⟩, delimited⟩
    · exact ⟨name, .inr (.inl member), delimited⟩
    · exact ⟨name, .inl ⟨kind, kinds, between, betweens, .inr member⟩, delimited⟩
    · exact ⟨name, .inr (.inr member), delimited⟩

/-- What the regular expression looks for in the lower case of a key. -/
theorem testSensitive_iff (key : JsString) : testSensitive key = true ↔
    Holds sharedWords (key.map lowered) ∨ Named [['_'], ['-']] (key.map lowered) ∨
      Joined (key.map lowered) := by
  have names (separators : List (List Char)) (key : List Char) : Named separators key ↔
      (∃ name ∈ privateNames separators, Delimited name key) ∨
        ∃ name ∈ signingNames separators, Delimited name key := by
    simp only [Named, List.mem_append, or_and_right, exists_or]
  have all : Named [['_'], ['-']] (key.map lowered) ∨ Named [[]] (key.map lowered) ↔
      (∃ name ∈ privateNames [['_'], ['-'], []], Delimited name (key.map lowered)) ∨
        ∃ name ∈ signingNames [['_'], ['-'], []], Delimited name (key.map lowered) :=
    (named_append [['_'], ['-']] [[]] (key.map lowered)).symm.trans (names _ _)
  rw [testSensitive, parse_sensitiveSource, Option.any_some, sensitiveExpression,
    test_sequence_empty]
  simp only [test_either]
  rw [privateName_parts, signingName_parts]
  rw [test_literals _ (by decide), test_literals _ (by decide), test_literals _ (by decide),
    test_literals _ (by decide), test_literals _ (by decide), test_literals _ (by decide),
    test_hasWords hasWords_apiKey, test_delimited hasWords_private, test_delimited hasWords_signing]
  simp only [Holds, sharedWords, Joined, List.exists_mem_cons_iff, List.not_mem_nil, false_and,
    exists_false, or_false, or_assoc]
  -- The words are the same on both sides, only the one without a separator stands elsewhere.
  have later (b c : Prop) : "apikey".toList <:+: key.map lowered ∨ b ∨ c ↔
      b ∨ "apikey".toList <:+: key.map lowered ∨ c := or_left_comm
  rw [← all, later, later, later]

/-- What the worker looks for in the lower case of a key. -/
theorem sensitiveEnvironmentKey_iff (key : List Char) : sensitiveEnvironmentKey key = true ↔
    Holds sharedWords (toAsciiLowercase key) ∨ Holds separatedWords (toAsciiLowercase key) := by
  simp only [sensitiveEnvironmentKey, contains, Bool.or_eq_true, decide_eq_true_eq, Holds,
    sharedWords, separatedWords, List.exists_mem_cons_iff, List.not_mem_nil, false_and,
    exists_false, or_false, or_assoc]

/-- A name with a separator has a word that the worker looks for. -/
theorem separated_of_named {key : List Char} (named : Named [['_'], ['-']] key) :
    Holds separatedWords key := by
  obtain ⟨name, member, before, after, rfl, _⟩ := named
  have inside : ∀ name ∈ privateNames [['_'], ['-']] ++ signingNames [['_'], ['-']],
      ∃ word ∈ separatedWords, word <:+: name := by decide +kernel
  obtain ⟨word, known, part⟩ := inside name member
  exact ⟨word, known, part.trans ⟨before, after, rfl⟩⟩

/-- The lower case of an ASCII key. -/
theorem lowered_encode {key : List Char} (ascii : ∀ character ∈ key, character.toNat < 128) :
    (encode key).map lowered = toAsciiLowercase key := by
  have units := congrArg (List.map Char.toLower) (encode_ascii ascii)
  rwa [List.map_map] at units

/-- The two tests agree on an ASCII key just where its words do. -/
theorem agree_iff {key : List Char} (ascii : ∀ character ∈ key, character.toNat < 128) :
    testSensitive (encode key) = sensitiveEnvironmentKey key ↔ Alike (toAsciiLowercase key) := by
  have worker := sensitiveEnvironmentKey_iff key
  have daemon := testSensitive_iff (encode key)
  rw [lowered_encode ascii] at daemon
  have separated := @separated_of_named (toAsciiLowercase key)
  rw [Bool.eq_iff_iff, daemon, worker, Alike]
  generalize Holds sharedWords (toAsciiLowercase key) = shared at *
  generalize Holds separatedWords (toAsciiLowercase key) = apart at *
  generalize Named [['_'], ['-']] (toAsciiLowercase key) = named at *
  generalize Joined (toAsciiLowercase key) = joined at *
  clear daemon worker
  tauto

/-- Two tests keep the same items just where they agree on each item. -/
theorem filter_eq_iff {α : Type} {first second : α → Bool} (items : List α) :
    items.filter first = items.filter second ↔ ∀ item ∈ items, first item = second item := by
  constructor
  · intro same item member
    have both : item ∈ items.filter first ↔ item ∈ items.filter second := by rw [same]
    rw [List.mem_filter, List.mem_filter] at both
    rw [Bool.eq_iff_iff]
    simpa [member] using both
  · exact List.filter_congr

/-- In every environment with ASCII keys the two tests agree on a key just where both sides take it
alike, and the daemon selects the entries that the worker regards as sensitive just where all keys
are such. -/
theorem classifiers_agree (environment : List (List Char × List Char))
    (ascii : ∀ entry ∈ environment, ∀ character ∈ entry.1, character.toNat < 128) :
    (∀ entry ∈ environment, (testSensitive (encode entry.1) = sensitiveEnvironmentKey entry.1 ↔
      Alike (toAsciiLowercase entry.1))) ∧
    (environment.filter (fun entry => testSensitive (encode entry.1)) =
        environment.filter (fun entry => sensitiveEnvironmentKey entry.1) ↔
      ∀ entry ∈ environment, Alike (toAsciiLowercase entry.1)) := by
  have each : ∀ entry ∈ environment,
      (testSensitive (encode entry.1) = sensitiveEnvironmentKey entry.1 ↔
        Alike (toAsciiLowercase entry.1)) := fun entry member => agree_iff (ascii entry member)
  refine ⟨each, ?_⟩
  rw [filter_eq_iff]
  exact forall₂_congr each

/-- An environment with a token. -/
theorem classifiers_token :
    (∀ entry ∈ [("GH_TOKEN".toList, "value".toList)],
      (testSensitive (encode entry.1) = sensitiveEnvironmentKey entry.1 ↔
        Alike (toAsciiLowercase entry.1))) ∧
    ([("GH_TOKEN".toList, "value".toList)].filter (fun entry => testSensitive (encode entry.1)) =
        [("GH_TOKEN".toList, "value".toList)].filter
          (fun entry => sensitiveEnvironmentKey entry.1) ↔
      ∀ entry ∈ [("GH_TOKEN".toList, "value".toList)], Alike (toAsciiLowercase entry.1)) :=
  classifiers_agree [("GH_TOKEN".toList, "value".toList)] fun entry found =>
    List.mem_singleton.mp found ▸ List.all_iff_forall_prop.mp (by decide)

/-- The daemon alone takes a key without a separator before `KEY` for sensitive. -/
theorem classifiers_differ :
    ¬ ∀ key : List Char, (∀ character ∈ key, character.toNat < 128) →
      testSensitive (encode key) = sensitiveEnvironmentKey key := by
  intro always
  have same := always "OPENAI_APIKEY".toList (List.all_iff_forall_prop.mp (by decide))
  have daemon : testSensitive (encode "OPENAI_APIKEY".toList) = true := by
    rw [testSensitive, parse_sensitiveSource]
    decide +kernel
  have worker : sensitiveEnvironmentKey "OPENAI_APIKEY".toList = false := by decide +kernel
  rw [daemon, worker] at same
  cases same

/-- The worker alone takes the key of a private key behind a letter for sensitive. -/
example : testSensitive (js "MYPRIVATE_KEY") = false ∧
    sensitiveEnvironmentKey "MYPRIVATE_KEY".toList = true := by
  rw [testSensitive, parse_sensitiveSource]
  decide +kernel

end OpencodePty.SensitiveKeys
