import OpencodePty.BashTool
import OpencodePty.DaemonRedaction
import OpencodePty.EntityEscapes
import OpencodePty.TagScanning

/-!
# Escaping for XML

`escapeXml` puts U+FFFD for each code point that XML 1.0 does not allow, and replaces the five
symbols of the markup one after the other. What comes out is made of legal code points and has none
of the symbols left but the ampersands of the entities, and reading the entities back gives the
legal form of the text.
-/

namespace OpencodePty.XmlEscapes

open JsValues TextEncodings EntityEscapes TagScanning
open BashTool (escapeXml sanitize)
open DaemonRedaction (arrayFrom)

/-- `Char` of XML 1.0: the code points that a document is made of. -/
def LegalChar (code : Nat) : Prop :=
  code = 0x9 ∨ code = 0xa ∨ code = 0xd ∨ (0x20 ≤ code ∧ code ≤ 0xd7ff) ∨
    (0xe000 ≤ code ∧ code ≤ 0xfffd) ∨ (0x10000 ≤ code ∧ code ≤ 0x10ffff)

instance : DecidablePred LegalChar := fun code => by unfold LegalChar; infer_instance

/-- `codePointAt(0)`, where a lone surrogate is its own code point. -/
def codePointAt : JsString → Nat
  | [] => 0
  | [unit] => unit.toNat
  | high :: low :: _ =>
    if isHighSurrogate high && isLowSurrogate low then
      0x10000 + (high.toNat - 0xd800) * 0x400 + (low.toNat - 0xdc00)
    else high.toNat

/-- The code points of a text. -/
def codes (text : JsString) : List Nat := (arrayFrom text).map codePointAt

/-- A character, or U+FFFD where its code point is illegal. -/
def legalCharacter (character : JsString) : JsString :=
  if LegalChar (codePointAt character) then character else [0xfffd]

/-- A text with U+FFFD in the place of its illegal code points and lone surrogates. -/
def legalForm (text : JsString) : JsString := (arrayFrom text).flatMap legalCharacter

/-- The symbols of XML with their entities, in the order of the replacements. -/
def xml : Entities UInt16 where
  lead := 0x26
  entries := [(0x26, js "&amp;"), (0x3c, js "&lt;"), (0x3e, js "&gt;"), (0x22, js "&quot;"),
    (0x27, js "&apos;")]
  led := by decide
  escaped := by decide
  inner := by decide
  apart := by decide
  ordered := by decide

/-- The tags of XML are delimited by angle brackets, the values in them by quotes. -/
def markup : Markup UInt16 := ⟨0x3c, 0x3e, [0x22, 0x27]⟩

/-! ## The two passes -/

theorem validUnit_iff (unit : UInt16) : sanitize.validUnit unit = true ↔ LegalChar unit.toNat := by
  have small := unit.toNat_lt
  simp only [sanitize.validUnit, LegalChar, Bool.or_eq_true, Bool.and_eq_true, beq_iff_eq,
    decide_eq_true_eq, UInt16.le_iff_toNat_le, ← UInt16.toNat_inj, UInt16.reduceToNat]
  omega

theorem legalCharacter_unit (unit : UInt16) :
    legalCharacter [unit] = [if sanitize.validUnit unit then unit else 0xfffd] := by
  by_cases legal : LegalChar unit.toNat
  · rw [(validUnit_iff unit).mpr legal, if_pos rfl]
    exact if_pos legal
  · rw [if_neg (mt (validUnit_iff unit).mp legal)]
    exact if_neg legal

/-- A surrogate pair is a code point beyond the code units, and all of these are legal. -/
theorem legal_pair {high low : UInt16} (opens : isHighSurrogate high = true)
    (closes : isLowSurrogate low = true) : LegalChar (codePointAt [high, low]) := by
  have pair : (isHighSurrogate high && isLowSurrogate low) = true := by rw [opens, closes]; rfl
  rw [codePointAt, if_pos pair]
  rw [isHighSurrogate_iff] at opens
  rw [isLowSurrogate_iff] at closes
  unfold LegalChar
  omega

theorem legalForm_pair {high low : UInt16} (opens : isHighSurrogate high = true)
    (closes : isLowSurrogate low = true) (rest : JsString) :
    legalForm (high :: low :: rest) = high :: low :: legalForm rest := by
  have kept : legalCharacter [high, low] = [high, low] := if_pos (legal_pair opens closes)
  rw [legalForm, arrayFrom, opens, closes, Bool.and_true, if_pos rfl, List.flatMap_cons, kept]
  rfl

theorem legalForm_alone {high low : UInt16}
    (alone : ¬(isHighSurrogate high && isLowSurrogate low) = true) (rest : JsString) :
    legalForm (high :: low :: rest) = legalCharacter [high] ++ legalForm (low :: rest) := by
  rw [legalForm, arrayFrom, if_neg alone, List.flatMap_cons]
  rfl

theorem sanitize_eq (text : JsString) : sanitize text = legalForm text := by
  induction text using DaemonRedaction.arrayFrom.induct with
  | case1 => rfl
  | case2 unit =>
    rw [sanitize, legalForm, arrayFrom, List.flatMap_singleton, legalCharacter_unit]
    split <;> rfl
  | case3 high low rest pair inductionHypothesis =>
    obtain ⟨opens, closes⟩ := Bool.and_eq_true_iff.mp pair
    rw [sanitize, if_pos pair, inductionHypothesis, legalForm_pair opens closes]
  | case4 high low rest alone inductionHypothesis =>
    rw [sanitize, if_neg alone, inductionHypothesis, legalForm_alone alone, legalCharacter_unit]
    rfl

/-- The replacements one after the other are one pass. -/
theorem escapeXml_eq (text : JsString) : escapeXml text = xml.escape (legalForm text) := by
  rw [← sanitize_eq, ← xml.replaceEach_eq]
  rfl

/-! ## Legal texts -/

/-- A text of code points that XML allows. -/
inductive LegalText : JsString → Prop
  | nil : LegalText []
  | unit {unit : UInt16} {rest : JsString} :
      LegalChar unit.toNat → LegalText rest → LegalText (unit :: rest)
  | pair {high low : UInt16} {rest : JsString} :
      isHighSurrogate high = true → isLowSurrogate low = true → LegalText rest →
      LegalText (high :: low :: rest)

theorem LegalText.append {first second : JsString} (before : LegalText first)
    (after : LegalText second) : LegalText (first ++ second) := by
  induction before with
  | nil => exact after
  | unit legal _ inductionHypothesis => exact .unit legal inductionHypothesis
  | pair opens closes _ inductionHypothesis => exact .pair opens closes inductionHypothesis

theorem LegalText.of_units {text : JsString}
    (legal : (text.all fun unit => decide (LegalChar unit.toNat)) = true) : LegalText text := by
  induction text with
  | nil => exact .nil
  | cons unit rest inductionHypothesis =>
    obtain ⟨here, later⟩ := Bool.and_eq_true_iff.mp (List.all_cons ▸ legal)
    exact .unit (of_decide_eq_true here) (inductionHypothesis later)

/-- The code points of a legal text are legal. -/
theorem LegalText.codes {text : JsString} (legal : LegalText text) :
    ∀ code ∈ codes text, LegalChar code := by
  induction legal with
  | nil => intro code member; cases member
  | @unit unit rest legal _ inductionHypothesis =>
    -- A legal code unit is no surrogate.
    have single : arrayFrom (unit :: rest) = [unit] :: arrayFrom rest := by
      cases rest with
      | nil => rfl
      | cons next rest =>
        have plain : isHighSurrogate unit = false := by
          rw [Bool.eq_false_iff, ne_eq, isHighSurrogate_iff]
          unfold LegalChar at legal
          omega
        rw [arrayFrom, plain, Bool.false_and, if_neg Bool.false_ne_true]
    rw [XmlEscapes.codes, single, List.map_cons, List.forall_mem_cons]
    exact ⟨legal, inductionHypothesis⟩
  | @pair high low rest opens closes _ inductionHypothesis =>
    rw [XmlEscapes.codes, arrayFrom, opens, closes, Bool.and_true, if_pos rfl, List.map_cons,
      List.forall_mem_cons]
    exact ⟨legal_pair opens closes, inductionHypothesis⟩

theorem legalText_legalForm (text : JsString) : LegalText (legalForm text) := by
  have single (unit : UInt16) : LegalText (legalCharacter [unit]) := by
    by_cases legal : LegalChar unit.toNat
    · have kept : legalCharacter [unit] = [unit] := if_pos legal
      rw [kept]
      exact .unit legal .nil
    · have replaced : legalCharacter [unit] = [0xfffd] := if_neg legal
      rw [replaced]
      exact .unit (by decide) .nil
  induction text using DaemonRedaction.arrayFrom.induct with
  | case1 => exact .nil
  | case2 unit =>
    rw [legalForm, arrayFrom, List.flatMap_singleton]
    exact single unit
  | case3 high low rest pair inductionHypothesis =>
    obtain ⟨opens, closes⟩ := Bool.and_eq_true_iff.mp pair
    rw [legalForm_pair opens closes]
    exact .pair opens closes inductionHypothesis
  | case4 high low rest alone inductionHypothesis =>
    rw [legalForm_alone alone]
    exact (single high).append inductionHypothesis

/-- Entities are legal, and no symbol is half of a pair. -/
theorem legalText_escape {text : JsString} (legal : LegalText text) :
    LegalText (xml.escape text) := by
  have entries : ∀ entry ∈ xml.entries,
      (entry.2.all fun unit => decide (LegalChar unit.toNat)) = true := by decide
  have low : ∀ entry ∈ xml.entries, entry.1.toNat < 0xd800 := by decide
  have paired {unit : UInt16} (surrogate : 0xd800 ≤ unit.toNat) :
      write xml.entries unit = [unit] := by
    obtain ⟨entity, member, _⟩ | ⟨_, written⟩ := @Entities.write_cases _ _ xml unit
    · exact absurd surrogate (Nat.not_le.mpr (low _ member))
    · exact written
  induction legal with
  | nil => exact .nil
  | @unit unit rest legal _ inductionHypothesis =>
    rw [Entities.escape_cons]
    obtain ⟨entity, member, written⟩ | ⟨_, written⟩ := @Entities.write_cases _ _ xml unit
    · rw [written]
      exact (LegalText.of_units (entries _ member)).append inductionHypothesis
    · rw [written]
      exact .unit legal inductionHypothesis
  | @pair high low rest opens closes _ inductionHypothesis =>
    have first := (isHighSurrogate_iff high).mp opens
    have second := (isLowSurrogate_iff low).mp closes
    rw [Entities.escape_cons, Entities.escape_cons, paired first.1, paired (by omega)]
    exact .pair opens closes inductionHypothesis

/-! ## Escaped texts -/

/-- What escaping makes of a text. -/
structure Escapes (text escaped : JsString) : Prop where
  unmarked : ∀ unit ∈ escaped, unit ∉ js "<>\"'"
  /-- Every ampersand begins one of the entities. -/
  led : ∀ before after, escaped = before ++ 0x26 :: after →
    ∃ entry ∈ xml.entries, entry.2 <+: 0x26 :: after
  legal : ∀ code ∈ codes escaped, LegalChar code
  restored : xml.unescape escaped = legalForm text

theorem escapes (text : JsString) : Escapes text (escapeXml text) := by
  rw [escapeXml_eq]
  constructor
  · intro unit left marked
    have symbols : ((js "<>\"'").all fun symbol =>
        decide (symbol ∈ xml.entries.map Prod.fst ∧ symbol ≠ xml.lead)) = true := by decide
    obtain ⟨replaced, other⟩ := of_decide_eq_true (List.all_eq_true.mp symbols unit marked)
    exact other (Entities.escape_left replaced left)
  · intro before after whole
    exact Entities.escape_led whole
  · exact (legalText_escape (legalText_legalForm text)).codes
  · exact Entities.unescape_escape _

example : escapeXml (js "<&>\"'") = js "&lt;&amp;&gt;&quot;&apos;" := by decide

/-- No tag is made of an escaped text. -/
theorem plain_escapeXml (text : JsString) : Plain markup (escapeXml text) := by
  intro unit member marked
  have symbols : markup.symbols = js "<>\"'" := by decide
  exact (escapes text).unmarked unit member (symbols ▸ marked)

end OpencodePty.XmlEscapes
