import Mathlib.Data.Bool.AllAny
import Mathlib.Data.List.Infix
import OpencodePty.BashTool
import OpencodePty.RegExpPatterns

/-!
# Wildcards of permission rules

A wildcard is turned into the text of a regular expression by three replacements: metacharacters are
escaped, stars become `.*`, and question marks become points. The regular expression then matches
the texts that the wildcard generates.

The lower case of a text is a parameter.
-/

namespace OpencodePty.Wildcards

open OpencodePty.JsValues OpencodePty.RegularExpressions OpencodePty.RegExpPatterns
open OpencodePty.BashTool (forward backslash)

def metacharacters : List UInt16 := ".+^$\x7b\x7d()|[]\\".toList.map code

/-- `.replace(/[.+^${}()|[\]\\]/g, '\\$&')` -/
def escapeUnit (unit : UInt16) : JsString :=
  if unit ∈ metacharacters then [backslash, unit] else [unit]

/-- `.replace(/\*/g, '.*')` -/
def starUnit (unit : UInt16) : JsString :=
  if unit = code '*' then [code '.', code '*'] else [unit]

/-- `.replace(/\?/g, '.')` -/
def questionUnit (unit : UInt16) : JsString :=
  if unit = code '?' then [code '.'] else [unit]

/-- The text of the regular expression. -/
def source (pattern : JsString) : JsString :=
  code '^' :: (((pattern.flatMap escapeUnit).flatMap starUnit).flatMap questionUnit) ++ [code '$']

section Match

variable (toLowerCase : JsString → JsString)

def normalize (value platform : JsString) : JsString :=
  if platform = js "win32" then toLowerCase (forward value) else forward value

/-- `match`, which throws where the regular expression is not valid. -/
def matchText (text pattern platform : JsString) : Option Bool :=
  let text := normalize toLowerCase text platform
  let pattern := normalize toLowerCase pattern platform
  if (js " *").isSuffixOf pattern ∧ text = pattern.take (pattern.length - 2) then some true
  else (parse (source pattern)).map fun regex => test (· == ·) regex text

end Match

/-- A wildcard read as a glob generates a text. -/
inductive Generates : JsString → JsString → Prop where
  | nil : Generates [] []
  | star (front : JsString) {pattern rest : JsString} (later : Generates pattern rest) :
    Generates (code '*' :: pattern) (front ++ rest)
  | question (unit : UInt16) {pattern rest : JsString} (later : Generates pattern rest) :
    Generates (code '?' :: pattern) (unit :: rest)
  | unit {unit : UInt16} {pattern rest : JsString} (plain : unit ≠ code '*')
    (single : unit ≠ code '?') (later : Generates pattern rest) :
    Generates (unit :: pattern) (unit :: rest)

/-- What a code unit of a wildcard is in the regular expression. -/
def globTerm (unit : UInt16) : RegExp :=
  if unit = code '*' then .star .any
  else if unit = code '?' then .any
  else .literal unit

/-- The terms of a wildcard behind others. -/
def globTerms (terms : RegExp) (pattern : JsString) : RegExp :=
  pattern.foldl (fun earlier unit => .sequence earlier (globTerm unit)) terms

/-- The text of one code unit of the wildcard. -/
def translated (unit : UInt16) : JsString :=
  ((escapeUnit unit).flatMap starUnit).flatMap questionUnit

theorem source_eq (pattern : JsString) :
    source pattern = code '^' :: pattern.flatMap translated ++ [code '$'] := by
  have each : translated = fun unit => (escapeUnit unit).flatMap fun unit =>
      (starUnit unit).flatMap questionUnit := by
    funext unit
    rw [translated, List.flatMap_assoc]
  rw [source, List.flatMap_assoc, List.flatMap_assoc, each]

/-- A star, a question mark, an escaped metacharacter, or a code unit that means itself. -/
theorem translated_cases (unit : UInt16) :
    unit = code '*' ∧ translated unit = [code '.', code '*'] ∨
    unit = code '?' ∧ translated unit = [code '.'] ∨
    unit ≠ code '*' ∧ unit ≠ code '?' ∧
      (unit ∈ syntaxUnits ∧ translated unit = [backslash, unit] ∨
        unit ∉ syntaxUnits ∧ translated unit = [unit]) := by
  by_cases star : unit = code '*'
  · subst star
    exact .inl ⟨rfl, by decide⟩
  by_cases question : unit = code '?'
  · subst question
    exact .inr (.inl ⟨rfl, by decide⟩)
  refine .inr (.inr ⟨star, question, ?_⟩)
  by_cases special : unit ∈ metacharacters
  · have escaped : ∀ unit ∈ metacharacters,
        unit ∈ syntaxUnits ∧ translated unit = [backslash, unit] :=
      List.all_iff_forall_prop.mp (by decide)
    exact .inl (escaped unit special)
  · have units : ∀ other ∈ syntaxUnits,
        other ∈ metacharacters ∨ other = code '*' ∨ other = code '?' :=
      List.all_iff_forall_prop.mp (by decide)
    refine .inr ⟨?_, ?_⟩
    · intro member
      obtain known | same | same := units unit member
      · exact special known
      · exact star same
      · exact question same
    rw [translated, escapeUnit, if_neg special, List.flatMap_singleton, starUnit, if_neg star,
      List.flatMap_singleton, questionUnit, if_neg question]

/-! ## Reading the regular expression -/

/-- The text up to here is read as terms, outside of groups, escapes and classes. -/
structure Ready (terms : RegExp) (reader : Reader) : Prop where
  mode : reader.mode = .plain ∨ reader.mode = .quantified
  alone : reader.group.alternatives = none
  outermost : reader.outer = []
  whole : reader.group.whole = terms

theorem ready_step {terms : RegExp} {reader : Reader} (ready : Ready terms reader) {unit : UInt16}
    (other : unit ≠ code '?') : reader.step unit = reader.term unit := by
  obtain plain | quantified := ready.mode
  · rw [Reader.step, plain]
  · rw [Reader.step, quantified]
    exact if_neg other

theorem ready_atom {terms : RegExp} {reader : Reader} (ready : Ready terms reader) (atom : RegExp) :
    Ready (.sequence terms atom) (reader.atom atom) where
  mode := .inl rfl
  alone := ready.alone
  outermost := ready.outermost
  whole := congrArg (Pattern.sequence · atom) ready.whole

theorem ready_assertion {terms : RegExp} {reader : Reader} (ready : Ready terms reader)
    (term : RegExp) : Ready (.sequence terms term) (reader.assertion term) where
  mode := .inl rfl
  alone := ready.alone
  outermost := ready.outermost
  whole := congrArg (Pattern.sequence · term) ready.whole

/-- A code unit of the wildcard is read as its term. -/
theorem ready_translated {terms : RegExp} {reader : Reader} (ready : Ready terms reader)
    (unit : UInt16) : ∃ next, (translated unit).foldlM Reader.step reader = some next ∧
      Ready (.sequence terms (globTerm unit)) next := by
  obtain ⟨rfl, text⟩ | ⟨rfl, text⟩ | ⟨star, question, ⟨special, text⟩ | ⟨plain, text⟩⟩ :=
    translated_cases unit
  · -- The star is the quantifier of the point.
    have point : reader.step (code '.') = some (reader.atom .any) := ready_step ready (by decide)
    refine ⟨⟨.quantified, { (reader.group.addAtom .any) with
      terms := .sequence reader.group.whole (.star .any), atom := none }, reader.outer⟩, ?_, ?_⟩
    · rw [text, List.foldlM_cons, point]
      rfl
    · constructor
      · exact .inr rfl
      · exact ready.alone
      · exact ready.outermost
      · exact congrArg (Pattern.sequence · (.star .any)) ready.whole
  · have point : reader.step (code '.') = some (reader.atom .any) := ready_step ready (by decide)
    refine ⟨reader.atom .any, ?_, ready_atom ready .any⟩
    rw [text, List.foldlM_cons, point]
    rfl
  · have escaped : reader.step backslash = some { reader with mode := .escaped } :=
      ready_step ready (by decide)
    have literal : globTerm unit = .literal unit := by
      rw [globTerm, if_neg star, if_neg question]
    refine ⟨reader.atom (.literal unit), ?_, literal ▸ ready_atom ready (.literal unit)⟩
    rw [text, List.foldlM_cons, escaped]
    change (if unit ∈ syntaxUnits ∨ unit = code '/' then some (reader.atom (.literal unit))
      else none) >>= _ = _
    rw [if_pos (.inl special)]
    rfl
  · have literal : globTerm unit = .literal unit := by
      rw [globTerm, if_neg star, if_neg question]
    refine ⟨reader.atom (.literal unit), ?_, literal ▸ ready_atom ready (.literal unit)⟩
    rw [text, List.foldlM_cons, ready_step ready question, reader.term_literal plain]
    rfl

/-- A whole wildcard is read as its terms. -/
theorem ready_pattern {terms : RegExp} {reader : Reader} (ready : Ready terms reader)
    (pattern : JsString) : ∃ next,
      (pattern.flatMap translated).foldlM Reader.step reader = some next ∧
        Ready (globTerms terms pattern) next := by
  induction pattern generalizing terms reader with
  | nil => exact ⟨reader, rfl, ready⟩
  | cons unit rest inductionHypothesis =>
    obtain ⟨middle, first, readyMiddle⟩ := ready_translated ready unit
    obtain ⟨next, others, readyNext⟩ := inductionHypothesis readyMiddle
    refine ⟨next, ?_, readyNext⟩
    rw [List.flatMap_cons, List.foldlM_append, first]
    exact others

/-- The regular expression of a wildcard. -/
def globExpression (pattern : JsString) : RegExp :=
  .sequence (globTerms (.sequence .empty .start) pattern) .finish

/-- The text of every wildcard is a valid regular expression, with the terms of the wildcard between
the start and the end. -/
theorem parse_source (pattern : JsString) :
    parse (source pattern) = some (globExpression pattern) := by
  have opened : Ready .empty ⟨.plain, .opened, []⟩ := by
    constructor
    · exact .inl rfl
    · rfl
    · rfl
    · rfl
  have start : Reader.step ⟨.plain, .opened, []⟩ (code '^') =
      some (Reader.assertion ⟨.plain, .opened, []⟩ .start) := ready_step opened (by decide)
  obtain ⟨last, read, ready⟩ := ready_pattern (ready_assertion opened .start) pattern
  have finish : last.step (code '$') = some (last.assertion .finish) := ready_step ready (by decide)
  have readyEnd := ready_assertion ready .finish
  have whole : (source pattern).foldlM Reader.step ⟨.plain, .opened, []⟩ =
      some (last.assertion .finish) := by
    rw [source_eq, List.cons_append, List.foldlM_cons, start, Option.bind_eq_bind,
      Option.bind_some, List.foldlM_append, read, Option.bind_eq_bind, Option.bind_some,
      List.foldlM_cons, finish]
    rfl
  rw [parse, whole, Option.bind_some, Reader.finish, readyEnd.outermost]
  change some (last.assertion .finish).group.disjunction = _
  rw [Group.disjunction, readyEnd.alone]
  exact congrArg some readyEnd.whole

/-! ## What the regular expression matches -/

section Moves

variable {place next : Place UInt16}

/-- The star moves over any text. -/
theorem mem_any_star : next ∈ moves (· == ·) (.star (.any : RegExp)) place ↔ Reaches place next := by
  constructor
  · exact moves_reaches
  · rintro ⟨between, text, before⟩
    rw [mem_star]
    induction between generalizing place with
    | nil =>
      have same : next = place := Prod.ext before text.symm
      exact same ▸ .refl
    | cons unit rest inductionHypothesis =>
      refine .head (mem_any.mpr ⟨unit, text, rfl⟩ : (unit :: place.1, rest ++ next.2) ∈ _) ?_
      apply inductionHypothesis
      · rfl
      · rw [before, List.reverse_cons, List.append_assoc]
        rfl

/-- The terms of a wildcard move over the texts that it generates. -/
theorem mem_globTerms {terms : RegExp} {pattern : JsString} :
    next ∈ moves (· == ·) (globTerms terms pattern) place ↔
      ∃ middle ∈ moves (· == ·) terms place, ∃ text, Generates pattern text ∧
        middle.2 = text ++ next.2 ∧ next.1 = text.reverse ++ middle.1 := by
  induction pattern generalizing terms with
  | nil =>
    constructor
    · exact fun member => ⟨next, member, [], .nil, rfl, rfl⟩
    · rintro ⟨middle, member, text, generates, rest, before⟩
      cases generates
      have same : next = middle := Prod.ext before rest.symm
      exact same ▸ member
  | cons unit rest inductionHypothesis =>
    rw [globTerms, List.foldl_cons, ← globTerms, inductionHypothesis]
    constructor
    · rintro ⟨middle, member, text, generates, after, before⟩
      obtain ⟨first, earlier, moved⟩ := mem_sequence.mp member
      refine ⟨first, earlier, ?_⟩
      rw [globTerm] at moved
      split_ifs at moved with star question
      · subst star
        obtain ⟨front, textFront, beforeFront⟩ := mem_any_star.mp moved
        refine ⟨front ++ text, .star front generates, ?_, ?_⟩
        · rw [textFront, after, List.append_assoc]
        · rw [before, beforeFront, List.reverse_append, List.append_assoc]
      · subst question
        obtain ⟨found, textFound, beforeFound⟩ := mem_any.mp moved
        refine ⟨found :: text, .question found generates, ?_, ?_⟩
        · rw [textFound, after, List.cons_append]
        · rw [before, beforeFound, List.reverse_cons, List.append_assoc, List.singleton_append]
      · obtain ⟨found, same, textFound, beforeFound⟩ := mem_literal.mp moved
        obtain rfl := beq_iff_eq.mp same
        refine ⟨unit :: text, .unit star question generates, ?_, ?_⟩
        · rw [textFound, after, List.cons_append]
        · rw [before, beforeFound, List.reverse_cons, List.append_assoc, List.singleton_append]
    · rintro ⟨first, earlier, text, generates, after, before⟩
      cases generates with
      | star front later =>
        rename_i text
        refine ⟨(front.reverse ++ first.1, text ++ next.2), ?_, text, later, rfl, ?_⟩
        · refine mem_sequence.mpr ⟨first, earlier, mem_any_star.mpr ⟨front, ?_, rfl⟩⟩
          rw [after, List.append_assoc]
        · rw [before, List.reverse_append, List.append_assoc]
      | question found later =>
        rename_i text
        refine ⟨(found :: first.1, text ++ next.2), ?_, text, later, rfl, ?_⟩
        · exact mem_sequence.mpr ⟨first, earlier, mem_any.mpr ⟨found, after, rfl⟩⟩
        · rw [before, List.reverse_cons, List.append_assoc, List.singleton_append]
      | unit plain single later =>
        rename_i text
        refine ⟨(unit :: first.1, text ++ next.2), ?_, text, later, rfl, ?_⟩
        · refine mem_sequence.mpr ⟨first, earlier, ?_⟩
          rw [globTerm, if_neg plain, if_neg single]
          exact mem_literal.mpr ⟨unit, beq_self_eq_true unit, after, rfl⟩
        · rw [before, List.reverse_cons, List.append_assoc, List.singleton_append]

end Moves

/-- The regular expression of a wildcard matches the texts that the wildcard generates. -/
theorem test_globExpression (pattern text : JsString) :
    test (· == ·) (globExpression pattern) text = true ↔ Generates pattern text := by
  rw [test_iff]
  constructor
  · rintro ⟨before, rest, next, whole, moved⟩
    obtain ⟨last, member, finished⟩ := mem_sequence.mp moved
    obtain ⟨first, started, generated, generates, after, _⟩ := mem_globTerms.mp member
    obtain ⟨_, empty, atStart⟩ := mem_sequence.mp started
    obtain rfl := mem_empty.mp empty
    obtain ⟨start, rfl⟩ := mem_start.mp atStart
    obtain ⟨finish, rfl⟩ := mem_finish.mp finished
    have front : before = [] := List.reverse_eq_nil_iff.mp start
    rw [front, List.nil_append] at whole
    have same : rest = generated := by
      rw [finish, List.append_nil] at after
      exact after
    rw [whole, same]
    exact generates
  · intro generates
    refine ⟨[], text, (text.reverse, []), rfl, ?_⟩
    refine mem_sequence.mpr ⟨(text.reverse, []), ?_, mem_finish.mpr ⟨rfl, rfl⟩⟩
    refine mem_globTerms.mpr ⟨([], text), ?_, text, generates, ?_, ?_⟩
    · exact mem_sequence.mpr ⟨([], text), mem_empty.mpr rfl, mem_start.mpr ⟨rfl, rfl⟩⟩
    · rw [List.append_nil]
    · rw [List.append_nil]

/-- A match never throws, and is true just where the wildcard generates the whole text, or ends in a
blank and a star and is the text without these. -/
theorem matchText_iff (toLowerCase : JsString → JsString) (text pattern platform : JsString) :
    ∃ result, matchText toLowerCase text pattern platform = some result ∧
      (result = true ↔
        Generates (normalize toLowerCase pattern platform) (normalize toLowerCase text platform) ∨
        normalize toLowerCase pattern platform =
          normalize toLowerCase text platform ++ js " *") := by
  rw [matchText, parse_source, Option.map_some]
  generalize normalize toLowerCase text platform = text
  generalize normalize toLowerCase pattern platform = pattern
  have two : (js " *").length = 2 := by decide
  have tail : (js " *").isSuffixOf pattern = true ∧ text = pattern.take (pattern.length - 2) ↔
      pattern = text ++ js " *" := by
    rw [List.isSuffixOf_iff_suffix]
    constructor
    · rintro ⟨⟨front, rfl⟩, same⟩
      have length : (front ++ js " *").length - 2 = front.length := by
        rw [List.length_append]
        omega
      rw [length, List.take_left] at same
      rw [same]
    · rintro rfl
      refine ⟨List.suffix_append _ _, ?_⟩
      have length : (text ++ js " *").length - 2 = text.length := by
        rw [List.length_append]
        omega
      rw [length, List.take_left]
  split
  next omitted => exact ⟨true, rfl, by simp [tail.mp omitted]⟩
  next kept =>
    refine ⟨_, rfl, ?_⟩
    rw [test_globExpression]
    constructor
    · exact .inl
    · rintro (generates | same)
      · exact generates
      · exact absurd (tail.mpr same) kept

/-! ## The matches of the rules -/

/-- A generated text ends in a text that the rest of a wildcard generates. -/
theorem generates_star {pattern text : JsString} :
    Generates (code '*' :: pattern) text ↔ ∃ rest, rest <:+ text ∧ Generates pattern rest := by
  constructor
  · intro generates
    cases generates with
    | star front later => exact ⟨_, List.suffix_append _ _, later⟩
    | unit plain _ _ => exact absurd rfl plain
  · rintro ⟨rest, ⟨front, rfl⟩, later⟩
    exact .star front later

theorem generates_cons {unit : UInt16} {pattern text : JsString} (plain : unit ≠ code '*') :
    Generates (unit :: pattern) text ↔ ∃ first rest, text = first :: rest ∧
      (unit = code '?' ∨ unit = first) ∧ Generates pattern rest := by
  constructor
  · intro generates
    cases generates with
    | star => exact absurd rfl plain
    | question first later => exact ⟨first, _, rfl, .inl rfl, later⟩
    | unit _ _ later => exact ⟨unit, _, rfl, .inr rfl, later⟩
  · rintro ⟨first, rest, rfl, rfl | rfl, later⟩
    · exact .question first later
    · by_cases single : unit = code '?'
      · exact single ▸ .question unit later
      · exact .unit plain single later

theorem wildcard_iff {pattern text : JsString} :
    BashTool.wildcard pattern text = true ↔ Generates pattern text := by
  have star (unit : UInt16) : [unit] = js "*" ↔ unit = code '*' := List.singleton_inj
  have question (unit : UInt16) : [unit] = js "?" ↔ unit = code '?' := List.singleton_inj
  induction pattern generalizing text with
  | nil =>
    rw [BashTool.wildcard, List.isEmpty_iff]
    constructor
    · rintro rfl
      exact .nil
    · intro generates
      cases generates
      rfl
  | cons unit rest inductionHypothesis =>
    rw [BashTool.wildcard.eq_def]
    dsimp only
    by_cases isStar : unit = code '*'
    · subst isStar
      rw [if_pos ((star _).mpr rfl), generates_star, List.any_eq_true]
      simp only [List.mem_tails, inductionHypothesis]
    · rw [if_neg fun same => isStar ((star _).mp same), generates_cons isStar]
      cases text with
      | nil => simp
      | cons first others => simp [question, inductionHypothesis]

/-- The rules are matched as the regular expression matches. -/
theorem matchText_wildcardMatch (host : BashTool.Host) (text pattern platform : JsString)
    (same : platform = js "win32" ↔ host.windows = true) :
    matchText host.toLowerCase text pattern platform =
      some (BashTool.wildcardMatch host text pattern) := by
  have normalized (value : JsString) :
      BashTool.normalize host value = normalize host.toLowerCase value platform := by
    rw [BashTool.normalize, normalize]
    simp only [same]
  have glob (pattern text : JsString) :
      test (· == ·) (globExpression pattern) text = BashTool.wildcard pattern text := by
    rw [Bool.eq_iff_iff, test_globExpression, wildcard_iff]
  rw [matchText, parse_source, Option.map_some, BashTool.wildcardMatch, normalized, normalized, glob]
  split
  next omitted => simp [omitted.1, ← omitted.2]
  next kept =>
    rw [not_and] at kept
    by_cases suffix : (js " *").isSuffixOf (normalize host.toLowerCase pattern platform) = true
    · have other := kept suffix
      simp [suffix, other]
    · simp [suffix]

end OpencodePty.Wildcards
