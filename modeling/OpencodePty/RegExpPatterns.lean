import OpencodePty.JsValues
import OpencodePty.RegularExpressions

/-!
# The pattern syntax of `RegExp`

A pattern text is read one code unit at a time. What is read belongs to the innermost open group: its
alternatives so far, the terms of the last one, and the last atom, which a quantifier may follow.

Lookahead, named and counted parts, ranges and classes by letter are refused, so that a text that is
read is a valid pattern. A point stands for every code unit, as it does with the flag `s`.
-/

namespace OpencodePty.RegExpPatterns

open OpencodePty.JsValues OpencodePty.RegularExpressions

/-- Patterns over units. -/
abbrev RegExp := Pattern UInt16

/-- The code unit of an ASCII character. -/
def code (character : Char) : UInt16 := character.toNat.toUInt16

/-- What has been read of a group. -/
structure Group where
  alternatives : Option RegExp
  terms : RegExp
  atom : Option RegExp

namespace Group

/-- A group that was just opened. -/
def opened : Group := ⟨none, .empty, none⟩

variable (group : Group)

/-- The terms with the last atom. -/
def whole : RegExp :=
  match group.atom with
  | none => group.terms
  | some atom => .sequence group.terms atom

/-- All alternatives. -/
def disjunction : RegExp :=
  match group.alternatives with
  | none => group.whole
  | some earlier => .either earlier group.whole

/-- The atom that was before becomes a term. -/
def addAtom (atom : RegExp) : Group := { group with terms := group.whole, atom := some atom }

/-- A term that no quantifier may follow. -/
def addTerm (term : RegExp) : Group :=
  { group with terms := .sequence group.whole term, atom := none }

/-- Another alternative begins. -/
def alternative : Group := ⟨some group.disjunction, .empty, none⟩

end Group

/-- What the next unit may be. -/
inductive Mode where
  | plain
  /-- Behind a quantifier, where a question mark makes it lazy. -/
  | quantified
  | escaped
  /-- Behind an opening parenthesis. -/
  | opened
  /-- Behind an opening parenthesis and a question mark. -/
  | marked
  /-- In a class, with its members so far, and whether a hyphen stands before this place. -/
  | members (characters : List UInt16) (hyphen : Bool)

/-- The group that is read, and the groups around it. -/
structure Reader where
  mode : Mode
  group : Group
  outer : List Group

/-- The code units that are not literals by themselves. -/
def syntaxUnits : List UInt16 := "^$\\.*+?()[]\x7b\x7d|".toList.map code

namespace Reader

variable (reader : Reader)

/-- An atom is read. -/
def atom (atom : RegExp) : Reader := ⟨.plain, reader.group.addAtom atom, reader.outer⟩

/-- An assertion is read. -/
def assertion (term : RegExp) : Reader := ⟨.plain, reader.group.addTerm term, reader.outer⟩

/-- A quantifier, which needs an atom before it. -/
def quantify (quantifier : RegExp → RegExp) : Option Reader :=
  reader.group.atom.map fun atom =>
    ⟨.quantified, { reader.group with
      terms := .sequence reader.group.terms (quantifier atom), atom := none }, reader.outer⟩

/-- A group begins. -/
def openGroup : Reader := ⟨.plain, .opened, reader.group :: reader.outer⟩

/-- The group becomes an atom of the one around it. -/
def closeGroup : Option Reader :=
  match reader.outer with
  | [] => none
  | outer :: rest => some ⟨.plain, outer.addAtom reader.group.disjunction, rest⟩

/-- A code unit where a term may start. -/
def term (unit : UInt16) : Option Reader :=
  if unit = code '\\' then some { reader with mode := .escaped }
  else if unit = code '^' then some (reader.assertion .start)
  else if unit = code '$' then some (reader.assertion .finish)
  else if unit = code '.' then some (reader.atom .any)
  else if unit = code '*' then reader.quantify .star
  else if unit = code '+' then reader.quantify fun atom => .sequence atom (.star atom)
  else if unit = code '?' then reader.quantify fun atom => .either atom .empty
  else if unit = code '(' then some { reader with mode := .opened }
  else if unit = code ')' then reader.closeGroup
  else if unit = code '|' then some { reader with mode := .plain, group := reader.group.alternative }
  else if unit = code '[' then some { reader with mode := .members [] false }
  else if unit = code ']' ∨ unit = code '{' ∨ unit = code '}' then none
  else some (reader.atom (.literal unit))

/-- A code unit of a class. A hyphen is a member at the ends of the class. -/
def member (characters : List UInt16) (hyphen : Bool) (unit : UInt16) : Option Reader :=
  if unit = code ']' then
    some (reader.atom (.oneOf (if hyphen then characters ++ [code '-'] else characters)))
  else if hyphen ∨ unit = code '\\' ∨ unit = code '^' then none
  else if unit = code '-' ∧ characters ≠ [] then
    some { reader with mode := .members characters true }
  else some { reader with mode := .members (characters ++ [unit]) false }

/-- One unit of the source is read. -/
def step (unit : UInt16) : Option Reader :=
  match reader.mode with
  | .plain => reader.term unit
  | .quantified =>
    if unit = code '?' then some { reader with mode := .plain } else reader.term unit
  | .escaped =>
    if unit ∈ syntaxUnits ∨ unit = code '/' then some (reader.atom (.literal unit)) else none
  | .opened =>
    if unit = code '?' then some { reader with mode := .marked } else reader.openGroup.term unit
  | .marked => if unit = code ':' then some reader.openGroup else none
  | .members characters hyphen => reader.member characters hyphen unit

/-- The pattern at the end of the text. -/
def finish : Option RegExp :=
  match reader.mode, reader.outer with
  | .plain, [] => some reader.group.disjunction
  | .quantified, [] => some reader.group.disjunction
  | _, _ => none

end Reader

/-- Any other code unit stands for itself. -/
theorem Reader.term_literal (reader : Reader) {unit : UInt16} (plain : unit ∉ syntaxUnits) :
    reader.term unit = some (reader.atom (.literal unit)) := by
  have other : ∀ special ∈ syntaxUnits, unit ≠ special := fun special member same =>
    plain (same ▸ member)
  have last : ¬ (unit = code ']' ∨ unit = code '\x7b' ∨ unit = code '\x7d') := by
    rintro (same | same | same)
    · exact other _ (by decide) same
    · exact other _ (by decide) same
    · exact other _ (by decide) same
  rw [term, if_neg (other (code '\\') (by decide)), if_neg (other (code '^') (by decide)),
    if_neg (other (code '$') (by decide)), if_neg (other (code '.') (by decide)),
    if_neg (other (code '*') (by decide)), if_neg (other (code '+') (by decide)),
    if_neg (other (code '?') (by decide)), if_neg (other (code '(') (by decide)),
    if_neg (other (code ')') (by decide)), if_neg (other (code '|') (by decide)),
    if_neg (other (code '[') (by decide)), if_neg last]

/-- The pattern of `new RegExp(text)`, where it does not throw. -/
def parse (text : JsString) : Option RegExp :=
  (text.foldlM Reader.step ⟨.plain, .opened, []⟩).bind Reader.finish

end OpencodePty.RegExpPatterns
