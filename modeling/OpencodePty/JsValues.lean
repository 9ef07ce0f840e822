import Mathlib.Algebra.GroupWithZero.Nat
import Mathlib.Data.List.Basic
import Mathlib.Data.Char

/-!
# Dynamic values as a JavaScript program reads them

A value that comes from `JSON.parse` has no static type: a field may be absent,
may hold a value of any shape, and may be an object whose conversion to a string
fails. These definitions fix the parts of that behavior on which a decoder of
untyped records depends: property reads, truthiness, strict comparison with a
literal, `String(value)`, UTF-8 lengths of UTF-16 strings, and a sequence of
checks that stops at the first one that fails or raises.

An absent property and one that holds `undefined` are the same thing here, as
they are after `JSON.stringify`. Objects are association lists and the first
binding of a key counts. Negative zero is zero, and the numbers that no checked
field accepts (fractions, infinities) are kept only by their bits.
-/

namespace OpencodePty.JsValues

/-- A string is its sequence of UTF-16 code units; it need not be well formed. -/
abbrev JsString := List UInt16

/-- The code units of one Unicode scalar value. -/
def encodeChar (character : Char) : JsString :=
  if character.toNat < 0x10000 then [character.toNat.toUInt16]
  else [(0xd800 + (character.toNat - 0x10000) / 0x400).toUInt16,
    (0xdc00 + (character.toNat - 0x10000) % 0x400).toUInt16]

/-- The string that holds the given text. -/
def encode (text : List Char) : JsString := text.flatMap encodeChar

/-- A string literal of the program. -/
def js (literal : String) : JsString := encode literal.toList

def isHighSurrogate (unit : UInt16) : Bool := 0xd800 ≤ unit && unit ≤ 0xdbff

def isLowSurrogate (unit : UInt16) : Bool := 0xdc00 ≤ unit && unit ≤ 0xdfff

/-- Bytes of the UTF-8 form of a code unit outside a surrogate pair. A lone
surrogate is written as the three bytes of U+FFFD. -/
def unitBytes (unit : UInt16) : Nat :=
  if unit < 0x80 then 1 else if unit < 0x800 then 2 else 3

/-- `Buffer.byteLength`: the length of the UTF-8 form of a string. -/
def byteLength : JsString → Nat
  | [] => 0
  | [unit] => unitBytes unit
  | high :: low :: rest =>
    if isHighSurrogate high && isLowSurrogate low then 4 + byteLength rest
    else unitBytes high + byteLength (low :: rest)

/-- `validText`: no surrogate stands alone. -/
def validText : JsString → Bool
  | [] => true
  | [unit] => !(isHighSurrogate unit || isLowSurrogate unit)
  | high :: low :: rest =>
    if isHighSurrogate high && isLowSurrogate low then validText rest
    else !(isHighSurrogate high || isLowSurrogate high) && validText (low :: rest)

/-- The number of code points that iterating over a string yields. -/
def codePoints : JsString → Nat
  | [] => 0
  | [_] => 1
  | high :: low :: rest =>
    if isHighSurrogate high && isLowSurrogate low then 1 + codePoints rest
    else 1 + codePoints (low :: rest)

/-- A number is an integer, or one of the doubles that are none. -/
inductive JsNumber where
  | integer (value : Int)
  | other (bits : UInt64)
deriving DecidableEq

/-- The largest integer `n` such that `n` and `n + 1` are both exact doubles. -/
def maxSafeInteger : Nat := 2 ^ 53 - 1

/-- `Number.isSafeInteger`. -/
def JsNumber.isSafeInteger : JsNumber → Bool
  | .integer value => value.natAbs ≤ maxSafeInteger
  | .other _ => false

inductive Js where
  | null
  | bool (value : Bool)
  | num (value : JsNumber)
  | str (value : JsString)
  | arr (items : List Js)
  | obj (fields : List (String × Js))

namespace Js

/-- A string value holding the given literal. -/
def text (literal : String) : Js := .str (js literal)

/-- An exact integer value. -/
def int (value : Int) : Js := .num (.integer value)

/-- A property read on a value that is an object. Nothing read here is a property
that arrays or the primitive types inherit. -/
def get : Js → String → Option Js
  | .obj fields, key => fields.lookup key
  | _, _ => none

/-- `typeof value === 'object'` for a value that is not `null`. -/
def isObject : Js → Bool
  | .arr _ | .obj _ => true
  | _ => false

def truthy : Js → Bool
  | .null => false
  | .bool value => value
  | .num (.integer value) => value != 0
  | .num (.other _) => true
  | .str value => !value.isEmpty
  | .arr _ | .obj _ => true

mutual

/-- `String(value)` returns. An object that has a `toString` of its own is not
convertible: a parsed value is never callable, and the inherited `valueOf` returns
the object itself. An array is converted item by item. -/
def coercible : Js → Bool
  | .obj fields => (fields.lookup "toString").isNone
  | .arr items => coercibleItems items
  | _ => true

def coercibleItems : List Js → Bool
  | [] => true
  | item :: rest => item.coercible && coercibleItems rest

end

/-- `String(value) === name`, for a name without a comma that is no rendering of
`null`, a boolean, a number or an object. A list of one item renders as that item
does, and any longer list has a comma. -/
def coercesTo (name : String) : Js → Bool
  | .str value => value == js name
  | .arr [item] => coercesTo name item
  | _ => false

end Js

/-- A property read that passes over `undefined` and `null`. -/
def field (value : Option Js) (key : String) : Option Js := value.bind (·.get key)

/-- Truthiness of a property that may be absent. -/
def truthy (value : Option Js) : Bool := value.any Js.truthy

/-- The value, or nothing where it is falsy: `...(value ? { key: value } : {})`. -/
def whenTruthy (value : Option Js) : Option Js := value.filter Js.truthy

/-- `value ?? fallback`. -/
def orElse (value fallback : Option Js) : Option Js :=
  match value with
  | none | some .null => fallback
  | some present => some present

/-- `value === literal` for a string literal. -/
def isText (value : Option Js) (literal : String) : Bool :=
  match value with
  | some (.str present) => present == js literal
  | _ => false

theorem isText_iff {value : Option Js} {literal : String} :
    isText value literal = true ↔ value = some (.text literal) := by
  cases value with
  | none => simp [isText]
  | some present => cases present <;> simp [isText, Js.text]

/-- `value === literal` for a boolean literal. -/
def isBool (value : Option Js) (literal : Bool) : Bool :=
  match value with
  | some (.bool present) => present == literal
  | _ => false

theorem isBool_iff {value : Option Js} {literal : Bool} :
    isBool value literal = true ↔ value = some (.bool literal) := by
  cases value with
  | none => simp [isBool]
  | some present => cases present <;> simp [isBool]

/-- `value === literal` for an integer literal. -/
def isInt (value : Option Js) (literal : Int) : Bool :=
  match value with
  | some (.num (.integer present)) => present == literal
  | _ => false

theorem isInt_iff {value : Option Js} {literal : Int} :
    isInt value literal = true ↔ value = some (.int literal) := by
  cases value with
  | none => simp [isInt]
  | some present =>
    cases present with
    | num number => cases number <;> simp [isInt, Js.int]
    | _ => simp [isInt, Js.int]

/-- `typeof value === 'boolean'`. -/
def isBoolean (value : Option Js) : Bool :=
  match value with
  | some (.bool _) => true
  | _ => false

/-- A non-null value of type `object`. -/
def isObject (value : Option Js) : Bool := value.any Js.isObject

/-- `names.includes(value)`. -/
def isOneOf (value : Option Js) (names : List String) : Bool := names.any (isText value)

/-- `names.includes(String(value))`, where the conversion returns. -/
def coercesToOneOf (value : Option Js) (names : List String) : Bool :=
  names.any (fun name => value.any (Js.coercesTo name))

/-- `String(value)` returns; `undefined` is converted like any primitive. -/
def coercible (value : Option Js) : Bool := value.all Js.coercible

/-- `left === right`. Two objects that were parsed are never the same one. -/
def same (left right : Option Js) : Bool :=
  match left, right with
  | none, none | some .null, some .null => true
  | some (.bool first), some (.bool second) => first == second
  | some (.num first), some (.num second) => first == second
  | some (.str first), some (.str second) => first == second
  | _, _ => false

/-- One check of a decoder: whether its evaluation raises, and whether it passes where it
does not. -/
structure Check where
  raises : Bool
  passes : Bool

/-- A check that cannot raise. -/
def plain (passes : Bool) : Check := ⟨false, passes⟩

/-- Checks that are evaluated in order until one raises or fails. Nothing is returned where
one raises. -/
def runChecks : List Check → Option Bool
  | [] => some true
  | check :: rest =>
    if check.raises then none else if check.passes then runChecks rest else some false

/-- All checks pass just if each one does, without raising. -/
theorem runChecks_passes (checks : List Check) :
    runChecks checks = some true ↔ ∀ check ∈ checks, check.raises = false ∧ check.passes = true := by
  induction checks with
  | nil => simp [runChecks]
  | cons check rest inductionHypothesis =>
    rw [runChecks, List.forall_mem_cons, ← inductionHypothesis]
    cases check.raises <;> cases check.passes <;> simp

theorem runChecks_append (first second : List Check) :
    runChecks (first ++ second) = some true ↔
      runChecks first = some true ∧ runChecks second = some true := by
  simp only [runChecks_passes, List.forall_mem_append]

theorem runChecks_cons (raises passes : Bool) (rest : List Check) :
    runChecks (⟨raises, passes⟩ :: rest) = some true ↔
      raises = false ∧ passes = true ∧ runChecks rest = some true := by
  simp only [runChecks_passes, List.forall_mem_cons, and_assoc]

theorem runChecks_plain (passes : Bool) (rest : List Check) :
    runChecks (plain passes :: rest) = some true ↔
      passes = true ∧ runChecks rest = some true := by
  rw [plain, runChecks_cons]
  simp

/-- Checks none of which raises have a result. -/
theorem runChecks_returns {checks : List Check} (safe : ∀ check ∈ checks, check.raises = false) :
    runChecks checks ≠ none := by
  induction checks with
  | nil => simp [runChecks]
  | cons check rest inductionHypothesis =>
    obtain ⟨first, others⟩ := List.forall_mem_cons.mp safe
    simp only [runChecks, first, Bool.false_eq_true, if_false]
    split
    · exact inductionHypothesis others
    · simp

/-- The object with the defined ones of the listed properties. -/
def record (fields : List (String × Option Js)) : Js :=
  .obj (fields.filterMap (fun entry => entry.2.map (entry.1, ·)))

/-- Reading a property of a built object finds what was listed for it, provided
no property is listed twice. -/
theorem get_record (fields : List (String × Option Js)) (key : String)
    (distinct : (fields.map Prod.fst).Nodup) :
    (record fields).get key = (fields.lookup key).join := by
  induction fields with
  | nil => rfl
  | cons entry rest inductionHypothesis =>
    obtain ⟨name, value⟩ := entry
    simp only [List.map_cons, List.nodup_cons] at distinct
    have tail := inductionHypothesis distinct.2
    simp only [record, Js.get] at tail ⊢
    by_cases same : key = name
    · subst same
      cases value with
      | some present => simp
      | none =>
        have absent : List.lookup key rest = none := by
          rw [List.lookup_eq_none_iff]
          intro pair member
          have different : pair.1 ≠ key := by
            rintro rfl
            exact distinct.1 (List.mem_map.mpr ⟨pair, member, rfl⟩)
          simpa using different.symm
        simpa [absent] using tail
    · have differs : (key == name) = false := by simpa using same
      cases value <;> simpa [List.lookup_cons, differs] using tail

/-- A computation that may fail and succeeded, taken apart. -/
theorem bind_ok {ε α β : Type} {first : Except ε α} {next : α → Except ε β} {result : β}
    (returned : (first >>= next) = .ok result) :
    ∃ value, first = .ok value ∧ next value = .ok result := by
  cases first with
  | error failure => cases returned
  | ok value => exact ⟨value, rfl, returned⟩

end OpencodePty.JsValues
