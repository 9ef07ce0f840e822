import Mathlib.Data.List.Lex
import Mathlib.Data.List.Sort
import OpencodePty.JsValues

/-!
# The environment of a Windows child

The worker has the environment as a map and looks names up ignoring the case of ASCII letters. For
the child it writes the entries to one block, sorted by name, and refuses names that Windows would
take for the same.
-/

namespace OpencodePty.WindowsEnvironment

open OpencodePty.JsValues

/-- The entries of a map with text keys, in their order. -/
abbrev Environment := List (List Char × List Char)

/-- `to_ascii_uppercase` -/
def toAsciiUppercase (text : List Char) : List Char := text.map Char.toUpper

/-- `eq_ignore_ascii_case` -/
def eqIgnoreAsciiCase (left right : List Char) : Bool :=
  toAsciiUppercase left == toAsciiUppercase right

/-- `windows_environment_value` -/
def windowsEnvironmentValue (env : Environment) (name : List Char) : Option (List Char) :=
  (env.find? fun entry => eqIgnoreAsciiCase entry.1 name).map Prod.snd

def isAscii (text : List Char) : Bool := text.all fun character => character.toNat < 128

/-- An entry that the block can hold. -/
def validEntry (entry : List Char × List Char) : Bool :=
  !entry.1.isEmpty && isAscii entry.1 && !entry.1.contains '=' &&
    !(encode entry.1).contains 0 && !(encode entry.2).contains 0

/-- The order of the block: by the name in upper case, then by the name. -/
def entryLe (left right : List Char × List Char) : Bool :=
  toAsciiUppercase left.1 < toAsciiUppercase right.1 ||
    toAsciiUppercase left.1 == toAsciiUppercase right.1 && left.1 ≤ right.1

def entryText (entry : List Char × List Char) : List UInt16 :=
  encode (entry.1 ++ '=' :: entry.2) ++ [0]

/-- The loop over the sorted entries, behind an entry with a given name. -/
def writeBlock : Option (List Char) → Environment → Except (List Char) (List UInt16)
  | _, [] => .ok [0]
  | previous, entry :: rest =>
    if previous.any (eqIgnoreAsciiCase · entry.1) then
      .error ("duplicate Windows environment key: ".toList ++ entry.1)
    else (writeBlock (some entry.1) rest).map (entryText entry ++ ·)

/-- `windows_environment` -/
def windowsEnvironment (env : Environment) : Except (List Char) (List UInt16) :=
  if env.all validEntry then writeBlock none (env.mergeSort entryLe)
  else .error "invalid Windows environment entry".toList

end OpencodePty.WindowsEnvironment
