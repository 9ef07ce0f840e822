/-!
# Files that are replaced by a rename

The new contents of a file are written to a temporary one beside it, which is then renamed. A write
that throws before the rename leaves the file alone. One that throws after it has replaced the file.
-/

namespace OpencodePty.AtomicFiles

universe u
variable {α : Type u}

/-- The operations of a write, in their order. -/
inductive Operation where
  | openTemporary
  | writeFile
  | sync
  | close
  | rename
  | privateFile
  | syncDirectory
  deriving DecidableEq

/-- The operations that throw. -/
abbrev Faults := Operation → Bool

/-- Everything goes well. -/
def Faults.none : Faults := fun _ => false

/-- One operation throws. -/
def Faults.only (operation : Operation) : Faults := fun other => other = operation

/-- `writeAtomicNow`: what the file holds afterwards, and whether the write returns. -/
def writeAtomicNow (faults : Faults) (contents file : α) : α × Bool :=
  if faults .openTemporary then (file, false)
  else
    let written := !faults .writeFile && !faults .sync
    -- The handle is closed in any case.
    if faults .close || !written then (file, false)
    else if faults .rename then (file, false)
    else if faults .privateFile then (contents, false)
    else (contents, !faults .syncDirectory)

/-- The write gets as far as the rename. -/
def Faults.replaces (faults : Faults) : Bool :=
  !(faults .openTemporary || faults .writeFile || faults .sync || faults .close || faults .rename)

/-- The write throws nowhere. -/
def Faults.returns (faults : Faults) : Bool :=
  faults.replaces && !faults .privateFile && !faults .syncDirectory

theorem Faults.returns_none : Faults.none.returns = true := rfl

theorem writeAtomicNow_eq (faults : Faults) (contents file : α) :
    writeAtomicNow faults contents file =
      (if faults.replaces then contents else file, faults.returns) := by
  unfold writeAtomicNow Faults.returns Faults.replaces
  cases faults .openTemporary <;> cases faults .writeFile <;> cases faults .sync <;>
    cases faults .close <;> cases faults .rename <;> cases faults .privateFile <;> rfl

/-- A write that returns has replaced the file. -/
theorem Faults.replaces_of_returns {faults : Faults} (returned : faults.returns = true) :
    faults.replaces = true := by
  unfold Faults.returns at returned
  simp only [Bool.and_eq_true] at returned
  exact returned.1.1

end OpencodePty.AtomicFiles
