import OpencodePty.RegistryReservations
import OpencodePty.RegistrySessions

/-!
# Calls on the registry

What one call can do to each group of tables, and what every sequence of calls keeps: the
tables agree with each other and with the reservations that are outstanding. A call that
throws changes nothing. Session ids are distinct, since an id that is reserved twice could
be given to two owners.
-/

namespace OpencodePty.SessionRegistry

open OpencodePty.KeyedMaps

/-- What holds of the registry and its reservations between two calls. -/
structure World.Consistent (world : World) : Prop where
  sessions : world.registry.toSessionTables.Consistent
  waits : world.registry.toWaitTables.Consistent world.waits
  inputs : world.registry.toInputTables.Consistent world.inputs

/-- The record whose charge a call sets. -/
def Operation.charges : Operation → Option SessionRecord
  | .reserve record => some record
  | .releaseIfSettled record => some record
  | _ => none

/-- No output count that a call brings is above the record's limit. -/
def Operation.Bounded (operation : Operation) : Prop :=
  ∀ record, operation.charges = some record →
    record.outputBytes ≤ record.outputLimitBytes.getD maxOutputBytes

/-- A record keeps its output limit, and once found settled it stays settled and its
output does not grow. -/
def Operation.Steady (darwin : Bool) (earlier later : Operation) : Prop :=
  ∀ record next, earlier.charges = some record → later.charges = some next →
    record.id = next.id →
    next.outputLimitBytes = record.outputLimitBytes ∧
      (occupiesSlot darwin record = false →
        occupiesSlot darwin next = false ∧ next.outputBytes ≤ record.outputBytes)

instance (darwin : Bool) (earlier later : Operation) : Decidable (earlier.Steady darwin later) :=
  decidable_of_iff (∀ record ∈ earlier.charges, ∀ next ∈ later.charges, record.id = next.id →
      next.outputLimitBytes = record.outputLimitBytes ∧
        (occupiesSlot darwin record = false →
          occupiesSlot darwin next = false ∧ next.outputBytes ≤ record.outputBytes))
    ⟨fun steady record next first second => steady record first next second,
      fun steady record first next second => steady record next first second⟩

theorem SessionTables.Consistent.release_lookup {tables : SessionTables}
    (consistent : tables.Consistent) (id other : String) :
    (tables.release id).recordOwnerBySessionId.lookup other =
      if other = id then none else tables.recordOwnerBySessionId.lookup other := by
  cases owned : tables.recordOwnerBySessionId.lookup id with
  | none =>
    rw [consistent.release_unowned owned]
    split
    next same => rw [same, owned]
    next => rfl
  | some key =>
    rw [consistent.release_owned owned]
    simp only [SessionTables.dropRecord]
    rw [SessionTables.setOutput_recordOwner, SessionTables.releaseActive_recordOwner]
    split
    next same => rw [same, Finmap.lookup_erase]
    next different => rw [Finmap.lookup_erase_ne different]

end OpencodePty.SessionRegistry
