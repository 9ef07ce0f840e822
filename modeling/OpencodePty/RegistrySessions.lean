import OpencodePty.SessionRegistry

/-!
# Agreement of the session tables

The maps from owners to sessions and back are inverse to each other, for slots and for
records, and the retained output is the sum of what the sessions are charged with, in
total and for each owner. Each function on the tables keeps this, and so does building
them from the records of a data directory.
-/

namespace OpencodePty.SessionRegistry

open OpencodePty.KeyedMaps

/-- What holds of the tables of sessions between two calls. -/
structure SessionTables.Consistent (tables : SessionTables) : Prop where
  slots : Inverse tables.ownerSlots tables.slotOwnerBySessionId
  records : Inverse tables.recordsByOwner tables.recordOwnerBySessionId
  slotRecord : ∀ id key, tables.slotOwnerBySessionId.lookup id = some key →
    tables.recordOwnerBySessionId.lookup id = some key
  named : ∀ id key, tables.recordOwnerBySessionId.lookup id = some key → key ≠ ""
  sessionTotal : tables.outputTotal = total tables.outputBySessionId
  ownerTotal : tables.outputTotal = total tables.outputByOwner
  ownerSum : ∀ key, amount tables.outputByOwner key =
    ∑ id ∈ members tables.recordsByOwner key, amount tables.outputBySessionId id
  unowned : ∀ id, tables.recordOwnerBySessionId.lookup id = none →
    amount tables.outputBySessionId id = 0
  charged : ∀ id, 0 ≤ amount tables.outputBySessionId id

/-- Forget the record of a session. -/
def SessionTables.dropRecord (tables : SessionTables) (id key : String) : SessionTables :=
  { tables with
    recordsByOwner := removeMember tables.recordsByOwner key id
    recordOwnerBySessionId := tables.recordOwnerBySessionId.erase id }

/-- The name of an owner is never empty. -/
theorem ownerKey_named (record : SessionRecord) : ownerKey record ≠ "" := by
  intro empty
  have length := congrArg String.length empty
  simp [ownerKey, String.length_append] at length

namespace SessionTables.Consistent

variable {tables : SessionTables} (consistent : tables.Consistent)

include consistent

/-- The owner of a record is looked up as the table has it. -/
theorem known_record (id : String) :
    known tables.recordOwnerBySessionId id = tables.recordOwnerBySessionId.lookup id := by
  unfold known
  cases found : tables.recordOwnerBySessionId.lookup id with
  | none => rfl
  | some key => simp [Option.filter, consistent.named id key found]

/-- The owner of a slot is looked up as the table has it. -/
theorem known_slot (id : String) :
    known tables.slotOwnerBySessionId id = tables.slotOwnerBySessionId.lookup id := by
  unfold known
  cases found : tables.slotOwnerBySessionId.lookup id with
  | none => rfl
  | some key =>
    have named := consistent.named id key (consistent.slotRecord id key found)
    simp [Option.filter, named]

/-- A record without an owner is given one. It is charged with nothing yet. -/
theorem addRecord {id key : String} (fresh : tables.recordOwnerBySessionId.lookup id = none)
    (named : key ≠ "") : (tables.addRecord id key).Consistent where
  slots := consistent.slots
  records := consistent.records.add key fresh
  slotRecord := by
    intro other owner slot
    have recorded := consistent.slotRecord other owner slot
    have different : other ≠ id := by
      intro same
      rw [same, fresh] at recorded
      simp at recorded
    rw [SessionTables.addRecord, Finmap.lookup_insert_of_ne _ different]
    exact recorded
  named := by
    intro other owner recorded
    by_cases same : other = id
    · rw [same, SessionTables.addRecord, Finmap.lookup_insert, Option.some_inj] at recorded
      rwa [← recorded]
    · rw [SessionTables.addRecord, Finmap.lookup_insert_of_ne _ same] at recorded
      exact consistent.named other owner recorded
  sessionTotal := consistent.sessionTotal
  ownerTotal := consistent.ownerTotal
  ownerSum := by
    intro owner
    have absent : id ∉ members tables.recordsByOwner key := by
      rw [consistent.records, fresh]
      simp
    simp only [SessionTables.addRecord, members_addMember, consistent.ownerSum]
    by_cases same : owner = key
    · rw [if_pos same, Finset.sum_insert absent, consistent.unowned id fresh, same, zero_add]
    · rw [if_neg same]
  unowned := by
    intro other missing
    have different : other ≠ id := by
      intro same
      rw [same, SessionTables.addRecord, Finmap.lookup_insert] at missing
      simp at missing
    rw [SessionTables.addRecord, Finmap.lookup_insert_of_ne _ different] at missing
    exact consistent.unowned other missing
  charged := consistent.charged

/-- A recorded session without a slot takes one. -/
theorem addActive {id key : String} (free : tables.slotOwnerBySessionId.lookup id = none)
    (owned : tables.recordOwnerBySessionId.lookup id = some key) :
    (tables.addActive id key).Consistent where
  slots := consistent.slots.add key free
  records := consistent.records
  slotRecord := by
    intro other owner slot
    by_cases same : other = id
    · rw [same, SessionTables.addActive, Finmap.lookup_insert, Option.some_inj] at slot
      rw [same, ← slot]
      exact owned
    · rw [SessionTables.addActive, Finmap.lookup_insert_of_ne _ same] at slot
      exact consistent.slotRecord other owner slot
  named := consistent.named
  sessionTotal := consistent.sessionTotal
  ownerTotal := consistent.ownerTotal
  ownerSum := consistent.ownerSum
  unowned := consistent.unowned
  charged := consistent.charged

/-- A recorded session is charged with another amount. -/
theorem setOutput {id key : String} {bytes : Int}
    (owned : tables.recordOwnerBySessionId.lookup id = some key) (positive : 0 ≤ bytes) :
    (tables.setOutput id key bytes).Consistent where
  slots := consistent.slots
  records := consistent.records
  slotRecord := consistent.slotRecord
  named := consistent.named
  sessionTotal := by
    simp only [SessionTables.setOutput]
    rw [total_store, consistent.sessionTotal]
  ownerTotal := by
    simp only [SessionTables.setOutput]
    rw [total_store, consistent.ownerTotal]
    ring
  ownerSum := by
    intro owner
    have others (other : String) (different : other ≠ id) :
        amount (store tables.outputBySessionId id bytes) other =
          amount tables.outputBySessionId other := by
      rw [amount_store, if_neg different]
    have member : id ∈ members tables.recordsByOwner owner ↔ key = owner := by
      rw [consistent.records, owned, Option.some_inj]
    simp only [SessionTables.setOutput]
    rw [sum_change id others, amount_store, amount_store, if_pos rfl]
    by_cases same : owner = key
    · rw [if_pos same, if_pos (member.mpr same.symm), same, consistent.ownerSum]
    · rw [if_neg same, if_neg fun inside => same (member.mp inside).symm, consistent.ownerSum,
        add_zero]
  unowned := by
    intro other missing
    have different : other ≠ id := by
      intro same
      change tables.recordOwnerBySessionId.lookup other = none at missing
      rw [same, owned] at missing
      simp at missing
    simp only [SessionTables.setOutput]
    rw [amount_store, if_neg different]
    exact consistent.unowned other missing
  charged := by
    intro other
    simp only [SessionTables.setOutput, amount_store]
    split
    · exact positive
    · exact consistent.charged other

/-- A slot is given back. -/
theorem releaseActive (id : String) : (tables.releaseActive id).Consistent := by
  unfold SessionTables.releaseActive
  rw [consistent.known_slot]
  cases owned : tables.slotOwnerBySessionId.lookup id with
  | none => exact consistent
  | some key =>
    exact
      { slots := consistent.slots.remove owned
        records := consistent.records
        slotRecord := by
          intro other owner slot
          have different : other ≠ id := by
            intro same
            rw [same, Finmap.lookup_erase] at slot
            simp at slot
          rw [Finmap.lookup_erase_ne different] at slot
          exact consistent.slotRecord other owner slot
        named := consistent.named
        sessionTotal := consistent.sessionTotal
        ownerTotal := consistent.ownerTotal
        ownerSum := consistent.ownerSum
        unowned := consistent.unowned
        charged := consistent.charged }

/-- A record that is charged with nothing and has no slot is dropped. -/
theorem dropRecord {id key : String} (free : tables.slotOwnerBySessionId.lookup id = none)
    (owned : tables.recordOwnerBySessionId.lookup id = some key)
    (nothing : amount tables.outputBySessionId id = 0) :
    (tables.dropRecord id key).Consistent where
  slots := consistent.slots
  records := consistent.records.remove owned
  slotRecord := by
    intro other owner slot
    have different : other ≠ id := by
      intro same
      rw [same, SessionTables.dropRecord, free] at slot
      simp at slot
    rw [SessionTables.dropRecord, Finmap.lookup_erase_ne different]
    exact consistent.slotRecord other owner slot
  named := by
    intro other owner recorded
    have different : other ≠ id := by
      intro same
      rw [same, SessionTables.dropRecord, Finmap.lookup_erase] at recorded
      simp at recorded
    rw [SessionTables.dropRecord, Finmap.lookup_erase_ne different] at recorded
    exact consistent.named other owner recorded
  sessionTotal := consistent.sessionTotal
  ownerTotal := consistent.ownerTotal
  ownerSum := by
    intro owner
    simp only [SessionTables.dropRecord, members_removeMember]
    by_cases same : owner = key
    · rw [if_pos same, Finset.sum_erase _ nothing, same]
      exact consistent.ownerSum key
    · rw [if_neg same]
      exact consistent.ownerSum owner
  unowned := by
    intro other missing
    by_cases same : other = id
    · rw [same]
      exact nothing
    · rw [SessionTables.dropRecord, Finmap.lookup_erase_ne same] at missing
      exact consistent.unowned other missing
  charged := consistent.charged

end SessionTables.Consistent

namespace SessionTables

variable (tables : SessionTables) (id : String)

/-- A slot that is given back leaves the records. -/
@[simp] theorem releaseActive_recordsByOwner :
    (tables.releaseActive id).recordsByOwner = tables.recordsByOwner := by
  unfold releaseActive
  split <;> rfl

/-- A slot that is given back leaves the owners of records. -/
@[simp] theorem releaseActive_recordOwner :
    (tables.releaseActive id).recordOwnerBySessionId = tables.recordOwnerBySessionId := by
  unfold releaseActive
  split <;> rfl

/-- A slot that is given back leaves the output of each session. -/
@[simp] theorem releaseActive_outputBySessionId :
    (tables.releaseActive id).outputBySessionId = tables.outputBySessionId := by
  unfold releaseActive
  split <;> rfl

/-- A slot that is given back leaves the output of each owner. -/
@[simp] theorem releaseActive_outputByOwner :
    (tables.releaseActive id).outputByOwner = tables.outputByOwner := by
  unfold releaseActive
  split <;> rfl

/-- A slot that is given back leaves the output of all. -/
@[simp] theorem releaseActive_outputTotal :
    (tables.releaseActive id).outputTotal = tables.outputTotal := by
  unfold releaseActive
  split <;> rfl

@[simp] theorem setOutput_recordOwner (key : String) (bytes : Int) :
    (tables.setOutput id key bytes).recordOwnerBySessionId = tables.recordOwnerBySessionId := rfl

end SessionTables

namespace SessionTables.Consistent

variable {tables : SessionTables} (consistent : tables.Consistent)

include consistent

/-- A slot that is given back is free. -/
theorem releaseActive_free (id : String) :
    (tables.releaseActive id).slotOwnerBySessionId.lookup id = none := by
  unfold SessionTables.releaseActive
  rw [consistent.known_slot]
  cases owned : tables.slotOwnerBySessionId.lookup id with
  | none => exact owned
  | some key => exact Finmap.lookup_erase _ _

/-- A session without a record has no slot. -/
theorem slot_free {id : String} (missing : tables.recordOwnerBySessionId.lookup id = none) :
    tables.slotOwnerBySessionId.lookup id = none := by
  cases slot : tables.slotOwnerBySessionId.lookup id with
  | none => rfl
  | some key =>
    rw [consistent.slotRecord id key slot] at missing
    simp at missing

/-- Nothing is released of a session that is not recorded. -/
theorem release_unowned {id : String} (missing : tables.recordOwnerBySessionId.lookup id = none) :
    tables.release id = tables := by
  have free := consistent.slot_free missing
  have unchanged : tables.releaseActive id = tables := by
    unfold SessionTables.releaseActive
    rw [consistent.known_slot, free]
  rw [SessionTables.release, unchanged, SessionTables.releaseRecord, consistent.known_record,
    missing]

/-- Of a recorded session the slot, the charge and the record are released. -/
theorem release_owned {id key : String}
    (owned : tables.recordOwnerBySessionId.lookup id = some key) :
    tables.release id = ((tables.releaseActive id).setOutput id key 0).dropRecord id key := by
  have found : known (tables.releaseActive id).recordOwnerBySessionId id = some key := by
    rw [releaseActive_recordOwner, consistent.known_record, owned]
  rw [SessionTables.release, SessionTables.releaseRecord, found]
  rfl

/-- To give back all keeps the tables consistent. -/
theorem release (id : String) : (tables.release id).Consistent := by
  cases owned : tables.recordOwnerBySessionId.lookup id with
  | none =>
    rw [consistent.release_unowned owned]
    exact consistent
  | some key =>
    rw [consistent.release_owned owned]
    have recorded : (tables.releaseActive id).recordOwnerBySessionId.lookup id = some key := by
      rw [releaseActive_recordOwner, owned]
    have uncharged := (consistent.releaseActive id).setOutput recorded (le_refl 0)
    refine uncharged.dropRecord (consistent.releaseActive_free id) recorded ?_
    simp [SessionTables.setOutput, amount_store]

/-- To count output keeps the tables consistent. -/
theorem updateOutput (darwin : Bool) (record : SessionRecord) (positive : 0 ≤ record.outputBytes) :
    (tables.updateOutput darwin record).Consistent := by
  unfold SessionTables.updateOutput
  rw [consistent.known_record]
  cases owned : tables.recordOwnerBySessionId.lookup record.id with
  | none => exact consistent
  | some key =>
    refine consistent.setOutput owned ?_
    unfold outputReservation
    split
    · exact le_max_of_le_right positive
    · exact positive

/-- To give back a slot that is settled keeps the tables consistent. -/
theorem releaseIfSettled (darwin : Bool) (record : SessionRecord)
    (positive : 0 ≤ record.outputBytes) :
    (tables.releaseIfSettled darwin record).Consistent := by
  unfold SessionTables.releaseIfSettled
  split
  · exact consistent.updateOutput darwin record positive
  · exact (consistent.releaseActive record.id).updateOutput darwin record positive

/-- A record that is new to the tables is added, with or without a slot. -/
theorem admits (darwin active : Bool) {record : SessionRecord}
    (fresh : tables.recordOwnerBySessionId.lookup record.id = none)
    (positive : 0 ≤ record.outputBytes) :
    SessionTables.Consistent
      ((if active then (tables.addRecord record.id (ownerKey record)).addActive record.id
          (ownerKey record)
        else tables.addRecord record.id (ownerKey record)).setOutput record.id (ownerKey record)
          (outputReservation darwin record)) := by
  have added := consistent.addRecord fresh (ownerKey_named record)
  have owned : (tables.addRecord record.id (ownerKey record)).recordOwnerBySessionId.lookup
      record.id = some (ownerKey record) := Finmap.lookup_insert _
  have charge : 0 ≤ outputReservation darwin record := by
    unfold outputReservation
    split
    · exact le_max_of_le_right positive
    · exact positive
  cases active with
  | false => exact added.setOutput owned charge
  | true =>
    have free : (tables.addRecord record.id (ownerKey record)).slotOwnerBySessionId.lookup
        record.id = none := consistent.slot_free fresh
    exact (added.addActive free owned).setOutput owned charge

end SessionTables.Consistent

/-- A reservation succeeds when no limit stands against it; the record is then admitted
with a slot. -/
theorem reserve_cases (tables : SessionTables) (limits : SessionLimits) (darwin : Bool)
    (maxSessionsPerOwner : Nat) (record : SessionRecord) :
    (∃ failure, tables.reserve limits darwin maxSessionsPerOwner record = (.error failure, tables)) ∨
    tables.reserveError limits darwin maxSessionsPerOwner record = none ∧
      tables.reserve limits darwin maxSessionsPerOwner record =
        (.ok ⟨record.id, ownerKey record, .reserved⟩,
          ((tables.addRecord record.id (ownerKey record)).addActive record.id
            (ownerKey record)).setOutput record.id (ownerKey record)
              (outputReservation darwin record)) := by
  unfold SessionTables.reserve
  cases failed : tables.reserveError limits darwin maxSessionsPerOwner record with
  | some failure => exact .inl ⟨failure, rfl⟩
  | none => exact .inr ⟨rfl, rfl⟩

end OpencodePty.SessionRegistry
