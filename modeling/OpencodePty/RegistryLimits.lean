import OpencodePty.SessionReservations

/-!
# Limits of the registry

From an empty registry no limit is exceeded, as long as what a record is charged with does
not grow: a record keeps its output limit, stays within it, and once settled stays settled
without more output. Only `releaseIfSettled` charges a session again after it was reserved,
so this is a condition on the records that it is called with.
-/

namespace OpencodePty.SessionRegistry

open OpencodePty.KeyedMaps

/-- No limit on sessions, records or retained output is exceeded. -/
structure SessionTables.Within (tables : SessionTables) (settings : Settings) : Prop where
  ownerActive : ∀ key, (members tables.ownerSlots key).card ≤ settings.maxSessionsPerOwner
  active : tables.slotOwnerBySessionId.keys.card ≤ settings.limits.maxActiveSessions
  ownerRecords : ∀ key,
    (members tables.recordsByOwner key).card ≤ settings.limits.maxRecordsPerOwner
  records : tables.recordOwnerBySessionId.keys.card ≤ settings.limits.maxRecords
  ownerOutput : ∀ key,
    amount tables.outputByOwner key ≤ settings.limits.maxRetainedOutputBytesPerOwner
  output : tables.outputTotal ≤ settings.limits.maxRetainedOutputBytes

/-- No limit on pending waits is exceeded. -/
structure WaitTables.Within (tables : WaitTables) (limits : SessionLimits) : Prop where
  session : ∀ id, (members tables.waitsBySession id).card ≤ limits.maxPendingWaitsPerSession
  owner : ∀ key, (members tables.waitsByOwner key).card ≤ limits.maxPendingWaitsPerOwner
  all : tables.waits.card ≤ limits.maxPendingWaits

/-- No limit on queued input is exceeded. -/
structure InputTables.Within (tables : InputTables) (limits : SessionLimits) : Prop where
  session : ∀ id, amount tables.inputBytesBySession id ≤ limits.maxQueuedInputBytesPerSession
  owner : ∀ key, amount tables.inputBytesByOwner key ≤ limits.maxQueuedInputBytesPerOwner
  all : tables.inputBytes ≤ limits.maxQueuedInputBytes

/-- There are no more members after one is removed. -/
theorem card_removeMember_le {ι : Type} [DecidableEq ι] (sets : Map String (Finset ι))
    (key other : String) (member : ι) :
    (members (removeMember sets key member) other).card ≤ (members sets other).card := by
  rw [members_removeMember]
  split
  next same =>
    rw [same]
    exact Finset.card_erase_le
  next => exact Nat.le_refl _

/-- A member is added to a set that has room for it, under its key. -/
theorem card_addMember_le {ι : Type} [DecidableEq ι] {sets : Map String (Finset ι)}
    {key : String} {limit : Nat} (room : (members sets key).card < limit)
    (within : ∀ other, (members sets other).card ≤ limit) (member : ι) (other : String) :
    (members (addMember sets key member) other).card ≤ limit := by
  rw [members_addMember]
  split
  · exact (Finset.card_insert_le _ _).trans room
  · exact within other

/-- There are at most as many keys as the limit, where there was room for one. -/
theorem card_insert_key_le {owners : Map String String} {limit : Nat}
    (room : owners.keys.card < limit) (id key : String) :
    (owners.insert id key).keys.card ≤ limit := by
  rw [keys_insert]
  exact (Finset.card_insert_le _ _).trans room

namespace SessionTables.Within

variable {tables : SessionTables} {settings : Settings} (within : tables.Within settings)

include within

/-- A slot that is given back leaves the tables within the limits. -/
theorem releaseActive (id : String) : (tables.releaseActive id).Within settings := by
  unfold SessionTables.releaseActive
  split
  · exact within
  · next key _ =>
    exact
      { ownerActive := fun other =>
          (card_removeMember_le _ _ _ _).trans (within.ownerActive other)
        active := by
          rw [Finmap.keys_erase]
          exact Finset.card_erase_le.trans within.active
        ownerRecords := within.ownerRecords
        records := within.records
        ownerOutput := within.ownerOutput
        output := within.output }

/-- A record that is dropped leaves the tables within the limits. -/
theorem dropRecord (id key : String) : (tables.dropRecord id key).Within settings where
  ownerActive := within.ownerActive
  active := within.active
  ownerRecords := fun other =>
    (card_removeMember_le _ _ _ _).trans (within.ownerRecords other)
  records := by
    rw [SessionTables.dropRecord, Finmap.keys_erase]
    exact Finset.card_erase_le.trans within.records
  ownerOutput := within.ownerOutput
  output := within.output

/-- Charging a session with no more than before stays within the limits. -/
theorem setOutput {id : String} (key : String) {bytes : Int}
    (less : bytes ≤ amount tables.outputBySessionId id) :
    (tables.setOutput id key bytes).Within settings where
  ownerActive := within.ownerActive
  active := within.active
  ownerRecords := within.ownerRecords
  records := within.records
  ownerOutput := by
    intro other
    have before := within.ownerOutput other
    simp only [SessionTables.setOutput, amount_store]
    split
    next same =>
      rw [← same]
      omega
    next => exact before
  output := by
    have before := within.output
    simp only [SessionTables.setOutput]
    omega

/-- To give back all leaves the tables within the limits. -/
theorem release (consistent : tables.Consistent) (id : String) :
    (tables.release id).Within settings := by
  cases owned : tables.recordOwnerBySessionId.lookup id with
  | none =>
    rw [consistent.release_unowned owned]
    exact within
  | some key =>
    rw [consistent.release_owned owned]
    refine ((within.releaseActive id).setOutput key ?_).dropRecord id key
    rw [releaseActive_outputBySessionId]
    exact consistent.charged id

/-- To give back a slot that is settled leaves the tables within the limits. -/
theorem releaseIfSettled (consistent : tables.Consistent) (record : SessionRecord)
    (less : ∀ key, tables.recordOwnerBySessionId.lookup record.id = some key →
      outputReservation settings.darwin record ≤ amount tables.outputBySessionId record.id) :
    (tables.releaseIfSettled settings.darwin record).Within settings := by
  have update {current : SessionTables} (limited : current.Within settings)
      (owners : current.recordOwnerBySessionId = tables.recordOwnerBySessionId)
      (charges : current.outputBySessionId = tables.outputBySessionId) :
      (current.updateOutput settings.darwin record).Within settings := by
    unfold SessionTables.updateOutput
    rw [owners, consistent.known_record]
    cases owned : tables.recordOwnerBySessionId.lookup record.id with
    | none => exact limited
    | some key =>
      refine limited.setOutput key ?_
      rw [charges]
      exact less key owned
  unfold SessionTables.releaseIfSettled
  split
  · exact update within rfl rfl
  · exact update (within.releaseActive record.id) (by simp) (by simp)

/-- A reservation that no check refuses stays within the limits. -/
theorem reserve (consistent : tables.Consistent) {record : SessionRecord}
    (fresh : tables.recordOwnerBySessionId.lookup record.id = none)
    (allowed : tables.reserveError settings.limits settings.darwin settings.maxSessionsPerOwner
      record = none) :
    (((tables.addRecord record.id (ownerKey record)).addActive record.id
      (ownerKey record)).setOutput record.id (ownerKey record)
        (outputReservation settings.darwin record)).Within settings := by
  simp only [SessionTables.reserveError, Bool.or_eq_true, decide_eq_true_eq] at allowed
  split at allowed
  · simp at allowed
  split at allowed
  · simp at allowed
  split at allowed
  · simp at allowed
  next sessions records output =>
  have uncharged := consistent.unowned record.id fresh
  have slotRoom : tables.slotOwnerBySessionId.keys.card < settings.limits.maxActiveSessions := by
    omega
  refine
    { ownerActive := card_addMember_le (by omega) within.ownerActive record.id
      active := card_insert_key_le slotRoom record.id (ownerKey record)
      ownerRecords := card_addMember_le (by omega) within.ownerRecords record.id
      records := card_insert_key_le (by omega) record.id (ownerKey record)
      ownerOutput := ?_
      output := ?_ }
  · intro other
    simp only [SessionTables.setOutput, SessionTables.addActive, SessionTables.addRecord,
      amount_store, uncharged]
    split
    · omega
    · exact within.ownerOutput other
  · simp only [SessionTables.setOutput, SessionTables.addActive, SessionTables.addRecord,
      uncharged]
    omega

end SessionTables.Within

/-- No limit of the registry is exceeded. -/
structure World.Within (world : World) (settings : Settings) : Prop where
  sessions : world.registry.toSessionTables.Within settings
  waits : world.registry.toWaitTables.Within settings.limits
  inputs : world.registry.toInputTables.Within settings.limits

/-- No later call charges a recorded session with more than it is charged with now. -/
def World.Settling (world : World) (darwin : Bool) (operations : List Operation) : Prop :=
  ∀ record, .releaseIfSettled record ∈ operations →
    ∀ key, world.registry.recordOwnerBySessionId.lookup record.id = some key →
      outputReservation darwin record ≤ amount world.registry.outputBySessionId record.id

/-- The tables of the registry agree with each other and with the reservations that are
outstanding. -/
structure World.Accounted (world : World) : Prop where
  slots : Inverse world.registry.ownerSlots world.registry.slotOwnerBySessionId
  records : Inverse world.registry.recordsByOwner world.registry.recordOwnerBySessionId
  sessionTotal : world.registry.outputTotal = total world.registry.outputBySessionId
  ownerTotal : world.registry.outputTotal = total world.registry.outputByOwner
  ownerSum : ∀ key, amount world.registry.outputByOwner key =
    ∑ id ∈ members world.registry.recordsByOwner key, amount world.registry.outputBySessionId id
  nonNegative : 0 ≤ world.registry.outputTotal
  sessionWaits : ∀ id, (members world.registry.waitsBySession id).card =
    world.waits.countP (WaitReservation.pendingIn id)
  ownerWaits : ∀ key, (members world.registry.waitsByOwner key).card =
    world.waits.countP (WaitReservation.pendingFor key)
  waits : world.registry.waits.card = world.waits.countP WaitReservation.pending
  sessionInput : ∀ id, amount world.registry.inputBytesBySession id =
    queued (fun reservation => reservation.sessionId = id) world.inputs
  ownerInput : ∀ key, amount world.registry.inputBytesByOwner key =
    queued (fun reservation => reservation.ownerKey = key) world.inputs
  input : world.registry.inputBytes = queued (fun _ => true) world.inputs

/-- Consistent tables account for every session. -/
theorem World.Consistent.accounted {world : World} (consistent : world.Consistent) :
    world.Accounted where
  slots := consistent.sessions.slots
  records := consistent.sessions.records
  sessionTotal := consistent.sessions.sessionTotal
  ownerTotal := consistent.sessions.ownerTotal
  ownerSum := consistent.sessions.ownerSum
  nonNegative := by
    rw [consistent.sessions.sessionTotal]
    exact total_nonneg consistent.sessions.charged
  sessionWaits := fun id => (consistent.waits.session id).card
  ownerWaits := fun key => (consistent.waits.owner key).card
  waits := consistent.waits.all.card
  sessionInput := consistent.inputs.session
  ownerInput := consistent.inputs.owner
  input := consistent.inputs.all

end OpencodePty.SessionRegistry
