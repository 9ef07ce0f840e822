import OpencodePty.RegistryCalls

/-!
# Reservations of sessions

A session is in the tables of its owner as long as its reservation is neither released nor the
session released by its id. No other session that was not there at the start is in the tables. Ids
are reserved once, so that what is released does not come back.
-/

namespace OpencodePty.SessionRegistry

open OpencodePty.KeyedMaps

/-- The session ids that a call releases by themselves. -/
def Operation.releases : Operation → List String
  | .release id => [id]
  | _ => []

/-- What the reservations of sessions say about the tables, where some sessions were there at the
start and some were released by their id. -/
structure World.Reserved (stored gone : List String) (world : World) : Prop where
  distinct : (world.sessions.map SessionReservation.id).Nodup
  held : ∀ reservation ∈ world.sessions, reservation.state ≠ .released → reservation.id ∉ gone →
    world.registry.recordOwnerBySessionId.lookup reservation.id = some reservation.ownerKey
  freed : ∀ reservation ∈ world.sessions, reservation.state = .released →
    world.registry.recordOwnerBySessionId.lookup reservation.id = none
  known : ∀ id key, world.registry.recordOwnerBySessionId.lookup id = some key →
    id ∈ stored ∨ ∃ reservation ∈ world.sessions,
      reservation.id = id ∧ reservation.ownerKey = key ∧ reservation.state ≠ .released

/-- A reservation whose state is changed keeps its id. -/
theorem map_set_id {sessions : List SessionReservation} {index : Nat}
    {reservation : SessionReservation} (found : sessions[index]? = some reservation)
    (state : ReservationState) :
    (sessions.set index { reservation with state := state }).map SessionReservation.id =
      sessions.map SessionReservation.id := by
  obtain ⟨inside, rfl⟩ := List.getElem?_eq_some_iff.mp found
  rw [List.map_set, ← List.getElem_map SessionReservation.id, List.set_getElem_self]
  simpa using inside

/-- After a change of a reservation, the others are those with another id. -/
theorem mem_set_iff {sessions : List SessionReservation} {index : Nat}
    {reservation : SessionReservation} (next other : SessionReservation)
    (distinct : (sessions.map SessionReservation.id).Nodup)
    (found : sessions[index]? = some reservation) :
    other ∈ sessions.set index next ↔
      other = next ∨ other ∈ sessions ∧ other.id ≠ reservation.id := by
  have inside := (List.getElem?_eq_some_iff.mp found).1
  constructor
  · intro member
    obtain ⟨position, there⟩ := List.mem_iff_getElem?.mp member
    by_cases here : index = position
    · rw [← here, List.getElem?_set_self inside] at there
      exact .inl (Option.some.inj there).symm
    · rw [List.getElem?_set_ne here] at there
      refine .inr ⟨List.mem_of_getElem? there, fun same => here ?_⟩
      refine (List.getElem?_inj (by simpa using inside) distinct).mp ?_
      rw [List.getElem?_map, List.getElem?_map, found, there, Option.map_some, Option.map_some, same]
  · rintro (rfl | ⟨member, different⟩)
    · exact List.mem_set inside other
    · obtain ⟨position, there⟩ := List.mem_iff_getElem?.mp member
      refine List.mem_iff_getElem?.mpr ⟨position, ?_⟩
      rw [List.getElem?_set_ne, there]
      rintro rfl
      exact different (congrArg SessionReservation.id (Option.some.inj (there.symm.trans found)))

section Calls

variable {stored gone : List String} {world : World}

/-- A new reservation is held. -/
theorem World.Reserved.add (reserved : world.Reserved stored gone) {next : World} {id key : String}
    (fresh : id ∉ world.sessions.map SessionReservation.id)
    (sessions : next.sessions = world.sessions ++ [⟨id, key, .reserved⟩])
    (owners : next.registry.recordOwnerBySessionId =
      world.registry.recordOwnerBySessionId.insert id key) : next.Reserved stored gone := by
  have other {reservation : SessionReservation} (member : reservation ∈ world.sessions) :
      reservation.id ≠ id := fun same => fresh (same ▸ List.mem_map_of_mem member)
  constructor
  · rw [sessions, List.map_append, List.nodup_append]
    refine ⟨reserved.distinct, List.nodup_singleton _, ?_⟩
    rintro former member _ added rfl
    rw [List.map_singleton, List.mem_singleton] at added
    subst added
    exact fresh member
  · intro reservation member unreleased kept
    rw [sessions, List.mem_append, List.mem_singleton] at member
    rw [owners]
    rcases member with member | rfl
    · rw [Finmap.lookup_insert_of_ne _ (other member)]
      exact reserved.held reservation member unreleased kept
    · exact Finmap.lookup_insert _
  · intro reservation member released
    rw [sessions, List.mem_append, List.mem_singleton] at member
    rw [owners]
    rcases member with member | rfl
    · rw [Finmap.lookup_insert_of_ne _ (other member)]
      exact reserved.freed reservation member released
    · cases released
  · intro wanted found owned
    rw [owners] at owned
    rw [sessions]
    by_cases same : wanted = id
    · subst same
      rw [Finmap.lookup_insert, Option.some_inj] at owned
      exact .inr ⟨_, List.mem_append_right _ (List.mem_singleton.mpr rfl), rfl, owned, nofun⟩
    · rw [Finmap.lookup_insert_of_ne _ same] at owned
      refine (reserved.known wanted found owned).imp_right ?_
      rintro ⟨reservation, member, facts⟩
      exact ⟨reservation, List.mem_append_left _ member, facts⟩

/-- A reservation that is committed is held as before. -/
theorem World.Reserved.commit (reserved : world.Reserved stored gone) {index : Nat}
    {reservation : SessionReservation} (found : world.sessions[index]? = some reservation)
    (live : reservation.state ≠ .released) :
    World.Reserved stored gone
      { world with sessions := world.sessions.set index { reservation with state := .committed } } := by
  have there := List.mem_of_getElem? found
  have member_iff := fun other =>
    mem_set_iff { reservation with state := .committed } other reserved.distinct found
  constructor
  · exact (congrArg List.Nodup (map_set_id found _)).mpr reserved.distinct
  · intro other member unreleased kept
    rcases (member_iff other).mp member with rfl | ⟨member, _⟩
    · exact reserved.held reservation there live kept
    · exact reserved.held other member unreleased kept
  · intro other member released
    rcases (member_iff other).mp member with rfl | ⟨member, _⟩
    · cases released
    · exact reserved.freed other member released
  · intro id key owned
    refine (reserved.known id key owned).imp_right ?_
    rintro ⟨other, member, rfl, rfl, unreleased⟩
    by_cases same : other.id = reservation.id
    · obtain rfl := List.inj_on_of_nodup_map reserved.distinct member there same
      exact ⟨_, (member_iff _).mpr (.inl rfl), rfl, rfl, nofun⟩
    · exact ⟨other, (member_iff other).mpr (.inr ⟨member, same⟩), rfl, rfl, unreleased⟩

/-- A session whose reservation is released is in the tables no more. -/
theorem World.Reserved.free (reserved : world.Reserved stored gone)
    (consistent : world.Consistent) {index : Nat} {reservation : SessionReservation}
    (found : world.sessions[index]? = some reservation) :
    World.Reserved stored gone
      { world with
        registry := { world.registry with
          toSessionTables := world.registry.toSessionTables.release reservation.id }
        sessions := world.sessions.set index { reservation with state := .released } } := by
  have member_iff := fun other =>
    mem_set_iff { reservation with state := .released } other reserved.distinct found
  have lookup := consistent.sessions.release_lookup reservation.id
  constructor
  · exact (congrArg List.Nodup (map_set_id found _)).mpr reserved.distinct
  · intro other member unreleased kept
    rcases (member_iff other).mp member with rfl | ⟨member, different⟩
    · exact absurd rfl unreleased
    · exact (lookup other.id).trans ((if_neg different).trans
        (reserved.held other member unreleased kept))
  · intro other member released
    rcases (member_iff other).mp member with rfl | ⟨member, different⟩
    · exact (lookup reservation.id).trans (if_pos rfl)
    · exact (lookup other.id).trans ((if_neg different).trans (reserved.freed other member released))
  · intro id key owned
    rw [lookup] at owned
    split at owned
    next => cases owned
    next different =>
      refine (reserved.known id key owned).imp_right ?_
      rintro ⟨other, member, rfl, facts⟩
      exact ⟨other, (member_iff other).mpr (.inr ⟨member, different⟩), rfl, facts⟩

/-- A session that is released by its id is in the tables no more. -/
theorem World.Reserved.drop (reserved : world.Reserved stored gone)
    (consistent : world.Consistent) (id : String) :
    World.Reserved stored (gone ++ [id])
      { world with
        registry := { world.registry with
          toSessionTables := world.registry.toSessionTables.release id } } := by
  have lookup := consistent.sessions.release_lookup id
  constructor
  · exact reserved.distinct
  · intro other member unreleased kept
    rw [List.mem_append, List.mem_singleton, not_or] at kept
    exact (lookup other.id).trans ((if_neg kept.2).trans
      (reserved.held other member unreleased kept.1))
  · intro other member released
    rw [lookup]
    split
    · rfl
    · exact reserved.freed other member released
  · intro other key owned
    rw [lookup] at owned
    split at owned
    · cases owned
    · exact reserved.known other key owned

/-- A call that leaves the owners of the sessions and the reservations changes nothing here. -/
theorem World.Reserved.same (reserved : world.Reserved stored gone) {next : World}
    (sessions : next.sessions = world.sessions)
    (owners : next.registry.recordOwnerBySessionId = world.registry.recordOwnerBySessionId) :
    next.Reserved stored gone := by
  refine ⟨?_, ?_, ?_, ?_⟩ <;> rw [sessions]
  · exact reserved.distinct
  · rw [owners]
    exact reserved.held
  · rw [owners]
    exact reserved.freed
  · rw [owners]
    exact reserved.known

/-- What a call does to the reservations of sessions and to the tables. -/
inductive Reserving (world : World) : Operation → World → Prop where
  | same {operation : Operation} {next : World} (silent : operation.releases = [])
      (sessions : next.sessions = world.sessions)
      (owners : next.registry.recordOwnerBySessionId = world.registry.recordOwnerBySessionId) :
      Reserving world operation next
  | adds {record : SessionRecord} {next : World}
      (sessions : next.sessions = world.sessions ++ [⟨record.id, ownerKey record, .reserved⟩])
      (owners : next.registry.recordOwnerBySessionId =
        world.registry.recordOwnerBySessionId.insert record.id (ownerKey record)) :
      Reserving world (.reserve record) next
  | commits {index : Nat} {reservation : SessionReservation}
      (found : world.sessions[index]? = some reservation) (live : reservation.state ≠ .released) :
      Reserving world (.commit index)
        { world with sessions := world.sessions.set index { reservation with state := .committed } }
  | frees {index : Nat} {reservation : SessionReservation}
      (found : world.sessions[index]? = some reservation) :
      Reserving world (.releaseReservation index)
        { world with
          registry := { world.registry with
            toSessionTables := world.registry.toSessionTables.release reservation.id }
          sessions := world.sessions.set index { reservation with state := .released } }
  | drops (id : String) :
      Reserving world (.release id)
        { world with
          registry := { world.registry with
            toSessionTables := world.registry.toSessionTables.release id } }

/-- One call keeps the reservations and the tables in agreement. -/
theorem Reserving.reserved {operation : Operation} {next : World}
    (reserving : Reserving world operation next) (consistent : world.Consistent)
    (reserved : world.Reserved stored gone)
    (fresh : ∀ record, operation = .reserve record →
      record.id ∉ world.sessions.map SessionReservation.id) :
    next.Reserved stored (gone ++ operation.releases) := by
  cases reserving with
  | same silent sessions owners =>
    rw [silent, List.append_nil]
    exact reserved.same sessions owners
  | adds sessions owners =>
    simp only [Operation.releases, List.append_nil]
    exact reserved.add (fresh _ rfl) sessions owners
  | commits found live =>
    simp only [Operation.releases, List.append_nil]
    exact reserved.commit found live
  | frees found =>
    simp only [Operation.releases, List.append_nil]
    exact reserved.free consistent found
  | drops id => exact reserved.drop consistent id

/-- A session is reserved by a call or was so before. -/
theorem Reserving.ids {operation : Operation} {next : World} {id : String}
    (reserving : Reserving world operation next)
    (member : id ∈ next.sessions.map SessionReservation.id) :
    id ∈ world.sessions.map SessionReservation.id ∨
      ∃ record, operation = .reserve record ∧ record.id = id := by
  cases reserving with
  | same _ sessions _ => exact .inl (sessions ▸ member)
  | @adds record _ sessions _ =>
    rw [sessions, List.map_append, List.mem_append, List.map_singleton, List.mem_singleton] at member
    exact member.imp_right fun same => ⟨record, rfl, same.symm⟩
  | commits found _ => exact .inl (map_set_id found .committed ▸ member)
  | frees found => exact .inl (map_set_id found .released ▸ member)
  | drops _ => exact .inl member

end Calls

end OpencodePty.SessionRegistry
