import OpencodePty.SessionRegistry

/-!
# Agreement of the reservation tables

The tables of waits and of queued input count the reservations that were issued and not
released. A reservation that is released again changes nothing.
-/

namespace OpencodePty.SessionRegistry

open OpencodePty.KeyedMaps

/-! ## Waits -/

/-- A wait that was not released, of any session. -/
def WaitReservation.pending (reservation : WaitReservation) : Bool := !reservation.released

/-- A wait on a session that was not released. -/
def WaitReservation.pendingIn (id : String) (reservation : WaitReservation) : Bool :=
  !reservation.released && reservation.sessionId = id

/-- A wait of an owner that was not released. -/
def WaitReservation.pendingFor (key : String) (reservation : WaitReservation) : Bool :=
  !reservation.released && reservation.ownerKey = key

/-- The tables of waits hold the numbers of the reservations that are not released. -/
structure WaitTables.Consistent (tables : WaitTables) (reservations : List WaitReservation) :
    Prop where
  next : tables.nextWaitId = reservations.length
  numbered : ∀ (index : Nat) (reservation : WaitReservation),
    reservations[index]? = some reservation → reservation.id = index
  session : ∀ id, Positions (WaitReservation.pendingIn id) reservations
    (members tables.waitsBySession id)
  owner : ∀ key, Positions (WaitReservation.pendingFor key) reservations
    (members tables.waitsByOwner key)
  all : Positions WaitReservation.pending reservations tables.waits

namespace WaitTables.Consistent

variable {tables : WaitTables} {reservations : List WaitReservation}
  (consistent : tables.Consistent reservations)

include consistent

theorem add (id key : String) :
    WaitTables.Consistent
      { waitsBySession := addMember tables.waitsBySession id tables.nextWaitId
        waitsByOwner := addMember tables.waitsByOwner key tables.nextWaitId
        waits := insert tables.nextWaitId tables.waits
        nextWaitId := tables.nextWaitId + 1 }
      (reservations ++ [⟨tables.nextWaitId, id, key, false⟩]) where
  next := by simp [consistent.next]
  numbered := by
    intro index reservation found
    rcases Nat.lt_or_ge index reservations.length with before | after
    · rw [List.getElem?_append_left before] at found
      exact consistent.numbered index reservation found
    · have bound := (List.getElem?_eq_some_iff.mp found).1
      simp only [List.length_append, List.length_singleton] at bound
      have last : index = reservations.length := by omega
      rw [last, List.getElem?_concat_length, Option.some_inj] at found
      rw [last, ← found]
      exact consistent.next
  session := by
    intro other
    have positions := (consistent.session other).append ⟨tables.nextWaitId, id, key, false⟩
    rw [← consistent.next] at positions
    rw [members_addMember]
    by_cases same : other = id
    · rw [same] at positions ⊢
      simpa [WaitReservation.pendingIn] using positions
    · simpa [WaitReservation.pendingIn, same, Ne.symm same] using positions
  owner := by
    intro other
    have positions := (consistent.owner other).append ⟨tables.nextWaitId, id, key, false⟩
    rw [← consistent.next] at positions
    rw [members_addMember]
    by_cases same : other = key
    · rw [same] at positions ⊢
      simpa [WaitReservation.pendingFor] using positions
    · simpa [WaitReservation.pendingFor, same, Ne.symm same] using positions
  all := by
    have positions := consistent.all.append ⟨tables.nextWaitId, id, key, false⟩
    rw [← consistent.next] at positions
    simpa [WaitReservation.pending] using positions

/-- Releasing a wait takes its number out, and does so once. -/
theorem releaseWait {index : Nat} {reservation : WaitReservation}
    (found : reservations[index]? = some reservation) :
    (tables.releaseWait reservation).2.Consistent
      (reservations.set index (tables.releaseWait reservation).1) := by
  unfold WaitTables.releaseWait
  cases done : reservation.released with
  | true =>
    have unchanged : reservations.set index reservation = reservations := by
      obtain ⟨bound, same⟩ := List.getElem?_eq_some_iff.mp found
      rw [← same, List.set_getElem_self]
    simpa [unchanged] using consistent
  | false =>
    have number : reservation.id = index := consistent.numbered index reservation found
    subst number
    have absent (property : WaitReservation → Bool) (positions : Finset Nat)
        (exactly : Positions property reservations positions)
        (other : property reservation = false) : reservation.id ∉ positions := by
      intro member
      obtain ⟨held, known, holds⟩ := (exactly _).mp member
      rw [found, Option.some_inj] at known
      rw [← known, other] at holds
      simp at holds
    refine
      { next := by simpa using consistent.next
        numbered := ?_
        session := ?_
        owner := ?_
        all := consistent.all.set _ rfl }
    · intro other held known
      rw [List.getElem?_set] at known
      split at known
      next same =>
        split at known
        · cases known
          exact same
        · simp at known
      next => exact consistent.numbered other held known
    · intro id
      have positions := (consistent.session id).set reservation.id
        (rfl : WaitReservation.pendingIn id { reservation with released := true } = false)
      simp only [Bool.false_eq_true, if_false, members_removeMember]
      by_cases same : id = reservation.sessionId
      · rw [if_pos same]
        rwa [same] at positions ⊢
      · rw [if_neg same]
        rwa [Finset.erase_eq_of_notMem (absent _ _ (consistent.session id)
          (by simp [WaitReservation.pendingIn, Ne.symm same]))] at positions
    · intro key
      have positions := (consistent.owner key).set reservation.id
        (rfl : WaitReservation.pendingFor key { reservation with released := true } = false)
      simp only [Bool.false_eq_true, if_false, members_removeMember]
      by_cases same : key = reservation.ownerKey
      · rw [if_pos same]
        rwa [same] at positions ⊢
      · rw [if_neg same]
        rwa [Finset.erase_eq_of_notMem (absent _ _ (consistent.owner key)
          (by simp [WaitReservation.pendingFor, Ne.symm same]))] at positions

end WaitTables.Consistent

/-! ## Queued input -/

/-- The bytes of the reservations with a property that are not released. -/
def queued (property : InputReservation → Bool) (reservations : List InputReservation) : Int :=
  (reservations.map fun reservation =>
    if !reservation.released && property reservation then (reservation.bytes : Int) else 0).sum

theorem queued_append (property : InputReservation → Bool) (reservations : List InputReservation)
    (reservation : InputReservation) :
    queued property (reservations ++ [reservation]) = queued property reservations +
      if !reservation.released && property reservation then (reservation.bytes : Int) else 0 := by
  simp [queued]

theorem queued_nonneg (property : InputReservation → Bool)
    (reservations : List InputReservation) : 0 ≤ queued property reservations := by
  refine List.sum_nonneg ?_
  intro bytes member
  obtain ⟨reservation, _, same⟩ := List.mem_map.mp member
  rw [← same]
  split <;> omega

/-- Marking a reservation as released takes its bytes out. -/
theorem queued_release (property : InputReservation → Bool)
    {reservations : List InputReservation} {index : Nat} {reservation : InputReservation}
    (found : reservations[index]? = some reservation) (held : reservation.released = false) :
    queued property (reservations.set index { reservation with released := true }) =
      queued property reservations -
        if property reservation then (reservation.bytes : Int) else 0 := by
  induction reservations generalizing index with
  | nil => simp at found
  | cons first rest inductionHypothesis =>
    cases index with
    | zero =>
      simp only [List.getElem?_cons_zero, Option.some_inj] at found
      subst found
      simp [queued, held]
    | succ index =>
      have remaining := inductionHypothesis (by simpa using found)
      simp only [queued, List.set_cons_succ, List.map_cons, List.sum_cons] at remaining ⊢
      rw [remaining]
      ring

/-- What an outstanding reservation holds is still queued. -/
theorem bytes_le_queued {property : InputReservation → Bool}
    {reservations : List InputReservation} {index : Nat} {reservation : InputReservation}
    (found : reservations[index]? = some reservation)
    (held : reservation.released = false) (counted : property reservation = true) :
    (reservation.bytes : Int) ≤ queued property reservations := by
  have rest := queued_nonneg property
    (reservations.set index { reservation with released := true })
  rw [queued_release property found held, if_pos counted] at rest
  omega

/-- The tables of queued input hold the bytes of the reservations that are not released. -/
structure InputTables.Consistent (tables : InputTables) (reservations : List InputReservation) :
    Prop where
  session : ∀ id, amount tables.inputBytesBySession id =
    queued (fun reservation => reservation.sessionId = id) reservations
  owner : ∀ key, amount tables.inputBytesByOwner key =
    queued (fun reservation => reservation.ownerKey = key) reservations
  all : tables.inputBytes = queued (fun _ => true) reservations

namespace InputTables.Consistent

variable {tables : InputTables} {reservations : List InputReservation}
  (consistent : tables.Consistent reservations)

include consistent

theorem add (id key : String) (bytes : Nat) :
    InputTables.Consistent
      { inputBytesBySession := tables.inputBytesBySession.insert id
          (amount tables.inputBytesBySession id + bytes)
        inputBytesByOwner := tables.inputBytesByOwner.insert key
          (amount tables.inputBytesByOwner key + bytes)
        inputBytes := tables.inputBytes + bytes }
      (reservations ++ [⟨id, key, bytes, false⟩]) where
  session := by
    intro other
    rw [queued_append, amount_insert, ← consistent.session other]
    by_cases same : other = id
    · simp [same]
    · simp [same, Ne.symm same]
  owner := by
    intro other
    rw [queued_append, amount_insert, ← consistent.owner other]
    by_cases same : other = key
    · simp [same]
    · simp [same, Ne.symm same]
  all := by
    rw [queued_append, ← consistent.all]
    simp

/-- Releasing queued input takes its bytes out, and does so once. -/
theorem releaseInput {index : Nat} {reservation : InputReservation}
    (found : reservations[index]? = some reservation) :
    (tables.releaseInput reservation).2.Consistent
      (reservations.set index (tables.releaseInput reservation).1) := by
  unfold InputTables.releaseInput
  cases done : reservation.released with
  | true =>
    have unchanged : reservations.set index reservation = reservations := by
      obtain ⟨bound, same⟩ := List.getElem?_eq_some_iff.mp found
      rw [← same, List.set_getElem_self]
    simpa [unchanged] using consistent
  | false =>
    have session : (reservation.bytes : Int) ≤
        amount tables.inputBytesBySession reservation.sessionId := by
      rw [consistent.session]
      exact bytes_le_queued found done (by simp)
    have owner : (reservation.bytes : Int) ≤
        amount tables.inputBytesByOwner reservation.ownerKey := by
      rw [consistent.owner]
      exact bytes_le_queued found done (by simp)
    refine ⟨?_, ?_, ?_⟩
    · intro id
      simp only [Bool.false_eq_true, if_false]
      rw [amount_subtract session, queued_release _ found done, consistent.session]
      simp [eq_comm]
    · intro key
      simp only [Bool.false_eq_true, if_false]
      rw [amount_subtract owner, queued_release _ found done, consistent.owner]
      simp [eq_comm]
    · simp only [Bool.false_eq_true, if_false]
      rw [queued_release _ found done, consistent.all]
      simp

end InputTables.Consistent

end OpencodePty.SessionRegistry
