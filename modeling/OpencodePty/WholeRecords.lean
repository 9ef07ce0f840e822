import OpencodePty.SessionRoundTrip

/-!
# Round trips of whole records

No check refuses a state with members that the lifecycle does not know, or a legacy object with
such members. A refresh builds the state anew of what the lifecycle knows, except where a cleanup is
requested of a session that may still run or cannot be reached: there it starts from the stored
state, and what it does not know stays. The next refresh drops it.

A record with all members of its state is written and read back as it was after the write. It is
written again as the same value just where nothing was taken over that the next refresh drops.

A remembered outcome is handed on by every refresh as it stands, further members included, and is
represented by what the lifecycle knows of it.
-/

namespace OpencodePty.SessionCodec

open OpencodePty.JsValues OpencodePty.Lifecycle OpencodePty.RecordChecks
open OpencodePty.Timestamps (newYear parseNewYear)

/-- Members of an object under other names than the given ones. -/
@[ext]
structure Others (known : List String) where
  fields : List (String × Js)
  free : ∀ entry ∈ fields, entry.1 ∉ known

namespace Others

variable {known : List String}

/-- No other members. -/
def none : Others known := ⟨[], by simp⟩

/-- The members among the properties of an object whose names are not the given ones. -/
def among (fields : List (String × Js)) : Others known where
  fields := fields.filter fun entry => !known.contains entry.1
  free := by
    intro entry member
    simpa using (List.mem_filter.mp member).2

/-- Behind properties that are all known, the other members are found again. -/
theorem among_append {properties : List (String × Js)}
    (inside : ∀ entry ∈ properties, entry.1 ∈ known) (others : Others known) :
    among (properties ++ others.fields) = others := by
  have dropped : properties.filter (fun entry => !known.contains entry.1) = [] := by
    rw [List.filter_eq_nil_iff]
    intro entry member
    simp [inside entry member]
  have kept : others.fields.filter (fun entry => !known.contains entry.1) = others.fields := by
    rw [List.filter_eq_self]
    intro entry member
    simp [others.free entry member]
  ext1
  simp only [among, List.filter_append, dropped, kept, List.nil_append]

/-- A known name is none of the other members. -/
theorem lookup_known (others : Others known) {key : String} (inside : key ∈ known) :
    others.fields.lookup key = Option.none := by
  rw [List.lookup_eq_none_iff]
  intro entry member
  simp only [bne_iff_ne, ne_eq]
  rintro rfl
  exact others.free entry member inside

end Others

/-- The members of a state that the lifecycle knows. -/
def stateNames : List String :=
  ["child", "startedAt", "exitedAt", "timedOut", "termination", "containment", "exitCode",
    "exitSignal", "exitReason", "worker", "prestart", "startAttempted", "streamDrain",
    "execOutput", "storageFailure", "diagnostics", "lastWaitResult", "legacy", "kind", "target",
    "outcome", "lastKnown", "terminal"]

/-- The members of a legacy object that the lifecycle knows. -/
def legacyNames : List String := ["tombstone", "outputCleanupPending"]

/-- A session record with all members of its state and of the legacy object of its state. -/
structure WholeRecord extends SessionRecord where
  others : Others stateNames
  legacyOthers : Others legacyNames
  present : toSessionRecord.state.evidence.legacy = Option.none → legacyOthers = .none

/-- A property of a state, where the legacy object has its other members. -/
def wholeProperty (legacyOthers : Others legacyNames) (entry : String × Js) : String × Js :=
  if entry.1 = "legacy" then (entry.1, .obj (properties entry.2 ++ legacyOthers.fields)) else entry

/-- The state as a JSON value, with all its members. -/
def WholeRecord.stateJson (record : WholeRecord) : Js :=
  .obj ((properties (SessionCodec.stateJson record.state)).map (wholeProperty record.legacyOthers) ++
    record.others.fields)

/-- `toV2Session` -/
def WholeRecord.toV2Session (record : WholeRecord) : Js :=
  .obj (record.metadata.fields ++ [("recordVersion", .int 2), ("state", record.stateJson)])

/-- The other members of a state. -/
def otherMembers (state : Js) : Others stateNames := .among (properties state)

/-- The other members of the legacy object of a state. -/
def otherLegacyMembers (state : Js) : Others legacyNames :=
  .among (properties ((state.get "legacy").getD .null))

/-! ## Checks -/

/-- Two states have the same members as far as the lifecycle knows them. -/
structure Alike (first second : Js) : Prop where
  objects : first.isObject = second.isObject
  known : ∀ key ∈ stateNames, key ≠ "legacy" → first.get key = second.get key
  legacy : (first.get "legacy").map (fun value => (value.isObject, readLegacy value)) =
    (second.get "legacy").map fun value => (value.isObject, readLegacy value)

section
variable {first second : Js}

/-- The legacy objects are both missing, or have the same known members. -/
theorem Alike.legacyMembers (alike : Alike first second) :
    (first.get "legacy" = none ∧ second.get "legacy" = none) ∨
      ∃ one two, first.get "legacy" = some one ∧ second.get "legacy" = some two ∧
        one.isObject = two.isObject ∧ one.get "tombstone" = two.get "tombstone" ∧
        one.get "outputCleanupPending" = two.get "outputCleanupPending" := by
  have same := alike.legacy
  cases one : first.get "legacy" with
  | none =>
    rw [one] at same
    cases two : second.get "legacy" with
    | none => exact .inl ⟨rfl, rfl⟩
    | some value =>
      rw [two] at same
      cases same
  | some value =>
    cases two : second.get "legacy" with
    | none =>
      rw [one, two] at same
      cases same
    | some other =>
      rw [one, two] at same
      simp only [Option.map_some, Option.some.injEq, Prod.mk.injEq, readLegacy,
        Legacy.mk.injEq] at same
      exact .inr ⟨value, other, rfl, rfl, same.1, same.2.1, same.2.2⟩

/-- Alike states are read as the same state. -/
theorem Alike.readState (alike : Alike first second) :
    SessionCodec.readState first = SessionCodec.readState second := by
  have legacy : (first.get "legacy").map readLegacy = (second.get "legacy").map readLegacy := by
    rcases alike.legacyMembers with ⟨one, two⟩ | ⟨_, _, one, two, _, tombstone, pending⟩
    · rw [one, two]
    · rw [one, two, Option.map_some, Option.map_some, readLegacy, readLegacy, tombstone, pending]
  simp (disch := decide) only [SessionCodec.readState, readEvidence, legacy, alike.known]

/-- The checks of alike states are the same. -/
theorem Alike.stateChecks (alike : Alike first second) (darwin : Bool) :
    SessionCodec.stateChecks darwin (some first) = SessionCodec.stateChecks darwin (some second) := by
  have known (key : String) (inside : key ∈ stateNames) (other : key ≠ "legacy") :
      field (some first) key = field (some second) key := alike.known key inside other
  have present : (field (some first) "legacy").isNone = (field (some second) "legacy").isNone := by
    rcases alike.legacyMembers with ⟨one, two⟩ | ⟨_, _, one, two, _⟩ <;> simp [field, one, two]
  have members : field (field (some first) "legacy") "tombstone" =
        field (field (some second) "legacy") "tombstone" ∧
      field (field (some first) "legacy") "outputCleanupPending" =
        field (field (some second) "legacy") "outputCleanupPending" := by
    rcases alike.legacyMembers with ⟨one, two⟩ | ⟨_, _, one, two, _, tombstone, pending⟩ <;>
      simp_all [field]
  have legacy : legacyChecks (field (some first) "legacy") =
      legacyChecks (field (some second) "legacy") := by
    rcases alike.legacyMembers with ⟨one, two⟩ | ⟨_, _, one, two, object, tombstone, pending⟩
    · simp [field, one, two]
    · simp [field, one, two, legacyChecks, object, tombstone, pending]
  have objects : isObject (some first) = isObject (some second) := alike.objects
  simp (disch := decide) only [SessionCodec.stateChecks, kindChecks, claimsTerminal, terminalProof,
    objects, known, present, members.1, members.2, legacy]
  rfl

end

/-! ## The members of a state as a JSON value -/

theorem lookup_wholeProperty (legacyOthers : Others legacyNames) (properties' : List (String × Js))
    (key : String) :
    (properties'.map (wholeProperty legacyOthers)).lookup key =
      (properties'.lookup key).map fun value =>
        if key = "legacy" then .obj (properties value ++ legacyOthers.fields) else value := by
  induction properties' with
  | nil => rfl
  | cons entry rest inductionHypothesis =>
    obtain ⟨name, value⟩ := entry
    have named : (wholeProperty legacyOthers (name, value)).1 = name := by
      unfold wholeProperty
      split <;> rfl
    rw [List.map_cons, ← Prod.mk.eta (p := wholeProperty legacyOthers (name, value)), named]
    by_cases same : key = name
    · subst same
      simp only [List.lookup_cons_self, Option.map_some, wholeProperty]
      split <;> rfl
    · have different : (key == name) = false := by simp [same]
      rw [List.lookup_cons, List.lookup_cons, different, inductionHypothesis]

/-- The known members of a state with all its members. -/
theorem get_wholeState (record : WholeRecord) {key : String} (known : key ∈ stateNames) :
    record.stateJson.get key = ((stateJson record.state).get key).map fun value =>
      if key = "legacy" then .obj (properties value ++ record.legacyOthers.fields) else value := by
  rw [WholeRecord.stateJson, Js.get, List.lookup_append, lookup_wholeProperty,
    record.others.lookup_known known, Option.or_none]
  rfl

theorem get_legacy (state : SessionState) :
    (stateJson state).get "legacy" = state.evidence.legacy.map legacyJson := by
  rw [get_evidence state (by simp [evidenceFields])]
  simp [evidenceFields, List.lookup_cons]

theorem wholeState_alike (record : WholeRecord) :
    Alike record.stateJson (stateJson record.state) where
  objects := rfl
  known key inside other := by
    rw [get_wholeState record inside]
    simp [other]
  legacy := by
    rw [get_wholeState record (by simp [stateNames]), get_legacy]
    cases record.state.evidence.legacy with
    | none => rfl
    | some legacy =>
      have members (key : String) (inside : key ∈ legacyNames) :
          Js.get (.obj (properties (legacyJson legacy) ++ record.legacyOthers.fields)) key =
            (legacyJson legacy).get key := by
        rw [Js.get, List.lookup_append, record.legacyOthers.lookup_known inside, Option.or_none]
        rfl
      simp only [Option.map_some, if_true, readLegacy, members "tombstone" (by decide),
        members "outputCleanupPending" (by decide)]
      rfl

/-- The names of the properties of a built object are the listed ones. -/
theorem name_of_record {fields : List (String × Option Js)} {entry : String × Js}
    (member : entry ∈ properties (record fields)) : entry.1 ∈ fields.map Prod.fst := by
  obtain ⟨⟨name, value⟩, listed, built⟩ := List.mem_filterMap.mp member
  cases value with
  | none => cases built
  | some value =>
    cases built
    exact List.mem_map_of_mem listed

/-- The other members of a state are found again in its JSON value. -/
theorem otherMembers_wholeState (record : WholeRecord) :
    otherMembers record.stateJson = record.others := by
  refine Others.among_append (fun entry member => ?_) record.others
  obtain ⟨own, listed, rfl⟩ := List.mem_map.mp member
  have named : (wholeProperty record.legacyOthers own).1 = own.1 := by
    unfold wholeProperty
    split <;> rfl
  rw [named]
  have inside := name_of_record listed
  simpa [stateFields, evidenceFields, stateNames] using inside

theorem otherLegacyMembers_wholeState (record : WholeRecord) :
    otherLegacyMembers record.stateJson = record.legacyOthers := by
  rw [otherLegacyMembers, get_wholeState record (by simp [stateNames]), get_legacy]
  cases legacy : record.state.evidence.legacy with
  | none =>
    rw [record.present legacy]
    rfl
  | some legacy =>
    refine Others.among_append (fun entry member => ?_) record.legacyOthers
    have inside := name_of_record member
    simpa [legacyNames] using inside

/-! ## Records -/

theorem readState_evidence (value : Js) : (readState value).evidence = readEvidence value.get := by
  unfold readState
  split <;> try rfl
  split <;> rfl

/-- `fromV2Session`, with all members of the state. -/
def WholeRecord.ofV2Session (source : Js) : WholeRecord where
  toSessionRecord := fromV2Session source
  others := otherMembers ((source.get "state").getD .null)
  legacyOthers := otherLegacyMembers ((source.get "state").getD .null)
  present := by
    intro absent
    have legacy := (congrArg Evidence.legacy
      (readState_evidence ((source.get "state").getD .null))).symm.trans absent
    simp only [readEvidence, Option.map_eq_none_iff] at legacy
    rw [otherLegacyMembers, legacy]
    rfl

/-- A refresh starts from the stored state. -/
def WholeRecord.startsFromStored (record : WholeRecord) : Bool :=
  truthy record.flat.pendingCleanup &&
    match record.state with
    | .active _ _ | .unreachable _ _ _ => true
    | _ => false

/-- The flat view has no legacy object of its own. -/
def WholeRecord.keepsLegacy (record : WholeRecord) : Bool :=
  record.startsFromStored &&
    (observedLegacy record.flat.legacyTombstone record.flat.legacyOutputCleanupPending).isNone

/-- The legacy object that a refresh takes over from the stored state. -/
theorem WholeRecord.legacy_kept (darwin : Bool) {record : WholeRecord}
    (keeps : record.keepsLegacy = true) :
    (refreshSessionState darwin record.state record.flat).evidence.legacy =
      record.state.evidence.legacy := by
  simp only [keepsLegacy, startsFromStored, Bool.and_eq_true, Option.isNone_iff_eq_none] at keeps
  obtain ⟨⟨pending, started⟩, unobserved⟩ := keeps
  cases state : record.state with
  | active kind stored =>
    simp [refreshSessionState, pending, toCleaning, SessionState.evidence, Evidence.spread,
      observedEvidence, unobserved]
  | unreachable known terminal stored =>
    simp [refreshSessionState, pending, toCleaning, SessionState.evidence, Evidence.spread,
      observedEvidence, unobserved]
  | terminal outcome stored =>
    rw [state] at started
    cases started
  | cleaning target outcome known terminal stored =>
    rw [state] at started
    cases started

/-- The record as `writeSession` leaves it, with all members of its state. -/
def WholeRecord.refreshed (darwin : Bool) (record : WholeRecord) : WholeRecord where
  toSessionRecord := record.toSessionRecord.refreshed darwin
  others := if record.startsFromStored then record.others else .none
  legacyOthers := if record.keepsLegacy then record.legacyOthers else .none
  present := by
    intro absent
    split
    next keeps => exact record.present ((record.legacy_kept darwin keeps).symm.trans absent)
    next => rfl

section Records

variable (dateParse : JsString → Option Int) (darwin : Bool)

/-- `writeSession`, with all members of the state. -/
def WholeRecord.write (record : WholeRecord) : Except WriteError (WholeRecord × Js) := do
  let written := record.refreshed darwin
  require (compatibilityChecks dateParse written.read record.id) .invalidSession
  let persisted := written.toV2Session
  require (v2Checks dateParse darwin persisted record.id) .invalidV2Session
  return (written, persisted)

/-- The persisted value and the whole record after the write. -/
theorem write_ok {record written : WholeRecord} {persisted : Js} :
    record.write dateParse darwin = .ok (written, persisted) ↔
      written = record.refreshed darwin ∧ persisted = written.toV2Session ∧
      runChecks (compatibilityChecks dateParse written.read record.id) = some true ∧
      runChecks (v2Checks dateParse darwin persisted record.id) = some true := by
  unfold WholeRecord.write
  constructor
  · intro accepted
    simp only [bind, Except.bind] at accepted
    split at accepted
    · cases accepted
    next compatible =>
      split at accepted
      · cases accepted
      next valid =>
        cases accepted
        exact ⟨rfl, rfl, require_ok.mp compatible, require_ok.mp valid⟩
  · rintro ⟨rfl, rfl, compatible, valid⟩
    simp only [bind, Except.bind, require_ok.mpr compatible, require_ok.mpr valid]
    rfl

theorem get_whole_state (record : WholeRecord) :
    record.toV2Session.get "state" = some record.stateJson := by
  have absent := lookup_reserved record.metadata (by simp [reservedFields] :
    "state" ∈ reservedFields)
  simp [WholeRecord.toV2Session, Js.get, List.lookup_append, absent, List.lookup_cons]

/-- The version and the metadata do not depend on the members of the state. -/
theorem get_whole_other (record : WholeRecord) {key : String} (other : key ≠ "state") :
    record.toV2Session.get key = (toV2Session record.toSessionRecord).get key := by
  have different : (key == "state") = false := by simp [other]
  simp [WholeRecord.toV2Session, toV2Session, Js.get, List.lookup_append, List.lookup_cons,
    different]

/-- What is known of a whole record is what is known of it without the other members. -/
theorem fromV2Session_whole (record : WholeRecord) :
    fromV2Session record.toV2Session = fromV2Session (toV2Session record.toSessionRecord) := by
  have metadata : Metadata.among (properties record.toV2Session) =
      Metadata.among (properties (toV2Session record.toSessionRecord)) := by
    simp only [Metadata.among, properties, WholeRecord.toV2Session, toV2Session,
      List.filter_append]
    rfl
  simp only [fromV2Session, get_whole_state, get_state_toV2Session, Option.getD_some, metadata,
    (wholeState_alike record).readState]

/-- No check reads a member that the lifecycle does not know. -/
theorem v2Checks_whole (record : WholeRecord) (id : JsString) :
    v2Checks dateParse darwin record.toV2Session id =
      v2Checks dateParse darwin (toV2Session record.toSessionRecord) id := by
  have owned : lifecycleFields.any (hasOwn record.toV2Session) =
      lifecycleFields.any (hasOwn (toV2Session record.toSessionRecord)) := by
    rw [Bool.eq_iff_iff, List.any_eq_true, List.any_eq_true]
    refine exists_congr fun key => and_congr_right fun member => ?_
    have other : key ≠ "state" := by
      rintro rfl
      exact absurd member (by decide)
    rw [hasOwn, hasOwn, get_whole_other record other]
  have version := @get_whole_other record "recordVersion" (by decide)
  simp only [v2Checks, owned, version, fromV2Session_whole, get_whole_state,
    get_state_toV2Session, (wholeState_alike record).stateChecks]

/-- A whole record is written just where what is known of it is. -/
theorem write_known {record written : WholeRecord} {persisted : Js} :
    record.write dateParse darwin = .ok (written, persisted) ↔
      written = record.refreshed darwin ∧ persisted = written.toV2Session ∧
      writeSession dateParse darwin record.toSessionRecord =
        .ok (written.toSessionRecord, toV2Session written.toSessionRecord) := by
  rw [write_ok, writeSession_ok]
  constructor
  · rintro ⟨rfl, rfl, compatible, valid⟩
    refine ⟨rfl, rfl, rfl, rfl, compatible, ?_⟩
    rwa [v2Checks_whole] at valid
  · rintro ⟨rfl, rfl, _, _, compatible, valid⟩
    refine ⟨rfl, rfl, compatible, ?_⟩
    rwa [v2Checks_whole]

/-- Whole records are the same where what is known of them and the other members are. -/
theorem whole_ext {first second : WholeRecord}
    (known : first.toSessionRecord = second.toSessionRecord) (others : first.others = second.others)
    (legacyOthers : first.legacyOthers = second.legacyOthers) : first = second := by
  cases first
  cases second
  simp only at known others legacyOthers
  subst known others legacyOthers
  rfl

/-- A written record is read back with all members of its state. -/
theorem ofV2Session_toV2Session {record : WholeRecord} (canonical : Canonical record.state)
    (projected : record.flat = projectSessionState record.state) :
    WholeRecord.ofV2Session record.toV2Session = record := by
  apply whole_ext
  · exact (fromV2Session_whole record).trans (fromV2Session_toV2Session canonical projected)
  · simp only [WholeRecord.ofV2Session, get_whole_state, Option.getD_some]
    exact otherMembers_wholeState record
  · simp only [WholeRecord.ofV2Session, get_whole_state, Option.getD_some]
    exact otherLegacyMembers_wholeState record

/-- Nothing is taken over that the lifecycle does not know. -/
def Known (record : WholeRecord) : Prop :=
  (record.startsFromStored = true → record.others = .none) ∧
    (record.keepsLegacy = true → record.legacyOthers = .none)

/-- A record whose flat view is that of its state does not start from the stored state. -/
theorem startsFromStored_projected {record : WholeRecord}
    (projected : record.flat = projectSessionState record.state) :
    record.startsFromStored = false := by
  rw [WholeRecord.startsFromStored, projected, project_pendingCleanup]
  cases record.state <;> rfl

/-- A refresh leaves a refreshed record as it is just where the first one has taken over nothing
that the next one drops. -/
theorem refreshed_twice_iff (record : WholeRecord) :
    (record.refreshed darwin).refreshed darwin = record.refreshed darwin ↔
      Steady record.state record.flat ∧ Known record := by
  have started : (record.refreshed darwin).startsFromStored = false :=
    startsFromStored_projected rfl
  have dropped : ((record.refreshed darwin).refreshed darwin).others = .none ∧
      ((record.refreshed darwin).refreshed darwin).legacyOthers = .none := by
    constructor
    · exact if_neg (by simp [started])
    · exact if_neg (by simp [WholeRecord.keepsLegacy, started])
  have known : Known record ↔ (record.refreshed darwin).others = .none ∧
      (record.refreshed darwin).legacyOthers = .none := by
    simp [Known, WholeRecord.refreshed]
  rw [← refresh_twice_iff darwin, known]
  constructor
  · intro same
    refine ⟨?_, ?_, ?_⟩
    · exact congrArg (fun whole : WholeRecord => whole.state) same
    · exact (congrArg WholeRecord.others same).symm.trans dropped.1
    · exact (congrArg WholeRecord.legacyOthers same).symm.trans dropped.2
  · rintro ⟨steady, others, legacyOthers⟩
    apply whole_ext
    · have flat := congrArg projectSessionState steady
      change (⟨record.metadata, refreshSessionState darwin _ _, _⟩ : SessionRecord) = ⟨_, _, _⟩
      rw [SessionRecord.mk.injEq]
      exact ⟨rfl, steady, flat⟩
    · exact dropped.1.trans others.symm
    · exact dropped.2.trans legacyOthers.symm

/-- Writing a whole record again, as it was read, persists the same value just where a refresh
leaves it as it is. -/
theorem rewrite_iff {record written : WholeRecord} {persisted : Js}
    (canonical : Canonical record.state)
    (accepted : record.write dateParse darwin = .ok (written, persisted)) :
    (∃ again, written.write dateParse darwin = .ok (again, persisted)) ↔
      written.refreshed darwin = written := by
  obtain ⟨same, rfl, compatible, valid⟩ := (write_ok dateParse darwin).mp accepted
  have refreshed (record : WholeRecord) (canonical : Canonical record.state) :
      Canonical (record.refreshed darwin).state := refresh_canonical darwin canonical record.flat
  have first : Canonical written.state := same ▸ refreshed record canonical
  constructor
  · rintro ⟨again, rewritten⟩
    obtain ⟨rfl, persisted, _, _⟩ := (write_ok dateParse darwin).mp rewritten
    have read := congrArg WholeRecord.ofV2Session persisted
    rw [ofV2Session_toV2Session first (same ▸ rfl),
      ofV2Session_toV2Session (refreshed written first) rfl] at read
    exact read.symm
  · intro steady
    have id : written.id = record.id := by
      rw [same]
      exact record.refreshed_id darwin
    refine ⟨written, (write_ok dateParse darwin).mpr ⟨steady.symm, rfl, ?_, ?_⟩⟩
    · rw [id]
      exact compatible
    · rw [id]
      exact valid

/-- Whatever is written is read back as it was after the write, with all members of its state. It is
persisted again as the same value, and a refreshed record is left as it is by a refresh from its own
projection, just where the refresh took over nothing that the next one drops. -/
theorem v2_round_trip :
    (∀ realpath (record written : WholeRecord) persisted, Canonical record.state →
      record.write dateParse darwin = .ok (written, persisted) →
      decodeSession dateParse darwin realpath persisted record.id =
          .ok ⟨written.toSessionRecord, false, false,
            isBool written.flat.legacyOutputCleanupPending true⟩ ∧
        WholeRecord.ofV2Session persisted = written ∧
        ((∃ again, written.write dateParse darwin = .ok (again, persisted)) ↔
          Steady record.state record.flat ∧ Known record)) ∧
    ∀ record : WholeRecord,
      (record.refreshed darwin).refreshed darwin = record.refreshed darwin ↔
        Steady record.state record.flat ∧ Known record := by
  refine ⟨?_, refreshed_twice_iff darwin⟩
  intro realpath record written persisted canonical accepted
  obtain ⟨rfl, rfl, _, valid⟩ := (write_ok dateParse darwin).mp accepted
  have refreshed : Canonical (record.refreshed darwin).state :=
    refresh_canonical darwin canonical record.flat
  have back : WholeRecord.ofV2Session (record.refreshed darwin).toV2Session =
      record.refreshed darwin := ofV2Session_toV2Session refreshed rfl
  have version : (record.refreshed darwin).toV2Session.get "recordVersion" = some (.int 2) :=
    (get_whole_other _ (by decide)).trans (get_recordVersion_toV2Session _)
  refine ⟨?_, back, ?_⟩
  · rw [decode_valid dateParse darwin realpath rfl version valid]
    have known : fromV2Session (record.refreshed darwin).toV2Session =
        (record.refreshed darwin).toSessionRecord := congrArg WholeRecord.toSessionRecord back
    rw [known]
  · rw [rewrite_iff dateParse darwin canonical accepted, refreshed_twice_iff]

end Records

/-! ## A record at rest, and two whose cleanup is requested -/

/-- A member that the lifecycle does not know. -/
def noteMember : Others stateNames := ⟨[("note", .text "n")], by decide⟩

/-- A running session whose state has other members, of which a cleanup was or was not requested. -/
def runningWhole (cleanup : Bool) (storageFailure : Option Js) (others : Others stateNames) :
    WholeRecord where
  toSessionRecord := runningRecord cleanup storageFailure
  others := others
  legacyOthers := .none
  present := fun _ => rfl

theorem runningWhole_written (cleanup : Bool) (others : Others stateNames)
    {storageFailure : Option Js}
    (valid : runChecks (v2Checks parseNewYear false
      (toV2Session ((runningRecord cleanup storageFailure).refreshed false))
        (runningRecord cleanup storageFailure).id) = some true)
    (compatible : runChecks (compatibilityChecks parseNewYear
      ((runningRecord cleanup storageFailure).refreshed false).read
        (runningRecord cleanup storageFailure).id) = some true) :
    (runningWhole cleanup storageFailure others).write parseNewYear false =
      .ok ((runningWhole cleanup storageFailure others).refreshed false,
        ((runningWhole cleanup storageFailure others).refreshed false).toV2Session) :=
  (write_known _ _).mpr ⟨rfl, rfl, (writeSession_ok _ _).mpr ⟨rfl, rfl, compatible, valid⟩⟩

/-- The record of a running session is written and read back, and written again unchanged. The
member that the lifecycle does not know is dropped by the first write. -/
theorem v2_round_trip_running :
    let record := runningWhole false none noteMember
    let written := record.refreshed false
    record.write parseNewYear false = .ok (written, written.toV2Session) ∧
      decodeSession parseNewYear false some written.toV2Session record.id =
        .ok ⟨written.toSessionRecord, false, false, false⟩ ∧
      WholeRecord.ofV2Session written.toV2Session = written ∧
      ∃ again, written.write parseNewYear false = .ok (again, written.toV2Session) := by
  intro record written
  have accepted : record.write parseNewYear false = .ok (written, written.toV2Session) :=
    runningWhole_written false noteMember (by decide +kernel) (by decide +kernel)
  have canonical : Canonical record.state := trivial
  have steady : Steady record.state record.flat := by
    simp [record, runningWhole, Steady, runningRecord, truthy, Js.truthy]
  have known : Known record := by
    simp [record, Known, WholeRecord.keepsLegacy, WholeRecord.startsFromStored, runningWhole,
      runningRecord, truthy, Js.truthy]
  obtain ⟨decoded, read, rewritten⟩ :=
    (v2_round_trip parseNewYear false).1 some record written _ canonical accepted
  exact ⟨accepted, decoded, read, rewritten.mpr ⟨steady, known⟩⟩

/-- The session is written, and then written again with other JSON and refreshed to another one. -/
def Drifts (record : WholeRecord) : Prop :=
  ∃ written persisted, record.write parseNewYear false = .ok (written, persisted) ∧
    (¬ ∃ again, written.write parseNewYear false = .ok (again, persisted)) ∧
    written.refreshed false ≠ written

/-- A running session that is accepted drifts where its state is not one that stays. -/
theorem runningWhole_drifts (cleanup : Bool) {storageFailure : Option Js}
    (others : Others stateNames)
    (valid : runChecks (v2Checks parseNewYear false
      (toV2Session ((runningRecord cleanup storageFailure).refreshed false))
        (runningRecord cleanup storageFailure).id) = some true)
    (compatible : runChecks (compatibilityChecks parseNewYear
      ((runningRecord cleanup storageFailure).refreshed false).read
        (runningRecord cleanup storageFailure).id) = some true)
    (drifts : ¬ (Steady (runningRecord cleanup storageFailure).state
        (runningRecord cleanup storageFailure).flat ∧
      Known (runningWhole cleanup storageFailure others))) :
    Drifts (runningWhole cleanup storageFailure others) := by
  have accepted := runningWhole_written cleanup others valid compatible
  have changed : ((runningWhole cleanup storageFailure others).refreshed false).refreshed false ≠
      (runningWhole cleanup storageFailure others).refreshed false :=
    fun same => drifts ((refreshed_twice_iff false _).mp same)
  refine ⟨_, _, accepted, ?_, changed⟩
  rw [rewrite_iff parseNewYear false (by trivial) accepted]
  exact changed

/-- A running session of which a cleanup is requested drifts where its last failure to store has an
empty text, and where its state has a member that the lifecycle does not know. -/
theorem v2_rewrite_drops :
    Drifts (runningWhole true (some (.text "")) .none) ∧
      Drifts (runningWhole true none noteMember) := by
  constructor
  · refine runningWhole_drifts _ _ (by decide +kernel) (by decide +kernel) fun both => ?_
    obtain observed | absent | filled := (both.1 rfl).storageFailure
    · exact absurd observed (by decide)
    · cases absent
    · exact absurd filled (by decide)
  · refine runningWhole_drifts _ _ (by decide +kernel) (by decide +kernel) fun both => ?_
    have dropped := congrArg Others.fields (both.2.1 rfl)
    cases dropped

end OpencodePty.SessionCodec
