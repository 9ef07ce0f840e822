import OpencodePty.RecordAcceptance

/-!
# Which states are accepted

The checks of a tagged state are stated here over what is read of its value: the evidence, the
tags and the remembered outcome. A value passes just if it has the shape of a state and what
is read of it is valid, and the value of a state always has that shape.
-/

namespace OpencodePty.SessionCodec

open OpencodePty.JsValues OpencodePty.Lifecycle OpencodePty.RecordChecks

/-- The value is converted to one of the names. -/
def Converts (names : List String) (value : Option Js) : Prop :=
  coercible value = true ∧ coercesToOneOf value names = true

theorem runChecks_convertsTo (names : List String) (value : Option Js) (rest : List Check) :
    runChecks (convertsTo names value :: rest) = some true ↔
      Converts names value ∧ runChecks rest = some true := by
  rw [convertsTo, runChecks_cons]
  simp [Converts, and_assoc]

structure ValidEvidence (evidence : Evidence) : Prop where
  pid : validNonnegativeInteger evidence.pid = true
  directExited : RecordChecks.optional isBoolean evidence.directExited = true
  requested : isBoolean evidence.terminationRequested = true
  confirmed : isBoolean evidence.terminationConfirmed = true
  timedOut : isBoolean evidence.timedOut = true
  streamDrain : isOneOf evidence.streamDrain drainNames = true

/-- A tombstone of a state. -/
structure ValidTombstone (tombstone : Js) : Prop where
  object : tombstone.isObject = true
  version : (isInt (tombstone.get "sourceRecordVersion") 0 ||
    isInt (tombstone.get "sourceRecordVersion") 1) = true
  lastKnown : Converts lastKnownNames (tombstone.get "lastKnown")

structure ValidLegacy (legacy : Legacy) : Prop where
  cleanup : RecordChecks.optional (isBool · true) legacy.outputCleanupPending = true
  tombstone : ∀ tombstone ∈ legacy.tombstone, ValidTombstone tombstone

structure ValidPayload (payload : TerminalSessionPayload) : Prop where
  outcome : Converts outcomeNames payload.outcome.toJs
  evidence : ValidEvidence payload.evidence

/-- What is read of the value of a state. -/
@[ext]
structure StateView where
  evidence : Evidence
  kind : Option Js
  target : Option Js
  outcome : Option Js
  lastKnown : Option Js
  terminal : Option TerminalSessionPayload

namespace StateView

/-- The state is terminal, or to be cleaned up after it was. -/
def claims (view : StateView) : Bool :=
  isText view.kind "terminal" || isText view.kind "cleaning" && isText view.target "terminal"

/-- The evidence proves the outcome, in the words of the codec. -/
def proves (darwin : Bool) (view : StateView) : Bool :=
  let cleanup := field view.evidence.exitReason "cleanup"
  isText view.outcome "spawn_failed" &&
      isText (field view.evidence.exitReason "kind") "spawn_error" &&
      isBool (field cleanup "directChildStarted") false &&
      isBool (field cleanup "terminationConfirmed") true ||
    isBool view.evidence.directExited true &&
      (containmentDrained view.evidence.containment || darwin)

def tombstone (view : StateView) : Option Js := view.evidence.legacy.bind Legacy.tombstone

/-- The tags of each kind of state. -/
inductive ValidTags (view : StateView) : Prop where
  | terminal (kind : view.kind = some (.text "terminal")) (target : view.target = none)
      (lastKnown : view.lastKnown = none) (terminal : view.terminal = none)
  | unreachable (kind : view.kind = some (.text "unreachable")) (target : view.target = none)
      (outcome : view.outcome = none) (lastKnown : Converts lastKnownNames view.lastKnown)
      (terminal : isText view.lastKnown "terminal" = view.terminal.isSome)
  | cleaning (kind : view.kind = some (.text "cleaning"))
      (target : Converts lastKnownNames view.target)
      (outcome : isText view.target "terminal" = view.outcome.isSome)
      (lastKnown : isText view.target "unreachable" = view.lastKnown.isSome)
      (terminal : view.terminal.isSome =
        (isText view.target "unreachable" && isText view.lastKnown "terminal"))
      (tombstone : view.tombstone = none ∨ isText view.target "unreachable" = true ∧
        same (field view.tombstone "lastKnown") view.lastKnown = true)
  | active (active : ActiveKind) (kind : view.kind = active.target.toJs)
      (target : view.target = none) (outcome : view.outcome = none)
      (lastKnown : view.lastKnown = none) (terminal : view.terminal = none)
      (legacy : view.evidence.legacy = none)

structure Valid (darwin : Bool) (view : StateView) : Prop where
  evidence : ValidEvidence view.evidence
  legacy : ∀ legacy ∈ view.evidence.legacy, ValidLegacy legacy
  terminal : ∀ payload ∈ view.terminal, ValidPayload payload
  proven : view.claims = true → Converts outcomeNames view.outcome ∧
    isBool view.evidence.terminationConfirmed true = true ∧ view.proves darwin = true
  cleanup : isBool (view.evidence.legacy.bind Legacy.outputCleanupPending) true = true →
    view.claims = true
  tags : view.ValidTags

end StateView

/-- What is read of a value. -/
def viewOf (value : Js) : StateView where
  evidence := readEvidence value.get
  kind := value.get "kind"
  target := value.get "target"
  outcome := value.get "outcome"
  lastKnown := value.get "lastKnown"
  terminal := (value.get "terminal").map readPayload

/-- An outcome is written as it was read. -/
theorem outcome_toJs (value : Option Js) : (TerminalSessionOutcome.ofJs value).toJs = value := by
  unfold TerminalSessionOutcome.ofJs
  split_ifs with exited timedOut spawnFailed outputLimited
  · exact (isText_iff.mp exited).symm
  · exact (isText_iff.mp timedOut).symm
  · exact (isText_iff.mp spawnFailed).symm
  · exact (isText_iff.mp outputLimited).symm
  · rfl

/-- A target is written as it was read. -/
theorem target_toJs (value : Option Js) : (SessionStateTarget.ofJs value).toJs = value := by
  unfold SessionStateTarget.ofJs
  split_ifs with creating running stopping terminal unreachable
  · exact (isText_iff.mp creating).symm
  · exact (isText_iff.mp running).symm
  · exact (isText_iff.mp stopping).symm
  · exact (isText_iff.mp terminal).symm
  · exact (isText_iff.mp unreachable).symm
  · rfl

/-- The value of a remembered outcome is made of objects, and its evidence has no tags. -/
structure ShapedPayload (payload : Js) : Prop where
  object : payload.isObject = true
  evidence : isObject (payload.get "evidence") = true
  untagged : ∀ key ∈ ["kind", "target", "outcome", "lastKnown", "terminal"],
    (payload.get "evidence").any (hasOwn · key) = false
  child : (field (payload.get "evidence") "child").isSome = true ∧
    raisesOnRead (field (payload.get "evidence") "child") = false
  termination : (field (payload.get "evidence") "termination").isSome = true ∧
    raisesOnRead (field (payload.get "evidence") "termination") = false

/-- The value is made of objects where a state is. -/
structure Shaped (value : Js) : Prop where
  object : value.isObject = true
  child : isObject (value.get "child") = true
  termination : isObject (value.get "termination") = true
  legacy : ∀ legacy ∈ value.get "legacy", legacy.isObject = true
  terminal : ∀ payload ∈ value.get "terminal", ShapedPayload payload

theorem payloadChecks_pass (payload : Js) :
    runChecks (payloadChecks payload) = some true ↔
      ShapedPayload payload ∧ Converts outcomeNames (payload.get "outcome") ∧
        ValidEvidence (readPayload payload).evidence := by
  have empty : runChecks [] = some true := rfl
  simp only [payloadChecks, runChecks_plain, runChecks_convertsTo, runChecks_cons, empty,
    Bool.and_eq_true, List.all_eq_true, Bool.not_eq_true', and_true, validChild, validTermination]
  constructor
  · rintro ⟨object, outcome, ⟨⟨evidence, untagged⟩, child⟩, childRead,
      ⟨⟨pid, directExited⟩, termination⟩, terminationRead, ⟨⟨requested, confirmed⟩, timedOut⟩,
      streamDrain⟩
    exact ⟨⟨object, evidence, untagged, ⟨child, childRead⟩, ⟨termination, terminationRead⟩⟩,
      outcome, ⟨pid, directExited, requested, confirmed, timedOut, streamDrain⟩⟩
  · rintro ⟨shaped, outcome, valid⟩
    exact ⟨shaped.object, outcome, ⟨⟨shaped.evidence, shaped.untagged⟩, shaped.child.1⟩,
      shaped.child.2, ⟨⟨valid.pid, valid.directExited⟩, shaped.termination.1⟩,
      shaped.termination.2, ⟨⟨valid.requested, valid.confirmed⟩, valid.timedOut⟩,
      valid.streamDrain⟩

theorem legacyChecks_pass (value : Option Js) :
    runChecks (legacyChecks value) = some true ↔
      ∀ legacy ∈ value, legacy.isObject = true ∧ ValidLegacy (readLegacy legacy) := by
  have empty : runChecks [] = some true := rfl
  cases value with
  | none => simp [legacyChecks, empty]
  | some legacy =>
    simp only [legacyChecks, runChecks_plain, Bool.and_eq_true, Option.mem_def, Option.some_inj,
      forall_eq']
    cases stored : legacy.get "tombstone" with
    | none =>
      constructor
      · rintro ⟨⟨object, cleanup⟩, _⟩
        exact ⟨object, ⟨cleanup, by simp [readLegacy, stored]⟩⟩
      · rintro ⟨object, valid⟩
        exact ⟨⟨object, valid.cleanup⟩, rfl⟩
    | some tombstone =>
      simp only [runChecks_plain, runChecks_convertsTo, empty, Bool.and_eq_true, and_true]
      constructor
      · rintro ⟨⟨object, cleanup⟩, ⟨tombstoneObject, version⟩, lastKnown⟩
        refine ⟨object, ⟨cleanup, ?_⟩⟩
        intro other member
        have found : other = tombstone := by simpa [readLegacy, stored] using member.symm
        rw [found]
        exact ⟨tombstoneObject, version, lastKnown⟩
      · rintro ⟨object, valid⟩
        have buried := valid.tombstone tombstone (by simp [readLegacy, stored])
        exact ⟨⟨object, valid.cleanup⟩, ⟨buried.object, buried.version⟩, buried.lastKnown⟩

theorem kindChecks_pass (value : Js) :
    runChecks (kindChecks value.get) = some true ↔ (viewOf value).ValidTags := by
  have empty : runChecks [] = some true := rfl
  have payload : (viewOf value).terminal.isSome = (value.get "terminal").isSome := by
    simp [viewOf]
  have absent : (viewOf value).terminal = none ↔ (value.get "terminal").isSome = false := by
    simp [viewOf]
  have tombstone : (viewOf value).tombstone = field (value.get "legacy") "tombstone" := by
    cases stored : value.get "legacy" <;>
      simp [StateView.tombstone, viewOf, readEvidence, stored, field, readLegacy]
  have unburied : (viewOf value).evidence.legacy = none ↔ value.get "legacy" = none := by
    simp [viewOf, readEvidence]
  constructor
  · intro passes
    unfold kindChecks at passes
    split at passes
    next kind =>
      simp only [runChecks_plain, empty, Bool.and_eq_true, Option.isNone_iff_eq_none,
        Bool.not_eq_true', and_true] at passes
      obtain ⟨⟨target, lastKnown⟩, terminal⟩ := passes
      exact .terminal (isText_iff.mp kind) target lastKnown (absent.mpr terminal)
    next =>
      split at passes
      next kind =>
        simp only [runChecks_plain, runChecks_convertsTo, empty, Bool.and_eq_true, beq_iff_eq,
          Option.isNone_iff_eq_none, and_true] at passes
        obtain ⟨⟨target, outcome⟩, lastKnown, terminal⟩ := passes
        exact .unreachable (isText_iff.mp kind) target outcome lastKnown
          (terminal.trans payload.symm)
      next =>
        split at passes
        next kind =>
          simp only [runChecks_plain, runChecks_convertsTo, empty, Bool.and_eq_true,
            Bool.or_eq_true, beq_iff_eq, Option.isNone_iff_eq_none, and_true, ← tombstone]
            at passes
          obtain ⟨target, ⟨⟨outcome, lastKnown⟩, terminal⟩, buried⟩ := passes
          exact .cleaning (isText_iff.mp kind) target outcome lastKnown
            (payload.trans terminal) buried
        next =>
          simp only [runChecks_plain, empty, Bool.and_eq_true, Option.isNone_iff_eq_none, and_true,
            Bool.not_eq_true', isOneOf, List.any_cons, List.any_nil, Bool.or_false,
            Bool.or_eq_true, isText_iff] at passes
          obtain ⟨⟨⟨⟨⟨kind, target⟩, outcome⟩, lastKnown⟩, terminal⟩, legacy⟩ := passes
          obtain creating | running | stopping := kind
          · exact .active .creating creating target outcome lastKnown (absent.mpr terminal)
              (unburied.mpr legacy)
          · exact .active .running running target outcome lastKnown (absent.mpr terminal)
              (unburied.mpr legacy)
          · exact .active .stopping stopping target outcome lastKnown (absent.mpr terminal)
              (unburied.mpr legacy)
  · intro tags
    simp only [kindChecks]
    cases tags with
    | terminal kind target lastKnown terminal =>
      change value.get "kind" = _ at kind
      rw [kind, if_pos (by decide)]
      simp only [runChecks_plain, empty, Bool.and_eq_true, Option.isNone_iff_eq_none,
        Bool.not_eq_true', and_true]
      exact ⟨⟨target, lastKnown⟩, absent.mp terminal⟩
    | unreachable kind target outcome lastKnown terminal =>
      change value.get "kind" = _ at kind
      rw [kind, if_neg (by decide), if_pos (by decide)]
      simp only [runChecks_plain, runChecks_convertsTo, empty, Bool.and_eq_true, beq_iff_eq,
        Option.isNone_iff_eq_none, and_true]
      exact ⟨⟨target, outcome⟩, lastKnown, terminal.trans payload⟩
    | cleaning kind target outcome lastKnown terminal buried =>
      change value.get "kind" = _ at kind
      rw [kind, if_neg (by decide), if_neg (by decide), if_pos (by decide)]
      simp only [runChecks_plain, runChecks_convertsTo, empty, Bool.and_eq_true, Bool.or_eq_true,
        beq_iff_eq, Option.isNone_iff_eq_none, and_true, ← tombstone, ← payload]
      exact ⟨target, ⟨⟨outcome, lastKnown⟩, terminal⟩, buried⟩
    | active active kind target outcome lastKnown terminal legacy =>
      change value.get "kind" = _ at kind
      have named : isText active.target.toJs "terminal" = false ∧
          isText active.target.toJs "unreachable" = false ∧
          isText active.target.toJs "cleaning" = false ∧
          isOneOf active.target.toJs ["creating", "running", "stopping"] = true := by
        cases active <;> decide
      obtain ⟨notTerminal, notUnreachable, notCleaning, listed⟩ := named
      simp only [kind, notTerminal, notUnreachable, notCleaning, listed, Bool.false_eq_true,
        if_false, runChecks_plain, empty, Bool.and_eq_true, Option.isNone_iff_eq_none, and_true,
        true_and, Bool.not_eq_true']
      exact ⟨⟨⟨⟨target, outcome⟩, lastKnown⟩, absent.mp terminal⟩, unburied.mp legacy⟩

/-- A value passes the checks of a state just if it has its shape and what is read of it is
valid. -/
theorem stateChecks_pass (darwin : Bool) (value : Js) :
    runChecks (stateChecks darwin (some value)) = some true ↔
      Shaped value ∧ (viewOf value).Valid darwin := by
  have empty : runChecks [] = some true := rfl
  have reads : field (some value) = value.get := by
    funext key
    rfl
  have claims : claimsTerminal value.get = (viewOf value).claims := rfl
  have proves : terminalProof darwin value.get = (viewOf value).proves darwin := rfl
  have cleanup : field (value.get "legacy") "outputCleanupPending" =
      (viewOf value).evidence.legacy.bind Legacy.outputCleanupPending := by
    cases stored : value.get "legacy" <;>
      simp [viewOf, readEvidence, stored, field, readLegacy]
  have payloads : runChecks (((value.get "terminal").map payloadChecks).getD []) = some true ↔
      ∀ payload ∈ value.get "terminal",
        ShapedPayload payload ∧ ValidPayload (readPayload payload) := by
    cases stored : value.get "terminal" with
    | none => simp [empty]
    | some payload =>
      simp only [Option.map_some, Option.getD_some, Option.mem_def, Option.some_inj, forall_eq',
        payloadChecks_pass]
      constructor
      · rintro ⟨shaped, outcome, evidence⟩
        refine ⟨shaped, ?_, evidence⟩
        rw [readPayload, outcome_toJs]
        exact outcome
      · rintro ⟨shaped, outcome, evidence⟩
        rw [readPayload, outcome_toJs] at outcome
        exact ⟨shaped, outcome, evidence⟩
  simp only [stateChecks, reads, claims, proves, cleanup, List.cons_append, List.append_assoc,
    runChecks_plain, runChecks_append, payloads, legacyChecks_pass, kindChecks_pass,
    Bool.and_eq_true, Bool.or_eq_true, Bool.not_eq_true', validChild, validTermination]
  have proven : runChecks (if (viewOf value).claims = true then
        [convertsTo outcomeNames (value.get "outcome"),
          plain (isBool (field (value.get "termination") "confirmed") true &&
            (viewOf value).proves darwin)]
      else []) = some true ↔
      ((viewOf value).claims = true → Converts outcomeNames (value.get "outcome") ∧
        isBool (field (value.get "termination") "confirmed") true = true ∧
        (viewOf value).proves darwin = true) := by
    split
    next claimed =>
      simp only [claimed, runChecks_convertsTo, runChecks_plain, empty, Bool.and_eq_true, and_true,
        forall_const]
    next unclaimed => simp [empty, unclaimed]
  rw [proven]
  constructor
  · rintro ⟨⟨⟨⟨⟨⟨⟨object, child⟩, pid, directExited⟩, termination⟩, requested, confirmed⟩,
      timedOut⟩, streamDrain⟩, legacy, terminal, proof, cleaned, tags⟩
    refine ⟨⟨object, child, termination, fun stored member => (legacy stored member).1,
      fun payload member => (terminal payload member).1⟩, ?_⟩
    exact
      { evidence := ⟨pid, directExited, requested, confirmed, timedOut, streamDrain⟩
        legacy := by
          intro stored member
          obtain ⟨raw, found, rfl⟩ := Option.map_eq_some_iff.mp (Option.mem_def.mp member)
          exact (legacy raw found).2
        terminal := by
          intro payload member
          obtain ⟨raw, found, rfl⟩ := Option.map_eq_some_iff.mp (Option.mem_def.mp member)
          exact (terminal raw found).2
        proven := proof
        cleanup := by
          intro pending
          obtain unset | claimed := cleaned
          · rw [pending] at unset
            cases unset
          · exact claimed
        tags := tags }
  · rintro ⟨shaped, valid⟩
    have evidence := valid.evidence
    refine ⟨⟨⟨⟨⟨⟨⟨shaped.object, shaped.child⟩, evidence.pid, evidence.directExited⟩,
      shaped.termination⟩, evidence.requested, evidence.confirmed⟩, evidence.timedOut⟩,
      evidence.streamDrain⟩, ?_, ?_, valid.proven, ?_, valid.tags⟩
    · intro stored member
      exact ⟨shaped.legacy stored member,
        valid.legacy (readLegacy stored) (Option.mem_map_of_mem readLegacy member)⟩
    · intro payload member
      exact ⟨shaped.terminal payload member,
        valid.terminal (readPayload payload) (Option.mem_map_of_mem readPayload member)⟩
    · cases pending : isBool ((viewOf value).evidence.legacy.bind Legacy.outputCleanupPending) true
      with
      | true => exact .inr (valid.cleanup pending)
      | false => exact .inl rfl

/-! ## The value of a state -/

/-- What is read of the value of a state. -/
def stateView (state : SessionState) : StateView where
  evidence := state.evidence
  kind := (tags state).kind
  target := (tags state).target
  outcome := (tags state).outcome
  lastKnown := (tags state).lastKnown
  terminal :=
    match state with
    | .unreachable _ terminal _ | .cleaning _ _ _ terminal _ => terminal
    | _ => none

theorem viewOf_stateJson {state : SessionState} (canonical : Canonical state) :
    viewOf (stateJson state) = stateView state := by
  obtain ⟨kindRead, targetRead, outcomeRead, knownRead, terminalRead⟩ := get_tags state
  have evidence : readEvidence (stateJson state).get = state.evidence :=
    readEvidence_of_fields state.evidence fun key member => get_evidence state member
  have payloads : ((tags state).terminal).map readPayload = (stateView state).terminal := by
    cases state with
    | active | terminal => rfl
    | unreachable known terminal evidence => exact map_readPayload canonical.2
    | cleaning target outcome known terminal evidence => exact map_readPayload canonical.2.2.2
  simp only [viewOf, evidence, kindRead, targetRead, outcomeRead, knownRead, terminalRead, payloads]
  rfl

theorem shaped_payloadJson (payload : TerminalSessionPayload) :
    ShapedPayload (payloadJson payload) := by
  have evidence := (get_payload payload).2
  have reads (key : String) : (record (evidenceFields payload.evidence)).get key =
      ((evidenceFields payload.evidence).lookup key).join :=
    get_record _ key (evidenceFields_distinct payload.evidence)
  exact
    { object := rfl
      evidence := by
        rw [evidence]
        rfl
      untagged := by
        intro key member
        have absent : (evidenceFields payload.evidence).lookup key = none := by
          rw [List.lookup_eq_none_iff]
          revert key
          simp [evidenceFields]
        simp [evidence, hasOwn, reads, absent]
      child := by
        simp only [evidence, field, Option.bind_some, reads]
        exact ⟨rfl, rfl⟩
      termination := by
        simp only [evidence, field, Option.bind_some, reads]
        exact ⟨rfl, rfl⟩ }

/-- The value of a state is made of objects. -/
theorem shaped_stateJson (state : SessionState) : Shaped (stateJson state) where
  object := rfl
  child := by
    rw [get_evidence state (by simp [evidenceFields])]
    rfl
  termination := by
    rw [get_evidence state (by simp [evidenceFields])]
    rfl
  legacy := by
    intro legacy member
    rw [get_evidence state (by simp [evidenceFields])] at member
    obtain ⟨stored, _, rfl⟩ : ∃ stored, state.evidence.legacy = some stored ∧
        legacyJson stored = legacy := by
      simpa [evidenceFields, List.lookup_cons] using member
    rfl
  terminal := by
    intro payload member
    rw [(get_tags state).2.2.2.2] at member
    obtain ⟨stored, rfl⟩ : ∃ stored, payloadJson stored = payload := by
      cases state with
      | active | terminal => cases member
      | unreachable | cleaning =>
        obtain ⟨stored, _, same⟩ := Option.map_eq_some_iff.mp (Option.mem_def.mp member)
        exact ⟨stored, same⟩
    exact shaped_payloadJson stored

/-- The value of a state passes the checks just if what is read of it is valid. -/
theorem stateJson_pass (darwin : Bool) {state : SessionState} (canonical : Canonical state) :
    runChecks (stateChecks darwin (some (stateJson state))) = some true ↔
      (stateView state).Valid darwin := by
  rw [stateChecks_pass, viewOf_stateJson canonical]
  exact and_iff_right (shaped_stateJson state)

end OpencodePty.SessionCodec
