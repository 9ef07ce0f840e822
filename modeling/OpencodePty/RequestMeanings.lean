import OpencodePty.ClientRequests

/-!
# What the daemon makes of the client's requests

The checks of the daemon take from a record of the client just what the client has put into it.
So the daemon does for each method what the method means, wherever the conditions of the method
hold, and nothing where they do not.
-/

namespace OpencodePty.ClientRequests

open OpencodePty.JsValues OpencodePty.PayloadChecks OpencodePty.FixedWindows
open OpencodePty.RpcDispatch
open OpencodePty.Approvals (Failure requiredString optionalNonnegativeInteger
  requiredPositiveInteger maxStringLength maxApprovalExpirySeconds)

/-! ## Checks that accept one value -/

section
variable {α β : Type} {condition other : Prop}

/-- A check accepts nothing but a value, and this under a condition. -/
def Accepts (result : Except Failure α) (value : α) (condition : Prop) : Prop :=
  ∀ accepted, result = .ok accepted ↔ accepted = value ∧ condition

/-- A condition may be replaced by an equivalent one. -/
theorem Accepts.imp {result : Except Failure α} {value : α}
    (accepts : Accepts result value condition) (same : condition ↔ other) :
    Accepts result value other :=
  fun accepted => (accepts accepted).trans (and_congr_right fun _ => same)

/-- A result without a check is accepted in any case. -/
theorem Accepts.pure (value : α) : Accepts (pure value) value True := by
  intro accepted
  constructor
  · intro returned
    cases returned
    exact ⟨rfl, trivial⟩
  · rintro ⟨rfl, _⟩
    rfl

/-- Two checks in a row accept where both of them do. -/
theorem Accepts.bind {result : Except Failure α} {value : α} {next : α → Except Failure β}
    {last : β} (first : Accepts result value condition) (rest : Accepts (next value) last other) :
    Accepts (result >>= next) last (condition ∧ other) := by
  intro accepted
  constructor
  · intro returned
    obtain ⟨between, checked, remaining⟩ := bind_ok returned
    obtain ⟨rfl, holds⟩ := (first between).mp checked
    obtain ⟨same, holds'⟩ := (rest accepted).mp remaining
    exact ⟨same, holds, holds'⟩
  · rintro ⟨same, holds, holds'⟩
    have checked := (first value).mpr ⟨rfl, holds⟩
    have remaining := (rest accepted).mpr ⟨same, holds'⟩
    rw [checked]
    exact remaining

/-- A check that throws in one case. -/
theorem Accepts.unless {wrong : Prop} [Decidable wrong] {failure : Failure}
    {result : Except Failure α} {value : α} (accepts : Accepts result value condition) :
    Accepts (if wrong then .error failure else result) value (¬ wrong ∧ condition) := by
  intro accepted
  split
  next refused => simp [refused]
  next passed => simpa [passed] using accepts accepted

end

/-! ## Reads of a record -/

section
variable {α : Type} {fields : List (String × Option Js)} {key : String} {owns : Ownership}
  {owner : OwnerContext}

/-- A check that reads one field takes from it what the client has put there. -/
theorem field_record (distinct : (fields.map Prod.fst).Nodup) {β : Type} {written : β → Option Js}
    (injective : Function.Injective written) {value : β} (inside : (key, written value) ∈ fields)
    {result : Except Failure β} {within : β → Prop}
    (checks : ∀ accepted, result = .ok accepted ↔
      (record fields).get key = written accepted ∧ within accepted) :
    Accepts result value (within value) := by
  intro accepted
  rw [checks, record_get distinct inside, injective.eq_iff]
  constructor
  · rintro ⟨rfl, holds⟩
    exact ⟨rfl, holds⟩
  · rintro ⟨rfl, holds⟩
    exact ⟨rfl, holds⟩

/-- Different texts are written differently. -/
theorem str_injective : Function.Injective Js.str := fun _ _ same => Js.str.inj same

/-- Different numbers are written differently. -/
theorem int_injective : Function.Injective Js.int := by
  intro first second same
  cases same
  rfl

/-- Different values are written to different fields. -/
theorem some_injective {written : α → Js} (injective : Function.Injective written) :
    Function.Injective fun value => some (written value) :=
  (Option.some_injective Js).comp injective

/-- A required text is read back from the record that it was written to. -/
theorem requiredString_record (distinct : (fields.map Prod.fst).Nodup) {text : JsString}
    (inside : (key, some (.str text)) ∈ fields) :
    Accepts (requiredString (record fields) key) text (Required text) :=
  field_record distinct (some_injective str_injective) inside fun _ => requiredString_ok

/-- An optional text is read back. -/
theorem optionalString_record (distinct : (fields.map Prod.fst).Nodup) {text : Option JsString}
    (inside : (key, optionalText text) ∈ fields) :
    Accepts (optionalString (record fields) key) text (Short text) :=
  field_record distinct (Option.map_injective str_injective) inside fun _ => optionalString_ok

/-- An optional flag is read back. -/
theorem optionalBoolean_record (distinct : (fields.map Prod.fst).Nodup) {flag : Option Bool}
    (inside : (key, flag.map .bool) ∈ fields) :
    Accepts (optionalBoolean (record fields) key) flag True := by
  have injective : Function.Injective Js.bool := fun _ _ same => Js.bool.inj same
  refine @field_record _ _ distinct _ _ (Option.map_injective injective) _ inside _
    (fun _ => True) fun accepted => ?_
  rw [optionalBoolean_ok, and_true]

/-- A page is read back. -/
theorem page_record (distinct : (fields.map Prod.fst).Nodup) {number : Option Int}
    (inside : (key, optionalNumber number) ∈ fields) :
    Accepts (optionalNonnegativeInteger (record fields) key) number (Page number) :=
  field_record distinct (Option.map_injective int_injective) inside fun _ =>
    optionalNonnegativeInteger_ok

/-- A position is read back. -/
theorem sequence_record (distinct : (fields.map Prod.fst).Nodup) {number : Option Int}
    (inside : (key, optionalNumber number) ∈ fields) :
    Accepts (optionalSequence (record fields) key) number (RpcDispatch.Sequence number) :=
  field_record distinct (Option.map_injective int_injective) inside fun _ => optionalSequence_ok

/-- A number of seconds is read back. -/
theorem seconds_record (distinct : (fields.map Prod.fst).Nodup) {number : Int}
    (inside : (key, some (.int number)) ∈ fields) :
    Accepts (requiredPositiveInteger (record fields) key) number (Seconds number) :=
  field_record distinct (some_injective int_injective) inside fun _ => requiredPositiveInteger_ok

/-- A width or a height is read back. -/
theorem size_record (distinct : (fields.map Prod.fst).Nodup) {number : Int}
    (inside : (key, some (.int number)) ∈ fields) :
    Accepts (requiredBoundedInteger (record fields) key 1000) number
      (1 ≤ number ∧ number ≤ 1000) :=
  field_record distinct (some_injective int_injective) inside fun _ =>
    requiredBoundedInteger_ok (by decide)

/-- A record with known fields is taken as it is. -/
theorem fieldsPayload_record {names : List String}
    (known : ∀ key ∈ fields.map Prod.fst, key ∈ names) :
    Accepts (fieldsPayload (some (record fields)) names) (record fields) True := by
  intro accepted
  rw [record_fields known, and_true]

/-- A call about a session is accepted from its owner. -/
theorem authorize_accepts {id : JsString} :
    Accepts (authorize owns owner id) () (owns id owner = true) := by
  intro accepted
  rw [authorize_ok]
  exact (and_iff_right rfl).symm

/-- The session of a call is read back, and has to be the owner's. -/
theorem ownSession_record (distinct : (fields.map Prod.fst).Nodup) {names : List String}
    (known : ∀ key ∈ fields.map Prod.fst, key ∈ names) {id : JsString}
    (inside : ("id", some (.str id)) ∈ fields) :
    Accepts (ownSession owns owner (some (record fields)) names) (record fields, id)
      (Required id ∧ owns id owner = true) := by
  refine ((fieldsPayload_record known).bind ((requiredString_record distinct inside).bind
    (authorize_accepts.bind (.pure (record fields, id))))).imp ?_
  simp

/-- The condition of a wait, as it was given. -/
theorem waitCondition_record (condition : WaitCondition) :
    Accepts (waitCondition (some (record (conditionEntries condition)))) condition
      (ConditionBounded condition) := by
  have distinct : ((conditionEntries condition).map Prod.fst).Nodup := by
    cases condition <;> simp [conditionEntries]
  have kind : ("kind", some (.str (js condition.kind))) ∈ conditionEntries condition := by
    cases condition <;> simp [conditionEntries, WaitCondition.kind, Js.text]
  have known : ∀ key ∈ (conditionEntries condition).map Prod.fst, key ∈ condition.fields := by
    cases condition <;> simp [conditionEntries, WaitCondition.fields]
  have apart : js "exit" ≠ js "output" := by decide
  intro accepted
  rw [waitCondition_ok]
  constructor
  · rintro ⟨value, fields, read, given'⟩
    obtain ⟨same, _⟩ := fieldsPayload_ok.mp fields
    cases same
    obtain ⟨same, _⟩ := (requiredString_record distinct kind _).mp read
    cases condition with
    | exit =>
      cases accepted with
      | exit => exact ⟨rfl, trivial⟩
      | output _ _ => exact absurd same.symm apart
    | output literal regex =>
      cases accepted with
      | exit => exact absurd same apart
      | output literal' regex' =>
        obtain ⟨rfl, short⟩ := (@optionalString_record _ "literal" distinct literal
          (by simp [conditionEntries]) _).mp given'.1
        obtain ⟨rfl, short'⟩ := (@optionalString_record _ "regex" distinct regex
          (by simp [conditionEntries]) _).mp given'.2.1
        exact ⟨rfl, short, short', given'.2.2⟩
  · rintro ⟨rfl, bounded⟩
    refine ⟨_, (record_fields known).mpr rfl, (requiredString_record distinct kind _).mpr ⟨rfl, ?_⟩,
      ?_⟩
    · cases accepted with
      | exit => exact ⟨by decide, by decide⟩
      | output _ _ =>
        change Required (js "output")
        exact ⟨by decide, by decide⟩
    · cases accepted with
      | exit => trivial
      | output literal regex =>
        obtain ⟨short, short', one⟩ := bounded
        exact ⟨(@optionalString_record _ "literal" distinct literal (by simp [conditionEntries]) _).mpr
            ⟨rfl, short⟩,
          (@optionalString_record _ "regex" distinct regex (by simp [conditionEntries]) _).mpr
            ⟨rfl, short'⟩, one⟩

/-! ## Options -/

/-- The options of a session are those that the client was given. -/
theorem describes_record {entries : List (String × Option Js)}
    (distinct : (entries.map Prod.fst).Nodup) {options : SpawnOptions}
    (whole : ∀ entry ∈ spawnEntries options, entry ∈ entries)
    (known : ∀ key ∈ entries.map Prod.fst, key ∈ spawnFields) :
    Accepts (spawnPayload (some (record entries))) options
      (SpawnBounded options ∧ options.parentSessionId.length ≤ maxStringLength) := by
  have inside {entry : String × Option Js} (member : entry ∈ spawnEntries options) :
      entry ∈ entries := whole entry member
  have args : Accepts (spawnArgs (record entries)) options.args
      (∀ args ∈ options.args, ArgsFit args) := by
    have injective : Function.Injective fun args : List JsString => Js.arr (args.map .str) :=
      fun _ _ same => List.map_injective_iff.mpr str_injective (Js.arr.inj same)
    exact @field_record _ "args" distinct _ _ (Option.map_injective injective) _
      (inside (by simp [spawnEntries])) _ _ fun _ => spawnArgs_ok
  have env : Accepts (spawnEnv (record entries)) options.env
      (∀ entries ∈ options.env, EnvFits entries) := by
    have injective : Function.Injective fun entries : List (String × JsString) =>
        Js.obj (entries.map fun entry => (entry.1, .str entry.2)) := by
      refine fun _ _ same => List.map_injective_iff.mpr ?_ (Js.obj.inj same)
      intro first second same
      obtain ⟨key, value⟩ := Prod.mk.inj same
      exact Prod.ext key (Js.str.inj value)
    exact @field_record _ "env" distinct _ _ (Option.map_injective injective) _
      (inside (by simp [spawnEntries])) _ _ fun _ => spawnEnv_ok
  have timeoutSeconds : Accepts (spawnTimeout (record entries)) options.timeoutSeconds
      (∀ seconds ∈ options.timeoutSeconds, Seconds seconds) :=
    @field_record _ "timeoutSeconds" distinct _ _ (Option.map_injective int_injective) _
      (inside (by simp [spawnEntries, optionalNumber])) _ _ fun _ => spawnTimeout_ok
  have inheritEnv : Accepts (optionalBoolean (record entries) "inheritEnv") options.inheritEnv
      True := optionalBoolean_record distinct (inside (by simp [spawnEntries]))
  have lifecycle : Accepts (spawnLifecycle (record entries)) options.lifecycle True := by
    have apart : js "conversation" ≠ js "persistent" := by decide
    have injective : Function.Injective fun lifecycle : Lifecycle => Js.text lifecycle.name := by
      intro first second same
      have names := Js.str.inj same
      cases first with
      | conversation =>
        cases second with
        | conversation => rfl
        | persistent => exact absurd names apart
      | persistent =>
        cases second with
        | conversation => exact absurd names.symm apart
        | persistent => rfl
    refine @field_record _ "lifecycle" distinct _ _ (Option.map_injective injective)
      options.lifecycle (inside (by simp [spawnEntries])) _ (fun _ => True) fun accepted => ?_
    rw [spawnLifecycle_ok, and_true]
  have command : Accepts (spawnCommand (record entries)) options.command
      (options.command ≠ [] ∧ options.command.length ≤ Approvals.maxCommandLength) :=
    @field_record _ "command" distinct _ _ (some_injective str_injective) _
      (inside (by simp [spawnEntries])) _
      (fun command => command ≠ [] ∧ command.length ≤ Approvals.maxCommandLength)
      fun _ => spawnCommand_ok
  have text {key : String} {value : Option JsString}
      (member : (key, optionalText value) ∈ spawnEntries options) :
      Accepts (optionalString (record entries) key) value (Short value) :=
    optionalString_record distinct (inside member)
  unfold spawnPayload
  refine Accepts.imp (.bind (fieldsPayload_record known) (.bind args (.bind env
    (.bind timeoutSeconds (.bind inheritEnv (.bind lifecycle (.bind command
    (.bind (@text "description" options.description (by simp [spawnEntries]))
    (.bind (@text "workdir" options.workdir (by simp [spawnEntries]))
    (.bind (@text "title" options.title (by simp [spawnEntries]))
    (.bind (@text "parentSessionId" (some options.parentSessionId)
      (by simp [spawnEntries, optionalText]))
    (.bind (@text "parentAgent" options.parentAgent (by simp [spawnEntries]))
    (.bind (@text "name" options.name (by simp [spawnEntries]))
    (.bind (@text "idempotencyKey" options.idempotencyKey (by simp [spawnEntries]))
      (.pure options))))))))))))))) ?_
  constructor
  · rintro ⟨_, args, env, timeoutSeconds, _, _, command, description, workdir, title, parent,
      parentAgent, name, idempotencyKey, _⟩
    exact ⟨⟨command, args, env, timeoutSeconds, description, workdir, title, parentAgent, name,
      idempotencyKey⟩, parent _ rfl⟩
  · rintro ⟨bounded, parent⟩
    refine ⟨trivial, bounded.args, bounded.env, bounded.timeoutSeconds, trivial, trivial,
      bounded.command, bounded.description, bounded.workdir, bounded.title, ?_,
      bounded.parentAgent, bounded.name, bounded.idempotencyKey, trivial⟩
    rintro _ ⟨rfl⟩
    exact parent

/-- The fields of a record are known where those are that have a value. -/
theorem fieldsPayload_written {names : List String} :
    Accepts (fieldsPayload (some (record fields)) names) (record fields)
      (∀ entry ∈ fields, entry.2.isSome = true → entry.1 ∈ names) := by
  intro accepted
  rw [fieldsPayload_ok]
  constructor
  · rintro ⟨same, entries, object, only⟩
    obtain rfl := Option.some.inj same
    refine ⟨rfl, fun entry inside present => ?_⟩
    obtain ⟨value, held⟩ := Option.isSome_iff_exists.mp present
    obtain rfl := Js.obj.inj object
    exact only (entry.1, value) (List.mem_filterMap.mpr ⟨entry, inside, by simp [held]⟩)
  · rintro ⟨rfl, known⟩
    refine ⟨rfl, _, rfl, fun entry inside => ?_⟩
    obtain ⟨source, member, made⟩ := List.mem_filterMap.mp inside
    obtain ⟨value, held, rfl⟩ := Option.map_eq_some_iff.mp made
    exact known source member (by simp [held])

/-- What an execution has besides its limit of output is what a session has. -/
theorem without_maxOutputBytes (options : ExecOptions) :
    without "maxOutputBytes" (record (execEntries options)) =
      record (spawnEntries options.toSpawnOptions) := by
  have kept : ∀ entry ∈ (spawnEntries options.toSpawnOptions).filterMap
      fun field => field.2.map (field.1, ·), entry.1 ≠ "maxOutputBytes" := by
    intro entry inside
    obtain ⟨source, member, made⟩ := List.mem_filterMap.mp inside
    obtain ⟨_, _, rfl⟩ := Option.map_eq_some_iff.mp made
    have key : source.1 ∈ spawnFields := by
      have keys : (spawnEntries options.toSpawnOptions).map Prod.fst ⊆ spawnFields := by
        simp [spawnEntries, spawnFields]
      exact keys (List.mem_map_of_mem member)
    intro same
    rw [same] at key
    exact absurd key (by decide)
  have added : (([("maxOutputBytes", optionalNumber options.maxOutputBytes)] :
      List (String × Option Js)).filterMap fun field => field.2.map (field.1, ·)).filter
        (fun entry => entry.1 ≠ "maxOutputBytes") = [] := by
    cases options.maxOutputBytes <;> simp [optionalNumber]
  simp only [without, record, execEntries, List.filterMap_append, List.filter_append]
  rw [List.filter_eq_self.mpr (by simpa using kept), added, List.append_nil]

/-- The options of a command are those that the client was given. It has no name and no key. -/
theorem runtimeLimited_record (options : ExecOptions) :
    Accepts (runtimeLimited (some (record (execEntries options)))) options
      (ExecBounded options ∧ options.parentSessionId.length ≤ maxStringLength ∧
        options.name = none ∧ options.idempotencyKey = none) := by
  have distinct : ((execEntries options).map Prod.fst).Nodup := by
    simp [execEntries, spawnEntries]
  have distinct' : ((spawnEntries options.toSpawnOptions).map Prod.fst).Nodup := by
    simp [spawnEntries]
  have known : ∀ key ∈ (spawnEntries options.toSpawnOptions).map Prod.fst, key ∈ spawnFields := by
    simp [spawnEntries, spawnFields]
  have named : (∀ entry ∈ execEntries options, entry.2.isSome = true → entry.1 ∈ execFields) ↔
      options.name = none ∧ options.idempotencyKey = none := by
    simp [execEntries, spawnEntries, execFields, optionalText]
  have safe : (maxRequestBytes : Int) ≤ maxSafeInteger := by decide
  have spawn : Accepts (spawnPayload (some (without "maxOutputBytes"
      (record (execEntries options))))) options.toSpawnOptions
      (SpawnBounded options.toSpawnOptions ∧
        options.parentSessionId.length ≤ maxStringLength) := by
    rw [without_maxOutputBytes]
    exact describes_record distinct' (fun _ inside => inside) known
  have output : Accepts (optionalBoundedInteger (record (execEntries options)) "maxOutputBytes"
      maxRequestBytes) options.maxOutputBytes
      (∀ bytes ∈ options.maxOutputBytes, 0 ≤ bytes ∧ bytes ≤ maxRequestBytes) :=
    @field_record _ "maxOutputBytes" distinct _ _ (Option.map_injective int_injective) _
      (by simp [execEntries, optionalNumber]) _ _ fun _ => optionalBoundedInteger_ok safe
  have checked : Accepts (execPayload (some (record (execEntries options)))) options _ :=
    .bind fieldsPayload_written (.bind spawn (.bind output (.unless (.pure options))))
  refine Accepts.imp (.bind checked (.unless (.pure options))) ?_
  rw [named]
  constructor
  · rintro ⟨⟨⟨name, key⟩, ⟨bounded, parent⟩, output, nonzero, _⟩, runtime, _⟩
    refine ⟨{ bounded with runtime := ?_, output := ?_ }, parent, name, key⟩
    · intro seconds present
      rw [Option.mem_def] at present
      simp only [present, Option.getD_some] at runtime
      omega
    · intro bytes present
      have range := output bytes present
      have : bytes ≠ 0 := by
        rintro rfl
        exact nonzero present
      exact ⟨by omega, range.2⟩
  · rintro ⟨bounded, parent, name, key⟩
    refine ⟨⟨⟨name, key⟩, ⟨bounded.toSpawnBounded, parent⟩, ?_, ?_, trivial⟩, ?_, trivial⟩
    · intro bytes present
      have range := bounded.output bytes present
      exact ⟨by omega, range.2⟩
    · intro zero
      have range := bounded.output 0 zero
      omega
    · cases present : options.timeoutSeconds with
      | none => decide
      | some seconds =>
        have range := bounded.runtime seconds present
        simp only [Option.getD_some]
        omega

end

end OpencodePty.ClientRequests
