import OpencodePty.Approvals

/-!
# The payloads of requests

The daemon checks the fields of each payload before it looks at what the payload asks for. The
checks stand in the order of the source, each with the text of its error. Beside each check
stands what it accepts.
-/

namespace OpencodePty.PayloadChecks

open OpencodePty.JsValues
open OpencodePty.Approvals (Failure approvalPayload requiredString optionalNonnegativeInteger
  requiredPositiveInteger maxStringLength maxCommandLength maxPageSize)

/-- How many bytes a request may have. -/
def maxRequestBytes : Nat := 1024 * 1024
/-- How many arguments a command may have. -/
def maxArguments : Nat := 256
/-- How many entries an environment may have. -/
def maxEnvironmentEntries : Nat := 128

/-- The payload of a call is an object. -/
def objectPayload : Option Js → Except Failure Js
  | some (.obj entries) => .ok (.obj entries)
  | _ => .error (.validation "RPC payload must be an object.")

/-- The object has no other fields than those listed. -/
def onlyFields (payload : Js) (names : List String) : Except Failure Unit :=
  match payload with
  | .obj entries =>
    match entries.find? fun entry => !names.contains entry.1 with
    | some entry => .error (.validation ("RPC field '" ++ entry.1 ++ "' is not supported."))
    | none => .ok ()
  | _ => .ok ()

/-- An object with no other fields than those listed. -/
def fieldsPayload (payload : Option Js) (names : List String) : Except Failure Js := do
  let value ← objectPayload payload
  onlyFields value names
  return value

/-- A text that may be absent and is at most as long as the limit. -/
def optionalString (payload : Js) (key : String) : Except Failure (Option JsString) :=
  match payload.get key with
  | none => .ok none
  | some (.str value) =>
    if value.length > maxStringLength then
      .error (.validation ("RPC field '" ++ key ++ "' must be a string within the size limit."))
    else .ok (some value)
  | some _ =>
    .error (.validation ("RPC field '" ++ key ++ "' must be a string within the size limit."))

/-- A flag that may be absent. -/
def optionalBoolean (payload : Js) (key : String) : Except Failure (Option Bool) :=
  match payload.get key with
  | none => .ok none
  | some (.bool value) => .ok (some value)
  | some _ => .error (.validation ("RPC field '" ++ key ++ "' must be a boolean."))

/-- A number that is needed, from one to a maximum. -/
def requiredBoundedInteger (payload : Js) (key : String) (maximum : Int) : Except Failure Int :=
  match payload.get key with
  | some (.num (.integer value)) =>
    if !(JsNumber.integer value).isSafeInteger || value < 1 || value > maximum then
      .error (.validation
        ("RPC field '" ++ key ++ "' must be an integer from 1 to " ++ toString maximum ++ "."))
    else .ok value
  | _ =>
    .error (.validation
      ("RPC field '" ++ key ++ "' must be an integer from 1 to " ++ toString maximum ++ "."))

/-- An optional integer, with the error for what is none and a check of what is one. -/
def optionalInteger (payload : Js) (key : String) (wrong : Failure)
    (check : Int → Option Failure) : Except Failure (Option Int) :=
  match payload.get key with
  | none => .ok none
  | some (.num (.integer value)) =>
    match check value with
    | some failure => .error failure
    | none => .ok (some value)
  | some _ => .error wrong

/-- A number that may be absent, up to a maximum. -/
def optionalBoundedInteger (payload : Js) (key : String) (maximum : Int) :
    Except Failure (Option Int) :=
  let wrong := Failure.validation
    ("RPC field '" ++ key ++ "' must be a non-negative integer within the size limit.")
  optionalInteger payload key wrong fun value =>
    if !(JsNumber.integer value).isSafeInteger || value < 0 || value > maximum then some wrong
    else none

/-- A position in the output that may be absent. -/
def optionalSequence (payload : Js) (key : String) : Except Failure (Option Int) :=
  let wrong :=
    Failure.validation ("RPC field '" ++ key ++ "' must be a non-negative safe integer.")
  optionalInteger payload key wrong fun value =>
    if !(JsNumber.integer value).isSafeInteger || value < 0 then some wrong else none

/-! ## Conditions of a wait -/

/-- What a call waits for. -/
inductive WaitCondition where
  | exit
  | output (literal regex : Option JsString)
  deriving DecidableEq

/-- `Boolean(value)` of an optional text. -/
def given (value : Option JsString) : Bool := value.any fun text => !text.isEmpty

/-- The condition of a wait, which has exactly the fields of its kind. -/
def waitCondition (value : Option Js) : Except Failure WaitCondition := do
  let condition ← objectPayload value
  let kind ← requiredString condition "kind"
  if kind = js "exit" then
    onlyFields condition ["kind"]
    return .exit
  else if kind ≠ js "output" then
    .error (.validation "wait condition kind must be 'output' or 'exit'.")
  else
    onlyFields condition ["kind", "literal", "regex"]
    let literal ← optionalString condition "literal"
    let regex ← optionalString condition "regex"
    if given literal = given regex then
      .error (.validation "Output wait requires exactly one of literal or regex.")
    else return .output literal regex

/-! ## The options of a session -/

/-- How long a session is kept. -/
inductive Lifecycle where
  | conversation
  | persistent
  deriving DecidableEq

/-- The checked options of a session that is to be started. -/
structure SpawnOptions where
  command : JsString
  args : Option (List JsString)
  description : Option JsString
  workdir : Option JsString
  env : Option (List (String × JsString))
  title : Option JsString
  parentSessionId : JsString
  parentAgent : Option JsString
  timeoutSeconds : Option Int
  name : Option JsString
  idempotencyKey : Option JsString
  inheritEnv : Option Bool
  lifecycle : Option Lifecycle
  deriving DecidableEq

/-- The texts of a list that holds nothing else. -/
def texts : List Js → Option (List JsString)
  | [] => some []
  | .str value :: rest => (texts rest).map (value :: ·)
  | _ :: _ => none

/-- The arguments of a command, which are texts. -/
def spawnArgs (payload : Js) : Except Failure (Option (List JsString)) :=
  match payload.get "args" with
  | none => .ok none
  | some (.arr items) =>
    match texts items with
    | none => .error (.validation "RPC field 'args' must be an array of strings.")
    | some args =>
      if args.length > maxArguments || args.any fun argument => argument.length > maxStringLength
      then .error (.validation "RPC field 'args' exceeds the size limit.")
      else .ok (some args)
  | some _ => .error (.validation "RPC field 'args' must be an array of strings.")

/-- The entries of a map that holds only texts. -/
def textEntries : List (String × Js) → Option (List (String × JsString))
  | [] => some []
  | (key, .str value) :: rest => (textEntries rest).map ((key, value) :: ·)
  | _ :: _ => none

/-- The environment of a command, whose values are texts. -/
def spawnEnv (payload : Js) : Except Failure (Option (List (String × JsString))) :=
  match payload.get "env" with
  | none => .ok none
  | some (.obj fields) =>
    match textEntries fields with
    | none => .error (.validation "RPC field 'env' must be a string map.")
    | some entries =>
      if entries.length > maxEnvironmentEntries ||
          entries.any fun entry => (js entry.1).length > 256 || entry.2.length > maxStringLength
      then .error (.validation "RPC field 'env' exceeds the size limit.")
      else .ok (some entries)
  | some _ => .error (.validation "RPC field 'env' must be a string map.")

/-- The timeout of a session in seconds. -/
def spawnTimeout (payload : Js) : Except Failure (Option Int) := do
  let timeoutSeconds ← optionalNonnegativeInteger payload "timeoutSeconds"
  if timeoutSeconds = some 0 then
    .error (.validation "RPC field 'timeoutSeconds' must be positive.")
  else return timeoutSeconds

/-- The lifecycle of a session, by its name. -/
def spawnLifecycle (payload : Js) : Except Failure (Option Lifecycle) := do
  match ← optionalString payload "lifecycle" with
  | none => return none
  | some lifecycle =>
    if lifecycle = js "conversation" then return some .conversation
    else if lifecycle = js "persistent" then return some .persistent
    else .error (.validation "RPC field 'lifecycle' must be 'conversation' or 'persistent'.")

/-- The command of a session, which is not empty. -/
def spawnCommand (payload : Js) : Except Failure JsString := do
  let command ← requiredString payload "command"
  if command.length > maxCommandLength then
    .error (.validation "RPC field 'command' exceeds the size limit.")
  else return command

/-- The fields that a request for a session may have. -/
def spawnFields : List String :=
  ["command", "args", "description", "workdir", "env", "inheritEnv", "lifecycle", "title",
    "parentSessionId", "parentAgent", "timeoutSeconds", "name", "idempotencyKey"]

/-- The options of a session, where all fields of the request pass their checks. -/
def spawnPayload (payload : Option Js) : Except Failure SpawnOptions := do
  let value ← fieldsPayload payload spawnFields
  let args ← spawnArgs value
  let env ← spawnEnv value
  let timeoutSeconds ← spawnTimeout value
  let inheritEnv ← optionalBoolean value "inheritEnv"
  let lifecycle ← spawnLifecycle value
  let command ← spawnCommand value
  let description ← optionalString value "description"
  let workdir ← optionalString value "workdir"
  let title ← optionalString value "title"
  let parentSessionId ← optionalString value "parentSessionId"
  let parentAgent ← optionalString value "parentAgent"
  let name ← optionalString value "name"
  let idempotencyKey ← optionalString value "idempotencyKey"
  return {
    command, args, description, workdir, env, title, parentAgent, timeoutSeconds, name,
    idempotencyKey, inheritEnv, lifecycle, parentSessionId := parentSessionId.getD [] }

/-- The checked options of a command that is to be executed. -/
structure ExecOptions extends SpawnOptions where
  maxOutputBytes : Option Int
  deriving DecidableEq

/-- The fields that a request for an execution may have. -/
def execFields : List String :=
  ["command", "args", "description", "workdir", "env", "inheritEnv", "lifecycle", "title",
    "parentSessionId", "parentAgent", "timeoutSeconds", "maxOutputBytes"]

/-- An object without a field. -/
def without (key : String) : Js → Js
  | .obj fields => .obj (fields.filter fun entry => entry.1 ≠ key)
  | value => value

/-- The options of an execution: those of a session, and how much output is kept. -/
def execPayload (payload : Option Js) : Except Failure ExecOptions := do
  let value ← fieldsPayload payload execFields
  let spawn ← spawnPayload (some (without "maxOutputBytes" value))
  let maxOutputBytes ← optionalBoundedInteger value "maxOutputBytes" maxRequestBytes
  if maxOutputBytes = some 0 then
    .error (.validation "RPC field 'maxOutputBytes' must be positive.")
  else return { spawn with maxOutputBytes := maxOutputBytes }

/-! ## What the checks accept -/

section
variable {payload : Js} {key : String}

/-- A required text is taken where it is there, not empty and not too long. -/
theorem requiredString_ok {value : JsString} :
    requiredString payload key = .ok value ↔
      payload.get key = some (.str value) ∧ value ≠ [] ∧ value.length ≤ maxStringLength := by
  unfold requiredString
  split
  next text read =>
    simp only [read, Option.some.injEq, Js.str.injEq]
    split
    next refused =>
      simp only [Bool.or_eq_true, List.isEmpty_iff, decide_eq_true_eq] at refused
      refine ⟨fun accepted => absurd accepted (by simp), ?_⟩
      rintro ⟨rfl, nonempty, short⟩
      rcases refused with empty | long
      · exact absurd empty nonempty
      · omega
    next accepted =>
      simp only [Bool.or_eq_true, List.isEmpty_iff, decide_eq_true_eq, not_or] at accepted
      constructor
      · rintro ⟨rfl⟩
        exact ⟨rfl, accepted.1, by omega⟩
      · rintro ⟨rfl, _⟩
        rfl
  next other =>
    refine ⟨fun accepted => absurd accepted (by simp), ?_⟩
    rintro ⟨read, _⟩
    exact absurd read (other value)

/-- An optional text is taken where it is absent or not too long. -/
theorem optionalString_ok {value : Option JsString} :
    optionalString payload key = .ok value ↔
      payload.get key = value.map Js.str ∧ ∀ text ∈ value, text.length ≤ maxStringLength := by
  unfold optionalString
  split
  next read =>
    rw [read]
    cases value <;> simp
  next text read =>
    rw [read]
    cases value with
    | none =>
      split <;> simp
    | some value =>
      split
      next long =>
        refine ⟨fun accepted => absurd accepted (by simp), ?_⟩
        simp only [Option.map_some, Option.some.injEq, Js.str.injEq, Option.mem_def, forall_eq']
        rintro ⟨rfl, short⟩
        omega
      next short =>
        simp only [Except.ok.injEq, Option.map_some, Option.some.injEq, Js.str.injEq,
          Option.mem_def, forall_eq']
        refine ⟨?_, And.left⟩
        rintro rfl
        exact ⟨rfl, by omega⟩
  next other unlike read =>
    refine ⟨fun accepted => absurd accepted (by simp), ?_⟩
    rw [read]
    rintro ⟨same, _⟩
    cases value with
    | none => cases same
    | some value => exact (unlike value (Option.some.inj same)).elim

/-- An optional flag is taken where it is absent or a flag. -/
theorem optionalBoolean_ok {value : Option Bool} :
    optionalBoolean payload key = .ok value ↔ payload.get key = value.map Js.bool := by
  unfold optionalBoolean
  split
  next read =>
    rw [read]
    cases value <;> simp
  next flag read =>
    rw [read]
    cases value <;> simp
  next other unlike read =>
    refine ⟨fun accepted => absurd accepted (by simp), ?_⟩
    rw [read]
    intro same
    cases value with
    | none => cases same
    | some value => exact (unlike value (Option.some.inj same)).elim

/-- An optional number is taken where it is absent or passes its check. -/
theorem optionalInteger_ok {wrong : Failure} {check : Int → Option Failure} {value : Option Int} :
    optionalInteger payload key wrong check = .ok value ↔
      payload.get key = value.map Js.int ∧ ∀ number ∈ value, check number = none := by
  unfold optionalInteger
  split
  next read =>
    rw [read]
    cases value <;> simp
  next number read =>
    rw [read]
    cases value with
    | none =>
      split <;> simp
    | some value =>
      simp only [Option.map_some, Js.int, Option.some.injEq, Js.num.injEq, JsNumber.integer.injEq,
        Option.mem_def, forall_eq']
      split
      next failure refused =>
        refine ⟨fun accepted => absurd accepted (by simp), ?_⟩
        rintro ⟨rfl, fits⟩
        rw [refused] at fits
        cases fits
      next fits =>
        simp only [Except.ok.injEq, Option.some.injEq]
        refine ⟨?_, And.left⟩
        rintro rfl
        exact ⟨rfl, fits⟩
  next other unlike read =>
    refine ⟨fun accepted => absurd accepted (by simp), ?_⟩
    rw [read]
    rintro ⟨same, _⟩
    cases value with
    | none => cases same
    | some value => exact (unlike value (Option.some.inj same)).elim

/-- The check of a page is an optional number with two bounds. -/
theorem optionalNonnegativeInteger_eq (payload : Js) (key : String) :
    optionalNonnegativeInteger payload key =
      optionalInteger payload key
        (.validation ("RPC field '" ++ key ++ "' must be a non-negative integer."))
        fun value =>
          if value < 0 then
            some (.validation ("RPC field '" ++ key ++ "' must be a non-negative integer."))
          else if value > maxPageSize then
            some (.validation ("RPC field '" ++ key ++ "' exceeds the size limit."))
          else none := by
  unfold optionalNonnegativeInteger optionalInteger
  cases payload.get key with
  | none => rfl
  | some value =>
    cases value with
    | num number =>
      cases number with
      | integer number =>
        dsimp only
        split
        · rfl
        · split <;> rfl
      | other bits => rfl
    | _ => rfl

/-- A page is taken where it is absent or between zero and the largest one. -/
theorem optionalNonnegativeInteger_ok {value : Option Int} :
    optionalNonnegativeInteger payload key = .ok value ↔
      payload.get key = value.map Js.int ∧ ∀ number ∈ value, 0 ≤ number ∧ number ≤ maxPageSize := by
  rw [optionalNonnegativeInteger_eq, optionalInteger_ok]
  refine and_congr_right fun _ => forall_congr' fun number => imp_congr_right fun _ => ?_
  split
  next => simp; omega
  next =>
    split
    next => simp; omega
    next => simp; omega

/-- A bounded number is taken where it is absent or between zero and its maximum. -/
theorem optionalBoundedInteger_ok {maximum : Int} (safe : maximum ≤ maxSafeInteger)
    {value : Option Int} :
    optionalBoundedInteger payload key maximum = .ok value ↔
      payload.get key = value.map Js.int ∧ ∀ number ∈ value, 0 ≤ number ∧ number ≤ maximum := by
  rw [optionalBoundedInteger, optionalInteger_ok]
  refine and_congr_right fun _ => forall_congr' fun number => imp_congr_right fun _ => ?_
  simp only [JsNumber.isSafeInteger, Bool.or_eq_true, Bool.not_eq_true', decide_eq_false_iff_not,
    decide_eq_true_eq, ite_eq_right_iff, reduceCtorEq, imp_false, not_or, not_not]
  omega

/-- A position is taken where it is absent or a safe integer that is not negative. -/
theorem optionalSequence_ok {value : Option Int} :
    optionalSequence payload key = .ok value ↔
      payload.get key = value.map Js.int ∧
        ∀ number ∈ value, 0 ≤ number ∧ number ≤ maxSafeInteger := by
  rw [optionalSequence, optionalInteger_ok]
  refine and_congr_right fun _ => forall_congr' fun number => imp_congr_right fun _ => ?_
  simp only [JsNumber.isSafeInteger, Bool.or_eq_true, Bool.not_eq_true', decide_eq_false_iff_not,
    decide_eq_true_eq, ite_eq_right_iff, reduceCtorEq, imp_false, not_or, not_not]
  omega

/-- A required number is taken where it is there and between one and the largest page. -/
theorem requiredPositiveInteger_ok {value : Int} :
    requiredPositiveInteger payload key = .ok value ↔
      payload.get key = some (Js.int value) ∧ 1 ≤ value ∧ value ≤ maxPageSize := by
  have read := @optionalNonnegativeInteger_ok payload key
  unfold requiredPositiveInteger
  cases checked : optionalNonnegativeInteger payload key with
  | error failure =>
    refine ⟨fun accepted => absurd accepted (by simp), ?_⟩
    rintro ⟨present, low, high⟩
    have fits : optionalNonnegativeInteger payload key = .ok (some value) :=
      read.mpr ⟨present, by simp; omega⟩
    rw [checked] at fits
    cases fits
  | ok number =>
    obtain ⟨present, fits⟩ := read.mp checked
    cases number with
    | none => simp [present]
    | some number =>
      have range := fits number rfl
      simp only [present, Option.map_some, Js.int, Option.some.injEq, Js.num.injEq,
        JsNumber.integer.injEq]
      split
      next failure same => cases same
      next same => cases same
      next same =>
        cases same
        refine ⟨fun accepted => absurd accepted (by simp), ?_⟩
        rintro ⟨rfl, low, _⟩
        omega
      next other nonzero same =>
        cases same
        simp only [Except.ok.injEq]
        refine ⟨?_, And.left⟩
        rintro rfl
        refine ⟨rfl, ?_, range.2⟩
        have : number ≠ 0 := fun zero => nonzero (by rw [zero])
        omega

/-- A required bounded number is taken where it is there and between one and its maximum. -/
theorem requiredBoundedInteger_ok {maximum : Int} (safe : maximum ≤ maxSafeInteger) {value : Int} :
    requiredBoundedInteger payload key maximum = .ok value ↔
      payload.get key = some (Js.int value) ∧ 1 ≤ value ∧ value ≤ maximum := by
  unfold requiredBoundedInteger
  split
  next number read =>
    simp only [read, Js.int, Option.some.injEq, Js.num.injEq, JsNumber.integer.injEq]
    split
    next refused =>
      refine ⟨fun accepted => absurd accepted (by simp), ?_⟩
      rintro ⟨rfl, low, high⟩
      simp only [JsNumber.isSafeInteger, Bool.or_eq_true, Bool.not_eq_true', decide_eq_false_iff_not,
        decide_eq_true_eq] at refused
      omega
    next accepted =>
      simp only [JsNumber.isSafeInteger, Bool.or_eq_true, Bool.not_eq_true',
        decide_eq_false_iff_not, decide_eq_true_eq, not_or, not_not] at accepted
      simp only [Except.ok.injEq]
      refine ⟨?_, And.left⟩
      rintro rfl
      exact ⟨rfl, by omega, by omega⟩
  next other =>
    refine ⟨fun accepted => absurd accepted (by simp), ?_⟩
    rintro ⟨read, _⟩
    exact absurd read (other value)

/-- The fields of an object pass where each of them has one of the names. -/
theorem onlyFields_ok {entries : List (String × Js)} {names : List String} :
    onlyFields (.obj entries) names = .ok () ↔ ∀ entry ∈ entries, entry.1 ∈ names := by
  simp only [onlyFields]
  split
  next entry found =>
    refine ⟨fun accepted => absurd accepted (by simp), fun only => ?_⟩
    have outside := List.find?_some found
    simp only [Bool.not_eq_true', List.contains_eq_mem, decide_eq_false_iff_not] at outside
    exact absurd (only entry (List.mem_of_find?_eq_some found)) outside
  next none' =>
    simp only [List.find?_eq_none, Bool.not_eq_true', Bool.not_eq_false, List.contains_eq_mem,
      decide_eq_true_eq] at none'
    simpa using none'

/-- A payload passes where it is an object that has no other fields. -/
theorem fieldsPayload_ok {payload : Option Js} {names : List String} {value : Js} :
    fieldsPayload payload names = .ok value ↔
      payload = some value ∧ ∃ entries, value = .obj entries ∧ ∀ entry ∈ entries,
        entry.1 ∈ names := by
  constructor
  · intro accepted
    obtain ⟨object, read, rest⟩ := bind_ok accepted
    obtain ⟨_, only, same⟩ := bind_ok rest
    cases same
    unfold objectPayload at read
    split at read
    next entries =>
      cases read
      exact ⟨rfl, entries, rfl, onlyFields_ok.mp only⟩
    next => cases read
  · rintro ⟨rfl, entries, rfl, only⟩
    have checked := onlyFields_ok.mpr only
    simp only [fieldsPayload, objectPayload, bind, Except.bind, checked, pure, Except.pure]

/-- Items are read as texts just where they are texts. -/
theorem texts_iff {items : List Js} {args : List JsString} :
    texts items = some args ↔ items = args.map Js.str := by
  induction items generalizing args with
  | nil => cases args <;> simp [texts]
  | cons item rest inductionHypothesis =>
    cases item with
    | str value =>
      cases args with
      | nil => simp [texts]
      | cons first others => simp [texts, inductionHypothesis, and_comm]
    | _ => cases args <;> simp [texts]

/-- Fields are read as entries of texts just where their values are texts. -/
theorem textEntries_iff {fields : List (String × Js)} {entries : List (String × JsString)} :
    textEntries fields = some entries ↔
      fields = entries.map fun entry => (entry.1, Js.str entry.2) := by
  induction fields generalizing entries with
  | nil => cases entries <;> simp [textEntries]
  | cons field rest inductionHypothesis =>
    obtain ⟨key, value⟩ := field
    cases value with
    | str value =>
      cases entries with
      | nil => simp [textEntries]
      | cons first others =>
        obtain ⟨name, text⟩ := first
        simp only [textEntries, Option.map_eq_some_iff, inductionHypothesis, List.map_cons,
          List.cons.injEq, Prod.mk.injEq, Js.str.injEq]
        constructor
        · rintro ⟨_, same, ⟨⟨rfl, rfl⟩, rfl⟩⟩
          exact ⟨⟨rfl, rfl⟩, same⟩
        · rintro ⟨⟨rfl, rfl⟩, same⟩
          exact ⟨others, same, ⟨rfl, rfl⟩, rfl⟩
    | _ => cases entries <;> simp [textEntries]

/-- The arguments of a command are within their limits. -/
def ArgsFit (args : List JsString) : Prop :=
  args.length ≤ maxArguments ∧ ∀ argument ∈ args, argument.length ≤ maxStringLength

/-- Arguments are taken where they are absent, or texts within the limits. -/
theorem spawnArgs_ok {args : Option (List JsString)} :
    spawnArgs payload = .ok args ↔
      payload.get "args" = args.map (fun args => .arr (args.map .str)) ∧
        ∀ present ∈ args, ArgsFit present := by
  unfold spawnArgs
  split
  next read =>
    rw [read]
    cases args <;> simp
  next items read =>
    rw [read]
    cases args with
    | none =>
      split
      · simp
      · split <;> simp
    | some args =>
      simp only [Option.map_some, Option.some.injEq, Js.arr.injEq, ← texts_iff, Option.mem_def,
        forall_eq']
      split
      next mixed => simp [mixed]
      next found same =>
        rw [same]
        split
        next refused =>
          refine ⟨fun accepted => absurd accepted (by simp), ?_⟩
          rintro ⟨⟨rfl⟩, few, short⟩
          simp only [Bool.or_eq_true, decide_eq_true_eq, List.any_eq_true] at refused
          rcases refused with many | ⟨argument, inside, long⟩
          · omega
          · have := short argument inside
            omega
        next accepted =>
          simp only [Bool.or_eq_true, decide_eq_true_eq, List.any_eq_true, not_or, not_exists,
            not_and] at accepted
          simp only [Except.ok.injEq, Option.some.injEq]
          refine ⟨?_, And.left⟩
          rintro rfl
          refine ⟨rfl, by omega, fun argument inside => ?_⟩
          have := accepted.2 argument inside
          omega
  next other unlike read =>
    refine ⟨fun accepted => absurd accepted (by simp), ?_⟩
    rw [read]
    rintro ⟨same, _⟩
    cases args with
    | none => cases same
    | some args => exact (unlike _ (Option.some.inj same)).elim

/-- The environment of a command is within its limits. -/
def EnvFits (entries : List (String × JsString)) : Prop :=
  entries.length ≤ maxEnvironmentEntries ∧
    ∀ entry ∈ entries, (js entry.1).length ≤ 256 ∧ entry.2.length ≤ maxStringLength

/-- An environment is taken where it is absent, or an object of texts within the limits. -/
theorem spawnEnv_ok {env : Option (List (String × JsString))} :
    spawnEnv payload = .ok env ↔
      payload.get "env" =
          env.map (fun entries => .obj (entries.map fun entry => (entry.1, .str entry.2))) ∧
        ∀ present ∈ env, EnvFits present := by
  unfold spawnEnv
  split
  next read =>
    rw [read]
    cases env <;> simp
  next fields read =>
    rw [read]
    cases env with
    | none =>
      split
      · simp
      · split <;> simp
    | some entries =>
      simp only [Option.map_some, Option.some.injEq, Js.obj.injEq, ← textEntries_iff,
        Option.mem_def, forall_eq']
      split
      next mixed => simp [mixed]
      next found same =>
        rw [same]
        split
        next refused =>
          refine ⟨fun accepted => absurd accepted (by simp), ?_⟩
          rintro ⟨⟨rfl⟩, few, short⟩
          simp only [Bool.or_eq_true, decide_eq_true_eq, List.any_eq_true] at refused
          rcases refused with many | ⟨entry, inside, long⟩
          · omega
          · have := short entry inside
            omega
        next accepted =>
          simp only [Bool.or_eq_true, decide_eq_true_eq, List.any_eq_true, not_or, not_exists,
            not_and] at accepted
          simp only [Except.ok.injEq, Option.some.injEq]
          refine ⟨?_, And.left⟩
          rintro rfl
          refine ⟨rfl, by omega, fun entry inside => ?_⟩
          have := accepted.2 entry inside
          omega
  next other unlike read =>
    refine ⟨fun accepted => absurd accepted (by simp), ?_⟩
    rw [read]
    rintro ⟨same, _⟩
    cases env with
    | none => cases same
    | some env => exact (unlike _ (Option.some.inj same)).elim

/-- A timeout is taken where it is absent or within its bounds. -/
theorem spawnTimeout_ok {timeoutSeconds : Option Int} :
    spawnTimeout payload = .ok timeoutSeconds ↔
      payload.get "timeoutSeconds" = timeoutSeconds.map Js.int ∧
        ∀ seconds ∈ timeoutSeconds, 1 ≤ seconds ∧ seconds ≤ maxPageSize := by
  have read := @optionalNonnegativeInteger_ok payload "timeoutSeconds"
  constructor
  · intro accepted
    obtain ⟨seconds, checked, rest⟩ := bind_ok accepted
    obtain ⟨present, fits⟩ := read.mp checked
    split at rest
    next zero => cases rest
    next nonzero =>
      cases rest
      refine ⟨present, ?_⟩
      rintro seconds ⟨rfl⟩
      have range := fits seconds rfl
      have : seconds ≠ 0 := fun zero => nonzero (by rw [zero])
      exact ⟨by omega, range.2⟩
  · rintro ⟨present, fits⟩
    have checked : optionalNonnegativeInteger payload "timeoutSeconds" = .ok timeoutSeconds := by
      refine read.mpr ⟨present, fun seconds inside => ?_⟩
      have range := fits seconds inside
      exact ⟨by omega, range.2⟩
    have nonzero : timeoutSeconds ≠ some 0 := by
      rintro rfl
      have range := fits 0 rfl
      omega
    simp only [spawnTimeout, checked, bind, Except.bind, nonzero, if_false, pure, Except.pure]

/-- The name of a lifecycle in a request. -/
def Lifecycle.name : Lifecycle → String
  | .conversation => "conversation"
  | .persistent => "persistent"

/-- A lifecycle is taken where it is absent or has a name. -/
theorem spawnLifecycle_ok {lifecycle : Option Lifecycle} :
    spawnLifecycle payload = .ok lifecycle ↔
      payload.get "lifecycle" = lifecycle.map fun lifecycle => .text lifecycle.name := by
  have read := @optionalString_ok payload "lifecycle"
  have apart : js "persistent" ≠ js "conversation" := by decide
  constructor
  · intro accepted
    obtain ⟨text, checked, rest⟩ := bind_ok accepted
    obtain ⟨present, _⟩ := read.mp checked
    rw [present]
    cases text with
    | none =>
      cases rest
      rfl
    | some text =>
      dsimp only at rest
      split at rest
      next same =>
        cases rest
        rw [same]
        rfl
      next =>
        split at rest
        next same =>
          cases rest
          rw [same]
          rfl
        next => cases rest
  · intro present
    cases lifecycle with
    | none =>
      have checked : optionalString payload "lifecycle" = .ok none := read.mpr ⟨present, by simp⟩
      simp only [spawnLifecycle, checked, bind, Except.bind, pure, Except.pure]
    | some lifecycle =>
      have checked : optionalString payload "lifecycle" = .ok (some (js lifecycle.name)) := by
        refine read.mpr ⟨present, ?_⟩
        rintro text ⟨rfl⟩
        cases lifecycle <;> decide
      cases lifecycle with
      | conversation =>
        simp only [spawnLifecycle, checked, bind, Except.bind, Lifecycle.name, if_true, pure,
          Except.pure]
      | persistent =>
        simp only [spawnLifecycle, checked, bind, Except.bind, Lifecycle.name, apart, if_false,
          if_true, pure, Except.pure]

/-- A command is taken where it is a text that is not empty and not too long. -/
theorem spawnCommand_ok {command : JsString} :
    spawnCommand payload = .ok command ↔
      payload.get "command" = some (.str command) ∧ command ≠ [] ∧
        command.length ≤ maxCommandLength := by
  have read := @requiredString_ok payload "command"
  have shorter : maxCommandLength ≤ maxStringLength := by decide
  constructor
  · intro accepted
    obtain ⟨text, checked, rest⟩ := bind_ok accepted
    obtain ⟨present, nonempty, _⟩ := read.mp checked
    split at rest
    next => cases rest
    next short =>
      cases rest
      exact ⟨present, nonempty, by omega⟩
  · rintro ⟨present, nonempty, short⟩
    have checked : requiredString payload "command" = .ok command :=
      read.mpr ⟨present, nonempty, by omega⟩
    have fits : ¬ command.length > maxCommandLength := by omega
    simp only [spawnCommand, checked, bind, Except.bind, fits, if_false, pure, Except.pure]

/-- The options are what the fields of a payload hold, each within its limits. -/
structure Describes (value : Js) (options : SpawnOptions) : Prop where
  args : spawnArgs value = .ok options.args
  env : spawnEnv value = .ok options.env
  timeoutSeconds : spawnTimeout value = .ok options.timeoutSeconds
  inheritEnv : optionalBoolean value "inheritEnv" = .ok options.inheritEnv
  lifecycle : spawnLifecycle value = .ok options.lifecycle
  command : spawnCommand value = .ok options.command
  description : optionalString value "description" = .ok options.description
  workdir : optionalString value "workdir" = .ok options.workdir
  title : optionalString value "title" = .ok options.title
  parentSessionId : ∃ text, optionalString value "parentSessionId" = .ok text ∧
    options.parentSessionId = text.getD []
  parentAgent : optionalString value "parentAgent" = .ok options.parentAgent
  name : optionalString value "name" = .ok options.name
  idempotencyKey : optionalString value "idempotencyKey" = .ok options.idempotencyKey

/-- The options of a session are taken just from the requests that describe them. -/
theorem spawnPayload_ok {payload : Option Js} {options : SpawnOptions} :
    spawnPayload payload = .ok options ↔
      ∃ value, fieldsPayload payload spawnFields = .ok value ∧ Describes value options := by
  constructor
  · intro accepted
    obtain ⟨value, fields, rest⟩ := bind_ok accepted
    obtain ⟨args, args', rest⟩ := bind_ok rest
    obtain ⟨env, env', rest⟩ := bind_ok rest
    obtain ⟨timeoutSeconds, timeoutSeconds', rest⟩ := bind_ok rest
    obtain ⟨inheritEnv, inheritEnv', rest⟩ := bind_ok rest
    obtain ⟨lifecycle, lifecycle', rest⟩ := bind_ok rest
    obtain ⟨command, command', rest⟩ := bind_ok rest
    obtain ⟨description, description', rest⟩ := bind_ok rest
    obtain ⟨workdir, workdir', rest⟩ := bind_ok rest
    obtain ⟨title, title', rest⟩ := bind_ok rest
    obtain ⟨parentSessionId, parentSessionId', rest⟩ := bind_ok rest
    obtain ⟨parentAgent, parentAgent', rest⟩ := bind_ok rest
    obtain ⟨name, name', rest⟩ := bind_ok rest
    obtain ⟨idempotencyKey, idempotencyKey', rest⟩ := bind_ok rest
    cases rest
    exact ⟨value, fields, args', env', timeoutSeconds', inheritEnv', lifecycle', command',
      description', workdir', title', ⟨parentSessionId, parentSessionId', rfl⟩, parentAgent', name',
      idempotencyKey'⟩
  · rintro ⟨value, fields, described⟩
    obtain ⟨parentSessionId, read, same⟩ := described.parentSessionId
    simp only [spawnPayload, fields, described.args, described.env, described.timeoutSeconds,
      described.inheritEnv, described.lifecycle, described.command, described.description,
      described.workdir, described.title, read, described.parentAgent, described.name,
      described.idempotencyKey, bind, Except.bind, pure, Except.pure, ← same]

/-- The options of an execution are those of a session, with a limit of output within its bounds. -/
theorem execPayload_ok {payload : Option Js} {options : ExecOptions} :
    execPayload payload = .ok options ↔
      ∃ value, fieldsPayload payload execFields = .ok value ∧
        spawnPayload (some (without "maxOutputBytes" value)) = .ok options.toSpawnOptions ∧
        value.get "maxOutputBytes" = options.maxOutputBytes.map Js.int ∧
        ∀ bytes ∈ options.maxOutputBytes, 1 ≤ bytes ∧ bytes ≤ maxRequestBytes := by
  have safe : (maxRequestBytes : Int) ≤ maxSafeInteger := by decide
  constructor
  · intro accepted
    obtain ⟨value, fields, rest⟩ := bind_ok accepted
    obtain ⟨spawn, spawned, rest⟩ := bind_ok rest
    obtain ⟨maxOutputBytes, bounded, rest⟩ := bind_ok rest
    obtain ⟨read, fits⟩ := (optionalBoundedInteger_ok safe).mp bounded
    split at rest
    next => cases rest
    next nonzero =>
      cases rest
      refine ⟨value, fields, spawned, read, ?_⟩
      rintro bytes ⟨rfl⟩
      have range := fits bytes rfl
      have : bytes ≠ 0 := fun zero => nonzero (by rw [zero])
      exact ⟨by omega, range.2⟩
  · rintro ⟨value, fields, spawned, read, fits⟩
    have bounded : optionalBoundedInteger value "maxOutputBytes" maxRequestBytes =
        .ok options.maxOutputBytes := by
      refine (optionalBoundedInteger_ok safe).mpr ⟨read, fun bytes inside => ?_⟩
      have range := fits bytes inside
      exact ⟨by omega, range.2⟩
    have nonzero : options.maxOutputBytes ≠ some 0 := by
      intro zero
      have range := fits 0 (by rw [zero]; rfl)
      omega
    simp only [execPayload, fields, spawned, bounded, bind, Except.bind, nonzero, if_false, pure,
      Except.pure]

/-- The name of a kind of condition. -/
def WaitCondition.kind : WaitCondition → String
  | .exit => "exit"
  | .output _ _ => "output"

/-- The fields of a kind of condition. -/
def WaitCondition.fields : WaitCondition → List String
  | .exit => ["kind"]
  | .output _ _ => ["kind", "literal", "regex"]

/-- A wait for output has one text to wait for. -/
def WaitCondition.Given (value : Js) : WaitCondition → Prop
  | .exit => True
  | .output literal regex =>
    optionalString value "literal" = .ok literal ∧ optionalString value "regex" = .ok regex ∧
      given literal ≠ given regex

/-- A condition is taken just from the payloads that have its kind, its fields and its values. -/
theorem waitCondition_ok {payload : Option Js} {condition : WaitCondition} :
    waitCondition payload = .ok condition ↔
      ∃ value, fieldsPayload payload condition.fields = .ok value ∧
        requiredString value "kind" = .ok (js condition.kind) ∧ condition.Given value := by
  have apart : js "output" ≠ js "exit" := by decide
  constructor
  · intro accepted
    obtain ⟨value, object, rest⟩ := bind_ok accepted
    obtain ⟨kind, read, rest⟩ := bind_ok rest
    split at rest
    next same =>
      obtain ⟨_, only, rest⟩ := bind_ok rest
      cases rest
      refine ⟨value, ?_, by rw [read, same]; rfl, trivial⟩
      simp only [fieldsPayload, object, WaitCondition.fields, only, bind, Except.bind, pure,
        Except.pure]
    next =>
      split at rest
      next => cases rest
      next same =>
        obtain ⟨_, only, rest⟩ := bind_ok rest
        obtain ⟨literal, literal', rest⟩ := bind_ok rest
        obtain ⟨regex, regex', rest⟩ := bind_ok rest
        split at rest
        next => cases rest
        next one =>
          cases rest
          refine ⟨value, ?_, by rw [read, not_not.mp same]; rfl, literal', regex', one⟩
          simp only [fieldsPayload, object, WaitCondition.fields, only, bind, Except.bind, pure,
            Except.pure]
  · rintro ⟨value, fields, read, given'⟩
    obtain ⟨object, object', rest⟩ := bind_ok fields
    obtain ⟨_, only, same⟩ := bind_ok rest
    cases same
    cases condition with
    | exit =>
      simp only [WaitCondition.fields] at only
      simp only [waitCondition, object', read, WaitCondition.kind, bind, Except.bind, if_true,
        only, pure, Except.pure]
    | output literal regex =>
      obtain ⟨literal', regex', one⟩ := given'
      simp only [WaitCondition.fields] at only
      simp only [waitCondition, object', read, WaitCondition.kind, bind, Except.bind, apart,
        if_false, ne_eq, not_true_eq_false, only, literal', regex', one, pure, Except.pure]

end

end OpencodePty.PayloadChecks
