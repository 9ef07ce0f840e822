import OpencodePty.OrderedMaps
import OpencodePty.SensitiveKeys

/-!
# The environment of a session

The daemon takes the entries of its own environment that are safe, or all of them, puts those of the
request over them, leaves out the search path and the knobs of the worker, and puts its own search path
back. On Windows it compares the search path and the safe keys ignoring their case, and the knobs not.

Values are strings, as those of `process.env` are. The upper case of a text is a parameter.
-/

namespace OpencodePty.RuntimeEnvironment

open OpencodePty.JsValues OpencodePty.TextEncodings OpencodePty.RegularExpressions
open OpencodePty.RegExpPatterns OpencodePty.SensitiveKeys OpencodePty.OrderedMaps OrderedMap

/-- An object with string values. -/
abbrev Environment := OrderedMap JsString JsString

/-- `SAFE_ENVIRONMENT_KEYS` -/
def safeEnvironmentKeys : List JsString :=
  [js "PATH", js "HOME", js "USERPROFILE", js "APPDATA", js "LOCALAPPDATA", js "SYSTEMROOT",
    js "SYSTEMDRIVE", js "WINDIR", js "TEMP", js "TMP", js "TERM", js "LANG", js "ComSpec",
    js "ProgramData", js "ALLUSERSPROFILE", js "PATHEXT", js "PUBLIC"]

/-- `MAX_REDACTION_SECRET_BYTES` -/
def maxRedactionSecretBytes : Nat := 4096

/-- How the names of the knobs of a worker begin. -/
def knobPrefix : JsString := js "OPENCODE_PTY_NATIVE_WORKER_"

/-- `/^OPENCODE_PTY_NATIVE_WORKER_/.test(key)` -/
def isKnob (key : JsString) : Bool :=
  (parse (js "^OPENCODE_PTY_NATIVE_WORKER_")).any fun regex => test (· == ·) regex key

section Runtime

variable (toUpperCase : JsString → JsString) (windows : Bool)

/-- The name is that of the search path. -/
def isPath (key : JsString) : Bool :=
  if windows then toUpperCase key == js "PATH" else key == js "PATH"

/-- The variable is one of those that are always inherited. -/
def isSafe (key : JsString) : Bool :=
  if windows then safeEnvironmentKeys.any fun safe => toUpperCase safe == toUpperCase key
  else safeEnvironmentKeys.contains key

/-- A key of the locale. -/
def isLocale (key : JsString) : Bool := (js "LC_").isPrefixOf key

/-- The entries that are taken from the daemon's own environment. -/
def base (inherit : Bool) (source : Environment) : Environment :=
  if inherit then source
  else .ofEntries (source.entries.filter fun entry =>
    isPath toUpperCase windows entry.1 || isSafe toUpperCase windows entry.1 || isLocale entry.1)

/-- An entry that is neither a search path nor a knob. -/
def isKept (entry : JsString × JsString) : Bool :=
  !isPath toUpperCase windows entry.1 && !isKnob entry.1

/-- The entries of the request. -/
def requestedEntries (requested : Option Environment) : List (JsString × JsString) :=
  (requested.map OrderedMap.entries).getD []

/-- The entries of the request over those of the daemon. -/
def merged (requested : Option Environment) (inherit : Bool) (source : Environment) : Environment :=
  .ofEntries (((base toUpperCase windows inherit source).entries ++
    requestedEntries requested).filter (isKept toUpperCase windows))

/-- The search path of the daemon: the first one of its environment. -/
def trustedPath (source : Environment) : Option JsString :=
  (source.entries.find? fun entry => isPath toUpperCase windows entry.1).map Prod.snd

/-- The environment with the search path of the daemon. -/
def withPath (requested : Option Environment) (inherit : Bool) (source : Environment) : Environment :=
  match trustedPath toUpperCase windows source with
  | some path => (merged toUpperCase windows requested inherit source).put (js "PATH") path
  | none => merged toUpperCase windows requested inherit source

/-- The value of a sensitive key that is too long. -/
def isOversized (entry : JsString × JsString) : Bool :=
  testSensitive entry.1 && maxRedactionSecretBytes < byteLength entry.2

/-- The message that names a variable that is too long. -/
def oversizedMessage (key : JsString) : JsString :=
  js "Sensitive environment value for '" ++ key ++ js "' exceeds 4096 UTF-8 bytes."

/-- `runtimeEnvironment` -/
def runtimeEnvironment (requested : Option Environment) (inherit : Bool) (source : Environment) :
    Except JsString Environment :=
  let environment := withPath toUpperCase windows requested inherit source
  match environment.entries.find? isOversized with
  | some entry => .error (oversizedMessage entry.1)
  | none => .ok environment

/-! ## What the environment must be -/

/-- A key that names a knob as the platform compares keys. -/
def namesKnob (key : JsString) : Bool :=
  knobPrefix.isPrefixOf (if windows then toUpperCase key else key)

/-- What may be said of every environment that is returned. -/
structure Safe (requested : Option Environment) (inherit : Bool) (source result : Environment) :
    Prop where
  path : ∀ entry ∈ result.entries, isPath toUpperCase windows entry.1 = true →
    entry.1 = js "PATH" ∧ ∃ own ∈ source.entries,
      isPath toUpperCase windows own.1 = true ∧ entry.2 = own.2
  pathKept : (∃ own ∈ source.entries, isPath toUpperCase windows own.1 = true) →
    js "PATH" ∈ result.keys
  knobs : ∀ key ∈ result.keys, namesKnob toUpperCase windows key = false
  origin : inherit = false → ∀ key ∈ result.keys, isSafe toUpperCase windows key = true ∨
    isLocale key = true ∨ key ∈ (requestedEntries requested).map Prod.fst
  requested : ∀ entry ∈ requestedEntries requested, isPath toUpperCase windows entry.1 = false →
    namesKnob toUpperCase windows entry.1 = false → entry ∈ result.entries
  limit : ∀ entry ∈ result.entries, testSensitive entry.1 = true →
    byteLength entry.2 ≤ maxRedactionSecretBytes

/-- No key that is taken over names a knob only when its case is ignored. -/
def KnobsAsWritten (requested : Option Environment) (inherit : Bool) (source : Environment) : Prop :=
  ∀ key, key ∈ (requestedEntries requested).map Prod.fst ∨ inherit = true ∧ key ∈ source.keys →
    namesKnob toUpperCase windows key = true → knobPrefix.isPrefixOf key = true

end Runtime

/-- `toUpperCase` takes ASCII characters one by one. -/
structure UppercasesAscii (toUpperCase : JsString → JsString) : Prop where
  empty : toUpperCase [] = []
  front : ∀ (front : List Char) (rest : JsString), (∀ character ∈ front, character.toNat < 128) →
    toUpperCase (encode front ++ rest) = encode (front.map Char.toUpper) ++ toUpperCase rest

/-! ## Keys -/

/-- The pattern of the source is the start with the letters of the prefix. -/
theorem parse_knob : parse (js "^OPENCODE_PTY_NATIVE_WORKER_") =
    some (chain (.sequence .empty .start) (knobPrefix.map .literal)) := by
  decide +kernel

/-- The regular expression of the knobs asks for their beginning. -/
theorem isKnob_eq (key : JsString) : isKnob key = knobPrefix.isPrefixOf key := by
  obtain ⟨finite, words⟩ := chain_literals (rfl : Pattern.empty.isFinite = true) knobPrefix
  have same (found : JsString) :
      List.Forall₂ (fun unit found => (unit == found) = true) knobPrefix found ↔
        knobPrefix = found := by
    simp only [beq_iff_eq, List.forall₂_eq_eq_eq]
  rw [isKnob, parse_knob, Option.any_some, Bool.eq_iff_iff, test_iff, List.isPrefixOf_iff_prefix]
  constructor
  · rintro ⟨before, rest, next, rfl, moved⟩
    obtain ⟨first, started, named⟩ := mem_chain.mp moved
    obtain ⟨_, empty, atStart⟩ := mem_sequence.mp started
    obtain rfl := mem_empty.mp empty
    obtain ⟨start, rfl⟩ := mem_start.mp atStart
    obtain ⟨word, member, found, spelled, after, _⟩ := (mem_words finite).mp named
    obtain rfl := List.reverse_eq_nil_iff.mp start
    rw [words] at member
    obtain rfl := List.mem_singleton.mp member
    obtain rfl := (same found).mp spelled
    exact ⟨next.2, after.symm⟩
  · rintro ⟨rest, rfl⟩
    refine ⟨[], knobPrefix ++ rest, (knobPrefix.reverse, rest), rfl,
      mem_chain.mpr ⟨([], knobPrefix ++ rest), ?_, ?_⟩⟩
    · exact mem_sequence.mpr ⟨_, mem_empty.mpr rfl, mem_start.mpr ⟨rfl, rfl⟩⟩
    · refine (mem_words finite).mpr ⟨knobPrefix, ?_, knobPrefix, (same _).mpr rfl, rfl, ?_⟩
      · rw [words]
        exact List.mem_singleton_self _
      · rw [List.append_nil]

section Keys

variable {toUpperCase : JsString → JsString} (upper : UppercasesAscii toUpperCase)

include upper

/-- A plain text is raised letter by letter. -/
theorem upper_ascii {text : List Char} (ascii : ∀ character ∈ text, character.toNat < 128) :
    toUpperCase (encode text) = encode (text.map Char.toUpper) := by
  have whole := upper.front text [] ascii
  rwa [List.append_nil, upper.empty, List.append_nil] at whole

/-- The search path is named in capitals on every platform. -/
theorem isPath_path (windows : Bool) : isPath toUpperCase windows (js "PATH") = true := by
  have path : toUpperCase (js "PATH") = js "PATH" :=
    upper_ascii upper (List.all_iff_forall_prop.mp (by decide))
  simp [isPath, path]

/-- The search path is safe. -/
theorem isSafe_of_isPath {key : JsString} {windows : Bool}
    (path : isPath toUpperCase windows key = true) : isSafe toUpperCase windows key = true := by
  have known : js "PATH" ∈ safeEnvironmentKeys := List.mem_cons_self
  cases windows with
  | false =>
    obtain rfl := beq_iff_eq.mp path
    exact List.contains_iff_mem.mpr known
  | true =>
    have same : toUpperCase (js "PATH") = js "PATH" :=
      upper_ascii upper (List.all_iff_forall_prop.mp (by decide))
    have equal : toUpperCase key = js "PATH" := beq_iff_eq.mp path
    refine List.any_eq_true.mpr ⟨_, known, ?_⟩
    rw [same, equal, beq_self_eq_true]

/-- A knob is named by its own spelling on every platform. -/
theorem namesKnob_starts {key : JsString} (windows : Bool)
    (knob : knobPrefix.isPrefixOf key = true) : namesKnob toUpperCase windows key = true := by
  obtain ⟨rest, rfl⟩ := List.isPrefixOf_iff_prefix.mp knob
  have same : toUpperCase (knobPrefix ++ rest) = knobPrefix ++ toUpperCase rest :=
    upper.front _ rest (List.all_iff_forall_prop.mp (by decide))
  rw [namesKnob, List.isPrefixOf_iff_prefix]
  split
  · rw [same]
    exact List.prefix_append _ _
  · exact List.prefix_append _ _

/-- Neither a search path nor a safe key nor a key of the locale names a knob. -/
theorem namesKnob_other {key : JsString} {windows : Bool}
    (other : isPath toUpperCase windows key = true ∨ isSafe toUpperCase windows key = true ∨
      isLocale key = true) : namesKnob toUpperCase windows key = false := by
  have safeKeys : ∀ safe ∈ safeEnvironmentKeys, knobPrefix.isPrefixOf safe = false ∧
      knobPrefix.isPrefixOf (toUpperCase safe) = false := by
    have texts : ∀ safe ∈ safeEnvironmentKeys, ∃ text : List Char, safe = encode text ∧
        (text.all fun character => character.toNat < 128) ∧ knobPrefix.isPrefixOf safe = false ∧
          knobPrefix.isPrefixOf (encode (text.map Char.toUpper)) = false := by
      have decoded : ∀ safe ∈ safeEnvironmentKeys,
          let text := safe.map fun unit => Char.ofNat unit.toNat
          safe = encode text ∧ (text.all fun character => character.toNat < 128) ∧
            knobPrefix.isPrefixOf safe = false ∧
              knobPrefix.isPrefixOf (encode (text.map Char.toUpper)) = false := by decide +kernel
      exact fun safe member => ⟨_, decoded safe member⟩
    intro safe member
    obtain ⟨text, rfl, ascii, plain, plainUpper⟩ := texts safe member
    rw [upper_ascii upper (List.all_iff_forall_prop.mp ascii)]
    exact ⟨plain, plainUpper⟩
  cases windows with
  | false =>
    change knobPrefix.isPrefixOf key = false
    obtain path | safe | locale := other
    · obtain rfl := beq_iff_eq.mp path
      decide
    · exact (safeKeys key (List.contains_iff_mem.mp safe)).1
    · obtain ⟨rest, rfl⟩ := List.isPrefixOf_iff_prefix.mp locale
      rfl
  | true =>
    change knobPrefix.isPrefixOf (toUpperCase key) = false
    obtain path | safe | locale := other
    · rw [beq_iff_eq.mp path]
      decide
    · obtain ⟨safe, member, same⟩ := List.any_eq_true.mp safe
      rw [← beq_iff_eq.mp same]
      exact (safeKeys safe member).2
    · obtain ⟨rest, rfl⟩ := List.isPrefixOf_iff_prefix.mp locale
      have begins : toUpperCase (js "LC_" ++ rest) = js "LC_" ++ toUpperCase rest :=
        upper.front _ rest (List.all_iff_forall_prop.mp (by decide))
      rw [begins]
      rfl

end Keys

/-! ## The returned environment -/

section Returned

variable {toUpperCase : JsString → JsString} {windows : Bool} {requested : Option Environment}
variable {inherit : Bool} {source result : Environment}

/-- What is returned is the environment with its path, and no variable is too long. -/
theorem returned_eq (returned : runtimeEnvironment toUpperCase windows requested inherit source =
    .ok result) : withPath toUpperCase windows requested inherit source = result ∧
      ∀ entry ∈ result.entries, isOversized entry = false := by
  rw [runtimeEnvironment] at returned
  split at returned
  next => cases returned
  next small =>
    obtain rfl := Except.ok.inj returned
    refine ⟨rfl, fun entry member => ?_⟩
    simpa using List.find?_eq_none.mp small entry member

/-- An environment without long values is returned. -/
theorem returned_small (small : ∀ entry ∈ (withPath toUpperCase windows requested inherit
    source).entries, byteLength entry.2 ≤ maxRedactionSecretBytes) :
    runtimeEnvironment toUpperCase windows requested inherit source =
      .ok (withPath toUpperCase windows requested inherit source) := by
  have none : (withPath toUpperCase windows requested inherit source).entries.find?
      isOversized = none := by
    refine List.find?_eq_none.mpr fun entry member => ?_
    rw [isOversized, decide_eq_false (Nat.not_lt.mpr (small entry member)), Bool.and_false]
    exact Bool.false_ne_true
  rw [runtimeEnvironment, none]

/-- A variable is kept where it is no path and no knob. -/
theorem isKept_iff {entry : JsString × JsString} : isKept toUpperCase windows entry = true ↔
    isPath toUpperCase windows entry.1 = false ∧ isKnob entry.1 = false := by
  simp [isKept]

/-- A variable to start with is one of the source, and one that is inherited. -/
theorem mem_base {entry : JsString × JsString}
    (member : entry ∈ (base toUpperCase windows inherit source).entries) :
    entry ∈ source.entries ∧ (inherit = false → isPath toUpperCase windows entry.1 = true ∨
      isSafe toUpperCase windows entry.1 = true ∨ isLocale entry.1 = true) := by
  cases inherit with
  | true => exact ⟨member, nofun⟩
  | false =>
    obtain nothing | taken := mem_putAll member
    · cases nothing
    · obtain ⟨inside, known⟩ := List.mem_filter.mp taken
      simp only [Bool.or_eq_true, or_assoc] at known
      exact ⟨inside, fun _ => known⟩

/-- A variable that is merged is kept, and is inherited or requested. -/
theorem mem_merged {entry : JsString × JsString}
    (member : entry ∈ (merged toUpperCase windows requested inherit source).entries) :
    isKept toUpperCase windows entry = true ∧
      (entry ∈ (base toUpperCase windows inherit source).entries ∨
        entry ∈ requestedEntries requested) := by
  obtain nothing | taken := mem_putAll member
  · cases nothing
  · obtain ⟨inside, kept⟩ := List.mem_filter.mp taken
    exact ⟨kept, List.mem_append.mp inside⟩

/-- What is kept of the request is in the merged entries. -/
theorem merged_requested {entry : JsString × JsString}
    (member : entry ∈ requestedEntries requested) (kept : isKept toUpperCase windows entry = true) :
    entry ∈ (merged toUpperCase windows requested inherit source).entries := by
  have distinct : ((requestedEntries requested).map Prod.fst).Nodup := by
    cases requested with
    | none => exact List.nodup_nil
    | some environment => exact environment.distinct
  rw [merged, OrderedMap.ofEntries, List.filter_append, putAll_append]
  exact putAll_last (distinct.sublist (List.filter_sublist.map Prod.fst))
    (List.mem_filter.mpr ⟨member, kept⟩)

/-- A key that is kept of the request or of the daemon's entries is among the merged keys. -/
theorem merged_keys {entry : JsString × JsString} (kept : isKept toUpperCase windows entry = true)
    (member : entry ∈ (base toUpperCase windows inherit source).entries ∨
      entry ∈ requestedEntries requested) :
    entry.1 ∈ (merged toUpperCase windows requested inherit source).keys := by
  refine putAll_keys.mpr (.inr (List.mem_map.mpr ⟨entry, List.mem_filter.mpr ⟨?_, kept⟩, rfl⟩))
  exact List.mem_append.mpr member

variable (upper : UppercasesAscii toUpperCase)

include upper

/-- An entry that names neither a search path nor a knob is kept. -/
theorem isKept_of_named {entry : JsString × JsString}
    (notPath : isPath toUpperCase windows entry.1 = false)
    (notNamed : namesKnob toUpperCase windows entry.1 = false) :
    isKept toUpperCase windows entry = true := by
  rw [isKept_iff, isKnob_eq]
  refine ⟨notPath, eq_false_of_ne_true fun knob => ?_⟩
  rw [namesKnob_starts upper windows knob] at notNamed
  cases notNamed

/-- The entries are the search path of the daemon and the merged ones. -/
theorem mem_withPath {entry : JsString × JsString} :
    entry ∈ (withPath toUpperCase windows requested inherit source).entries ↔
      entry.1 = js "PATH" ∧ trustedPath toUpperCase windows source = some entry.2 ∨
        entry ∈ (merged toUpperCase windows requested inherit source).entries := by
  have other (member : entry ∈ (merged toUpperCase windows requested inherit source).entries) :
      entry.1 ≠ js "PATH" := by
    intro path
    have notPath := (isKept_iff.mp (mem_merged member).1).1
    rw [path, isPath_path upper] at notPath
    cases notPath
  rw [withPath]
  split
  next path trusted =>
    rw [trusted, mem_put, Option.some.injEq, eq_comm (a := entry.2)]
    constructor
    · rintro (path | ⟨_, member⟩)
      · exact .inl path
      · exact .inr member
    · rintro (path | member)
      · exact .inl path
      · exact .inr ⟨other member, member⟩
  next trusted => simp [trusted]

/-- A search path in the environment is the one of the daemon. -/
theorem path_trusted {entry : JsString × JsString}
    (member : entry ∈ (withPath toUpperCase windows requested inherit source).entries)
    (isOne : isPath toUpperCase windows entry.1 = true) :
    entry.1 = js "PATH" ∧ ∃ own ∈ source.entries,
      isPath toUpperCase windows own.1 = true ∧ entry.2 = own.2 := by
  obtain ⟨path, trusted⟩ | inside := (mem_withPath upper).mp member
  · obtain ⟨own, found, same⟩ := Option.map_eq_some_iff.mp trusted
    exact ⟨path, own, List.mem_of_find?_eq_some found, by simpa using List.find?_some found,
      same.symm⟩
  · have notPath := (isKept_iff.mp (mem_merged inside).1).1
    rw [isOne] at notPath
    cases notPath

/-- Where the source has a path, the result has one. -/
theorem path_present {own : JsString × JsString} (inside : own ∈ source.entries)
    (isOne : isPath toUpperCase windows own.1 = true) :
    js "PATH" ∈ (withPath toUpperCase windows requested inherit source).keys := by
  have isThere : (source.entries.find? fun entry =>
      isPath toUpperCase windows entry.1).isSome := List.find?_isSome.mpr ⟨own, inside, isOne⟩
  obtain ⟨first, found⟩ := Option.isSome_iff_exists.mp isThere
  refine mem_keys.mpr ⟨first.2, (mem_withPath upper).mpr (.inl ⟨rfl, ?_⟩)⟩
  rw [trustedPath, found]
  rfl

/-- Where a key comes from that is not the search path. -/
theorem key_origin {key : JsString}
    (present : key ∈ (withPath toUpperCase windows requested inherit source).keys) :
    key = js "PATH" ∨ isKnob key = false ∧
      (key ∈ source.keys ∧ (inherit = false → isPath toUpperCase windows key = true ∨
          isSafe toUpperCase windows key = true ∨ isLocale key = true) ∨
        key ∈ (requestedEntries requested).map Prod.fst) := by
  obtain ⟨value, member⟩ := mem_keys.mp present
  obtain ⟨path, _⟩ | inside := (mem_withPath upper).mp member
  · exact .inl path
  · obtain ⟨kept, origin⟩ := mem_merged inside
    refine .inr ⟨(isKept_iff.mp kept).2, ?_⟩
    obtain own | asked := origin
    · obtain ⟨owned, known⟩ := mem_base own
      exact .inl ⟨mem_keys.mpr ⟨value, owned⟩, known⟩
    · exact .inr (List.mem_map.mpr ⟨_, asked, rfl⟩)

/-- A key that is taken over and names a knob only when its case is ignored is returned. -/
theorem knob_present {key : JsString} (taken : key ∈ (requestedEntries requested).map Prod.fst ∨
      inherit = true ∧ key ∈ source.keys) (named : namesKnob toUpperCase windows key = true)
    (other : ¬ knobPrefix.isPrefixOf key = true) :
    key ∈ (withPath toUpperCase windows requested inherit source).keys := by
  have kept (value : JsString) : isKept toUpperCase windows (key, value) = true := by
    rw [isKept_iff, isKnob_eq]
    refine ⟨?_, eq_false_of_ne_true other⟩
    by_contra path
    have notNamed := namesKnob_other upper (.inl (eq_true_of_ne_false path))
    rw [named] at notNamed
    cases notNamed
  have member : key ∈ (merged toUpperCase windows requested inherit source).keys := by
    obtain asked | ⟨rfl, own⟩ := taken
    · obtain ⟨⟨_, value⟩, inside, rfl⟩ := List.mem_map.mp asked
      exact merged_keys (kept value) (.inr inside)
    · obtain ⟨value, inside⟩ := mem_keys.mp own
      exact merged_keys (kept value) (.inl inside)
  obtain ⟨value, inside⟩ := mem_keys.mp member
  exact mem_keys.mpr ⟨value, (mem_withPath upper).mpr (.inr inside)⟩

/-- No other knob is returned. -/
theorem knob_absent (asWritten : KnobsAsWritten toUpperCase windows requested inherit source)
    {key : JsString}
    (present : key ∈ (withPath toUpperCase windows requested inherit source).keys) :
    namesKnob toUpperCase windows key = false := by
  obtain rfl | ⟨notKnob, origin⟩ := key_origin upper present
  · exact namesKnob_other upper (.inl (isPath_path upper windows))
  · rw [isKnob_eq] at notKnob
    have unnamed (taken : key ∈ (requestedEntries requested).map Prod.fst ∨
        inherit = true ∧ key ∈ source.keys) : namesKnob toUpperCase windows key = false := by
      refine eq_false_of_ne_true fun named => ?_
      rw [asWritten key taken named] at notKnob
      cases notKnob
    obtain ⟨owned, known⟩ | asked := origin
    · cases inherit with
      | true => exact unnamed (.inr ⟨rfl, owned⟩)
      | false => exact namesKnob_other upper (known rfl)
    · exact unnamed (.inl asked)

/-- Whenever an environment is returned, it is safe just where no key that is taken over names a knob
only when its case is ignored. -/
theorem returned_safe (returned : runtimeEnvironment toUpperCase windows requested inherit source =
    .ok result) : Safe toUpperCase windows requested inherit source result ↔
      KnobsAsWritten toUpperCase windows requested inherit source := by
  obtain ⟨rfl, small⟩ := returned_eq returned
  constructor
  · intro safe key taken named
    by_contra other
    have notNamed := safe.knobs key (knob_present upper taken named other)
    rw [named] at notNamed
    cases notNamed
  · intro asWritten
    constructor
    case path => exact fun entry member => path_trusted upper member
    case pathKept =>
      rintro ⟨own, inside, isOne⟩
      exact path_present upper inside isOne
    case knobs => exact fun key present => knob_absent upper asWritten present
    case origin =>
      rintro rfl key present
      obtain rfl | ⟨_, ⟨_, known⟩ | asked⟩ := key_origin upper present
      · exact .inl (isSafe_of_isPath upper (isPath_path upper windows))
      · obtain path | safe | locale := known rfl
        · exact .inl (isSafe_of_isPath upper path)
        · exact .inl safe
        · exact .inr (.inl locale)
      · exact .inr (.inr asked)
    case requested =>
      intro entry member notPath notNamed
      have kept := isKept_of_named upper notPath notNamed
      exact (mem_withPath upper).mpr (.inr (merged_requested member kept))
    case limit =>
      intro entry member sensitive
      simpa [isOversized, sensitive] using small entry member

end Returned

/-- The upper case of texts of ASCII characters. -/
theorem uppercases_canonicalize : UppercasesAscii (List.map canonicalize) := by
  constructor
  case empty => rfl
  case front =>
    intro front rest ascii
    have upper : ∀ value < 128, (encodeChar (Char.ofNat value)).map canonicalize =
        encodeChar (Char.ofNat value).toUpper := by decide +kernel
    induction front with
    | nil => rfl
    | cons character front inductionHypothesis =>
      have first := upper character.toNat (ascii character List.mem_cons_self)
      have others := inductionHypothesis fun other member =>
        ascii other (List.mem_cons_of_mem _ member)
      rw [Char.ofNat_toNat] at first
      rw [List.map_cons, encode_cons, encode_cons, List.append_assoc, List.append_assoc,
        List.map_append, first, others]

/-- A request on Windows for a fault of the worker. -/
def faultRequest : Environment := ⟨[(js "opencode_pty_native_worker_FAULT", js "exit")], by decide⟩

/-- A request for the language of a session to a daemon with a search path. -/
def languageRequest : Environment := ⟨[(js "lang", js "C")], by decide⟩

/-- An environment whose path is not written in capitals. -/
def pathSource : Environment := ⟨[(js "Path", js "C:\\bin"), (js "HOST", js "a")], by decide⟩

/-- A request for a language is returned as it was written. -/
theorem returned_language :
    Safe (List.map canonicalize) true (some languageRequest) false pathSource
      ⟨[(js "lang", js "C"), (js "PATH", js "C:\\bin")], by decide⟩ ↔
    KnobsAsWritten (List.map canonicalize) true (some languageRequest) false pathSource :=
  returned_safe uppercases_canonicalize
    ((returned_small (by decide +kernel)).trans (congrArg _ (by decide +kernel)))

/-- A knob in small letters reaches the command on Windows. -/
theorem fault_kept : ¬ ∀ (toUpperCase : JsString → JsString) (windows : Bool)
    (requested : Option Environment) (inherit : Bool) (source result : Environment),
    UppercasesAscii toUpperCase →
      runtimeEnvironment toUpperCase windows requested inherit source = .ok result →
        Safe toUpperCase windows requested inherit source result := by
  intro always
  let result := withPath (List.map canonicalize) true (some faultRequest) false .empty
  have returned : runtimeEnvironment (List.map canonicalize) true (some faultRequest) false .empty =
      .ok result := returned_small (by decide +kernel)
  have kept : js "opencode_pty_native_worker_FAULT" ∈ result.keys := by decide +kernel
  have safe := always _ _ _ _ _ _ uppercases_canonicalize returned
  have named := safe.knobs _ kept
  revert named
  decide

end OpencodePty.RuntimeEnvironment
