import Mathlib.Data.Set.List
import OpencodePty.RuntimeEnvironment
import OpencodePty.WindowsBlocks

/-!
# The environment of a Windows worker

The worker gets the environment that the daemon makes for a session as a map sorted by key. The daemon
puts the entries of the request over its own by their keys as they are written, so that it keeps both
of two spellings of one name, and the worker refuses to write a block for them.
-/

namespace OpencodePty.WorkerEnvironments

open OpencodePty.JsValues OpencodePty.TextEncodings OpencodePty.OrderedMaps OpencodePty.SensitiveKeys
open OpencodePty.RuntimeEnvironment OpencodePty.WindowsEnvironment OpencodePty.WindowsBlocks
open OrderedMap

abbrev Entry := List Char × List Char

def encodeEntry (entry : Entry) : JsString × JsString := (encode entry.1, encode entry.2)

/-- Entries that Windows can have. -/
structure HostEnvironment where
  entries : List Entry
  valid : ∀ entry ∈ entries, validEntry entry = true
  distinct : DistinctNames entries

theorem encodeEntry_injective : Function.Injective encodeEntry := by
  intro first second same
  obtain ⟨keys, values⟩ := Prod.mk.inj same
  exact Prod.ext (encode_injective keys) (encode_injective values)

/-- Names that are distinct to Windows are distinct. -/
theorem nodup_keys {entries : List Entry} (distinct : DistinctNames entries) :
    ((entries.map encodeEntry).map Prod.fst).Nodup := by
  rw [List.map_map]
  refine List.pairwise_map.mpr (distinct.imp fun {left right} apart same => ?_)
  have equal : left.1 = right.1 := encode_injective same
  rw [equal, eqIgnoreAsciiCase_iff.mpr rfl] at apart
  cases apart

/-- The object with some entries. -/
def HostEnvironment.object (env : HostEnvironment) : RuntimeEnvironment.Environment :=
  ⟨env.entries.map encodeEntry, nodup_keys env.distinct⟩

/-- The worker's map of an object. -/
structure Carries (object : RuntimeEnvironment.Environment) (env : WindowsEnvironment.Environment) :
    Prop where
  sorted : env.Pairwise fun left right => left.1 < right.1
  same : (env.map encodeEntry).Perm object.entries

section Request

variable (toUpperCase : JsString → JsString) (requested : Option HostEnvironment) (inherit : Bool)
variable (source : HostEnvironment)

def asked : List Entry := (requested.map HostEnvironment.entries).getD []

/-- An entry of the daemon that is taken over. -/
def IsTaken (own : Entry) : Prop :=
  inherit = true ∨ isSafe toUpperCase true (encode own.1) = true ∨ isLocale (encode own.1) = true

/-- The worker writes a block that gives each requested name its value, apart from search paths and
knobs. -/
def Accepted (env : WindowsEnvironment.Environment) : Prop :=
  ∃ block, windowsEnvironment env = .ok block ∧ ∀ entry ∈ asked requested,
    isPath toUpperCase true (encode entry.1) = false →
      namesKnob toUpperCase true (encode entry.1) = false →
        ∀ name, eqIgnoreAsciiCase entry.1 name = true →
          blockValue block name = some (encode entry.2)

/-- Where the request and the daemon's entries both have a name, they spell it alike. -/
def SpelledAlike : Prop :=
  ∀ own ∈ source.entries, ∀ entry ∈ asked requested,
    isKept toUpperCase true (encodeEntry own) = true →
      isKept toUpperCase true (encodeEntry entry) = true → IsTaken toUpperCase inherit own →
        eqIgnoreAsciiCase own.1 entry.1 = true → own.1 = entry.1

end Request

section Handover

variable {toUpperCase : JsString → JsString} {requested : Option HostEnvironment} {inherit : Bool}
variable {source : HostEnvironment}

theorem requestedEntries_object :
    requestedEntries (requested.map HostEnvironment.object) = (asked requested).map encodeEntry := by
  cases requested <;> rfl

theorem asked_valid {entry : Entry} (member : entry ∈ asked requested) : validEntry entry = true := by
  cases requested with
  | none => cases member
  | some env => exact env.valid entry member

theorem asked_distinct : DistinctNames (asked requested) := by
  cases requested with
  | none => exact .nil
  | some env => exact env.distinct

/-- An entry of the daemon that is taken over is in its part of the environment. -/
theorem mem_base_object {own : Entry} (member : own ∈ source.entries)
    (taken : IsTaken toUpperCase inherit own) :
    encodeEntry own ∈ (base toUpperCase true inherit source.object).entries := by
  have inside : encodeEntry own ∈ source.object.entries := List.mem_map_of_mem member
  cases inherit with
  | true => exact inside
  | false =>
    refine putAll_last (source.object.distinct.sublist (List.filter_sublist.map Prod.fst)) ?_
    refine List.mem_filter.mpr ⟨inside, ?_⟩
    obtain inherits | known := taken
    · cases inherits
    · simp only [Bool.or_eq_true, or_assoc]
      exact .inr known

variable (upper : UppercasesAscii toUpperCase)

include upper

/-- An entry of the environment is the search path, or it is kept of what is taken over or asked. -/
theorem mem_withPath_object {found : JsString × JsString}
    (member : found ∈ (withPath toUpperCase true (requested.map HostEnvironment.object) inherit
      source.object).entries) :
    ∃ entry, encodeEntry entry = found ∧ validEntry entry = true ∧
      (entry.1 = "PATH".toList ∨ isKept toUpperCase true found = true ∧
        (entry ∈ source.entries ∧ IsTaken toUpperCase inherit entry ∨ entry ∈ asked requested)) := by
  obtain ⟨path, trusted⟩ | inside := (mem_withPath upper).mp member
  · obtain ⟨own, first, same⟩ := Option.map_eq_some_iff.mp trusted
    obtain ⟨entry, known, rfl⟩ := List.mem_map.mp (List.mem_of_find?_eq_some first)
    have value := (validEntry_iff.mp (source.valid entry known)).2.2.2.2
    have name : "PATH".toList ≠ [] ∧ (∀ character ∈ "PATH".toList, character.toNat < 128) ∧
        '=' ∉ "PATH".toList ∧ 0 ∉ encode "PATH".toList :=
      ⟨by decide, List.all_iff_forall_prop.mp (by decide), by decide, by decide⟩
    refine ⟨("PATH".toList, entry.2), Prod.ext path.symm same, validEntry_iff.mpr ?_, .inl rfl⟩
    exact ⟨name.1, name.2.1, name.2.2.1, name.2.2.2, value⟩
  · obtain ⟨kept, own | named⟩ := mem_merged inside
    · obtain ⟨known, taken⟩ := mem_base own
      obtain ⟨entry, isOwn, rfl⟩ := List.mem_map.mp known
      refine ⟨entry, rfl, source.valid entry isOwn, .inr ⟨kept, .inl ⟨isOwn, ?_⟩⟩⟩
      cases inherit with
      | true => exact .inl rfl
      | false =>
        obtain path | others := taken rfl
        · rw [(isKept_iff.mp kept).1] at path
          cases path
        · exact .inr others
    · rw [requestedEntries_object] at named
      obtain ⟨entry, isAsked, rfl⟩ := List.mem_map.mp named
      exact ⟨entry, rfl, asked_valid isAsked, .inr ⟨kept, .inr isAsked⟩⟩

/-- A kept entry is no search path to Windows. -/
theorem path_apart {entry : Entry} (valid : validEntry entry = true)
    (kept : isKept toUpperCase true (encodeEntry entry) = true) :
    eqIgnoreAsciiCase "PATH".toList entry.1 = false := by
  refine eq_false_of_ne_true fun same => ?_
  have whole : toUpperCase (encode entry.1) = encode (toAsciiUppercase entry.1) :=
    upper_ascii upper (validEntry_iff.mp valid).2.1
  have path : isPath toUpperCase true (encode entry.1) = true := by
    refine beq_iff_eq.mpr ?_
    rw [whole, ← eqIgnoreAsciiCase_iff.mp same]
    rfl
  have notPath : isPath toUpperCase true (encode entry.1) = false := (isKept_iff.mp kept).1
  rw [path] at notPath
  cases notPath

end Handover

/-- Entries under distinct keys can be sorted. -/
theorem exists_sorted {entries : List Entry} (distinct : (entries.map Prod.fst).Nodup) :
    ∃ env : List Entry, env.Perm entries ∧ env.Pairwise fun left right => left.1 < right.1 := by
  have order := List.mergeSort_perm entries fun left right => left.1 ≤ right.1
  have sorted : (entries.mergeSort fun left right => left.1 ≤ right.1).Pairwise
      fun left right => decide (left.1 ≤ right.1) = true := by
    apply List.pairwise_mergeSort
    · intro first second third
      simp only [decide_eq_true_eq]
      exact le_trans
    · intro first second
      simp only [Bool.or_eq_true, decide_eq_true_eq]
      exact le_total first.1 second.1
  have apart := List.pairwise_map.mp ((order.map Prod.fst).nodup_iff.mpr distinct)
  refine ⟨_, order, sorted.imp₂ (fun left right least other => ?_) apart⟩
  exact lt_of_le_of_ne (of_decide_eq_true least) other

/-- An object of texts has a map. -/
theorem carries_exists {object : RuntimeEnvironment.Environment}
    (texts : ∀ found ∈ object.entries, ∃ entry, encodeEntry entry = found) :
    ∃ env, Carries object env := by
  obtain ⟨entries, same⟩ : object.entries ∈ Set.range (List.map encodeEntry) := by
    rw [Set.range_list_map]
    exact texts
  have distinct : (entries.map Prod.fst).Nodup := by
    have encoded := object.distinct
    rw [← same, List.map_map] at encoded
    refine List.Nodup.of_map encode ?_
    rwa [List.map_map]
  obtain ⟨env, order, sorted⟩ := exists_sorted distinct
  refine ⟨env, sorted, ?_⟩
  rw [← same]
  exact order.map encodeEntry

section Worker

variable {toUpperCase : JsString → JsString} {requested : Option HostEnvironment} {inherit : Bool}
variable {source : HostEnvironment} {result : RuntimeEnvironment.Environment}
variable {env : WindowsEnvironment.Environment}

theorem mem_carries (carries : Carries result env) {entry : Entry} :
    entry ∈ env ↔ encodeEntry entry ∈ result.entries := by
  rw [← carries.same.mem_iff, List.mem_map_of_injective encodeEntry_injective]

/-- A name that is kept of the daemon's entries or of the request is in the worker's map. -/
theorem key_carried (upper : UppercasesAscii toUpperCase)
    (carries : Carries (withPath toUpperCase true (requested.map HostEnvironment.object) inherit
      source.object) env) {entry : Entry}
    (kept : isKept toUpperCase true (encodeEntry entry) = true)
    (origin : entry ∈ source.entries ∧ IsTaken toUpperCase inherit entry ∨ entry ∈ asked requested) :
    ∃ carried ∈ env, carried.1 = entry.1 := by
  have inside : encode entry.1 ∈ (merged toUpperCase true (requested.map HostEnvironment.object)
      inherit source.object).keys := by
    refine merged_keys kept ?_
    obtain ⟨own, taken⟩ | isAsked := origin
    · exact .inl (mem_base_object own taken)
    · rw [requestedEntries_object]
      exact .inr (List.mem_map_of_mem isAsked)
  obtain ⟨value, member⟩ := mem_keys.mp inside
  have present := (mem_withPath upper).mpr (.inr member)
  obtain ⟨carried, same, _⟩ := mem_withPath_object upper present
  refine ⟨carried, (mem_carries carries).mpr ?_, encode_injective (Prod.mk.inj same).1⟩
  rwa [same]

/-- The names of the map are distinct to Windows just where the two environments spell their common
names alike. -/
theorem distinct_iff (upper : UppercasesAscii toUpperCase)
    (carries : Carries (withPath toUpperCase true (requested.map HostEnvironment.object) inherit
      source.object) env) :
    DistinctNames env ↔ SpelledAlike toUpperCase requested inherit source := by
  constructor
  · intro distinct own isOwn entry isAsked ownKept entryKept taken same
    obtain ⟨first, inside, firstKey⟩ := key_carried upper carries ownKept (.inl ⟨isOwn, taken⟩)
    obtain ⟨second, member, secondKey⟩ := key_carried upper carries entryKept (.inr isAsked)
    rw [← firstKey, ← secondKey] at same ⊢
    rw [distinctNames_unique distinct inside member same]
  · intro alike
    refine carries.sorted.imp_of_mem fun {left right} leftMember rightMember less => ?_
    refine eq_false_of_ne_true fun same => less.ne ?_
    obtain ⟨_, leftText, leftValid, leftOrigin⟩ :=
      mem_withPath_object upper ((mem_carries carries).mp leftMember)
    obtain ⟨_, rightText, rightValid, rightOrigin⟩ :=
      mem_withPath_object upper ((mem_carries carries).mp rightMember)
    obtain rfl := encodeEntry_injective leftText
    obtain rfl := encodeEntry_injective rightText
    have swapped := same
    rw [eqIgnoreAsciiCase_comm] at swapped
    obtain leftPath | ⟨leftKept, leftFrom⟩ := leftOrigin
    · obtain rightPath | ⟨rightKept, _⟩ := rightOrigin
      · rw [leftPath, rightPath]
      · rw [leftPath, path_apart upper rightValid rightKept] at same
        cases same
    · obtain rightPath | ⟨rightKept, rightFrom⟩ := rightOrigin
      · rw [rightPath, path_apart upper leftValid leftKept] at swapped
        cases swapped
      · -- Each side has distinct names, so that one is the daemon's and the other is asked.
        obtain ⟨leftOwn, leftTaken⟩ | leftAsked := leftFrom
        · obtain ⟨rightOwn, _⟩ | rightAsked := rightFrom
          · rw [distinctNames_unique source.distinct leftOwn rightOwn same]
          · exact alike _ leftOwn _ rightAsked leftKept rightKept leftTaken same
        · obtain ⟨rightOwn, rightTaken⟩ | rightAsked := rightFrom
          · exact (alike _ rightOwn _ leftAsked rightKept leftKept rightTaken swapped).symm
          · rw [distinctNames_unique asked_distinct leftAsked rightAsked same]

/-- Whatever environment the daemon returns for a session on Windows, the worker has it as a map, and it
accepts the map just where the request spells each name as the daemon's own environment does. -/
theorem accepted_iff (upper : UppercasesAscii toUpperCase)
    (returned : runtimeEnvironment toUpperCase true (requested.map HostEnvironment.object) inherit
      source.object = .ok result) :
    (∃ env, Carries result env) ∧ ∀ env, Carries result env →
      (Accepted toUpperCase requested env ↔ SpelledAlike toUpperCase requested inherit source) := by
  obtain ⟨rfl, _⟩ := returned_eq returned
  refine ⟨carries_exists fun found member => ?_, fun env carries => ?_⟩
  · obtain ⟨entry, same, _⟩ := mem_withPath_object upper member
    exact ⟨entry, same⟩
  · rw [← distinct_iff upper carries]
    constructor
    · rintro ⟨block, written, _⟩
      exact (windowsEnvironment_eq_ok.mp written).2.1
    · intro distinct
      have valid : ∀ entry ∈ env, validEntry entry = true := by
        intro entry member
        obtain ⟨_, text, holds, _⟩ := mem_withPath_object upper ((mem_carries carries).mp member)
        rwa [encodeEntry_injective text] at holds
      have written := windowsEnvironment_eq_ok.mpr ⟨valid, distinct, rfl⟩
      refine ⟨_, written, fun entry isAsked notPath notNamed name same => ?_⟩
      have kept : isKept toUpperCase true (encodeEntry entry) = true :=
        isKept_of_named upper notPath notNamed
      have named : encodeEntry entry ∈ requestedEntries (requested.map HostEnvironment.object) := by
        rw [requestedEntries_object]
        exact List.mem_map_of_mem isAsked
      refine blockValue_written written ((mem_carries carries).mpr ?_) same
      exact (mem_withPath upper).mpr (.inr (merged_requested named kept))

end Worker

def tempSource (name : String) (valid : validEntry (name.toList, "a".toList) = true) :
    HostEnvironment where
  entries := [(name.toList, "a".toList)]
  valid := by simpa using valid
  distinct := List.pairwise_singleton _ _

/-- A request for the directory that the daemon has under the same name. -/
theorem accepted_temp :
    (∃ env, Carries ⟨[(js "TEMP", js "a")], by decide⟩ env) ∧
      ∀ env, Carries ⟨[(js "TEMP", js "a")], by decide⟩ env →
        (Accepted (List.map canonicalize) (some (tempSource "TEMP" (by decide))) env ↔
          SpelledAlike (List.map canonicalize) (some (tempSource "TEMP" (by decide))) false
            (tempSource "TEMP" (by decide))) :=
  accepted_iff uppercases_canonicalize
    ((returned_small (by decide +kernel)).trans (congrArg _ (by decide +kernel)))

/-- The worker refuses the environment of a request that spells a name otherwise than the daemon's. -/
theorem temp_refused : ¬ ∀ (toUpperCase : JsString → JsString) (requested : Option HostEnvironment)
    (inherit : Bool) (source : HostEnvironment) (result : RuntimeEnvironment.Environment),
    UppercasesAscii toUpperCase →
      runtimeEnvironment toUpperCase true (requested.map HostEnvironment.object) inherit
        source.object = .ok result →
          ∀ env, Carries result env → Accepted toUpperCase requested env := by
  intro always
  have returned : runtimeEnvironment (List.map canonicalize) true
      ((some (tempSource "TEMP" (by decide))).map HostEnvironment.object) false
      (tempSource "Temp" (by decide)).object =
        .ok ⟨[(js "Temp", js "a"), (js "TEMP", js "a")], by decide⟩ :=
    (returned_small (by decide +kernel)).trans (congrArg _ (by decide +kernel))
  have carries : Carries ⟨[(js "Temp", js "a"), (js "TEMP", js "a")], by decide⟩
      [("TEMP".toList, "a".toList), ("Temp".toList, "a".toList)] :=
    ⟨by decide, List.Perm.swap _ _ _⟩
  obtain ⟨block, written, _⟩ := always _ _ _ _ _ uppercases_canonicalize returned _ carries
  have distinct := (windowsEnvironment_eq_ok.mp written).2.1
  revert distinct
  rw [DistinctNames]
  decide

end OpencodePty.WorkerEnvironments
