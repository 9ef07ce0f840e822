import Mathlib.Data.List.Nodup
import Mathlib.Tactic.Common

/-!
# Maps that keep the order of their keys

A map is the list of its entries, one for each key, in the order in which the keys were put first. A
key that is put again keeps its place and gets the new value.
-/

namespace OpencodePty.OrderedMaps

universe u v

/-- Entries under distinct keys. -/
structure OrderedMap (κ : Type u) (β : Type v) where
  entries : List (κ × β)
  distinct : (entries.map Prod.fst).Nodup
  deriving DecidableEq

variable {κ : Type u} {β : Type v} [DecidableEq κ]

/-- The entries with one of them replaced, or one more behind them. -/
def putEntry (entries : List (κ × β)) (key : κ) (value : β) : List (κ × β) :=
  if key ∈ entries.map Prod.fst then
    entries.map fun entry => if entry.1 = key then (key, value) else entry
  else entries ++ [(key, value)]

theorem putEntry_keys (entries : List (κ × β)) (key : κ) (value : β) :
    (putEntry entries key value).map Prod.fst =
      if key ∈ entries.map Prod.fst then entries.map Prod.fst
      else entries.map Prod.fst ++ [key] := by
  rw [putEntry]
  split
  · rw [List.map_map]
    apply List.map_congr_left
    intro entry _
    by_cases same : entry.1 = key <;> simp [same]
  · simp

namespace OrderedMap

def empty : OrderedMap κ β := ⟨[], List.nodup_nil⟩

variable (map : OrderedMap κ β)

def keys : List κ := map.entries.map Prod.fst

def put (key : κ) (value : β) : OrderedMap κ β where
  entries := putEntry map.entries key value
  distinct := by
    rw [putEntry_keys]
    split
    next => exact map.distinct
    next absent =>
      refine List.Nodup.append map.distinct (List.nodup_singleton key) ?_
      exact List.disjoint_singleton.mpr absent

/-- The entries of a list, one after the other. -/
def putAll (entries : List (κ × β)) : OrderedMap κ β :=
  entries.foldl (fun map entry => map.put entry.1 entry.2) map

/-- `Object.fromEntries` -/
def ofEntries (entries : List (κ × β)) : OrderedMap κ β := empty.putAll entries

end OrderedMap

namespace OrderedMap

variable {map : OrderedMap κ β}

omit [DecidableEq κ] in
theorem mem_keys {key : κ} : key ∈ map.keys ↔ ∃ value, (key, value) ∈ map.entries := by
  simp [keys]

/-- A put entry is there, and every other entry under another key. -/
theorem mem_put {key other : κ} {value found : β} :
    (other, found) ∈ (map.put key value).entries ↔
      other = key ∧ found = value ∨ other ≠ key ∧ (other, found) ∈ map.entries := by
  change (other, found) ∈ putEntry map.entries key value ↔ _
  rw [putEntry]
  split
  next present =>
    rw [List.mem_map]
    constructor
    · rintro ⟨entry, member, same⟩
      split at same
      next replaced =>
        cases same
        exact .inl ⟨rfl, rfl⟩
      next kept =>
        subst same
        exact .inr ⟨kept, member⟩
    · rintro (⟨rfl, rfl⟩ | ⟨different, member⟩)
      · obtain ⟨entry, member, same⟩ := List.mem_map.mp present
        exact ⟨entry, member, if_pos same⟩
      · exact ⟨(other, found), member, if_neg different⟩
  next absent =>
    rw [List.mem_append, List.mem_singleton, Prod.mk.injEq]
    constructor
    · rintro (member | same)
      · refine .inr ⟨?_, member⟩
        rintro rfl
        exact absent (List.mem_map.mpr ⟨_, member, rfl⟩)
      · exact .inl same
    · rintro (same | ⟨_, member⟩)
      · exact .inr same
      · exact .inl member

/-- Every entry was put. -/
theorem mem_putAll {entries : List (κ × β)} {entry : κ × β}
    (member : entry ∈ (map.putAll entries).entries) : entry ∈ map.entries ∨ entry ∈ entries := by
  induction entries generalizing map with
  | nil => exact .inl member
  | cons first rest inductionHypothesis =>
    obtain inside | later := inductionHypothesis member
    · obtain ⟨same, value⟩ | ⟨_, earlier⟩ := mem_put.mp inside
      · exact .inr (List.mem_cons.mpr (.inl (Prod.ext same value)))
      · exact .inl earlier
    · exact .inr (List.mem_cons_of_mem _ later)

/-- Entries under other keys stay. -/
theorem putAll_other {entries : List (κ × β)} {key : κ} {value : β}
    (other : key ∉ entries.map Prod.fst) (member : (key, value) ∈ map.entries) :
    (key, value) ∈ (map.putAll entries).entries := by
  induction entries generalizing map with
  | nil => exact member
  | cons first rest inductionHypothesis =>
    rw [List.map_cons, List.mem_cons, not_or] at other
    exact inductionHypothesis other.2 (mem_put.mpr (.inr ⟨other.1, member⟩))

/-- The entries that are put last, under distinct keys, are all there. -/
theorem putAll_last {entries : List (κ × β)} (distinct : (entries.map Prod.fst).Nodup)
    {entry : κ × β} (member : entry ∈ entries) : entry ∈ (map.putAll entries).entries := by
  induction entries generalizing map with
  | nil => cases member
  | cons first rest inductionHypothesis =>
    obtain ⟨absent, others⟩ := List.nodup_cons.mp distinct
    change entry ∈ ((map.put first.1 first.2).putAll rest).entries
    cases member with
    | head => exact putAll_other absent (mem_put.mpr (.inl ⟨rfl, rfl⟩))
    | tail _ later => exact inductionHypothesis others later

theorem putAll_append (front back : List (κ × β)) :
    map.putAll (front ++ back) = (map.putAll front).putAll back :=
  List.foldl_append

/-- A key that was put is there. -/
theorem putAll_keys {entries : List (κ × β)} {key : κ} :
    key ∈ (map.putAll entries).keys ↔ key ∈ map.keys ∨ key ∈ entries.map Prod.fst := by
  induction entries generalizing map with
  | nil => simp [putAll]
  | cons first rest inductionHypothesis =>
    have put : key ∈ (map.put first.1 first.2).keys ↔ key ∈ map.keys ∨ key = first.1 := by
      change key ∈ (putEntry map.entries first.1 first.2).map Prod.fst ↔ _
      rw [putEntry_keys]
      split
      next present =>
        constructor
        · exact .inl
        · rintro (member | rfl)
          · exact member
          · exact present
      next => rw [List.mem_append, List.mem_singleton]; rfl
    change key ∈ ((map.put first.1 first.2).putAll rest).keys ↔ _
    rw [inductionHypothesis, put, List.map_cons, List.mem_cons, or_assoc]

end OrderedMap

end OpencodePty.OrderedMaps
