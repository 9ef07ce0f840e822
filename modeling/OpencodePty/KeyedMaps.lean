import Mathlib.Algebra.BigOperators.Group.Finset.Basic
import Mathlib.Algebra.Order.BigOperators.Group.Finset
import Mathlib.Algebra.BigOperators.Group.List.Basic
import Mathlib.Data.Finmap
import Mathlib.Data.Int.Order.Basic
import Mathlib.Tactic.Ring

/-!
# Counters and sets under keys

Finite maps whose values are amounts, with zero for a missing key, and finite maps
whose values are sets, with the empty set for a missing key. The sum of all amounts
changes by what changes under one key. Two maps between the same keys and members,
one in each direction, are inverse to each other when both say the same thing.
-/

namespace OpencodePty.KeyedMaps

universe u v
variable {κ : Type u} {ι : Type v} [DecidableEq κ] [DecidableEq ι]

/-- A finite map from keys to values of one type. -/
abbrev Map (κ : Type u) (β : Type v) := Finmap fun _ : κ => β

/-! ## Amounts -/

/-- The amount under a key, zero where there is none. -/
def amount (amounts : Map κ Int) (key : κ) : Int := (amounts.lookup key).getD 0

/-- The sum of all amounts. -/
def total (amounts : Map κ Int) : Int := ∑ key ∈ amounts.keys, amount amounts key

/-- The empty map has no amount. -/
@[simp] theorem amount_empty (key : κ) : amount (∅ : Map κ Int) key = 0 := rfl

/-- The empty map has no total. -/
@[simp] theorem total_empty : total (∅ : Map κ Int) = 0 := rfl

/-- What is inserted counts under its key. -/
theorem amount_insert (amounts : Map κ Int) (key other : κ) (value : Int) :
    amount (amounts.insert key value) other =
      if other = key then value else amount amounts other := by
  by_cases same : other = key
  · subst same
    simp [amount]
  · simp [amount, same]

/-- What is erased counts no more. -/
theorem amount_erase (amounts : Map κ Int) (key other : κ) :
    amount (amounts.erase key) other = if other = key then 0 else amount amounts other := by
  by_cases same : other = key
  · subst same
    simp [amount]
  · simp [amount, same]

/-- Store an amount, with no entry for zero. -/
def store (amounts : Map κ Int) (key : κ) (value : Int) : Map κ Int :=
  if value = 0 then amounts.erase key else amounts.insert key value

/-- Take an amount away, with no entry for what is not positive. -/
def subtract (amounts : Map κ Int) (key : κ) (value : Int) : Map κ Int :=
  if amount amounts key - value ≤ 0 then amounts.erase key
  else amounts.insert key (amount amounts key - value)

/-- What is stored counts under its key, zero or not. -/
theorem amount_store (amounts : Map κ Int) (key other : κ) (value : Int) :
    amount (store amounts key value) other =
      if other = key then value else amount amounts other := by
  unfold store
  by_cases zero : value = 0
  · rw [if_pos zero, amount_erase, zero]
  · rw [if_neg zero, amount_insert]

/-- Where there is enough, as much is left as was not taken. -/
theorem amount_subtract {amounts : Map κ Int} {key : κ} {value : Int}
    (enough : value ≤ amount amounts key) (other : κ) :
    amount (subtract amounts key value) other =
      amount amounts other - if other = key then value else 0 := by
  unfold subtract
  by_cases rest : amount amounts key - value ≤ 0
  · rw [if_pos rest, amount_erase]
    by_cases same : other = key
    · rw [if_pos same, if_pos same, same]
      omega
    · rw [if_neg same, if_neg same]
      omega
  · rw [if_neg rest, amount_insert]
    by_cases same : other = key
    · rw [if_pos same, if_pos same, same]
    · rw [if_neg same, if_neg same]
      omega

/-- A key that is absent has no amount. -/
theorem amount_absent {amounts : Map κ Int} {key : κ} (absent : key ∉ amounts.keys) :
    amount amounts key = 0 := by
  rw [Finmap.mem_keys, ← Finmap.lookup_eq_none] at absent
  simp [amount, absent]

/-- The sum may be taken over any set that has all keys. -/
theorem total_over (amounts : Map κ Int) {keys : Finset κ} (wide : amounts.keys ⊆ keys) :
    total amounts = ∑ key ∈ keys, amount amounts key :=
  Finset.sum_subset wide fun _ _ absent => amount_absent absent

/-- A change at one index changes a sum by as much, where the index is in the sum. -/
theorem sum_change {before after : κ → Int} (key : κ)
    (others : ∀ other, other ≠ key → after other = before other) (keys : Finset κ) :
    ∑ other ∈ keys, after other =
      ∑ other ∈ keys, before other + if key ∈ keys then after key - before key else 0 := by
  by_cases member : key ∈ keys
  · have rest : ∑ other ∈ keys.erase key, after other = ∑ other ∈ keys.erase key, before other :=
      Finset.sum_congr rfl fun other inside => others other (Finset.mem_erase.mp inside).1
    rw [if_pos member, ← Finset.add_sum_erase _ _ member,
      ← Finset.add_sum_erase _ before member, rest]
    ring
  · have same : ∑ other ∈ keys, after other = ∑ other ∈ keys, before other :=
      Finset.sum_congr rfl fun other inside => others other fun equal =>
        member (equal ▸ inside)
    rw [if_neg member, same]
    ring

/-- A change under one key changes the sum of all amounts by as much. -/
theorem total_change {before after : Map κ Int} (key : κ)
    (others : ∀ other, other ≠ key → amount after other = amount before other) :
    total after = total before + (amount after key - amount before key) := by
  have wide : before.keys ∪ after.keys ⊆ insert key (before.keys ∪ after.keys) :=
    Finset.subset_insert _ _
  rw [total_over after ((Finset.subset_union_right).trans wide),
    total_over before ((Finset.subset_union_left).trans wide), sum_change key others,
    if_pos (Finset.mem_insert_self _ _)]

/-- The total changes by what is stored. -/
theorem total_store (amounts : Map κ Int) (key : κ) (value : Int) :
    total (store amounts key value) = total amounts + (value - amount amounts key) := by
  have others (other : κ) (different : other ≠ key) :
      amount (store amounts key value) other = amount amounts other := by
    rw [amount_store, if_neg different]
  rw [total_change key others, amount_store, if_pos rfl]

/-- Where no amount is negative, the total is not. -/
theorem total_nonneg {amounts : Map κ Int} (positive : ∀ key, 0 ≤ amount amounts key) :
    0 ≤ total amounts :=
  Finset.sum_nonneg fun key _ => positive key

/-! ## Sets -/

/-- The set under a key, empty where there is none. -/
def members (sets : Map κ (Finset ι)) (key : κ) : Finset ι := (sets.lookup key).getD ∅

/-- Add a member to the set under a key. -/
def addMember (sets : Map κ (Finset ι)) (key : κ) (member : ι) : Map κ (Finset ι) :=
  sets.insert key (insert member (members sets key))

/-- Remove a member from the set under a key, and the key with its last member. -/
def removeMember (sets : Map κ (Finset ι)) (key : κ) (member : ι) : Map κ (Finset ι) :=
  if (members sets key).erase member = ∅ then sets.erase key
  else sets.insert key ((members sets key).erase member)

omit [DecidableEq ι] in
/-- The empty map has no members. -/
@[simp] theorem members_empty (key : κ) : members (∅ : Map κ (Finset ι)) key = ∅ := rfl

/-- A member is added under its key. -/
theorem members_addMember (sets : Map κ (Finset ι)) (key other : κ) (member : ι) :
    members (addMember sets key member) other =
      if other = key then insert member (members sets key) else members sets other := by
  by_cases same : other = key
  · subst same
    simp [members, addMember]
  · simp [members, addMember, same]

/-- A member is removed under its key. -/
theorem members_removeMember (sets : Map κ (Finset ι)) (key other : κ) (member : ι) :
    members (removeMember sets key member) other =
      if other = key then (members sets key).erase member else members sets other := by
  unfold removeMember
  by_cases last : (members sets key).erase member = ∅
  · rw [if_pos last]
    by_cases same : other = key
    · subst same
      rw [if_pos rfl, last]
      simp [members]
    · simp [members, same]
  · rw [if_neg last]
    by_cases same : other = key
    · subst same
      simp [members]
    · simp [members, same]

omit [DecidableEq κ] in
/-- What is inserted is a key. -/
theorem keys_insert (owners : Map ι κ) (member : ι) (key : κ) :
    (owners.insert member key).keys = insert member owners.keys := by
  ext other
  simp [Finmap.mem_keys]

/-! ## Inverse maps -/

/-- A member is in the set of a key exactly where the key is its owner. -/
def Inverse (sets : Map κ (Finset ι)) (owners : Map ι κ) : Prop :=
  ∀ key member, member ∈ members sets key ↔ owners.lookup member = some key

namespace Inverse

variable {sets : Map κ (Finset ι)} {owners : Map ι κ}

/-- The empty maps are inverse to each other. -/
theorem empty : Inverse (∅ : Map κ (Finset ι)) (∅ : Map ι κ) := by
  intro key member
  simp

/-- A member without an owner is given one. -/
theorem add (inverse : Inverse sets owners) {member : ι} (key : κ)
    (fresh : owners.lookup member = none) :
    Inverse (addMember sets key member) (owners.insert member key) := by
  intro other another
  rw [members_addMember]
  by_cases same : another = member
  · subst same
    have absent : another ∉ members sets other := by
      rw [inverse, fresh]
      simp
    rw [Finmap.lookup_insert, Option.some_inj]
    by_cases here : other = key
    · simp [here]
    · rw [if_neg here]
      simp [absent, Ne.symm here]
  · rw [Finmap.lookup_insert_of_ne _ same, ← inverse other another]
    by_cases here : other = key
    · subst here
      simp [same]
    · rw [if_neg here]

/-- A member is taken from its owner. -/
theorem remove (inverse : Inverse sets owners) {member : ι} {key : κ}
    (owned : owners.lookup member = some key) :
    Inverse (removeMember sets key member) (owners.erase member) := by
  intro other another
  rw [members_removeMember]
  by_cases same : another = member
  · subst same
    rw [Finmap.lookup_erase]
    by_cases here : other = key
    · simp [here]
    · rw [if_neg here, inverse, owned]
      simp [Ne.symm here]
  · rw [Finmap.lookup_erase_ne same, ← inverse other another]
    by_cases here : other = key
    · subst here
      simp [same]
    · rw [if_neg here]

end Inverse

/-! ## Positions in a list -/

section Positions

variable {β : Type v} {property : β → Bool} {items : List β} {positions : Finset Nat}

/-- A set holds exactly the positions of the elements with a property. -/
def Positions (property : β → Bool) (items : List β) (positions : Finset Nat) : Prop :=
  ∀ position, position ∈ positions ↔
    ∃ item, items[position]? = some item ∧ property item = true

namespace Positions

/-- No positions are those of no items. -/
theorem nil : Positions property [] ∅ := by
  intro position
  simp

/-- An item behind the others adds its own position at most. -/
theorem append (exactly : Positions property items positions) (item : β) :
    Positions property (items ++ [item])
      (if property item = true then insert items.length positions else positions) := by
  have inside (position : Nat) : position ∈ positions → position < items.length := by
    rw [exactly]
    rintro ⟨_, known, _⟩
    exact (List.getElem?_eq_some_iff.mp known).1
  intro position
  rcases Nat.lt_trichotomy position items.length with before | last | beyond
  · rw [List.getElem?_append_left before, ← exactly]
    split
    · simp [Nat.ne_of_lt before]
    · rfl
  · subst last
    have absent : items.length ∉ positions := fun member => Nat.lt_irrefl _ (inside _ member)
    by_cases holds : property item = true
    · simp [holds]
    · simp [holds, absent]
  · have missing : (items ++ [item])[position]? = none := by
      rw [List.getElem?_eq_none_iff]
      simp only [List.length_append, List.length_singleton]
      omega
    have absent : position ∉ positions := fun member => by
      have := inside _ member
      omega
    rw [missing]
    split <;> simp [absent, Nat.ne_of_gt beyond]

/-- Without the property the position of a replaced element is left out. -/
theorem set (exactly : Positions property items positions) {item : β} (index : Nat)
    (without : property item = false) :
    Positions property (items.set index item) (positions.erase index) := by
  intro position
  rw [Finset.mem_erase, exactly, List.getElem?_set]
  by_cases same : index = position
  · subst same
    simp only [if_true, ne_eq, not_true_eq_false, false_and, false_iff]
    rintro ⟨found, known, holds⟩
    split at known
    · cases known
      simp [without] at holds
    · simp at known
  · simp [same, Ne.symm same]

/-- The set has as many members as the list has elements with the property. -/
theorem card (exactly : Positions property items positions) :
    positions.card = items.countP property := by
  induction items using List.reverseRecOn generalizing positions with
  | nil =>
    have none : positions = ∅ := Finset.eq_empty_of_forall_notMem fun position => by
      rw [exactly]
      simp
    simp [none]
  | append_singleton items item inductionHypothesis =>
    have remaining : Positions property items (positions.erase items.length) := by
      intro position
      rw [Finset.mem_erase, exactly]
      rcases Nat.lt_trichotomy position items.length with before | last | beyond
      · rw [List.getElem?_append_left before]
        simp [Nat.ne_of_lt before]
      · simp [last]
      · have missing : (items ++ [item])[position]? = none := by
          rw [List.getElem?_eq_none_iff]
          simp only [List.length_append, List.length_singleton]
          omega
        rw [missing, List.getElem?_eq_none (Nat.le_of_lt beyond)]
        simp
    have rest := inductionHypothesis remaining
    have last : items.length ∈ positions ↔ property item = true := by
      rw [exactly]
      simp
    rw [List.countP_append, ← rest, List.countP_singleton]
    by_cases holds : property item = true
    · rw [if_pos holds, Finset.card_erase_add_one (last.mpr holds)]
    · have absent : items.length ∉ positions := fun member => holds (last.mp member)
      rw [if_neg holds, Finset.erase_eq_of_notMem absent]
      rfl

end Positions

end Positions

end OpencodePty.KeyedMaps
