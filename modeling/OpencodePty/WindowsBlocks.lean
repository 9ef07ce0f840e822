import Mathlib.Data.List.Pairwise
import Mathlib.Data.Prod.Lex
import OpencodePty.TextEncodings
import OpencodePty.WindowsEnvironment

/-!
# The environment block

The worker writes the block of an environment just where it can hold every entry and no two names are
the same to Windows. What is written can be read back: the block is a sequence of strings, each ended
by a zero, with the empty string behind them, and a name ends before the first equals sign.
-/

namespace OpencodePty.WindowsBlocks

open OpencodePty.JsValues OpencodePty.TextEncodings OpencodePty.WindowsEnvironment

/-- The strings of a block. -/
def strings (block : List UInt16) : List JsString :=
  (block.splitOn 0).takeWhile fun string => !string.isEmpty

def equalsSign : UInt16 := 61

/-- What stands before the first equals sign of a string, and what stands behind it. -/
def readEntry (string : JsString) : JsString × JsString :=
  (string.takeWhile (· != equalsSign), (string.dropWhile (· != equalsSign)).drop 1)

/-- No two names of an environment are the same to Windows. -/
def DistinctNames (env : Environment) : Prop :=
  env.Pairwise fun left right => eqIgnoreAsciiCase left.1 right.1 = false

/-! ## Writing -/

theorem eqIgnoreAsciiCase_iff {left right : List Char} :
    eqIgnoreAsciiCase left right = true ↔ toAsciiUppercase left = toAsciiUppercase right :=
  beq_iff_eq

theorem eqIgnoreAsciiCase_comm (left right : List Char) :
    eqIgnoreAsciiCase left right = eqIgnoreAsciiCase right left :=
  BEq.comm

theorem map_eq_ok {ε α β : Type} {f : α → β} {result : Except ε α} {value : β} :
    result.map f = .ok value ↔ ∃ inner, result = .ok inner ∧ f inner = value := by
  cases result <;> simp [Except.map]

/-- The loop ends in a block just where no entry has the name of the one before it. -/
theorem writeBlock_eq_ok {previous : Option (List Char)} {entries : Environment}
    {block : List UInt16} : writeBlock previous entries = .ok block ↔
      (previous.toList ++ entries.map Prod.fst).IsChain
          (fun left right => eqIgnoreAsciiCase left right = false) ∧
        block = entries.flatMap entryText ++ [0] := by
  induction entries generalizing previous block with
  | nil =>
    have single : previous.toList.IsChain fun left right => eqIgnoreAsciiCase left right = false := by
      cases previous with
      | none => exact .nil
      | some earlier => exact .singleton earlier
    rw [writeBlock, List.map_nil, List.append_nil, Except.ok.injEq]
    constructor
    · rintro rfl
      exact ⟨single, rfl⟩
    · rintro ⟨_, rfl⟩
      rfl
  | cons entry rest inductionHypothesis =>
    have continued : (writeBlock (some entry.1) rest).map (entryText entry ++ ·) = .ok block ↔
        (entry.1 :: rest.map Prod.fst).IsChain
          (fun left right => eqIgnoreAsciiCase left right = false) ∧
          block = (entry :: rest).flatMap entryText ++ [0] := by
      rw [map_eq_ok]
      constructor
      · rintro ⟨text, written, rfl⟩
        obtain ⟨chain, rfl⟩ := inductionHypothesis.mp written
        exact ⟨chain, (List.append_assoc _ _ _).symm⟩
      · rintro ⟨chain, rfl⟩
        exact ⟨_, inductionHypothesis.mpr ⟨chain, rfl⟩, (List.append_assoc _ _ _).symm⟩
    cases previous with
    | none => exact continued
    | some earlier =>
      change _ ↔ (earlier :: entry.1 :: rest.map Prod.fst).IsChain _ ∧ _
      rw [writeBlock, Option.any_some, List.isChain_cons_cons]
      split
      next same => simp [same]
      next different =>
        rw [continued, and_assoc, iff_and_self]
        exact fun _ => eq_false_of_ne_true different

/-- The order of the block is the order of the names in upper case, and of the names behind it. -/
theorem entryLe_iff {left right : List Char × List Char} : entryLe left right = true ↔
    toLex (toAsciiUppercase left.1, left.1) ≤ toLex (toAsciiUppercase right.1, right.1) := by
  rw [Prod.Lex.toLex_le_toLex]
  simp [entryLe]

theorem sorted_mergeSort (env : Environment) :
    (env.mergeSort entryLe).Pairwise fun left right =>
      toAsciiUppercase left.1 ≤ toAsciiUppercase right.1 := by
  have sorted : (env.mergeSort entryLe).Pairwise fun left right => entryLe left right = true := by
    apply List.pairwise_mergeSort
    · intro first second third
      rw [entryLe_iff, entryLe_iff, entryLe_iff]
      exact le_trans
    · intro first second
      rw [Bool.or_eq_true, entryLe_iff, entryLe_iff]
      exact le_total _ _
  refine sorted.imp fun ordered => ?_
  exact (Prod.Lex.toLex_le_toLex.mp (entryLe_iff.mp ordered)).elim le_of_lt fun same => same.1.le

/-- Where the names are sorted, it is enough that neighbours differ. -/
theorem distinct_of_chain {env : Environment}
    (sorted : env.Pairwise fun left right => toAsciiUppercase left.1 ≤ toAsciiUppercase right.1)
    (chain : (env.map Prod.fst).IsChain fun left right => eqIgnoreAsciiCase left right = false) :
    DistinctNames env := by
  induction env with
  | nil => exact .nil
  | cons entry rest inductionHypothesis =>
    obtain ⟨least, others⟩ := List.pairwise_cons.mp sorted
    cases rest with
    | nil => exact List.pairwise_singleton _ _
    | cons next more =>
      obtain ⟨different, later⟩ := List.isChain_cons_cons.mp chain
      refine List.pairwise_cons.mpr ⟨?_, inductionHypothesis others later⟩
      have below : toAsciiUppercase entry.1 < toAsciiUppercase next.1 :=
        lt_of_le_of_ne (least next List.mem_cons_self) (beq_eq_false_iff_ne.mp different)
      intro other member
      have reached : toAsciiUppercase next.1 ≤ toAsciiUppercase other.1 := by
        cases member with
        | head => exact le_rfl
        | tail _ later => exact (List.pairwise_cons.mp others).1 other later
      exact beq_eq_false_iff_ne.mpr (below.trans_le reached).ne

theorem distinctNames_perm {env other : Environment} (same : env.Perm other) :
    DistinctNames env ↔ DistinctNames other := by
  refine same.pairwise_iff fun different => ?_
  rwa [eqIgnoreAsciiCase_comm]

/-- There is one entry under a name. -/
theorem distinctNames_unique {env : Environment} (distinct : DistinctNames env)
    {one other : List Char × List Char} (first : one ∈ env) (second : other ∈ env)
    (same : eqIgnoreAsciiCase one.1 other.1 = true) : one = other := by
  have symmetric : Std.Symm fun left right : List Char × List Char =>
      eqIgnoreAsciiCase left.1 right.1 = false :=
    ⟨fun left right apart => (eqIgnoreAsciiCase_comm right.1 left.1).trans apart⟩
  by_contra different
  have apart := distinct.forall first second different
  rw [same] at apart
  cases apart

/-- The worker writes a block just for entries that it can hold under names that are distinct to
Windows, and the block has all of them. -/
theorem windowsEnvironment_eq_ok {env : Environment} {block : List UInt16} :
    windowsEnvironment env = .ok block ↔
      (∀ entry ∈ env, validEntry entry = true) ∧ DistinctNames env ∧
        block = (env.mergeSort entryLe).flatMap entryText ++ [0] := by
  have chain : ((env.mergeSort entryLe).map Prod.fst).IsChain
      (fun left right => eqIgnoreAsciiCase left right = false) ↔ DistinctNames env := by
    rw [← distinctNames_perm (List.mergeSort_perm env entryLe)]
    constructor
    · exact distinct_of_chain (sorted_mergeSort env)
    · intro distinct
      have names : ((env.mergeSort entryLe).map Prod.fst).Pairwise
          (fun left right => eqIgnoreAsciiCase left right = false) := List.pairwise_map.mpr distinct
      exact names.isChain
  rw [windowsEnvironment]
  split
  next valid =>
    rw [writeBlock_eq_ok, Option.toList_none, List.nil_append, chain]
    exact (and_iff_right (List.all_eq_true.mp valid)).symm
  next invalid =>
    constructor
    · nofun
    · rintro ⟨valid, _⟩
      exact absurd (List.all_eq_true.mpr valid) invalid

/-! ## Reading -/

theorem validEntry_iff {entry : List Char × List Char} : validEntry entry = true ↔
    entry.1 ≠ [] ∧ (∀ character ∈ entry.1, character.toNat < 128) ∧ '=' ∉ entry.1 ∧
      0 ∉ encode entry.1 ∧ 0 ∉ encode entry.2 := by
  simp [validEntry, isAscii, and_assoc]

theorem readEntry_entry {entry : List Char × List Char} (valid : validEntry entry = true) :
    readEntry (encode (entry.1 ++ '=' :: entry.2)) = (encode entry.1, encode entry.2) := by
  obtain ⟨_, ascii, noSign, _⟩ := validEntry_iff.mp valid
  have before : ∀ unit ∈ encode entry.1, (unit != equalsSign) = true := by
    intro unit member
    refine bne_iff_ne.mpr ?_
    rintro rfl
    have inName := List.mem_map_of_mem (f := fun unit => Char.ofNat unit.toNat) member
    rw [encode_ascii ascii] at inName
    exact noSign inName
  have split : encode (entry.1 ++ '=' :: entry.2) = encode entry.1 ++ equalsSign :: encode entry.2 := by
    rw [encode_append, encode_cons]
    rfl
  rw [split, readEntry, List.takeWhile_append_of_pos before, List.dropWhile_append_of_pos before]
  simp

theorem strings_append {text : JsString} (nonempty : text ≠ []) (noZero : 0 ∉ text)
    (rest : List UInt16) : strings (text ++ 0 :: rest) = text :: strings rest := by
  have others : ∀ unit ∈ text, (unit == 0) = false := by
    intro unit member
    refine beq_eq_false_iff_ne.mpr ?_
    rintro rfl
    exact noZero member
  rw [strings, List.splitOn_eq_splitOnP,
    List.splitOnP_append_cons_of_forall_mem others 0 (beq_self_eq_true 0), List.takeWhile_cons_of_pos]
  · rfl
  · simpa using nonempty

/-- The strings of a written block are its entries. -/
theorem strings_flatMap {entries : Environment} (valid : ∀ entry ∈ entries, validEntry entry = true) :
    strings (entries.flatMap entryText ++ [0]) =
      entries.map fun entry => encode (entry.1 ++ '=' :: entry.2) := by
  induction entries with
  | nil => rfl
  | cons entry rest inductionHypothesis =>
    have others := inductionHypothesis fun other member => valid other (List.mem_cons_of_mem _ member)
    obtain ⟨_, _, _, noName, noValue⟩ := validEntry_iff.mp (valid entry List.mem_cons_self)
    have noZero : 0 ∉ encode (entry.1 ++ '=' :: entry.2) := by
      have noSign : 0 ∉ encodeChar '=' := by decide
      simp only [encode_append, encode_cons, List.mem_append, noName, noSign, noValue, or_self,
        not_false_eq_true]
    have nonempty : encode (entry.1 ++ '=' :: entry.2) ≠ [] := by
      rw [ne_eq, encode_eq_nil]
      simp
    rw [List.flatMap_cons, entryText, List.append_assoc, List.append_assoc, List.singleton_append,
      strings_append nonempty noZero, others, List.map_cons]

def uppered (unit : UInt16) : Char := (Char.ofNat unit.toNat).toUpper

/-- The value that a block gives a name, as Windows compares names. -/
def blockValue (block : List UInt16) (name : List Char) : Option JsString :=
  (((strings block).map readEntry).find? fun entry =>
    entry.1.map uppered == toAsciiUppercase name).map Prod.snd

/-- A written block gives the name of an entry its value, whatever the case of the name is. -/
theorem blockValue_written {env : Environment} {block : List UInt16}
    (written : windowsEnvironment env = .ok block) {entry : List Char × List Char}
    (member : entry ∈ env) {name : List Char} (same : eqIgnoreAsciiCase entry.1 name = true) :
    blockValue block name = some (encode entry.2) := by
  obtain ⟨valid, distinct, rfl⟩ := windowsEnvironment_eq_ok.mp written
  have order := List.mergeSort_perm env entryLe
  have sortedValid : ∀ entry ∈ env.mergeSort entryLe, validEntry entry = true :=
    fun entry member => valid entry (order.mem_iff.mp member)
  have entries : (strings ((env.mergeSort entryLe).flatMap entryText ++ [0])).map readEntry =
      (env.mergeSort entryLe).map fun entry => (encode entry.1, encode entry.2) := by
    rw [strings_flatMap sortedValid, List.map_map]
    exact List.map_congr_left fun entry member => readEntry_entry (sortedValid entry member)
  have upper : ∀ entry ∈ env, (encode entry.1).map uppered = toAsciiUppercase entry.1 := by
    intro entry member
    have ascii := (validEntry_iff.mp (valid entry member)).2.1
    have units := congrArg (List.map Char.toUpper) (encode_ascii ascii)
    rwa [List.map_map] at units
  -- No other entry has the name, so that the first one with it is the entry.
  have found : (env.mergeSort entryLe).find? (fun entry =>
      (encode entry.1).map uppered == toAsciiUppercase name) = some entry := by
    have isThere : ((env.mergeSort entryLe).find? fun entry =>
        (encode entry.1).map uppered == toAsciiUppercase name).isSome := by
      refine List.find?_isSome.mpr ⟨entry, order.mem_iff.mpr member, ?_⟩
      rw [upper entry member]
      exact same
    obtain ⟨other, first⟩ := Option.isSome_iff_exists.mp isThere
    have inside := order.mem_iff.mp (List.mem_of_find?_eq_some first)
    have named : (toAsciiUppercase other.1 == toAsciiUppercase name) = true := by
      rw [← upper other inside]
      have passed := List.find?_some first
      exact passed
    have equal : eqIgnoreAsciiCase other.1 entry.1 = true :=
      eqIgnoreAsciiCase_iff.mpr ((beq_iff_eq.mp named).trans (eqIgnoreAsciiCase_iff.mp same).symm)
    rw [first, distinctNames_unique distinct inside member equal]
  rw [blockValue, entries, List.find?_map]
  change ((((env.mergeSort entryLe).find? fun entry =>
    (encode entry.1).map uppered == toAsciiUppercase name).map _).map Prod.snd) = _
  rw [found]
  rfl

end OpencodePty.WindowsBlocks
