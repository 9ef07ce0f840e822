import OpencodePty.Substitution

/-!
# Escaping symbols by entities

Some symbols of an alphabet are written as entities, which are longer texts that begin with a symbol
of their own, the lead. A text is escaped by replacing the symbols one after the other throughout
the text, or symbol by symbol: both is the same where no entity contains a symbol that is replaced
after it. What is escaped has none of the symbols left but the lead, which begins an entity wherever
it stands, and reading the entities from the left restores the text.
-/

namespace OpencodePty.EntityEscapes

open OpencodePty.Substitution

universe u
variable {α : Type u}

/-- The symbols that are escaped, each with its entity, in the order in which they are replaced. -/
structure Entities (α : Type u) where
  lead : α
  entries : List (α × List α)
  led : ∀ entry ∈ entries, entry.2.head? = some lead
  escaped : lead ∈ entries.map Prod.fst
  /-- Behind the lead an entity has none of the symbols. -/
  inner : ∀ entry ∈ entries, ∀ other ∈ entries, other.1 ∉ entry.2.tail
  apart : ∀ entry ∈ entries, ∀ other ∈ entries, entry.2 <+: other.2 → entry = other
  ordered : entries.Pairwise fun earlier later => later.1 ∉ earlier.2

variable [DecidableEq α]

/-- Every occurrence of one symbol is replaced by an entity. -/
def replace (symbol : α) (entity text : List α) : List α :=
  text.flatMap fun other => if other = symbol then entity else [other]

/-- The entry of a symbol. -/
def find (entries : List (α × List α)) (symbol : α) : Option (α × List α) :=
  entries.find? fun entry => entry.1 = symbol

theorem find_some {entries : List (α × List α)} {symbol : α} {entry : α × List α}
    (found : find entries symbol = some entry) : entry ∈ entries ∧ entry.1 = symbol := by
  rw [find] at found
  have same := List.find?_some found
  exact ⟨List.mem_of_find?_eq_some found, of_decide_eq_true same⟩

/-- A symbol, or its entity. -/
def write (entries : List (α × List α)) (symbol : α) : List α :=
  ((find entries symbol).map Prod.snd).getD [symbol]

/-- A text without the symbols is written as it is. -/
theorem flatMap_write {entries : List (α × List α)} {text : List α}
    (without : ∀ entry ∈ entries, entry.1 ∉ text) : text.flatMap (write entries) = text := by
  induction text with
  | nil => rfl
  | cons symbol rest inductionHypothesis =>
    have absent : find entries symbol = none := by
      rw [find, List.find?_eq_none]
      intro entry member same
      exact without entry member (of_decide_eq_true same ▸ List.mem_cons_self)
    have later := inductionHypothesis fun entry member inside =>
      without entry member (List.mem_cons_of_mem symbol inside)
    rw [List.flatMap_cons, later, write, absent]
    rfl

/-- Symbols that are replaced one after the other, where no entity has a symbol that comes later. -/
theorem foldl_replace {entries : List (α × List α)}
    (ordered : entries.Pairwise fun earlier later => later.1 ∉ earlier.2) (text : List α) :
    entries.foldl (fun text entry => replace entry.1 entry.2 text) text =
      text.flatMap (write entries) := by
  induction entries generalizing text with
  | nil => exact (flatMap_write fun _ member => absurd member List.not_mem_nil).symm
  | cons entry rest inductionHypothesis =>
    obtain ⟨first, later⟩ := List.pairwise_cons.mp ordered
    rw [List.foldl_cons, inductionHypothesis later, replace, List.flatMap_assoc]
    congr 1
    funext symbol
    by_cases same : symbol = entry.1
    · subst same
      rw [if_pos rfl, flatMap_write first]
      simp [write, find]
    · rw [if_neg same, List.flatMap_cons, List.flatMap_nil, List.append_nil]
      simp [write, find, Ne.symm same]

namespace Entities

variable (entities : Entities α)

/-- The symbols are replaced in their order. -/
def replaceEach (text : List α) : List α :=
  entities.entries.foldl (fun text entry => replace entry.1 entry.2 text) text

def escape (text : List α) : List α := text.flatMap (write entities.entries)

theorem replaceEach_eq (text : List α) : entities.replaceEach text = entities.escape text :=
  foldl_replace entities.ordered text

theorem escape_cons (symbol : α) (rest : List α) :
    entities.escape (symbol :: rest) = write entities.entries symbol ++ entities.escape rest :=
  List.flatMap_cons

/-- The entity that a text begins with. -/
def entityAt (text : List α) : Option (α × List α) :=
  entities.entries.find? fun entry => entry.2.isPrefixOf text

/-- Read the entities from the left. The number counts the symbols of an entity that are still to
be passed over. -/
def unescapeFrom : Nat → List α → List α
  | _, [] => []
  | skip + 1, _ :: rest => unescapeFrom skip rest
  | 0, symbol :: rest =>
    match entities.entityAt (symbol :: rest) with
    | some entry => entry.1 :: unescapeFrom (entry.2.length - 1) rest
    | none => symbol :: unescapeFrom 0 rest

def unescape (text : List α) : List α := entities.unescapeFrom 0 text

variable {entities}

/-- A symbol is written as its entity, or as itself where it has none. -/
theorem write_cases (symbol : α) :
    (∃ entity, (symbol, entity) ∈ entities.entries ∧ write entities.entries symbol = entity) ∨
    (symbol ∉ entities.entries.map Prod.fst ∧ write entities.entries symbol = [symbol]) := by
  cases found : find entities.entries symbol with
  | none =>
    refine .inr ⟨?_, by rw [write, found]; rfl⟩
    intro inside
    obtain ⟨entry, member, rfl⟩ := List.mem_map.mp inside
    exact List.find?_eq_none.mp found entry member (decide_eq_true rfl)
  | some entry =>
    obtain ⟨member, rfl⟩ := find_some found
    exact .inl ⟨entry.2, member, by rw [write, found]; rfl⟩

omit [DecidableEq α] in
/-- An entity is its lead with others behind it. -/
theorem entity_cons {entry : α × List α} (member : entry ∈ entities.entries) :
    entry.2 = entities.lead :: entry.2.tail := by
  have led := entities.led entry member
  cases whole : entry.2 with
  | nil =>
    rw [whole] at led
    cases led
  | cons first rest =>
    rw [whole] at led
    cases led
    rfl

omit [DecidableEq α] in
/-- Behind the lead an entity has no other one. -/
theorem lead_not_inside {entry : α × List α} (member : entry ∈ entities.entries) :
    entities.lead ∉ entry.2.tail := by
  obtain ⟨leading, there, same⟩ := List.mem_map.mp entities.escaped
  rw [← same]
  exact entities.inner entry member leading there

/-! ## What is left of the symbols -/

/-- Of the symbols only the lead is left. -/
theorem escape_left {text : List α} {symbol : α} (escaped : symbol ∈ entities.entries.map Prod.fst)
    (left : symbol ∈ entities.escape text) : symbol = entities.lead := by
  obtain ⟨origin, _, inside⟩ := List.mem_flatMap.mp left
  obtain ⟨entity, member, written⟩ | ⟨plain, written⟩ := @write_cases _ _ entities origin
  · obtain ⟨other, there, rfl⟩ := List.mem_map.mp escaped
    have whole : entity = entities.lead :: entity.tail := entity_cons member
    rw [written, whole] at inside
    rcases List.mem_cons.mp inside with lead | behind
    · exact lead
    · exact absurd behind (entities.inner _ member other there)
  · rw [written] at inside
    rw [List.mem_singleton.mp inside] at escaped
    exact absurd escaped plain

/-- Wherever the lead stands, an entity begins. -/
theorem escape_led {text before after : List α}
    (there : entities.escape text = before ++ entities.lead :: after) :
    ∃ entry ∈ entities.entries, entry.2 <+: entities.lead :: after := by
  induction text generalizing before with
  | nil => exact absurd there.symm (List.append_ne_nil_of_right_ne_nil before (List.cons_ne_nil _ _))
  | cons symbol rest inductionHypothesis =>
    rw [escape_cons] at there
    rcases List.append_eq_append_iff.mp there with ⟨more, _, later⟩ | ⟨more, inside, behind⟩
    · exact inductionHypothesis later
    · cases more with
      | nil => exact @inductionHypothesis [] behind.symm
      | cons first more =>
        obtain ⟨rfl, rfl⟩ := List.cons.inj behind
        obtain ⟨entity, member, written⟩ | ⟨plain, written⟩ := @write_cases _ _ entities symbol
        · refine ⟨_, member, ?_⟩
          have whole : entity = entities.lead :: entity.tail := entity_cons member
          have alone : entities.lead ∉ entity.tail := lead_not_inside member
          rw [written] at inside
          -- The lead is the first symbol of the entity and no later one.
          cases before with
          | nil => exact ⟨entities.escape rest, congrArg (· ++ entities.escape rest) inside⟩
          | cons _ before =>
            obtain ⟨_, tail⟩ := List.cons.inj (whole.symm.trans inside)
            rw [tail] at alone
            exact absurd (List.mem_append_right before List.mem_cons_self) alone
        · rw [written] at inside
          have same : symbol = entities.lead := by
            have member : entities.lead ∈ [symbol] := by
              rw [inside]
              simp
            exact (List.mem_singleton.mp member).symm
          rw [same] at plain
          exact absurd entities.escaped plain

/-! ## Reading -/

theorem unescapeFrom_skip (skip : Nat) (text : List α) :
    entities.unescapeFrom skip text = entities.unescape (text.drop skip) :=
  skip_drop (fun _ => rfl) (fun _ _ _ => rfl) skip text

theorem entityAt_some {text : List α} {entry : α × List α}
    (found : entities.entityAt text = some entry) :
    entry ∈ entities.entries ∧ entry.2 <+: text := by
  rw [entityAt] at found
  have begins := List.find?_some found
  exact ⟨List.mem_of_find?_eq_some found, List.isPrefixOf_iff_prefix.mp begins⟩

/-- An entity at the front is read as its symbol. -/
theorem unescape_entity {entry : α × List α} (member : entry ∈ entities.entries) (rest : List α) :
    entities.unescape (entry.2 ++ rest) = entry.1 :: entities.unescape rest := by
  have begins : entry.2.isPrefixOf (entry.2 ++ rest) = true :=
    List.isPrefixOf_iff_prefix.mpr (List.prefix_append _ _)
  have found : entities.entityAt (entry.2 ++ rest) = some entry := by
    cases first : entities.entityAt (entry.2 ++ rest) with
    | none => exact absurd begins (List.find?_eq_none.mp first entry member)
    | some other =>
      obtain ⟨there, starts⟩ := entityAt_some first
      rcases List.prefix_or_prefix_of_prefix starts (List.prefix_append entry.2 rest) with
        within | around
      · rw [entities.apart other there entry member within]
      · rw [entities.apart entry member other there around]
  have whole := entity_cons member
  rw [unescape, whole, List.cons_append, unescapeFrom, ← List.cons_append, ← whole, found]
  simp only [unescapeFrom_skip]
  rw [whole]
  simp

/-- A symbol that is not the lead is read as it is. -/
theorem unescape_plain {symbol : α} (plain : symbol ≠ entities.lead) (rest : List α) :
    entities.unescape (symbol :: rest) = symbol :: entities.unescape rest := by
  have absent : entities.entityAt (symbol :: rest) = none := by
    rw [entityAt, List.find?_eq_none]
    intro entry member begins
    rw [List.isPrefixOf_iff_prefix, entity_cons member] at begins
    exact plain (List.cons_prefix_cons.mp begins).1.symm
  rw [unescape, unescapeFrom, absent]
  rfl

/-- Reading the entities restores what was escaped. -/
theorem unescape_escape (text : List α) : entities.unescape (entities.escape text) = text := by
  induction text with
  | nil => rfl
  | cons symbol rest inductionHypothesis =>
    rw [escape_cons]
    obtain ⟨entity, member, written⟩ | ⟨plain, written⟩ := @write_cases _ _ entities symbol
    · rw [written, unescape_entity member, inductionHypothesis]
    · have other : symbol ≠ entities.lead := by
        rintro rfl
        exact plain entities.escaped
      rw [written, List.singleton_append, unescape_plain other, inductionHypothesis]

end Entities

end OpencodePty.EntityEscapes
