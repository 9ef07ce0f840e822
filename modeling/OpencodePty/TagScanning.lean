import Mathlib.Data.List.Basic

/-!
# The tags of a text

A reader goes through a text from the left. Outside the tags an opening symbol begins one, and a
closing symbol that stands outside quotes ends it. A text without these symbols and without quotes
is inert: wherever it stands, the reader passes it and neither begins nor ends a tag.
-/

namespace OpencodePty.TagScanning

universe u
variable {α : Type u}

/-- The symbols that tags are made of. -/
structure Markup (α : Type u) where
  opening : α
  closing : α
  quotes : List α

namespace Markup

/-- The symbols of markup. -/
def symbols (markup : Markup α) : List α := markup.opening :: markup.closing :: markup.quotes

/-- One of the quotes. -/
abbrev Quote (markup : Markup α) := { symbol : α // symbol ∈ markup.quotes }

end Markup

/-- Where a reader stands: outside the tags, or inside one, with the quote that is open and what was
read of the tag. -/
inductive Place (markup : Markup α) where
  | content
  | inside (quote : Option markup.Quote) (begun : List α)

variable {markup : Markup α}

/-- The place behind a text that neither begins nor ends a tag. -/
def Place.pass : Place markup → List α → Place markup
  | .content, _ => .content
  | .inside quote begun, text => .inside quote (begun ++ text)

/-- A reader, with the tags that it has read. -/
structure Reader (markup : Markup α) where
  place : Place markup
  tags : List (List α)

/-- To pass one text and then another is to pass both. -/
theorem Place.pass_append (place : Place markup) (first second : List α) :
    (place.pass first).pass second = place.pass (first ++ second) := by
  cases place with
  | content => rfl
  | inside quote begun => exact congrArg (Place.inside quote) (List.append_assoc _ _ _)

/-- A separator stands behind the first text. -/
theorem intercalate_cons (separator first next : List α) (rest : List (List α)) :
    separator.intercalate (first :: next :: rest) =
      first ++ separator ++ separator.intercalate (next :: rest) := by
  simp [List.intercalate]

/-- A text that no tag is made of. -/
def Plain (markup : Markup α) (text : List α) : Prop := ∀ symbol ∈ text, symbol ∉ markup.symbols

/-- Two texts in a row are plain where each of them is. -/
@[simp] theorem plain_append {first second : List α} :
    Plain markup (first ++ second) ↔ Plain markup first ∧ Plain markup second :=
  List.forall_mem_append

/-- A text is plain where each of its symbols is. -/
theorem plain_cons {symbol : α} {rest : List α} :
    Plain markup (symbol :: rest) ↔ symbol ∉ markup.symbols ∧ Plain markup rest :=
  List.forall_mem_cons

/-- No tag opens in a plain text. -/
theorem Plain.unopened {text : List α} (plain : Plain markup text) : markup.opening ∉ text :=
  fun member => plain _ member List.mem_cons_self

/-- Plain texts with a plain separator are plain. -/
theorem Plain.joined {separator : List α} {texts : List (List α)} (plain : Plain markup separator)
    (all : ∀ text ∈ texts, Plain markup text) : Plain markup (separator.intercalate texts) := by
  induction texts with
  | nil => exact fun _ member => absurd member List.not_mem_nil
  | cons text texts inductionHypothesis =>
    obtain ⟨here, later⟩ := List.forall_mem_cons.mp all
    cases texts with
    | nil => simpa using here
    | cons next texts =>
      rw [intercalate_cons]
      exact plain_append.mpr ⟨plain_append.mpr ⟨here, plain⟩, inductionHypothesis later⟩

variable [DecidableEq α]

instance (text : List α) : Decidable (Plain markup text) :=
  inferInstanceAs (Decidable (∀ symbol ∈ text, symbol ∉ markup.symbols))

/-- The quote that is open behind a symbol inside a tag. -/
def quoteAfter (quote : Option markup.Quote) (symbol : α) : Option markup.Quote :=
  match quote with
  | none => if quotes : symbol ∈ markup.quotes then some ⟨symbol, quotes⟩ else none
  | some opened => if symbol = opened.val then none else some opened

/-- The quote that is open behind a text inside a tag, where the tag does not end in it. -/
def within : Option markup.Quote → List α → Option (Option markup.Quote)
  | quote, [] => some quote
  | quote, symbol :: rest =>
    if quote = none ∧ symbol = markup.closing then none else within (quoteAfter quote symbol) rest

namespace Reader

/-- The reader takes one symbol. -/
def next (reader : Reader markup) (symbol : α) : Reader markup :=
  match reader.place with
  | .content =>
    if symbol = markup.opening then { reader with place := .inside none [symbol] } else reader
  | .inside quote begun =>
    if quote = none ∧ symbol = markup.closing then
      { place := .content, tags := reader.tags ++ [begun ++ [symbol]] }
    else { reader with place := .inside (quoteAfter quote symbol) (begun ++ [symbol]) }

/-- The reader takes a text. -/
def read (reader : Reader markup) (text : List α) : Reader markup := text.foldl next reader

/-- A reader that passes a text. -/
def pass (reader : Reader markup) (text : List α) : Reader markup :=
  { reader with place := reader.place.pass text }

/-- No symbol changes nothing. -/
@[simp] theorem read_nil (reader : Reader markup) : reader.read [] = reader := rfl

/-- A text is read on from where the one before it ends. -/
@[simp] theorem read_append (reader : Reader markup) (first second : List α) :
    reader.read (first ++ second) = (reader.read first).read second := List.foldl_append

/-- A text is read from its first symbol on. -/
theorem read_cons (reader : Reader markup) (symbol : α) (rest : List α) :
    reader.read (symbol :: rest) = (reader.next symbol).read rest := rfl

end Reader

/-- The tags of a text. -/
def tags (markup : Markup α) (text : List α) : List (List α) :=
  (Reader.read (⟨.content, []⟩ : Reader markup) text).tags

/-- Wherever a text stands, a reader passes it. -/
def Inert (markup : Markup α) (text : List α) : Prop :=
  ∀ reader : Reader markup, reader.read text = reader.pass text

/-! ## Inert texts -/

/-- A quote stays as it is behind a symbol that no tag is made of. -/
theorem quoteAfter_plain {symbol : α} (plain : symbol ∉ markup.symbols)
    (quote : Option markup.Quote) : quoteAfter quote symbol = quote := by
  have unquoted : symbol ∉ markup.quotes := fun quotes =>
    plain (List.mem_cons_of_mem _ (List.mem_cons_of_mem _ quotes))
  cases quote with
  | none => exact dif_neg unquoted
  | some opened =>
    have other : symbol ≠ opened.val := by
      rintro rfl
      exact unquoted opened.property
    exact if_neg other

omit [DecidableEq α] in
/-- A plain symbol closes no tag. -/
theorem ne_closing {symbol : α} (plain : symbol ∉ markup.symbols) : symbol ≠ markup.closing := by
  rintro rfl
  exact plain (List.mem_cons_of_mem _ List.mem_cons_self)

/-- A plain symbol is passed over. -/
theorem next_plain {symbol : α} (plain : symbol ∉ markup.symbols) (reader : Reader markup) :
    reader.next symbol = reader.pass [symbol] := by
  have begins : symbol ≠ markup.opening := by
    rintro rfl
    exact plain List.mem_cons_self
  obtain ⟨place, read⟩ := reader
  cases place with
  | content => exact if_neg begins
  | inside quote begun =>
    rw [Reader.next]
    simp only [ne_closing plain, and_false, if_false, quoteAfter_plain plain]
    rfl

/-- A plain text is passed over, wherever the reader is. -/
theorem Plain.inert {text : List α} (plain : Plain markup text) : Inert markup text := by
  intro reader
  induction text generalizing reader with
  | nil =>
    obtain ⟨place, read⟩ := reader
    cases place with
    | content => rfl
    | inside quote begun => simp [Reader.pass, Place.pass]
  | cons symbol rest inductionHypothesis =>
    obtain ⟨here, later⟩ := plain_cons.mp plain
    rw [Reader.read_cons, inductionHypothesis later, next_plain here, Reader.pass, Reader.pass,
      Place.pass_append]
    rfl

/-! ## Texts outside the tags -/

/-- A text that begins outside the tags ends there. -/
def Settled (markup : Markup α) (text : List α) : Prop :=
  (Reader.read (⟨.content, []⟩ : Reader markup) text).place = .content

/-- What a reader has read before is kept in front. -/
theorem read_passed (place : Place markup) (passed : List (List α)) (text : List α) :
    Reader.read (⟨place, passed⟩ : Reader markup) text =
      ⟨(Reader.read (⟨place, []⟩ : Reader markup) text).place,
        passed ++ (Reader.read (⟨place, []⟩ : Reader markup) text).tags⟩ := by
  induction text generalizing place passed with
  | nil => simp
  | cons symbol rest inductionHypothesis =>
    have step : Reader.next (⟨place, passed⟩ : Reader markup) symbol =
        ⟨(Reader.next (⟨place, []⟩ : Reader markup) symbol).place,
          passed ++ (Reader.next (⟨place, []⟩ : Reader markup) symbol).tags⟩ := by
      cases place with
      | content =>
        simp only [Reader.next]
        split <;> simp
      | inside quote begun =>
        simp only [Reader.next]
        split <;> simp
    rw [Reader.read_cons, Reader.read_cons, step]
    obtain ⟨later, found⟩ := Reader.next (⟨place, []⟩ : Reader markup) symbol
    rw [inductionHypothesis later (passed ++ found), inductionHypothesis later found,
      List.append_assoc]

/-- Behind a settled text the reader is in the content, with the tags of the text. -/
theorem Settled.read {text : List α} (settled : Settled markup text) :
    Reader.read (⟨.content, []⟩ : Reader markup) text = ⟨.content, tags markup text⟩ :=
  congrArg (Reader.mk · (tags markup text)) settled

/-- Two settled texts in a row are settled. -/
theorem Settled.append {first second : List α} (before : Settled markup first)
    (after : Settled markup second) : Settled markup (first ++ second) := by
  rw [Settled, Reader.read_append, before.read, read_passed]
  exact after

/-- Behind a settled text the tags of the next one follow. -/
theorem Settled.tags_append {first : List α} (before : Settled markup first) (second : List α) :
    tags markup (first ++ second) = tags markup first ++ tags markup second := by
  rw [tags, Reader.read_append, before.read, read_passed]
  rfl

/-- A text that is passed over leaves the content. -/
theorem Inert.settled {text : List α} (inert : Inert markup text) : Settled markup text :=
  congrArg Reader.place (inert ⟨.content, []⟩)

/-- A text that is passed over has no tags. -/
theorem Inert.tags {text : List α} (inert : Inert markup text) : tags markup text = [] :=
  congrArg Reader.tags (inert ⟨.content, []⟩)

/-- Outside the tags a text without the opening symbol is passed. -/
theorem read_unopened {text : List α} (unopened : markup.opening ∉ text) :
    Reader.read (⟨.content, []⟩ : Reader markup) text = ⟨.content, []⟩ := by
  induction text with
  | nil => rfl
  | cons symbol rest inductionHypothesis =>
    obtain ⟨other, later⟩ := List.ne_and_not_mem_of_not_mem_cons unopened
    rw [Reader.read_cons, Reader.next]
    simp only [other.symm, if_false]
    exact inductionHypothesis later

/-- A text in which no tag opens is settled. -/
theorem settled_of_unopened {text : List α} (unopened : markup.opening ∉ text) :
    Settled markup text := congrArg Reader.place (read_unopened unopened)

/-- A text in which no tag opens has no tags. -/
theorem tags_of_unopened {text : List α} (unopened : markup.opening ∉ text) :
    tags markup text = [] := congrArg Reader.tags (read_unopened unopened)

/-- Settled lines that are joined have the tags of each. -/
theorem joined_lines {separator : List α} {lines : List (List α)}
    (plain : Plain markup separator) (settled : ∀ line ∈ lines, Settled markup line) :
    Settled markup (separator.intercalate lines) ∧
      tags markup (separator.intercalate lines) = lines.flatMap (tags markup) := by
  induction lines with
  | nil => exact ⟨rfl, rfl⟩
  | cons line lines inductionHypothesis =>
    obtain ⟨here, later⟩ := List.forall_mem_cons.mp settled
    cases lines with
    | nil => simpa using here
    | cons next lines =>
      obtain ⟨rest, found⟩ := inductionHypothesis later
      have first := here.append plain.inert.settled
      rw [intercalate_cons, first.tags_append, here.tags_append, plain.inert.tags, found,
        List.append_nil]
      exact ⟨first.append rest, rfl⟩

/-! ## Tags -/

/-- A tag goes on from one text to the next. -/
theorem within_append {quote middle later : Option markup.Quote} {first second : List α}
    (begins : within quote first = some middle) (ends : within middle second = some later) :
    within quote (first ++ second) = some later := by
  induction first generalizing quote with
  | nil =>
    cases begins
    exact ends
  | cons symbol rest inductionHypothesis =>
    rw [List.cons_append, within]
    rw [within] at begins
    split at begins
    · cases begins
    · rename_i goesOn
      rw [if_neg goesOn]
      exact inductionHypothesis begins

/-- A plain text leaves a tag where it is. -/
theorem within_plain {text : List α} (plain : Plain markup text)
    (quote : Option markup.Quote) : within quote text = some quote := by
  induction text with
  | nil => rfl
  | cons symbol rest inductionHypothesis =>
    obtain ⟨here, later⟩ := plain_cons.mp plain
    rw [within, quoteAfter_plain here]
    simp only [ne_closing here, and_false, if_false]
    exact inductionHypothesis later

/-- Inside a tag a text is read in which the tag does not end. -/
theorem read_within {quote later : Option markup.Quote} {text : List α}
    (inside : within quote text = some later) (begun : List α) (passed : List (List α)) :
    Reader.read (⟨.inside quote begun, passed⟩ : Reader markup) text =
      ⟨.inside later (begun ++ text), passed⟩ := by
  induction text generalizing quote begun with
  | nil =>
    cases inside
    rw [Reader.read_nil, List.append_nil]
  | cons symbol rest inductionHypothesis =>
    rw [within] at inside
    split at inside
    · cases inside
    · rename_i goesOn
      rw [Reader.read_cons, Reader.next]
      simp only [goesOn, if_false]
      rw [inductionHypothesis inside, List.append_assoc]
      rfl

/-- A text inside a tag that does not end it and leaves no quote open. -/
def Enclosed (markup : Markup α) (text : List α) : Prop :=
  within (none : Option markup.Quote) text = some none

instance (text : List α) : Decidable (Enclosed markup text) :=
  inferInstanceAs (Decidable (within (none : Option markup.Quote) text = some none))

/-- Two enclosed texts in a row are enclosed. -/
theorem Enclosed.append {first second : List α} (before : Enclosed markup first)
    (after : Enclosed markup second) : Enclosed markup (first ++ second) :=
  within_append before after

/-- A tag is read as a whole. -/
theorem Enclosed.tag {body : List α} (enclosed : Enclosed markup body) :
    Settled markup (markup.opening :: (body ++ [markup.closing])) ∧
      tags markup (markup.opening :: (body ++ [markup.closing])) =
        [markup.opening :: (body ++ [markup.closing])] := by
  have opened : Reader.next (⟨.content, []⟩ : Reader markup) markup.opening =
      ⟨.inside none [markup.opening], []⟩ := if_pos rfl
  have read : Reader.read (⟨.content, []⟩ : Reader markup)
      (markup.opening :: (body ++ [markup.closing])) =
      ⟨.content, [markup.opening :: (body ++ [markup.closing])]⟩ := by
    rw [Reader.read_cons, opened, Reader.read_append, read_within enclosed, Reader.read_cons,
      Reader.next]
    simp
  exact ⟨congrArg Reader.place read, congrArg Reader.tags read⟩

end OpencodePty.TagScanning
