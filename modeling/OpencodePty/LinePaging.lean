import OpencodePty.JournalReader

/-!
# Pages of lines

The lines of an unlimited read, joined again, are the output. The pages of a read or a search
partition its lines, and say whether there are more. The total of a read counts the lines from the
given position on, that of a search all lines.
-/

namespace OpencodePty.LinePaging

open OpencodePty.JsValues OpencodePty.ExitMatches OpencodePty.JournalReader
open OpencodePty.OutputJournal (endsLine)

/-- The lines of an unlimited read, with their numbers. -/
def fullRead (output : JsString) (record : SessionRecord) : List Line :=
  let result := read output record 0 none none
  (result.lines.zip result.sequences).zipIdx.map fun ((text, sequence), index) =>
    ⟨index + 1, sequence, text⟩

/-- What a page of a read shows. -/
def shown (result : ReadResult) : List (JsString × Nat) := result.lines.zip result.sequences

/-- Pages at the multiples of a limit make up a list, and say that there are more just where they
do not reach its end. -/
structure Paged {α : Type} (items : List α) (limit : Nat) (pages : Nat → List α)
    (hasMore : Nat → Bool) : Prop where
  parts : ∀ count, (List.range count).flatMap pages = items.take (count * limit)
  last : ∀ index, hasMore index = false ↔ items.length ≤ (index + 1) * limit

/-- The laws of reading an output by lines. -/
structure Exact (output : JsString) (record : SessionRecord) : Prop where
  joined : [10].intercalate (read output record 0 none none).lines ++
    (if endsLine output then [10] else []) = output
  positions : ∀ index text sequence,
    (shown (read output record 0 none none))[index]? = some (text, sequence) →
    ∃ before, before = ((read output record 0 none none).lines.take index).flatMap ended ∧
      before ++ text <+: output ∧ sequence = record.firstRetainedSequence + byteLength before
  filtered : ∀ sequence, shown (read output record 0 none sequence) =
    ((fullRead output record).filter (fromSequence sequence)).map fun line =>
      (line.text, line.sequence)
  pages : ∀ sequence limit, 0 < limit →
    Paged (shown (read output record 0 none sequence)) limit
      (fun index => shown (read output record (index * limit) (some limit) sequence))
      (fun index => (read output record (index * limit) (some limit) sequence).hasMore)
  totalLines : ∀ offset limit, (read output record offset limit none).totalLines = lineCount output
  filteredTotal : ∀ offset limit sequence,
    (read output record offset limit sequence).totalLines =
      (read output record 0 none sequence).lines.length

/-- The laws of searching an output. -/
structure ExactSearch (toLowerCase : JsString → JsString) (output : JsString)
    (record : SessionRecord) (pattern : JsString) (ignoreCase : Bool) : Prop where
  found : ∀ sequence,
    (search toLowerCase output record pattern ignoreCase 0 none sequence).found =
      (fullRead output record).filter fun line =>
        contains toLowerCase pattern ignoreCase line.text && fromSequence sequence line
  pages : ∀ sequence limit, 0 < limit →
    Paged (search toLowerCase output record pattern ignoreCase 0 none sequence).found limit
      (fun index =>
        (search toLowerCase output record pattern ignoreCase (index * limit) (some limit)
          sequence).found)
      (fun index =>
        (search toLowerCase output record pattern ignoreCase (index * limit) (some limit)
          sequence).hasMore)
  totalLines : ∀ offset limit sequence,
    (search toLowerCase output record pattern ignoreCase offset limit sequence).totalLines =
      lineCount output
  totalMatches : ∀ offset limit sequence,
    (search toLowerCase output record pattern ignoreCase offset limit sequence).totalMatches =
      (search toLowerCase output record pattern ignoreCase 0 none sequence).found.length

theorem paged_page {α : Type} (items : List α) (limit : Nat) (pages : Nat → List α)
    (hasMore : Nat → Bool)
    (same : ∀ index, pages index = page items (index * limit) (some limit))
    (more : ∀ index, hasMore index =
      decide (index * limit + (page items (index * limit) (some limit)).length < items.length)) :
    Paged items limit pages hasMore where
  parts count := by
    rw [funext same, pages_flatMap]
  last index := by
    rw [more, decide_eq_false_iff_not, page_more, Nat.succ_mul]
    omega

theorem page_map {α β : Type} (f : α → β) (items : List α) (start : Nat) (limit : Option Nat) :
    page (items.map f) start limit = (page items start limit).map f := by
  cases limit with
  | none => exact List.map_drop.symm
  | some limit => simp [page, List.map_drop, List.map_take]

/-- A read shows a page of the lines from the position on. -/
theorem shown_read (output : JsString) (record : SessionRecord) (offset : Nat)
    (limit sequence : Option Nat) :
    shown (read output record offset limit sequence) =
      page (((outputLines output record.firstRetainedSequence).filter (fromSequence sequence)).map
        fun line => (line.text, line.sequence)) offset limit := by
  rw [page_map]
  exact List.zip_map'

theorem filter_all (lines : List Line) : lines.filter (fromSequence none) = lines :=
  List.filter_eq_self.mpr fun _ _ => rfl

/-- An unlimited read gives all lines that the output has. -/
theorem fullRead_eq (output : JsString) (record : SessionRecord) :
    fullRead output record = outputLines output record.firstRetainedSequence := by
  have all := shown_read output record 0 none none
  rw [shown, filter_all] at all
  simp only [fullRead, all, page, List.drop_zero]
  apply List.ext_getElem?
  intro index
  simp only [List.getElem?_map, List.getElem?_zipIdx]
  cases found : (outputLines output record.firstRetainedSequence)[index]? with
  | none => rfl
  | some line =>
    have number := (outputLines_get found).1
    simp [← number]

theorem read_lines (output : JsString) (record : SessionRecord) :
    (JournalReader.read output record 0 none none).lines = textLines output := by
  rw [← outputLines_texts output record.firstRetainedSequence]
  exact congrArg (List.map Line.text) (filter_all _)

theorem read_exact (output : JsString) (record : SessionRecord) : Exact output record where
  joined := by
    rw [read_lines]
    exact joined_textLines output
  positions index text sequence found := by
    rw [shown_read, page, List.drop_zero, filter_all, List.getElem?_map, Option.map_eq_some_iff] at found
    obtain ⟨line, there, same⟩ := found
    cases same
    obtain ⟨_, _, place, front⟩ := outputLines_get there
    rw [read_lines]
    exact ⟨_, rfl, front, place⟩
  filtered sequence := by
    rw [shown_read, fullRead_eq]
    rfl
  pages sequence limit _ := by
    apply paged_page
    · intro index
      rw [shown_read, shown_read]
      rfl
    · intro index
      rw [shown_read]
      simp [JournalReader.read, page]
  totalLines offset limit := by
    rw [lineCount_textLines, ← outputLines_texts output record.firstRetainedSequence,
      List.length_map]
    exact congrArg List.length (filter_all _)
  filteredTotal offset limit sequence := by
    simp [JournalReader.read, page]

theorem search_exact (toLowerCase : JsString → JsString) (output : JsString)
    (record : SessionRecord) (pattern : JsString) (ignoreCase : Bool) :
    ExactSearch toLowerCase output record pattern ignoreCase where
  found sequence := by
    rw [fullRead_eq]
    simp [search, searchLines, page, List.filter_filter, Bool.and_comm]
  pages sequence limit _ := by
    apply paged_page
    · intro index
      rfl
    · intro index
      simp [search, page]
  totalLines _ _ _ := rfl
  totalMatches offset limit sequence := by
    simp [search, page]

/-- Reading and searching by lines keep their laws for every output, record, pattern, limit and
position. -/
theorem line_paging_exact (toLowerCase : JsString → JsString) (output : JsString)
    (record : SessionRecord) (pattern : JsString) (ignoreCase : Bool) :
    Exact output record ∧ ExactSearch toLowerCase output record pattern ignoreCase :=
  ⟨read_exact output record, search_exact toLowerCase output record pattern ignoreCase⟩

/-- A read of the second of two lines has a total of one. -/
theorem total_of_filtered_read :
    ¬ ∀ (output : JsString) (record : SessionRecord) (offset : Nat) (limit sequence : Option Nat),
      (read output record offset limit sequence).totalLines = lineCount output := by
  intro always
  have total := always (js "a\nb") ⟨0, 3, false, none, none⟩ 0 none (some 2)
  have one : (read (js "a\nb") ⟨0, 3, false, none, none⟩ 0 none (some 2)).totalLines = 1 := by
    decide
  have two : lineCount (js "a\nb") = 2 := by decide
  rw [one, two] at total
  exact absurd total (by decide)

end OpencodePty.LinePaging
