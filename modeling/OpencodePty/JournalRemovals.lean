import OpencodePty.SessionRecovery

/-!
# Removals from a journal

The daemon gives up the chunks that end before the first byte that a record retains, and removes
their files one after the other. They come first in the journal, so that what is left after each
removal is read as the rest of its chunks.
-/

namespace OpencodePty.SessionLoading

open OpencodePty.JsValues OpencodePty.OutputJournal OpencodePty.TextEncodings

variable {dateParse : JsString → Option Int} {directory : Directory} {chunks : List OutputChunk}

/-- The files of a directory that are read. -/
def chunkFiles (directory : Directory) : Directory :=
  directory.filter fun file => (js ".json").isSuffixOf file.1

/-- Each file is read as the chunk that it stands for. -/
def Held (dateParse : JsString → Option Int) (files : Directory) (chunks : List OutputChunk) :
    Prop :=
  List.Forall₂ (fun file chunk => readOutputChunk dateParse file.1 file.2 = .ok chunk) files chunks

theorem held_of_mapM {listing : Directory}
    (read : listing.mapM (fun file => readOutputChunk dateParse file.1 file.2) = .ok chunks) :
    Held dateParse listing chunks := by
  induction listing generalizing chunks with
  | nil =>
    cases read
    exact .nil
  | cons file rest inductionHypothesis =>
    rw [List.mapM_cons] at read
    obtain ⟨chunk, first, later⟩ := bind_ok read
    obtain ⟨others, remaining, same⟩ := bind_ok later
    cases same
    exact .cons first (inductionHypothesis remaining)

/-- Chunks that were read, with the files that hold them. -/
theorem read_held (read : readOutputChunks dateParse directory = .ok chunks) :
    ∃ files, files.Perm (chunkFiles directory) ∧ Held dateParse files chunks := by
  obtain ⟨listed, found, rest⟩ := bind_ok read
  simp only at rest
  split at rest
  next follows =>
    cases rest
    obtain ⟨files, held, sorted⟩ := List.perm_comp_forall₂
      (List.perm_insertionSort (fun left right => left.startSequence ≤ right.startSequence) listed)
      (List.Forall₂.flip (held_of_mapM found))
    exact ⟨files, sorted.trans (List.perm_insertionSort _ _), held.flip⟩
  next => cases rest

/-! ## The names of the files -/

theorem encode_digits_injective {first second : List Char}
    (firstDigits : ∀ digit ∈ first, digit.isDigit = true)
    (secondDigits : ∀ digit ∈ second, digit.isDigit = true)
    (same : encode first = encode second) : first = second := by
  rw [← digits_encoded firstDigits, same, digits_encoded secondDigits]

theorem chunkName_injective {first second : Nat} (same : chunkName first = chunkName second) :
    first = second := by
  have digits (value : Nat) : ∀ digit ∈ padded 20 value, digit.isDigit = true :=
    fun digit member => padded_digits member
  exact padded_injective
    (encode_digits_injective (digits first) (digits second) (List.append_cancel_right same))

/-! ## What is left of a journal -/

/-- Only the files of chunks are read. -/
theorem read_chunkFiles (directory : Directory) :
    readOutputChunks dateParse (chunkFiles directory) = readOutputChunks dateParse directory := by
  simp [readOutputChunks, chunkFiles, List.filter_filter]

theorem follows_of_contiguous (follows : contiguous chunks = true)
    (known : ∀ chunk ∈ chunks, ReadChunk chunk) (first : Nat)
    (starts : ∀ chunk ∈ chunks.head?, chunk.startSequence = first) :
    ∃ last, Follows first chunks last := by
  induction chunks generalizing first with
  | nil => exact ⟨first, rfl⟩
  | cons chunk rest inductionHypothesis =>
    have here := known chunk (by simp)
    have start : chunk.startSequence = first := starts chunk rfl
    have filled := here.grows
    have length := here.length
    have meets : contiguous rest = true ∧
        ∀ next ∈ rest.head?, next.startSequence = chunk.endSequence := by
      cases rest with
      | nil => exact ⟨rfl, by simp⟩
      | cons next others =>
        simp only [contiguous, Bool.and_eq_true, beq_iff_eq] at follows
        refine ⟨follows.2, ?_⟩
        intro other member
        cases member
        exact follows.1.symm
    obtain ⟨last, later⟩ := inductionHypothesis meets.1 (fun other member => known other (by simp [member]))
      chunk.endSequence meets.2
    exact ⟨last, start, by omega, later⟩

theorem follows_of_read (read : readOutputChunks dateParse directory = .ok chunks) :
    ∃ first last, Follows first chunks last := by
  obtain ⟨follows, known⟩ := readOutputChunks_read read
  obtain ⟨last, later⟩ := follows_of_contiguous follows known
    ((chunks.head?.map OutputChunk.startSequence).getD 0) (by
      intro chunk member
      rw [Option.mem_def.mp member]
      rfl)
  exact ⟨_, last, later⟩

theorem follows_rest {first last : Nat} {gone kept : List OutputChunk}
    (follows : Follows first (gone ++ kept) last) : ∃ middle, Follows middle kept last := by
  induction gone generalizing first with
  | nil => exact ⟨first, follows⟩
  | cons chunk others inductionHypothesis => exact inductionHypothesis follows.2.2

theorem Held.named {files : Directory} (held : Held dateParse files chunks) :
    ∀ file ∈ files, ∃ chunk ∈ chunks, file.1 = chunkName chunk.startSequence := by
  induction held with
  | nil => simp
  | cons read _ inductionHypothesis =>
    intro file member
    obtain rfl | later := List.mem_cons.mp member
    · obtain ⟨_, _, _, _, _, _, _, _, _, _, name⟩ := (readOutputChunk_ok dateParse).mp read
      exact ⟨_, List.mem_cons_self, name⟩
    · obtain ⟨chunk, present, name⟩ := inductionHypothesis file later
      exact ⟨chunk, List.mem_cons_of_mem _ present, name⟩

/-- The file of a chunk that is removed. -/
def removed (gone : List OutputChunk) (file : JsString × Option Js) : Bool :=
  gone.any fun chunk => file.1 == chunkName chunk.startSequence

/-- Without the files of its first chunks a journal is read as the rest of them. -/
theorem read_rest {gone kept : List OutputChunk}
    (read : readOutputChunks dateParse directory = .ok (gone ++ kept)) :
    readOutputChunks dateParse (removeChunks directory gone) = .ok kept := by
  obtain ⟨files, listed, held⟩ := read_held read
  obtain ⟨first, last, follows⟩ := follows_of_read read
  obtain ⟨middle, later⟩ := follows_rest follows
  have goneHeld : Held dateParse (files.take gone.length) gone :=
    List.forall₂_take_append files gone kept held
  have keptHeld : Held dateParse (files.drop gone.length) kept :=
    List.forall₂_drop_append files gone kept held
  have goneFiles : (files.take gone.length).filter (fun file => !removed gone file) = [] := by
    rw [List.filter_eq_nil_iff]
    intro file member
    obtain ⟨chunk, present, name⟩ := goneHeld.named file member
    have found : removed gone file = true :=
      List.any_eq_true.mpr ⟨chunk, present, beq_iff_eq.mpr name⟩
    simp [found]
  have keptFiles : (files.drop gone.length).filter (fun file => !removed gone file) =
      files.drop gone.length := by
    rw [List.filter_eq_self]
    intro file member
    obtain ⟨chunk, present, name⟩ := keptHeld.named file member
    have apart : removed gone file = false := by
      rw [removed, List.any_eq_false]
      intro other early same
      have before := List.pairwise_append.mp follows.starts.2 |>.2.2 other early chunk present
      have equal := chunkName_injective (name.symm.trans (beq_iff_eq.mp same))
      omega
    simp [apart]
  have left : (chunkFiles (removeChunks directory gone)).Perm (files.drop gone.length) := by
    have filtered := listed.symm.filter fun file => !removed gone file
    rw [← List.take_append_drop gone.length files, List.filter_append, goneFiles, keptFiles,
      List.nil_append] at filtered
    have same : chunkFiles (removeChunks directory gone) =
        (chunkFiles directory).filter fun file => !removed gone file := by
      simp only [chunkFiles, removeChunks, List.filter_filter, removed]
      congr 1
      funext file
      exact Bool.and_comm _ _
    rw [same]
    exact filtered
  rw [← read_chunkFiles]
  exact readOutputChunks_ok dateParse keptHeld later left

/-! ## Removals one by one -/

/-- The directory after each removal of the loop of `discardOutputBefore`. -/
def discardWrites (directory : Directory) : List OutputChunk → List Directory
  | [] => []
  | chunk :: rest =>
    let next := removeChunks directory [chunk]
    next :: discardWrites next rest

theorem removeChunks_append (directory : Directory) (first second : List OutputChunk) :
    removeChunks (removeChunks directory first) second =
      removeChunks directory (first ++ second) := by
  simp only [removeChunks, List.filter_filter, List.any_append, Bool.not_or]
  congr 1
  funext file
  exact Bool.and_comm _ _

theorem removeChunks_nil (directory : Directory) : removeChunks directory [] = directory := by
  simp [removeChunks]

/-- After some removals the rest of the chunks is still to be removed. -/
theorem mem_discardWrites {gone : List OutputChunk} {left : Directory}
    (member : left ∈ discardWrites directory gone) :
    ∃ taken rest, gone = taken ++ rest ∧ left = removeChunks directory taken := by
  induction gone generalizing directory with
  | nil => simp [discardWrites] at member
  | cons chunk rest inductionHypothesis =>
    obtain rfl | later := List.mem_cons.mp member
    · exact ⟨[chunk], rest, rfl, rfl⟩
    · obtain ⟨taken, others, split, same⟩ := inductionHypothesis later
      refine ⟨chunk :: taken, others, by rw [split]; rfl, ?_⟩
      rw [same, removeChunks_append]
      rfl

theorem follows_ends {first last : Nat} (follows : Follows first chunks last) :
    ∀ chunk ∈ chunks, first < chunk.endSequence := by
  induction chunks generalizing first with
  | nil => simp
  | cons chunk rest inductionHypothesis =>
    obtain ⟨start, positive, later⟩ := follows
    intro other member
    obtain rfl | member := List.mem_cons.mp member
    · exact positive
    · have after := inductionHypothesis later other member
      omega

/-- The chunks that end before a sequence number come first. -/
theorem retained_split {first last : Nat} (follows : Follows first chunks last) (sequence : Nat) :
    chunks.filter (fun chunk => chunk.endSequence ≤ sequence) ++
      chunks.filter (fun chunk => !decide (chunk.endSequence ≤ sequence)) = chunks := by
  induction chunks generalizing first with
  | nil => rfl
  | cons chunk rest inductionHypothesis =>
    obtain ⟨start, positive, later⟩ := follows
    by_cases early : chunk.endSequence ≤ sequence
    · have tail := inductionHypothesis later
      simp only [List.filter_cons, early, decide_true, if_true, Bool.not_true, Bool.false_eq_true,
        if_false, List.cons_append, tail]
    · have ends := follows_ends later
      have none : rest.filter (fun chunk => chunk.endSequence ≤ sequence) = [] := by
        rw [List.filter_eq_nil_iff]
        intro other member
        have after := ends other member
        simp only [decide_eq_true_eq]
        omega
      have all : rest.filter (fun chunk => !decide (chunk.endSequence ≤ sequence)) = rest := by
        rw [List.filter_eq_self]
        intro other member
        have after := ends other member
        simp only [Bool.not_eq_true', decide_eq_false_iff_not]
        omega
      simp [early, none, all]

end OpencodePty.SessionLoading
