import Mathlib.Data.List.Perm.Basic
import Mathlib.Data.List.Sort
import OpencodePty.Timestamps

/-!
# The output journal as the daemon reads it

The output of a session is a directory of chunk files, each named by the sequence number
of its first byte. The daemon reads every file of that directory with the extension of a
chunk, checks it against its own name and length, and requires the chunks to follow one
another without a gap.

A directory is listed in any order, and the content of a file is what parsing it as UTF-8
and JSON gives, or nothing where that fails. `Date.parse` is a parameter.
-/

namespace OpencodePty.OutputJournal

open OpencodePty.JsValues OpencodePty.TextEncodings OpencodePty.Timestamps

/-- The files of a directory, by name. -/
abbrev Directory := List (JsString × Option Js)

structure OutputChunk where
  startSequence : Nat
  endSequence : Nat
  timestamp : JsString
  data : JsString
  deriving DecidableEq

/-- The ways in which a journal is invalid: the messages of `InvalidJournalError`. -/
inductive JournalError where
  | filename
  | notJson
  | schema
  | sequence
  | discontinuous
  | cursor
  | retainedCursor
  deriving DecidableEq

def JournalError.message : JournalError → String
  | .filename => "chunk filename is invalid"
  | .notJson => "chunk is not valid UTF-8 JSON"
  | .schema => "chunk schema is invalid"
  | .sequence => "chunk schema or sequence is invalid"
  | .discontinuous => "chunk sequence is discontinuous"
  | .cursor => "chunk cursor does not match session cursor"
  | .retainedCursor => "retained chunk cursor does not match session cursor"

/-- `validNonnegativeInteger`, with the number. -/
def nonnegativeInteger : Option Js → Option Nat
  | some (.num (.integer value)) =>
    if (JsNumber.integer value).isSafeInteger && 0 ≤ value then some value.toNat else none
  | _ => none

/-- `validText`, with the string. -/
def text : Option Js → Option JsString
  | some (.str value) => if validText value then some value else none
  | _ => none

/-- `validTimestamp`, with the string. -/
def timestamp (dateParse : JsString → Option Int) (value : Option Js) : Option JsString :=
  (text value).filter fun date => (dateParse date).isSome

/-- The name of the file of a chunk: `startSequence.toString().padStart(20, '0')`. -/
def chunkName (startSequence : Nat) : JsString := encode (padded 20 startSequence) ++ js ".json"

/-- `/^\d{20}\.json$/` -/
def isChunkName (entry : JsString) : Bool :=
  entry.length == 25 && (entry.take 20).all isDigit && entry.drop 20 == js ".json"

variable (dateParse : JsString → Option Int)

def readOutputChunk (entry : JsString) (content : Option Js) :
    Except JournalError OutputChunk :=
  if !isChunkName entry then .error .filename
  else
    match content with
    | none => .error .notJson
    | some value =>
      if !value.isObject then .error .schema
      else
        match nonnegativeInteger (value.get "startSequence"),
          nonnegativeInteger (value.get "endSequence"), timestamp dateParse (value.get "timestamp"),
          text (value.get "data") with
        | some startSequence, some endSequence, some timestamp, some data =>
          if endSequence < startSequence || data.isEmpty ||
              endSequence - startSequence != byteLength data ||
              entry != chunkName startSequence then
            .error .sequence
          else .ok ⟨startSequence, endSequence, timestamp, data⟩
        | _, _, _, _ => .error .sequence

/-- The order of strings by their code units. -/
def precedes : JsString → JsString → Bool
  | [], _ => true
  | _ :: _, [] => false
  | first :: rest, second :: others =>
    first < second || first == second && precedes rest others

/-- Every chunk starts where the one before it ends. -/
def contiguous : List OutputChunk → Bool
  | first :: second :: rest =>
    first.endSequence == second.startSequence && contiguous (second :: rest)
  | _ => true

/-- A missing directory is read like an empty one. -/
def readOutputChunks (directory : Directory) : Except JournalError (List OutputChunk) := do
  let entries := (directory.filter fun file => (js ".json").isSuffixOf file.1).insertionSort
    fun left right => precedes left.1 right.1
  let chunks ← entries.mapM fun file => readOutputChunk dateParse file.1 file.2
  let ordered := chunks.insertionSort fun left right => left.startSequence ≤ right.startSequence
  if contiguous ordered then pure ordered else throw .discontinuous

/-- The data of the chunks: `chunks.map((chunk) => chunk.data).join('')`. -/
def joined (chunks : List OutputChunk) : JsString := (chunks.map OutputChunk.data).flatten

def readOutput (directory : Directory) : Except JournalError JsString := do
  return joined (← readOutputChunks dateParse directory)

/-- `output.endsWith('\n')` -/
def endsLine (output : JsString) : Bool := output.getLast? == some 10

/-- `lineCount` of `reconcileSession`. -/
def lineCount (output : JsString) : Nat :=
  if output.isEmpty then 0
  else (output.splitOn 10).length - if endsLine output then 1 else 0

/-- `outputHasPartialLine` of `reconcileSession`. -/
def hasPartialLine (output : JsString) : Bool := !output.isEmpty && !endsLine output

/-- The lines of an output are its line ends, and a last line without one. -/
theorem lineCount_eq (output : JsString) :
    lineCount output = output.count 10 + if hasPartialLine output then 1 else 0 := by
  have pieces (units : JsString) : (units.splitOn 10).length = units.count 10 + 1 := by
    induction units with
    | nil => rfl
    | cons unit rest inductionHypothesis =>
      rw [List.splitOn] at inductionHypothesis ⊢
      rw [List.splitOnP_cons_eq_if_modifyHead, List.count_cons]
      split
      · simp [inductionHypothesis]
      · simp [inductionHypothesis]
  cases output with
  | nil => rfl
  | cons unit rest =>
    simp only [lineCount, hasPartialLine, List.isEmpty_cons, Bool.not_false, Bool.true_and, pieces]
    cases endsLine (unit :: rest) <;> simp

theorem lineCount_le_byteLength (output : JsString) : lineCount output ≤ byteLength output := by
  have longer := length_le_byteLength output
  have counted : output.count 10 ≤ output.length := List.count_le_length
  rw [lineCount_eq]
  cases unfinished : hasPartialLine output with
  | false =>
    simp only [Bool.false_eq_true, if_false]
    omega
  | true =>
    -- the last unit is no line end, so that not all are counted
    have fewer : output.count 10 ≠ output.length := by
      rw [ne_eq, List.count_eq_length]
      intro all
      obtain ⟨before, unit, rfl⟩ : ∃ before unit, output = before ++ [unit] := by
        obtain rfl | ended := List.eq_nil_or_concat' output
        · cases unfinished
        · exact ended
      have newline := all unit (by simp)
      simp [hasPartialLine, endsLine, ← newline] at unfinished
    simp only [if_true]
    omega

/-! ## Reading back a chunk -/

theorem chunkName_length {startSequence : Nat} (small : startSequence < 10 ^ 20) :
    (encode (padded 20 startSequence)).length = 20 ∧
      (encode (padded 20 startSequence)).all isDigit = true := by
  obtain ⟨length, digits⟩ := encode_digits fun digit => @padded_digits 20 startSequence digit
  exact ⟨length.trans (length_padded (by decide) small), digits⟩

/-- The name of a chunk file passes the check on names. -/
theorem isChunkName_chunkName {startSequence : Nat} (small : startSequence < 10 ^ 20) :
    isChunkName (chunkName startSequence) = true := by
  obtain ⟨length, digits⟩ := chunkName_length small
  have suffix : (js ".json").length = 5 := by decide
  simp [isChunkName, chunkName, length, suffix, digits]

theorem isSuffixOf_chunkName (startSequence : Nat) :
    (js ".json").isSuffixOf (chunkName startSequence) = true := by
  rw [List.isSuffixOf_iff_suffix]
  exact List.suffix_append _ _

theorem nonnegativeInteger_int {value : Nat} (safe : value ≤ maxSafeInteger) :
    nonnegativeInteger (some (.int value)) = some value := by
  simp [nonnegativeInteger, Js.int, JsNumber.isSafeInteger, safe]

/-- The checks of one chunk file, and what its content is then. -/
theorem readOutputChunk_ok {entry : JsString} {content : Option Js} {chunk : OutputChunk} :
    readOutputChunk dateParse entry content = .ok chunk ↔
      isChunkName entry = true ∧ ∃ value, content = some value ∧ value.isObject = true ∧
        nonnegativeInteger (value.get "startSequence") = some chunk.startSequence ∧
        nonnegativeInteger (value.get "endSequence") = some chunk.endSequence ∧
        timestamp dateParse (value.get "timestamp") = some chunk.timestamp ∧
        text (value.get "data") = some chunk.data ∧ chunk.data ≠ [] ∧
        chunk.endSequence = chunk.startSequence + byteLength chunk.data ∧
        entry = chunkName chunk.startSequence := by
  constructor
  · intro read
    unfold readOutputChunk at read
    split at read
    · cases read
    next named =>
      split at read
      · cases read
      next value =>
        split at read
        · cases read
        next object =>
          split at read
          next startSequence endSequence date data starts ends dated texts =>
            split at read
            · cases read
            next checked =>
              cases read
              simp only [Bool.or_eq_true, decide_eq_true_eq, List.isEmpty_iff, bne_iff_ne, ne_eq,
                not_or, Nat.not_lt, Decidable.not_not] at checked
              obtain ⟨⟨⟨ordered, filled⟩, length⟩, name⟩ := checked
              refine ⟨by simpa using named, value, rfl, by simpa using object, starts, ends, dated,
                texts, filled, ?_, name⟩
              change endSequence = startSequence + byteLength data
              omega
          next => cases read
  · rintro ⟨named, value, rfl, object, starts, ends, dated, texts, filled, length, name⟩
    have ordered : ¬ chunk.endSequence < chunk.startSequence := by omega
    have size : chunk.endSequence - chunk.startSequence = byteLength chunk.data := by omega
    have present : chunk.data.isEmpty = false := by simpa using filled
    simp [readOutputChunk, named, object, starts, ends, dated, texts, ordered, size, present,
      ← name]

/-- Chunks that follow one another from the first sequence number to the last. -/
def Follows : Nat → List OutputChunk → Nat → Prop
  | first, [], last => first = last
  | first, chunk :: rest, last =>
    chunk.startSequence = first ∧ first < chunk.endSequence ∧ Follows chunk.endSequence rest last

theorem Follows.contiguous {first last : Nat} {chunks : List OutputChunk}
    (follows : Follows first chunks last) : contiguous chunks = true := by
  induction chunks generalizing first with
  | nil => rfl
  | cons chunk rest inductionHypothesis =>
    obtain ⟨_, _, later⟩ := follows
    have tail := inductionHypothesis later
    cases rest with
    | nil => rfl
    | cons next others =>
      rw [OutputJournal.contiguous, tail, later.1]
      simp

theorem Follows.starts {first last : Nat} {chunks : List OutputChunk}
    (follows : Follows first chunks last) :
    (∀ chunk ∈ chunks, first ≤ chunk.startSequence) ∧
      chunks.Pairwise fun left right => left.startSequence < right.startSequence := by
  induction chunks generalizing first with
  | nil => simp
  | cons chunk rest inductionHypothesis =>
    obtain ⟨start, positive, later⟩ := follows
    obtain ⟨above, increasing⟩ := inductionHypothesis later
    refine ⟨?_, ?_⟩
    · intro other member
      obtain rfl | member := List.mem_cons.mp member
      · exact Nat.le_of_eq start.symm
      · have next := above other member
        omega
    · refine List.Pairwise.cons ?_ increasing
      intro other member
      have next := above other member
      omega

/-- Sorting a rearrangement of chunks that follow one another restores their order. -/
theorem Follows.sorted {first last : Nat} {chunks listed : List OutputChunk}
    (follows : Follows first chunks last) (same : listed.Perm chunks) :
    listed.insertionSort (fun left right => left.startSequence ≤ right.startSequence) = chunks := by
  have increasing := follows.starts.2
  refine List.Perm.eq_of_pairwise ?_ (List.pairwise_insertionSort _ listed)
    (increasing.imp Nat.le_of_lt) ((List.perm_insertionSort _ listed).trans same)
  have distinct : (chunks.map OutputChunk.startSequence).Nodup :=
    List.pairwise_map.mpr (increasing.imp Nat.ne_of_lt)
  intro left right leftMember rightMember below above
  have member : left ∈ chunks :=
    same.subset ((List.perm_insertionSort _ listed).subset leftMember)
  exact List.inj_on_of_nodup_map distinct member rightMember (Nat.le_antisymm below above)

/-- Reading files one after another gives the chunks that they hold. -/
theorem mapM_read {listing : Directory} {chunks : List OutputChunk}
    (held : List.Forall₂ (fun file chunk =>
      readOutputChunk dateParse file.1 file.2 = .ok chunk) listing chunks) :
    listing.mapM (fun file => readOutputChunk dateParse file.1 file.2) = .ok chunks := by
  induction held with
  | nil => rfl
  | cons read _ inductionHypothesis =>
    rw [List.mapM_cons, read, inductionHypothesis]
    rfl

/-- A file that is read has the extension of a chunk. -/
theorem extension_of_read {files : Directory} {chunks : List OutputChunk}
    (held : List.Forall₂ (fun file chunk =>
      readOutputChunk dateParse file.1 file.2 = .ok chunk) files chunks) :
    ∀ file ∈ files, (js ".json").isSuffixOf file.1 = true := by
  induction held with
  | nil => simp
  | cons read _ inductionHypothesis =>
    obtain ⟨_, _, _, _, _, _, _, _, _, _, name⟩ := (readOutputChunk_ok dateParse).mp read
    simp only [List.forall_mem_cons]
    refine ⟨?_, inductionHypothesis⟩
    rw [name]
    exact isSuffixOf_chunkName _

/-- A directory that holds, in any order, just the files of chunks that follow one another
is read as these chunks. -/
theorem readOutputChunks_ok {directory files : Directory} {chunks : List OutputChunk}
    {first last : Nat}
    (held : List.Forall₂ (fun file chunk =>
      readOutputChunk dateParse file.1 file.2 = .ok chunk) files chunks)
    (follows : Follows first chunks last) (listed : directory.Perm files) :
    readOutputChunks dateParse directory = .ok chunks := by
  have selected : directory.filter (fun file => (js ".json").isSuffixOf file.1) = directory := by
    rw [List.filter_eq_self]
    exact fun file member => extension_of_read dateParse held file (listed.subset member)
  generalize sorting : directory.insertionSort (fun left right =>
    precedes left.1 right.1) = entries
  have rearranged : entries.Perm files := by
    rw [← sorting]
    exact (List.perm_insertionSort _ directory).trans listed
  obtain ⟨order, read, ordered⟩ := List.perm_comp_forall₂ rearranged held
  simp only [readOutputChunks, selected, sorting]
  rw [mapM_read dateParse read]
  change (if contiguous (order.insertionSort _) = true then _ else _) = _
  rw [follows.sorted ordered, follows.contiguous]
  rfl

end OpencodePty.OutputJournal
