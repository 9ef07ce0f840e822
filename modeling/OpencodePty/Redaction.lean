import Mathlib.Algebra.GroupWithZero.Nat
import Mathlib.Data.List.Range
import OpencodePty.Substitution

/-!
# Streaming redaction of worker output

The worker replaces every configured secret in the output of its child by a marker
before the output is kept. The output arrives in chunks, so a secret can lie across
a chunk boundary: `redactStream` withholds an end of what it has read as a tail and
redacts only the part before it. The last call flushes the tail.

Texts are lists of characters, so the byte offsets of the source, which only cut at
character boundaries, are character positions here. The reader loop is taken from the
point where its bytes are decoded.
-/

namespace OpencodePty.Redaction

open OpencodePty.Substitution

/-- The text that stands for a redacted secret. -/
def marker : List Char := "[REDACTED]".toList

/-- The UTF-8 length of a text in bytes. -/
def byteLength (text : List Char) : Nat := (text.map Char.utf8Size).sum

/-- Replace the secrets of at least four bytes one after the other. -/
def redact (data : List Char) (secrets : List (List Char)) : List Char :=
  secrets.foldl
    (fun data secret => if byteLength secret ≥ 4 then replaceAll secret marker data else data)
    data

/-- Whether a text is a proper start, of at least four characters, of a secret. -/
def startsSecret (characters secret : List Char) : Bool :=
  characters.length ≥ 4 && characters.length < secret.length &&
    characters == secret.take characters.length

/-- The remaining tail is hidden as a whole when it starts a secret. -/
def redactTail (tail : List Char) (secrets : List (List Char)) : List Char :=
  if secrets.any (startsSecret tail) then marker else redact tail secrets

/-- One less than the longest secret, the number of characters that are held back. -/
def hold (secrets : List (List Char)) : Nat :=
  (secrets.map fun secret => secret.length - 1).foldl max 0

/-- Whether the text from a position on agrees with a secret as far as both go. -/
def agrees (characters secret : List Char) (start : Nat) : Bool :=
  (characters.drop start).take (min (characters.length - start) secret.length) ==
    secret.take (min (characters.length - start) secret.length)

/-- Whether a whole secret stands at a position. -/
def occursAt (characters secret : List Char) (start : Nat) : Bool :=
  (characters.drop start).take secret.length == secret

/-- One step of the scan: a secret that starts here and ends after the split moves the
split to its start. -/
def scanStart (characters secret : List Char) (split start : Nat) : Nat :=
  if start + secret.length > split && agrees characters secret start then start else split

/-- The split of a call that is not the last one. -/
def streamSplit (characters : List Char) (secrets : List (List Char)) (initialSplit : Nat) :
    Nat :=
  secrets.foldl
    (fun split secret => (List.range initialSplit).foldl (scanStart characters secret) split)
    initialSplit

/-- Whether a position lies within a whole occurrence of the secret. -/
def overlapsFullSecret (characters secret : List Char) (start : Nat) : Bool :=
  characters.length ≥ secret.length &&
    (List.range (characters.length - secret.length + 1)).any fun fullStart =>
      fullStart ≤ start && start < fullStart + secret.length &&
        occursAt characters secret fullStart

/-- One step of the final scan: the text from here on starts a secret and is not part of
a whole one. -/
def finishStart (characters secret : List Char) (split start : Nat) : Nat :=
  if startsSecret (characters.drop start) secret &&
      !overlapsFullSecret characters secret start then min split start else split

/-- The split of the last call. -/
def finishSplit (characters : List Char) (secrets : List (List Char)) : Nat :=
  secrets.foldl
    (fun split secret =>
      (List.range characters.length).foldl (finishStart characters secret) split)
    characters.length

/-- One call of the stream: the redacted output and the new tail. -/
def redactStream (data tail : List Char) (secrets : List (List Char)) (finish : Bool) :
    List Char × List Char :=
  let combined := tail ++ data
  if finish then
    let split := finishSplit combined secrets
    (redact (combined.take split) secrets ++ redactTail (combined.drop split) secrets, [])
  else
    let split := streamSplit combined secrets (combined.length - hold secrets)
    (redact (combined.take split) secrets, combined.drop split)

/-- What the reader emits from a given tail on: one call for each chunk, and a last one
for what the decoder still carries at the end of the stream. -/
def reader (secrets : List (List Char)) : List Char → List (List Char) → List Char → List Char
  | tail, [], carry => (redactStream carry tail secrets true).1
  | tail, chunk :: chunks, carry =>
    let call := redactStream chunk tail secrets false
    call.1 ++ reader secrets call.2 chunks carry

/-! ## Whole secrets are hidden -/

/-- The marker has a character. -/
theorem marker_nonempty : marker ≠ [] := by decide

/-- A secret that the claim is about: long enough and apart from the marker. -/
structure Hidden (secret : List Char) : Prop where
  long : 4 ≤ secret.length
  foreign : Foreign marker secret

/-- A secret that is hidden has a character. -/
theorem Hidden.proper {secret : List Char} (hidden : Hidden secret) : secret ≠ [] := by
  intro empty
  have long : 4 ≤ secret.length := hidden.long
  simp [empty] at long

/-- A text has no more characters than bytes. -/
theorem length_le_byteLength (text : List Char) : text.length ≤ byteLength text := by
  induction text with
  | nil => exact Nat.zero_le _
  | cons character rest inductionHypothesis =>
    have positive : 0 < character.utf8Size := Char.utf8Size_pos character
    simp only [byteLength, List.map_cons, List.sum_cons, List.length_cons] at *
    omega

/-- Redaction replaces every secret that is long enough, one after the other. -/
theorem redact_cons {secret : List Char} (hidden : Hidden secret) (data : List Char)
    (secrets : List (List Char)) :
    redact data (secret :: secrets) = redact (replaceAll secret marker data) secrets := by
  have long : byteLength secret ≥ 4 := Nat.le_trans hidden.long (length_le_byteLength secret)
  simp only [redact, List.foldl_cons, if_pos long]

variable {secrets : List (List Char)}

/-- What `redact` returns is the text with substrings replaced by the marker. -/
theorem redact_covered (hidden : ∀ secret ∈ secrets, Hidden secret) {text shown : List Char}
    (covered : Covered marker text shown) : Covered marker text (redact shown secrets) := by
  induction secrets generalizing shown with
  | nil => exact covered
  | cons secret secrets inductionHypothesis =>
    have first : Hidden secret := hidden secret List.mem_cons_self
    have others : ∀ other ∈ secrets, Hidden other := fun other member =>
      hidden other (List.mem_cons_of_mem secret member)
    rw [redact_cons first]
    exact inductionHypothesis others
      (covered.replaceAll marker_nonempty first.foreign first.proper)

/-- No secret is left in a text that was redacted as a whole. -/
theorem redact_absent (hidden : ∀ secret ∈ secrets, Hidden secret) (text : List Char) :
    ∀ secret ∈ secrets, ¬ secret <:+: redact text secrets := by
  induction secrets generalizing text with
  | nil =>
    intro secret member
    simp at member
  | cons first secrets inductionHypothesis =>
    have firstHidden : Hidden first := hidden first List.mem_cons_self
    have others : ∀ other ∈ secrets, Hidden other := fun other member =>
      hidden other (List.mem_cons_of_mem first member)
    intro secret member
    rw [redact_cons firstHidden]
    rcases List.mem_cons.mp member with same | later
    · subst same
      intro occurs
      have covered : Covered marker (replaceAll secret marker text)
          (redact (replaceAll secret marker text) secrets) :=
        redact_covered others (.refl _)
      exact replaceAll_absent marker_nonempty firstHidden.foreign firstHidden.proper text
        (covered.infix_of_shown marker_nonempty firstHidden.foreign occurs)
    · exact inductionHypothesis others _ secret later

/-! ## The split of a call -/

/-- A secret and a position at which it may stand. -/
abbrev Place := List Char × Nat

/-- The position after the last character of a place. -/
def Place.stop (place : Place) : Nat := place.2 + place.1.length

/-- The places in the order in which the scan visits them. -/
def scanOrder (secrets : List (List Char)) (initialSplit : Nat) : List Place :=
  secrets.flatMap fun secret => (List.range initialSplit).map fun start => (secret, start)

/-- The scan at a place. -/
def scanPlace (characters : List Char) (split : Nat) (place : Place) : Nat :=
  scanStart characters place.1 split place.2

/-- Each secret is looked for at each place before the split. -/
theorem mem_scanOrder {initialSplit : Nat} {place : Place} :
    place ∈ scanOrder secrets initialSplit ↔ place.1 ∈ secrets ∧ place.2 < initialSplit := by
  obtain ⟨secret, start⟩ := place
  simp [scanOrder]

/-- The split is found by one pass over the places. -/
theorem streamSplit_eq (characters : List Char) (initialSplit : Nat) :
    streamSplit characters secrets initialSplit =
      (scanOrder secrets initialSplit).foldl (scanPlace characters) initialSplit := by
  simp only [streamSplit, scanOrder, List.foldl_flatMap, List.foldl_map]
  rfl

/-- The scan leaves the split alone when no place that agrees ends after it. Otherwise
the split is the start of such a place, and no place visited afterwards ends after it. -/
theorem scan_last (characters : List Char) (initialSplit : Nat) (places : List Place) :
    (places.foldl (scanPlace characters) initialSplit = initialSplit ∧
      ∀ place ∈ places, agrees characters place.1 place.2 = true →
        place.stop ≤ initialSplit) ∨
    ∃ before last after, places = before ++ last :: after ∧
      agrees characters last.1 last.2 = true ∧
      places.foldl (scanPlace characters) initialSplit = last.2 ∧
      ∀ place ∈ after, agrees characters place.1 place.2 = true → place.stop ≤ last.2 := by
  induction places using List.reverseRecOn with
  | nil => exact .inl ⟨rfl, by simp⟩
  | append_singleton places place inductionHypothesis =>
    rw [List.foldl_append, List.foldl_cons, List.foldl_nil]
    by_cases moved : place.stop > places.foldl (scanPlace characters) initialSplit ∧
        agrees characters place.1 place.2 = true
    · refine .inr ⟨places, place, [], rfl, moved.2, ?_, by simp⟩
      have crosses : place.2 + place.1.length >
          places.foldl (scanPlace characters) initialSplit := moved.1
      simp [scanPlace, scanStart, crosses, moved.2]
    · have kept : scanPlace characters (places.foldl (scanPlace characters) initialSplit) place =
          places.foldl (scanPlace characters) initialSplit := by
        have unmoved : ¬ (place.2 + place.1.length >
            places.foldl (scanPlace characters) initialSplit ∧
            agrees characters place.1 place.2 = true) := moved
        simp only [scanPlace, scanStart, Bool.and_eq_true, decide_eq_true_eq, if_neg unmoved]
      have within (agreed : agrees characters place.1 place.2 = true) :
          place.stop ≤ places.foldl (scanPlace characters) initialSplit := by
        by_contra crosses
        exact moved ⟨Nat.lt_of_not_le crosses, agreed⟩
      rw [kept]
      rcases inductionHypothesis with ⟨same, others⟩ | ⟨before, last, after, rfl, found, same, rest⟩
      · refine .inl ⟨same, ?_⟩
        intro other member agreed
        rcases List.mem_append.mp member with earlier | final
        · exact others other earlier agreed
        · rw [List.mem_singleton] at final
          subst final
          rw [← same]
          exact within agreed
      · refine .inr ⟨before, last, after ++ [place], by simp, found, same, ?_⟩
        intro other member agreed
        rcases List.mem_append.mp member with earlier | final
        · exact rest other earlier agreed
        · rw [List.mem_singleton] at final
          subst final
          rw [← same]
          exact within agreed

/-- Every position that the scan moved the split over lies inside a place that agrees. -/
theorem scan_inside (characters : List Char) (initialSplit : Nat) (places : List Place) :
    ∀ position, places.foldl (scanPlace characters) initialSplit < position →
      position ≤ initialSplit →
      ∃ place ∈ places, agrees characters place.1 place.2 = true ∧
        place.2 < position ∧ position < place.stop := by
  induction places using List.reverseRecOn with
  | nil =>
    intro position after before
    simp only [List.foldl_nil] at after
    omega
  | append_singleton places place inductionHypothesis =>
    intro position after before
    rw [List.foldl_append, List.foldl_cons, List.foldl_nil] at after
    by_cases beyond : places.foldl (scanPlace characters) initialSplit < position
    · obtain ⟨other, member, found⟩ := inductionHypothesis position beyond before
      exact ⟨other, by simp [member], found⟩
    · simp only [scanPlace, scanStart, Bool.and_eq_true, decide_eq_true_eq] at after beyond
      split at after
      next moved =>
        refine ⟨place, by simp, moved.2, after, ?_⟩
        have crosses := moved.1
        simp only [Place.stop]
        omega
      next => exact absurd after beyond

/-- A whole occurrence at a place. -/
def Place.Occurs (characters : List Char) (place : Place) : Prop :=
  occursAt characters place.1 place.2 = true

instance (characters : List Char) (place : Place) : Decidable (place.Occurs characters) :=
  inferInstanceAs (Decidable (_ = true))

/-- A secret occurs at a place where the text from there begins with it. -/
theorem occurs_iff {characters : List Char} {place : Place} :
    place.Occurs characters ↔ place.1 <+: characters.drop place.2 := by
  simp only [Place.Occurs, occursAt, beq_iff_eq]
  exact (List.prefix_iff_eq_take.trans eq_comm).symm

/-- The hold has room for all of a secret but one character. -/
theorem length_le_hold {secret : List Char} (member : secret ∈ secrets) :
    secret.length - 1 ≤ hold secrets := by
  have bound (values : List Nat) (start : Nat) :
      start ≤ values.foldl max start ∧ ∀ value ∈ values, value ≤ values.foldl max start := by
    induction values generalizing start with
    | nil => simp
    | cons first values inductionHypothesis =>
      obtain ⟨above, others⟩ := inductionHypothesis (max start first)
      simp only [List.foldl_cons, List.mem_cons]
      refine ⟨by omega, ?_⟩
      rintro value (rfl | later)
      · omega
      · exact others value later
  exact (bound _ 0).2 _ (List.mem_map.mpr ⟨secret, member, rfl⟩)

/-- The scan only visits places at which the whole secret fits, so that a place that
agrees is an occurrence. -/
theorem agrees_iff {characters : List Char} {place : Place}
    (visited : place ∈ scanOrder secrets (characters.length - hold secrets)) :
    agrees characters place.1 place.2 = true ↔ place.Occurs characters := by
  obtain ⟨member, before⟩ := mem_scanOrder.mp visited
  have held : place.1.length - 1 ≤ hold secrets := length_le_hold member
  have fits : min (characters.length - place.2) place.1.length = place.1.length := by omega
  simp only [agrees, Place.Occurs, occursAt, fits, List.take_length]

/-- Where an occurrence starts inside another one that the scan visits before it, and
the text from there to the end of what may be emitted lies inside occurrences, the one
that starts later does not end later. -/
def Nested (secrets : List (List Char)) (characters : List Char) : Prop :=
  (scanOrder secrets (characters.length - hold secrets)).Pairwise fun earlier later =>
    earlier.Occurs characters → later.Occurs characters →
    earlier.2 < later.2 → later.2 < earlier.stop →
    (∀ position ∈ List.range (characters.length - hold secrets + 1), later.2 ≤ position →
      ∃ place ∈ scanOrder secrets (characters.length - hold secrets),
        place.Occurs characters ∧ place.2 < position ∧ position < place.stop) →
    later.stop ≤ earlier.stop

instance (characters : List Char) : Decidable (Nested secrets characters) :=
  inferInstanceAs (Decidable (List.Pairwise _ _))

/-- The split of a call that is not the last one. -/
def callSplit (secrets : List (List Char)) (combined : List Char) : Nat :=
  streamSplit combined secrets (combined.length - hold secrets)

/-- The split leaves the hold to the tail. -/
theorem callSplit_le (secrets : List (List Char)) (combined : List Char) :
    callSplit secrets combined ≤ combined.length - hold secrets := by
  rw [callSplit, streamSplit_eq]
  rcases scan_last combined (combined.length - hold secrets)
    (scanOrder secrets (combined.length - hold secrets)) with
    ⟨same, _⟩ | ⟨before, last, after, order, _, same, _⟩
  · omega
  · have visited : last ∈ scanOrder secrets (combined.length - hold secrets) := by
      simp [order]
    have bound := (mem_scanOrder.mp visited).2
    omega

/-- A secret that the split cuts contains another one from the split on, where the
condition on overlapping occurrences is met. -/
theorem split_crossed {combined : List Char} (nested : Nested secrets combined)
    {cut : Place} (member : cut.1 ∈ secrets) (occurs : cut.Occurs combined)
    (starts : cut.2 < callSplit secrets combined) (ends : callSplit secrets combined < cut.stop) :
    ∃ secret ∈ secrets, secret <+: combined.drop (callSplit secrets combined) ∧
      callSplit secrets combined + secret.length ≤ cut.stop := by
  have limit := callSplit_le secrets combined
  have visited : cut ∈ scanOrder secrets (combined.length - hold secrets) :=
    mem_scanOrder.mpr ⟨member, by omega⟩
  have agreed : agrees combined cut.1 cut.2 = true := (agrees_iff visited).mpr occurs
  have inside := scan_inside combined (combined.length - hold secrets)
    (scanOrder secrets (combined.length - hold secrets))
  rcases scan_last combined (combined.length - hold secrets)
    (scanOrder secrets (combined.length - hold secrets)) with
    ⟨same, none⟩ | ⟨before, last, after, order, found, same, rest⟩
  · have final := none cut visited agreed
    rw [callSplit, streamSplit_eq, same] at ends
    omega
  · rw [← streamSplit_eq] at same inside
    change callSplit secrets combined = last.2 at same
    change ∀ position, callSplit secrets combined < position → _ at inside
    have lastVisited : last ∈ scanOrder secrets (combined.length - hold secrets) := by
      simp [order]
    have lastOccurs : last.Occurs combined := (agrees_iff lastVisited).mp found
    refine ⟨last.1, (mem_scanOrder.mp lastVisited).1, ?_, ?_⟩
    · rw [same]
      exact occurs_iff.mp lastOccurs
    · have earlier : cut ∈ before := by
        rcases List.mem_append.mp (order ▸ visited) with first | later
        · exact first
        · rcases List.mem_cons.mp later with rfl | behind
          · omega
          · have final := rest cut behind agreed
            omega
      have crossing : ∀ position ∈ List.range (combined.length - hold secrets + 1),
          last.2 ≤ position →
          ∃ place ∈ scanOrder secrets (combined.length - hold secrets),
            place.Occurs combined ∧ place.2 < position ∧ position < place.stop := by
        intro position bound above
        rw [List.mem_range] at bound
        by_cases first : position = last.2
        · exact ⟨cut, visited, occurs, by omega, by omega⟩
        · obtain ⟨place, placeVisited, placeAgreed, rest⟩ :=
            inside position (by omega) (by omega)
          exact ⟨place, placeVisited, (agrees_iff placeVisited).mp placeAgreed, rest⟩
      have pair := nested
      rw [Nested, order, List.pairwise_append] at pair
      rw [← order] at pair
      have shorter := pair.2.2 cut earlier last List.mem_cons_self occurs lastOccurs
        (by omega) (by omega) crossing
      rw [same]
      exact shorter

/-! ## The last call -/

/-- The last call keeps the whole text together, unless its end starts a secret. -/
theorem finishSplit_cases (characters : List Char) (secrets : List (List Char)) :
    finishSplit characters secrets = characters.length ∨
    ∃ secret ∈ secrets,
      startsSecret (characters.drop (finishSplit characters secrets)) secret = true := by
  have inner (secret : List Char) (starts : List Nat) (split : Nat) :
      starts.foldl (finishStart characters secret) split = split ∨
      startsSecret (characters.drop (starts.foldl (finishStart characters secret) split))
        secret = true := by
    induction starts using List.reverseRecOn with
    | nil => exact .inl rfl
    | append_singleton starts start inductionHypothesis =>
      rw [List.foldl_append, List.foldl_cons, List.foldl_nil]
      generalize starts.foldl (finishStart characters secret) split = current at *
      simp only [finishStart, Bool.and_eq_true]
      split
      next found =>
        rcases Nat.le_total current start with before | after
        · rw [Nat.min_eq_left before]
          exact inductionHypothesis
        · rw [Nat.min_eq_right after]
          exact .inr found.1
      next => exact inductionHypothesis
  unfold finishSplit
  induction secrets using List.reverseRecOn with
  | nil => exact .inl rfl
  | append_singleton secrets secret inductionHypothesis =>
    rw [List.foldl_append, List.foldl_cons, List.foldl_nil]
    rcases inner secret (List.range characters.length)
      (secrets.foldl (fun split secret =>
        (List.range characters.length).foldl (finishStart characters secret) split)
        characters.length) with same | found
    · rw [same]
      rcases inductionHypothesis with whole | ⟨other, member, found⟩
      · exact .inl whole
      · exact .inr ⟨other, by simp [member], found⟩
    · exact .inr ⟨secret, by simp, found⟩

/-- Without text nothing is redacted. -/
theorem redact_nil (hidden : ∀ secret ∈ secrets, Hidden secret) : redact [] secrets = [] := by
  induction secrets with
  | nil => rfl
  | cons secret secrets inductionHypothesis =>
    rw [redact_cons (hidden secret List.mem_cons_self)]
    exact inductionHypothesis fun other member =>
      hidden other (List.mem_cons_of_mem secret member)

/-- The last call redacts everything, or everything up to a start of a secret, which it
hides as a whole. -/
theorem finish_output (hidden : ∀ secret ∈ secrets, Hidden secret) (carry tail : List Char) :
    (redactStream carry tail secrets true).1 = redact (tail ++ carry) secrets ∨
    ∃ split, (redactStream carry tail secrets true).1 =
      redact ((tail ++ carry).take split) secrets ++ marker := by
  simp only [redactStream, if_true]
  rcases finishSplit_cases (tail ++ carry) secrets with whole | ⟨secret, member, found⟩
  · refine .inl ?_
    have short : secrets.any (startsSecret []) = false := by simp [startsSecret]
    rw [whole, List.take_length, List.drop_length, redactTail, short]
    simp [redact_nil hidden]
  · refine .inr ⟨finishSplit (tail ++ carry) secrets, ?_⟩
    have starts : secrets.any
        (startsSecret ((tail ++ carry).drop (finishSplit (tail ++ carry) secrets))) = true :=
      List.any_eq_true.mpr ⟨secret, member, found⟩
    rw [redactTail, starts]
    rfl

/-- At the end no secret is left in what is shown. -/
theorem finish_absent (hidden : ∀ secret ∈ secrets, Hidden secret) (carry tail : List Char) :
    ∀ secret ∈ secrets, ¬ secret <:+: (redactStream carry tail secrets true).1 := by
  intro secret member occurs
  have known : Hidden secret := hidden secret member
  rcases finish_output hidden carry tail with whole | ⟨split, shown⟩
  · rw [whole] at occurs
    exact redact_absent hidden _ secret member occurs
  · rw [shown] at occurs
    exact redact_absent hidden _ secret member
      (infix_before_marker known.foreign known.proper occurs)

/-- At the end all that is shown is text or stands for a secret. -/
theorem finish_covered (hidden : ∀ secret ∈ secrets, Hidden secret) (carry tail : List Char) :
    Covered marker (tail ++ carry) (redactStream carry tail secrets true).1 := by
  rcases finish_output hidden carry tail with whole | ⟨split, shown⟩
  · rw [whole]
    exact redact_covered hidden (.refl _)
  · rw [shown]
    have last : Covered marker ((tail ++ carry).drop split) marker := by
      have final : Covered marker ((tail ++ carry).drop split ++ []) (marker ++ []) :=
        .hide _ .nil
      simpa only [List.append_nil] using final
    have all := (redact_covered hidden (.refl ((tail ++ carry).take split))).append last
    rwa [List.take_append_drop] at all

/-! ## Whole streams -/

/-- Each call of the stream that is not the last one meets the condition on overlapping
occurrences, for the tail it finds and the chunk it reads. -/
def Orderly (secrets : List (List Char)) : List Char → List (List Char) → Prop
  | _, [] => True
  | tail, chunk :: chunks =>
    Nested secrets (tail ++ chunk) ∧
      Orderly secrets (redactStream chunk tail secrets false).2 chunks

instance decidableOrderly (secrets : List (List Char)) :
    (tail : List Char) → (chunks : List (List Char)) → Decidable (Orderly secrets tail chunks)
  | _, [] => inferInstanceAs (Decidable True)
  | tail, chunk :: chunks =>
    have := decidableOrderly secrets (redactStream chunk tail secrets false).2 chunks
    inferInstanceAs (Decidable (Nested secrets (tail ++ chunk) ∧ _))

/-- A call shows what stands before the split. -/
theorem redactStream_shown (chunk tail : List Char) :
    (redactStream chunk tail secrets false).1 =
      redact ((tail ++ chunk).take (callSplit secrets (tail ++ chunk))) secrets := rfl

/-- A call keeps what stands behind the split. -/
theorem redactStream_tail (chunk tail : List Char) :
    (redactStream chunk tail secrets false).2 =
      (tail ++ chunk).drop (callSplit secrets (tail ++ chunk)) := rfl

/-- The stream shows the text it read, with substrings replaced by the marker. -/
theorem reader_covered (hidden : ∀ secret ∈ secrets, Hidden secret) (tail : List Char)
    (chunks : List (List Char)) (carry : List Char) :
    Covered marker (tail ++ (chunks.flatten ++ carry)) (reader secrets tail chunks carry) := by
  induction chunks generalizing tail with
  | nil => exact finish_covered hidden carry tail
  | cons chunk chunks inductionHypothesis =>
    have first := redact_covered hidden
      (.refl ((tail ++ chunk).take (callSplit secrets (tail ++ chunk))))
    have rest := inductionHypothesis (redactStream chunk tail secrets false).2
    rw [redactStream_tail] at rest
    have all := first.append rest
    rw [← List.append_assoc, List.take_append_drop] at all
    simpa [reader, redactStream_shown, redactStream_tail] using all

/-- A foreign text at the end of what is shown stands at the end of the text. -/
theorem covered_ends {text before pattern : List Char} (foreign : Foreign marker pattern)
    (proper : pattern ≠ []) (covered : Covered marker text (before ++ pattern)) :
    pattern <:+ text := by
  have whole : Covered marker text (before ++ (pattern ++ [])) := by simpa using covered
  obtain ⟨first, second, rfl, _, nothing⟩ := whole.occurrence marker_nonempty foreign proper
  generalize shown : ([] : List Char) = rest at nothing
  cases nothing with
  | nil => exact ⟨first, by simp⟩
  | keep symbol _ => simp at shown
  | hide hidden _ => exact absurd (List.append_eq_nil_iff.mp shown.symm).1 marker_nonempty

/-- A text across a split stands in the text, where enough of it is left behind the split. -/
theorem crossing_occurs {combined first second following : List Char} {split : Nat}
    (within : split ≤ combined.length) (room : second.length ≤ combined.length - split)
    (ends : first <:+ combined.take split) (starts : second <+: combined.drop split ++ following) :
    ∃ start, start + first.length = split ∧ Place.Occurs combined (first ++ second, start) := by
  obtain ⟨before, shown⟩ := ends
  have length := congrArg List.length shown
  rw [List.length_append, List.length_take, Nat.min_eq_left within] at length
  have inside : second <+: combined.drop split := by
    refine List.prefix_of_prefix_length_le starts (List.prefix_append _ _) ?_
    rwa [List.length_drop]
  have position : combined.drop before.length = first ++ combined.drop split := by
    have whole : before ++ (first ++ combined.drop split) = combined := by
      rw [← List.append_assoc, shown, List.take_append_drop]
    calc combined.drop before.length
        = (before ++ (first ++ combined.drop split)).drop before.length := by rw [whole]
      _ = first ++ combined.drop split := List.drop_left
  refine ⟨before.length, length, ?_⟩
  rw [occurs_iff, position, List.prefix_append_right_inj]
  exact inside

/-- A secret that ends what one call emits and goes on in the text after it contains
another secret from the split on. -/
theorem crossing_contains {combined first second following : List Char}
    (nested : Nested secrets combined) (member : first ++ second ∈ secrets)
    (left : first ≠ []) (right : second ≠ [])
    (ends : first <:+ combined.take (callSplit secrets combined))
    (starts : second <+: combined.drop (callSplit secrets combined) ++ following) :
    ∃ secret ∈ secrets, secret <+: second := by
  have limit := callSplit_le secrets combined
  have held := length_le_hold member
  have leftLength : 0 < first.length := List.length_pos_of_ne_nil left
  have rightLength : 0 < second.length := List.length_pos_of_ne_nil right
  have shorter := ends.length_le
  rw [List.length_append] at held
  rw [List.length_take] at shorter
  -- What is held back is long enough for the rest of the secret.
  have room : second.length ≤ combined.length - callSplit secrets combined := by omega
  obtain ⟨start, before, occurs⟩ := crossing_occurs (by omega) room ends starts
  have stop : Place.stop (first ++ second, start) = start + first.length + second.length := by
    simp only [Place.stop, List.length_append]
    omega
  obtain ⟨secret, known, found, shorter⟩ :=
    split_crossed nested member occurs (by simp only; omega) (by omega)
  have inside : second <+: combined.drop (callSplit secrets combined) := by
    refine List.prefix_of_prefix_length_le starts (List.prefix_append _ _) ?_
    rwa [List.length_drop]
  refine ⟨secret, known, List.prefix_of_prefix_length_le found inside ?_⟩
  omega

/-- In a stream whose calls all meet the condition no secret is shown, whichever chunks
the text came in. A secret across the output of one call and that of the later ones
would be an occurrence that the split cuts; the later calls would then show another
secret from the split on. -/
theorem reader_absent (hidden : ∀ secret ∈ secrets, Hidden secret) (tail : List Char)
    (chunks : List (List Char)) (carry : List Char) (orderly : Orderly secrets tail chunks) :
    ∀ secret ∈ secrets, ¬ secret <:+: reader secrets tail chunks carry := by
  induction chunks generalizing tail with
  | nil => exact finish_absent hidden carry tail
  | cons chunk chunks inductionHypothesis =>
    obtain ⟨nested, remaining⟩ := orderly
    have later := inductionHypothesis _ remaining
    intro secret member occurs
    have known : Hidden secret := hidden secret member
    simp only [reader] at occurs
    rcases List.infix_append_iff.mp occurs with
      inside | behind | ⟨first, second, rfl, ends, starts⟩
    · exact redact_absent hidden _ secret member inside
    · exact later secret member behind
    · by_cases left : first = []
      · subst left
        exact later second member starts.isInfix
      by_cases right : second = []
      · subst right
        simp only [List.append_nil] at member
        exact redact_absent hidden _ first member ends.isInfix
      have firstForeign : Foreign marker first := fun symbol inside =>
        known.foreign symbol (List.mem_append_left second inside)
      have secondForeign : Foreign marker second := fun symbol inside =>
        known.foreign symbol (List.mem_append_right first inside)
      obtain ⟨before, shown⟩ := ends
      have emitted := redact_covered hidden
        (.refl ((tail ++ chunk).take (callSplit secrets (tail ++ chunk))))
      rw [← redactStream_shown, ← shown] at emitted
      obtain ⟨rest, continued⟩ := starts
      have following := reader_covered hidden (redactStream chunk tail secrets false).2 chunks carry
      rw [← continued, redactStream_tail] at following
      obtain ⟨remainder, same, _⟩ := following.starts marker_nonempty secondForeign
      obtain ⟨other, otherMember, contained⟩ := crossing_contains nested member left right
        (covered_ends firstForeign left emitted) ⟨remainder, same.symm⟩
      refine later other otherMember (contained.isInfix.trans ?_)
      exact ⟨[], rest, by simpa using continued⟩

/-- Streaming redaction from an empty tail shows no secret when every call that is not
the last one meets the condition on overlapping occurrences. -/
theorem stream_never_leaks (secrets chunks : List (List Char)) (carry : List Char)
    (hidden : ∀ secret ∈ secrets, 4 ≤ secret.length ∧ Foreign marker secret)
    (orderly : Orderly secrets [] chunks) :
    ∀ secret ∈ secrets, ¬ secret <:+: reader secrets [] chunks carry :=
  reader_absent (fun secret member => ⟨(hidden secret member).1, (hidden secret member).2⟩)
    [] chunks carry orderly

/-- A secret cut by a chunk boundary is not shown. -/
theorem stream_never_leaks_across_chunks :
    ¬ "p4ss".toList <:+: reader ["p4ss".toList, "x4ss".toList] []
      ["my p4".toList, "ss ".toList] "p4s".toList :=
  stream_never_leaks ["p4ss".toList, "x4ss".toList] ["my p4".toList, "ss ".toList] "p4s".toList
    (by decide) (by decide) "p4ss".toList (by decide)

/-- A secret that overlaps itself is shown: the scan of the first call moves the split to
the right again, over an occurrence it had moved the split to the start of, and the scan
of the second call does the same. -/
theorem stream_leaks_overlapping_secret :
    (∀ secret ∈ ["aaaa".toList], 4 ≤ secret.length ∧ Foreign marker secret) ∧
    reader ["aaaa".toList] [] ["aaaaaa".toList, "aaa".toList] [] =
      "aaaaa[REDACTED]".toList ∧
    ¬ ∀ secret ∈ ["aaaa".toList],
      ¬ secret <:+: reader ["aaaa".toList] [] ["aaaaaa".toList, "aaa".toList] [] := by
  refine ⟨by decide, by decide, ?_⟩
  intro absent
  exact absent "aaaa".toList (by decide) (by decide)

end OpencodePty.Redaction
