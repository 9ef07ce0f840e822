import Mathlib.Data.Nat.Find
import OpencodePty.DaemonRedaction
import OpencodePty.WholeRedaction

/-!
# The two redactors

The daemon and the worker redact streams by the same algorithm. They differ in what they count: the
worker redacts secrets of at least four bytes and holds back as many characters as the longest secret
has behind its first one, and the daemon counts code units for both. Where every secret passes both
tests or none, a text in one call is redacted alike. A text in chunks is too, where the same number of
characters is held back, or where no occurrences of secrets can overlap, so that it does not matter how
many are.
-/

namespace OpencodePty.RedactorTwins

open OpencodePty.JsValues OpencodePty.TextEncodings OpencodePty.Substitution OpencodePty.Redaction
open OpencodePty.TerminalRedaction OpencodePty.WholeRedaction

/-- Secrets that are long enough in bytes are so in code units. -/
def UnitsAlike (secrets : List (List Char)) : Prop :=
  ∀ secret ∈ secrets, Redaction.byteLength secret ≥ 4 → (encode secret).length ≥ 4

/-- What the daemon redacts of an encoded text. -/
def redactUnits (data : List Char) (secrets : List (List Char)) : List Char :=
  secrets.foldl
    (fun data secret => if (encode secret).length ≥ 4 then replaceAll secret marker data else data)
    data

/-- A call of the worker that is not the last one and holds back a given number of characters. -/
def heldStream (held : Nat) (data tail : List Char) (secrets : List (List Char)) :
    List Char × List Char :=
  let combined := tail ++ data
  let split := streamSplit combined secrets (combined.length - held)
  (redact (combined.take split) secrets, combined.drop split)

/-- The reader of the worker with a hold of any length. -/
def heldReader (held : Nat) (secrets : List (List Char)) :
    List Char → List (List Char) → List Char → List Char
  | tail, [], carry => (redactStream carry tail secrets true).1
  | tail, chunk :: chunks, carry =>
    let call := heldStream held chunk tail secrets
    call.1 ++ heldReader held secrets call.2 chunks carry

variable {secrets : List (List Char)}

/-- With its own hold it is the reader of the worker. -/
theorem heldReader_hold (tail : List Char) (chunks : List (List Char)) (carry : List Char) :
    heldReader (hold secrets) secrets tail chunks carry = reader secrets tail chunks carry := by
  induction chunks generalizing tail with
  | nil => rfl
  | cons chunk chunks inductionHypothesis =>
    exact congrArg (_ ++ ·) (inductionHypothesis _)

/-! ## The daemon on encoded texts -/

/-- The daemon redacts units as the text over units is redacted. -/
theorem redact_encode (text : List Char) :
    DaemonRedaction.redact (encode text) (secrets.map encode) = encode (redactUnits text secrets) := by
  induction secrets generalizing text with
  | nil => rfl
  | cons secret secrets inductionHypothesis =>
    rw [List.map_cons, DaemonRedaction.redact, List.foldl_cons, ← DaemonRedaction.redact,
      redactUnits, List.foldl_cons, ← redactUnits, ← inductionHypothesis]
    split
    next long =>
      have proper : secret ≠ [] := by
        rintro rfl
        exact absurd long (by decide)
      rw [← DaemonRedaction.replaceAll_encode proper]
      rfl
    next => rfl

/-- A text has at least a unit and at most a byte for each. -/
theorem length_encode (text : List Char) :
    text.length ≤ (encode text).length ∧ (encode text).length ≤ Redaction.byteLength text :=
  ⟨length_le_encode text,
    (TextEncodings.length_le_byteLength _).trans (Nat.le_of_eq (byteLength_encode text))⟩

/-- Alike texts are redacted alike, by units and by characters. -/
theorem redactUnits_eq (alike : UnitsAlike secrets) (data : List Char) :
    redactUnits data secrets = redact data secrets := by
  induction secrets generalizing data with
  | nil => rfl
  | cons secret secrets inductionHypothesis =>
    have others := inductionHypothesis fun other member =>
      alike other (List.mem_cons_of_mem secret member)
    have same : (encode secret).length ≥ 4 ↔ Redaction.byteLength secret ≥ 4 :=
      ⟨fun long => long.trans (length_encode secret).2, alike secret List.mem_cons_self⟩
    rw [redactUnits, List.foldl_cons, ← redactUnits, others, redact, redact, List.foldl_cons]
    simp only [same]

/-- Nothing is redacted of an empty text, whichever secrets are long enough. -/
theorem redacted_empty (long : List Char → Prop) [DecidablePred long] :
    secrets.foldl (fun data secret => if long secret then replaceAll secret marker data else data)
      [] = [] := by
  induction secrets with
  | nil => rfl
  | cons secret secrets inductionHypothesis =>
    have first : (if long secret then replaceAll secret marker [] else []) = [] := by
      split <;> rfl
    rw [List.foldl_cons, first, inductionHypothesis]

/-- One call of the daemon is one call with its hold. -/
theorem call_encode (data tail : List Char) (alike : UnitsAlike secrets) :
    DaemonRedaction.redactStream (encode data) (encode tail) (secrets.map encode) false =
      (encode (heldStream (DaemonRedaction.hold (secrets.map encode)) data tail secrets).1,
        encode (heldStream (DaemonRedaction.hold (secrets.map encode)) data tail secrets).2) := by
  simp only [DaemonRedaction.redactStream, ← encode_append, DaemonRedaction.arrayFrom_encode,
    DaemonRedaction.streamSplit_map, List.length_map, ← List.map_take, ← List.map_drop,
    ← DaemonRedaction.encode_eq_flatten, redact_encode, redactUnits_eq alike]
  rfl

/-- The last call of the daemon: what it holds back is empty, or it starts a secret. -/
theorem finish_encode (data tail : List Char) :
    (DaemonRedaction.redactStream (encode data) (encode tail) (secrets.map encode) true).1 =
      encode (redactUnits ((tail ++ data).take (finishSplit (tail ++ data) secrets)) secrets ++
        redactTail ((tail ++ data).drop (finishSplit (tail ++ data) secrets)) secrets) := by
  simp only [DaemonRedaction.redactStream, if_true, ← encode_append,
    DaemonRedaction.arrayFrom_encode, DaemonRedaction.finishSplit_map, ← List.map_take,
    ← List.map_drop, ← DaemonRedaction.encode_eq_flatten, redact_encode]
  rw [encode_append]
  congr 1
  rw [DaemonRedaction.redactTail, redactTail]
  obtain whole | ⟨secret, member, partly⟩ := finishSplit_cases (tail ++ data) secrets
  · have short : secrets.any (startsSecret []) = false := by simp [startsSecret]
    rw [whole, List.drop_length, short, redact_encode, redactUnits, redact, redacted_empty,
      redacted_empty]
    simp
  · have starts := List.any_eq_true.mpr ⟨secret, member, partly⟩
    obtain ⟨long, shorter, more, rfl⟩ := startsSecret_iff.mp partly
    have held := (length_encode ((tail ++ data).drop (finishSplit (tail ++ data) secrets))).1
    have further := (length_encode more).1
    have daemon : ((secrets.map encode).any fun secret =>
        (encode ((tail ++ data).drop (finishSplit (tail ++ data) secrets))).length ≥ 4 &&
          (encode ((tail ++ data).drop (finishSplit (tail ++ data) secrets))).length <
            secret.length &&
          (encode ((tail ++ data).drop (finishSplit (tail ++ data) secrets))).isPrefixOf secret) =
        true := by
      refine List.any_eq_true.mpr ⟨_, List.mem_map_of_mem member, ?_⟩
      rw [Bool.and_eq_true, Bool.and_eq_true, decide_eq_true_eq, decide_eq_true_eq,
        List.isPrefixOf_iff_prefix, encode_append, List.length_append]
      rw [List.length_append] at shorter
      exact ⟨⟨by omega, by omega⟩, List.prefix_append _ _⟩
    rw [if_pos starts, if_pos daemon]
    rfl

/-- In runs of the daemon the secrets that are redacted are those of the worker, and only what is held
back differs. -/
theorem capture_encode (alike : UnitsAlike secrets) (tail : List Char) (chunks : List (List Char))
    (carry : List Char) :
    DaemonRedaction.captureWorkerStderr (secrets.map encode) (encode tail) (chunks.map encode)
        (encode carry) =
      encode (heldReader (DaemonRedaction.hold (secrets.map encode)) secrets tail chunks carry) := by
  induction chunks generalizing tail with
  | nil =>
    rw [List.map_nil, DaemonRedaction.captureWorkerStderr, finish_encode, redactUnits_eq alike]
    rfl
  | cons chunk chunks inductionHypothesis =>
    rw [List.map_cons, DaemonRedaction.captureWorkerStderr, call_encode _ _ alike,
      inductionHypothesis, ← encode_append]
    rfl

/-! ## Any number of characters held back -/

section Held

variable {held : Nat}

/-- What the scan visits fits into the text, where enough is held back. -/
theorem agrees_held {characters : List Char} {initialSplit : Nat} {place : Place}
    (enough : initialSplit ≤ characters.length - hold secrets)
    (visited : place ∈ scanOrder secrets initialSplit) :
    agrees characters place.1 place.2 = true ↔ place.Occurs characters := by
  obtain ⟨member, before⟩ := mem_scanOrder.mp visited
  exact agrees_iff (mem_scanOrder.mpr ⟨member, before.trans_le enough⟩)

/-- No occurrence of separate secrets is cut. -/
theorem split_uncrossed (separate : Separate secrets) {characters : List Char} {initialSplit : Nat}
    (enough : initialSplit ≤ characters.length - hold secrets) {cut : Place}
    (member : cut.1 ∈ secrets) (occurs : cut.Occurs characters)
    (starts : cut.2 < streamSplit characters secrets initialSplit) :
    cut.stop ≤ streamSplit characters secrets initialSplit := by
  rw [streamSplit_eq] at starts ⊢
  obtain ⟨same, final⟩ | ⟨before, last, after, order, found, same, _⟩ :=
    scan_last characters initialSplit (scanOrder secrets initialSplit)
  · rw [same] at starts ⊢
    have visited : cut ∈ scanOrder secrets initialSplit := mem_scanOrder.mpr ⟨member, starts⟩
    exact final cut visited ((agrees_held enough visited).mpr occurs)
  · rw [same] at starts ⊢
    have visited : last ∈ scanOrder secrets initialSplit := by simp [order]
    exact separate.disjoint member (mem_scanOrder.mp visited).1 occurs
      ((agrees_held enough visited).mp found) starts

/-- The split only moves to the front. -/
theorem streamSplit_le (characters : List Char) (initialSplit : Nat) :
    streamSplit characters secrets initialSplit ≤ initialSplit := by
  rw [streamSplit_eq]
  obtain ⟨same, _⟩ | ⟨before, last, after, order, _, same, _⟩ :=
    scan_last characters initialSplit (scanOrder secrets initialSplit)
  · exact same.le
  · have visited : last ∈ scanOrder secrets initialSplit := by simp [order]
    rw [same]
    exact (mem_scanOrder.mp visited).2.le

/-- The split of a call that holds back enough is clean, whatever text follows. -/
theorem held_clean (separate : Separate secrets) (enough : hold secrets ≤ held)
    (combined following : List Char) :
    CleanSplit secrets (combined.take (streamSplit combined secrets (combined.length - held)))
      (combined.drop (streamSplit combined secrets (combined.length - held)) ++ following) := by
  have limit : streamSplit combined secrets (combined.length - held) ≤ combined.length - held :=
    streamSplit_le combined (combined.length - held)
  constructor
  · intro first second left right member ends starts
    have kept := length_le_hold member
    have leftLength : 0 < first.length := List.length_pos_of_ne_nil left
    have rightLength : 0 < second.length := List.length_pos_of_ne_nil right
    have shorter := ends.length_le
    rw [List.length_append] at kept
    rw [List.length_take] at shorter
    obtain ⟨start, before, occurs⟩ := crossing_occurs (by omega) (by omega) ends starts
    have room : combined.length - held ≤ combined.length - hold secrets := by omega
    have uncut := split_uncrossed separate room member occurs (by simp only; omega)
    simp only [Place.stop, List.length_append] at uncut
    omega
  · intro ending suffix nonempty secret member
    rw [Bool.eq_false_iff]
    intro partly
    obtain ⟨_, shorter, _⟩ := startsSecret_iff.mp partly
    have kept := length_le_hold member
    have positive : 0 < ending.length := List.length_pos_of_ne_nil nonempty
    have size := suffix.length_le
    simp only [List.length_append, List.length_drop, List.length_take] at shorter size
    omega

/-- However much more is held back, a stream shows its text with the secrets hidden. -/
theorem heldReader_shown (separate : Separate secrets) (enough : hold secrets ≤ held)
    (tail : List Char) (chunks : List (List Char)) (last : List Char) :
    heldReader held secrets tail chunks last =
      hideSecrets secrets (tail ++ (chunks.flatten ++ last)) := by
  induction chunks generalizing tail with
  | nil => exact finish_shown separate last tail
  | cons chunk chunks inductionHypothesis =>
    have split := hideSecrets_append separate
      (held_clean separate enough (tail ++ chunk) (chunks.flatten ++ last))
    rw [← List.append_assoc, List.take_append_drop] at split
    calc heldReader held secrets tail (chunk :: chunks) last
        = (heldStream held chunk tail secrets).1 ++ hideSecrets secrets
            ((heldStream held chunk tail secrets).2 ++ (chunks.flatten ++ last)) :=
          congrArg (_ ++ ·) (inductionHypothesis _)
      _ = hideSecrets secrets (tail ++ chunk ++ (chunks.flatten ++ last)) := split.symm
      _ = hideSecrets secrets (tail ++ ((chunk :: chunks).flatten ++ last)) := by
          rw [List.flatten_cons, List.append_assoc, List.append_assoc]

end Held

/-- The daemon holds back at least as many characters as the worker. -/
theorem hold_le : hold secrets ≤ DaemonRedaction.hold (secrets.map encode) := by
  have steps (least most : Nat) (order : least ≤ most) :
      (secrets.map fun secret => secret.length - 1).foldl max least ≤
        ((secrets.map encode).map fun secret => secret.length - 1).foldl max most := by
    induction secrets generalizing least most with
    | nil => exact order
    | cons secret secrets inductionHypothesis =>
      have longer := (length_encode secret).1
      have further : max least (secret.length - 1) ≤ max most ((encode secret).length - 1) := by
        omega
      exact inductionHypothesis _ _ further
  exact steps 0 0 (Nat.le_refl 0)

/-! ## Secrets that one side does not redact -/

/-- A replacement leaves a text alone, or makes it at least as long as the marker. -/
theorem replaceAll_long {secret : List Char} (proper : secret ≠ []) (data : List Char) :
    replaceAll secret marker data = data ∨
      marker.length ≤ (replaceAll secret marker data).length := by
  induction data with
  | nil => exact .inl rfl
  | cons character rest inductionHypothesis =>
    by_cases found : secret <+: character :: rest
    · obtain ⟨after, same⟩ := found
      rw [← same, replaceAll_occurrence proper, List.length_append]
      exact .inr (Nat.le_add_right _ _)
    · rw [replaceAll_keep found, List.cons.injEq, and_iff_right rfl, List.length_cons]
      exact inductionHypothesis.imp id Nat.le_succ_of_le

/-- A text of the length of the marker is redacted to no less. -/
theorem redact_long {data : List Char} (long : marker.length ≤ data.length) :
    marker.length ≤ (redact data secrets).length := by
  induction secrets generalizing data with
  | nil => exact long
  | cons secret secrets inductionHypothesis =>
    apply inductionHypothesis
    dsimp only
    split
    next counted =>
      have proper : secret ≠ [] := by
        rintro rfl
        exact absurd counted (by decide)
      obtain same | longer := replaceAll_long proper data
      · rwa [same]
      · exact longer
    next => exact long

/-- The worker replaces a secret of at least four bytes, or a part of it before. -/
theorem redact_secret {secret : List Char} (member : secret ∈ secrets)
    (long : Redaction.byteLength secret ≥ 4) : marker.length ≤ (redact secret secrets).length := by
  induction secrets with
  | nil => cases member
  | cons first secrets inductionHypothesis =>
    have proper {other : List Char} (counted : Redaction.byteLength other ≥ 4) : other ≠ [] := by
      rintro rfl
      exact absurd counted (by decide)
    rw [redact, List.foldl_cons, ← redact]
    split
    next counted =>
      obtain same | longer := replaceAll_long (proper counted) secret
      · rw [same]
        obtain rfl | later := List.mem_cons.mp member
        · have replaced : replaceAll secret marker (secret ++ []) = marker ++ _ :=
            replaceAll_occurrence (proper counted) []
          rw [List.append_nil, same] at replaced
          exact redact_long (replaced ▸ by simp)
        · exact inductionHypothesis later
      · exact redact_long longer
    next short =>
      obtain rfl | later := List.mem_cons.mp member
      · exact absurd long short
      · exact inductionHypothesis later

/-- Without text there is no tail. -/
theorem redactTail_nil : redactTail [] secrets = [] := by
  have none : secrets.any (startsSecret []) = false := by simp [startsSecret]
  rw [redactTail, none, redact, redacted_empty]
  simp

/-- A text without a secret is left alone. -/
theorem replaceAll_missing {secret text : List Char} (missing : ¬ secret <:+: text) :
    replaceAll secret marker text = text := by
  have whole : replaceAll secret marker (text ++ []) = text ++ replaceAll secret marker [] := by
    apply replaceAll_passes
    intro ending suffix _ found
    rw [List.append_nil] at found
    exact missing (found.isInfix.trans suffix.isInfix)
  rw [List.append_nil] at whole
  exact whole.trans (List.append_nil text)

/-- The daemon leaves a text of less than four code units. -/
theorem redactUnits_short {text : List Char} (short : (encode text).length < 4) :
    redactUnits text secrets = text := by
  induction secrets with
  | nil => rfl
  | cons secret secrets inductionHypothesis =>
    rw [redactUnits, List.foldl_cons, ← redactUnits]
    split
    next counted =>
      have missing : ¬ secret <:+: text := by
        rintro ⟨before, after, rfl⟩
        rw [encode_append, encode_append, List.length_append, List.length_append] at short
        omega
      rw [replaceAll_missing missing, inductionHypothesis]
    next => exact inductionHypothesis

/-! ## A secret that overlaps itself -/

/-- A text whose characters are all part of whole occurrences is redacted in the last call. -/
theorem finish_occurrences {secret text : List Char} (hidden : Hidden secret)
    (covered : ∀ start < text.length, Redaction.overlapsFullSecret text secret start = true) :
    (redactStream [] text [secret] true).1 = replaceAll secret marker text := by
  have whole : finishSplit text [secret] = text.length := by
    rw [finishSplit, List.foldl_cons, List.foldl_nil]
    refine List.foldlRecOn (motive := fun split => split = text.length) _ _ rfl ?_
    rintro _ rfl start visited
    rw [finishStart, covered start (List.mem_range.mp visited), Bool.not_true, Bool.and_false]
    rfl
  simp only [redactStream, if_true, List.append_nil, whole, List.take_length, List.drop_length]
  rw [redactTail_nil, redact_cons hidden, List.append_nil]
  rfl

/-- A secret that starts again inside itself, and first so after a number of characters. -/
structure Overlaps (secret rest : List Char) (shift : Nat) : Prop where
  positive : 0 < shift
  shorter : shift < secret.length
  again : secret.drop shift ++ rest = secret
  first : ∀ other, 0 < other → other < shift → ¬ secret.drop other <+: secret

/-- A secret that does not stand apart from itself overlaps itself. -/
theorem overlaps_exists {secret : List Char} (hidden : Hidden secret)
    (together : ¬ Separate [secret]) :
    ∃ rest shift, Overlaps secret rest shift := by
  have some : ∃ shift, 0 < shift ∧ shift < secret.length ∧ secret.drop shift <+: secret := by
    by_contra none
    refine together ⟨by simpa using hidden.long, by simpa using hidden.foreign, ?_, by simp⟩
    simp only [List.mem_singleton]
    rintro _ rfl _ rfl ending tail nonempty different starts
    rw [List.mem_tails] at tail
    obtain ⟨before, whole⟩ := tail
    refine none ⟨before.length, ?_, ?_, ?_⟩
    · apply List.length_pos_of_ne_nil
      rintro rfl
      exact different whole
    · rw [← whole, List.length_append]
      have := List.length_pos_of_ne_nil nonempty
      omega
    · rwa [← whole, List.drop_left, whole]
  classical
  obtain ⟨positive, shorter, rest, again⟩ := Nat.find_spec some
  refine ⟨rest, Nat.find some, positive, shorter, again, fun other least before starts => ?_⟩
  exact Nat.find_min some before ⟨least, before.trans shorter, starts⟩

namespace Overlaps

variable {secret rest : List Char} {shift : Nat}

/-- The text is the secret with what comes before its second occurrence, or with what comes after its
first one. -/
theorem shifted (overlaps : Overlaps secret rest shift) :
    secret.take shift ++ secret = secret ++ rest := by
  calc secret.take shift ++ secret
      = secret.take shift ++ (secret.drop shift ++ rest) := by rw [overlaps.again]
    _ = secret ++ rest := by rw [← List.append_assoc, List.take_append_drop]

/-- The rest is as long as the shift. -/
theorem length_rest (overlaps : Overlaps secret rest shift) : rest.length = shift := by
  have length := congrArg List.length overlaps.again
  have shorter := overlaps.shorter
  rw [List.length_append, List.length_drop] at length
  omega

/-- The secret occurs at the start. -/
theorem occurs_start : Place.Occurs (secret ++ rest) (secret, 0) :=
  occurs_iff.mpr (List.prefix_append secret rest)

/-- The secret occurs again after the shift. -/
theorem occurs_again (overlaps : Overlaps secret rest shift) :
    Place.Occurs (secret ++ rest) (secret, shift) := by
  have front : (secret.take shift).length = shift := List.length_take_of_le overlaps.shorter.le
  rw [occurs_iff, ← overlaps.shifted]
  change secret <+: List.drop shift (secret.take shift ++ secret)
  rw [List.drop_left' front]

/-- Between the two there is no further occurrence. -/
theorem occurs_between (overlaps : Overlaps secret rest shift) {start : Nat} (positive : 0 < start)
    (before : start < shift) : ¬ Place.Occurs (secret ++ rest) (secret, start) := by
  intro occurs
  rw [occurs_iff] at occurs
  have within : start ≤ secret.length := (before.trans overlaps.shorter).le
  rw [List.drop_append_of_le_length within] at occurs
  refine overlaps.first start positive before
    (List.prefix_of_prefix_length_le (List.prefix_append _ rest) occurs ?_)
  rw [List.length_drop]
  exact Nat.sub_le _ _

/-- Up to the second occurrence the secret fits into the text. -/
theorem agrees_shifted (overlaps : Overlaps secret rest shift) {start : Nat} (before : start ≤ shift) :
    agrees (secret ++ rest) secret start = true ↔ Place.Occurs (secret ++ rest) (secret, start) := by
  have fits : min ((secret ++ rest).length - start) secret.length = secret.length := by
    rw [List.length_append, overlaps.length_rest]
    omega
  simp only [agrees, Place.Occurs, occursAt, fits, List.take_length]

/-- Whoever holds back one character less than the secret splits before the second occurrence. -/
theorem streamSplit_worker (overlaps : Overlaps secret rest shift) :
    streamSplit (secret ++ rest) [secret] (shift + 1) = shift := by
  have positive := overlaps.positive
  have shorter := overlaps.shorter
  have before : (List.range shift).foldl (scanStart (secret ++ rest) secret) (shift + 1) ≤
      shift + 1 := by
    refine List.foldlRecOn (motive := fun split => split ≤ shift + 1) _ _ (Nat.le_refl _) ?_
    intro split bound start inside
    rw [List.mem_range] at inside
    rw [scanStart]
    split <;> omega
  have again := (overlaps.agrees_shifted (Nat.le_refl shift)).mpr overlaps.occurs_again
  rw [streamSplit, List.foldl_cons, List.foldl_nil, List.range_succ, List.foldl_append,
    List.foldl_cons, List.foldl_nil, scanStart, again, Bool.and_true, if_pos]
  rw [decide_eq_true_eq]
  omega

/-- Whoever holds back more splits before the first one. -/
theorem streamSplit_daemon (overlaps : Overlaps secret rest shift) {initialSplit : Nat}
    (early : initialSplit ≤ shift) : streamSplit (secret ++ rest) [secret] initialSplit = 0 := by
  have shorter := overlaps.shorter
  cases initialSplit with
  | zero => rfl
  | succ later =>
    have start := (overlaps.agrees_shifted (Nat.zero_le shift)).mpr occurs_start
    have first : scanStart (secret ++ rest) secret (later + 1) 0 = 0 := by
      rw [scanStart, start, Bool.and_true, if_pos]
      rw [decide_eq_true_eq]
      omega
    rw [streamSplit, List.foldl_cons, List.foldl_nil, List.range_succ_eq_map, List.foldl_cons, first]
    refine List.foldlRecOn (motive := fun split => split = 0) _ _ rfl ?_
    rintro _ rfl _ visited
    obtain ⟨place, inside, rfl⟩ := List.mem_map.mp visited
    rw [List.mem_range] at inside
    have missing : agrees (secret ++ rest) secret place.succ = false := by
      refine eq_false_of_ne_true fun agreed => ?_
      exact overlaps.occurs_between (Nat.succ_pos place) (by omega)
        ((overlaps.agrees_shifted (by omega)).mp agreed)
    rw [scanStart, missing, Bool.and_false]
    rfl

/-- Every character of the text is part of a whole occurrence. -/
theorem covered_shifted (overlaps : Overlaps secret rest shift) {start : Nat}
    (inside : start < (secret ++ rest).length) :
    Redaction.overlapsFullSecret (secret ++ rest) secret start = true := by
  have whole : occursAt (secret ++ rest) secret 0 = true := occurs_start
  have again : occursAt (secret ++ rest) secret shift = true := overlaps.occurs_again
  rw [List.length_append, overlaps.length_rest] at inside
  have shorter := overlaps.shorter
  rw [Redaction.overlapsFullSecret, Bool.and_eq_true, decide_eq_true_eq, List.any_eq_true]
  refine ⟨by simp, ?_⟩
  by_cases early : start < secret.length
  · exact ⟨0, by simp, by simp [early, whole]⟩
  · refine ⟨shift, by simp [overlaps.length_rest], ?_⟩
    simp only [again, Bool.and_true, Bool.and_eq_true, decide_eq_true_eq]
    omega

/-- What the worker shows of the text: its first call ends before the second occurrence. -/
theorem worker_shifted (overlaps : Overlaps secret rest shift) (hidden : Hidden secret) :
    heldReader (secret.length - 1) [secret] [] [secret ++ rest] [] =
      secret.take shift ++ marker := by
  have long := hidden.long
  have front : (secret.take shift).length = shift := List.length_take_of_le overlaps.shorter.le
  have room : (secret ++ rest).length - (secret.length - 1) = shift + 1 := by
    rw [List.length_append, overlaps.length_rest]
    omega
  have missing : ¬ secret <:+: secret.take shift := by
    intro occurs
    have size := occurs.length_le
    have shorter := overlaps.shorter
    omega
  have call : heldStream (secret.length - 1) (secret ++ rest) [] [secret] =
      (secret.take shift, secret) := by
    simp only [heldStream, List.nil_append, room, overlaps.streamSplit_worker]
    rw [← overlaps.shifted, List.take_left' front, List.drop_left' front, redact_cons hidden,
      replaceAll_missing missing]
    rfl
  have last : (redactStream [] secret [secret] true).1 = marker := by
    have covered (start : Nat) (inside : start < secret.length) :
        Redaction.overlapsFullSecret secret secret start = true := by
      simp [Redaction.overlapsFullSecret, occursAt, inside]
    have replaced : replaceAll secret marker (secret ++ []) = marker ++ [] :=
      replaceAll_occurrence hidden.proper []
    rw [List.append_nil, List.append_nil] at replaced
    rw [finish_occurrences hidden covered, replaced]
  rw [heldReader, call, heldReader, last]

/-- What the daemon shows of it: nothing before the last call, which replaces the first occurrence. -/
theorem daemon_shifted (overlaps : Overlaps secret rest shift) (hidden : Hidden secret) {held : Nat}
    (more : secret.length ≤ held) :
    heldReader held [secret] [] [secret ++ rest] [] = marker ++ rest := by
  have early : (secret ++ rest).length - held ≤ shift := by
    rw [List.length_append, overlaps.length_rest]
    omega
  have missing : ¬ secret <:+: rest := by
    intro occurs
    have size := occurs.length_le
    have shorter := overlaps.shorter
    rw [overlaps.length_rest] at size
    omega
  have call : heldStream held (secret ++ rest) [] [secret] = ([], secret ++ rest) := by
    simp only [heldStream, List.nil_append, overlaps.streamSplit_daemon early, List.take_zero,
      List.drop_zero, redact_cons hidden]
    rfl
  have last : (redactStream [] (secret ++ rest) [secret] true).1 = marker ++ rest := by
    rw [finish_occurrences hidden fun start inside => overlaps.covered_shifted inside,
      replaceAll_occurrence hidden.proper, replaceAll_missing missing]
  rw [heldReader, call, heldReader, last, List.nil_append]

end Overlaps

/-- The daemon and the worker hide different occurrences, where the daemon holds back more. -/
theorem overlaps_disagree {secret rest : List Char} {shift held : Nat}
    (overlaps : Overlaps secret rest shift) (hidden : Hidden secret) (more : secret.length ≤ held) :
    heldReader held [secret] [] [secret ++ rest] [] ≠
      heldReader (secret.length - 1) [secret] [] [secret ++ rest] [] := by
  rw [overlaps.worker_shifted hidden, overlaps.daemon_shifted hidden more]
  intro same
  obtain ⟨symbol, others, rfl⟩ := List.exists_cons_of_ne_nil hidden.proper
  obtain ⟨count, rfl⟩ := Nat.exists_eq_succ_of_ne_zero overlaps.positive.ne'
  have first : '[' = symbol := (List.cons.inj same).1
  exact hidden.foreign symbol List.mem_cons_self (first ▸ by decide)

/-! ## Agreement -/

/-- Both redactors show the same of a stream. -/
def Agree (secrets chunks : List (List Char)) (carry : List Char) : Prop :=
  DaemonRedaction.captureWorkerStderr (secrets.map encode) [] (chunks.map encode) (encode carry) =
    encode (reader secrets [] chunks carry)

instance (secrets chunks : List (List Char)) (carry : List Char) :
    Decidable (Agree secrets chunks carry) :=
  inferInstanceAs (Decidable (_ = _))

/-- The same number of characters is held back, or occurrences of secrets cannot overlap. -/
def HeldAlike (secrets : List (List Char)) : Prop :=
  DaemonRedaction.hold (secrets.map encode) = hold secrets ∨ Separate secrets

/-- The daemon's side of the agreement in terms of characters. -/
theorem agree_iff (alike : UnitsAlike secrets) (chunks : List (List Char)) (carry : List Char) :
    Agree secrets chunks carry ↔
      heldReader (DaemonRedaction.hold (secrets.map encode)) secrets [] chunks carry =
        heldReader (hold secrets) secrets [] chunks carry := by
  have run := capture_encode alike [] chunks carry
  rw [encode_nil] at run
  rw [Agree, run, heldReader_hold]
  exact ⟨encode_injective, congrArg encode⟩

/-- Where a secret passes the worker's test alone, the text of the secret is redacted otherwise. -/
theorem unitsAlike_of_agree (agree : ∀ text, Agree secrets [] text) : UnitsAlike secrets := by
  intro secret member long
  by_contra short
  have left : (encode secret).length < 4 := Nat.lt_of_not_le short
  have fewer := (length_encode secret).1
  -- Less than four characters start no secret, so that the whole text is redacted at once.
  have whole : finishSplit secret secrets = secret.length := by
    obtain whole | ⟨other, _, partly⟩ := finishSplit_cases secret secrets
    · exact whole
    · have four := (startsSecret_iff.mp partly).1
      rw [List.length_drop] at four
      omega
  have daemon : (DaemonRedaction.redactStream (encode secret) (encode [])
      (secrets.map encode) true).1 = encode secret := by
    rw [finish_encode, List.nil_append, whole, List.take_length, List.drop_length, redactTail_nil,
      List.append_nil, redactUnits_short left]
  have worker : reader secrets [] [] secret = redact secret secrets := by
    change redact (List.take (finishSplit secret secrets) secret) secrets ++
      redactTail (List.drop (finishSplit secret secrets) secret) secrets = _
    rw [whole, List.take_length, List.drop_length, redactTail_nil, List.append_nil]
  have same : encode secret = encode (redact secret secrets) :=
    daemon.symm.trans (worker ▸ agree secret)
  have marked := redact_secret member long
  rw [← encode_injective same] at marked
  have ten : marker.length = 10 := by decide
  omega

/-- On alike secrets daemon and worker agree on all chunks. -/
theorem chunks_agree (alike : UnitsAlike secrets) (held : HeldAlike secrets)
    (chunks : List (List Char)) (carry : List Char) : Agree secrets chunks carry := by
  rw [agree_iff alike]
  obtain same | separate := held
  · rw [same]
  · rw [heldReader_shown separate hold_le, heldReader_hold, reader_shown separate]

/-- One secret is alike by units and by characters. -/
theorem unitsAlike_single {secret : List Char} (hidden : Hidden secret) : UnitsAlike [secret] := by
  intro _ member _
  rw [List.mem_singleton.mp member]
  exact hidden.long.trans (length_encode secret).1

/-- A secret of its own that overlaps itself shows a larger number of characters held back. -/
theorem heldAlike_of_agree {secret : List Char} (hidden : Hidden secret)
    (agree : ∀ chunks carry, Agree [secret] chunks carry) : HeldAlike [secret] := by
  by_contra neither
  obtain ⟨different, together⟩ := not_or.mp neither
  obtain ⟨rest, shift, overlaps⟩ := overlaps_exists hidden together
  have worker : hold [secret] = secret.length - 1 := Nat.zero_max _
  have daemon : DaemonRedaction.hold ([secret].map encode) = (encode secret).length - 1 :=
    Nat.zero_max _
  have units := (length_encode secret).1
  have more : secret.length ≤ DaemonRedaction.hold ([secret].map encode) := by omega
  have same := (agree_iff (unitsAlike_single hidden) _ _).mp (agree [secret ++ rest] [])
  rw [worker] at same
  exact overlaps_disagree overlaps hidden more same

/-- A text in one call is redacted alike just where every secret passes both tests or none. A text in
chunks is then redacted alike where the same number of characters is held back, or where occurrences of
secrets cannot overlap, and for a secret of its own only there. -/
theorem twins_agree (secrets : List (List Char)) :
    ((∀ text, Agree secrets [] text) ↔ UnitsAlike secrets) ∧
    (UnitsAlike secrets → HeldAlike secrets → ∀ chunks carry, Agree secrets chunks carry) ∧
    (∀ secret, secrets = [secret] → Hidden secret →
      ((∀ chunks carry, Agree secrets chunks carry) ↔ HeldAlike secrets)) := by
  refine ⟨⟨unitsAlike_of_agree, fun alike text => ?_⟩, chunks_agree, ?_⟩
  · exact capture_encode alike [] [] text
  · rintro secret rfl hidden
    exact ⟨heldAlike_of_agree hidden, chunks_agree (unitsAlike_single hidden)⟩

/-- Two characters of three bytes each are a secret for the worker, and two code units for the
daemon. -/
theorem short_secret_kept :
    ¬ ∀ (secrets chunks : List (List Char)) (carry : List Char), Agree secrets chunks carry := by
  intro agree
  have kept := agree ["日本".toList] [] "日本".toList
  revert kept
  decide +kernel

/-- The daemon holds back seven characters of this chunk, and the worker three, so that the marker
stands for other occurrences of the secret. -/
example :
    DaemonRedaction.captureWorkerStderr [js "😀😀😀😀"] [] [js "😀😀😀😀😀😀😀"] [] =
        js "[REDACTED]😀😀😀" ∧
      reader ["😀😀😀😀".toList] [] ["😀😀😀😀😀😀😀".toList] [] = "😀😀😀[REDACTED]".toList := by
  decide +kernel

end OpencodePty.RedactorTwins
