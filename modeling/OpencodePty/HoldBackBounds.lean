import OpencodePty.Redaction
import OpencodePty.Transitions

/-!
# The bound on what is held back

A call of the stream that is not the last one keeps back one character less than the longest secret
has, and more where a secret stands across the place at which the text would be split: then the split
moves to the start of the secret. It may so move once for each secret, from the start of one to that
of another one before it. What is kept back has at most 4095 characters where no such chain of
secrets leads further back than that.
-/

namespace OpencodePty.HoldBackBounds

open OpencodePty.Redaction OpencodePty.Transitions

/-- `MAX_REDACTION_SECRET_BYTES` of the worker -/
def maxRedactionSecretBytes : Nat := 4096

/-- The tail after a call of the stream that is not the last one. -/
def keep (secrets : List (List Char)) (tail chunk : List Char) : List Char :=
  (redactStream chunk tail secrets false).2

/-- The documented bound on every tail of a stream. -/
def Bounded (secrets chunks : List (List Char)) : Prop :=
  ∀ before, before <+: chunks →
    (run (keep secrets) [] before).length ≤ maxRedactionSecretBytes - 1

/-- The last position before a window at which the text agrees with a secret. -/
structure LastBefore (combined secret : List Char) (window start : Nat) : Prop where
  before : start < window
  agrees : agrees combined secret start = true
  last : ∀ later, start < later → later < window → Redaction.agrees combined secret later = false

/-- A chain of secrets, in their order, leads back from one position to another: each of them
stands last at a place from before the position that was reached to behind it. -/
inductive LeadsBack (combined : List Char) (window : Nat) : List (List Char) → Nat → Nat → Prop
  | stay {position : Nat} : LeadsBack combined window [] position position
  | pass {secret : List Char} {secrets : List (List Char)} {first last : Nat} :
    LeadsBack combined window secrets first last →
    LeadsBack combined window (secret :: secrets) first last
  | back {secret : List Char} {secrets : List (List Char)} {first start last : Nat} :
    LastBefore combined secret window start → first < start + secret.length →
    LeadsBack combined window secrets start last →
    LeadsBack combined window (secret :: secrets) first last

/-- No chain from the window leads further back than the bound. -/
def Near (secrets : List (List Char)) (combined : List Char) : Prop :=
  ∀ start < combined.length - hold secrets,
    LeadsBack combined (combined.length - hold secrets) secrets
        (combined.length - hold secrets) start →
      combined.length - start ≤ maxRedactionSecretBytes - 1

variable {combined secret : List Char} {secrets : List (List Char)}

/-! ## The scan for one secret -/

/-- The scan for a secret moves the split to its last place before the window, if that one ends
behind the split. -/
theorem scan_secret (combined secret : List Char) (split window : Nat) :
    ((List.range window).foldl (scanStart combined secret) split = split ∧
      ∀ start < window, agrees combined secret start = true → start + secret.length ≤ split) ∨
    ∃ start, LastBefore combined secret window start ∧ split < start + secret.length ∧
      (List.range window).foldl (scanStart combined secret) split = start := by
  induction window with
  | zero =>
    refine Or.inl ⟨rfl, ?_⟩
    intro start impossible
    exact absurd impossible (Nat.not_lt_zero start)
  | succ window inductionHypothesis =>
    rw [List.range_succ, List.foldl_append, List.foldl_cons, List.foldl_nil]
    have here (found : agrees combined secret window = true) :
        LastBefore combined secret (window + 1) window := by
      refine ⟨Nat.lt_succ_self window, found, ?_⟩
      intro later after before
      omega
    rcases inductionHypothesis with ⟨same, within⟩ | ⟨start, standing, crosses, same⟩
    · rw [same]
      by_cases moved : window + secret.length > split ∧ agrees combined secret window = true
      · refine Or.inr ⟨window, here moved.2, moved.1, ?_⟩
        simp [scanStart, moved.1, moved.2]
      · refine Or.inl ⟨?_, ?_⟩
        · simp only [scanStart, Bool.and_eq_true, decide_eq_true_eq, if_neg moved]
        · intro start before found
          by_cases final : start = window
          · subst final
            exact Nat.le_of_not_lt fun beyond => moved ⟨beyond, found⟩
          · exact within start (by omega) found
    · rw [same]
      have before := standing.before
      by_cases found : agrees combined secret window = true
      · refine Or.inr ⟨window, here found, by omega, ?_⟩
        have crossing : window + secret.length > start := by omega
        simp [scanStart, found, crossing]
      · refine Or.inr ⟨start, ⟨by omega, standing.agrees, ?_⟩, crosses, ?_⟩
        · intro later after inside
          by_cases final : later = window
          · rw [final]
            exact Bool.not_eq_true _ ▸ found
          · exact standing.last later after (by omega)
        · simp [scanStart, found]

/-- There is at most one last place. -/
theorem LastBefore.unique {window first second : Nat} (one : LastBefore combined secret window first)
    (two : LastBefore combined secret window second) : first = second := by
  rcases Nat.lt_trichotomy first second with less | same | greater
  · have absent := one.last second less two.before
    rw [two.agrees] at absent
    contradiction
  · exact same
  · have absent := two.last first greater one.before
    rw [one.agrees] at absent
    contradiction

theorem scan_moves {split window start : Nat} (standing : LastBefore combined secret window start)
    (crosses : split < start + secret.length) :
    (List.range window).foldl (scanStart combined secret) split = start := by
  rcases scan_secret combined secret split window with
    ⟨_, within⟩ | ⟨other, last, _, same⟩
  · have ended := within start standing.before standing.agrees
    omega
  · rw [same]
    exact last.unique standing

/-! ## The chain of a call -/

/-- The scan for the secrets leads back along a chain. -/
theorem scan_leadsBack (combined : List Char) (window : Nat) (secrets : List (List Char))
    (split : Nat) :
    LeadsBack combined window secrets split
      (secrets.foldl
        (fun split secret => (List.range window).foldl (scanStart combined secret) split) split) := by
  induction secrets generalizing split with
  | nil => exact .stay
  | cons secret secrets inductionHypothesis =>
    rw [List.foldl_cons]
    rcases scan_secret combined secret split window with
      ⟨same, _⟩ | ⟨start, standing, crosses, same⟩
    · rw [same]
      exact .pass (inductionHypothesis split)
    · rw [same]
      exact .back standing crosses (inductionHypothesis start)

theorem callSplit_leadsBack (secrets : List (List Char)) (combined : List Char) :
    LeadsBack combined (combined.length - hold secrets) secrets
      (combined.length - hold secrets) (callSplit secrets combined) :=
  scan_leadsBack combined (combined.length - hold secrets) secrets _

theorem length_le_capped (capped : byteLength secret ≤ maxRedactionSecretBytes) :
    secret.length ≤ maxRedactionSecretBytes - 1 + 1 :=
  Nat.le_trans (length_le_byteLength secret) capped

theorem hold_le_capped
    (capped : ∀ secret ∈ secrets, byteLength secret ≤ maxRedactionSecretBytes) :
    hold secrets ≤ maxRedactionSecretBytes - 1 := by
  have bound (values : List Nat) (start limit : Nat) (low : start ≤ limit)
      (within : ∀ value ∈ values, value ≤ limit) : values.foldl max start ≤ limit := by
    induction values generalizing start with
    | nil => exact low
    | cons first values inductionHypothesis =>
      rw [List.foldl_cons]
      apply inductionHypothesis
      · exact Nat.max_le.mpr ⟨low, within first List.mem_cons_self⟩
      · intro value member
        exact within value (List.mem_cons_of_mem first member)
  apply bound
  · exact Nat.zero_le _
  · intro value member
    obtain ⟨secret, known, rfl⟩ := List.mem_map.mp member
    have short := length_le_capped (capped secret known)
    omega

theorem length_keep (secrets : List (List Char)) (tail chunk : List Char) :
    (keep secrets tail chunk).length =
      (tail ++ chunk).length - callSplit secrets (tail ++ chunk) := by
  rw [keep, redactStream_tail, List.length_drop]

/-- Where no chain leads back further than the bound, the tail keeps to it. -/
theorem keep_bounded (capped : ∀ secret ∈ secrets, byteLength secret ≤ maxRedactionSecretBytes)
    {tail chunk : List Char} (near : Near secrets (tail ++ chunk)) :
    (keep secrets tail chunk).length ≤ maxRedactionSecretBytes - 1 := by
  have held := hold_le_capped capped
  rw [length_keep]
  by_cases moved : callSplit secrets (tail ++ chunk) < (tail ++ chunk).length - hold secrets
  · exact near _ moved (callSplit_leadsBack secrets (tail ++ chunk))
  · omega

/-- For a single secret the tail keeps to the bound only there. -/
theorem near_of_keep {tail chunk : List Char}
    (bounded : (keep [secret] tail chunk).length ≤ maxRedactionSecretBytes - 1) :
    Near [secret] (tail ++ chunk) := by
  intro start before chain
  rw [length_keep] at bounded
  cases chain with
  | pass chain =>
    cases chain
    omega
  | back standing crosses chain =>
    cases chain
    have moved : callSplit [secret] (tail ++ chunk) = start := scan_moves standing crosses
    rwa [moved] at bounded

/-- Every tail of a stream has at most 4095 characters, if no chain of secrets leads back further
than that from the place at which a call would split the text. For a single secret that is so only
then. -/
theorem tails_bounded (secrets chunks : List (List Char))
    (capped : ∀ secret ∈ secrets, byteLength secret ≤ maxRedactionSecretBytes) :
    (Along (keep secrets) (fun tail chunk => Near secrets (tail ++ chunk)) [] chunks →
      Bounded secrets chunks) ∧
    ∀ secret, secrets = [secret] →
      (Bounded secrets chunks ↔
        Along (keep secrets) (fun tail chunk => Near secrets (tail ++ chunk)) [] chunks) := by
  have sufficient (near : Along (keep secrets) (fun tail chunk => Near secrets (tail ++ chunk)) []
      chunks) : Bounded secrets chunks := by
    rintro before ⟨after, rfl⟩
    obtain ⟨near, _⟩ := along_append near
    have step (tail chunk : List Char) (_ : tail.length ≤ maxRedactionSecretBytes - 1)
        (near : Near secrets (tail ++ chunk)) :
        (keep secrets tail chunk).length ≤ maxRedactionSecretBytes - 1 := keep_bounded capped near
    exact run_preserves_along step [] before (Nat.zero_le _) near
  refine ⟨sufficient, ?_⟩
  rintro secret rfl
  refine ⟨?_, sufficient⟩
  intro bounded
  apply along_of_steps
  intro before chunk inside
  apply near_of_keep
  have tail := bounded (before ++ [chunk]) inside
  rwa [run_append] at tail

theorem tails_bounded_across_chunks : Bounded ["p4ss".toList] ["my p4".toList, "ss ".toList] := by
  obtain ⟨sufficient, _⟩ :=
    tails_bounded ["p4ss".toList] ["my p4".toList, "ss ".toList] (by decide)
  apply sufficient
  refine ⟨?_, ?_, trivial⟩
  · intro start _ _
    exact Nat.le_trans (Nat.sub_le _ start) (by decide)
  · intro start _ _
    exact Nat.le_trans (Nat.sub_le _ start) (by decide)

/-! ## A secret of the greatest length -/

/-- A text that is a secret is kept as a whole. -/
theorem keep_secret (long : 2 ≤ secret.length) : keep [secret] [] secret = secret := by
  have held : hold [secret] = secret.length - 1 := Nat.zero_max _
  have window : secret.length - hold [secret] = 1 := by omega
  have standing : LastBefore secret secret 1 0 := by
    refine ⟨Nat.zero_lt_one, ?_, ?_⟩
    · simp [Redaction.agrees]
    · intro later after before
      omega
  have split : callSplit [secret] secret = 0 := by
    rw [callSplit, window]
    exact scan_moves standing (by omega)
  rw [keep, redactStream_tail, List.nil_append, split, List.drop_zero]

/-- The greatest secret that is allowed. -/
def longestSecret : List Char := List.replicate maxRedactionSecretBytes 'x'

theorem length_longestSecret : longestSecret.length = maxRedactionSecretBytes :=
  List.length_replicate

theorem byteLength_longestSecret : byteLength longestSecret = maxRedactionSecretBytes := by
  rw [byteLength, longestSecret, List.map_replicate, List.sum_replicate_nat]
  rfl

theorem tails_unbounded :
    (∀ secret ∈ [longestSecret], byteLength secret ≤ maxRedactionSecretBytes) ∧
      keep [longestSecret] [] longestSecret = longestSecret ∧
      ¬ Bounded [longestSecret] [longestSecret] := by
  have whole : keep [longestSecret] [] longestSecret = longestSecret := by
    apply keep_secret
    rw [length_longestSecret]
    decide
  refine ⟨?_, whole, ?_⟩
  · intro secret member
    rw [List.mem_singleton.mp member, byteLength_longestSecret]
  · intro bounded
    have tail := bounded [longestSecret] (List.prefix_refl _)
    rw [run_cons, run_nil, whole, length_longestSecret] at tail
    exact absurd tail (by decide)

end OpencodePty.HoldBackBounds
