import OpencodePty.TerminalRedaction

/-!
# Streamed and whole redaction

Where no two occurrences of the secrets can overlap, redacting a text chunk by chunk shows the
same as redacting the whole text in one call: the text with every occurrence of a secret, and a
start of a secret at its end, replaced by the marker. The split of a call that is not the last
one cuts no occurrence and lies before every start of a secret at the end of the text, whatever
follows.
-/

namespace OpencodePty.WholeRedaction

open OpencodePty.Substitution OpencodePty.Redaction OpencodePty.TerminalRedaction

/-! ## The text with its secrets replaced -/

/-- Replace the secrets from the left, and the rest of the text where it is a proper start, of
at least four characters, of a secret. The number counts the characters of the current secret
that are still to be passed over. -/
def hideFrom (secrets : List (List Char)) : Nat → List Char → List Char
  | _, [] => []
  | skip + 1, _ :: rest => hideFrom secrets skip rest
  | 0, character :: rest =>
    if secrets.any (startsSecret (character :: rest)) then marker
    else
      match secrets.find? fun secret => secret.isPrefixOf (character :: rest) with
      | some secret => marker ++ hideFrom secrets (secret.length - 1) rest
      | none => character :: hideFrom secrets 0 rest

/-- The text with every occurrence of a secret, and a start of a secret at its end, replaced by
the marker. -/
def hideSecrets (secrets : List (List Char)) (text : List Char) : List Char :=
  hideFrom secrets 0 text

variable {secrets : List (List Char)}

theorem startsSecret_iff {text secret : List Char} :
    startsSecret text secret = true ↔
      4 ≤ text.length ∧ text.length < secret.length ∧ text <+: secret := by
  simp only [startsSecret, Bool.and_eq_true, decide_eq_true_eq, beq_iff_eq, ge_iff_le, and_assoc,
    ← List.prefix_iff_eq_take]

theorem hideFrom_skip (skip : Nat) (text : List Char) :
    hideFrom secrets skip text = hideSecrets secrets (text.drop skip) :=
  skip_drop (fun _ => rfl) (fun _ _ _ => rfl) skip text

/-- A text that starts a secret is hidden as a whole. -/
theorem hideSecrets_ending {text secret : List Char} (member : secret ∈ secrets)
    (partly : startsSecret text secret = true) : hideSecrets secrets text = marker := by
  cases text with
  | nil => simp [startsSecret] at partly
  | cons character rest =>
    have starts : secrets.any (startsSecret (character :: rest)) = true :=
      List.any_eq_true.mpr ⟨secret, member, partly⟩
    rw [hideSecrets, hideFrom, if_pos starts]

/-- A character at which no secret stands, and no start of one to the end of the text, is
kept. -/
theorem hideSecrets_keep {character : Char} {rest : List Char}
    (whole : ∀ secret ∈ secrets, startsSecret (character :: rest) secret = false)
    (absent : ∀ secret ∈ secrets, ¬ secret <+: character :: rest) :
    hideSecrets secrets (character :: rest) = character :: hideSecrets secrets rest := by
  have starts : ¬ secrets.any (startsSecret (character :: rest)) = true := by
    rw [List.any_eq_true]
    rintro ⟨secret, member, partly⟩
    rw [whole secret member] at partly
    cases partly
  have none : (secrets.find? fun secret => secret.isPrefixOf (character :: rest)) = none := by
    rw [List.find?_eq_none]
    intro secret member found
    exact absent secret member (List.isPrefixOf_iff_prefix.mp found)
  rw [hideSecrets, hideFrom, if_neg starts, none, hideSecrets]

/-- Of separate secrets, only one can stand at a position. -/
theorem same_secret (separate : Separate secrets) {first second text : List Char}
    (firstMember : first ∈ secrets) (secondMember : second ∈ secrets) (found : first <+: text)
    (stands : second <+: text) : first = second := by
  rcases List.prefix_or_prefix_of_prefix found stands with shorter | longer
  · exact separate.outside first firstMember second secondMember shorter.isInfix
  · exact (separate.outside second secondMember first firstMember longer.isInfix).symm

/-- A secret at the front is replaced as a whole. -/
theorem hideSecrets_occurrence (separate : Separate secrets) {secret : List Char}
    (member : secret ∈ secrets) (rest : List Char) :
    hideSecrets secrets (secret ++ rest) = marker ++ hideSecrets secrets rest := by
  obtain ⟨character, others, same⟩ :=
    List.exists_cons_of_ne_nil (separate.hidden secret member).proper
  have text : secret ++ rest = character :: (others ++ rest) := by rw [same, List.cons_append]
  have whole : ¬ secrets.any (startsSecret (character :: (others ++ rest))) = true := by
    rw [List.any_eq_true]
    rintro ⟨other, known, partly⟩
    rw [← text, startsSecret_iff] at partly
    obtain ⟨_, shorter, starts⟩ := partly
    have equal := separate.outside secret member other known
      ((List.prefix_append secret rest).trans starts).isInfix
    rw [equal, List.length_append] at shorter
    omega
  have found : (secrets.find? fun other => other.isPrefixOf (character :: (others ++ rest))) =
      some secret := by
    cases search : secrets.find? fun other => other.isPrefixOf (character :: (others ++ rest)) with
    | none =>
      rw [List.find?_eq_none] at search
      refine absurd ?_ (search secret member)
      rw [← text, List.isPrefixOf_iff_prefix]
      exact List.prefix_append secret rest
    | some other =>
      have starts := List.find?_some search
      have stands : other <+: secret ++ rest := text ▸ List.isPrefixOf_iff_prefix.mp starts
      rw [same_secret separate (List.mem_of_find?_eq_some search) member stands
        (List.prefix_append secret rest)]
  have dropped : (others ++ rest).drop (secret.length - 1) = rest := by
    rw [same, List.length_cons, Nat.add_sub_cancel, List.drop_left]
  rw [text, hideSecrets, hideFrom, if_neg whole, found]
  simp only [hideFrom_skip, dropped]

/-! ## Redaction of a piece of the text -/

theorem redact_marker (hidden : ∀ secret ∈ secrets, Hidden secret) (data : List Char) :
    redact (marker ++ data) secrets = marker ++ redact data secrets := by
  induction secrets generalizing data with
  | nil => rfl
  | cons secret secrets inductionHypothesis =>
    have first : Hidden secret := hidden secret List.mem_cons_self
    have others : ∀ other ∈ secrets, Hidden other := fun other member =>
      hidden other (List.mem_cons_of_mem secret member)
    rw [redact_cons first, redact_cons first, replaceAll_marker first.proper first.foreign]
    exact inductionHypothesis others _

/-- A character at which no secret stands is kept. What was replaced behind it by earlier
secrets brings none in. -/
theorem redact_keep (hidden : ∀ secret ∈ secrets, Hidden secret) {character : Char}
    {rest shown : List Char} (covered : Covered marker rest shown)
    (absent : ∀ secret ∈ secrets, ¬ secret <+: character :: rest) :
    redact (character :: shown) secrets = character :: redact shown secrets := by
  induction secrets generalizing shown with
  | nil => rfl
  | cons secret secrets inductionHypothesis =>
    have first : Hidden secret := hidden secret List.mem_cons_self
    have others : ∀ other ∈ secrets, Hidden other := fun other member =>
      hidden other (List.mem_cons_of_mem secret member)
    have missed : ¬ secret <+: character :: shown := by
      rintro ⟨after, found⟩
      have whole : Covered marker (character :: rest) (secret ++ after) := by
        rw [found]
        exact .keep character covered
      obtain ⟨remaining, same, _⟩ := whole.starts marker_nonempty first.foreign
      exact absent secret List.mem_cons_self ⟨remaining, same.symm⟩
    rw [redact_cons first, redact_cons first, replaceAll_keep missed]
    apply inductionHypothesis others
    · exact covered.replaceAll marker_nonempty first.foreign first.proper
    · exact fun other member => absent other (List.mem_cons_of_mem secret member)

/-- A separate secret is passed over by the replacement of another one. -/
theorem replaceAll_apart (separate : Separate secrets) {secret other : List Char}
    (member : secret ∈ secrets) (known : other ∈ secrets) (different : other ≠ secret)
    (data : List Char) :
    replaceAll other marker (secret ++ data) = secret ++ replaceAll other marker data := by
  apply replaceAll_passes
  intro ending suffix nonempty found
  rcases List.prefix_or_prefix_of_prefix found (List.prefix_append ending data) with
    inside | around
  · exact different (separate.outside other known secret member
      (inside.isInfix.trans suffix.isInfix))
  · by_cases whole : ending = secret
    · subst whole
      exact different (separate.outside ending member other known around.isInfix).symm
    · exact separate.apart secret member other known ending
        ((List.mem_tails _ _).mpr suffix) nonempty whole around

/-- A secret at the front is replaced as a whole. The induction is on the secrets that are still
to be replaced: those before it pass over it, and those after it pass over the marker. -/
theorem redact_occurrence (separate : Separate secrets) {secret : List Char}
    (member : secret ∈ secrets) (data : List Char) :
    redact (secret ++ data) secrets = marker ++ redact data secrets := by
  have steps (remaining : List (List Char)) (known : ∀ other ∈ remaining, other ∈ secrets)
      (listed : secret ∈ remaining) (data : List Char) :
      redact (secret ++ data) remaining = marker ++ redact data remaining := by
    induction remaining generalizing data with
    | nil => simp at listed
    | cons other remaining inductionHypothesis =>
      have first := separate.hidden other (known other List.mem_cons_self)
      have later : ∀ next ∈ remaining, next ∈ secrets := fun next inside =>
        known next (List.mem_cons_of_mem other inside)
      rw [redact_cons first, redact_cons first]
      by_cases same : other = secret
      · subst same
        rw [replaceAll_occurrence first.proper]
        exact redact_marker (fun next inside => separate.hidden next (later next inside)) _
      · rw [replaceAll_apart separate member (known other List.mem_cons_self) same]
        apply inductionHypothesis later
        exact (List.mem_cons.mp listed).resolve_left (Ne.symm same)
  exact steps secrets (fun _ inside => inside) member data

/-! ## A text in two parts -/

/-- The secrets of a text do not lie across its split, and no start of a secret that goes to the
end of the text begins before it. -/
structure CleanSplit (secrets : List (List Char)) (front back : List Char) : Prop where
  uncrossed : ∀ first second, first ≠ [] → second ≠ [] → first ++ second ∈ secrets →
    first <:+ front → ¬ second <+: back
  later : ∀ ending, ending <:+ front → ending ≠ [] → ∀ secret ∈ secrets,
    startsSecret (ending ++ back) secret = false

theorem CleanSplit.tail {dropped front back : List Char}
    (clean : CleanSplit secrets (dropped ++ front) back) : CleanSplit secrets front back := by
  constructor
  · intro first second left right member ends
    exact clean.uncrossed first second left right member
      (ends.trans (List.suffix_append dropped front))
  · intro ending suffix
    exact clean.later ending (suffix.trans (List.suffix_append dropped front))

/-- A secret at the front ends before a clean split. -/
theorem CleanSplit.inside {front back secret : List Char} (clean : CleanSplit secrets front back)
    (nonempty : front ≠ []) (member : secret ∈ secrets) (found : secret <+: front ++ back) :
    secret <+: front := by
  rcases List.prefix_or_prefix_of_prefix found (List.prefix_append front back) with
    within | ⟨second, same⟩
  · exact within
  · by_cases whole : second = []
    · rw [whole, List.append_nil] at same
      rw [same]
    · refine absurd ?_
        (clean.uncrossed front second nonempty whole (same ▸ member) (List.suffix_refl front))
      rw [← same] at found
      exact (List.prefix_append_right_inj front).mp found

/-- The secrets of the part before a clean split are hidden on their own. The induction is on
the length of that part: a secret at its front is passed over as a whole. -/
theorem hideSecrets_append (separate : Separate secrets) {front back : List Char}
    (clean : CleanSplit secrets front back) :
    hideSecrets secrets (front ++ back) = redact front secrets ++ hideSecrets secrets back := by
  induction size : front.length using Nat.strong_induction_on generalizing front with
  | _ length inductionHypothesis =>
    cases front with
    | nil => rw [redact_nil separate.hidden, List.nil_append, List.nil_append]
    | cons character rest =>
      by_cases stands : ∃ secret ∈ secrets, secret <+: (character :: rest) ++ back
      · obtain ⟨secret, member, found⟩ := stands
        have proper := (separate.hidden secret member).proper
        obtain ⟨remaining, same⟩ :=
          clean.inside (List.cons_ne_nil character rest) member found
        rw [← same] at size clean ⊢
        have shorter : remaining.length < length := by
          have positive : 0 < secret.length := List.length_pos_of_ne_nil proper
          rw [List.length_append] at size
          omega
        rw [List.append_assoc, hideSecrets_occurrence separate member,
          redact_occurrence separate member, List.append_assoc,
          inductionHypothesis remaining.length shorter clean.tail rfl]
      · have absent : ∀ secret ∈ secrets, ¬ secret <+: character :: (rest ++ back) :=
          fun secret member found => stands ⟨secret, member, found⟩
        have before : ∀ secret ∈ secrets, ¬ secret <+: character :: rest :=
          fun secret member found => absent secret member
            (found.trans (List.prefix_append (character :: rest) back))
        have starts : ∀ secret ∈ secrets,
            startsSecret (character :: (rest ++ back)) secret = false :=
          clean.later _ (List.suffix_refl _) (List.cons_ne_nil character rest)
        have shorter : rest.length < length := by
          rw [List.length_cons] at size
          omega
        have tail : CleanSplit secrets rest back := 
          @CleanSplit.tail secrets [character] rest back clean
        rw [List.cons_append, hideSecrets_keep starts absent,
          redact_keep separate.hidden (.refl rest) before, List.cons_append,
          inductionHypothesis rest.length shorter tail rfl]

/-! ## Calls -/

/-- The split of a call that is not the last one is clean, whatever text follows. -/
theorem callSplit_clean (separate : Separate secrets) (combined following : List Char) :
    CleanSplit secrets (combined.take (callSplit secrets combined))
      (combined.drop (callSplit secrets combined) ++ following) := by
  constructor
  · intro first second left right member ends starts
    obtain ⟨other, known, contained⟩ :=
      crossing_contains (separate.nested combined) member left right ends starts
    have same := separate.outside other known _ member
      (contained.isInfix.trans (List.suffix_append first second).isInfix)
    have length := contained.length_le
    have positive : 0 < first.length := List.length_pos_of_ne_nil left
    rw [same, List.length_append] at length
    omega
  · intro ending suffix nonempty secret member
    rw [Bool.eq_false_iff]
    intro partly
    obtain ⟨_, shorter, _⟩ := startsSecret_iff.mp partly
    -- more is held back than the longest start of a secret
    have limit := callSplit_le secrets combined
    have held := length_le_hold member
    have positive : 0 < ending.length := List.length_pos_of_ne_nil nonempty
    have size := suffix.length_le
    simp only [List.length_append, List.length_drop, List.length_take] at shorter size
    omega

/-- The split of the last call is clean. -/
theorem finishSplit_clean (separate : Separate secrets) (combined : List Char) :
    CleanSplit secrets (combined.take (finishSplit combined secrets))
      (combined.drop (finishSplit combined secrets)) := by
  constructor
  · intro first second left right member ends starts
    rcases finishSplit_cases combined secrets with whole | ⟨other, known, partly⟩
    · rw [whole, List.drop_length] at starts
      exact right (List.prefix_nil.mp starts)
    · have front := starts.trans (startsSecret_iff.mp partly).2.2
      refine separate.apart _ member other known second
        ((List.mem_tails _ _).mpr (List.suffix_append first second)) right ?_ front
      exact fun same => left (List.append_left_eq_self.mp same.symm)
  · intro ending suffix nonempty secret member
    rw [Bool.eq_false_iff]
    intro partly
    obtain ⟨before, whole⟩ := suffix
    have rest : combined.drop before.length =
        ending ++ combined.drop (finishSplit combined secrets) := by
      calc combined.drop before.length
          = (before ++ (ending ++ combined.drop (finishSplit combined secrets))).drop
              before.length := by rw [← List.append_assoc, whole, List.take_append_drop]
        _ = ending ++ combined.drop (finishSplit combined secrets) := List.drop_left
    have positive : 0 < ending.length := List.length_pos_of_ne_nil nonempty
    have size := congrArg List.length whole
    simp only [List.length_append, List.length_take] at size
    rw [← rest] at partly
    have early := finishSplit_le member (by omega) partly (separate.unoverlapped member partly)
    omega

/-- The last call shows the text it has with its secrets hidden. -/
theorem finish_shown (separate : Separate secrets) (text tail : List Char) :
    (redactStream text tail secrets true).1 = hideSecrets secrets (tail ++ text) := by
  have split := hideSecrets_append separate (finishSplit_clean separate (tail ++ text))
  rw [List.take_append_drop] at split
  rw [split]
  simp only [redactStream, if_true]
  congr 1
  rcases finishSplit_cases (tail ++ text) secrets with whole | ⟨secret, member, partly⟩
  · have short : ¬ secrets.any (startsSecret []) = true := by simp [startsSecret]
    rw [whole, List.drop_length, redactTail, if_neg short, redact_nil separate.hidden]
    rfl
  · have starts : secrets.any
        (startsSecret ((tail ++ text).drop (finishSplit (tail ++ text) secrets))) = true :=
      List.any_eq_true.mpr ⟨secret, member, partly⟩
    rw [hideSecrets_ending member partly, redactTail, if_pos starts]

/-- A call that is not the last one shows a part of the text with its secrets hidden, and keeps
the rest. -/
theorem call_shown (separate : Separate secrets) (text tail following : List Char) :
    (redactStream text tail secrets false).1 ++
        hideSecrets secrets ((redactStream text tail secrets false).2 ++ following) =
      hideSecrets secrets (tail ++ text ++ following) := by
  have split := hideSecrets_append separate
    (callSplit_clean separate (tail ++ text) following)
  rw [← List.append_assoc, List.take_append_drop] at split
  rw [redactStream_shown, redactStream_tail, split]

/-! ## Whole streams -/

/-- A stream shows the text that was held back and what it reads, with the secrets hidden. -/
theorem reader_shown (separate : Separate secrets) (tail : List Char)
    (chunks : List (List Char)) (last : List Char) :
    reader secrets tail chunks last = hideSecrets secrets (tail ++ (chunks.flatten ++ last)) := by
  induction chunks generalizing tail with
  | nil => exact finish_shown separate last tail
  | cons chunk chunks inductionHypothesis =>
    rw [reader, inductionHypothesis, call_shown separate, List.flatten_cons, List.append_assoc,
      List.append_assoc]

/-- For separate secrets, the calls for the chunks of a text and a last one show what one call
for the whole text shows: the text with every occurrence of a secret, and a start of a secret at
its end, replaced by the marker. -/
theorem stream_redacted_whole (secrets chunks : List (List Char)) (last : List Char)
    (separate : Separate secrets) :
    reader secrets [] chunks last = (redactStream (chunks.flatten ++ last) [] secrets true).1 ∧
      (redactStream (chunks.flatten ++ last) [] secrets true).1 =
        hideSecrets secrets (chunks.flatten ++ last) := by
  constructor
  · rw [reader_shown separate, finish_shown separate]
  · exact finish_shown separate _ []

/-- Two secrets in three chunks, of which one is cut by a boundary and the other by the end of
the text. -/
theorem stream_redacted_whole_cut :
    reader ["hunter2key".toList, "open-sesame".toList] []
        ["a hunt".toList, "er2key, open".toList, "-ses".toList] [] =
      "a [REDACTED], [REDACTED]".toList := by
  have separate : Separate ["hunter2key".toList, "open-sesame".toList] :=
    ⟨by decide, by decide, by decide, by decide⟩
  obtain ⟨same, whole⟩ := stream_redacted_whole ["hunter2key".toList, "open-sesame".toList]
    ["a hunt".toList, "er2key, open".toList, "-ses".toList] [] separate
  rw [same, whole]
  decide

end OpencodePty.WholeRedaction
