import Mathlib.Data.List.DropRight
import Mathlib.Data.List.TakeDrop
import Mathlib.Logic.Function.Basic
import OpencodePty.RecordChecks
import OpencodePty.Transitions

/-!
# The ownership secret

The daemon and its clients derive the credentials of an owner from a secret in a file of the
data directory. A call reads the file, and where there is none it draws a secret and creates
the file exclusively. The file is written after it was created, so that other calls can read a
part of the secret, and a call can end at any point. All calls that return a secret return the
same one, by any order of their operations. Where a creation was cut off no call returns one.
-/

namespace OpencodePty.OwnershipSecrets

open OpencodePty.JsValues OpencodePty.RecordChecks OpencodePty.Transitions

/-- What `trim` removes: white space and the ends of lines. -/
def isTrimmed (unit : UInt16) : Bool :=
  (9 ≤ unit && unit ≤ 13) || unit == 32 || unit == 0xa0 || unit == 0x1680 ||
    (0x2000 ≤ unit && unit ≤ 0x200a) || unit == 0x2028 || unit == 0x2029 || unit == 0x202f ||
    unit == 0x205f || unit == 0x3000 || unit == 0xfeff

def trim (text : JsString) : JsString := (text.dropWhile isTrimmed).rdropWhile isTrimmed

/-- `/^[a-f0-9]{64}$/` -/
def isSecret (text : JsString) : Bool := text.length == 64 && text.all isHexDigit

/-- The digits of two UUIDs. -/
structure Secret where
  text : JsString
  valid : isSecret text = true

/-- Where a call stands. -/
inductive Stage where
  | idle
  | reading
  /-- No file was there: create it. -/
  | creating (secret : JsString)
  /-- The file is created and holds a part of the secret. -/
  | writing (secret : JsString) (written : Nat)
  /-- The secret is written: sync the file and the directory. -/
  | syncing (secret : JsString)
  | answered (secret : JsString)
  | failed
  deriving DecidableEq

inductive Event where
  | start
  /-- Read the file, or draw a secret where there is none. -/
  | read (drawn : Secret)
  | create
  /-- Some more of the secret is written. -/
  | write (length : Nat)
  | written
  | sync
  | fail

/-- The file and all calls, in whichever processes. -/
structure System where
  file : Option JsString
  calls : Nat → Stage

namespace System

variable (system : System)

def goto (call : Nat) (stage : Stage) : System :=
  { system with calls := Function.update system.calls call stage }

/-- A piece is written to the file at a position. -/
def writeAt (position : Nat) (piece : JsString) : System :=
  { system with
    file := system.file.map fun content =>
      content.take position ++ piece ++ content.drop (position + piece.length) }

/-- The next operation of a call. An event that cannot happen now changes nothing. -/
def react (call : Nat) : Stage → Event → System
  | .idle, .start => system.goto call .reading
  | .reading, .read drawn =>
    match system.file with
    | none => system.goto call (.creating drawn.text)
    | some content =>
      if isSecret (trim content) then system.goto call (.answered (trim content))
      else system.goto call .failed
  | .creating secret, .create =>
    match system.file with
    | none => { system with file := some [] }.goto call (.writing secret 0)
    | some _ => system.goto call .reading
  | .writing secret written, .write length =>
    (system.writeAt written ((secret.drop written).take length)).goto call
      (.writing secret (written + length))
  | .writing secret written, .written =>
    if secret.length ≤ written then system.goto call (.syncing secret) else system
  | .syncing secret, .sync => system.goto call (.answered secret)
  | .reading, .fail | .creating _, .fail | .writing _ _, .fail | .syncing _, .fail =>
    system.goto call .failed
  | _, _ => system

def step (input : Nat × Event) : System := system.react input.1 (system.calls input.1) input.2

end System

/-! ## Secrets and what of them is written -/

theorem digit_not_trimmed {unit : UInt16} (digit : isHexDigit unit = true) :
    isTrimmed unit = false := by
  simp only [isHexDigit, TextEncodings.isDigit, Bool.or_eq_true, Bool.and_eq_true,
    decide_eq_true_eq, UInt16.le_iff_toNat_le] at digit
  simp only [isTrimmed, Bool.or_eq_false_iff, Bool.and_eq_false_iff, decide_eq_false_iff_not,
    beq_eq_false_iff_ne, ne_eq, ← UInt16.toNat_inj, UInt16.le_iff_toNat_le]
  simp only [UInt16.reduceToNat] at digit ⊢
  omega

/-- Digits have nothing around them that is trimmed. -/
theorem trim_digits {text : JsString} (digits : text.all isHexDigit = true) : trim text = text := by
  have kept : ∀ unit ∈ text, isTrimmed unit = false := fun unit inside =>
    digit_not_trimmed (List.all_eq_true.mp digits unit inside)
  have front : text.dropWhile isTrimmed = text := by
    cases text with
    | nil => rfl
    | cons unit rest => simp [kept unit List.mem_cons_self]
  rw [trim, front, List.rdropWhile_eq_self_iff]
  intro nonempty trimmed
  rw [kept _ (List.getLast_mem nonempty)] at trimmed
  cases trimmed

theorem isSecret_iff {text : JsString} :
    isSecret text = true ↔ text.length = 64 ∧ text.all isHexDigit = true := by
  simp [isSecret]

/-- A part of a secret that is read as a secret is the whole. -/
theorem whole_of_read {secret : JsString} (valid : isSecret secret = true) {written : Nat}
    (read : isSecret (trim (secret.take written)) = true) : secret.take written = secret := by
  obtain ⟨length, digits⟩ := isSecret_iff.mp valid
  have part : (secret.take written).all isHexDigit = true := by
    rw [List.all_eq_true] at digits ⊢
    exact fun unit inside => digits unit (List.mem_of_mem_take inside)
  rw [trim_digits part] at read
  have full := (isSecret_iff.mp read).1
  rw [List.length_take] at full
  exact List.take_of_length_le (by omega)

/-! ## What holds of the calls -/

/-- The secret that a call has drawn. -/
def Stage.drawn : Stage → Option JsString
  | .creating secret | .writing secret _ | .syncing secret => some secret
  | _ => none

/-- What a call knows: one that writes has created the file, which holds what it has written so
far, and whoever has a secret has it from the file. -/
structure Knows (file : Option JsString) (stage : Stage) : Prop where
  valid : ∀ secret, stage.drawn = some secret → isSecret secret = true
  writing : ∀ secret written, stage = .writing secret written → file = some (secret.take written)
  syncing : ∀ secret, stage = .syncing secret → file = some secret
  answered : ∀ secret, stage = .answered secret → isSecret secret = true ∧
    ∃ content, file = some content ∧ trim content = secret

/-- What all calls know, of which one at most writes. -/
structure Agreed (system : System) : Prop where
  knows : ∀ call, Knows system.file (system.calls call)
  single : ∀ first second secret other written length,
    system.calls first = .writing secret written → system.calls second = .writing other length →
      first = second

theorem agreed_idle {system : System} (idle : ∀ call, system.calls call = .idle) :
    Agreed system := by
  refine ⟨fun call => ?_, ?_⟩
  · rw [idle call]
    exact ⟨by simp [Stage.drawn], by simp, by simp, by simp⟩
  · simp [idle]

section
variable {system : System} {call : Nat}

/-- A call goes on, and what the others know of the file stays true. -/
theorem Agreed.move (agreed : Agreed system) {file : Option JsString} {stage : Stage}
    (knows : Knows file stage)
    (others : ∀ other, other ≠ call → Knows file (system.calls other))
    (single : ∀ secret written, stage = .writing secret written →
      ∀ other, other ≠ call → ∀ secret written, system.calls other ≠ .writing secret written) :
    Agreed (System.goto { system with file := file } call stage) := by
  have self : (System.goto { system with file := file } call stage).calls call = stage := by
    simp [System.goto]
  have away (other : Nat) (different : other ≠ call) :
      (System.goto { system with file := file } call stage).calls other = system.calls other := by
    simp [System.goto, different]
  refine ⟨fun other => ?_, ?_⟩
  · by_cases same : other = call
    · subst same
      rw [self]
      exact knows
    · rw [away other same]
      exact others other same
  · intro first second secret other written length one two
    by_cases mine : first = call
    · by_cases yours : second = call
      · rw [mine, yours]
      · rw [mine, self] at one
        rw [away second yours] at two
        exact absurd two (single secret written one second yours other length)
    · rw [away first mine] at one
      by_cases yours : second = call
      · rw [yours, self] at two
        exact absurd one (single other length two first mine secret written)
      · rw [away second yours] at two
        exact agreed.single first second secret other written length one two

/-- A call goes on where the file stays. -/
theorem Agreed.goto (agreed : Agreed system) {stage : Stage} (knows : Knows system.file stage)
    (quiet : ∀ secret written, stage ≠ .writing secret written) :
    Agreed (system.goto call stage) :=
  agreed.move knows (fun other _ => agreed.knows other)
    (fun secret written same => absurd same (quiet secret written))

/-- A call that knows nothing. -/
theorem Knows.nothing {file : Option JsString} {stage : Stage}
    (quiet : stage = .idle ∨ stage = .reading ∨ stage = .failed) : Knows file stage := by
  rcases quiet with rfl | rfl | rfl
  · exact ⟨by simp [Stage.drawn], by simp, by simp, by simp⟩
  · exact ⟨by simp [Stage.drawn], by simp, by simp, by simp⟩
  · exact ⟨by simp [Stage.drawn], by simp, by simp, by simp⟩

/-- Where there is no file, a call knows of none. -/
theorem Knows.created {stage : Stage} (knows : Knows none stage) (file : Option JsString) :
    Knows file stage := by
  refine ⟨knows.valid, ?_, ?_, ?_⟩
  · exact fun secret written same => absurd (knows.writing secret written same) (by simp)
  · exact fun secret same => absurd (knows.syncing secret same) (by simp)
  · intro secret same
    obtain ⟨_, content, absent, _⟩ := knows.answered secret same
    cases absent

/-- What another call knows of the file stays true when the file's creator writes on: a secret
that is read as one is written as a whole. -/
theorem Knows.extended {stage : Stage} {secret : JsString} {written : Nat}
    (valid : isSecret secret = true) (knows : Knows (some (secret.take written)) stage)
    (quiet : ∀ secret written, stage ≠ .writing secret written) (length : Nat) :
    Knows (some (secret.take (written + length))) stage := by
  -- What holds of a whole secret holds when no more can be written.
  have still (whole : secret.take written = secret) :
      secret.take (written + length) = secret.take written := by
    have enough : secret.length ≤ written := List.take_eq_self_iff _ |>.mp whole
    rw [whole, List.take_of_length_le (by omega)]
  refine ⟨knows.valid, fun secret written same => absurd same (quiet secret written), ?_, ?_⟩
  · intro synced same
    have file := knows.syncing synced same
    rw [Option.some_inj] at file
    have drawn : isSecret synced = true := knows.valid synced (by rw [same]; rfl)
    have digits : synced.all isHexDigit = true := (isSecret_iff.mp drawn).2
    have whole := whole_of_read valid (by rw [file, trim_digits digits]; exact drawn)
    rw [still whole, file]
  · intro answer same
    obtain ⟨secretly, content, file, trimmed⟩ := knows.answered answer same
    rw [Option.some_inj] at file
    have whole := whole_of_read valid (by rw [file, trimmed]; exact secretly)
    exact ⟨secretly, content, by rw [still whole, file], trimmed⟩

/-- The creator of the file appends to what it has written. -/
theorem writeAt_appends {system : System} {secret : JsString} {written : Nat}
    (file : system.file = some (secret.take written)) (length : Nat) :
    system.writeAt written ((secret.drop written).take length) =
      { system with file := some (secret.take (written + length)) } := by
  have behind : (secret.take written).drop (written + ((secret.drop written).take length).length) =
      [] := by
    apply List.drop_eq_nil_of_le
    rw [List.length_take]
    omega
  have here : (secret.take written).take written = secret.take written := by
    rw [List.take_take, Nat.min_self]
  simp only [System.writeAt, file, Option.map_some, here, behind, List.append_nil, List.take_add]

/-- An event of a call keeps what the calls know. -/
theorem step_agreed (agreed : Agreed system) (input : Nat × Event) :
    Agreed (system.step input) := by
  obtain ⟨call, event⟩ := input
  simp only [System.step]
  cases stage : system.calls call with
  | idle =>
    cases event with
    | start => exact agreed.goto (.nothing (.inr (.inl rfl))) (by simp)
    | _ => exact agreed
  | reading =>
    cases event with
    | read drawn =>
      simp only [System.react]
      split
      next absent =>
        refine agreed.goto ⟨?_, by simp, by simp, by simp⟩ (by simp)
        rintro secret ⟨rfl⟩
        exact drawn.valid
      next content present =>
        split
        next valid =>
          refine agreed.goto ⟨by simp [Stage.drawn], by simp, by simp, ?_⟩ (by simp)
          rintro secret ⟨rfl⟩
          exact ⟨valid, content, present, rfl⟩
        next => exact agreed.goto (.nothing (.inr (.inr rfl))) (by simp)
    | fail => exact agreed.goto (.nothing (.inr (.inr rfl))) (by simp)
    | _ => exact agreed
  | creating secret =>
    have known := agreed.knows call
    rw [stage] at known
    cases event with
    | create =>
      simp only [System.react]
      split
      next absent =>
        refine agreed.move ⟨?_, ?_, by simp, by simp⟩ ?_ ?_
        · exact known.valid
        · rintro secret written ⟨rfl, rfl⟩
          rfl
        · intro other _
          have knows := agreed.knows other
          rw [absent] at knows
          exact knows.created _
        · intro _ _ _ other _ secret written writes
          have file := (agreed.knows other).writing secret written writes
          rw [absent] at file
          cases file
      next => exact agreed.goto (.nothing (.inr (.inl rfl))) (by simp)
    | fail => exact agreed.goto (.nothing (.inr (.inr rfl))) (by simp)
    | _ => exact agreed
  | writing secret written =>
    have known := agreed.knows call
    rw [stage] at known
    have valid : isSecret secret = true := known.valid secret rfl
    have file : system.file = some (secret.take written) := known.writing secret written rfl
    cases event with
    | write length =>
      have alone (other : Nat) (different : other ≠ call) (secret : JsString) (written : Nat) :
          system.calls other ≠ .writing secret written := fun writes =>
        different (agreed.single other call secret _ written _ writes stage)
      simp only [System.react]
      rw [writeAt_appends file]
      refine agreed.move ⟨?_, ?_, by simp, by simp⟩ ?_ (fun _ _ _ => alone)
      · rintro secret' ⟨rfl⟩
        exact valid
      · rintro secret' written' ⟨rfl, rfl⟩
        rfl
      · intro other different
        have knows := agreed.knows other
        rw [file] at knows
        exact knows.extended valid (alone other different) length
    | written =>
      simp only [System.react]
      split
      next enough =>
        refine agreed.goto ⟨?_, by simp, ?_, by simp⟩ (by simp)
        · rintro secret' ⟨rfl⟩
          exact valid
        · rintro secret' ⟨rfl⟩
          rw [file, List.take_of_length_le enough]
      next => exact agreed
    | fail => exact agreed.goto (.nothing (.inr (.inr rfl))) (by simp)
    | _ => exact agreed
  | syncing secret =>
    have known := agreed.knows call
    rw [stage] at known
    have valid : isSecret secret = true := known.valid secret rfl
    cases event with
    | sync =>
      refine agreed.goto ⟨by simp [Stage.drawn], by simp, by simp, ?_⟩ (by simp)
      rintro answer ⟨rfl⟩
      exact ⟨valid, secret, known.syncing secret rfl, trim_digits (isSecret_iff.mp valid).2⟩
    | fail => exact agreed.goto (.nothing (.inr (.inr rfl))) (by simp)
    | _ => exact agreed
  | answered | failed => cases event <;> exact agreed

end

/-- All calls that return a secret return the one that the file holds, whatever the order of
their operations, and wherever calls end in between. -/
theorem ownership_secret_agrees {start : System} (idle : ∀ call, start.calls call = .idle)
    (events : List (Nat × Event)) :
    ∃ secret, ∀ call answer, (run System.step start events).calls call = .answered answer →
      answer = secret ∧ isSecret secret = true ∧
        (run System.step start events).file.map trim = some secret := by
  have agreed : Agreed (run System.step start events) :=
    @run_preserves System (Nat × Event) System.step Agreed
      (fun _ input now => step_agreed now input) start events (agreed_idle idle)
  cases file : (run System.step start events).file with
  | none =>
    refine ⟨[], fun call answer same => ?_⟩
    obtain ⟨_, content, present, _⟩ := (agreed.knows call).answered answer same
    rw [file] at present
    cases present
  | some content =>
    refine ⟨trim content, fun call answer same => ?_⟩
    obtain ⟨valid, content', present, trimmed⟩ := (agreed.knows call).answered answer same
    rw [file, Option.some_inj] at present
    rw [present, trimmed]
    exact ⟨rfl, valid, by simp [trimmed]⟩

/-- A secret of zeros. -/
def zeros : Secret := ⟨List.replicate 64 0x30, by decide⟩

/-- Two calls find no file. The first one creates it, the second one reads what is written. -/
def twoCalls : List (Nat × Event) :=
  [(0, .start), (1, .start), (0, .read zeros), (1, .read ⟨List.replicate 64 0x61, by decide⟩),
    (0, .create), (1, .create), (0, .write 64), (1, .read zeros), (0, .written), (0, .sync)]

/-- Both are answered with the secret that the first one drew. -/
theorem ownership_secret_agrees_for_two :
    (run System.step ⟨none, fun _ => .idle⟩ twoCalls).calls 0 = .answered zeros.text ∧
      (run System.step ⟨none, fun _ => .idle⟩ twoCalls).calls 1 = .answered zeros.text ∧
      ∃ secret, ∀ call answer,
        (run System.step ⟨none, fun _ => .idle⟩ twoCalls).calls call = .answered answer →
        answer = secret ∧ isSecret secret = true ∧
          (run System.step ⟨none, fun _ => .idle⟩ twoCalls).file.map trim = some secret := by
  refine ⟨by decide, by decide, ?_⟩
  exact ownership_secret_agrees (fun _ => rfl) twoCalls

/-- A call that has neither written the file nor got a secret. -/
def Stage.unserved : Stage → Bool
  | .idle | .reading | .creating _ | .failed => true
  | _ => false

/-- A step of a call that does not write leaves a file without a secret, and no call gets one. -/
theorem step_unserved {system : System} {content : JsString} (file : system.file = some content)
    (cut : isSecret (trim content) = false) {input : Nat × Event}
    (unserved : (system.calls input.1).unserved = true) :
    (system.step input).file = some content ∧
      ((system.step input).calls input.1).unserved = true ∧
      ∀ other, other ≠ input.1 → (system.step input).calls other = system.calls other := by
  obtain ⟨call, event⟩ := input
  have goto (stage : Stage) (quiet : stage.unserved = true) :
      (system.goto call stage).file = some content ∧
        ((system.goto call stage).calls call).unserved = true ∧
        ∀ other, other ≠ call → (system.goto call stage).calls other = system.calls other := by
    refine ⟨file, by simpa [System.goto] using quiet, ?_⟩
    intro other different
    simp [System.goto, different]
  have stay : system.file = some content ∧ (system.calls call).unserved = true ∧
      ∀ other, other ≠ call → system.calls other = system.calls other :=
    ⟨file, unserved, fun _ _ => rfl⟩
  simp only [System.step]
  cases stage : system.calls call with
  | idle =>
    cases event with
    | start => exact goto .reading rfl
    | _ => exact stay
  | reading =>
    cases event with
    | read drawn =>
      simp only [System.react, file, cut, Bool.false_eq_true, if_false]
      exact goto .failed rfl
    | fail => exact goto .failed rfl
    | _ => exact stay
  | creating secret =>
    cases event with
    | create =>
      simp only [System.react, file]
      exact goto .reading rfl
    | fail => exact goto .failed rfl
    | _ => exact stay
  | failed => cases event <;> exact stay
  | _ => simp [stage, Stage.unserved] at unserved

/-- Where the call that created the file ended before all of the secret was written, the file
stays as it is and no call ever returns a secret. -/
theorem cut_creation_is_final {start : System} (idle : ∀ call, start.calls call = .idle)
    (before later : List (Nat × Event)) {content : JsString}
    (file : (run System.step start before).file = some content)
    (cut : isSecret (trim content) = false)
    (ended : ∀ input ∈ later, ∀ secret written,
      (run System.step start before).calls input.1 ≠ .writing secret written) :
    (run System.step start (before ++ later)).file = some content ∧
      ∀ call answer,
        (run System.step start (before ++ later)).calls call ≠ .answered answer := by
  have agreed : Agreed (run System.step start before) :=
    @run_preserves System (Nat × Event) System.step Agreed
      (fun _ input now => step_agreed now input) start before (agreed_idle idle)
  have unserved (call : Nat) : ((run System.step start before).calls call).unserved = true ∨
      ∃ secret written, (run System.step start before).calls call = .writing secret written := by
    have known := agreed.knows call
    cases stage : (run System.step start before).calls call with
    | writing secret written => exact .inr ⟨secret, written, rfl⟩
    | syncing secret =>
      rw [stage] at known
      have whole := known.syncing secret rfl
      have valid : isSecret secret = true := known.valid secret rfl
      rw [file, Option.some_inj] at whole
      rw [whole, trim_digits (isSecret_iff.mp valid).2, valid] at cut
      cases cut
    | answered secret =>
      rw [stage] at known
      obtain ⟨valid, other, present, trimmed⟩ := known.answered secret rfl
      rw [file, Option.some_inj] at present
      rw [present, trimmed, valid] at cut
      cases cut
    | idle | reading | creating | failed => exact .inl rfl
  rw [run_append]
  revert file ended unserved
  generalize run System.step start before = system
  clear agreed
  intro file ended unserved
  induction later generalizing system with
  | nil =>
    refine ⟨file, fun call answer same => ?_⟩
    rw [run_nil] at same
    rcases unserved call with quiet | ⟨secret, written, writes⟩
    · rw [same] at quiet
      cases quiet
    · rw [same] at writes
      cases writes
  | cons input rest inductionHypothesis =>
    have quiet : (system.calls input.1).unserved = true := by
      rcases unserved input.1 with quiet | ⟨secret, written, writes⟩
      · exact quiet
      · exact absurd writes (ended input List.mem_cons_self secret written)
    obtain ⟨stays, mine, others⟩ := step_unserved file cut quiet
    rw [run_cons]
    refine inductionHypothesis (system.step input) stays ?_ ?_
    · intro other inside secret written writes
      by_cases same : other.1 = input.1
      · rw [same] at writes
        rw [writes] at mine
        cases mine
      · rw [others other.1 same] at writes
        exact ended other (List.mem_cons_of_mem _ inside) secret written writes
    · intro call
      by_cases same : call = input.1
      · rw [same]
        exact .inl mine
      · rw [others call same]
        exact unserved call

/-- A creation ends after half of the secret is written. A later call fails. -/
theorem cut_creation_is_final_for_half :
    (run System.step ⟨none, fun _ => .idle⟩
      ([(0, .start), (0, .read zeros), (0, .create), (0, .write 32)] ++
        [(1, .start), (1, .read zeros)])).file = some (List.replicate 32 0x30) ∧
      ∀ call answer, (run System.step ⟨none, fun _ => .idle⟩
        ([(0, .start), (0, .read zeros), (0, .create), (0, .write 32)] ++
          [(1, .start), (1, .read zeros)])).calls call ≠ .answered answer := by
  refine cut_creation_is_final (fun _ => rfl) _ _ (by decide) (by decide) ?_
  intro input inside secret written
  simp only [List.mem_cons, List.not_mem_nil, or_false] at inside
  rcases inside with rfl | rfl
  · exact Stage.noConfusion
  · exact Stage.noConfusion

end OpencodePty.OwnershipSecrets
