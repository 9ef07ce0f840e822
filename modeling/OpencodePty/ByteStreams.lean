import Mathlib.Algebra.GroupWithZero.Nat
import Mathlib.Data.List.Basic

/-!
# Streams that are read in pieces

A reader appends what it reads to a buffer, until the buffer decides. Where more bytes never change
what a buffer has decided, the result does not depend on how the stream is cut into reads: it is
what the whole stream decides, and nothing that follows is lost.

A frame is the length of a payload, as a number with a fixed count of digits to the base of 256,
and the payload. A stream of frames that ends somewhere yields the frames that are whole in it, and
nothing of the one that is cut.
-/

namespace OpencodePty.ByteStreams

universe u v

/-! ## Reading until a buffer decides -/

section Reads

variable {α : Type u} {Result : Type v} (decide : List α → Option Result)

/-- The result with the buffer that decided and the reads that are left, or nothing where the stream
ends first. -/
def readUntil : List α → List (List α) → Option (Result × List α × List (List α))
  | buffer, [] => (decide buffer).map (·, buffer, [])
  | buffer, read :: reads =>
    match decide buffer with
    | some result => some (result, buffer, read :: reads)
    | none => readUntil (buffer ++ read) reads

/-- More of a stream never changes what its beginning has decided. -/
def Stable (stream : List α) : Prop :=
  ∀ before after result, before ++ after <+: stream → decide before = some result →
    decide (before ++ after) = some result

variable {decide}

theorem readUntil_decided {buffer : List α} {result : Result} (decided : decide buffer = some result)
    (reads : List (List α)) : readUntil decide buffer reads = some (result, buffer, reads) := by
  cases reads with
  | nil => rw [readUntil, decided, Option.map_some]
  | cons read reads => rw [readUntil, decided]

/-- The buffer that decided and the reads that are left are the stream. -/
theorem readUntil_some {buffer before : List α} {reads rest : List (List α)} {result : Result}
    (found : readUntil decide buffer reads = some (result, before, rest)) :
    decide before = some result ∧ before ++ rest.flatten = buffer ++ reads.flatten := by
  induction reads generalizing buffer with
  | nil =>
    obtain ⟨_, decided, ⟨⟩⟩ := Option.map_eq_some_iff.mp found
    exact ⟨decided, rfl⟩
  | cons read reads inductionHypothesis =>
    cases decided : decide buffer with
    | some known =>
      rw [readUntil_decided decided] at found
      cases found
      exact ⟨decided, rfl⟩
    | none =>
      rw [readUntil, decided] at found
      obtain ⟨decides, same⟩ := inductionHypothesis found
      exact ⟨decides, by rw [same, List.flatten_cons, List.append_assoc]⟩

/-- However a stream is cut into reads, the result is what the whole of it decides. -/
theorem readUntil_whole {buffer : List α} {reads : List (List α)}
    (stable : Stable decide (buffer ++ reads.flatten)) :
    (readUntil decide buffer reads).map Prod.fst = decide (buffer ++ reads.flatten) := by
  induction reads generalizing buffer with
  | nil =>
    rw [readUntil, List.flatten_nil, List.append_nil, Option.map_map]
    exact Option.map_id'
  | cons read reads inductionHypothesis =>
    cases decided : decide buffer with
    | some result =>
      rw [readUntil_decided decided, Option.map_some]
      exact (stable buffer _ result (List.prefix_refl _) decided).symm
    | none =>
      have same : buffer ++ read ++ reads.flatten = buffer ++ (read :: reads).flatten := by
        rw [List.flatten_cons, List.append_assoc]
      rw [readUntil, decided, ← same]
      exact inductionHypothesis (same ▸ stable)

end Reads

/-! ## Numbers of a fixed width -/

/-- The digits of a number to the base of 256, the first of which is the highest. -/
def bigEndian : Nat → Nat → List UInt8
  | 0, _ => []
  | width + 1, number => bigEndian width (number / 256) ++ [number.toUInt8]

def ofBigEndian (digits : List UInt8) : Nat :=
  digits.foldl (fun number digit => number * 256 + digit.toNat) 0

@[simp] theorem length_bigEndian (width number : Nat) : (bigEndian width number).length = width := by
  induction width generalizing number with
  | zero => rfl
  | succ width inductionHypothesis => simp [bigEndian, inductionHypothesis]

theorem ofBigEndian_bigEndian (width number : Nat) :
    ofBigEndian (bigEndian width number) = number % 256 ^ width := by
  induction width generalizing number with
  | zero => simp [bigEndian, ofBigEndian, Nat.mod_one]
  | succ width inductionHypothesis =>
    have low : number.toUInt8.toNat = number % 256 := by simp
    calc ofBigEndian (bigEndian (width + 1) number)
        = ofBigEndian (bigEndian width (number / 256)) * 256 + number.toUInt8.toNat := by
          rw [bigEndian, ofBigEndian, List.foldl_append]
          rfl
      _ = number / 256 % 256 ^ width * 256 + number % 256 := by rw [inductionHypothesis, low]
      _ = number % 256 ^ (width + 1) := by
          rw [Nat.pow_succ', Nat.mod_mul, Nat.mul_comm, Nat.add_comm]

/-! ## Frames -/

/-- So many symbols of a stream, and what is left. -/
def exactly {α : Type u} (count : Nat) (stream : List α) : Option (List α × List α) :=
  if count ≤ stream.length then some (stream.take count, stream.drop count) else none

/-- Where a stream ends after a number of symbols, its front is read if it is whole. -/
theorem exactly_take {α : Type u} (front rest : List α) (number : Nat) :
    exactly front.length ((front ++ rest).take number) =
      if front.length ≤ number then some (front, rest.take (number - front.length)) else none := by
  by_cases whole : front.length ≤ number
  · have split : (front ++ rest).take number = front ++ rest.take (number - front.length) := by
      rw [List.take_append, List.take_of_length_le whole]
    rw [split, if_pos whole, exactly, if_pos (by simp), List.take_left, List.drop_left]
  · rw [if_neg whole, exactly, if_neg]
    rw [List.length_take]
    omega

/-- A payload behind its length. -/
def framed (width : Nat) (payload : List UInt8) : List UInt8 :=
  bigEndian width payload.length ++ payload

theorem length_framed (width : Nat) (payload : List UInt8) :
    (framed width payload).length = width + payload.length := by
  simp [framed]

/-- The length of a payload that is not too long is read back. -/
theorem ofBigEndian_length {width : Nat} {payload : List UInt8}
    (small : payload.length < 256 ^ width) :
    ofBigEndian (bigEndian width payload.length) = payload.length := by
  rw [ofBigEndian_bigEndian, Nat.mod_eq_of_lt small]

/-- How many frames are whole in the first bytes of them. -/
def wholeFrames : Nat → List (List UInt8) → Nat
  | _, [] => 0
  | number, frame :: frames =>
    if frame.length ≤ number then wholeFrames (number - frame.length) frames + 1 else 0

end OpencodePty.ByteStreams
