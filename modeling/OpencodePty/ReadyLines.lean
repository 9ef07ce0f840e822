import OpencodePty.ByteStreams
import OpencodePty.TextEncodings
import Mathlib.Data.List.Dedup

/-!
# The line of a ready worker

A worker prints a line when it listens, and the daemon reads its output until it has the line. What
comes behind the line is kept for the one who looks for a receipt. However the output is cut into
reads, the daemon finds the line if the output stays below its limit, and loses nothing behind it.

The reads are those that come before the deadline. What `toString` and `JSON.parse` make of a line is
a parameter.
-/

namespace OpencodePty.ReadyLines

open JsValues ByteStreams TextEncodings

def maxReadyFrameBytes : Nat := 1024 * 1024

/-- What was read and not used, and the reads to come. -/
structure WorkerStdout where
  buffered : List UInt8
  reads : List (List UInt8)

/-- What is still to be used. -/
def WorkerStdout.output (stdout : WorkerStdout) : List UInt8 :=
  stdout.buffered ++ stdout.reads.flatten

/-- The record has `ready: true` and nothing else. -/
def isReady : Js → Bool
  | .obj fields =>
    (fields.map Prod.fst).dedup.length = 1 && isBool (fields.lookup "ready") true
  | _ => false

variable (parse : List UInt8 → Option Js)

/-- What the loop of `readReady` makes of its buffer: whether the worker is ready, and where the line
ends. Nothing is found where the buffer is too long. -/
def verdict (buffered : List UInt8) : Option (Bool × Option Nat) :=
  if maxReadyFrameBytes < buffered.length then some (false, none)
  else
    (buffered.idxOf? 10).map fun newline =>
      ((parse (buffered.take newline)).any isReady, some newline)

def readReady (stdout : WorkerStdout) : Bool × WorkerStdout :=
  match readUntil (verdict parse) stdout.buffered stdout.reads with
  | some ((ready, some newline), buffered, reads) => (ready, ⟨buffered.drop (newline + 1), reads⟩)
  | some ((ready, none), _, reads) => (ready, ⟨[], reads⟩)
  | none => (false, ⟨[], []⟩)

def readStdout (stdout : WorkerStdout) : Option (List UInt8) × WorkerStdout :=
  if stdout.buffered ≠ [] then (some stdout.buffered, { stdout with buffered := [] })
  else
    match stdout.reads with
    | [] => (none, stdout)
    | read :: reads => (some read, { stdout with reads })

variable {parse}

/-- What a read takes is what comes next. -/
theorem readStdout_output (stdout : WorkerStdout) :
    (readStdout stdout).1.getD [] ++ (readStdout stdout).2.output = stdout.output := by
  obtain ⟨buffered, reads⟩ := stdout
  by_cases empty : buffered = []
  · cases reads <;> simp [readStdout, WorkerStdout.output, empty]
  · simp [readStdout, WorkerStdout.output, empty]

theorem idxOf_line {line : List UInt8} (single : 10 ∉ line) (rest : List UInt8) :
    (line ++ 10 :: rest).idxOf? 10 = some line.length := by
  induction line with
  | nil => simp [List.idxOf?_cons]
  | cons byte line inductionHypothesis =>
    obtain ⟨other, later⟩ := List.ne_and_not_mem_of_not_mem_cons single
    have apart : (byte == 10) = false := by simpa using other.symm
    rw [List.cons_append, List.idxOf?_cons, apart, inductionHypothesis later]
    rfl

/-- Below the limit, a buffer with the line decides what the line does. -/
theorem verdict_line {line rest : List UInt8} (single : 10 ∉ line)
    (small : (line ++ 10 :: rest).length ≤ maxReadyFrameBytes) :
    verdict parse (line ++ 10 :: rest) = some ((parse line).any isReady, some line.length) := by
  rw [verdict, if_neg (Nat.not_lt.mpr small), idxOf_line single, Option.map_some, List.take_left]

theorem verdict_unfinished {buffered : List UInt8} (single : 10 ∉ buffered)
    (small : buffered.length ≤ maxReadyFrameBytes) : verdict parse buffered = none := by
  rw [verdict, if_neg (Nat.not_lt.mpr small), List.idxOf?_eq_none_iff.mpr single, Option.map_none]

/-- Below the limit, more output does not change what the line has decided. -/
theorem verdict_settled {output : List UInt8} (small : output.length ≤ maxReadyFrameBytes) :
    Stable (verdict parse) output := by
  intro before after result within decided
  have length : (before ++ after).length ≤ maxReadyFrameBytes := Nat.le_trans within.length_le small
  have shorter : before.length ≤ maxReadyFrameBytes := by
    rw [List.length_append] at length
    omega
  by_cases found : 10 ∈ before
  · obtain ⟨line, rest, rfl, single⟩ := List.eq_append_cons_of_mem found
    rw [verdict_line single shorter] at decided
    rw [List.append_assoc, List.cons_append] at length ⊢
    rw [verdict_line single length, decided]
  · rw [verdict_unfinished found shorter] at decided
    cases decided

/-- However the output of a worker is cut into reads that come before the deadline, the daemon finds
out from its first line whether the worker is ready, and loses nothing of what is behind it: who looks
for a receipt reads that first. -/
theorem ready_any_cut (parse : List UInt8 → Option Js) (stdout : WorkerStdout)
    {line rest : List UInt8} (single : 10 ∉ line) (split : stdout.output = line ++ 10 :: rest)
    (small : stdout.output.length ≤ maxReadyFrameBytes) :
    (readReady parse stdout).1 = (parse line).any isReady ∧
      (readReady parse stdout).2.output = rest ∧
      (readStdout (readReady parse stdout).2).1.getD [] ++
        (readStdout (readReady parse stdout).2).2.output = rest := by
  suffices found : (readReady parse stdout).1 = (parse line).any isReady ∧
      (readReady parse stdout).2.output = rest from
    ⟨found.1, found.2, (readStdout_output _).trans found.2⟩
  have whole := @readUntil_whole _ _ (verdict parse) stdout.buffered stdout.reads
    (verdict_settled small)
  rw [← WorkerStdout.output, split, verdict_line single (split ▸ small)] at whole
  obtain ⟨⟨_, buffered, reads⟩, found, rfl⟩ := Option.map_eq_some_iff.mp whole
  obtain ⟨decided, output⟩ := readUntil_some found
  rw [← WorkerStdout.output, split] at output
  have shorter : buffered.length ≤ maxReadyFrameBytes := by
    have length := congrArg List.length (split.trans output.symm)
    rw [List.length_append] at length
    omega
  have member : 10 ∈ buffered := by
    by_contra absent
    rw [verdict_unfinished absent shorter] at decided
    cases decided
  obtain ⟨front, more, rfl, alone⟩ := List.eq_append_cons_of_mem member
  rw [verdict_line alone shorter] at decided
  obtain ⟨_, ends⟩ := Prod.mk.inj (Option.some.inj decided)
  rw [List.append_assoc, List.cons_append] at output
  obtain ⟨rfl, behind⟩ := List.append_inj output (Option.some.inj ends)
  rw [readReady, found]
  refine ⟨rfl, ?_⟩
  have left : (front ++ 10 :: more).drop (front.length + 1) = more := by simp
  change (front ++ 10 :: more).drop (front.length + 1) ++ reads.flatten = rest
  rw [left]
  exact (List.cons.inj behind).2

def readyLine : List UInt8 := "\x7b\"ready\":true\x7d".toList.map fun c => c.toNat.toUInt8

/-- The line of a ready worker, cut into two reads, with the first bytes of a receipt behind it. -/
theorem ready_in_two_reads :
    let parse := fun bytes => if bytes = readyLine then some (.obj [("ready", .bool true)]) else none
    let stdout : WorkerStdout := ⟨[], [readyLine.take 5, readyLine.drop 5 ++ [10, 0, 0]]⟩
    (readReady parse stdout).1 = true ∧ (readReady parse stdout).2.output = [0, 0] ∧
      (readStdout (readReady parse stdout).2).1 = some [0, 0] := by
  intro parse stdout
  obtain ⟨answer, behind, _⟩ := @ready_any_cut parse stdout readyLine [0, 0] (by decide +kernel)
    (by decide +kernel) (by decide +kernel)
  refine ⟨?_, behind, by decide +kernel⟩
  rw [answer]
  rfl

end OpencodePty.ReadyLines
