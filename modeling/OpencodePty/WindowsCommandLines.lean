import Mathlib.Data.List.TakeWhile
import Mathlib.Tactic.Common

/-!
# Quoting and splitting a Windows command line

The worker joins the application and its arguments to one command line, each quoted where it is empty
or has a blank, a tab or a double quote. The child splits the line again by the rules of
`CommandLineToArgvW`: backslashes are special before a double quote only, and what stands before the
first argument is the program name, in which they are not special at all.

The characters that these rules look at are single code units, so that text is a list of characters
here.
-/

namespace OpencodePty.WindowsCommandLines

/-- The characters that separate arguments. -/
def isBlank (character : Char) : Bool := character == ' ' || character == '\t'

/-- The argument is empty, or has a character that separates or quotes. -/
def needsQuotes (argument : List Char) : Bool :=
  argument.isEmpty || argument.any fun character => isBlank character || character == '"'

/-- The loop of `quote_windows_arg`, after so many backslashes. -/
def quoteCharacters : Nat → List Char → List Char
  | slashes, [] => List.replicate (slashes * 2) '\\'
  | slashes, character :: rest =>
    if character = '\\' then quoteCharacters (slashes + 1) rest
    else if character = '"' then
      List.replicate (slashes * 2 + 1) '\\' ++ '"' :: quoteCharacters 0 rest
    else List.replicate slashes '\\' ++ character :: quoteCharacters 0 rest

/-- `quote_windows_arg` -/
def quoteWindowsArg (argument : List Char) : List Char :=
  if needsQuotes argument then '"' :: quoteCharacters 0 argument ++ ['"'] else argument

/-- `windows_command_line` -/
def windowsCommandLine (application : List Char) (args : List (List Char)) : List Char :=
  [' '].intercalate ((application :: args).map quoteWindowsArg)

/-! ## Splitting -/

/-- Where the splitter is: the double quotes that count, whether the character before was a double
quote, the backslashes before this place, and the argument that was begun. -/
structure Splitter where
  quotes : Nat
  inRun : Bool
  slashes : Nat
  argument : Option (List Char)
  arguments : List (List Char)

/-- Between two arguments. -/
def between (arguments : List (List Char)) : Splitter := ⟨0, false, 0, none, arguments⟩

namespace Splitter

variable (splitter : Splitter)

/-- The argument so far, without the backslashes before this place. -/
def text : List Char := splitter.argument.getD []

/-- The argument so far. -/
def whole : List Char := splitter.text ++ List.replicate splitter.slashes '\\'

/-- A double quote after another one is counted: the third is a character. After an even number of
backslashes it is counted too, after an odd number it is a character. -/
def quote : Splitter :=
  if splitter.inRun then
    if splitter.quotes + 1 = 3 then
      { splitter with quotes := 0, argument := some (splitter.text ++ ['"']) }
    else { splitter with quotes := splitter.quotes + 1 }
  else
    let kept := splitter.text ++ List.replicate (splitter.slashes / 2) '\\'
    if splitter.slashes % 2 = 0 then
      { splitter with
        quotes := splitter.quotes + 1, inRun := true, slashes := 0, argument := some kept }
    else { splitter with inRun := true, slashes := 0, argument := some (kept ++ ['"']) }

/-- The quotes that count behind a run of double quotes. -/
def settled : Nat := if splitter.inRun && splitter.quotes == 2 then 0 else splitter.quotes

/-- The line ends. -/
def close : Splitter :=
  match splitter.argument with
  | none => between splitter.arguments
  | some _ => between (splitter.arguments ++ [splitter.whole])

/-- One character of the line is read. -/
def step (character : Char) : Splitter :=
  if character = '"' then splitter.quote
  else if isBlank character && splitter.settled == 0 then splitter.close
  else if character = '\\' then
    { splitter with
      quotes := splitter.settled
      inRun := false
      slashes := splitter.slashes + 1
      argument := some splitter.text }
  else
    { splitter with
      quotes := splitter.settled
      inRun := false
      slashes := 0
      argument := some (splitter.whole ++ [character]) }

end Splitter

/-- The line is read behind arguments that are complete. -/
def splitFrom (arguments : List (List Char)) (line : List Char) : Splitter :=
  line.foldl Splitter.step (between arguments)

/-- The arguments of a line. -/
def splitArguments (line : List Char) : List (List Char) := (splitFrom [] line).close.arguments

/-- The program name, and what stands behind it. -/
def programName : List Char → List Char × List Char
  | '"' :: rest => (rest.takeWhile (· != '"'), (rest.dropWhile (· != '"')).tail)
  | line => (line.takeWhile fun character => !isBlank character,
      line.dropWhile fun character => !isBlank character)

/-- `CommandLineToArgvW` -/
def commandLineToArgv (line : List Char) : List (List Char) :=
  (programName line).1 :: splitArguments (programName line).2

/-! ## One argument -/

/-- An argument that needs no quotes has no blank and no quote, and is not empty. -/
theorem not_needed {argument : List Char} (plain : needsQuotes argument = false) :
    argument ≠ [] ∧ ∀ character ∈ argument, isBlank character = false ∧ character ≠ '"' := by
  simpa [needsQuotes] using plain

/-- An argument was read to its end: no region is open. -/
structure Ended (arguments : List (List Char)) (text : List Char) (splitter : Splitter) : Prop where
  arguments : splitter.arguments = arguments
  begun : splitter.argument ≠ none
  whole : splitter.whole = text
  outside : splitter.settled = 0

/-- At the end of the line an argument that ended is added. -/
theorem ended_close {arguments : List (List Char)} {text : List Char} {splitter : Splitter}
    (ended : Ended arguments text splitter) : splitter.close = between (arguments ++ [text]) := by
  obtain ⟨begun, argument⟩ := Option.ne_none_iff_exists'.mp ended.begun
  rw [Splitter.close, argument]
  simp only [ended.arguments, ended.whole]

/-- At a blank an argument that ended is added. -/
theorem ended_blank {arguments : List (List Char)} {text : List Char} {splitter : Splitter}
    (ended : Ended arguments text splitter) :
    splitter.step ' ' = between (arguments ++ [text]) := by
  rw [← ended_close ended, Splitter.step, if_neg (by decide), if_pos]
  rw [ended.outside]
  rfl

/-- An argument was read so far, with backslashes behind its text: outside a region where `quotes`
is zero, and inside one where it is one. -/
structure Reads (quotes : Nat) (arguments : List (List Char)) (text : List Char) (slashes : Nat)
    (splitter : Splitter) : Prop where
  arguments : splitter.arguments = arguments
  text : splitter.text = text
  slashes : splitter.slashes = slashes
  settled : splitter.settled = quotes
  begun : splitter.argument = none → splitter.slashes = 0 ∧ quotes = 0
  run : splitter.inRun = true → splitter.slashes = 0

section Steps

variable {quotes slashes : Nat} {arguments : List (List Char)} {text : List Char}
  {splitter : Splitter}

/-- Between two arguments nothing of the next one is read. -/
theorem reads_between (arguments : List (List Char)) :
    Reads 0 arguments [] 0 (between arguments) := by
  constructor
  · rfl
  · rfl
  · rfl
  · rfl
  · exact fun _ => ⟨rfl, rfl⟩
  · exact fun _ => rfl

/-- What is read so far is the text with its backslashes. -/
theorem reads_whole (reads : Reads quotes arguments text slashes splitter) :
    splitter.whole = text ++ List.replicate slashes '\\' := by
  rw [Splitter.whole, reads.text, reads.slashes]

/-- One more backslash is read. -/
theorem reads_slash (reads : Reads quotes arguments text slashes splitter) :
    Reads quotes arguments text (slashes + 1) (splitter.step '\\') := by
  have blank : ¬ (isBlank '\\' && splitter.settled == 0) = true := by simp [isBlank]
  rw [Splitter.step, if_neg (by decide), if_neg blank, if_pos rfl]
  constructor
  · exact reads.arguments
  · exact reads.text
  · exact congrArg (· + 1) reads.slashes
  · exact reads.settled
  · simp
  · simp

/-- A run of backslashes is read. -/
theorem reads_slashes (reads : Reads quotes arguments text slashes splitter) (count : Nat) :
    Reads quotes arguments text (slashes + count)
      ((List.replicate count '\\').foldl Splitter.step splitter) := by
  induction count generalizing slashes splitter with
  | zero => exact reads
  | succ count inductionHypothesis =>
    rw [List.replicate_succ, List.foldl_cons, ← Nat.add_assoc, Nat.add_right_comm]
    exact inductionHypothesis (reads_slash reads)

/-- A character that is no quote and no backslash is read as itself. -/
theorem reads_character (reads : Reads quotes arguments text slashes splitter) {character : Char}
    (plain : character ≠ '"') (other : character ≠ '\\')
    (inside : isBlank character = false ∨ quotes ≠ 0) :
    Reads quotes arguments (text ++ List.replicate slashes '\\' ++ [character]) 0
      (splitter.step character) := by
  have stays : ¬ (isBlank character && splitter.settled == 0) = true := by
    rw [reads.settled, Bool.and_eq_true, beq_iff_eq]
    rintro ⟨blank, zero⟩
    obtain solid | open' := inside
    · exact absurd (solid.symm.trans blank) (by decide)
    · exact open' zero
  rw [Splitter.step, if_neg plain, if_neg stays, if_neg other]
  constructor
  · exact reads.arguments
  · exact congrArg (· ++ [character]) (reads_whole reads)
  · rfl
  · exact reads.settled
  · simp
  · simp

/-- The quote in front of an argument opens it. -/
theorem reads_open (arguments : List (List Char)) :
    Reads 1 arguments [] 0 ((between arguments).step '"') := by
  constructor
  · rfl
  · simp [Splitter.step, Splitter.quote, between, Splitter.text]
  · rfl
  · rfl
  · exact fun none => nomatch none
  · exact fun _ => rfl

/-- Behind the first quote the argument is open. -/
theorem reads_inside (reads : Reads 1 arguments text slashes splitter) : splitter.quotes = 1 := by
  have settled := reads.settled
  rw [Splitter.settled] at settled
  split at settled
  · cases settled
  · exact settled

/-- An odd number of backslashes before a double quote. -/
theorem reads_escaped (reads : Reads 1 arguments text (slashes * 2 + 1) splitter) :
    Reads 1 arguments (text ++ List.replicate slashes '\\' ++ ['"']) 0 (splitter.step '"') := by
  have alone : ¬ splitter.inRun = true := by
    intro run
    have zero := reads.slashes.symm.trans (reads.run run)
    omega
  have half : (slashes * 2 + 1) / 2 = slashes := by omega
  rw [Splitter.step, if_pos rfl, Splitter.quote, if_neg alone, reads.slashes, if_neg (by omega),
    half, reads.text]
  constructor
  · exact reads.arguments
  · rfl
  · rfl
  · simp [Splitter.settled, reads_inside reads]
  · simp
  · simp

/-- An even number of backslashes before the double quote at the end. -/
theorem reads_end (reads : Reads 1 arguments text (slashes * 2) splitter) :
    Ended arguments (text ++ List.replicate slashes '\\') (splitter.step '"') := by
  have quotes := reads_inside reads
  rw [Splitter.step, if_pos rfl, Splitter.quote]
  split
  next run =>
    have zero := reads.slashes.symm.trans (reads.run run)
    have none : slashes = 0 := by omega
    rw [if_neg (by omega)]
    constructor
    · exact reads.arguments
    · exact fun none => absurd (reads.begun none).2 (by decide)
    · subst none
      change splitter.whole = _
      exact reads_whole reads
    · simp [Splitter.settled, quotes, run]
  next alone =>
    have half : slashes * 2 / 2 = slashes := by omega
    rw [reads.slashes, if_pos (by omega), half, reads.text]
    constructor
    · exact reads.arguments
    · simp
    · simp [Splitter.whole, Splitter.text]
    · simp [Splitter.settled, quotes]

end Steps

/-- An argument that needs no quotes is read as it is. -/
theorem reads_plain {quotes slashes : Nat} {arguments : List (List Char)} {text : List Char}
    {splitter : Splitter} {argument : List Char}
    (plain : ∀ character ∈ argument, isBlank character = false ∧ character ≠ '"')
    (reads : Reads quotes arguments text slashes splitter) :
    ∃ after count, Reads quotes arguments after count (argument.foldl Splitter.step splitter) ∧
      after ++ List.replicate count '\\' = text ++ List.replicate slashes '\\' ++ argument := by
  induction argument generalizing text slashes splitter with
  | nil => exact ⟨text, slashes, reads, (List.append_nil _).symm⟩
  | cons character rest inductionHypothesis =>
    have first := plain character List.mem_cons_self
    have others : ∀ other ∈ rest, isBlank other = false ∧ other ≠ '"' := fun other member =>
      plain other (List.mem_cons_of_mem _ member)
    rw [List.foldl_cons]
    by_cases slash : character = '\\'
    · subst slash
      obtain ⟨after, count, later, same⟩ := inductionHypothesis others (reads_slash reads)
      refine ⟨after, count, later, ?_⟩
      rw [same, List.replicate_succ']
      simp
    · obtain ⟨after, count, later, same⟩ :=
        inductionHypothesis others (reads_character reads first.2 slash (.inl first.1))
      refine ⟨after, count, later, ?_⟩
      rw [same]
      simp

/-- What the loop of the quoting wrote for the rest of an argument is read as this rest. -/
theorem quoteCharacters_ended {arguments : List (List Char)} {text : List Char}
    {splitter : Splitter} (slashes : Nat) (rest : List Char)
    (reads : Reads 1 arguments text 0 splitter) :
    Ended arguments (text ++ List.replicate slashes '\\' ++ rest)
      ((quoteCharacters slashes rest ++ ['"']).foldl Splitter.step splitter) := by
  induction rest generalizing slashes text splitter with
  | nil =>
    have before := reads_slashes reads (slashes * 2)
    rw [Nat.zero_add] at before
    rw [quoteCharacters, List.foldl_append, List.append_nil]
    exact reads_end before
  | cons character rest inductionHypothesis =>
    rw [quoteCharacters]
    split_ifs with slash quote
    · subst slash
      have later := inductionHypothesis (slashes + 1) reads
      rw [List.replicate_succ'] at later
      simpa using later
    · subst quote
      have before := reads_slashes reads (slashes * 2 + 1)
      rw [Nat.zero_add] at before
      have later := inductionHypothesis 0 (reads_escaped before)
      simpa [List.foldl_append] using later
    · have before := reads_slashes reads slashes
      rw [Nat.zero_add] at before
      have later := inductionHypothesis 0 (reads_character before quote slash (.inr (by decide)))
      simpa [List.foldl_append] using later

/-- A quoted argument is read as the argument. -/
theorem quoteWindowsArg_ended (arguments : List (List Char)) (argument : List Char) :
    Ended arguments argument (splitFrom arguments (quoteWindowsArg argument)) := by
  rw [quoteWindowsArg]
  split_ifs with needed
  · rw [splitFrom, List.cons_append, List.foldl_cons]
    exact quoteCharacters_ended 0 argument (reads_open arguments)
  · obtain ⟨nonempty, plain⟩ := not_needed (Bool.not_eq_true _ ▸ needed)
    obtain ⟨text, slashes, reads, same⟩ := reads_plain plain (reads_between arguments)
    have whole := reads_whole reads
    rw [same] at whole
    constructor
    · exact reads.arguments
    · intro none
      apply nonempty
      have zero := (reads.begun none).1
      rw [splitFrom] at none
      rw [Splitter.whole, Splitter.text, none, zero] at whole
      simpa using whole.symm
    · exact whole
    · exact reads.settled

/-! ## The command line -/

/-- A line is read in two pieces as in one. -/
theorem splitFrom_append (arguments : List (List Char)) (front back : List Char) :
    splitFrom arguments (front ++ back) = back.foldl Splitter.step (splitFrom arguments front) :=
  List.foldl_append

/-- Arguments that stand behind one that was read. -/
theorem split_more {arguments : List (List Char)} {text : List Char} {splitter : Splitter}
    (ended : Ended arguments text splitter) (args : List (List Char)) :
    (((args.flatMap fun argument => ' ' :: quoteWindowsArg argument).foldl
      Splitter.step splitter).close).arguments = arguments ++ text :: args := by
  induction args generalizing arguments text splitter with
  | nil =>
    rw [List.flatMap_nil, List.foldl_nil, ended_close ended]
    rfl
  | cons argument rest inductionHypothesis =>
    rw [List.flatMap_cons, List.foldl_append, List.foldl_cons, ended_blank ended, ← splitFrom,
      inductionHypothesis (quoteWindowsArg_ended _ argument), List.append_assoc]
    rfl

/-- The line is the application, and each argument behind a blank. -/
theorem windowsCommandLine_eq (application : List Char) (args : List (List Char)) :
    windowsCommandLine application args =
      quoteWindowsArg application ++ args.flatMap fun argument => ' ' :: quoteWindowsArg argument := by
  rw [windowsCommandLine]
  induction args generalizing application with
  | nil => simp
  | cons argument rest inductionHypothesis =>
    rw [List.map_cons, List.map_cons, List.intercalate_cons_cons, ← List.map_cons,
      inductionHypothesis argument]
    simp

/-- Read by the rules for arguments all through, a command line is its application and its
arguments. -/
theorem splitArguments_windowsCommandLine (application : List Char) (args : List (List Char)) :
    splitArguments (windowsCommandLine application args) = application :: args := by
  rw [windowsCommandLine_eq, splitArguments, splitFrom_append]
  exact split_more (quoteWindowsArg_ended [] application) args

/-- Behind the program name there are the arguments. -/
theorem splitArguments_rest (args : List (List Char)) :
    splitArguments (args.flatMap fun argument => ' ' :: quoteWindowsArg argument) = args := by
  cases args with
  | nil => rfl
  | cons argument rest =>
    rw [List.flatMap_cons, List.cons_append, splitArguments, splitFrom, List.foldl_cons,
      List.foldl_append]
    exact split_more (quoteWindowsArg_ended [] argument) rest

/-- Text without double quotes is quoted by itself, with the backslashes at its end once more. -/
theorem quoteCharacters_plain (slashes : Nat) {text : List Char} (unquoted : '"' ∉ text) :
    ∃ count, quoteCharacters slashes text =
        List.replicate slashes '\\' ++ text ++ List.replicate count '\\' ∧
      (count = 0 ↔ (List.replicate slashes '\\' ++ text).getLast? ≠ some '\\') := by
  induction text generalizing slashes with
  | nil =>
    refine ⟨slashes, ?_, ?_⟩
    · rw [quoteCharacters, Nat.mul_two, List.append_nil, List.replicate_append_replicate]
    · simp [List.getLast?_replicate]
  | cons character rest inductionHypothesis =>
    rw [List.mem_cons, not_or] at unquoted
    obtain ⟨other, unquoted⟩ := unquoted
    rw [quoteCharacters]
    split_ifs with slash quote
    · subst slash
      have moved : List.replicate slashes '\\' ++ '\\' :: rest =
          List.replicate (slashes + 1) '\\' ++ rest := by
        rw [List.replicate_succ', List.append_assoc, List.singleton_append]
      rw [moved]
      exact inductionHypothesis (slashes + 1) unquoted
    · exact absurd quote.symm other
    · obtain ⟨count, written, zero⟩ := inductionHypothesis 0 unquoted
      refine ⟨count, ?_, ?_⟩
      · simp [written]
      · rw [zero]
        cases rest with
        | nil => simp [slash]
        | cons next others => simp

/-- A name in quotes ends at the second quote. -/
theorem programName_quoted (text rest : List Char) (unquoted : '"' ∉ text) :
    programName ('"' :: text ++ '"' :: rest) = (text, rest) := by
  have plain : ∀ character ∈ text, (character != '"') = true := by
    intro character member
    simpa using ne_of_mem_of_not_mem member unquoted
  rw [List.cons_append, programName, List.takeWhile_append_of_pos plain,
    List.dropWhile_append_of_pos plain]
  simp

/-- A name without quotes ends at the first blank. -/
theorem programName_plain {text : List Char} (rest : List (List Char))
    (plain : ∀ character ∈ text, isBlank character = false ∧ character ≠ '"') (nonempty : text ≠ []) :
    programName (text ++ rest.flatMap fun argument => ' ' :: quoteWindowsArg argument) =
      (text, rest.flatMap fun argument => ' ' :: quoteWindowsArg argument) := by
  have solid : ∀ character ∈ text, (!isBlank character) = true := by
    intro character member
    simp [(plain character member).1]
  have name : ∀ line, programName (text ++ line) =
      ((text ++ line).takeWhile fun character => !isBlank character,
        (text ++ line).dropWhile fun character => !isBlank character) := by
    intro line
    obtain ⟨first, others, rfl⟩ := List.exists_cons_of_ne_nil nonempty
    have other := (plain first List.mem_cons_self).2
    rw [List.cons_append, programName]
    rintro _ same
    exact other (List.cons.inj same).1
  rw [name, List.takeWhile_append_of_pos solid, List.dropWhile_append_of_pos solid]
  cases rest with
  | nil => simp
  | cons argument others => simp [isBlank]

/-- A command line is split to its application and its arguments, unless the application needs
quotes and ends in a backslash. Read by the rules for arguments it always is. -/
theorem windowsCommandLine_split (application : List Char) (args : List (List Char))
    (unquoted : '"' ∉ application) :
    (commandLineToArgv (windowsCommandLine application args) = application :: args ↔
      ¬ (needsQuotes application = true ∧ application.getLast? = some '\\')) ∧
    splitArguments (windowsCommandLine application args) = application :: args := by
  refine ⟨?_, splitArguments_windowsCommandLine application args⟩
  rw [windowsCommandLine_eq, quoteWindowsArg, commandLineToArgv]
  split_ifs with needed
  · obtain ⟨count, written, zero⟩ := quoteCharacters_plain 0 unquoted
    rw [List.replicate_zero, List.nil_append] at written zero
    have clean : '"' ∉ application ++ List.replicate count '\\' := by
      simp [unquoted, List.mem_replicate]
    rw [written, List.append_assoc, List.singleton_append, programName_quoted _ _ clean,
      splitArguments_rest, List.cons.injEq, and_iff_left rfl]
    simp only [needed, true_and]
    rw [← ne_eq, ← zero]
    simp
  · obtain ⟨nonempty, plain⟩ := not_needed (Bool.not_eq_true _ ▸ needed)
    rw [programName_plain args plain nonempty, splitArguments_rest]
    simp [needed]

/-- A program in a directory with a blank. -/
theorem split_spaced :
    (commandLineToArgv (windowsCommandLine ['C', ':', '\\', 'a', ' ', 'b'] [['"'], []]) =
        ['C', ':', '\\', 'a', ' ', 'b'] :: [['"'], []] ↔
      ¬ (needsQuotes ['C', ':', '\\', 'a', ' ', 'b'] = true ∧
        ['C', ':', '\\', 'a', ' ', 'b'].getLast? = some '\\')) ∧
    splitArguments (windowsCommandLine ['C', ':', '\\', 'a', ' ', 'b'] [['"'], []]) =
      ['C', ':', '\\', 'a', ' ', 'b'] :: [['"'], []] :=
  windowsCommandLine_split ['C', ':', '\\', 'a', ' ', 'b'] [['"'], []] (by decide)

/-- The backslash at the end of a directory with a blank comes back twice. -/
theorem split_directory :
    ¬ ∀ (application : List Char) (args : List (List Char)), '"' ∉ application →
      commandLineToArgv (windowsCommandLine application args) = application :: args := by
  intro always
  have split := always ['a', ' ', '\\'] [] (by decide)
  exact absurd split (by decide)

end OpencodePty.WindowsCommandLines
