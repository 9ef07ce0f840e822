import Mathlib.Data.Bool.AllAny
import OpencodePty.WindowsCommandLines
import OpencodePty.WindowsEnvironment

/-!
# Arguments of batch scripts

A batch script is run by the command interpreter, with the command line of the script in one more
pair of double quotes behind `/c`. The interpreter takes this pair away and changes between quoted
and unquoted at each double quote that is left, whatever stands before it. An argument that was
quoted for the child is not always quoted for the interpreter.
-/

namespace OpencodePty.BatchCommandLines

open OpencodePty.WindowsCommandLines OpencodePty.WindowsEnvironment

/-- What the worker asks of the file system and of paths. -/
structure Host where
  /-- `resolve_windows_executable` -/
  resolve : List Char → List Char → Environment → Except (List Char) (List Char)
  /-- `extension` of a path -/
  extension : List Char → Option (List Char)
  /-- `System32\cmd.exe` below a directory -/
  commandBelow : List Char → List Char
  isFile : List Char → Bool

structure WindowsSpawnPlan where
  application : List Char
  commandLine : List Char

/-- `windows_command_interpreter` -/
def windowsCommandInterpreter (host : Host) (env : Environment) :
    Except (List Char) (List Char) :=
  let missing := "Windows command interpreter not found: ComSpec and SystemRoot are unset".toList
  match (windowsEnvironmentValue env "ComSpec".toList).filter fun value => !value.isEmpty with
  | some interpreter => .ok interpreter
  | none =>
    match windowsEnvironmentValue env "SystemRoot".toList with
    | none => .error missing
    | some systemRoot =>
      if host.isFile (host.commandBelow systemRoot) then .ok (host.commandBelow systemRoot)
      else .error missing

/-- `windows_batch_script_path` -/
def windowsBatchScriptPath (path : List Char) : List Char :=
  if "\\\\?\\UNC\\".toList.isPrefixOf path then "\\\\".toList ++ path.drop 8
  else if "\\\\?\\".toList.isPrefixOf path then path.drop 4
  else path

def isBatch (host : Host) (path : List Char) : Bool :=
  (host.extension path).any fun extension =>
    eqIgnoreAsciiCase extension "cmd".toList || eqIgnoreAsciiCase extension "bat".toList

/-- `windows_spawn_plan` -/
def windowsSpawnPlan (host : Host) (command : List Char) (args : List (List Char))
    (workdir : List Char) (env : Environment) : Except (List Char) WindowsSpawnPlan := do
  let resolved ← host.resolve command workdir env
  if isBatch host resolved then
    let interpreter ← windowsCommandInterpreter host env
    let script := windowsBatchScriptPath resolved
    return {
      application := interpreter
      commandLine := quoteWindowsArg interpreter ++ " /d /c \"".toList ++
        windowsCommandLine script args ++ ['"'] }
  else
    return { application := resolved, commandLine := windowsCommandLine resolved args }

/-! ## What the interpreter reads -/

/-- A character that starts a further command, moves data or escapes, outside double quotes. -/
def isMeta (character : Char) : Bool := ['&', '|', '<', '>', '^'].contains character

/-- Whether the interpreter is between double quotes behind a text. -/
def quotedAfter (quoted : Bool) (text : List Char) : Bool :=
  text.foldl (fun inside character => if character = '"' then !inside else inside) quoted

/-- Every such character of a text stands between double quotes. -/
def Guarded (quoted : Bool) (text : List Char) : Prop :=
  ∀ before character after, text = before ++ character :: after → isMeta character = true →
    quotedAfter quoted before = true

/-- Arguments are data in what the interpreter reads. -/
structure StaysData (payload : List Char) (args : List (List Char)) : Prop where
  guarded : Guarded false payload
  percent : ∀ argument ∈ args, '%' ∉ quoteWindowsArg argument

/-- The double quotes before a character of an argument. -/
def quotesBefore (earlier : List (List Char)) (argument front : List Char) : Nat :=
  earlier.flatten.count '"' + (if needsQuotes argument then 1 else 0) + front.count '"'

/-- No argument has a percent sign, and an odd number of double quotes stands before each of the
special characters. -/
structure Quotable (args : List (List Char)) : Prop where
  odd : ∀ earlier argument later front character back, args = earlier ++ argument :: later →
    argument = front ++ character :: back → isMeta character = true →
    quotesBefore earlier argument front % 2 = 1
  percent : ∀ argument ∈ args, '%' ∉ argument

/-! ## Quotes of a text -/

@[simp] theorem quotedAfter_append (quoted : Bool) (front back : List Char) :
    quotedAfter quoted (front ++ back) = quotedAfter (quotedAfter quoted front) back :=
  List.foldl_append

theorem quotedAfter_count (quoted : Bool) (text : List Char) :
    quotedAfter quoted text = (quoted ^^ decide (text.count '"' % 2 = 1)) := by
  induction text generalizing quoted with
  | nil => simp [quotedAfter]
  | cons character rest inductionHypothesis =>
    rw [quotedAfter, List.foldl_cons, ← quotedAfter, inductionHypothesis, List.count_cons]
    by_cases quote : character = '"'
    · have parity : decide ((rest.count '"' + 1) % 2 = 1) = !decide (rest.count '"' % 2 = 1) := by
        rw [← decide_not, decide_eq_decide]
        omega
      simp [quote, parity]
    · simp [quote]

theorem guarded_cons (quoted : Bool) (character : Char) (rest : List Char) :
    Guarded quoted (character :: rest) ↔
      (isMeta character = true → quoted = true) ∧ Guarded (quotedAfter quoted [character]) rest := by
  constructor
  · intro guarded
    refine ⟨fun special => guarded [] character rest rfl special, ?_⟩
    intro before other after same special
    rw [← quotedAfter_append]
    exact guarded (character :: before) other after (by rw [same, List.cons_append]) special
  · rintro ⟨first, others⟩ before other after same special
    cases before with
    | nil =>
      obtain ⟨rfl, rfl⟩ := List.cons.inj same
      exact first special
    | cons next before =>
      obtain ⟨rfl, rfl⟩ := List.cons.inj same
      rw [← List.singleton_append, quotedAfter_append]
      exact others before other after rfl special

theorem guarded_append (quoted : Bool) (front back : List Char) :
    Guarded quoted (front ++ back) ↔
      Guarded quoted front ∧ Guarded (quotedAfter quoted front) back := by
  induction front generalizing quoted with
  | nil =>
    refine ⟨fun guarded => ⟨?_, guarded⟩, fun guarded => guarded.2⟩
    intro before character after same
    simp at same
  | cons character rest inductionHypothesis =>
    rw [List.cons_append, guarded_cons, guarded_cons, inductionHypothesis, and_assoc,
      ← quotedAfter_append, List.singleton_append]

/-- Backslashes change nothing for the interpreter. -/
theorem guarded_slashes (quoted : Bool) (count : Nat) (rest : List Char) :
    (Guarded quoted (List.replicate count '\\' ++ rest) ↔ Guarded quoted rest) ∧
      quotedAfter quoted (List.replicate count '\\' ++ rest) = quotedAfter quoted rest := by
  induction count with
  | zero => exact ⟨Iff.rfl, rfl⟩
  | succ count inductionHypothesis =>
    rw [List.replicate_succ, List.cons_append]
    refine ⟨?_, inductionHypothesis.2⟩
    rw [guarded_cons]
    constructor
    · rintro ⟨_, guarded⟩
      exact inductionHypothesis.1.mp guarded
    · intro guarded
      exact ⟨fun special => absurd special (by decide), inductionHypothesis.1.mpr guarded⟩

/-- The loop of the quoting only puts backslashes between the characters. -/
theorem guarded_quoteCharacters (quoted : Bool) (slashes : Nat) (text rest : List Char) :
    (Guarded quoted (quoteCharacters slashes text ++ rest) ↔ Guarded quoted (text ++ rest)) ∧
      quotedAfter quoted (quoteCharacters slashes text ++ rest) =
        quotedAfter quoted (text ++ rest) := by
  induction text generalizing quoted slashes with
  | nil => exact guarded_slashes quoted (slashes * 2) rest
  | cons character others inductionHypothesis =>
    obtain ⟨guarded, quotes⟩ := inductionHypothesis (quotedAfter quoted [character]) 0
    -- What the loop writes before a character, if it is no backslash.
    have written (count : Nat) :
        (Guarded quoted (List.replicate count '\\' ++ character :: quoteCharacters 0 others ++ rest) ↔
          Guarded quoted (character :: others ++ rest)) ∧
        quotedAfter quoted
            (List.replicate count '\\' ++ character :: quoteCharacters 0 others ++ rest) =
          quotedAfter quoted (character :: others ++ rest) := by
      obtain ⟨same, after⟩ :=
        guarded_slashes quoted count (character :: quoteCharacters 0 others ++ rest)
      rw [List.append_assoc]
      constructor
      · rw [same, List.cons_append, guarded_cons, guarded, List.cons_append, guarded_cons]
      · rw [after]
        exact quotes
    rw [quoteCharacters]
    split_ifs with slash quote
    · subst slash
      obtain ⟨guarded, quotes⟩ := inductionHypothesis quoted (slashes + 1)
      refine ⟨?_, quotes⟩
      rw [guarded, List.cons_append, guarded_cons]
      constructor
      · exact fun here => ⟨fun special => absurd special (by decide), here⟩
      · exact fun here => here.2
    · subst quote
      exact written _
    · exact written slashes

theorem guarded_quote (quoted : Bool) (rest : List Char) :
    Guarded quoted ('"' :: rest) ↔ Guarded (!quoted) rest := by
  rw [guarded_cons]
  constructor
  · exact fun here => here.2
  · exact fun here => ⟨fun special => absurd special (by decide), here⟩

/-- A quoted argument is guarded where the argument is, behind the double quote that it may begin
with. -/
theorem guarded_quoteWindowsArg (quoted : Bool) (argument : List Char) :
    (Guarded quoted (quoteWindowsArg argument) ↔
      Guarded (quoted ^^ needsQuotes argument) argument) ∧
    quotedAfter quoted (quoteWindowsArg argument) = quotedAfter quoted argument := by
  rw [quoteWindowsArg]
  split_ifs with needed
  · obtain ⟨guarded, quotes⟩ := guarded_quoteCharacters (!quoted) 0 argument ['"']
    rw [needed, Bool.xor_true, List.cons_append, guarded_quote, guarded, guarded_append]
    constructor
    · constructor
      · exact fun here => here.1
      · intro here
        refine ⟨here, ?_⟩
        rw [guarded_quote]
        intro before character after same
        simp at same
    · change quotedAfter (!quoted) (quoteCharacters 0 argument ++ ['"']) = _
      rw [quotes, quotedAfter_append, quotedAfter_count, quotedAfter_count, quotedAfter_count]
      cases quoted <;> simp
  · rw [Bool.not_eq_true] at needed
    rw [needed, Bool.xor_false]
    exact ⟨Iff.rfl, rfl⟩

/-- The arguments of a command line are guarded where each is, behind the quotes of those before. -/
theorem guarded_arguments (quoted : Bool) (args : List (List Char)) :
    Guarded quoted (args.flatMap fun argument => ' ' :: quoteWindowsArg argument) ↔
      ∀ earlier argument later, args = earlier ++ argument :: later →
        Guarded (quotedAfter quoted earlier.flatten ^^ needsQuotes argument) argument := by
  induction args generalizing quoted with
  | nil =>
    refine ⟨fun _ earlier argument later same => by simp at same, ?_⟩
    intro _ before character after same
    simp at same
  | cons first rest inductionHypothesis =>
    obtain ⟨guarded, quotes⟩ := guarded_quoteWindowsArg quoted first
    have blank (text : List Char) : Guarded quoted (' ' :: text) ↔ Guarded quoted text := by
      rw [guarded_cons]
      constructor
      · exact fun here => here.2
      · exact fun here => ⟨fun special => absurd special (by decide), here⟩
    rw [List.flatMap_cons, List.cons_append, blank, guarded_append, guarded, quotes,
      inductionHypothesis]
    constructor
    · rintro ⟨here, others⟩ earlier argument later same
      cases earlier with
      | nil =>
        obtain ⟨rfl, rfl⟩ := List.cons.inj same
        exact here
      | cons next earlier =>
        obtain ⟨rfl, rfl⟩ := List.cons.inj same
        rw [List.flatten_cons, quotedAfter_append]
        exact others earlier argument later rfl
    · intro all
      refine ⟨all [] first rest rfl, ?_⟩
      intro earlier argument later same
      rw [← quotedAfter_append, ← List.flatten_cons]
      exact all (first :: earlier) argument later (by rw [same, List.cons_append])

theorem guarded_clean (quoted : Bool) {text : List Char}
    (clean : ∀ character ∈ text, isMeta character = false) : Guarded quoted text := by
  intro before character after same special
  have plain := clean character (by rw [same]; simp)
  rw [plain] at special
  cases special

/-- In the command line of a script the arguments alone decide. -/
theorem guarded_windowsCommandLine {script : List Char} (args : List (List Char))
    (clean : ∀ character ∈ script, character ≠ '"' ∧ isMeta character = false) :
    Guarded false (windowsCommandLine script args) ↔
      ∀ earlier argument later, args = earlier ++ argument :: later →
        Guarded (quotedAfter false earlier.flatten ^^ needsQuotes argument) argument := by
  obtain ⟨guarded, quotes⟩ := guarded_quoteWindowsArg false script
  have closed : quotedAfter false script = false := by
    have none : script.count '"' = 0 :=
      List.count_eq_zero.mpr fun member => (clean _ member).1 rfl
    rw [quotedAfter_count, none]
    rfl
  rw [windowsCommandLine_eq, guarded_append, guarded, quotes, closed, guarded_arguments]
  constructor
  · exact fun here => here.2
  · exact fun here => ⟨guarded_clean _ fun character member => (clean character member).2, here⟩

/-- Quoting brings no characters but backslashes and double quotes. -/
theorem mem_quoteCharacters {character : Char} (slash : character ≠ '\\') (slashes : Nat)
    (text : List Char) :
    character ∈ quoteCharacters slashes text ↔ character ∈ text := by
  have none (count : Nat) : character ∉ List.replicate count '\\' := by
    rw [List.mem_replicate]
    exact fun member => slash member.2
  induction text generalizing slashes with
  | nil => simp [quoteCharacters, none]
  | cons first rest inductionHypothesis =>
    rw [quoteCharacters]
    split_ifs with isSlash isQuote
    · simp [inductionHypothesis, isSlash, slash]
    · simp [inductionHypothesis, none, isQuote]
    · simp [inductionHypothesis, none]

theorem percent_quoteWindowsArg (argument : List Char) :
    '%' ∈ quoteWindowsArg argument ↔ '%' ∈ argument := by
  rw [quoteWindowsArg]
  split_ifs
  · simp [mem_quoteCharacters]
  · exact Iff.rfl

theorem staysData_iff {script : List Char} (args : List (List Char))
    (clean : ∀ character ∈ script, character ≠ '"' ∧ isMeta character = false) :
    StaysData (windowsCommandLine script args) args ↔ Quotable args := by
  have inside (earlier : List (List Char)) (argument front : List Char) :
      quotedAfter (quotedAfter false earlier.flatten ^^ needsQuotes argument) front = true ↔
        quotesBefore earlier argument front % 2 = 1 := by
    rw [quotedAfter_count, quotedAfter_count, quotesBefore]
    have before := Nat.mod_two_eq_zero_or_one (earlier.flatten.count '"')
    have there := Nat.mod_two_eq_zero_or_one (front.count '"')
    cases needsQuotes argument <;> obtain before | before := before <;>
      obtain there | there := there <;> simp [before, there] <;> omega
  constructor
  · intro data
    constructor
    · intro earlier argument later front character back split parts special
      rw [← inside]
      exact (guarded_windowsCommandLine args clean).mp data.guarded earlier argument later split
        front character back parts special
    · intro argument member
      rw [← percent_quoteWindowsArg]
      exact data.percent argument member
  · intro quotable
    constructor
    · rw [guarded_windowsCommandLine args clean]
      intro earlier argument later split front character back parts special
      rw [inside]
      exact quotable.odd earlier argument later front character back split parts special
    · intro argument member
      rw [percent_quoteWindowsArg]
      exact quotable.percent argument member

/-! ## The plan -/

/-- The plan for a batch script: the interpreter, and the command line of the script as its
payload. -/
theorem windowsSpawnPlan_batch {host : Host} {command workdir resolved : List Char}
    {args : List (List Char)} {env : Environment} {plan : WindowsSpawnPlan}
    (found : host.resolve command workdir env = .ok resolved) (batch : isBatch host resolved = true)
    (planned : windowsSpawnPlan host command args workdir env = .ok plan) :
    plan.commandLine = quoteWindowsArg plan.application ++ " /d /c \"".toList ++
      windowsCommandLine (windowsBatchScriptPath resolved) args ++ ['"'] := by
  simp only [windowsSpawnPlan, found, batch, if_true, bind, Except.bind] at planned
  split at planned
  · cases planned
  · cases planned
    rfl

/-- For every batch script whose path has no double quote and no special character, the arguments
stay data for the interpreter just where no argument has a percent sign and each special character
of an argument stands behind an odd number of double quotes. -/
theorem batchArguments_data (host : Host) (command workdir resolved : List Char)
    (args : List (List Char)) (env : Environment) (plan : WindowsSpawnPlan)
    (found : host.resolve command workdir env = .ok resolved) (batch : isBatch host resolved = true)
    (clean : ∀ character ∈ windowsBatchScriptPath resolved,
      character ≠ '"' ∧ isMeta character = false)
    (planned : windowsSpawnPlan host command args workdir env = .ok plan) :
    ∃ payload, plan.commandLine =
        quoteWindowsArg plan.application ++ " /d /c \"".toList ++ payload ++ ['"'] ∧
      (StaysData payload args ↔ Quotable args) :=
  ⟨_, windowsSpawnPlan_batch found batch planned, staysData_iff args clean⟩

/-- A host with one script. -/
def scriptHost : Host where
  resolve _ _ _ := .ok "C:\\bin\\run.cmd".toList
  extension _ := some "cmd".toList
  commandBelow root := root
  isFile _ := false

def scriptEnvironment : Environment := [("ComSpec".toList, "C:\\cmd.exe".toList)]

/-- The plan for the script of this host. -/
def scriptPlan (args : List (List Char)) : WindowsSpawnPlan where
  application := "C:\\cmd.exe".toList
  commandLine := quoteWindowsArg "C:\\cmd.exe".toList ++ " /d /c \"".toList ++
    windowsCommandLine "C:\\bin\\run.cmd".toList args ++ ['"']

/-- An argument with a blank and a special character. -/
theorem batchArguments_blank :
    ∃ payload, (scriptPlan ["a & b".toList]).commandLine =
        quoteWindowsArg (scriptPlan ["a & b".toList]).application ++ " /d /c \"".toList ++ payload ++
          ['"'] ∧
      (StaysData payload ["a & b".toList] ↔ Quotable ["a & b".toList]) :=
  batchArguments_data scriptHost "run".toList [] "C:\\bin\\run.cmd".toList ["a & b".toList]
    scriptEnvironment (scriptPlan ["a & b".toList]) rfl (by decide)
    (List.all_iff_forall_prop.mp (by decide)) rfl

/-- An argument that needs no quotes starts a further command. -/
theorem further_command :
    ¬ ∀ (host : Host) (command workdir resolved : List Char) (args : List (List Char))
      (env : Environment) (plan : WindowsSpawnPlan),
      host.resolve command workdir env = .ok resolved → isBatch host resolved = true →
      (∀ character ∈ windowsBatchScriptPath resolved,
        character ≠ '"' ∧ isMeta character = false) →
      windowsSpawnPlan host command args workdir env = .ok plan →
      ∃ payload, plan.commandLine =
          quoteWindowsArg plan.application ++ " /d /c \"".toList ++ payload ++ ['"'] ∧
        StaysData payload args := by
  intro always
  have clean : ∀ character ∈ "C:\\bin\\run.cmd".toList,
      character ≠ '"' ∧ isMeta character = false := List.all_iff_forall_prop.mp (by decide)
  obtain ⟨payload, line, data⟩ := always scriptHost "run".toList [] "C:\\bin\\run.cmd".toList
    ["a&calc".toList] scriptEnvironment (scriptPlan ["a&calc".toList]) rfl (by decide) clean rfl
  have same : windowsCommandLine "C:\\bin\\run.cmd".toList ["a&calc".toList] = payload :=
    List.append_cancel_left (List.append_cancel_right line)
  rw [← same, staysData_iff _ clean] at data
  have odd := data.odd [] "a&calc".toList [] ['a'] '&' "calc".toList rfl (by decide) (by decide)
  exact absurd odd (by decide)

end OpencodePty.BatchCommandLines
