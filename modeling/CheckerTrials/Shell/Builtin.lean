import CheckerTrials.Shell.Condition
import CheckerTrials.Shell.Expansion
import CheckerTrials.Shell.Format

/-!
# The commands of the shell itself

Some commands change the session that they are carried out in, and some are frequent; the shell knows
them.  `builtin?` gives what a command does.  Those that carry out a script again are given a way to do
so (`Running`).
-/

set_option autoImplicit false

namespace CheckerTrials.Shell

/-- How a script is carried out. -/
structure Mode where
  /-- Whether the process has nothing else to do afterwards. -/
  last : Bool
  /-- Whether somebody asks if it succeeds. -/
  tested : Bool
  deriving DecidableEq, Repr

/-- How scripts and programs inside of a script are carried out. -/
structure Running where
  /-- Carries out a script that is a part of another one. -/
  run : Mode → Script → Act Unit
  /-- Starts a program. -/
  launch : Launch
  /-- Whether a path leads to a file, rather than to a folder. -/
  isFileAt : Disk → String → Except Cause Bool

/-- Carries out the lines of a script one after another, and says whether there was any command.  With
`shows`, lines may be shown as they are read.  The number is a bound of the number of lines. -/
def runLines (r : Running) (mode : Mode) (shows : Bool) : Nat → Source → (ran : Bool) → Act Bool
  | 0, _, ran => return ran
  | n + 1, source, ran => do
    let reveal (rest : List Char) : Act Unit := do
      if shows && (← get).has 'v' then
        let _ ← Act.print 2 (source.rest.take (source.rest.length - rest.length))
    match source.next with
    | .error e =>
      reveal []
      modify fun s => { s with line := e.line }
      Act.fail ("Syntax error: " ++ e.message)
    | .ok none => return ran
    | .ok (some line) =>
      reveal line.rest.rest
      modify fun s => { s with
        documents := line.rest.documents ++ s.documents
        nextDocument := line.rest.nextDocument
        nextLine := line.rest.line }
      let rest := { line.rest with documents := [] }
      match line.script with
      | .nothing => runLines r mode shows n rest ran
      | script =>
        r.run { mode with last := mode.last && line.isLast } script
        runLines r mode shows n rest true

/-- Carries out the text of a script. -/
def runText (r : Running) (mode : Mode) (shows : Bool) (text : String) : Act Unit := do
  let source := Source.ofText text.toList (← get).nextDocument
  unless ← runLines r mode shows (text.length + 1) source false do Act.conclude 0

namespace Builtin

/-! ## Arguments -/

/-- The count that an argument is. -/
def count (argument : String) : Act Nat := do
  match integerWord argument with
  | .ok n =>
    if 0 ≤ n ∧ n ≤ 0x7FFFFFFF then return n.toNat else Act.fail ("Illegal number: " ++ argument)
  | .error message => Act.fail message

/-- Takes options off the front of some arguments: their letters, and the other arguments. -/
def options (known : String) : List String → Act (List Char × List String)
  | [] => return ([], [])
  | a :: rest =>
    match a.toList with
    | ['-', '-'] => return ([], rest)
    | '-' :: c :: letters => do
      match (c :: letters).find? fun c => !known.toList.contains c with
      | some c => Act.fail ("Illegal option -" ++ String.singleton c)
      | none =>
        let (more, rest) ← options known rest
        return (c :: letters ++ more, rest)
    | _ => return ([], a :: rest)

/-- Prints a line, which fails if the output is closed. -/
def say (text : List Char) (status : Nat) : Act Unit := do
  if ← Act.print 1 text then Act.conclude status
  else
    Act.complain ((← get).command.getD "" ++ ": I/O error")
    Act.conclude 1

/-- A name and a value around an equals sign. -/
def nameValue (argument : String) : String × Option String :=
  let name := argument.toList.takeWhile (· != '=')
  match argument.toList.drop name.length with
  | _ :: value => (String.ofList name, some (String.ofList value))
  | [] => (argument, none)

/-- Refuses what is no name. -/
def checkName (name : String) : Act Unit := do
  unless isName name.toList do Act.fail (name ++ ": bad variable name")

/-! ## Output -/

/-- Prints words. -/
def echo (arguments : List String) : Act Unit := say (echoText arguments) 0

/-- Prints a format. -/
def printf (arguments : List String) : Act Unit := do
  let (_, arguments) ← options "" arguments
  match arguments with
  | [] => Act.fail "usage: printf format [arg ...]"
  | format :: arguments =>
    let (f, result) := formatAll (arguments.length + 1) format.toList ⟨[], arguments, []⟩
    f.complaints.forM Act.complain
    match result with
    | .broken message =>
      Act.complain message
      say f.text 2
      Act.conclude 2
      throw .failed
    | _ => say f.text (if f.complaints.isEmpty then 0 else 1)

/-! ## Conditions -/

/-- Says whether a condition holds. -/
def test (bracketed : Bool) (arguments : List String) : Act Unit := do
  let words ←
    if bracketed then
      if arguments.getLast? = some "]" then pure arguments.dropLast else Act.fail "missing ]"
    else pure arguments
  match conditionHolds (← get) words with
  | .ok holds => Act.conclude (if holds then 0 else 1)
  | .error message => Act.fail message

/-! ## Parameters -/

/-- A value in quotes, as it could be read again. -/
def quotedValue (value : String) : String :=
  "'" ++ String.intercalate "'\"'\"'" ((Text.splitOn '\'' value.toList).map String.ofList) ++ "'"

/-- Prints the parameters of a kind as commands that set them. -/
def showVariables (command : String) (kind : Variable → Bool) : Act Unit := do
  let s ← get
  let shown := sortBy (fun a b => compare a.1 b.1) (s.named.filter fun p => kind p.2)
  let lines := shown.map fun (name, v) =>
    command ++ name ++ (v.value.map fun value => "=" ++ quotedValue value).getD "" ++ "\n"
  say (String.join lines).toList 0

/-- Marks parameters, and sets those that come with values. -/
def mark (command : String) (kind : Variable → Bool) (marked : Variable → Variable)
    (arguments : List String) : Act Unit := do
  let (letters, arguments) ← options "p" arguments
  if arguments.isEmpty || letters.contains 'p' then showVariables (command ++ " ") kind
  else
    arguments.forM fun argument => do
      let (name, value) := nameValue argument
      checkName name
      if let some value := value then Act.assign name value false
      modify fun s =>
        let v := (s.named.lookup name).getD ⟨none, false, false⟩
        s.putVariable name (some (marked v))
    Act.conclude 0

/-- Lets parameters have other values until the function ends. -/
def localNames (arguments : List String) : Act Unit := do
  if (← get).shadowed.isEmpty then Act.fail "not in a function"
  arguments.forM fun argument => do
    let (name, value) := nameValue argument
    checkName name
    modify fun s => { s with
      shadowed :=
        match s.shadowed with
        | frame :: more =>
          (if frame.any fun p => p.1 == name then frame
            else (name, s.named.lookup name) :: frame) :: more
        | [] => [] }
    if let some value := value then Act.assign name value false
  Act.conclude 0

/-- Forgets parameters, or functions. -/
def unset (arguments : List String) : Act Unit := do
  let (letters, arguments) ← options "fv" arguments
  arguments.forM fun name => do
    if letters.getLast? = some 'f' then
      modify fun s => { s with functions := s.functions.filter fun p => p.1 ≠ name }
    else
      checkName name
      if (← get).isFixed name then Act.fail (name ++ ": is read only")
      modify fun s => s.putVariable name none
  Act.conclude 0

/-- The options by their long names. -/
def longOptions : List (String × Char) := [
  ("errexit", 'e'), ("noglob", 'f'), ("ignoreeof", 'I'), ("interactive", 'i'), ("monitor", 'm'),
  ("noexec", 'n'), ("stdin", 's'), ("xtrace", 'x'), ("verbose", 'v'), ("vi", 'V'), ("emacs", 'E'),
  ("noclobber", 'C'), ("allexport", 'a'), ("notify", 'b'), ("nounset", 'u')]

/-- Sets or clears an option. -/
def setOption (option : Char) (on : Bool) : Act Unit := do
  if longOptions.any fun o => o.2 == option then
    modify fun s =>
      let others := s.options.filter (· ≠ option)
      { s with options := if on then option :: others else others }
  else Act.fail ("Illegal option -" ++ String.singleton option)

/-- Sets or clears the option of a long name. -/
def setLongOption (name : String) (on : Bool) : Act Unit :=
  match longOptions.lookup name with
  | some c => setOption c on
  | none => Act.fail ("Illegal option -o " ++ name)

/-- Tells which options are set; unless `plain`, as commands that set them. -/
def showOptions (plain : Bool) : Act Unit := do
  let s ← get
  let lines := (longOptions.map fun (name, c) => (name, s.has c)) ++
    ["privileged", "nolog", "debug"].map fun name => (name, false)
  let text := lines.map fun (name, isSet) =>
    if plain then
      name ++ String.ofList (List.replicate (16 - name.length) ' ') ++ (if isSet then "on" else "off")
        ++ "\n"
    else "set " ++ (if isSet then "-" else "+") ++ "o " ++ name ++ "\n"
  let front := if plain then "Current option settings\n" else ""
  let _ ← Act.print 1 (front ++ String.join text).toList

/-- Sets or clears the options of some letters, of which `o` stands for a long name that is taken off
the arguments.  Letters that are passed over mean something else. -/
def setLetters (on : Bool) (passed : List Char) : List Char → List String → Act (List String)
  | [], rest => return rest
  | 'o' :: letters, [] => do
    showOptions on
    setLetters on passed letters []
  | 'o' :: letters, name :: rest => do
    setLongOption name on
    setLetters on passed letters rest
  | c :: letters, rest => do
    unless passed.contains c do setOption c on
    setLetters on passed letters rest

/-- Sets options; the arguments that are left, if they are given.  The number is a bound of the
arguments. -/
def setOptions : Nat → List String → Act (Option (List String))
  | _, [] => return none
  | 0, rest => return some rest
  | n + 1, a :: rest =>
    match a.toList with
    | ['-', '-'] => return some rest
    | ['-'] => do
      setOption 'x' false
      setOption 'v' false
      return if rest.isEmpty then none else some rest
    | sign :: letters =>
      if sign ≠ '-' ∧ sign ≠ '+' then return some (a :: rest)
      else do setOptions n (← setLetters (sign == '-') [] letters rest)
    | [] => return some (a :: rest)

/-- Sets options and arguments. -/
def setArguments (arguments : List String) : Act Unit := do
  if arguments.isEmpty then showVariables "" fun v => v.value.isSome
  else
    if let some arguments ← setOptions arguments.length arguments then modify fun s => { s with arguments }
    Act.conclude 0

/-- Drops arguments. -/
def shift (arguments : List String) : Act Unit := do
  let n ← (arguments.head?.map count).getD (pure 1)
  let s ← get
  if s.arguments.length < n then Act.fail "can't shift that many"
  set { s with arguments := s.arguments.drop n, status := 0 }

/-! ## Reading -/

/-- Characters that have been read, each with whether a backslash stood before it. -/
abbrev Escaped := List (Char × Bool)

/-- Whether a character is a separator. -/
def separates (separators : List Char) (c : Char × Bool) : Bool :=
  !c.2 && separators.contains c.1

/-- Whether a character is a separator and a blank. -/
def isSeparatingBlank (separators : List Char) (c : Char × Bool) : Bool :=
  separates separators c && " \t\n".toList.contains c.1

/-- Splits a line among names: each gets a field, and the last one everything that is left. -/
def lineFields (separators : List Char) : Nat → Escaped → List String
  | 0, _ => []
  | n, line =>
    let line := line.dropWhile (isSeparatingBlank separators)
    let text (s : Escaped) : String := String.ofList (s.map Prod.fst)
    let field := line.takeWhile fun c => !separates separators c
    let rest := (line.drop field.length).dropWhile (isSeparatingBlank separators)
    let rest := if rest.head?.any (separates separators) then rest.tail else rest
    let rest := rest.dropWhile (isSeparatingBlank separators)
    match n with
    | 0 => []
    | 1 =>
      if rest.isEmpty then [text field]
      else [text (line.reverse.dropWhile (isSeparatingBlank separators)).reverse]
    | n + 1 => text field :: lineFields separators n rest

/-- Takes a line off a text: its characters, how many were read, and whether its end was among them.
A backslash keeps the next character as it is, and joins lines. -/
def takeLine (plain : Bool) : List Char → Escaped × Nat × Bool
  | [] => ([], 0, false)
  | '\n' :: _ => ([], 1, true)
  | '\\' :: c :: rest =>
    if plain then
      let (line, n, ended) := takeLine plain (c :: rest)
      (('\\', false) :: line, n + 1, ended)
    else
      let (line, n, ended) := takeLine plain rest
      (if c = '\n' then line else (c, true) :: line, n + 2, ended)
  | c :: rest =>
    let (line, n, ended) := takeLine plain rest
    (if c = '\\' && !plain then line else (c, false) :: line, n + 1, ended)

/-- Reads a line into parameters. -/
def read (arguments : List String) : Act Unit := do
  let (letters, names) ← options "rp" arguments
  let names := if letters.contains 'p' then names.drop 1 else names
  if names.isEmpty then Act.fail "arg count"
  let s ← get
  match s.input? 0 with
  | none => Act.conclude 1
  | some text =>
    let (line, n, ended) := takeLine (letters.contains 'r') text
    modify fun s => s.skip 0 n
    let fields := lineFields s.separators names.length (line.filter fun c => c.1 != '\x00')
    let values := fields ++ List.replicate (names.length - fields.length) ""
    (names.zip values).forM fun (name, value) => do
      checkName name
      Act.assign name value false
    Act.conclude (if ended then 0 else 1)

/-- Reads the next option of the arguments into a parameter. -/
def getopts (arguments : List String) : Act Unit := do
  match arguments with
  | known :: name :: given =>
    let s ← get
    let given := if given.isEmpty then s.arguments else given
    let place := s.optionPlace.1
    let argument (n : Nat) : Option (List Char) := (given[n - 1]?).map String.toList
    let silent := known.startsWith ":"
    let inside : Option (List Char) :=
      if 0 < s.optionPlace.2 then
        ((argument (place - 1)).map fun a => a.drop s.optionPlace.2).filter fun rest => !rest.isEmpty
      else none
    let finish (next : Nat) (offset : Nat) (value : String) (own : Option String) (status : Nat) :
        Act Unit := do
      match own with
      | some own => Act.assign "OPTARG" own false
      | none => modify fun s => s.putVariable "OPTARG" none
      Act.assign "OPTIND" next.repr false
      modify fun s => { s with optionPlace := (next, offset) }
      checkName name
      Act.assign name value false
      Act.conclude status
    let keep : Option String := s.lookup? "OPTARG"
    let letter (c : Char) (rest : List Char) (next : Nat) : Act Unit := do
      let shown := String.singleton c
      let offset := ((argument (next - 1)).map List.length).getD 0 - rest.length
      match (known.toList.dropWhile (· ≠ c)) with
      | _ :: ':' :: _ =>
        match rest, argument next with
        | [], some value => finish (next + 1) 0 shown (some (String.ofList value)) 0
        | [], none =>
          if silent then finish next 0 ":" (some shown) 0
          else
            let _ ← Act.print 2 ("No arg for -" ++ shown ++ " option\n").toList
            finish next 0 "?" none 0
        | rest, _ => finish next 0 shown (some (String.ofList rest)) 0
      | _ :: _ => finish next offset shown (some "") 0
      | [] =>
        if silent then finish next offset "?" (some shown) 0
        else
          let _ ← Act.print 2 ("Illegal option -" ++ shown ++ "\n").toList
          finish next offset "?" none 0
    match inside with
    | some (c :: rest) => letter c rest place
    | _ =>
      match argument place with
      | some ['-', '-'] => finish (place + 1) 0 "?" keep 1
      | some ('-' :: c :: rest) => letter c rest (place + 1)
      | _ => finish place 0 "?" keep 1
  | _ => Act.fail "Usage: getopts optstring var [arg...]"

/-! ## Folders -/

/-- The path of a working folder. -/
def folderPath (home : Location) : String :=
  if home.isEmpty then "/" else rawOfText (Path.ofSteps home)

/-- The path that another path leads to from a folder, without steps up. -/
def plainPath (folder path : String) : String :=
  let start := if path.startsWith "/" then [] else Path.stepsOf folder.toList
  let steps := (Path.stepsOf path.toList).foldl (fun (steps : List String) step =>
    if step = "." then steps else if step = ".." then steps.dropLast else steps ++ [step]) start
  if steps.isEmpty then "/" else Path.ofSteps steps

/-- Tells the working folder. -/
def pwd : Act Unit := do
  say (folderPath (← get).disk.home ++ "\n").toList 0

/-- Changes the working folder. -/
def cd (arguments : List String) : Act Unit := do
  let (_, arguments) ← options "LP" arguments
  let s ← get
  let here := folderPath s.disk.home
  let (wanted, shows) :=
    match arguments.head? with
    | none => ((s.lookup? "HOME").getD "", false)
    | some "-" => ((s.lookup? "OLDPWD").getD here, true)
    | some path => (path, false)
  if wanted.isEmpty then Act.conclude 0
  else
    let path := plainPath here wanted
    match s.disk.find ⟨textOfRaw path⟩, s.disk.locate ⟨textOfRaw path⟩ with
    | .ok .folder, .ok l =>
      modify fun s => { s with disk := { s.disk with home := l } }
      Act.assign "OLDPWD" here true
      Act.assign "PWD" path true
      if shows then say (path ++ "\n").toList 0 else Act.conclude 0
    | _, _ => Act.fail ("can't cd to " ++ wanted)

/-! ## Signals -/

/-- The signal of a word; `least` is the least number of one with a name. -/
def signalOfWord? (least : Nat) (word : String) : Option Signal :=
  (signalNamed? word.toUpper).filter fun s =>
    least ≤ s.number || word.toList.all Decimal.isDigit

/-- The number of the first process. -/
def firstProcess : Nat := 4096

/-- Sends a signal to a process, and says whether there is one. -/
def send (process number : Nat) : Act Bool := do
  let s ← get
  if firstProcess ≤ process ∧ process ≤ s.process then
    Act.receive process number
    return true
  else return s.jobs.any fun j => j.1 == process

/-- What is said about how `kill` is used. -/
def killUsage : String :=
  "Usage: kill [-s sigspec | -signum | -sigspec] [pid | job]... or\nkill -l [exitstatus]"

/-- Takes the options of `kill` off the front of its arguments: whether signals are to be told, and the
signal that is named.  The number is a bound of the arguments. -/
def killOptions : Nat → (tells : Bool) → (signal : Option Nat) → List String →
    Act (Bool × Option Nat × List String)
  | 0, tells, signal, rest => return (tells, signal, rest)
  | _ + 1, tells, signal, [] => return (tells, signal, [])
  | n + 1, tells, signal, a :: rest =>
    let named (name : String) (rest : List String) : Act (Bool × Option Nat × List String) := do
      match signalOfWord? 1 name with
      | some s => killOptions n tells (some s.number) rest
      | none => Act.fail ("invalid signal number or name: " ++ name)
    match a.toList with
    | ['-', '-'] => return (tells, signal, rest)
    | '-' :: c :: letters =>
      match (c :: letters).dropWhile (· == 'l') with
      | [] => killOptions n true signal rest
      | 's' :: d :: more => named (String.ofList (d :: more)) rest
      | ['s'] =>
        match rest with
        | name :: rest => named name rest
        | [] => Act.fail "No arg for -s option"
      | c :: _ => Act.fail ("Illegal option -" ++ String.singleton c)
    | _ => return (tells, signal, a :: rest)

/-- Tells the names of signals, or the one of a number or of an exit code. -/
def tellSignals : List String → Act Unit
  | [] =>
    let names := (signals.drop 1).map Signal.name
    say ("\n".intercalate ("0" :: names) ++ "\n").toList 0
  | a :: _ => do
    let n ← count a
    match signalOf? (if 128 < n then n - 128 else n) with
    | some s =>
      if s.number = 0 then Act.fail ("invalid signal number or exit status: " ++ a)
      else say (s.name ++ "\n").toList 0
    | none => Act.fail ("invalid signal number or exit status: " ++ a)

/-- Sends a signal to what a word names, and says whether there is such a process. -/
def sendTo (signal : Nat) (word : String) : Act Bool := do
  match word.toList with
  | '%' :: _ => Act.fail ("No such job: " ++ word)
  | '-' :: group => do
    let _ ← count (String.ofList group)
    return false
  | _ => send (← count word) signal

/-- Sends a signal to processes. -/
def kill (arguments : List String) : Act Unit := do
  let first := (arguments.headD "").toList
  let signal := if first.head? = some '-' then signalOfWord? 1 (String.ofList first.tail) else none
  let (tells, signal, processes) ←
    match signal with
    | some s => pure (false, some s.number, arguments.tail)
    | none => killOptions arguments.length false none arguments
  if tells then tellSignals processes
  else if processes.isEmpty then Act.fail killUsage
  else
    let missed ← processes.mapM fun p => do
      if ← sendTo (signal.getD 15) p then return false
      else
        Act.complain "No such process\n"
        return true
    Act.conclude (if missed.any id then 1 else 0)

/-- Says what is done at signals. -/
def trap (arguments : List String) : Act Unit := do
  let (_, arguments) ← options "" arguments
  let s ← get
  match arguments with
  | [] =>
    let lines := s.traps.map fun (number, action) =>
      let name := ((signalOf? number).map Signal.name).getD ""
      "trap -- " ++ quotedValue action ++ " " ++ name ++ "\n"
    say (String.join lines).toList 0
  | first :: others =>
    let resets := others.isEmpty || (signalOfWord? 0 first).isSome
    let action := if resets ∨ first = "-" then none else some first
    let names := if resets then arguments else others
    let status ← names.foldlM (fun status name => do
      if status ≠ 0 then return status
      else
        match signalOfWord? 0 name with
        | some signal =>
          modify fun s =>
            let before := s.traps.filter fun t => t.1 < signal.number
            let after := s.traps.filter fun t => signal.number < t.1
            let own := (action.map fun a => (signal.number, a)).toList
            { s with traps := before ++ own ++ after }
          return 0
        | none =>
          let _ ← Act.print 2 ("trap: " ++ name ++ ": bad trap\n").toList
          return 1) 0
    Act.conclude status

/-- Waits for processes. -/
def wait (arguments : List String) : Act Unit := do
  let s ← get
  match arguments with
  | [] => set { s with jobs := [], status := 0 }
  | _ =>
    let statuses ← arguments.mapM fun a => do return (s.jobs.lookup (← count a)).getD 127
    Act.conclude (statuses.getLast?.getD 0)

/-! ## Control -/

/-- Ends the process. -/
def exit (arguments : List String) : Act Unit := do
  match arguments with
  | a :: _ => Act.conclude (← count a)
  | [] => if let some status := (← get).before then Act.conclude status
  throw .exited

/-- Ends a function. -/
def leave (arguments : List String) : Act Unit := do
  if let a :: _ := arguments then Act.conclude (← count a)
  throw .returned

/-- Ends loops, or lets one of them go on. -/
def leaveLoops (again : Bool) (arguments : List String) : Act Unit := do
  let n ← (arguments.head?.map count).getD (pure 1)
  if n = 0 then Act.fail ("Illegal number: " ++ arguments.headD "")
  Act.conclude 0
  match min n (← get).loops with
  | 0 => return ()
  | n + 1 => throw (.left (n + 1) again)

/-- Carries out its arguments as a script. -/
def eval (r : Running) (mode : Mode) (arguments : List String) : Act Unit := do
  if arguments.isEmpty then Act.conclude 0
  else runText r { mode with last := false } false (" ".intercalate arguments)

/-- The folders that programs are looked for in. -/
def searchPath (s : Session) : List String :=
  (Text.splitOn ':' ((s.lookup? "PATH").getD "").toList).map String.ofList

/-- A name in a folder; an empty folder is the working one. -/
def inFolder (folder name : String) : String := if folder.isEmpty then name else folder ++ "/" ++ name

/-- Looks for a program of a name without folders. -/
def programPath? (r : Running) (s : Session) (name : String) : Option String :=
  (searchPath s).findSome? fun folder =>
    let path := inFolder folder name
    if r.isFileAt s.disk path matches .ok true then some path else none

/-- Carries out a script in a file, in this process. -/
def dot (r : Running) (arguments : List String) : Act Unit := do
  let (_, arguments) ← options "" arguments
  match arguments with
  | [] => Act.conclude 0
  | name :: _ =>
    let s ← get
    let path ←
      if name.toList.contains '/' then pure name
      else
        match (searchPath s).find? fun folder => s.disk.isFile ⟨textOfRaw (inFolder folder name)⟩ with
        | some folder => pure (inFolder folder name)
        | none => Act.fail (name ++ ": not found")
    let text ←
      match s.disk.readBytes ⟨textOfRaw path⟩ with
      | .ok content => pure (rawOfBytes content)
      | .error cause =>
        if deviceAt? path = some .nowhere then pure []
        else
          let why :=
            match cause with
            | .notFound | .notADirectory => "No such file"
            | .isADirectory => "Is a directory"
            | _ => "Permission denied"
          Act.fail ("cannot open " ++ path ++ ": " ++ why)
    modify fun s => { s with command := some path }
    match ← Act.attempt (runText r ⟨false, false⟩ true (String.ofList text)) with
    | .error .returned | .ok () => return ()
    | .error e => throw e

/-! ## Names -/

/-- The names of the commands of the shell that are not special. -/
def ordinaryNames : List String :=
  ["[", "alias", "bg", "cd", "chdir", "command", "echo", "false", "fg", "getopts", "hash", "jobs",
    "kill", "printf", "pwd", "read", "test", "true", "type", "ulimit", "umask", "unalias", "wait"]

/-- What a name stands for, in words and as a command; nothing if it stands for none. -/
def meaning? (r : Running) (s : Session) (name : String) : Option (String × String) :=
  if reservedWords.contains name then some ("is a shell keyword", name)
  else if (s.functions.lookup name).isSome then some ("is a shell function", name)
  else if specialCommands.contains name then some ("is a special shell builtin", name)
  else if ordinaryNames.contains name then some ("is a shell builtin", name)
  else
    let path? :=
      if name.toList.contains '/' then
        if (r.isFileAt s.disk name).isOk then some name else none
      else programPath? r s name
    path?.map fun path => ("is " ++ path, path)

/-- Tells what names stand for. -/
def type (r : Running) (arguments : List String) : Act Unit := do
  let s ← get
  let lines := arguments.map fun name =>
    match meaning? r s name with
    | some (told, _) => name ++ " " ++ told ++ "\n"
    | none => name ++ ": not found\n"
  let found := arguments.all fun name => (meaning? r s name).isSome
  say (String.join lines).toList (if found then 0 else 127)

/-- Tells what a name stands for, briefly or, with `long`, in words. -/
def identify (r : Running) (long : Bool) (arguments : List String) : Act Unit := do
  match arguments with
  | [] => Act.conclude 0
  | name :: _ =>
    match meaning? r (← get) name with
    | some (told, path) => say ((if long then name ++ " " ++ told else path) ++ "\n").toList 0
    | none => if long then say (name ++ ": not found\n").toList 127 else Act.conclude 127

end Builtin

open Builtin in
/-- What a command of the shell does with its arguments; nothing if it is none. -/
def builtin? (r : Running) (mode : Mode) (name : String) : Option (List String → Act Unit) :=
  match name with
  | ":" | "true" => some fun _ => Act.conclude 0
  | "false" => some fun _ => Act.conclude 1
  | "echo" => some echo
  | "printf" => some printf
  | "test" => some (test false)
  | "[" => some (test true)
  | "export" => some (mark "export" Variable.exported fun v => { v with exported := true })
  | "readonly" => some (mark "readonly" Variable.fixed fun v => { v with fixed := true })
  | "local" => some localNames
  | "unset" => some unset
  | "set" => some setArguments
  | "shift" => some shift
  | "read" => some read
  | "getopts" => some getopts
  | "pwd" => some fun _ => pwd
  | "cd" | "chdir" => some cd
  | "kill" => some kill
  | "trap" => some trap
  | "wait" => some wait
  | "exit" => some exit
  | "return" => some leave
  | "break" => some (leaveLoops false)
  | "continue" => some (leaveLoops true)
  | "eval" => some (eval r mode)
  | "." => some (dot r)
  | "type" => some (type r)
  | "umask" => some fun arguments => say (if arguments.isEmpty then "0022\n".toList else []) 0
  | "bg" | "fg" => some fun _ => Act.fail "No current job"
  | "alias" | "hash" | "jobs" | "times" | "ulimit" | "unalias" => some fun _ => Act.conclude 0
  | _ => none

end CheckerTrials.Shell
