import CheckerTrials.Plan.Run
import CheckerTrials.Shell.Execution

/-!
# Programs

The system has a few programs of its own: `sh`, `echo`, `true`, `false` and `env`.  Every other program
is an executable file that says in its first line which program reads it; that one may be such a file
again.

* `resolve` finds the program that a path leads to, and `launch` starts it.
* `execute` is the executor of a plan that starts these programs.
-/

set_option autoImplicit false

namespace CheckerTrials.Shell

/-! ## Finding programs -/

/-- The programs of the system. -/
inductive Program
  | shell
  | echo
  | succeed
  | fail
  | environment
  deriving DecidableEq, Repr

/-- The folders of the system. -/
def systemFolders : List Location := [
  [], ["bin"], ["boot"], ["dev"], ["etc"], ["home"], ["lib"], ["mnt"], ["opt"], ["proc"], ["root"],
  ["run"], ["sbin"], ["srv"], ["sys"], ["tmp"], ["usr"], ["var"], ["usr", "bin"], ["usr", "lib"],
  ["usr", "local"], ["usr", "local", "bin"], ["usr", "sbin"], ["usr", "share"]]

/-- The folders with programs, in the order in which they are searched. -/
def programFolders : List Location := [["usr", "bin"], ["bin"]]

/-- The programs of the system by their names. -/
def programNames : List (String × Program) :=
  [("sh", .shell), ("dash", .shell), ("echo", .echo), ("true", .succeed), ("false", .fail),
    ("env", .environment)]

/-- What a path leads to. -/
inductive Found
  /-- A folder. -/
  | folder
  /-- A program of the system. -/
  | program (p : Program)
  /-- A file of the disk. -/
  | file (content : ByteArray) (executable : Bool)

/-- What steps through the folders of the system lead to; nothing if they leave these. -/
def inSystem? : Location → List String → Option (Except Cause Found)
  | _, [] => some (.ok .folder)
  | here, step :: rest =>
    if step = "." then inSystem? here rest
    else if step = ".." then inSystem? here.dropLast rest
    else if systemFolders.contains (here ++ [step]) then inSystem? (here ++ [step]) rest
    else if programFolders.contains here then
      (programNames.lookup step).map fun p =>
        if rest.isEmpty then .ok (.program p) else .error .notADirectory
    else none

/-- What a path leads to. -/
def lookUp (d : Disk) (path : String) : Except Cause Found :=
  let p : Path := ⟨textOfRaw path⟩
  match if p.isRooted then inSystem? [] p.steps else none with
  | some (.ok (.program program)) =>
    if p.namesFolder then .error .notADirectory else .ok (.program program)
  | some found => found
  | none => do
    match ← d.find p with
    | .folder => return .folder
    | .file content executable => return .file content executable

/-- Whether a path leads to a file, rather than to a folder. -/
def isFileAt (d : Disk) (path : String) : Except Cause Bool := do
  match ← lookUp d path with
  | .folder => return false
  | _ => return true

/-! ## Interpreters -/

/-- Whether the first line of a file says what reads it. -/
def namesInterpreter (content : ByteArray) : Bool :=
  (rawOfBytes (content.extract 0 2)) == ['#', '!']

/-- How many bytes of a file are looked at for what reads it. -/
def interpreterLimit : Nat := 256

/-- Whether a character stands between the words of the line that says what reads a file. -/
def isGap (c : Char) : Bool := c == ' ' || c == '\t'

/-- The path of the program that reads a file, and the argument that stands behind it.  The argument
may hold blanks. -/
def interpreter? (content : ByteArray) : Option (String × Option String) :=
  if namesInterpreter content then
    let start := (rawOfBytes (content.extract 0 interpreterLimit)).drop 2
    let line := start.takeWhile (· != '\n')
    let line := (line.reverse.dropWhile isGap).reverse.dropWhile isGap
    let path := line.takeWhile fun c => !isGap c && c != '\x00'
    let rest := line.drop path.length
    let argument := (rest.dropWhile isGap).takeWhile (· != '\x00')
    let isCut := !start.contains '\n' && interpreterLimit ≤ content.size && rest.isEmpty
    if path.isEmpty || isCut then none
    else
      let hasArgument := rest.head?.any isGap && !argument.isEmpty
      some (String.ofList path, if hasArgument then some (String.ofList argument) else none)
  else none

/-- The program of the system that a path leads to in the end, and how it is called.  The number says
how many files may name another one on the way. -/
def resolve (d : Disk) : Nat → (path : String) → Command → Except Cause (Program × Command)
  | 0, _, _ => .error .tooManyLinks
  | n + 1, path, c => do
    match ← lookUp d path with
    | .folder | .file _ false => .error .permissionDenied
    | .program p => return (p, c)
    | .file content true =>
      match interpreter? content with
      | none => .error .notExecutable
      | some (reader, argument) =>
        resolve d n reader ⟨reader, argument.toList ++ path :: c.arguments⟩

/-- How many files may be looked at for the program that reads a file. -/
def interpreterDepth : Nat := 6

/-! ## The shell -/

/-- The parameters that a shell has from the beginning, besides those that it gets. -/
def initialVariables (s : Session) : List (String × Variable) :=
  let own (name value : String) : String × Variable := (name, ⟨some value, false, false⟩)
  [own "IFS" " \t\n", own "OPTIND" "1", own "PATH" "/usr/sbin:/usr/bin:/sbin:/bin",
    own "PPID" s.process.repr, own "PS1" "# ", own "PS2" "> ", own "PS4" "+ ",
    ("PWD", ⟨some (Builtin.folderPath s.disk.home), true, false⟩)]

/-- The session of a shell that another process starts: it gets the disk, the open files and the
parameters that are meant for programs. -/
def Session.ofShell (parent : Session) (c : Command) : Session :=
  let given := (parent.exports.filter fun p => !(["IFS", "OPTIND", "PPID", "PWD"].contains p.1))
  let own := (initialVariables parent).filter fun p => !given.any fun q => q.1 == p.1
  { disk := parent.disk, channels := parent.channels, descriptors := parent.descriptors
    named := given ++ own, shadowed := [], functions := []
    name := c.program, arguments := [], status := 0, outputStatus := 0, line := 0, nextLine := 0
    command := none, options := [], traps := parent.traps.filter fun t => t.2.isEmpty
    outside := none, pending := [], before := none, loops := 0, process := parent.process + 1
    optionPlace := (1, 0), documents := [], nextDocument := 0, jobs := [] }

/-- Takes the options of the shell off the front of its arguments, and says whether one of them asks
for a text to be carried out. -/
def shellOptions : Nat → List String → Act (Bool × List String)
  | 0, arguments => return (false, arguments)
  | _ + 1, [] => return (false, [])
  | n + 1, a :: rest =>
    match a.toList with
    | ['-'] | ['-', '-'] => return (false, rest)
    | sign :: letters =>
      if sign ≠ '-' ∧ sign ≠ '+' then return (false, a :: rest)
      else do
        let rest ← Builtin.setLetters (sign == '-') ['c', 'l'] letters rest
        let (hasText, rest) ← shellOptions n rest
        return (letters.contains 'c' || hasText, rest)
    | [] => return (false, a :: rest)

/-- Carries out what can be read. -/
def runInput (r : Running) : Act Unit := do
  let text := ((← get).input? 0).getD []
  modify fun s => s.skip 0 text.length
  runText r ⟨false, false⟩ true (String.ofList text)

/-- Carries out the script in a file. -/
def runFile (r : Running) (path : String) : Act Unit := do
  let s ← get
  match s.openPath .read path with
  | .error cause => Act.fail (Session.openFailure .read path cause)
  | .ok (opened, index) =>
    let text := (opened.channels[index]?.map opened.remaining).getD []
    set { s with name := path }
    runText r ⟨false, false⟩ true (String.ofList text)

/-- Does what a shell is asked for by its arguments. -/
def shell (r : Running) (arguments : List String) : Act Unit := do
  let (hasText, rest) ← shellOptions arguments.length arguments
  let readsInput := (← get).has 's'
  match hasText, rest with
  | true, [] => Act.fail "-c requires an argument"
  | true, text :: rest =>
    modify fun s => { s with name := rest.headD s.name, arguments := rest.tail }
    runText r ⟨!readsInput, false⟩ false text
    if readsInput then runInput r
  | false, path :: rest =>
    if readsInput then
      modify fun s => { s with arguments := path :: rest }
      runInput r
    else
      modify fun s => { s with arguments := rest }
      runFile r path
  | false, [] => runInput r

/-- Carries out all that a process does, and tells how it ends. -/
def Session.conclude (s : Session) (a : Act Unit) : Session × Conclusion :=
  match (ExceptT.run a).run s with
  | (.error (.replaced c), s) => (s, c)
  | (.error (.killed process number), s) =>
    (s, if process = s.process then .signal number else .struck process number)
  | (_, s) => (s, .exit (s.status % 256))

/-! ## Starting programs -/

/-- Prints from a program. -/
def printFrom (s : Session) (name : String) (text : List Char) : Session × Conclusion :=
  match s.write 1 text with
  | (s, true) => (s, .exit 0)
  | (s, false) =>
    ((s.write 2 (name ++ ": write error: Bad file descriptor\n").toList).1, .exit 1)

/-- Sets parameters for a program from the assignments in front of its name. -/
def environmentOf (s : Session) : List String → Session × List String
  | [] => (s, [])
  | a :: rest =>
    match Builtin.nameValue a with
    | (name, some value) => environmentOf (s.putVariable name (some ⟨some value, true, false⟩)) rest
    | (_, none) => (s, a :: rest)

/-- Starts the program at a path and waits for it; the number says how many programs may wait for each
other. -/
def launch : Nat → Launch
  | 0, _, _, _ => .error .permissionDenied
  | depth + 1, path, c, s => do
    let (program, c) ← resolve s.disk interpreterDepth path c
    match program with
    | .succeed => return (s, .exit 0)
    | .fail => return (s, .exit 1)
    | .echo => return printFrom s c.program (echoProgramText c.arguments)
    | .environment => return environment depth c s
    | .shell =>
      let r := running (launch depth) isFileAt depthLimit
      return (Session.ofShell s c).conclude (r.ending (shell r c.arguments))
where
  /-- Starts a program with parameters that are set for it. -/
  environment (depth : Nat) (c : Command) (s : Session) : Session × Conclusion :=
    match environmentOf s c.arguments with
    | (inner, name :: arguments) =>
      match Running.startFirst (running (launch depth) isFileAt 0) inner ⟨name, arguments⟩ .notFound
          (Running.programPaths inner name) with
      | .ok result => result
      | .error cause =>
        let hint :=
          if name.toList.any isSpace then c.program ++ ": use -[v]S to pass options in shebang lines\n"
          else ""
        let told := c.program ++ ": '" ++ name ++ "': " ++ refusal cause ++ "\n" ++ hint
        let status := if cause = .notFound then 127 else 126
        ((s.write 2 told.toList).1, .exit status)
    | (inner, []) =>
      let lines := inner.exports.map fun (name, v) => name ++ "=" ++ v.value.getD "" ++ "\n"
      printFrom s c.program (String.join lines).toList

/-- How many programs may wait for each other. -/
def launchLimit : Nat := 64

/-- Starts a program and waits for it.  One without folders in its name is looked for where programs
are. -/
def startNamed (c : Command) (s : Session) : Except Cause (Session × Conclusion) :=
  if c.program.toList.contains '/' then launch launchLimit c.program c s
  else if c.program.isEmpty then .error .notFound
  else if 255 < c.program.length then .error .nameTooLong
  else
    programFolders.foldl (fun result folder =>
      match result with
      | .error .notFound => launch launchLimit (Path.ofSteps (folder ++ [c.program])) c s
      | result => result) (.error .notFound)

/-- The session of the process that starts the programs of a plan. -/
def Session.outermost (d : Disk) (log : Location) : Session :=
  let given (name value : String) : String × Variable := (name, ⟨some value, true, false⟩)
  { disk := d, channels := [.file log 0 false, .nowhere], descriptors := [(0, 1), (1, 0), (2, 0)]
    named := [given "HOME" "/root", given "PATH" "/usr/local/bin:/usr/bin:/bin"]
    shadowed := [], functions := [], name := "", arguments := [], status := 0, outputStatus := 0
    line := 0, nextLine := 0, command := none, options := [], traps := [], outside := none
    pending := [], before := none, loops := 0, process := Builtin.firstProcess - 1
    optionPlace := (1, 0), documents := [], nextDocument := 0, jobs := [] }

/-- Starts a command whose output and errors go to a log, and which has nothing to read. -/
def execute : Executor := fun c log d => do
  if (c.program :: c.arguments).any fun s => s.toList.contains '\x00' then .error .nulInArgument
  else
    let location ← d.locate log
    let c : Command := ⟨rawOfText c.program, c.arguments.map rawOfText⟩
    let (s, conclusion) ← startNamed c (.outermost d location)
    let exit :=
      match conclusion with
      | .exit code => some code
      | _ => none
    .ok { disk := { s.disk with home := d.home }, exit, seconds := 0 }

end CheckerTrials.Shell
