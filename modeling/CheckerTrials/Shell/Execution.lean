import CheckerTrials.Shell.Builtin

/-!
# Carrying out scripts

A script is carried out by a function on its form, `Running.carryOut`, which is given a way to carry out
its parts; `running` ties the knot, and bounds how deeply scripts stand inside of each other.

Three things may leave a part of a script before its end: a loop is left by `break`, a function by
`return`, and a process by `exit`, a mistake or a signal.  They are `Ending`s, and what they leave is
where they are caught: `roundOf` for loops, `callFunction` for functions and `Running.ending` for
processes.
-/

set_option autoImplicit false

namespace CheckerTrials.Shell

/-! ## Redirections -/

/-- How a file is opened. -/
inductive Access
  | create (clobbers : Bool)
  | append
  | read
  | readWrite
  deriving DecidableEq, Repr

/-- What a redirection lets a descriptor stand for, after its word has been replaced. -/
inductive Opening
  /-- A file. -/
  | file (access : Access) (path : String)
  /-- What another descriptor stands for. -/
  | copy (descriptor : Nat)
  /-- Nothing. -/
  | nothing
  /-- A document, whose parameters are still to be replaced. -/
  | document (w : Word)

/-- What a command is said to be refused for. -/
def refusal : Cause → String
  | .notFound => "No such file or directory"
  | .notADirectory => "Not a directory"
  | .isADirectory => "Is a directory"
  | .alreadyExists => "File exists"
  | .nameTooLong => "File name too long"
  | .notExecutable => "Exec format error"
  | .tooManyLinks => "Too many levels of symbolic links"
  | _ => "Permission denied"

namespace Session

/-- Opens a file of the disk: where it is, and the disk afterwards. -/
def openOnDisk (s : Session) (access : Access) (path : Path) : Except Cause (Disk × Channel) := do
  let writing (d : Disk) (atEnd : Bool) : Except Cause (Disk × Channel) := do
    return (d, .file (← d.locate path) 0 atEnd)
  let creating (atEnd : Bool) : Except Cause (Disk × Channel) := do
    if s.disk.isFile path then writing s.disk atEnd else writing (← s.disk.writeText path "") atEnd
  match access with
  | .create clobbers =>
    if s.has 'C' && !clobbers && s.disk.isFile path then .error .alreadyExists
    else writing (← s.disk.writeText path "") false
  | .append => creating true
  | .readWrite => creating false
  | .read =>
    match ← s.disk.find path with
    | .folder => return (s.disk, .nowhere)
    | .file _ _ => writing s.disk false

/-- Opens a file once more that a descriptor stands for, from its beginning. -/
def reopened (s : Session) (access : Access) (location : Location) : Disk × Channel :=
  let disk :=
    match access, s.disk.get? location with
    | .create _, some (.file _ executable) => s.disk.put location (.file .empty executable)
    | _, _ => s.disk
  (disk, .file location 0 (access == .append))

/-- Opens a file, and gives its index among the open ones. -/
def openPath (s : Session) (access : Access) (path : String) : Except Cause (Session × Nat) :=
  let withDisk (opened : Disk × Channel) : Session × Nat :=
    { s with disk := opened.1 }.opened opened.2
  match deviceAt? path with
  | none => (s.openOnDisk access ⟨textOfRaw path⟩).map withDisk
  | some .nowhere => .ok (s.opened .nowhere)
  | some (.descriptor n) =>
    match s.channel? n with
    | none => .error .notFound
    | some (index, .pipe _ _) => .ok (s, index)
    | some (_, .nowhere) => .ok (s.opened .nowhere)
    | some (_, .file location _ _) => .ok (withDisk (s.reopened access location))

/-- What is said about a file that cannot be opened. -/
def openFailure (access : Access) (path : String) (cause : Cause) : String :=
  let (verb, missing) :=
    match access with
    | .read => ("open ", "No such file")
    | _ => ("create ", "Directory nonexistent")
  let why := if cause = .notFound ∨ cause = .notADirectory then missing else refusal cause
  "cannot " ++ verb ++ path ++ ": " ++ why

/-- Lets a descriptor stand for a file, or says why it cannot. -/
def connectFile (s : Session) (descriptor : Nat) (access : Access) (path : String) :
    Except String Session :=
  match s.openPath access path with
  | .ok (s, index) => .ok (s.connect descriptor (some index))
  | .error cause =>
    let opensOnly := access == .create false && s.has 'C' && cause == .isADirectory
    .error (openFailure (if opensOnly then .read else access) path cause)

/-- Lets a descriptor stand for a text that can be read. -/
def connectText (s : Session) (descriptor : Nat) (text : String) : Session :=
  let (s, index) := s.opened (.pipe text.toList 0)
  s.connect descriptor (some index)

/-- Lets a descriptor stand for what another one stands for, or says why it cannot. -/
def connectCopy (s : Session) (descriptor other : Nat) : Except String Session :=
  match s.channel? other with
  | some (index, _) => .ok (s.connect descriptor (some index))
  | none => .error (other.repr ++ ": Bad file descriptor")

/-- Lets descriptors stand again for what they stood for before. -/
def restored (s : Session) (before : List (Nat × Nat)) (descriptors : List Nat) : Session :=
  descriptors.foldl (fun s d => s.connect d (before.lookup d)) s

end Session

namespace Running

/-! ## Processes -/

/-- Does something that an event asks for, with the exit code from before it. -/
def respond (r : Running) (action : String) : Act Unit := do
  let s ← get
  set { s with before := some (s.before.getD s.status) }
  Act.andThen (runText r ⟨false, false⟩ false action) (modify fun after => { after with before := s.before })

/-- Does what is to be done at signals that have come, and keeps the exit code. -/
def respondToSignals (r : Running) : Act Unit :=
  Act.repeatAtMost (do
    let s ← get
    match s.outside, s.pending with
    | none, number :: rest =>
      set { s with pending := rest }
      if let some action := s.traps.lookup number then
        respond r action
        Act.conclude s.status
      return true
    | _, _ => return false) Act.repetitionLimit

/-- Does all that a process does: something, and then what is to be done at its end. -/
def ending (r : Running) (a : Act Unit) : Act Unit := do
  match ← Act.attempt a with
  | .error (.replaced c) => throw (.replaced c)
  | .error (.killed process number) => throw (.killed process number)
  | _ =>
    let s ← get
    if let some action := s.traps.lookup 0 then
      set { s with traps := s.traps.filter fun t => t.1 ≠ 0 }
      match ← Act.attempt (respond r action) with
      | .error (.killed process number) => throw (.killed process number)
      | .error .exited | .error .failed => return ()
      | _ => Act.conclude s.status

/-- Carries out a script in a process of its own. -/
def inProcess (r : Running) (mode : Mode) (s : Script) (prepare : Act Unit) : Act Conclusion :=
  Act.forked (ending r (do
    prepare
    r.run { mode with last := true } s))

/-- What a script prints. -/
def output (r : Running) (s : Script) : Act (List Char) := do
  let (opened, index) := (← get).opened (.pipe [] 0)
  set opened
  let c ← inProcess r ⟨true, false⟩ s (modify fun s => s.connect 1 (some index))
  let status := (← get).status
  Act.concludeAs c
  modify fun s => { s with status, outputStatus := s.status }
  match (← get).channels[index]? with
  | some (.pipe content _) => return content
  | _ => return []

/-- Carries out scripts in processes of their own, each of which reads what the one before has printed,
and tells how they end. -/
def pipeline (r : Running) (mode : Mode) : (input : Option Nat) → List Script → Act (List Conclusion)
  | _, [] => return []
  | input, part :: rest => do
    let s ← get
    let (s, printed) :=
      if rest.isEmpty then (s, none)
      else
        let (s, index) := s.opened (.pipe [] 0)
        (s, some index)
    set s
    let c ← inProcess r mode part (do
      if input.isSome then modify fun s => s.connect 0 input
      if printed.isSome then modify fun s => s.connect 1 printed)
    return c :: (← pipeline r mode printed rest)

/-! ## Words -/

/-- What a redirection lets a descriptor stand for. -/
def opening (r : Running) : Redirection → Act (Nat × Opening)
  | .of descriptor target => do
    let text (w : Word) : Act String := textOfWord (output r) w
    let file (access : Access) (w : Word) : Act Opening := do return .file access (← text w)
    let opened : Opening ←
      match target with
      | .create clobbers w => file (.create clobbers) w
      | .append w => file .append w
      | .read w => file .read w
      | .readWrite w => file .readWrite w
      | .copy n => pure (.copy n)
      | .copyNamed w =>
        match (← text w).toList with
        | ['-'] => pure .nothing
        | [c] => if Decimal.isDigit c then pure (.copy (Decimal.digitValue c)) else badDescriptor
        | _ => badDescriptor
      | .close => pure .nothing
      | .document index => do
        pure (.document (((← get).documents.lookup index).getD []))
    return (descriptor, opened)
where
  /-- Refuses what is no descriptor. -/
  badDescriptor : Act Opening := do
    modify fun s => { s with line := s.nextLine }
    Act.fail "Syntax error: Bad fd number"

/-- Lets a descriptor stand for something else, and says whether that could be done.  If what it has
stood for is to come back, the descriptor is closed before it copies another one. -/
def redirect (r : Running) (comesBack : Bool) (descriptor : Nat) (o : Opening) : Act Bool := do
  let s ← get
  let taken (result : Except String Session) : Act Bool := do
    match result with
    | .ok s =>
      set s
      return true
    | .error message =>
      Act.complain message
      Act.conclude 2
      return false
  match o with
  | .nothing => taken (.ok (s.connect descriptor none))
  | .copy n =>
    if comesBack && n != descriptor then set (s.connect descriptor none)
    taken (s.connectCopy descriptor n)
  | .file access path => taken (s.connectFile descriptor access path)
  | .document w =>
    match ← Act.attempt (textOfWord (output r) w) with
    | .ok text =>
      modify fun s => s.connectText descriptor text
      return true
    | .error .failed => return false
    | .error e => throw e

/-- Carries out redirections from the first to the last, and says whether that could be done. -/
def redirectAll (r : Running) (comesBack : Bool) : List (Nat × Opening) → Act Bool
  | [] => return true
  | (descriptor, o) :: rest => do
    if ← redirect r comesBack descriptor o then redirectAll r comesBack rest else return false

/-- Does something with redirections, which end with it unless they are to be kept, and says whether
they could be done. -/
def within (r : Running) (keeps : Bool) (openings : List (Nat × Opening)) (a : Act Unit) :
    Act Bool := do
  let before := (← get).descriptors
  Act.andThen
    (do
      if ← redirectAll r true openings then
        a
        return true
      else return false)
    (unless keeps do modify fun s => s.restored before (openings.map Prod.fst))

/-- The words that stand behind the options of `command`, if these only ask for the words to be carried
out. -/
def wrapped? : List String → Option (List String)
  | [] => none
  | w :: rest =>
    match w.toList with
    | ['-', '-'] => if rest.isEmpty then none else some rest
    | '-' :: c :: letters => if (c :: letters).all (· == 'p') then wrapped? rest else none
    | _ => some (w :: rest)

/-- Takes `command` off the front of words as often as it stands there; the number is a bound of
that. -/
def unwrap : Nat → List String → List String
  | n + 1, "command" :: rest => ((wrapped? rest).map (unwrap n)).getD ("command" :: rest)
  | _, words => words

/-- The words that a command is carried out by. -/
def carriedWords (s : Session) (words : List String) : List String :=
  if (s.functions.lookup "command").isSome then words else unwrap words.length words

/-- Whether assignments behind words are not cut into fields. -/
def takesAssignments (s : Session) (words : List String) : Bool :=
  (carriedWords s words).head?.any ["export", "readonly", "local"].contains

/-- The fields of the words of a command, after those that have been read. -/
def commandFields (r : Running) : (read : List String) → List Word → Act (List String)
  | read, [] => return read
  | read, w :: rest => do
    let isWhole := (assignment? w).isSome && takesAssignments (← get) read
    let fields ←
      if isWhole then do pure [← textOfWord (output r) w] else fieldsOf (output r) w
    commandFields r (read ++ fields) rest

/-! ## Programs -/

/-- Whether the first line of a file holds what no text holds. -/
def isBinary (content : ByteArray) : Bool :=
  let line := (rawOfBytes (content.extract 0 128)).takeWhile (· != '\n')
  line.any fun c => c.toNat ≤ 8 || (16 ≤ c.toNat && c.toNat < 32 && c.toNat != 27) || c.toNat == 127

/-- Starts a program at a path.  A file that does not say what reads it is read by the shell. -/
def start (r : Running) (s : Session) (c : Command) (path : String) :
    Except Cause (Session × Conclusion) :=
  match r.launch path c s, s.disk.readBytes ⟨textOfRaw path⟩ with
  | .error .notExecutable, .ok content =>
    if isBinary content then .error .notExecutable
    else r.launch "/bin/sh" ⟨"/bin/sh", path :: c.arguments⟩ s
  | result, _ => result

/-- Starts a program at the first of some paths where there is one; `cause` is why there was none at
the paths before. -/
def startFirst (r : Running) (s : Session) (c : Command) :
    (cause : Cause) → List String → Except Cause (Session × Conclusion)
  | cause, [] => .error cause
  | cause, path :: rest =>
    match start r s c path with
    | .ok result => .ok result
    | .error .notFound | .error .notADirectory => startFirst r s c cause rest
    | .error other => startFirst r s c other rest

/-- The paths where a program may be found. -/
def programPaths (s : Session) (name : String) : List String :=
  if name.toList.contains '/' then [name]
  else (Builtin.searchPath s).map (Builtin.inFolder · name)

/-- Why a program is not looked for in the folders of programs: there is no file of its name. -/
def missing? (r : Running) (s : Session) (name : String) : Option Cause :=
  let looked := (programPaths s name).map (r.isFileAt s.disk)
  if name.toList.contains '/' || looked.any fun l => l matches .ok true then none
  else
    some <| looked.foldl (fun cause l =>
      match l with
      | .ok _ => .permissionDenied
      | .error .notFound | .error .notADirectory => cause
      | .error other => other) .notFound

/-- Tells why a program cannot be started. -/
def refuse (name : String) (cause : Cause) (status : Nat) : Act Unit := do
  let why := if cause = .notFound ∨ cause = .notADirectory then "not found" else refusal cause
  Act.complain (name ++ ": " ++ why)
  Act.conclude status

/-- The exit code of a program that cannot be started. -/
def refusalStatus (cause : Cause) : Nat :=
  if [.notFound, .notADirectory, .nameTooLong, .tooManyLinks].contains cause then 127 else 126

/-- Takes over what a program leaves behind. -/
def takeOver (after : Session) : Act Unit :=
  modify fun s => { s with
    disk := { after.disk with home := s.disk.home }, channels := after.channels }

/-- Takes note of how a process has ended.  If nothing else is to be done, that is how this one ends. -/
def conclude (mode : Mode) (c : Conclusion) : Act Unit := do
  if mode.last && (← get).traps.all fun t => t.2.isEmpty then throw (.replaced c)
  else Act.concludeAs c

/-- Starts a program and waits for it. -/
def callProgram (r : Running) (mode : Mode) (name : String) (arguments : List String) :
    Act Unit := do
  let s ← get
  match missing? r s name with
  | some cause => refuse name cause 127
  | none =>
    match startFirst r s ⟨name, arguments⟩ .notFound (programPaths s name) with
    | .error cause => refuse name cause (refusalStatus cause)
    | .ok (after, c) =>
      takeOver after
      conclude mode c

/-! ## Commands -/

/-- Lets a program take the place of this process. -/
def exec (r : Running) (arguments : List String) : Act Unit := do
  match arguments with
  | [] => Act.conclude 0
  | name :: arguments =>
    let s ← get
    match startFirst r s ⟨name, arguments⟩ .notFound (programPaths s name) with
    | .error cause =>
      refuse name cause (refusalStatus cause)
      throw .exited
    | .ok (after, c) =>
      takeOver after
      throw (.replaced c)

/-- Tells what carries out a name, if that is asked for. -/
def describe (r : Running) (arguments : List String) : Act Unit := do
  let (letters, names) ← Builtin.options "pvV" arguments
  if letters.contains 'v' || letters.contains 'V' then
    Builtin.identify r (letters.contains 'V') names
  else Act.conclude 0

/-- What carries out a command. -/
inductive Carrier
  /-- Nothing: there are no words. -/
  | nothing
  /-- A function. -/
  | function (body : Script) (arguments : List String)
  /-- A command of the shell. -/
  | builtin (name : String) (special : Bool) (action : Act Unit)
  /-- A program. -/
  | program (name : String) (arguments : List String)

/-- What carries out a command of some words. -/
def carrierOf (r : Running) (mode : Mode) (s : Session) (fields : List String) : Carrier :=
  let words := carriedWords s fields
  let isWrapped : Bool := words.length < fields.length
  match words with
  | [] => .nothing
  | name :: arguments =>
    match if isWrapped then none else s.functions.lookup name with
    | some body => .function body arguments
    | none =>
      let builtin (action : Act Unit) : Carrier :=
        .builtin name (specialCommands.contains name && !isWrapped) action
      match name with
      | "exec" => builtin (exec r arguments)
      | "command" => builtin (describe r arguments)
      | _ =>
        match builtin? r mode name with
        | some action => builtin (action arguments)
        | none => .program name arguments

/-- Whether a command is one of those that change the session for good. -/
def Carrier.isSpecial : Carrier → Bool
  | .builtin _ special _ => special
  | _ => false

/-- Carries out a function: its arguments and the parameters that it keeps to itself are gone
afterwards. -/
def callFunction (r : Running) (mode : Mode) (body : Script) (arguments : List String) :
    Act Unit := do
  let before ← get
  set { before with
    arguments, loops := 0, shadowed := [] :: before.shadowed, optionPlace := (1, 0) }
  Act.andThen
    (do
      match ← Act.attempt (r.run { mode with last := false } body) with
      | .ok () | .error .returned => return ()
      | .error e => throw e)
    (modify fun s =>
      let s := (s.shadowed.headD []).foldl (fun s (name, v) => s.putVariable name v) s
      { s with
        arguments := before.arguments, loops := before.loops, shadowed := before.shadowed
        optionPlace := before.optionPlace })

/-- Carries out a command of the shell.  A mistake in a special one ends the script. -/
def callBuiltin (name : String) (special : Bool) (action : Act Unit) : Act Unit := do
  let before := (← get).command
  modify fun s => { s with command := some name }
  let result ← Act.attempt action
  modify fun s => { s with command := before }
  match result with
  | .error .failed => if special then throw .failed
  | .error e => throw e
  | .ok () => return ()

/-- Carries out a command by its carrier. -/
def call (r : Running) (mode : Mode) : Carrier → Act Unit
  | .nothing => modify fun s => { s with status := s.outputStatus }
  | .function body arguments => callFunction r mode body arguments
  | .builtin name special action => callBuiltin name special action
  | .program name arguments => callProgram r mode name arguments

/-- The text that a text with parameters stands for. -/
def expanded (r : Running) (text : String) : Act String := do
  let reading := (Nested.atDepth nestingLimit).pieces .document
  match reading.run (Source.ofText text.toList (← get).nextDocument) with
  | .ok (w, _) => textOfWord (output r) w
  | .error _ => return text

/-- Shows a command that is about to be carried out, if that is asked for: where errors went before its
redirections. -/
def trace (r : Running) (descriptors : List (Nat × Nat)) (words : List String) : Act Unit := do
  if (← get).has 'x' then
    let front ← expanded r (((← get).lookup? "PS4").getD "")
    modify fun s =>
      let line := front ++ " ".intercalate words ++ "\n"
      let (written, _) := { s with descriptors }.write 2 line.toList
      { written with descriptors := s.descriptors }

/-- Carries out a command of words, assignments and redirections.  Assignments last if the command is
special or has no words, and else they end with it. -/
def simpleCommand (r : Running) (mode : Mode) (assignments : List (String × Word))
    (words : List Word) (redirections : List Redirection) : Act Unit := do
  modify fun s => { s with outputStatus := 0 }
  let fields ← commandFields r [] words
  let carrier := carrierOf r mode (← get) fields
  let openings ← redirections.mapM (opening r)
  let before ← get
  let lasts := fields.isEmpty || carrier.isSpecial
  let (keeps, exports) :=
    match carrier with
    | .builtin "exec" _ _ =>
      let isAlone := (carriedWords before fields).length == 1
      (isAlone, !isAlone)
    | _ => (false, !lasts)
  let isDone ← within r keeps openings do
    let assigned ← assignments.mapM fun (name, w) => do
      let value ← textOfWord (output r) w
      Act.assign name value exports
      return name ++ "=" ++ value
    trace r before.descriptors (assigned ++ fields)
    Act.andThen (call r mode carrier)
      (unless lasts do
        modify fun s => assignments.foldl (fun s (name, _) =>
          s.putVariable name (before.named.lookup name)) s)
  if !isDone && carrier.isSpecial then throw .failed

/-! ## Loops -/

/-- What a round of a loop comes to. -/
inductive Round
  | finished
  | broken
  deriving DecidableEq, Repr

/-- Carries out a round of a loop, or its condition. -/
def roundOf (a : Act Unit) : Act Round := do
  match ← Act.attempt a with
  | .ok () => return .finished
  | .error (.left 0 again) | .error (.left 1 again) => return if again then .finished else .broken
  | .error (.left (n + 1) again) => throw (.left n again)
  | .error e => throw e

/-- Carries out the rounds of a loop with a condition, at most as many as the number says, and gives
the exit code; `last` is the one of the round before. -/
def rounds (untilTrue : Bool) (condition body : Act Unit) : Nat → (last : Nat) → Act Nat
  | 0, last => return last
  | n + 1, last => do
    match ← roundOf condition with
    | .broken => return last
    | .finished =>
      if ((← get).status == 0) == untilTrue then return last
      else
        match ← roundOf body with
        | .broken => return (← get).status
        | .finished => rounds untilTrue condition body n (← get).status

/-- Carries out the rounds of a loop through values. -/
def roundsThrough (name : String) (body : Act Unit) : List String → Act Unit
  | [] => return ()
  | value :: rest => do
    Act.assign name value false
    match ← roundOf body with
    | .broken => return ()
    | .finished => roundsThrough name body rest

/-- Carries out a loop. -/
def inLoop (a : Act Unit) : Act Unit := do
  modify fun s => { s with loops := s.loops + 1 }
  Act.andThen a (modify fun s => { s with loops := s.loops - 1 })

/-! ## Scripts -/

/-- Whether any of some patterns matches a text. -/
def matchesAny (r : Running) (text : String) : List Word → Act Bool
  | [] => return false
  | w :: rest => do
    if (← patternOfWord (output r) w).matches text.toList then return true
    else matchesAny r text rest

/-- Carries out the first script with a pattern that matches a text. -/
def firstMatching (r : Running) (mode : Mode) (text : String) :
    List (List Word × Script) → Act Unit
  | [] => Act.conclude 0
  | (patterns, s) :: rest => do
    if ← matchesAny r text patterns then
      match s with
      | .nothing => Act.conclude 0
      | s => r.run mode s
    else firstMatching r mode text rest

/-- Carries out a script in a process of its own, with redirections. -/
def redirectedProcess (r : Running) (mode : Mode) (s : Script) (openings : List (Nat × Opening))
    (prepare : Act Unit) : Act Conclusion :=
  inProcess r mode s do
    prepare
    unless ← redirectAll r false openings do throw .failed

/-- Carries out a script that nobody waits for, at once.  It has nothing to read. -/
def inBackground (r : Running) (s : Script) (openings : List (Nat × Opening)) : Act Unit := do
  let c ← redirectedProcess r ⟨true, false⟩ s openings (modify fun s =>
    let (s, index) := s.opened .nowhere
    s.connect 0 (some index))
  let status ←
    match c with
    | .exit code => pure code
    | .signal number => pure (128 + number)
    | .struck process number => do
      Act.receive process number
      pure (128 + number)
  modify fun s => { s with
    jobs := (s.process + 1 + s.jobs.length, status) :: s.jobs, status := 0 }

/-- Carries out a script, whose parts are carried out by `r`, and says whether its exit code may end
the process: that of a command may, and those of its parts already have. -/
def carryOutParts (r : Running) (mode : Mode) : Script → Act Bool
  | .nothing => return false
  | .command line assignments words redirections => do
    modify fun s => { s with line }
    simpleCommand r mode assignments words redirections
    return true
  | .pipeline parts => do
    (← pipeline r mode none parts).forM Act.concludeAs
    return true
  | .sequence first second => do
    r.run { mode with last := false } first
    r.run mode second
    return false
  | .both first second => do
    r.run ⟨false, true⟩ first
    if (← get).status = 0 then r.run mode second
    return false
  | .either first second => do
    r.run ⟨false, true⟩ first
    if (← get).status ≠ 0 then r.run mode second
    return false
  | .negation s => do
    r.run ⟨false, true⟩ s
    modify fun s => { s with status := if s.status = 0 then 1 else 0 }
    return false
  | .branch condition whenTrue whenFalse => do
    r.run ⟨false, true⟩ condition
    if (← get).status = 0 then r.run mode whenTrue
    else
      match whenFalse with
      | .nothing => Act.conclude 0
      | s => r.run mode s
    return false
  | .loop untilTrue condition body => do
    inLoop do
      let run := rounds untilTrue (r.run ⟨false, true⟩ condition)
        (r.run { mode with last := false } body)
      Act.conclude (← run Act.repetitionLimit 0)
    return false
  | .forEach line name words body => do
    modify fun s => { s with line }
    let values ←
      match words with
      | none => pure (← get).arguments
      | some ws => do pure (← ws.mapM (fieldsOf (output r))).flatten
    if values.isEmpty then Act.conclude 0
    else inLoop (roundsThrough name (r.run { mode with last := false } body) values)
    return false
  | .choice line w cases => do
    modify fun s => { s with line }
    firstMatching r mode (← textOfWord (output r) w) cases
    return false
  | .subshell line s redirections => do
    modify fun s => { s with line }
    let openings ← redirections.mapM (opening r)
    conclude mode (← redirectedProcess r mode s openings (pure ()))
    return true
  | .background line s redirections => do
    modify fun s => { s with line }
    inBackground r s (← redirections.mapM (opening r))
    return false
  | .redirected line s redirections => do
    modify fun s => { s with line }
    let openings ← redirections.mapM (opening r)
    return !(← within r false openings (r.run { mode with last := false } s))
  | .function _ name body => do
    modify fun s => { s with
      functions := (name, body) :: s.functions.filter fun f => f.1 ≠ name, status := 0 }
    return false

/-- Carries out a script and what is to be done at signals that have come meanwhile.  A command that
fails ends the process if that is asked for and nobody has asked whether it succeeds. -/
def carryOut (r : Running) (mode : Mode) (s : Script) : Act Unit := do
  unless (← get).has 'n' do
    let counts ← carryOutParts r mode s
    respondToSignals r
    let s ← get
    if counts && s.has 'e' && !mode.tested && s.status != 0 then throw .exited

end Running

/-- How scripts are carried out that stand inside of each other as deeply as the number says.  A process
that goes deeper ends like one without memory. -/
def running (launch : Launch) (isFileAt : Disk → String → Except Cause Bool) : Nat → Running
  | 0 => ⟨fun _ _ => do throw (.killed (← get).process 11), launch, isFileAt⟩
  | depth + 1 => ⟨(running launch isFileAt depth).carryOut, launch, isFileAt⟩

/-- How deeply scripts may stand inside of each other while they are carried out. -/
def depthLimit : Nat := 20000

end CheckerTrials.Shell
