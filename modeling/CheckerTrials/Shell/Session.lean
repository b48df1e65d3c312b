import CheckerTrials.Files.Disk
import CheckerTrials.Plan.Launcher
import CheckerTrials.Shell.Grammar

/-!
# What a script works with

A `Session` is the state of a process that carries out a script: the disk, the files that are open, the
parameters, and what the shell remembers.  An `Act` changes a session, and may end something bigger than
itself: a loop, a function, or the process (`Ending`).

Files that were opened together are written from where the last of them ended, so output and errors
that go to the same log do not overwrite each other.
-/

set_option autoImplicit false

namespace CheckerTrials.Shell

/-! ## Processes -/

/-- How a process has ended. -/
inductive Conclusion
  /-- With an exit code. -/
  | exit (code : Nat)
  /-- By a signal. -/
  | signal (number : Nat)
  /-- Together with the process of the given number, which a signal has ended. -/
  | struck (process number : Nat)
  deriving DecidableEq, Repr

/-- What a command ends besides itself. -/
inductive Ending
  /-- Loops, of which the last one goes on with `again`. -/
  | left (loops : Nat) (again : Bool)
  /-- A function, or a script that was read in. -/
  | returned
  /-- The process. -/
  | exited
  /-- The process, because of a mistake. -/
  | failed
  /-- The process, which another program has taken over. -/
  | replaced (c : Conclusion)
  /-- The process with the given number, by a signal. -/
  | killed (process number : Nat)
  deriving DecidableEq, Repr

/-- A signal. -/
structure Signal where
  /-- Its number. -/
  number : Nat
  /-- Its name. -/
  name : String
  /-- What is said about a process that it ends; nothing if it ends none. -/
  said : Option String

/-- The signals with a meaning of their own. -/
def ownSignals : List Signal := [
  ⟨0, "EXIT", none⟩, ⟨1, "HUP", some "Hangup"⟩, ⟨2, "INT", some ""⟩, ⟨3, "QUIT", some "Quit"⟩,
  ⟨4, "ILL", some "Illegal instruction"⟩, ⟨5, "TRAP", some "Trace/breakpoint trap"⟩,
  ⟨6, "ABRT", some "Aborted"⟩, ⟨7, "BUS", some "Bus error"⟩,
  ⟨8, "FPE", some "Floating point exception"⟩, ⟨9, "KILL", some "Killed"⟩,
  ⟨10, "USR1", some "User defined signal 1"⟩, ⟨11, "SEGV", some "Segmentation fault"⟩,
  ⟨12, "USR2", some "User defined signal 2"⟩, ⟨13, "PIPE", some ""⟩,
  ⟨14, "ALRM", some "Alarm clock"⟩, ⟨15, "TERM", some "Terminated"⟩,
  ⟨16, "16", some "Stack fault"⟩, ⟨17, "CHLD", none⟩, ⟨18, "CONT", none⟩, ⟨19, "STOP", none⟩,
  ⟨20, "TSTP", none⟩, ⟨21, "TTIN", none⟩, ⟨22, "TTOU", none⟩, ⟨23, "URG", none⟩,
  ⟨24, "XCPU", some "CPU time limit exceeded"⟩, ⟨25, "XFSZ", some "File size limit exceeded"⟩,
  ⟨26, "VTALRM", some "Virtual timer expired"⟩, ⟨27, "PROF", some "Profiling timer expired"⟩,
  ⟨28, "WINCH", none⟩, ⟨29, "IO", some "I/O possible"⟩, ⟨30, "PWR", some "Power failure"⟩,
  ⟨31, "SYS", some "Bad system call"⟩]

/-- The signals without a meaning of their own.  They are named from both ends. -/
def numberedSignals : List Signal :=
  (List.range 33).map fun n =>
    let after (front : String) (k : Nat) : String := if k = 0 then "" else front ++ k.repr
    let name :=
      if n < 2 then (32 + n).repr
      else if n < 18 then "RTMIN" ++ after "+" (n - 2)
      else "RTMAX" ++ after "-" (32 - n)
    let said := if n < 2 then "Unknown signal " ++ (32 + n).repr else "Real-time signal " ++ (n - 2).repr
    ⟨32 + n, name, some said⟩

/-- The signals. -/
def signals : List Signal := ownSignals ++ numberedSignals

/-- The signal of a number. -/
def signalOf? (number : Nat) : Option Signal := signals.find? fun s => s.number == number

/-- The signal that a word names, by its number or its name. -/
def signalNamed? (word : String) : Option Signal :=
  match Decimal.natural? word.toList with
  | some n => signalOf? n
  | none => signals.find? fun s => s.name == word

/-! ## Sessions -/

/-- Where an open file is read and written. -/
inductive Channel
  /-- On the disk, at a place in the file or, with `atEnd`, at its end. -/
  | file (location : Location) (offset : Nat) (atEnd : Bool)
  /-- In what another command has written, of which some has been read. -/
  | pipe (content : List Char) (offset : Nat)
  /-- Nowhere. -/
  | nowhere

/-- A parameter with a name. -/
structure Variable where
  /-- Its value. -/
  value : Option String
  /-- Whether programs that are started get it too. -/
  exported : Bool
  /-- Whether it cannot be changed any more. -/
  fixed : Bool

/-- What a script works with. -/
structure Session where
  /-- The disk.  Its working folder is that of the process. -/
  disk : Disk
  /-- The files that have been opened. -/
  channels : List Channel
  /-- The open file of each descriptor. -/
  descriptors : List (Nat × Nat)
  /-- The parameters with names. -/
  named : List (String × Variable)
  /-- What the parameters of functions that are being carried out were outside of them. -/
  shadowed : List (List (String × Option Variable))
  /-- The functions. -/
  functions : List (String × Script)
  /-- The name of the script. -/
  name : String
  /-- The arguments of the script or of the function. -/
  arguments : List String
  /-- The exit code of the last command. -/
  status : Nat
  /-- The exit code of the last script in a word of the command. -/
  outputStatus : Nat
  /-- The number of the line. -/
  line : Nat
  /-- The number of the line that will be read next. -/
  nextLine : Nat
  /-- The command of the shell that is being carried out. -/
  command : Option String
  /-- The options that are set. -/
  options : List Char
  /-- What is done at signals, and at the end for the signal 0. -/
  traps : List (Nat × String)
  /-- What the process of the script does at signals, if this is a part of it with a process of its
  own. -/
  outside : Option (List (Nat × String))
  /-- The signals that something is still to be done at. -/
  pending : List Nat
  /-- The exit code from before the signal at which something is being done. -/
  before : Option Nat
  /-- How many loops can be left. -/
  loops : Nat
  /-- The number of the process. -/
  process : Nat
  /-- Where the reading of options has come to: the argument, and how many of its characters have been
  read. -/
  optionPlace : Nat × Nat
  /-- The documents of the script. -/
  documents : List (Nat × Word)
  /-- The number of the next document. -/
  nextDocument : Nat
  /-- The processes that nobody has waited for, the last one first. -/
  jobs : List (Nat × Nat)

/-- An action on a session. -/
abbrev Act (α : Type) := ExceptT Ending (StateM Session) α

/-- Starts the program at a path with a session's disk, open files and exported parameters, and waits
for it.  The name in the command is the one that the program is told. -/
abbrev Launch := (path : String) → Command → Session → Except Cause (Session × Conclusion)

/-! ## Files -/

namespace Session

/-- The open file of a descriptor. -/
def channel? (s : Session) (descriptor : Nat) : Option (Nat × Channel) := do
  let index ← s.descriptors.lookup descriptor
  let channel ← s.channels[index]?
  some (index, channel)

/-- Lets a descriptor stand for an open file, or for none. -/
def connect (s : Session) (descriptor : Nat) (file : Option Nat) : Session :=
  let others := s.descriptors.filter fun p => p.1 ≠ descriptor
  { s with
    descriptors :=
      match file with
      | some index => (descriptor, index) :: others
      | none => others }

/-- Adds an open file, and gives its index. -/
def opened (s : Session) (c : Channel) : Session × Nat :=
  ({ s with channels := s.channels ++ [c] }, s.channels.length)

/-- Writes to a descriptor, and says whether it is open. -/
def write (s : Session) (descriptor : Nat) (text : List Char) : Session × Bool :=
  match s.channel? descriptor with
  | none => (s, text.isEmpty)
  | some (_, .nowhere) => (s, true)
  | some (index, .pipe content offset) =>
    ({ s with channels := s.channels.set index (.pipe (content ++ text) offset) }, true)
  | some (index, .file location offset atEnd) =>
    match s.disk.get? location with
    | some (.file content executable) =>
      let bytes := bytesOfRaw text
      let offset := if atEnd then content.size else offset
      let gap := ByteArray.mk (Array.replicate (offset - content.size) 0)
      let after := content.extract (offset + bytes.size) content.size
      let content := content.extract 0 offset ++ gap ++ bytes ++ after
      ({ s with
        disk := if text.isEmpty then s.disk else s.disk.put location (.file content executable)
        channels := s.channels.set index (.file location (offset + bytes.size) atEnd) }, true)
    | _ => (s, true)

/-- What is left to be read from a channel. -/
def remaining (s : Session) : Channel → List Char
  | .nowhere => []
  | .pipe content offset => content.drop offset
  | .file location offset _ =>
    match s.disk.get? location with
    | some (.file content _) => rawOfBytes (content.extract offset content.size)
    | _ => []

/-- Goes on by some characters in the open file of a descriptor. -/
def skip (s : Session) (descriptor count : Nat) : Session :=
  match s.channel? descriptor with
  | some (index, .pipe content offset) =>
    { s with channels := s.channels.set index (.pipe content (offset + count)) }
  | some (index, .file location offset atEnd) =>
    { s with channels := s.channels.set index (.file location (offset + count) atEnd) }
  | _ => s

/-- What a descriptor can still be read from; nothing if it is closed. -/
def input? (s : Session) (descriptor : Nat) : Option (List Char) :=
  (s.channel? descriptor).map fun (_, channel) => s.remaining channel

/-! ## Parameters -/

/-- The value of a parameter with a name. -/
def lookup? (s : Session) (name : String) : Option String := do
  let v ← s.named.lookup name
  v.value

/-- The characters that fields end at. -/
def separators (s : Session) : List Char :=
  ((s.lookup? "IFS").getD " \t\n").toList

/-- Whether an option is set. -/
def has (s : Session) (option : Char) : Bool := s.options.contains option

/-- Puts a parameter with a name into the place of the one before. -/
def putVariable (s : Session) (name : String) (v : Option Variable) : Session :=
  let others := s.named.filter fun p => p.1 ≠ name
  { s with
    named :=
      match v with
      | some v => (name, v) :: others
      | none => others }

/-- Whether a parameter cannot be changed. -/
def isFixed (s : Session) (name : String) : Bool :=
  (s.named.lookup name).any Variable.fixed

/-- The parameters that programs get. -/
def exports (s : Session) : List (String × Variable) :=
  (s.named.filter fun p => p.2.exported && p.2.value.isSome).map fun p =>
    (p.1, { p.2 with fixed := false })

end Session

/-! ## Acts -/

namespace Act

/-- Prints to a descriptor, and says whether it is open. -/
def print (descriptor : Nat) (text : List Char) : Act Bool :=
  modifyGet fun s =>
    let (s, isOpen) := s.write descriptor text
    (isOpen, s)

/-- Prints a message of the shell. -/
def complain (message : String) : Act Unit := do
  let s ← get
  let command := (s.command.map (· ++ ": ")).getD ""
  let _ ← print 2 (s!"{s.name}: {s.line}: " ++ command ++ message ++ "\n").toList

/-- Sets the exit code. -/
def conclude (status : Nat) : Act Unit := modify fun s => { s with status }

/-- Gives up because of a mistake. -/
def fail {α : Type} (message : String) : Act α := do
  complain message
  conclude 2
  throw .failed

/-- What an action gives, or what it ends. -/
def attempt {α : Type} (a : Act α) : Act (Except Ending α) := ExceptT.lift (ExceptT.run a)

/-- Does an action and then another one, whatever the first one ends. -/
def andThen {α : Type} (a : Act α) (after : Act Unit) : Act α := do
  let result ← attempt a
  after
  match result with
  | .ok a => return a
  | .error e => throw e

/-- Sets a parameter. -/
def assign (name value : String) (exported : Bool) : Act Unit := do
  let s ← get
  if s.isFixed name then fail (name ++ ": is read only")
  let exported := exported || s.has 'a' || (s.named.lookup name).any Variable.exported
  let s := s.putVariable name (some ⟨some value, exported, false⟩)
  let place := (Decimal.natural? value.toList).getD 1
  set (if name = "OPTIND" then { s with optionPlace := (max 1 place, 0) } else s)

/-- Does something as often as needed, at most as often as the number says: as long as it gives
`true`. -/
def repeatAtMost (step : Act Bool) : Nat → Act Unit
  | 0 => return ()
  | n + 1 => do
    if ← step then repeatAtMost step n

/-- How often something may be repeated. -/
def repetitionLimit : Nat := 1000000

/-! ## Processes -/

/-- Whether a process ends at a signal that it does not expect. -/
def isDeadly (number : Nat) : Bool := ((signalOf? number).bind Signal.said).isSome

/-- Lets a signal reach the process of this script or of one that has started it.  Only the process of
this script may have something to do then; any other one ends. -/
def receive (process number : Nat) : Act Unit := do
  let s ← get
  let expects := process == s.process && number != 0 && number != 9
  let action := if expects then (s.outside.getD s.traps).lookup number else none
  match action with
  | some action => unless action.isEmpty do set { s with pending := s.pending ++ [number] }
  | none => if isDeadly number then throw (.killed process number)

/-- Does something in a process of its own, which shares the disk and the open files but nothing else,
and tells how the process ends.  A signal to the process of the script ends that one too. -/
def forked (a : Act Unit) : Act Conclusion := do
  let before ← get
  set { before with
    traps := before.traps.filter fun t => t.2.isEmpty
    outside := some (before.outside.getD before.traps)
    pending := [], jobs := [] }
  let result ← attempt a
  let after ← get
  set { before with
    disk := { after.disk with home := before.disk.home }, channels := after.channels
    pending := before.pending ++ after.pending }
  match result with
  | .error (.killed process number) => throw (.killed process number)
  | .error (.replaced c) => return c
  | _ => return .exit (after.status % 256)

/-- Takes note of how a process has ended that was waited for. -/
def concludeAs (c : Conclusion) : Act Unit := do
  match c with
  | .exit code => conclude code
  | .signal number =>
    match (signalOf? number).bind Signal.said with
    | some said => unless said.isEmpty do let _ ← print 2 (said ++ "\n").toList
    | none => pure ()
    conclude (128 + number)
  | .struck process number =>
    receive process number
    conclude (128 + number)

end Act

end CheckerTrials.Shell
