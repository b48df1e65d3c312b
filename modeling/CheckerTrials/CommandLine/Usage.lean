import CheckerTrials.Decimal.Natural
import CheckerTrials.Files.Path

/-!
# Reading a command line

A command line consists of options and positional arguments.  `Form` describes one of them, and
`Usage.read` reads a command line by the forms of a command.

* An option is written `--name value` or `--name=value`, and one with a short name also `-n value`,
  `-nvalue` or `-n=value`.  A word that begins with a dash is never the value of an option before it.
* After `--` every word is positional.
* The value of an option is looked at when the next word is understood, so of two faults the one that
  is further left is named, except that an unknown word is named before the value directly in front of
  it.
* What must not be given together is told before what is missing.
-/

set_option autoImplicit false

namespace CheckerTrials

/-- Why a command line is refused. -/
inductive UsageError
  /-- There is no command in it. -/
  | noCommand
  /-- The command does not exist. -/
  | unknownCommand
  /-- An option does not exist, or there are too many arguments. -/
  | unknownArgument
  /-- An option has no value, or one that is not among its values. -/
  | invalidValue
  /-- A value cannot be read. -/
  | unreadableValue
  /-- A switch has a value. -/
  | unneededValue
  /-- Something is given twice, or together with something that excludes it. -/
  | conflict
  /-- Something is missing. -/
  | missing
  /-- Help is asked for. -/
  | help
  /-- The version is asked for. -/
  | version
  deriving DecidableEq, Repr

/-- What is said about a command line that is refused. -/
def UsageError.message : UsageError → String
  | .noCommand => "No command is given."
  | .unknownCommand => "There is no such command."
  | .unknownArgument => "There is no such option or argument."
  | .invalidValue => "An option has no value, or one that it does not know."
  | .unreadableValue => "A value cannot be read."
  | .unneededValue => "An option has a value that it does not take."
  | .conflict => "Something is given twice, or together with something that excludes it."
  | .missing => "Something is missing."
  | .help => "Commands: run, summarize, compare, collect, evaluate, series, partition."
  | .version => "0.1.0"

namespace Usage

/-- How often something may be given, and whether it has a value. -/
inductive Arity
  /-- An option without a value, given once at most. -/
  | switch
  /-- A value, given once at most. -/
  | single
  /-- A value, given any number of times. -/
  | repeated
  deriving DecidableEq, Repr

/-- An option or a positional argument. -/
structure Form where
  /-- Its name, which is the long name of an option. -/
  name : String
  /-- Other long names. -/
  aliases : List String
  /-- The short name. -/
  short : Option Char
  /-- How often it may be given. -/
  arity : Arity
  /-- Whether it has to be given. -/
  required : Bool
  /-- What is wrong with a value. -/
  fault : String → Option UsageError

/-- The forms of a command. -/
structure Forms where
  /-- The options. -/
  options : List Form
  /-- The positional arguments, in order. -/
  positionals : List Form
  /-- Pairs of names that must not be given together. -/
  exclusive : List (String × String)

/-- The values that are given, in order, with the names of their forms. -/
abbrev Given := List (String × String)

/-- What has been read of a command line. -/
structure Reading where
  /-- The values that have been given. -/
  given : Given
  /-- What is being read, and its value if that has been seen. -/
  pending : Option (Form × Option String)
  /-- The positional arguments that are still to come. -/
  positionals : List Form
  /-- Whether only positional arguments follow. -/
  onlyPositionals : Bool

namespace Reading

/-- Takes a value for a form. -/
def take (r : Reading) (f : Form) (value : Option String) : Except UsageError Reading :=
  match value with
  | none => .error .invalidValue
  | some v =>
    if f.arity ≠ .repeated && r.given.any (fun p => p.1 == f.name) then .error .conflict
    else
      match f.fault v with
      | some e => .error e
      | none => .ok { r with given := r.given ++ [(f.name, v)] }

/-- Takes what is being read. -/
def settle (r : Reading) : Except UsageError Reading :=
  match r.pending with
  | none => .ok r
  | some (f, value) => { r with pending := none }.take f value

/-- Takes an option with the value that is attached to it, if there is one. -/
def takeOption (r : Reading) (f : Form) (attached : Option String) : Except UsageError Reading :=
  match f.arity, attached with
  | .switch, some _ => .error .unneededValue
  | .switch, none => do (← r.settle).take f (some "")
  | _, some v => do (← r.settle).take f (some v)
  | _, none => do return { ← r.settle with pending := some (f, none) }

/-- Takes a positional argument. -/
def takePositional (r : Reading) (word : String) : Except UsageError Reading :=
  match r.positionals with
  | [] => .error .unknownArgument
  | f :: rest => do return { ← r.settle with pending := some (f, some word), positionals := rest }

/-- The option with a long name. -/
def long? (forms : Forms) (name : String) : Option Form :=
  forms.options.find? fun f => f.name == name || f.aliases.contains name

/-- Reads a word that begins with two dashes. -/
def takeLong (forms : Forms) (r : Reading) (word : List Char) : Except UsageError Reading :=
  let name := String.ofList (word.takeWhile (· != '='))
  let attached :=
    match word.dropWhile (· != '=') with
    | _ :: value => some (String.ofList value)
    | [] => none
  match long? forms name with
  | some f => r.takeOption f attached
  | none =>
    if name = "help" then
      if attached.isSome then .error .unneededValue
      else do
        let _ ← r.settle
        .error .help
    else .error .unknownArgument

/-- Reads a word that begins with one dash. -/
def takeShort (forms : Forms) (r : Reading) (word : List Char) : Except UsageError Reading :=
  match word with
  | [] => .ok r
  | c :: rest =>
    match forms.options.find? fun f => f.short == some c with
    | some f =>
      let attached :=
        match rest with
        | [] => none
        | '=' :: value => some (String.ofList value)
        | value => some (String.ofList value)
      r.takeOption f attached
    | none =>
      if c = 'h' then do
        let _ ← r.settle
        .error .help
      else .error .unknownArgument

/-- Reads a word. -/
def next (forms : Forms) (r : Reading) (word : String) : Except UsageError Reading :=
  if r.onlyPositionals then r.takePositional word
  else
    match word.toList with
    | ['-', '-'] => .ok { r with onlyPositionals := true }
    | '-' :: '-' :: long => r.takeLong forms long
    | '-' :: c :: short => r.takeShort forms (c :: short)
    | _ =>
      match r.pending with
      | some (f, none) => .ok { r with pending := some (f, some word) }
      | _ => r.takePositional word

/-- Ends a command line. -/
def finish (forms : Forms) (r : Reading) : Except UsageError Given := do
  let r ← r.settle
  let has (name : String) : Bool := r.given.any fun p => p.1 == name
  if forms.exclusive.any fun p => has p.1 && has p.2 then .error .conflict
  else if (forms.options ++ forms.positionals).any fun f => f.required && !has f.name then
    .error .missing
  else .ok r.given

end Reading

/-- Reads the words of a command line by the forms of a command. -/
def read (forms : Forms) (words : List String) : Except UsageError Given := do
  let r ← words.foldlM (Reading.next forms) ⟨[], none, forms.positionals, false⟩
  r.finish forms

/-! ## Values -/

/-- Reads a count. -/
def count (s : String) : Except UsageError Nat :=
  match Decimal.natural? s.toList with
  | some n => .ok n
  | none => .error .unreadableValue

/-- Reads a path, which must not be empty. -/
def path (s : String) : Except UsageError Path :=
  if s.isEmpty then .error .invalidValue else .ok ⟨s⟩

/-- Reads one of several words. -/
def choice {α : Type} (normal : String → String) (all : List (String × α)) (s : String) :
    Except UsageError α :=
  match all.find? fun p => normal p.1 == normal s with
  | some (_, a) => .ok a
  | none => .error .invalidValue

/-- Reads a label and a folder with `=` between them, neither of which is empty. -/
def column (s : String) : Except UsageError (String × Path) :=
  let label := s.toList.takeWhile (· != '=')
  match s.toList.dropWhile (· != '=') with
  | _ :: folder =>
    if label.isEmpty || folder.isEmpty then .error .unreadableValue
    else .ok (String.ofList label, ⟨String.ofList folder⟩)
  | [] => .error .unreadableValue

/-- What is wrong with a value that is read with `reader`. -/
def faultOf {α : Type} (reader : String → Except UsageError α) (s : String) : Option UsageError :=
  match reader s with
  | .ok _ => none
  | .error e => some e

/-! ## Forms -/

/-- An option without a value. -/
def switch (name : String) (aliases : List String) : Form where
  name := name
  aliases := aliases
  short := none
  arity := .switch
  required := false
  fault := fun _ => none

/-- An option with a value. -/
def option {α : Type} (name : String) (aliases : List String)
    (reader : String → Except UsageError α) : Form where
  name := name
  aliases := aliases
  short := none
  arity := .single
  required := false
  fault := faultOf reader

/-- A positional argument that has to be given. -/
def positional {α : Type} (name : String) (reader : String → Except UsageError α) : Form :=
  { option name [] reader with required := true }

/-! ## What is given -/

/-- The value that is given for a name. -/
def Given.value? {α : Type} (g : Given) (name : String) (reader : String → Except UsageError α) :
    Except UsageError (Option α) :=
  match g.lookup name with
  | some s => (reader s).map some
  | none => .ok none

/-- The value that is given for a name, which has to be there. -/
def Given.value {α : Type} (g : Given) (name : String) (reader : String → Except UsageError α) :
    Except UsageError α :=
  match g.lookup name with
  | some s => reader s
  | none => .error .missing

/-- The values that are given for a name. -/
def Given.values {α : Type} (g : Given) (name : String) (reader : String → Except UsageError α) :
    Except UsageError (List α) :=
  (g.filter fun p => p.1 == name).mapM fun p => reader p.2

/-- Whether a name is given. -/
def Given.has (g : Given) (name : String) : Bool := g.any fun p => p.1 == name

end Usage

end CheckerTrials
