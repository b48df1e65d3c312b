import CheckerTrials.Text.Blank

/-!
# Launchers

The checker is started by a program that takes the checker's arguments in one of two ways: one by one,
or joined into the value of a single option.  Joined arguments have a space between them, and those
that are empty or hold a blank stand between double quotes.

* `Joined.join` joins arguments and `Joined.split` takes them apart: at the spaces that stand outside
  quotes, dropping the quotes.
-/

set_option autoImplicit false

namespace CheckerTrials

/-! ## Joined arguments -/

namespace Joined

/-- Whether an argument has to be quoted. -/
def needsQuotes (argument : List Char) : Bool :=
  argument.isEmpty || argument.any Text.isBlank

/-- An argument as it stands among joined ones. -/
def quoted (argument : List Char) : List Char :=
  if needsQuotes argument then '"' :: argument ++ ['"'] else argument

/-- Joins arguments with spaces. -/
def join (arguments : List (List Char)) : List Char :=
  [' '].intercalate (arguments.map quoted)

/-- Cuts a text at the spaces outside double quotes, and drops the quotes. -/
def pieces (inQuotes : Bool) : List Char → List (List Char)
  | [] => [[]]
  | c :: rest =>
    if c = '"' then pieces (!inQuotes) rest
    else if c = ' ' && !inQuotes then [] :: pieces inQuotes rest
    else
      match pieces inQuotes rest with
      | [] => [[c]]
      | piece :: more => (c :: piece) :: more

/-- The arguments of a joined text; an empty text has none. -/
def split (s : List Char) : List (List Char) :=
  if s.isEmpty then [] else pieces false s

end Joined

/-! ## Commands -/

/-- A program and its arguments. -/
structure Command where
  /-- The program, as it is looked up. -/
  program : String
  /-- The arguments of the program. -/
  arguments : List String
  deriving DecidableEq, Repr

/-- How the checker's arguments reach it. -/
inductive Passing
  /-- One by one, after the launcher's own arguments. -/
  | direct
  /-- Joined, as the value of an option of the launcher. -/
  | joined (option : String)
  deriving DecidableEq, Repr

/-- The program that starts the checker. -/
structure Launcher where
  /-- The program. -/
  program : String
  /-- Its own arguments. -/
  arguments : List String
  /-- How it takes the checker's arguments. -/
  passing : Passing
  deriving DecidableEq, Repr

namespace Launcher

/-- A program that takes the checker's arguments one by one. -/
def direct (program : String) : Launcher where
  program := program
  arguments := []
  passing := .direct

/-- The build tool of a project, which takes the checker's arguments joined. -/
def gradle (project : String) : Launcher where
  program := "./gradlew"
  arguments := ["-p", project, "run"]
  passing := .joined "--args"

/-- The command that starts the checker with the given arguments. -/
def command (l : Launcher) (arguments : List String) : Command where
  program := l.program
  arguments :=
    match l.passing with
    | .direct => l.arguments ++ arguments
    | .joined option =>
      l.arguments ++ [option, String.ofList (Joined.join (arguments.map String.toList))]

end Launcher

end CheckerTrials
