/-!
# Scripts

Stand-ins for the checker are written in the command language of the system: commands with quoted words,
parameters and redirections, put together with operators, conditions, loops and functions.

This is the form of scripts after reading.  `Shell.Source`, `Shell.Word`, `Shell.Token` and `Shell.Grammar`
read them, and `Shell.Session`, `Shell.Expansion`, `Shell.Builtin` and `Shell.Execution` carry them out.
-/

set_option autoImplicit false

namespace CheckerTrials.Shell

mutual

/-- A part of a word.  What is quoted stands for itself and is not split into fields. -/
inductive Piece
  /-- A character. -/
  | character (c : Char) (quoted : Bool)
  /-- A quotation mark, which makes a field even where nothing is quoted. -/
  | quote
  /-- The value of a parameter. -/
  | parameter (name : String) (use : Use) (quoted : Bool)
  /-- What a script prints. -/
  | output (s : Script) (quoted : Bool)
  /-- The value of an arithmetic expression. -/
  | number (w : List Piece) (quoted : Bool)

/-- What becomes of the value of a parameter. -/
inductive Use
  /-- It is taken as it is. -/
  | value
  /-- Its bytes are counted. -/
  | length
  /-- A word stands in for a value that is missing or, with `whenEmpty`, empty. -/
  | orElse (whenEmpty : Bool) (w : List Piece)
  /-- A word becomes the value of a parameter without one. -/
  | orAssign (whenEmpty : Bool) (w : List Piece)
  /-- A parameter without a value is an error that a word tells. -/
  | orFail (whenEmpty : Bool) (w : List Piece)
  /-- A word takes the place of a value that is there. -/
  | ifSet (whenEmpty : Bool) (w : List Piece)
  /-- What a pattern matches is cut off the front or the end. -/
  | cut (atEnd longest : Bool) (pattern : List Piece)
  /-- Something that is not known. -/
  | unknown (w : List Piece)

/-- What a redirection does with a descriptor. -/
inductive Target
  /-- It writes to a file that is emptied; `clobbers` says so even if files are to be spared. -/
  | create (clobbers : Bool) (w : List Piece)
  /-- It writes to the end of a file. -/
  | append (w : List Piece)
  /-- It reads from a file. -/
  | read (w : List Piece)
  /-- It reads from and writes to a file. -/
  | readWrite (w : List Piece)
  /-- It does what another descriptor does. -/
  | copy (descriptor : Nat)
  /-- It does what the descriptor that a word names does. -/
  | copyNamed (w : List Piece)
  /-- It is closed. -/
  | close
  /-- It reads from a document in the script. -/
  | document (index : Nat)

/-- A redirection of a descriptor. -/
inductive Redirection
  | of (descriptor : Nat) (target : Target)

/-- A script.  A line is the number of the one that something stands in, for messages. -/
inductive Script
  /-- Does nothing. -/
  | nothing
  /-- A command. -/
  | command (line : Nat) (assignments : List (String × List Piece)) (words : List (List Piece))
      (redirections : List Redirection)
  /-- Scripts side by side, each of which reads what the one before prints. -/
  | pipeline (parts : List Script)
  /-- One script and then another. -/
  | sequence (first second : Script)
  /-- The second script only if the first one succeeds. -/
  | both (first second : Script)
  /-- The second script only if the first one fails. -/
  | either (first second : Script)
  /-- Succeeds if the script fails. -/
  | negation (s : Script)
  /-- One of two scripts, depending on whether a third one succeeds. -/
  | branch (condition whenTrue whenFalse : Script)
  /-- A script as long as a condition succeeds or, with `untilTrue`, fails. -/
  | loop (untilTrue : Bool) (condition body : Script)
  /-- A script for every word of a list, or for every argument. -/
  | forEach (line : Nat) (name : String) (words : Option (List (List Piece))) (body : Script)
  /-- The first script with a pattern that matches a word. -/
  | choice (line : Nat) (w : List Piece) (cases : List (List (List Piece) × Script))
  /-- A script that keeps what it changes to itself. -/
  | subshell (line : Nat) (s : Script) (redirections : List Redirection)
  /-- A script that nobody waits for. -/
  | background (line : Nat) (s : Script) (redirections : List Redirection)
  /-- A script with redirections. -/
  | redirected (line : Nat) (s : Script) (redirections : List Redirection)
  /-- Gives a script a name. -/
  | function (line : Nat) (name : String) (body : Script)

end

/-- A word, before its parameters are replaced. -/
abbrev Word := List Piece

instance : Inhabited Script := ⟨.nothing⟩

/-- The characters of a word that is not quoted and holds no parameters. -/
def bareText? (w : Word) : Option String :=
  (w.mapM fun (p : Piece) =>
    match p with
    | .character c false => some c
    | _ => none).map String.ofList

/-- Whether anything in a word is quoted. -/
def hasQuotes (w : Word) : Bool :=
  w.any fun (p : Piece) =>
    match p with
    | .character _ quoted => quoted
    | .quote => true
    | _ => false

/-- The characters of a word, quoted or not. -/
def plainText (w : Word) : List Char :=
  w.filterMap fun (p : Piece) =>
    match p with
    | .character c _ => some c
    | _ => none

end CheckerTrials.Shell
