import CheckerTrials.Shell.Raw
import CheckerTrials.Shell.Script

/-!
# The text of a script

`Source` is the part of a script that has not been read yet, and `Reading` is a way of reading some of
it.  A script is read command by command while it is carried out, so that what stands before a mistake
has been done when the mistake is found.

A backslash in front of the end of a line joins two lines (`joined`).  A line that announces a document
is followed by its text; the document gets a number where it is announced, and its text is kept
under that number when the line has ended.
-/

set_option autoImplicit false

namespace CheckerTrials.Shell

/-- What a script is read as, piece by piece. -/
inductive Token
  | ended
  | newline
  | semicolon
  | background
  | both
  | either
  | pipe
  | opening
  | closing
  | endOfCase
  /-- A word. -/
  | word (w : Word)
  /-- A word that means something in the language itself. -/
  | reserved (s : String)
  /-- A redirection operator, perhaps with the descriptor that it is about. -/
  | redirection (descriptor : Option Nat) (operator : String)

/-- How a token is called in messages. -/
def Token.name : Token → String
  | .ended => "end of file"
  | .newline => "newline"
  | .semicolon => "\";\""
  | .background => "\"&\""
  | .both => "\"&&\""
  | .either => "\"||\""
  | .pipe => "\"|\""
  | .opening => "\"(\""
  | .closing => "\")\""
  | .endOfCase => "\";;\""
  | .word _ => "word"
  | .reserved s => "\"" ++ s ++ "\""
  | .redirection _ _ => "redirection"

/-- A document whose text follows the line that announces it. -/
structure Announced where
  /-- Its number. -/
  index : Nat
  /-- The line that ends it. -/
  mark : List Char
  /-- Whether tabs at the front of its lines are dropped. -/
  dropsTabs : Bool
  /-- Whether parameters in it are replaced. -/
  expands : Bool

/-- The part of a script that has not been read yet. -/
structure Source where
  /-- Its characters. -/
  rest : List Char
  /-- The number of the line that is next. -/
  line : Nat
  /-- A token that has been read too early. -/
  pushed : Option Token
  /-- The documents whose texts are still to come, the first one first. -/
  announced : List Announced
  /-- The documents that have been read. -/
  documents : List (Nat × Word)
  /-- The number of the next document. -/
  nextDocument : Nat

/-- The text of a script, in which the character NUL does not count; documents in it are counted from
`firstDocument`. -/
def Source.ofText (text : List Char) (firstDocument : Nat) : Source where
  rest := text.filter (· != '\x00')
  line := 1
  pushed := none
  announced := []
  documents := []
  nextDocument := firstDocument

/-- A mistake in a script. -/
structure SyntaxError where
  /-- The line. -/
  line : Nat
  /-- What is wrong. -/
  message : String

/-- A way of reading a part of a script. -/
abbrev Reading (α : Type) := StateT Source (Except SyntaxError) α

/-- Joins lines: drops backslashes in front of the ends of lines, and counts those lines. -/
def joined (line : Nat) : List Char → List Char × Nat
  | '\\' :: '\n' :: rest => joined (line + 1) rest
  | s => (s, line)

namespace Reading

/-- Gives up with a message. -/
def fail {α : Type} (message : String) : Reading α := do
  throw ⟨(← get).line, message⟩

/-- The next character, with lines joined. -/
def peek : Reading (Option Char) := do
  let s ← get
  let (rest, line) := joined s.line s.rest
  set { s with rest, line }
  return rest.head?

/-- Takes a character. -/
def advance : Reading Unit :=
  modify fun s =>
    match s.rest with
    | c :: rest => { s with rest, line := if c = '\n' then s.line + 1 else s.line }
    | [] => s

/-- Puts a character back, which is not the end of a line. -/
def putBack (c : Char) : Reading Unit := modify fun s => { s with rest := c :: s.rest }

/-- Takes the next character if it is the given one. -/
def takes (c : Char) : Reading Bool := do
  if (← peek) = some c then
    advance
    return true
  else return false

/-- Does a step until it gives a result, at most as often as the number says. -/
def repeatAtMost {σ α : Type} (step : σ → Reading (σ ⊕ α)) : Nat → σ → Reading α
  | 0, _ => fail "Script too long"
  | n + 1, s => do
    match ← step s with
    | .inl s => repeatAtMost step n s
    | .inr a => return a

/-- Does a step until it gives a result.  A step that gives none has taken a character, or a token that
was put back. -/
def untilDone {σ α : Type} (step : σ → Reading (σ ⊕ α)) (start : σ) : Reading α := do
  repeatAtMost step ((← get).rest.length + 3) start

/-- Takes characters as long as they are of a kind. -/
def takeWhile (p : Char → Bool) : Reading (List Char) :=
  untilDone (fun taken => do
    match ← peek with
    | some c =>
      if p c then
        advance
        return .inl (c :: taken)
      else return .inr taken.reverse
    | none => return .inr taken.reverse) []

/-- Reads another text in the middle of this one, whose lines are counted from `line`. -/
def inside {α : Type} (text : List Char) (line : Nat) (action : Reading α) : Reading α := do
  let s ← get
  set { s with rest := text, line, pushed := none, announced := [] }
  let a ← action
  modify fun after =>
    { s with documents := after.documents, nextDocument := after.nextDocument }
  return a

end Reading

end CheckerTrials.Shell
