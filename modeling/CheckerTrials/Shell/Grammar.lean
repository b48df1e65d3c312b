import CheckerTrials.Shell.Token

/-!
# Reading scripts

`Source.next` reads the next line of a script with all the commands in it, or the several lines that a
command takes.  What is read is carried out before the next line is read.

Commands hold words and words hold commands.  `Nested.atDepth` bounds how deeply: every reader is given
the readers of one level less.
-/

set_option autoImplicit false

namespace CheckerTrials.Shell

/-- The commands of the shell that no function may replace.  A mistake in one of them ends a script. -/
def specialCommands : List String :=
  [".", ":", "break", "continue", "eval", "exec", "exit", "export", "local", "readonly", "return", "set",
    "shift", "times", "trap", "unset"]

/-- Whether a token ends a list of commands. -/
def endsList : Token → Bool
  | .ended | .closing | .endOfCase => true
  | .reserved s => ["do", "done", "elif", "else", "esac", "fi", "then", "\x7d"].contains s
  | _ => false

/-- A token as a word. -/
def wordOf : Token → Word
  | .word w => w
  | .reserved s => s.toList.map (Piece.character · false)
  | _ => []

/-- An assignment at the front of a command: the characters before the first `=` are a name. -/
def assignment? (w : Word) : Option (String × Word) :=
  let isPlain (p : Piece) : Bool :=
    match p with
    | .character c false => c != '='
    | _ => false
  match bareText? (w.takeWhile isPlain), w.dropWhile isPlain with
  | some name, .character '=' false :: value =>
    if isName name.toList then some (name, value) else none
  | _, _ => none

namespace Reading

/-! ## Redirections -/

/-- The descriptor that a redirection copies, by its word. -/
def copyTarget (w : Word) : Target :=
  match bareText? w with
  | some "-" => .close
  | some s =>
    match s.toList with
    | [c] => if Decimal.isDigit c then .copy (Decimal.digitValue c) else .copyNamed w
    | _ => .copyNamed w
  | none => .copyNamed w

/-- Announces a document and gives its number. -/
def announce (w : Word) (dropsTabs : Bool) : Reading Nat := do
  let s ← get
  let a : Announced :=
    { index := s.nextDocument, mark := plainText w, dropsTabs, expands := !hasQuotes w }
  set { s with announced := s.announced ++ [a], nextDocument := s.nextDocument + 1 }
  return a.index

/-- Reads the word after a redirection operator. -/
def redirection (nested : Nested) (descriptor : Option Nat) (operator : String) :
    Reading Redirection := do
  let announces := operator = "<<" ∨ operator = "<<-"
  match ← anyToken nested (if announces then .mark else .bare) with
  | .word w =>
    let target : Target ←
      match operator with
      | ">" => pure (.create false w)
      | ">|" => pure (.create true w)
      | ">>" => pure (.append w)
      | "<" => pure (.read w)
      | "<>" => pure (.readWrite w)
      | "<<" => pure (.document (← announce w false))
      | "<<-" => pure (.document (← announce w true))
      | _ => pure (copyTarget w)
    return .of (descriptor.getD (if operator.startsWith "<" then 0 else 1)) target
  | t => unexpected t

/-- Reads redirections. -/
def redirections (nested : Nested) : Reading (List Redirection) :=
  untilDone (fun (read : List Redirection) => do
    match ← token nested false true with
    | .redirection descriptor operator =>
      return .inl ((← redirection nested descriptor operator) :: read)
    | t =>
      pushBack t
      return .inr read.reverse) []

/-! ## Commands -/

/-- A command that is being read, with its parts from the last to the first. -/
structure PartialCommand where
  assignments : List (String × Word)
  words : List Word
  redirections : List Redirection

/-- Reads a function, after its name and the opening parenthesis. -/
def functionAfter (nested : Nested) (name : Word) : Reading Script := do
  match ← token nested false false with
  | .closing =>
    match bareText? name with
    | some name =>
      if isName name.toList ∧ !specialCommands.contains name then
        return .function (← get).line name (← nested.command)
      else fail "Bad function name"
    | none => fail "Bad function name"
  | t => expected t .closing

/-- Reads a command of words, assignments and redirections, or a function. -/
def simpleCommand (nested : Nested) : Reading Script := do
  let line := (← get).line
  untilDone (fun (c : PartialCommand) => do
    let t ← token nested false false
    match t with
    | .word w =>
      match c.words, assignment? w with
      | [], some a => return .inl { c with assignments := a :: c.assignments }
      | _, _ => return .inl { c with words := w :: c.words }
    | .redirection descriptor operator =>
      let r ← redirection nested descriptor operator
      return .inl { c with redirections := r :: c.redirections }
    | _ =>
      match t, c with
      | .opening, ⟨[], [name], []⟩ => return .inr (← functionAfter nested name)
      | _, _ =>
        pushBack t
        return .inr
          (.command line c.assignments.reverse c.words.reverse c.redirections.reverse))
    ⟨[], [], []⟩

/-- Reads the commands inside of a compound command, of which there is at least one. -/
def body (nested : Nested) : Reading Script := do
  return (← nested.list false).getD .nothing

/-- Reads the rest of a condition, after its first word.  The parts that are read are kept until the
last one is known. -/
def branches (nested : Nested) : Reading Script := do
  let parts ← untilDone (fun (read : List (Script × Script)) => do
    let condition ← body nested
    expectReserved nested false "then"
    let whenTrue ← body nested
    let read := (condition, whenTrue) :: read
    match ← token nested false true with
    | .reserved "elif" => return .inl read
    | .reserved "else" => return .inr (read, ← body nested)
    | t =>
      pushBack t
      return .inr (read, .nothing)) []
  expectReserved nested false "fi"
  return parts.1.foldl (fun otherwise (condition, whenTrue) => .branch condition whenTrue otherwise)
    parts.2

/-- Reads the words of a loop after its variable; none if the loop goes through the arguments. -/
def loopWords (nested : Nested) : Reading (Option (List Word)) := do
  match ← token nested true true with
  | .reserved "in" =>
    let words ← untilDone (fun (read : List Word) => do
      match ← token nested false false with
      | .word w => return .inl (w :: read)
      | .newline | .semicolon => return .inr read.reverse
      | t => unexpected t) []
    return some words
  | .semicolon => return none
  | t =>
    pushBack t
    return none

/-- Reads the rest of a loop through words, after its first word. -/
def forLoop (nested : Nested) (line : Nat) : Reading Script := do
  match ← token nested false false with
  | .word w =>
    match (bareText? w).filter fun name => isName name.toList with
    | some name =>
      let words ← loopWords nested
      expectReserved nested true "do"
      let s ← body nested
      expectReserved nested false "done"
      return .forEach line name words s
    | none => fail "Bad for loop variable"
  | _ => fail "Bad for loop variable"

/-- Reads the patterns of a case and the parenthesis after them. -/
def casePatterns (nested : Nested) (first : Token) : Reading (List Word) := do
  let first ←
    match first with
    | .opening => token nested false false
    | t => pure t
  untilDone (fun (read : List Word) => do
    match ← token nested false false with
    | .pipe => return .inl (wordOf (← token nested false false) :: read)
    | .closing => return .inr read.reverse
    | t => expected t .closing) [wordOf first]

/-- Reads the rest of a choice, after its first word. -/
def choice (nested : Nested) (line : Nat) : Reading Script := do
  match ← token nested false false with
  | .word w =>
    expectReserved nested true "in"
    untilDone (fun (read : List (List Word × Script)) => do
      let ended (read : List (List Word × Script)) : Script := .choice line w read.reverse
      match ← token nested true true with
      | .reserved "esac" => return .inr (ended read)
      | t =>
        let patterns ← casePatterns nested t
        let read := (patterns, (← nested.list true).getD .nothing) :: read
        match ← token nested true true with
        | .reserved "esac" => return .inr (ended read)
        | .endOfCase => return .inl read
        | t => expected t .endOfCase) []
  | t => expected t (.word [])

/-- A script with redirections, if there are any. -/
def withRedirections (line : Nat) (s : Script) (rs : List Redirection) : Script :=
  match rs, s with
  | [], s => s
  | rs, .subshell line s _ => .subshell line s rs
  | rs, s => .redirected line s rs

/-- Reads a command. -/
def readCommand (nested : Nested) (acrossLines : Bool) : Reading Script := do
  let line := (← get).line
  let compound (s : Script) : Reading Script := do
    return withRedirections line s (← redirections nested)
  let loop (untilTrue : Bool) : Reading Script := do
    let condition ← body nested
    expectReserved nested false "do"
    let s ← body nested
    expectReserved nested false "done"
    compound (.loop untilTrue condition s)
  match ← token nested acrossLines true with
  | .reserved "if" => compound (← branches nested)
  | .reserved "while" => loop false
  | .reserved "until" => loop true
  | .reserved "for" => compound (← forLoop nested line)
  | .reserved "case" => compound (← choice nested line)
  | .reserved "\x7b" =>
    let s ← body nested
    expectReserved nested false "\x7d"
    compound s
  | .opening =>
    let s ← body nested
    match ← token nested false true with
    | .closing => compound (.subshell line s [])
    | t => expected t .closing
  | .word w =>
    pushBack (.word w)
    simpleCommand nested
  | .redirection descriptor operator =>
    pushBack (.redirection descriptor operator)
    simpleCommand nested
  | t => unexpected t

/-- Reads commands side by side. -/
def pipeline (nested : Nested) : Reading Script := do
  let t ← token nested true true
  let negated :=
    match t with
    | .reserved "!" => true
    | _ => false
  unless negated do pushBack t
  let first ← readCommand nested false
  let parts ← untilDone (fun (read : List Script) => do
    match ← token nested false false with
    | .pipe => return .inl ((← readCommand nested true) :: read)
    | t =>
      pushBack t
      return .inr read.reverse) [first]
  let s : Script :=
    match parts with
    | [s] => s
    | parts => .pipeline parts
  return if negated then .negation s else s

/-- Reads commands between `&&` and `||`. -/
def chain (nested : Nested) : Reading Script := do
  let first ← pipeline nested
  untilDone (fun (s : Script) => do
    match ← token nested false false with
    | .both => return .inl (.both s (← pipeline nested))
    | .either => return .inl (.either s (← pipeline nested))
    | t =>
      pushBack t
      return .inr s) first

/-! ## Lists of commands -/

/-- A script that nobody waits for. -/
def inBackground (line : Nat) : Script → Script
  | .redirected line s rs => .background line s rs
  | s => .background line s []

/-- A script after another one, if there is one. -/
def after? (before : Option Script) (s : Script) : Script :=
  before.elim s (.sequence · s)

/-- Where a list of commands stands. -/
inductive Place
  /-- On a line of its own, which ends it. -/
  | line
  /-- Inside of a compound command. -/
  | compound (mayBeEmpty : Bool)
  deriving DecidableEq, Repr

/-- Reads a list of commands; nothing if there are none. -/
def readList (nested : Nested) (place : Place) : Reading (Option Script) :=
  untilDone (fun (read : Option Script) => do
    let ended : Option Script ⊕ Option Script := .inr read
    match ← token nested (place != .line) true with
    | .newline =>
      announcedDocuments nested
      return .inr (some (read.getD .nothing))
    | .ended =>
      announcedDocuments nested
      pushBack .ended
      return ended
    | t =>
      pushBack t
      let mayEnd := read.isSome || place == .compound true
      if place ≠ .line ∧ mayEnd ∧ endsList t then return ended
      else
        let line := (← get).line
        let s ← chain nested
        let t ← token nested false false
        match t with
        | .background => return .inl (some (after? read (inBackground line s)))
        | .semicolon => return .inl (some (after? read s))
        | .newline | .ended =>
          pushBack t
          return .inl (some (after? read s))
        | _ =>
          if place = .line then unexpected t
          else
            pushBack t
            return .inr (some (after? read s))) none

end Reading

/-- The readers of what can stand inside of something else, which may be nested as deeply as the number
says. -/
def Nested.atDepth : Nat → Nested
  | 0 =>
    let refused {α : Type} : Reading α := Reading.fail "Script nested too deeply"
    ⟨fun _ => refused, refused, refused, fun _ => refused, refused⟩
  | depth + 1 =>
    let nested := atDepth depth
    let list : Reading (Option Script) := Reading.readList nested (.compound true)
    { pieces := Reading.readPieces nested
      enclosed := do
        let before := (← get).announced
        modify fun s => { s with announced := [] }
        let s ← list
        match ← Reading.token nested false true with
        | .closing =>
          modify fun s => { s with announced := before }
          return s.getD .nothing
        | t => Reading.expected t .closing
      whole := do return (← list).getD .nothing
      list := fun mayBeEmpty => Reading.readList nested (.compound mayBeEmpty)
      command := Reading.readCommand nested true }

/-- How deeply things may stand inside of each other. -/
def nestingLimit : Nat := 200

/-- The next line of a script. -/
structure ScriptLine where
  /-- The commands on it. -/
  script : Script
  /-- Whether the text of the script ends with it. -/
  isLast : Bool
  /-- What follows it. -/
  rest : Source

/-- Reads the next line of a script; nothing if there is none. -/
def Source.next (s : Source) : Except SyntaxError (Option ScriptLine) := do
  match ← (Reading.readList (.atDepth nestingLimit) .line).run s with
  | (none, _) => return none
  | (some script, rest) =>
    let isLast :=
      match rest.pushed with
      | some .ended => true
      | _ => false
    return some { script, isLast, rest }

end CheckerTrials.Shell
