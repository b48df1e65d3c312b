import CheckerTrials.Shell.Word

/-!
# Reading tokens

`Reading.token` reads the next token.  Whether a word counts as reserved depends on where it stands, and
so does whether ends of lines count; the caller says both.
-/

set_option autoImplicit false

namespace CheckerTrials.Shell

/-- The words that mean something in the language itself. -/
def reservedWords : List String :=
  ["!", "case", "do", "done", "elif", "else", "esac", "fi", "for", "if", "in", "then", "until", "while",
    "\x7b", "\x7d"]

namespace Reading

/-- Reads a redirection operator that begins with a character, after it. -/
def redirectionOperator (c : Char) : Reading String := do
  if c = '<' then
    if ← takes '<' then
      if ← takes '-' then return "<<-" else return "<<"
    else if ← takes '&' then return "<&"
    else if ← takes '>' then return "<>"
    else return "<"
  else if ← takes '>' then return ">>"
  else if ← takes '|' then return ">|"
  else if ← takes '&' then return ">&"
  else return ">"

/-- Reads a word, or a redirection with the digit in front of it. -/
def wordOrRedirection (nested : Nested) (s : Surrounding) : Reading Token := do
  let w ← readPieces nested s
  match ← peek with
  | some c =>
    if c ≠ '<' ∧ c ≠ '>' then return .word w
    else
      match w with
      | [] =>
        advance
        return .redirection none (← redirectionOperator c)
      | [.character d false] =>
        if Decimal.isDigit d then
          advance
          return .redirection (some (Decimal.digitValue d)) (← redirectionOperator c)
        else return .word w
      | _ => return .word w
  | none => return .word w

/-- Drops blanks and comments, and gives the character after them. -/
def skipBlanks : Reading (Option Char) :=
  untilDone (fun (_ : Unit) => do
    match ← peek with
    | some c =>
      if c = ' ' ∨ c = '\t' then
        advance
        return .inl ()
      else if c = '#' then
        modify fun s => { s with rest := s.rest.dropWhile (· != '\n') }
        return .inl ()
      else return .inr (some c)
    | none => return .inr none) ()

/-- Reads a token that no earlier one was put back for. -/
def freshToken (nested : Nested) (s : Surrounding) : Reading Token := do
  match ← skipBlanks with
  | none => return .ended
  | some c =>
    if c = '\n' then advance; return .newline
    else if c = '&' then
      advance
      if ← takes '&' then return .both else return .background
    else if c = '|' then
      advance
      if ← takes '|' then return .either else return .pipe
    else if c = ';' then
      advance
      if ← takes ';' then return .endOfCase else return .semicolon
    else if c = '(' then advance; return .opening
    else if c = ')' then advance; return .closing
    else wordOrRedirection nested s

/-! ## Documents -/

/-- Whether an odd number of backslashes ends a line, so that the next one belongs to it. -/
def isContinued (line : List Char) : Bool :=
  (line.reverse.takeWhile (· == '\\')).length % 2 == 1

/-- The text of a document and what follows it.  The last argument is a bound of the number of
lines. -/
def documentText (a : Announced) : (continued : Bool) → List Char → Nat → List Char × List Char
  | _, [], _ => ([], [])
  | _, s, 0 => ([], s)
  | continued, s, n + 1 =>
    let line := s.takeWhile (· != '\n')
    let rest := (s.drop line.length).drop 1
    let line := if a.dropsTabs && !continued then line.dropWhile (· == '\t') else line
    if !continued && line == a.mark then ([], rest)
    else
      let (more, after) := documentText a (a.expands && isContinued line) rest n
      let ended := (s.takeWhile (· != '\n')).length < s.length
      (line ++ (if ended then ['\n'] else []) ++ more, after)

/-- Reads the text of an announced document. -/
def document (nested : Nested) (a : Announced) : Reading Unit := do
  let s ← get
  let (text, rest) := documentText a false s.rest (s.rest.length + 1)
  let w ←
    if a.expands then inside text s.line (nested.pieces .document)
    else pure (text.map (Piece.character · true))
  let taken := s.rest.take (s.rest.length - rest.length)
  modify fun after =>
    { after with
      rest, line := s.line + taken.count '\n'
      documents := (a.index, w) :: after.documents }

/-- Reads the texts of all announced documents. -/
def announcedDocuments (nested : Nested) : Reading Unit := do
  let all := (← get).announced
  modify fun s => { s with announced := [] }
  all.forM (document nested)

/-! ## Tokens -/

/-- A word as a token, reserved or not. -/
def classified (t : Token) : Token :=
  match t with
  | .word w =>
    match (bareText? w).filter reservedWords.contains with
    | some s => .reserved s
    | none => t
  | t => t

/-- Reads a token, or takes the one that was put back. -/
def anyToken (nested : Nested) (s : Surrounding) : Reading Token := do
  match (← get).pushed with
  | some t =>
    modify fun s => { s with pushed := none }
    return t
  | none => freshToken nested s

/-- Reads the next token.  With `acrossLines`, ends of lines are dropped first; with `reserved`, words
may be reserved. -/
def token (nested : Nested) (acrossLines reserved : Bool) : Reading Token := do
  let t ←
    if acrossLines then
      untilDone (fun (_ : Unit) => do
        match ← anyToken nested .bare with
        | .newline =>
          announcedDocuments nested
          return .inl ()
        | t => return .inr t) ()
    else anyToken nested .bare
  return if reserved then classified t else t

/-- Puts a token back. -/
def pushBack (t : Token) : Reading Unit := modify fun s => { s with pushed := some t }

/-- Gives up because of a token. -/
def unexpected {α : Type} (t : Token) : Reading α := fail (t.name ++ " unexpected")

/-- Gives up because a token is not another one. -/
def expected {α : Type} (t wanted : Token) : Reading α :=
  fail (t.name ++ " unexpected (expecting " ++ wanted.name ++ ")")

/-- Reads a reserved word that must be next. -/
def expectReserved (nested : Nested) (acrossLines : Bool) (s : String) : Reading Unit := do
  match ← token nested acrossLines true with
  | .reserved r => if r = s then return () else expected (.reserved r) (.reserved s)
  | t => expected t (.reserved s)

end Reading

end CheckerTrials.Shell
