import CheckerTrials.Decimal.Natural
import CheckerTrials.Shell.Source

/-!
# Reading words

A word is a row of pieces.  What a character means depends on what surrounds it (`Surrounding`): outside
of quotes blanks and operators end a word, inside double quotes only the dollar sign, the backslash and
the backquote keep a meaning, and in the braces of a parameter a word may hold everything.

Words hold scripts and scripts hold words.  `Nested` is what can stand inside a word, one level deeper;
`Nested.atDepth` in `Shell.Grammar` ties the knot.
-/

set_option autoImplicit false

namespace CheckerTrials.Shell

/-- What surrounds the characters of a word. -/
inductive Surrounding
  /-- Nothing. -/
  | bare
  /-- Nothing, in the word that announces a document. -/
  | mark
  /-- Double quotes. -/
  | quotes
  /-- The braces of a parameter. -/
  | braces
  /-- The braces of a parameter in double quotes. -/
  | quotedBraces
  /-- An arithmetic expression. -/
  | arithmetic
  /-- A document. -/
  | document
  deriving DecidableEq, Repr

namespace Surrounding

/-- Whether characters are quoted by what surrounds them. -/
def isQuoting : Surrounding → Bool
  | .bare | .mark | .braces => false
  | _ => true

/-- Whether a backslash takes the meaning of a character. -/
def escapes (s : Surrounding) (c : Char) : Bool :=
  !s.isQuoting || c == '\\' || c.toNat == 0x60 || c == '$' || (c == '"' && s != .document) ||
    (c == '\x7d' && s == .quotedBraces)

/-- What is wrong with a word that ends with the script, if anything. -/
def complaint? : Surrounding → Option String
  | .bare | .mark | .document => none
  | .quotes | .quotedBraces => some "Unterminated quoted string"
  | .braces => some "Missing '\x7d'"
  | .arithmetic => some "Missing '))'"

end Surrounding

/-- What can stand inside a word or a command. -/
structure Nested where
  /-- The pieces up to the end of what surrounds them. -/
  pieces : Surrounding → Reading Word
  /-- A script up to the closing parenthesis, which is taken. -/
  enclosed : Reading Script
  /-- A script that is a text of its own. -/
  whole : Reading Script
  /-- The commands inside of a compound command; `mayBeEmpty` says whether there need be any. -/
  list : (mayBeEmpty : Bool) → Reading (Option Script)
  /-- A command, as the body of a function. -/
  command : Reading Script

/-- Whether a character ends a word outside of quotes. -/
def endsWord (c : Char) : Bool := " \t\n&()<>;|".toList.contains c

/-- Whether a character alone names a parameter. -/
def isSpecial (c : Char) : Bool := Decimal.isDigit c || "*@#?$!-".toList.contains c

/-- How far the reading of a word has come. -/
structure PartialWord where
  /-- The pieces, the last one first. -/
  pieces : List Piece
  /-- How many parentheses of an arithmetic expression are open. -/
  depth : Nat
  /-- Whether quotes inside of quotes are open. -/
  inner : Bool

namespace PartialWord

/-- Adds pieces. -/
def add (p : PartialWord) (more : List Piece) : PartialWord :=
  { p with pieces := more.reverse ++ p.pieces }

/-- Adds a character. -/
def addChar (p : PartialWord) (c : Char) (quoted : Bool) : PartialWord :=
  { p with pieces := .character c quoted :: p.pieces }

end PartialWord

namespace Reading

/-- Reads characters up to a single quote. -/
def singleQuoted : Reading (List Piece) := do
  let s ← get
  let text := s.rest.takeWhile (· != '\'')
  let line := s.line + text.count '\n'
  match s.rest.drop text.length with
  | [] =>
    set { s with rest := [], line }
    fail "Unterminated quoted string"
  | _ :: rest =>
    set { s with rest, line }
    return .quote :: text.map (Piece.character · true) ++ [.quote]

/-- Drops a character without looking at it. -/
def drop : Reading Unit := modify fun s => { s with rest := s.rest.tail }

/-- What a parameter in braces is for, after its name. -/
def useOf (nested : Nested) (quoted : Bool) : Reading Use := do
  let inBraces : Surrounding := if quoted then .quotedBraces else .braces
  let whenEmpty ← takes ':'
  let operator ← peek
  match operator with
  | some '-' => advance; return .orElse whenEmpty (← nested.pieces inBraces)
  | some '=' => advance; return .orAssign whenEmpty (← nested.pieces inBraces)
  | some '?' => advance; return .orFail whenEmpty (← nested.pieces inBraces)
  | some '+' => advance; return .ifSet whenEmpty (← nested.pieces inBraces)
  | some c =>
    if whenEmpty then
      drop
      return .unknown (← nested.pieces inBraces)
    else if c = '\x7d' then
      advance
      return .value
    else if c = '%' ∨ c = '#' then
      advance
      let longest ← takes c
      return .cut (c == '%') longest (← nested.pieces .braces)
    else
      drop
      return .unknown (← nested.pieces inBraces)
  | none => return .unknown (← nested.pieces inBraces)

/-- Reads a parameter in braces, after the opening one. -/
def bracedParameter (nested : Nested) (quoted : Bool) : Reading Piece := do
  let inBraces : Surrounding := if quoted then .quotedBraces else .braces
  let used (name : List Char) : Reading Piece := do
    return .parameter (String.ofList name) (← useOf nested quoted) quoted
  let unknown : Reading Piece := do
    return .parameter "" (.unknown (← nested.pieces inBraces)) quoted
  let counted (name : List Char) : Reading Piece := do
    if ← takes '\x7d' then return .parameter (String.ofList name) .length quoted else unknown
  match ← peek with
  | none => unknown
  | some c =>
    if beginsName c then used (← takeWhile isNameChar)
    else if Decimal.isDigit c then used (← takeWhile Decimal.isDigit)
    else if c = '\x7d' then unknown
    else do
      advance
      if c ≠ '#' then
        if isSpecial c then used [c] else unknown
      else
        match ← peek with
        | none => used ['#']
        | some d =>
          if beginsName d then counted (← takeWhile isNameChar)
          else do
            advance
            if d ≠ '\x7d' && (Decimal.isDigit d || (← peek) == some '\x7d') then
              if isSpecial d then counted [d] else unknown
            else do
              putBack d
              used ['#']

/-- The text between backquotes, after the first one. -/
def backquoted (quoted : Bool) : Reading (List Char) :=
  untilDone (fun (text : List Char) => do
    match ← peek with
    | none => fail "EOF in backquote substitution"
    | some c =>
      advance
      if c.toNat = 0x60 then return .inr text.reverse
      else if c ≠ '\\' then return .inl (c :: text)
      else
        match (← get).rest with
        | [] => return .inl (c :: text)
        | d :: _ =>
          advance
          if d = '\\' || d.toNat = 0x60 || d = '$' || (quoted && d = '"') then
            return .inl (d :: text)
          else return .inl (d :: c :: text)) []

/-- Reads what a dollar sign begins, after it. -/
def dollar (nested : Nested) (quoted : Bool) : Reading Piece := do
  match ← peek with
  | some '(' =>
    advance
    if ← takes '(' then return .number (← nested.pieces .arithmetic) quoted
    else return .output (← nested.enclosed) quoted
  | some '\x7b' =>
    advance
    bracedParameter nested quoted
  | some c =>
    if beginsName c then
      return .parameter (String.ofList (← takeWhile isNameChar)) .value quoted
    else if isSpecial c then
      advance
      return .parameter (String.singleton c) .value quoted
    else return .character '$' quoted
  | none => return .character '$' quoted

/-- Reads a character of a word and what it begins; the word so far, or all of it if it ends. -/
def pieceStep (nested : Nested) (s : Surrounding) (p : PartialWord) :
    Reading (PartialWord ⊕ Word) := do
  let done : PartialWord ⊕ Word := .inr p.pieces.reverse
  let quoted := s.isQuoting
  match ← peek with
  | none =>
    match s.complaint? with
    | some message => fail message
    | none => return done
  | some c =>
    if (s = .bare ∨ s = .mark) ∧ endsWord c then return done
    else do
      advance
      if (s = .quotes ∧ c = '"') ∨ (s = .braces ∧ c = '\x7d') ∨
          (s = .quotedBraces ∧ c = '\x7d' ∧ !p.inner) then return done
      else if c = '\\' then
        match (← get).rest with
        | [] => return .inl (p.addChar c true)
        | d :: _ =>
          advance
          let p := if s.escapes d then p else p.addChar c true
          return .inl (p.addChar d true)
      else if c = '\'' && !quoted then return .inl (p.add (← singleQuoted))
      else if c = '"' && !quoted then
        return .inl (p.add (.quote :: (← nested.pieces .quotes) ++ [.quote]))
      else if c = '"' ∧ s = .quotedBraces then return .inl { p with inner := !p.inner }
      else if c = '$' ∧ s ≠ .mark then return .inl (p.add [← dollar nested quoted])
      else if c.toNat = 0x60 ∧ s ≠ .mark then
        let text ← backquoted quoted
        return .inl (p.add [.output (← inside text 1 nested.whole) quoted])
      else if s = .arithmetic ∧ c = '(' then
        return .inl { p.addChar c quoted with depth := p.depth + 1 }
      else if s = .arithmetic ∧ c = ')' then
        match p.depth with
        | depth + 1 => return .inl { p.addChar c quoted with depth }
        | 0 => if ← takes ')' then return done else return .inl (p.addChar c quoted)
      else return .inl (p.addChar c quoted)

/-- Reads pieces up to the end of what surrounds them. -/
def readPieces (nested : Nested) (s : Surrounding) : Reading Word :=
  untilDone (pieceStep nested s) ⟨[], 0, false⟩

end Reading

end CheckerTrials.Shell
