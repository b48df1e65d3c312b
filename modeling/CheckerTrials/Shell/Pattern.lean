import CheckerTrials.Shell.Raw

/-!
# Patterns

A pattern matches texts: `*` any characters, `?` one, and brackets one of several.  A character that was
quoted stands for itself, and so does a bracket that nothing closes.

* `matches_literal`: a pattern without any of these matches its own text only.
-/

set_option autoImplicit false

namespace CheckerTrials.Shell

/-- Characters between brackets. -/
inductive Choice
  /-- The characters from one to another. -/
  | range (first last : Char)
  /-- A class of characters with a name. -/
  | named (name : String)
  deriving DecidableEq, Repr

/-- A part of a pattern. -/
inductive PatternPart
  /-- The character itself. -/
  | literal (c : Char)
  /-- One character. -/
  | one
  /-- Any characters. -/
  | any
  /-- One of several characters or, with `negated`, none of them. -/
  | among (negated : Bool) (choices : List Choice)
  deriving DecidableEq, Repr

/-- A pattern. -/
abbrev Pattern := List PatternPart

/-- Whether a character belongs to a class. -/
def inClass (name : String) (c : Char) : Bool :=
  match name with
  | "alpha" => c.isAlpha
  | "digit" => c.isDigit
  | "alnum" => c.isAlphanum
  | "lower" => c.isLower
  | "upper" => c.isUpper
  | "space" => isSpace c
  | "blank" => c == ' ' || c == '\t'
  | "xdigit" => isDigitOf 16 c
  | "cntrl" => c.toNat < 32 || c.toNat == 127
  | "print" => 32 ≤ c.toNat && c.toNat < 127
  | "graph" => 32 < c.toNat && c.toNat < 127
  | "punct" => 32 < c.toNat && c.toNat < 127 && !c.isAlphanum
  | _ => false

/-- Whether a character is one of a choice. -/
def Choice.admits (c : Char) : Choice → Bool
  | .range first last => first ≤ c && c ≤ last
  | .named name => inClass name c

/-- All ends of a text, the longest one first. -/
def ends : List Char → List (List Char)
  | [] => [[]]
  | c :: rest => (c :: rest) :: ends rest

/-- Whether a pattern matches a text. -/
def Pattern.matches : Pattern → List Char → Bool
  | [], s => s.isEmpty
  | .any :: rest, s => (ends s).any (Pattern.matches rest)
  | .one :: rest, _ :: s => Pattern.matches rest s
  | .literal c :: rest, d :: s => c == d && Pattern.matches rest s
  | .among negated choices :: rest, d :: s =>
    choices.any (Choice.admits d) != negated && Pattern.matches rest s
  | _ :: _, [] => false

/-- A pattern without special parts matches its own text only. -/
theorem Pattern.matches_literal (s t : List Char) :
    Pattern.matches (s.map .literal) t = (s == t) := by
  induction s generalizing t with
  | nil => cases t <;> rfl
  | cons c s ih =>
    cases t with
    | nil => rfl
    | cons d t => simp [Pattern.matches, ih]

/-! ## Reading patterns -/

/-- Characters of a pattern, each with whether it was quoted. -/
abbrev Quotable := List (Char × Bool)

/-- The name of a class and what follows its closing bracket, after `[:`. -/
def className? (s : Quotable) : Option (String × Quotable) :=
  let name := s.takeWhile fun (c, _) => c.isAlpha
  match s.drop name.length with
  | (':', false) :: (']', false) :: rest => some (String.ofList (name.map Prod.fst), rest)
  | _ => none

/-- Reads choices up to the closing bracket; nothing if there is none.  The first character is a choice
even if it is a bracket. -/
def choices? : (first : Bool) → Quotable → Nat → Option (List Choice × Quotable)
  | _, _, 0 => none
  | first, s, n + 1 =>
    match s with
    | [] => none
    | (c, quoted) :: rest =>
      if c = ']' ∧ !quoted ∧ !first then some ([], rest)
      else
        let more (choice : Choice) (rest : Quotable) := do
          let (choices, after) ← choices? false rest n
          some (choice :: choices, after)
        let named :=
          match rest with
          | (':', false) :: after => if c = '[' ∧ !quoted then className? after else none
          | _ => none
        match named with
        | some (name, after) => more (.named name) after
        | none =>
          match rest with
          | ('-', false) :: (d, closes) :: after =>
            if d = ']' ∧ !closes then more (.range c c) rest else more (.range c d) after
          | _ => more (.range c c) rest

/-- The part of a pattern that begins with a character, and what follows it. -/
def partFrom (c : Char) (quoted : Bool) (rest : Quotable) : PatternPart × Quotable :=
  if quoted then (.literal c, rest)
  else if c = '*' then (.any, rest)
  else if c = '?' then (.one, rest)
  else if c = '[' then
    let (negated, inside) :=
      match rest with
      | ('!', false) :: after => (true, after)
      | _ => (false, rest)
    match choices? true inside (inside.length + 1) with
    | some (choices, after) => (.among negated choices, after)
    | none => (.literal c, rest)
  else (.literal c, rest)

/-- Reads a pattern; the number is a bound of its length. -/
def patternFrom : Nat → Quotable → Pattern
  | 0, _ => []
  | _ + 1, [] => []
  | n + 1, (c, quoted) :: rest =>
    let (part, after) := partFrom c quoted rest
    part :: patternFrom n after

/-- Characters with backslashes taken away that are not quoted themselves: they quote what follows
them.  A value may hold such backslashes. -/
def unescapedQuotable : Quotable → Quotable
  | ('\\', false) :: (c, _) :: rest => (c, true) :: unescapedQuotable rest
  | p :: rest => p :: unescapedQuotable rest
  | [] => []

/-- The pattern of characters. -/
def Pattern.of (s : Quotable) : Pattern :=
  let s := unescapedQuotable s
  patternFrom s.length s

/-- Whether characters hold something special. -/
def isSpecialPattern (s : Quotable) : Bool :=
  s.any fun (c, quoted) => !quoted && (c == '*' || c == '?' || c == '[')

/-- Where a text may be cut: the fronts and what follows them, the shortest one first. -/
def cuts : List Char → List (List Char × List Char)
  | [] => [([], [])]
  | c :: rest => ([], c :: rest) :: (cuts rest).map fun (front, after) => (c :: front, after)

/-- Cuts what a pattern matches off the front or the end of a text. -/
def Pattern.cutFrom (p : Pattern) (atEnd longest : Bool) (s : List Char) : List Char :=
  let all := cuts s
  if atEnd then
    let all := if longest then all else all.reverse
    ((all.find? fun (_, after) => p.matches after).map Prod.fst).getD s
  else
    let all := if longest then all.reverse else all
    ((all.find? fun (front, _) => p.matches front).map Prod.snd).getD s

end CheckerTrials.Shell
