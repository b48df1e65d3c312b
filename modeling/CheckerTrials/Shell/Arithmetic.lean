import CheckerTrials.Shell.Raw

/-!
# Arithmetic expressions

An expression is made of numbers, parameters and the operators of integer arithmetic.  Numbers have
sixty-four bits and wrap around; division goes toward zero.  `evaluateArithmetic` reads and evaluates in
one go, because the part of an expression that does not count is read but not evaluated.

An operand of `&&`, `||` or a condition that does not count is read with `counts` false; nothing in it
is assigned or divided.
-/

set_option autoImplicit false

namespace CheckerTrials.Shell

/-- Why an expression has no value. -/
inductive ArithmeticError
  /-- The expression is not one, for the reason given. -/
  | malformed (reason : String)
  /-- The value of a parameter is no number. -/
  | illegal (value : String)
  /-- A parameter cannot be changed. -/
  | fixed (name : String)
  deriving DecidableEq, Repr

/-- A part of an expression. -/
inductive Lexeme
  | number (n : Int64)
  | name (s : String)
  | operator (s : String)
  deriving DecidableEq

/-- The operators, longer ones first. -/
def arithmeticOperators : List String :=
  ["<<=", ">>=", "<<", ">>", "<=", ">=", "==", "!=", "&&", "||", "+=", "-=", "*=", "/=", "%=", "&=",
    "^=", "|=", "<", ">", "=", "!", "&", "|", "+", "-", "*", "/", "%", "^", "~", "(", ")", "?", ":"]

/-- The operators between two numbers, with how tightly they bind: a small number binds more
tightly. -/
def binaryOperators : List (String × Nat) := [
  ("*", 0), ("/", 0), ("%", 0), ("+", 1), ("-", 1), ("<<", 2), (">>", 2), ("<", 3), ("<=", 3),
  (">", 3), (">=", 3), ("==", 4), ("!=", 4), ("&", 5), ("^", 6), ("|", 7)]

/-- The greatest number. -/
def greatestNumber : Nat := 0x7FFFFFFFFFFFFFFF

/-- What an unsigned numeral says, with its base, and what follows it. -/
def numeralPrefix (s : List Char) : Nat × List Char :=
  let read (base : Nat) (s : List Char) : Nat × List Char :=
    let digits := s.takeWhile (isDigitOf base)
    (valueIn base digits, s.drop digits.length)
  match s with
  | '0' :: x :: d :: rest =>
    if (x = 'x' ∨ x = 'X') ∧ isDigitOf 16 d then read 16 (d :: rest) else read 8 s
  | '0' :: _ => read 8 s
  | _ => read 10 s

/-- An integer at the front of a text, after blanks and a sign, and what follows it; nothing if there
is none.  With `anyBase`, a leading zero says that the numeral is octal or hexadecimal. -/
def integerPrefix? (anyBase : Bool) (s : List Char) : Option (Int × List Char) :=
  let s := s.dropWhile isSpace
  let (negative, digits) :=
    match s with
    | '-' :: rest => (true, rest)
    | '+' :: rest => (false, rest)
    | _ => (false, s)
  if !digits.head?.any (isDigitOf 10) then none
  else
    let (n, rest) :=
      if anyBase then numeralPrefix digits
      else
        let own := digits.takeWhile (isDigitOf 10)
        (valueIn 10 own, digits.drop own.length)
    some (if negative then -(n : Int) else n, rest)

/-- Whether an integer is within the range of numbers. -/
def inRange (n : Int) : Bool := -(greatestNumber : Int) - 1 ≤ n && n ≤ greatestNumber

/-- Cuts an expression into lexemes; the number is a bound of its length. -/
def lexemes : Nat → List Char → Except ArithmeticError (List Lexeme)
  | 0, _ => .ok []
  | _ + 1, [] => .ok []
  | n + 1, c :: rest =>
    let s := c :: rest
    if isSpace c then lexemes n rest
    else if c.isDigit then do
      let (value, after) := numeralPrefix s
      return .number (Int64.ofNat (min greatestNumber value)) :: (← lexemes n after)
    else if beginsName c then do
      let name := s.takeWhile isNameChar
      return .name (String.ofList name) :: (← lexemes n (s.drop name.length))
    else
      match arithmeticOperators.find? fun o => o.toList.isPrefixOf s with
      | some o => do return .operator o :: (← lexemes n (s.drop o.length))
      | none => .ok [.operator (String.singleton c)]

/-- Where an expression gets the values of its parameters from. -/
structure Parameters where
  /-- The value of a parameter. -/
  value? : String → Option String
  /-- Whether a parameter cannot be changed. -/
  isFixed : String → Bool

/-- How far an expression has been read, and what it has assigned. -/
structure Evaluation where
  /-- What is left of it. -/
  rest : List Lexeme
  /-- The parameters it has assigned, the last one first. -/
  assigned : List (String × String)

/-- A way of evaluating a part of an expression. -/
abbrev Evaluating (α : Type) := StateT Evaluation (Except ArithmeticError) α

namespace Evaluating

/-- The next lexeme. -/
def peek : Evaluating (Option Lexeme) := do return (← get).rest.head?

/-- Takes a lexeme. -/
def advance : Evaluating Unit := modify fun e => { e with rest := e.rest.tail }

/-- Takes the next lexeme if it is the given operator. -/
def takes (operator : String) : Evaluating Bool := do
  if (← peek) = some (.operator operator) then
    advance
    return true
  else return false

/-- Gives up. -/
def fail {α : Type} (reason : String) : Evaluating α := throw (.malformed reason)

/-- A truth value as a number. -/
def truth (b : Bool) : Int64 := if b then 1 else 0

/-- The value of a parameter. -/
def valueOf (parameters : Parameters) (name : String) : Evaluating Int64 := do
  let e ← get
  let text := ((e.assigned.lookup name).or (parameters.value? name)).getD ""
  match integerPrefix? true text.toList with
  | some (n, rest) =>
    if rest.all isSpace && inRange n then return Int64.ofInt n else throw (.illegal text)
  | none => if text.toList.all isSpace then return 0 else throw (.illegal text)

/-- Sets a parameter. -/
def assign (parameters : Parameters) (name : String) (n : Int64) : Evaluating Int64 := do
  if parameters.isFixed name then throw (.fixed name)
  modify fun e => { e with assigned := (name, toString n.toInt) :: e.assigned }
  return n

/-- What an operator makes of two numbers. -/
def combine (operator : String) (a b : Int64) : Evaluating Int64 :=
  match operator with
  | "*" => return a * b
  | "/" => if b = 0 then fail "division by zero" else return a / b
  | "%" => if b = 0 then fail "division by zero" else return a % b
  | "+" => return a + b
  | "-" => return a - b
  | "<<" => return a <<< b
  | ">>" => return a >>> b
  | "<" => return truth (a < b)
  | "<=" => return truth (a ≤ b)
  | ">" => return truth (b < a)
  | ">=" => return truth (b ≤ a)
  | "==" => return truth (a == b)
  | "!=" => return truth (a != b)
  | "&" => return a &&& b
  | "^" => return a ^^^ b
  | _ => return a ||| b

/-- The operator between two numbers that is next, with how tightly it binds. -/
def binary? : Evaluating (Option (String × Nat)) := do
  match ← peek with
  | some (.operator o) => return (binaryOperators.lookup o).map fun binds => (o, binds)
  | _ => return none

/-- A number, a parameter or an expression in parentheses, with the signs in front of it.
`assignment` evaluates an expression one level deeper. -/
def primary (parameters : Parameters) (assignment : Bool → Evaluating Int64) (counts : Bool) :
    Nat → Evaluating Int64
  | 0 => fail "expecting primary"
  | n + 1 => do
    match ← peek with
    | some (.operator "(") =>
      advance
      let a ← assignment counts
      if ← takes ")" then return a else fail "expecting ')'"
    | some (.number a) =>
      advance
      return a
    | some (.name name) =>
      advance
      if counts then valueOf parameters name else return 0
    | some (.operator "+") =>
      advance
      primary parameters assignment counts n
    | some (.operator "-") =>
      advance
      return -(← primary parameters assignment counts n)
    | some (.operator "!") =>
      advance
      return truth ((← primary parameters assignment counts n) == 0)
    | some (.operator "~") =>
      advance
      return ~~~(← primary parameters assignment counts n)
    | _ => fail "expecting primary"

/-- The value of what follows a first operand `a`, as far as the operators bind more tightly than
`limit`. -/
def operations (operand : Evaluating Int64) (counts : Bool) :
    Nat → (limit : Nat) → Int64 → Evaluating Int64
  | 0, _, a => return a
  | n + 1, limit, a => do
    match ← binary? with
    | none => return a
    | some (o, binds) =>
      if limit ≤ binds then return a
      else
        advance
        let b ← operations operand counts n binds (← operand)
        let c ← if counts then combine o a b else pure b
        operations operand counts n limit c

/-- An expression; the number bounds how deeply expressions stand inside of each other. -/
def assignment (parameters : Parameters) : Nat → (counts : Bool) → Evaluating Int64
  | 0, _ => fail "expecting primary"
  | n + 1, counts => do
    let inner := assignment parameters n
    let size := (← get).rest.length + 1
    let operand (counts : Bool) : Evaluating Int64 := primary parameters inner counts size
    let sum (counts : Bool) : Evaluating Int64 := do
      operations (operand counts) counts size 8 (← operand counts)
    let rec conjunction (counts : Bool) : Nat → Evaluating Int64
      | 0 => fail "expecting primary"
      | m + 1 => do
        let a ← sum counts
        if ← takes "&&" then
          let b ← conjunction (counts && a != 0) m
          return truth (a != 0 && b != 0)
        else return a
    let rec disjunction (counts : Bool) : Nat → Evaluating Int64
      | 0 => fail "expecting primary"
      | m + 1 => do
        let a ← conjunction counts size
        if ← takes "||" then
          let b ← disjunction (counts && a == 0) m
          return truth (a != 0 || b != 0)
        else return a
    let rec conditional (counts : Bool) : Nat → Evaluating Int64
      | 0 => fail "expecting primary"
      | m + 1 => do
        let a ← disjunction counts size
        if ← takes "?" then
          let b ← inner (counts && a != 0)
          if ← takes ":" then
            let c ← conditional (counts && a == 0) m
            return if a != 0 then b else c
          else fail "expecting ':'"
        else return a
    match (← get).rest with
    | .name name :: .operator o :: _ =>
      let assigns := o = "=" ∨ (binaryOperators.any fun b => b.1 ++ "=" == o) ∧ o ≠ "<=" ∧ o ≠ ">="
          ∧ o ≠ "==" ∧ o ≠ "!="
      if assigns then
        advance
        advance
        let b ← inner counts
        if counts then
          let value ←
            if o = "=" then pure b
            else combine (String.ofList o.toList.dropLast) (← valueOf parameters name) b
          assign parameters name value
        else return b
      else conditional counts size
    | _ => conditional counts size

end Evaluating

/-- Evaluates an expression: its value, and the parameters that it assigns, the first one first. -/
def evaluateArithmetic (parameters : Parameters) (s : List Char) :
    Except ArithmeticError (Int64 × List (String × String)) := do
  let parts ← lexemes (s.length + 1) s
  let (n, e) ← (Evaluating.assignment parameters (s.length + 2) true).run ⟨parts, []⟩
  if e.rest.isEmpty then return (n, e.assigned.reverse)
  else .error (.malformed "expecting EOF")

end CheckerTrials.Shell
