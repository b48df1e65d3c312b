import CheckerTrials.Shell.Arithmetic
import CheckerTrials.Shell.Session

/-!
# Conditions

The command `test`, also written `[`, says whether a condition on texts, numbers and files holds.  Its
words are read from the left: a word counts as an operator if it may be one where it stands.

A reader is given the words from the one that is next and returns those from the last one it has read,
which is why the rest of a condition begins with the second of them.
-/

set_option autoImplicit false

namespace CheckerTrials.Shell

/-- What a word of a condition is. -/
inductive ConditionToken
  | ended
  | operand
  | unary
  | binary
  | negation
  | conjunction
  | disjunction
  | opening
  | closing
  deriving DecidableEq, Repr

/-- The operators in front of an operand. -/
def unaryOperators : List String :=
  ["-r", "-w", "-x", "-e", "-f", "-d", "-c", "-b", "-p", "-u", "-g", "-k", "-s", "-t", "-z", "-n", "-h",
    "-O", "-G", "-L", "-S"]

/-- The operators between two operands. -/
def comparisons : List String :=
  ["=", "!=", "<", ">", "-eq", "-ne", "-ge", "-gt", "-le", "-lt", "-nt", "-ot", "-ef"]

/-- The operator that a word is; an operand if it is none. -/
def conditionOperator (word : String) : ConditionToken :=
  if unaryOperators.contains word then .unary
  else if comparisons.contains word then .binary
  else if word = "!" then .negation
  else if word = "-a" then .conjunction
  else if word = "-o" then .disjunction
  else if word = "(" then .opening
  else if word = ")" then .closing
  else .operand

/-- What the first of some words is.  An operator without anything to act on is an operand. -/
def conditionToken : List String → ConditionToken
  | [] => .ended
  | word :: rest =>
    match conditionOperator word, rest with
    | .unary, [] => .operand
    | .unary, next :: _ :: _ => if conditionOperator next = .binary then .operand else .unary
    | .opening, [] => .operand
    | token, _ => token

/-! ## Files -/

/-- A path that leads to something that is no file of the disk. -/
inductive Device
  /-- What is written there is lost. -/
  | nowhere
  /-- The open file of a descriptor. -/
  | descriptor (n : Nat)
  deriving DecidableEq, Repr

/-- The device at a path. -/
def deviceAt? (path : String) : Option Device :=
  let numbered (front : String) : Option Device :=
    if path.startsWith front then
      (Decimal.natural? (path.toList.drop front.length)).map Device.descriptor
    else none
  match path with
  | "/dev/null" => some .nowhere
  | "/dev/stdin" => some (.descriptor 0)
  | "/dev/stdout" => some (.descriptor 1)
  | "/dev/stderr" => some (.descriptor 2)
  | _ => (numbered "/dev/fd/").or (numbered "/proc/self/fd/")

/-- Whether a file is as an operator asks. -/
def fileIs (s : Session) (operator path : String) : Bool :=
  match deviceAt? path with
  | some .nowhere => ["-r", "-w", "-e", "-c", "-O", "-G"].contains operator
  | some (.descriptor n) => (s.channel? n).isSome && ["-r", "-w", "-e"].contains operator
  | none =>
    match s.disk.find ⟨textOfRaw path⟩ with
    | .error _ => false
    | .ok entry =>
      match operator, entry with
      | "-e", _ | "-r", _ | "-w", _ | "-O", _ | "-G", _ => true
      | "-f", .file _ _ => true
      | "-d", .folder | "-x", .folder | "-s", .folder => true
      | "-x", .file _ executable => executable
      | "-s", .file content _ => content.size != 0
      | _, _ => false

/-- Whether two paths lead to the same thing. -/
def isSameFile (s : Session) (a b : String) : Bool :=
  let found (path : String) : Option Location :=
    let p : Path := ⟨textOfRaw path⟩
    match s.disk.find p, s.disk.locate p with
    | .ok _, .ok l => some l
    | _, _ => none
  (found a).isSome && found a == found b

/-! ## Operands -/

/-- The integer that a word is. -/
def integerWord (word : String) : Except String Int :=
  match integerPrefix? false word.toList with
  | some (n, rest) =>
    if rest.all isSpace && inRange n then .ok n else .error ("Illegal number: " ++ word)
  | none => .error ("Illegal number: " ++ word)

/-- Whether an operator in front of a word holds. -/
def unaryHolds (s : Session) (operator word : String) : Except String Bool :=
  match operator with
  | "-z" => .ok word.isEmpty
  | "-n" => .ok (!word.isEmpty)
  | "-t" => do
    let _ ← integerWord word
    return false
  | _ => .ok (fileIs s operator word)

/-- Whether an operator between two words holds. -/
def binaryHolds (s : Session) (a operator b : String) : Except String Bool :=
  let integers (holds : Int → Int → Bool) : Except String Bool := do
    return holds (← integerWord a) (← integerWord b)
  match operator with
  | "=" => .ok (a == b)
  | "!=" => .ok (a != b)
  | "<" => .ok (a < b)
  | ">" => .ok (b < a)
  | "-eq" => integers fun n m => n == m
  | "-ne" => integers fun n m => n != m
  | "-ge" => integers fun n m => m ≤ n
  | "-gt" => integers fun n m => m < n
  | "-le" => integers fun n m => n ≤ m
  | "-lt" => integers fun n m => n < m
  | "-ef" => .ok (isSameFile s a b)
  | _ => .ok false

/-! ## Conditions -/

/-- What has been read of a condition: whether it holds, and the words from the last one read. -/
abbrev ConditionResult := Except String (Bool × List String)

/-- Reads operands as long as an operator joins them. -/
def joinedBy (operator : ConditionToken) (combine : Bool → Bool → Bool)
    (operand : ConditionToken → List String → ConditionResult) :
    Nat → ConditionToken → List String → ConditionResult
  | 0, _, words => .ok (false, words)
  | n + 1, token, words => do
    let (a, words) ← operand token words
    if conditionToken (words.drop 1) = operator then
      let words := words.drop 2
      let (b, words) ← joinedBy operator combine operand n (conditionToken words) words
      return (combine a b, words)
    else return (a, words)

/-- Reads an operand with its operators, or a condition in parentheses, which `whole` reads. -/
def conditionOperand (s : Session) (whole : ConditionToken → List String → ConditionResult)
    (token : ConditionToken) (words : List String) : ConditionResult :=
  match token, words with
  | .ended, _ | _, [] => .ok (false, words)
  | .opening, _ :: rest =>
    if conditionToken rest = .closing then .ok (false, rest)
    else do
      let (holds, words) ← whole (conditionToken rest) rest
      let words := words.drop 1
      if conditionToken words = .closing then return (holds, words)
      else .error "closing paren expected"
  | .unary, operator :: rest =>
    match rest with
    | [] => .error (operator ++ ": argument expected")
    | a :: _ => do return (← unaryHolds s operator a, rest)
  | _, a :: rest =>
    match conditionToken rest, rest with
    | .binary, operator :: after =>
      match after with
      | [] => .error (operator ++ ": argument expected")
      | b :: _ => do return (← binaryHolds s a operator b, after)
    | _, _ => .ok (!a.isEmpty, words)

/-- Reads an operand with the negations in front of it. -/
def negatedOperand (s : Session) (whole : ConditionToken → List String → ConditionResult) :
    Nat → ConditionToken → List String → ConditionResult
  | 0, _, words => .ok (false, words)
  | n + 1, token, words =>
    if token = .negation then do
      let token := conditionToken (words.drop 1)
      let words := if token = .ended then words else words.drop 1
      let (holds, words) ← negatedOperand s whole n token words
      return (!holds, words)
    else conditionOperand s whole token words

/-- Reads a condition; the number bounds how deeply conditions stand inside of each other. -/
def wholeCondition (s : Session) : Nat → ConditionToken → List String → ConditionResult
  | 0, _, words => .ok (false, words)
  | depth + 1, token, words =>
    let size := words.length + 1
    let operand := negatedOperand s (wholeCondition s depth) size
    let conjunction := joinedBy .conjunction (· && ·) operand size
    joinedBy .disjunction (· || ·) conjunction size token words

/-- Whether a condition holds.  Three words with a comparison in the middle are one, and a negation in
front of two or three words is one. -/
def conditionHolds (s : Session) (words : List String) : Except String Bool :=
  let read (token : ConditionToken) (words : List String) : Except String Bool := do
    let (holds, rest) ← wholeCondition s (words.length + 1) token words
    match rest with
    | word :: _ :: _ => .error ((if word.isEmpty then "" else word ++ ": ") ++ "unexpected operator")
    | _ => .ok holds
  let plain (words : List String) : Except String Bool := read (conditionToken words) words
  let three (a b c : String) : Except String Bool :=
    if conditionOperator b = .binary then read .operand [a, b, c]
    else if a = "(" ∧ c = ")" then plain [b]
    else if a = "!" then (plain [b, c]).map (!·)
    else plain [a, b, c]
  match words with
  | [] => .ok false
  | [a, b, c] => three a b c
  | [a, b, c, d] =>
    if a = "(" ∧ d = ")" then plain [b, c]
    else if a = "!" then (three b c d).map (!·)
    else plain words
  | _ => plain words

end CheckerTrials.Shell
