import CheckerTrials.Note
import CheckerTrials.Trial.Basic
import CheckerTrials.Trial.Invocation

/-!
# Text results

The checker writes a result of up to five lines: its command line, the times of the samples, the lower
bounds, the upper bounds, and perhaps one more number.

* `Series.read`: a line of numbers, read from the left.  A number is the longest stretch of the
  characters that numbers are made of, and blanks between numbers are skipped.
* `TextResult.parse`: the whole result.  What is missing is found before anything is read, and of
  several faults the one that comes first in the file is named.
* `TextResult.parse` reads the fifth line up to the first number in it and looks no further.
-/

set_option autoImplicit false

namespace CheckerTrials

/-! ## Numbers in a line -/

/-- Why no number could be read. -/
inductive NumberError
  /-- The text does not begin with a number. -/
  | expected (rest : String)
  /-- The characters of a number, but not in the right order. -/
  | notFloat (number : String)
  /-- A number that is no count. -/
  | notCount (number : String)
  deriving DecidableEq, Repr

/-- What is said when no number could be read. -/
def NumberError.message : NumberError → String
  | .expected rest => "Expected number but found `" ++ rest ++ "`."
  | .notFloat number => "Unable to convert number " ++ number ++ " to f64."
  | .notCount number => "Unable to convert number " ++ number ++ " to u64."

namespace Series

/-- The characters that numbers are made of. -/
def isNumberChar (c : Char) : Bool :=
  Decimal.isDigit c || c == '.' || c == 'e' || c == 'E' || c == '-' || c == '+'

/-- The number at the front of a text. -/
def front (s : List Char) : List Char := s.takeWhile isNumberChar

/-- What follows the number at the front and the blanks after it. -/
def afterFront (s : List Char) : List Char := Text.trimStart (s.dropWhile isNumberChar)

/-- The double that a text of number characters says. -/
def readFloat (number : List Char) : Except NumberError Float :=
  match Decimal.float? number with
  | some x => .ok x
  | none => .error (.notFloat (String.ofList number))

/-- The count that a text of number characters says.  Counts are sometimes printed as doubles, so a
double that is a count is taken too. -/
def readCount (number : List Char) : Except NumberError Nat :=
  match Decimal.natural? number with
  | some n => .ok n
  | none =>
    match (Decimal.float? number).bind (Decimal.countOf? Decimal.wordLimit) with
    | some n => .ok n
    | none => .error (.notCount (String.ofList number))

/-- Reads the number at the front of a text with `read`. -/
def readFront {α : Type} (read : List Char → Except NumberError α) (s : List Char) :
    Except NumberError α :=
  if (front s).isEmpty then .error (.expected (String.ofList s)) else read (front s)

theorem length_dropWhile_le {p : Char → Bool} (s : List Char) : (s.dropWhile p).length ≤ s.length :=
  (List.dropWhile_suffix p).length_le

/-- Reading a number leaves less to read. -/
theorem length_afterFront_lt {s : List Char} (h : (front s).isEmpty = false) :
    (afterFront s).length < s.length := by
  cases s with
  | nil => simp [front] at h
  | cons c rest =>
    have hc : isNumberChar c = true := by
      cases hc : isNumberChar c with
      | true => rfl
      | false => simp [front, hc] at h
    have h1 := length_dropWhile_le (p := Text.isBlank) (rest.dropWhile isNumberChar)
    have h2 := length_dropWhile_le (p := isNumberChar) rest
    simp only [afterFront, Text.trimStart, List.dropWhile_cons, hc, if_true, List.length_cons]
    omega

/-- Reads numbers to the end of a text that does not begin with a blank. -/
def readFrom (s : List Char) : Except NumberError (List Float) :=
  if s.isEmpty then .ok []
  else if h : (front s).isEmpty then .error (.expected (String.ofList s))
  else
    match readFloat (front s) with
    | .error e => .error e
    | .ok x =>
      have : (afterFront s).length < s.length := length_afterFront_lt (by simpa using h)
      match readFrom (afterFront s) with
      | .error e => .error e
      | .ok xs => .ok (x :: xs)
termination_by s.length

/-- Reads a line of numbers. -/
def read (line : List Char) : Except NumberError (List Float) := readFrom (Text.trimStart line)

end Series

/-! ## The sections of a result -/

/-- The sections of a text result, in the order of its lines. -/
inductive Section
  /-- The command line of the checker. -/
  | invocation
  /-- The times of the samples. -/
  | times
  /-- The lower bounds. -/
  | lower
  /-- The upper bounds. -/
  | upper
  /-- The last number, which may be missing. -/
  | trailing
  deriving DecidableEq, Repr

namespace Section

/-- The sections that every result has. -/
def required : List Section := [.invocation, .times, .lower, .upper]

/-- The name of a section in messages. -/
def name : Section → String
  | .invocation => "invocation"
  | .times => "times"
  | .lower => "lower bounds"
  | .upper => "upper bounds"
  | .trailing => "trailing value"

/-- The line of a section, counted from 0. -/
def index : Section → Nat
  | .invocation => 0
  | .times => 1
  | .lower => 2
  | .upper => 3
  | .trailing => 4

/-- The line of a section in messages, counted from 1. -/
def lineNumber (s : Section) : Nat := s.index + 1

/-- The line of a section, if the section is there: a line that is more than blanks. -/
def line? (s : Section) (lines : List (List Char)) : Option (List Char) :=
  lines[s.index]?.filter fun line => !Text.isBlankText line

end Section

/-- Why a text is no result. -/
inductive ResultError
  /-- A section is missing or blank. -/
  | missing (place : Section)
  /-- The first line is no command line of the checker. -/
  | invocation (e : InvocationError)
  /-- A number of a section cannot be read. -/
  | number (place : Section) (e : NumberError)
  /-- The series have different lengths. -/
  | lengths (times lower upper : Nat)
  deriving DecidableEq, Repr

/-- What is said about a text that is no result. -/
def ResultError.message : ResultError → String
  | .missing s => s!"Missing section `{s.name}` at line {s.lineNumber}."
  | .invocation e => e.message
  | .number s e => s!"Line {s.lineNumber} ({s.name}): " ++ e.message
  | .lengths times lower upper =>
    s!"Series lengths differ: {times} times, {lower} lower bounds, {upper} upper bounds."

namespace TextResult

/-- Reads the series of a section. -/
def series (s : Section) (line : List Char) : Except ResultError (List Float) :=
  (Series.read line).mapError (.number s)

/-- What the last section says: explored states or missing probability. -/
def trailingValue (mode : Trailing) (line : Option (List Char)) :
    Except ResultError (Option Nat × Option Float) :=
  match line, mode with
  | none, _ => .ok (none, none)
  | some line, .states =>
    ((Series.readFront Series.readCount (Text.trimStart line)).map fun n => (some n, none)).mapError
      (.number .trailing)
  | some line, .missing =>
    ((Series.readFront Series.readFloat (Text.trimStart line)).map fun x => (none, some x)).mapError
      (.number .trailing)

/-- Reads the sections that every result has. -/
def parseSections (lines : List (List Char)) :
    Except ResultError (Invocation × List Float × List Float × List Float) :=
  match Section.required.find? fun s => (s.line? lines).isNone with
  | some s => .error (.missing s)
  | none => do
    let line (s : Section) := lines[s.index]?.getD []
    let invocation ← (Invocation.parse (String.ofList (line .invocation))).mapError .invocation
    let times ← series .times (line .times)
    let lower ← series .lower (line .lower)
    let upper ← series .upper (line .upper)
    if times.length ≠ lower.length ∨ times.length ≠ upper.length then
      .error (.lengths times.length lower.length upper.length)
    else .ok (invocation, times, lower, upper)

/-- Reads a text result.  Samples out of order and bounds that cross are noted, but they are no
fault of the text. -/
def parse (text : String) (mode : Trailing) (iteration : Nat) :
    Noted (Except ResultError (Trial Float)) :=
  let lines := Text.lines text.toList
  match parseSections lines with
  | .error e => pure (.error e)
  | .ok (invocation, times, lower, upper) => do
    let trial : Trial Float := {
      model := invocation.model, axis := invocation.axis?, times, lower, upper,
      states := none, missing := none, status := .success, iteration }
    if !trial.isChronological then
      Noted.warn s!"Timestamps of `{trial.model}` are not chronological."
    match trailingValue mode (Section.trailing.line? lines) with
    | .error e => pure (.error e)
    | .ok (states, missing) =>
      if trial.hasInvertedBounds then
        Noted.warn s!"Upper bound below lower bound in `{trial.model}` (iteration {iteration})."
      pure (.ok { trial with states, missing })

end TextResult

end CheckerTrials
