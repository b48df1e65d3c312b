import CheckerTrials.Shell.Raw

/-!
# What `echo` prints

Backslashes in the arguments of `echo` stand for characters that are hard to write, and the escape `\c`
ends the output.  There is a command of the shell with this name and a program; they differ in their
options and in some escapes.
-/

set_option autoImplicit false

namespace CheckerTrials.Shell

/-- What is printed, and whether something ended the output before its end. -/
structure Printed where
  /-- The bytes, as characters. -/
  text : List Char
  /-- Whether `\c` ended the output. -/
  ended : Bool
  deriving DecidableEq, Repr

/-- The byte of digits of a base. -/
def byteOf (base : Nat) (digits : List Char) : Char := Char.ofNat (valueIn base digits % 256)

/-- Whether a character is an octal digit. -/
def isOctal (c : Char) : Bool := isDigitOf 8 c

/-- The character that a letter after a backslash stands for. -/
def letterEscape? (c : Char) : Option Char :=
  if c = 'a' then some '\x07'
  else if c = 'b' then some '\x08'
  else if c = 'e' then some '\x1b'
  else if c = 'f' then some '\x0c'
  else if c = 'n' then some '\n'
  else if c = 'r' then some '\r'
  else if c = 't' then some '\t'
  else if c = 'v' then some '\x0b'
  else if c = '\\' then some '\\'
  else none

/-- The character that an escape stands for, after the backslash, and what follows it. -/
def escape (s : List Char) : Char × List Char :=
  match s with
  | [] => ('\\', [])
  | c :: rest =>
    match letterEscape? c with
    | some e => (e, rest)
    | none =>
      let octal := (s.take 3).takeWhile isOctal
      if octal.isEmpty then ('\\', s) else (byteOf 8 octal, s.drop octal.length)

/-- Which escapes an argument may hold. -/
inductive Escapes
  /-- Those of the shell: a zero may stand before three octal digits. -/
  | ofShell
  /-- Those of the program `echo`, which knows hexadecimal digits too. -/
  | ofProgram
  deriving DecidableEq, Repr

/-- Replaces the escapes of an argument; the number is a bound of its length. -/
def unescape (kind : Escapes) : Nat → List Char → Printed
  | 0, s => ⟨s, false⟩
  | _ + 1, [] => ⟨[], false⟩
  | n + 1, '\\' :: rest =>
    let go (found : Char × List Char) : Printed :=
      let more := unescape kind n found.2
      ⟨found.1 :: more.text, more.ended⟩
    match rest with
    | 'c' :: _ => ⟨[], true⟩
    | '0' :: d :: _ => go (escape (if isOctal d then rest.tail else rest))
    | 'x' :: digits =>
      let hex := (digits.take 2).takeWhile (isDigitOf 16)
      if kind = .ofProgram ∧ !hex.isEmpty then go (byteOf 16 hex, digits.drop hex.length)
      else go (escape rest)
    | _ => go (escape rest)
  | n + 1, c :: rest =>
    let more := unescape kind n rest
    ⟨c :: more.text, more.ended⟩

/-- An argument with its escapes replaced. -/
def unescaped (kind : Escapes) (s : List Char) : Printed := unescape kind s.length s

/-- Words with a space between them. -/
def spaced (words : List String) : List Char := (" ".intercalate words).toList

/-- An output and then the end of the line, unless either is suppressed. -/
def Printed.line (p : Printed) (ends : Bool) : List Char :=
  p.text ++ if ends && !p.ended then ['\n'] else []

/-- What the command `echo` of the shell prints: with the escapes of its arguments replaced, and without
the end of the line if the first argument is `-n`. -/
def echoText (arguments : List String) : List Char :=
  let (words, ends) :=
    match arguments with
    | "-n" :: rest => (rest, false)
    | _ => (arguments, true)
  (unescaped .ofShell (spaced words)).line ends

/-- Whether an argument consists of options of the program `echo`. -/
def isEchoOption (argument : String) : Bool :=
  match argument.toList with
  | '-' :: c :: rest => (c :: rest).all ['n', 'e', 'E'].contains
  | _ => false

/-- What the program `echo` prints: its options say whether escapes are replaced and whether the line
ends. -/
def echoProgramText (arguments : List String) : List Char :=
  let options := arguments.takeWhile isEchoOption
  let letters := options.flatMap fun o => o.toList.tail
  let words := spaced (arguments.drop options.length)
  let escapes := (letters.filter (· != 'n')).getLast? == some 'e'
  let printed : Printed := if escapes then unescaped .ofProgram words else ⟨words, false⟩
  printed.line (!letters.contains 'n')

end CheckerTrials.Shell
