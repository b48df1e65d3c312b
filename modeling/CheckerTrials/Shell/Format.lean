import CheckerTrials.Decimal.Numeral
import CheckerTrials.Decimal.Written
import CheckerTrials.Shell.Arithmetic
import CheckerTrials.Shell.Printing

/-!
# What `printf` prints

A format holds conversions, each of which takes an argument.  It is used again as long as there are
arguments left and it takes some (`formatAll`).  An argument that is missing counts as empty or as zero;
one that is no number is complained about and printed as far as it is one.
-/

set_option autoImplicit false

namespace CheckerTrials.Shell

/-! ## Layout -/

/-- How the result of a conversion is laid out. -/
structure Layout where
  /-- The flags after the percent sign. -/
  flags : List Char
  /-- The least width. -/
  width : Nat
  /-- The number after the point. -/
  precision : Option Nat

namespace Layout

/-- Whether a flag is set. -/
def has (l : Layout) (flag : Char) : Bool := l.flags.contains flag

/-- Fills a text with blanks up to the width. -/
def pad (l : Layout) (s : List Char) : List Char :=
  let fill := List.replicate (l.width - s.length) ' '
  if l.has '-' then s ++ fill else fill ++ s

/-- Lays out a number with what stands in front of its digits.  With `zeros`, zeros may fill it up. -/
def number (l : Layout) (zeros : Bool) (front digits : List Char) : List Char :=
  if zeros && l.has '0' && !l.has '-' then
    front ++ List.replicate (l.width - front.length - digits.length) '0' ++ digits
  else l.pad (front ++ digits)

/-- The sign of a number. -/
def sign (l : Layout) (negative : Bool) : List Char :=
  if negative then ['-'] else if l.has '+' then ['+'] else if l.has ' ' then [' '] else []

/-- The digits of an integer, at least as many as the precision says. -/
def digits (l : Layout) (base n : Nat) : List Char :=
  let own := if n = 0 ∧ l.precision = some 0 then [] else Nat.toDigits base n
  List.replicate (l.precision.getD 1 - own.length) '0' ++ own

/-- Lays out an integer with a sign. -/
def integer (l : Layout) (n : Int) : List Char :=
  l.number l.precision.isNone (l.sign (n < 0)) (l.digits 10 n.natAbs)

/-- Lays out a count. -/
def count (l : Layout) (letter : Char) (n : Nat) : List Char :=
  let zeros := l.precision.isNone
  if letter = 'o' then
    let own := l.digits 8 n
    l.number zeros [] (if l.has '#' && own.head? != some '0' then '0' :: own else own)
  else if letter = 'u' then l.number zeros [] (l.digits 10 n)
  else
    let front := if l.has '#' && n != 0 then ['0', 'x'] else []
    let upper (s : List Char) : List Char := if letter = 'X' then s.map Char.toUpper else s
    l.number zeros (upper front) (upper (l.digits 16 n))

end Layout

/-! ## Doubles -/

/-- Digits without the zeros at their end, and without a point there. -/
def dropZeros (s : List Char) : List Char :=
  if s.contains '.' then
    let s := (s.reverse.dropWhile (· == '0')).reverse
    if s.getLast? = some '.' then s.dropLast else s
  else s

/-- Digits of a fraction with an exponent: its digits rounded to `places` after the first one. -/
def exponentDigits (places num den : Nat) : List Char × Int :=
  if num = 0 then (Decimal.withPlaces places 0, 0)
  else
    let leading := Decimal.floorLog10 num den
    let rounded (leading : Int) : Nat :=
      let (num, den) := Decimal.scaled 10 num den (leading - places)
      Decimal.roundQuotient .toEven num den
    let n := rounded leading
    if Nat.pow 10 (places + 1) ≤ n then (Decimal.withPlaces places (rounded (leading + 1)), leading + 1)
    else (Decimal.withPlaces places n, leading)

/-- The text of an exponent, of two digits at least. -/
def exponentText (exponent : Int) : List Char :=
  let digits := Nat.toDigits 10 exponent.natAbs
  (if exponent < 0 then '-' else '+') :: List.replicate (2 - digits.length) '0' ++ digits

/-- The digits of a fraction, in the way of a conversion. -/
def doubleDigits (l : Layout) (letter : Char) (num den : Nat) : List Char :=
  let places := l.precision.getD 6
  let point (s : List Char) : List Char := if l.has '#' && !s.contains '.' then s ++ ['.'] else s
  let fixed (places : Nat) : List Char :=
    Decimal.withPlaces places (Decimal.roundQuotient .toEven (num * Nat.pow 10 places) den)
  let scientific (tidy : List Char → List Char) (places : Nat) : List Char :=
    let (digits, exponent) := exponentDigits places num den
    point (tidy digits) ++ 'e' :: exponentText exponent
  if letter = 'f' then point (fixed places)
  else if letter = 'e' then scientific id places
  else
    let wanted := max 1 places
    let tidy := if l.has '#' then id else dropZeros
    let exponent := (exponentDigits (wanted - 1) num den).2
    if -4 ≤ exponent ∧ exponent < wanted then point (tidy (fixed ((wanted : Int) - 1 - exponent).toNat))
    else scientific tidy (wanted - 1)

/-- Lays out a double. -/
def Layout.double (l : Layout) (letter : Char) (x : Float) : List Char :=
  let shown (s : List Char) : List Char := if letter.isUpper then s.map Char.toUpper else s
  match Decimal.parts x with
  | .nan => l.number false (l.sign false) (shown "nan".toList)
  | .infinite negative => l.number false (l.sign negative) (shown "inf".toList)
  | .finite negative mantissa exponent =>
    let (num, den) := Decimal.fraction mantissa exponent
    l.number true (l.sign negative) (shown (doubleDigits l letter.toLower num den))

/-- The longest front of a text that is a numeral, and what follows it. -/
def doublePrefix? (s : List Char) : Option (Float × List Char) :=
  let own := s.dropWhile isSpace
  let lengths := (List.range (own.length + 1)).reverse
  lengths.findSome? fun n =>
    (Decimal.float? (own.take n)).map fun x => (x, own.drop n)

/-! ## Conversions -/

/-- How far the printing of a format has come. -/
structure Formatting where
  /-- What has been printed. -/
  text : List Char
  /-- The arguments that are left. -/
  arguments : List String
  /-- What has been complained about, the first complaint first. -/
  complaints : List String

/-- How a format ends. -/
inductive FormatEnd
  /-- At its end. -/
  | complete
  /-- Because an argument ended the output. -/
  | ended
  /-- Because something is wrong with it. -/
  | broken (message : String)
  deriving DecidableEq, Repr

namespace Formatting

/-- Adds to what has been printed. -/
def print (f : Formatting) (s : List Char) : Formatting := { f with text := f.text ++ s }

/-- Complains about something. -/
def complain (f : Formatting) (message : String) : Formatting :=
  { f with complaints := f.complaints ++ [message] }

/-- Takes an argument. -/
def take (f : Formatting) : Option String × Formatting :=
  (f.arguments.head?, { f with arguments := f.arguments.tail })

/-- Complains about an argument that is no number, or not all of which is one. -/
def check (f : Formatting) (argument : String) (rest : Option (List Char)) (fits : Bool) :
    Formatting :=
  match rest with
  | none => if argument.isEmpty then f else f.complain (argument ++ ": expected numeric value")
  | some [] => if fits then f else f.complain (argument ++ ": Numerical result out of range")
  | some _ => f.complain (argument ++ ": not completely converted")

/-- The value of an argument as an integer within bounds.  A quote stands for the byte after it. -/
def integer (f : Formatting) (low high : Int) : Int × Formatting :=
  match f.take with
  | (none, f) => (0, f)
  | (some argument, f) =>
    match argument.toList with
    | '"' :: rest | '\'' :: rest => ((rest.head?.map fun c => (c.toNat : Int)).getD 0, f)
    | s =>
      match integerPrefix? true s with
      | none => (0, f.check argument none true)
      | some (n, rest) =>
        let fits := low ≤ n && n ≤ high
        (max low (min high n), f.check argument (some rest) fits)

/-- The value of an argument as an integer with a sign. -/
def signed (f : Formatting) : Int × Formatting :=
  f.integer (-(greatestNumber : Int) - 1) greatestNumber

/-- The value of an argument as a count; one below zero counts from the end. -/
def unsigned (f : Formatting) : Nat × Formatting :=
  let (n, f) := f.integer (-(Decimal.wordLimit : Int)) Decimal.wordLimit
  ((n % ((Decimal.wordLimit : Int) + 1)).toNat, f)

/-- The value of an argument as a double. -/
def double (f : Formatting) : Float × Formatting :=
  match f.take with
  | (none, f) => (0, f)
  | (some argument, f) =>
    match argument.toList with
    | '"' :: rest | '\'' :: rest => (Float.ofNat ((rest.head?.map Char.toNat).getD 0), f)
    | s =>
      match doublePrefix? s with
      | none => (0, f.check argument none true)
      | some (x, rest) => (x, f.check argument (some rest) true)

/-- A number in a format, which may be taken from an argument; with it what follows. -/
def star (f : Formatting) (s : List Char) : Option Int × List Char × Formatting :=
  match s with
  | '*' :: rest =>
    let (n, f) := f.signed
    (some n, rest, f)
  | _ =>
    let digits := s.takeWhile Decimal.isDigit
    (if digits.isEmpty then none else some (Decimal.valueOf digits), s.drop digits.length, f)

/-- Prints what a conversion makes of its argument. -/
def convert (f : Formatting) (l : Layout) (letter : Char) : Option (Formatting × Bool) :=
  let text (s : String) : List Char :=
    match l.precision with
    | some n => s.toList.take n
    | none => s.toList
  if letter = 's' then
    let (argument, f) := f.take
    some (f.print (l.pad (text (argument.getD ""))), false)
  else if letter = 'b' then
    let (argument, f) := f.take
    let printed := unescaped .ofShell (argument.getD "").toList
    some (f.print (l.pad (text (String.ofList printed.text))), printed.ended)
  else if letter = 'c' then
    let (argument, f) := f.take
    some (f.print (l.pad [(argument.bind fun s => s.toList.head?).getD '\x00']), false)
  else if letter = 'd' || letter = 'i' then
    let (n, f) := f.signed
    some (f.print (l.integer n), false)
  else if ['o', 'u', 'x', 'X'].contains letter then
    let (n, f) := f.unsigned
    some (f.print (l.count letter n), false)
  else if ['e', 'E', 'f', 'F', 'g', 'G'].contains letter then
    let (x, f) := f.double
    some (f.print (l.double letter x), false)
  else none

/-- Prints a format once; the first number is a bound of its length. -/
def once : Nat → List Char → Formatting → Formatting × FormatEnd
  | 0, _, f => (f, .complete)
  | _ + 1, [], f => (f, .complete)
  | n + 1, '%' :: '%' :: rest, f => once n rest (f.print ['%'])
  | n + 1, '%' :: rest, f =>
    let flags := rest.takeWhile ['#', '-', '+', ' ', '0'].contains
    let (width, afterWidth, f) := f.star (rest.drop flags.length)
    let (precision, afterPrecision, f) :=
      match afterWidth with
      | '.' :: more =>
        let (precision, more, f) := f.star more
        (some (precision.getD 0), more, f)
      | _ => (none, afterWidth, f)
    let width := width.getD 0
    let l : Layout := {
      flags := if width < 0 then '-' :: flags else flags
      width := width.natAbs
      precision := precision.bind fun p => if p < 0 then none else some p.toNat }
    match afterPrecision with
    | [] => (f, .broken "missing format character")
    | letter :: after =>
      match f.convert l letter with
      | some (f, false) => once n after f
      | some (f, true) => (f, .ended)
      | none =>
        let directive := '%' :: rest.take (rest.length - after.length)
        (f, .broken (String.ofList directive ++ ": invalid directive"))
  | n + 1, '\\' :: rest, f =>
    let (c, rest) := escape rest
    once n rest (f.print [c])
  | n + 1, c :: rest, f => once n rest (f.print [c])

end Formatting

/-- Prints a format as often as there are arguments for it, and at least once. -/
def formatAll : Nat → List Char → Formatting → Formatting × FormatEnd
  | 0, _, f => (f, .complete)
  | n + 1, format, f =>
    match Formatting.once (format.length + 1) format f with
    | (after, .complete) =>
      if after.arguments.isEmpty || after.arguments.length == f.arguments.length then
        (after, .complete)
      else formatAll n format after
    | result => result

end CheckerTrials.Shell
