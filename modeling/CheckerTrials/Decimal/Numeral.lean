import CheckerTrials.Decimal.Binary64
import CheckerTrials.Decimal.Natural

/-!
# Reading a number

A numeral is a sign, a digit string with at most one point in it, and perhaps a power of ten.  There
must be a digit before or after the point, and one after the `e`.  Besides there are the names of the
infinities and of what is no number, in any mixture of cases.  `Decimal.read?` reads exactly these
texts and nothing around them.

Reading is exact until the last step: a `Numeral` is a fraction in powers of ten, and
`Numeral.toFloat` rounds it once, to the nearest double.

* `isNumeral_iff`: which texts are numbers does not depend on their values.
-/

set_option autoImplicit false

namespace CheckerTrials.Decimal

/-- The number `± digits * 10 ^ exponent`. -/
structure Numeral where
  /-- Whether the numeral has the sign `-`. -/
  negative : Bool
  /-- The digits, read as one natural number. -/
  digits : Nat
  /-- The power of ten that the digits are counted in. -/
  exponent : Int
  deriving DecidableEq, Repr

/-- The double next to a numeral.

Numerals beyond every double are recognised before any power of ten is computed: ten to the 400 is
greater than all of them, and a numeral below `2 ^ (-1100)` is nearer to zero than to any other. -/
def Numeral.toFloat (n : Numeral) : Float :=
  let bits :=
    if n.digits = 0 then 0
    else if 400 < n.exponent then infinityBits
    else if n.exponent < 0 ∧ (n.digits.log2 : Int) + 1100 < -(3 * n.exponent) then 0
    else
      let (num, den) := scaled 10 n.digits 1 (-n.exponent)
      nearestBits num den
  ofMagnitude n.negative bits

/-- What the text of a number says. -/
inductive Reading
  /-- A numeral. -/
  | numeral (n : Numeral)
  /-- An infinity with its sign. -/
  | infinity (negative : Bool)
  /-- Not a number. -/
  | nan
  deriving DecidableEq, Repr

/-- The double that a text says. -/
def Reading.toFloat : Reading → Float
  | .numeral n => n.toFloat
  | .infinity negative => ofMagnitude negative infinityBits
  | .nan => ofMagnitude false (infinityBits + mantissaCount / 2)

/-! ## The grammar -/

/-- The sign at the front of a text, and what follows it. -/
def takeSign : List Char → Bool × List Char
  | '-' :: rest => (true, rest)
  | '+' :: rest => (false, rest)
  | s => (false, s)

/-- The power of ten at the end of a numeral: nothing, or `e` with a sign and digits. -/
def exponentOf? : List Char → Option Int
  | [] => some 0
  | c :: rest =>
    if c = 'e' ∨ c = 'E' then
      let (negative, digits) := takeSign rest
      if digits.isEmpty || !digits.all isDigit then none
      else some (if negative then -(valueOf digits : Int) else valueOf digits)
    else none

/-- A numeral without its sign. -/
def unsignedNumeral? (negative : Bool) (s : List Char) : Option Numeral :=
  let whole := s.takeWhile isDigit
  let rest := s.dropWhile isDigit
  let (places, rest) :=
    match rest with
    | '.' :: rest => (rest.takeWhile isDigit, rest.dropWhile isDigit)
    | _ => ([], rest)
  if (whole ++ places).isEmpty then none
  else
    (exponentOf? rest).map fun exponent =>
      { negative, digits := valueOf (whole ++ places), exponent := exponent - places.length }

/-- Whether two texts are the same but for the case of the letters of ASCII. -/
def sameLetters (s t : List Char) : Bool :=
  s.map Char.toLower == t.map Char.toLower

/-- Reads the text of a number. -/
def read? (s : List Char) : Option Reading :=
  let (negative, rest) := takeSign s
  if sameLetters rest "inf".toList || sameLetters rest "infinity".toList then
    some (.infinity negative)
  else if sameLetters rest "nan".toList then some .nan
  else (unsignedNumeral? negative rest).map .numeral

/-- The double that a text says, if it is the text of a number. -/
def float? (s : List Char) : Option Float :=
  (read? s).map Reading.toFloat

/-- Whether a text is the text of a number. -/
def isNumeral (s : List Char) : Bool :=
  (read? s).isSome

/-- A text is the text of a number exactly when it has a value. -/
theorem isNumeral_iff {s : List Char} : isNumeral s = true ↔ ∃ x, float? s = some x := by
  cases h : read? s <;> simp [isNumeral, float?, h]

end CheckerTrials.Decimal
