import CheckerTrials.Decimal.Binary64

/-!
# The fewest digits that read back

A double is written with the fewest decimal digits whose numeral is nearer to it than to any other
double.  `shortest` looks for them by trying: for one digit, two digits, up to seventeen, it takes the
two decimals next to the double and keeps those that round to it.  The first number of digits with a
hit wins, and of two hits the nearer one.

The digits are checked by the rounding that reads them (`nearestBits`), so that what is written reads
back is no matter of how the candidates were found.  A double whose seventeen digits failed would be
written in full.
-/

set_option autoImplicit false

namespace CheckerTrials.Decimal

/-- The positive decimal `digits * 10 ^ exponent`. -/
structure Digits where
  /-- The digits, read as one natural number. -/
  digits : Nat
  /-- The power of ten that the digits are counted in. -/
  exponent : Int
  deriving DecidableEq, Repr

/-- The bit pattern of the double next to a decimal. -/
def Digits.bits (d : Digits) : Nat :=
  let (num, den) := scaled 10 d.digits 1 (-d.exponent)
  nearestBits num den

/-- Whether `10 ^ k ≤ num / den`. -/
def reachesTen (num den : Nat) (k : Int) : Bool :=
  let (num, den) := scaled 10 num den k
  den ≤ num

/-- The greatest `k` with `10 ^ k ≤ num / den`, for a fraction that is not zero.  The first guess is
taken from the power of two, so it is off by one at most. -/
def floorLog10 (num den : Nat) : Int :=
  let guess := floorLog2 num den * 30103 / 100000
  if reachesTen num den (guess + 1) then guess + 1
  else if reachesTen num den guess then guess
  else guess - 1

/-- Among the two decimals of `count` digits next to `num / den`, the one that rounds to `bits`; if
both do, the nearer one. -/
def shortestOf? (tie : Tie) (bits num den count : Nat) : Option Digits :=
  let exponent := floorLog10 num den - (count : Int) + 1
  let (num, den) := scaled 10 num den exponent
  let low : Digits := ⟨num / den, exponent⟩
  let high : Digits := ⟨num / den + 1, exponent⟩
  match decide (low.bits = bits), decide (high.bits = bits) with
  | true, true => if roundQuotient tie num den = num / den then some low else some high
  | true, false => some low
  | false, true => some high
  | false, false => none

/-- All digits of the decimal that equals `mantissa * 2 ^ exponent`. -/
def exactDigits (mantissa : Nat) (exponent : Int) : Digits :=
  if 0 ≤ exponent then ⟨mantissa * Nat.pow 2 exponent.toNat, 0⟩
  else ⟨mantissa * Nat.pow 5 (-exponent).toNat, exponent⟩

/-- Moves trailing zeros of the digits into the power of ten; `fuel` bounds their number. -/
def Digits.dropZeros (d : Digits) : Nat → Digits
  | 0 => d
  | fuel + 1 =>
    if d.digits ≠ 0 ∧ d.digits % 10 = 0 then Digits.dropZeros ⟨d.digits / 10, d.exponent + 1⟩ fuel
    else d

/-- The fewest digits that read back as a positive finite double with the given bit pattern. -/
def shortest (tie : Tie) (bits : Nat) : Digits :=
  let (mantissa, exponent) := mantissaExponent bits
  let (num, den) := fraction mantissa exponent
  let found := (List.range' 1 17).findSome? (shortestOf? tie bits num den)
  (found.getD (exactDigits mantissa exponent)).dropZeros 400

end CheckerTrials.Decimal
