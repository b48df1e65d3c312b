import CheckerTrials.Decimal.Natural
import CheckerTrials.Decimal.Shortest

/-!
# Writing a number

A double is written in one of three ways.  `Decimal.written` takes a `Style`: the digits are the
fewest that read back, and the style says when a power of ten is split off and whether an integer
shows a point.  `Style.plain` is for reports and command lines and never splits off a power of ten;
`Style.document` is for JSON documents.  `Decimal.fixed` has a given number of places and rounds the
exact value, a tie to the even neighbour.

`Decimal.rounded` is the way of the comparison tables: four places at most, trailing zeros dropped.
-/

set_option autoImplicit false

namespace CheckerTrials.Decimal

/-- How the fewest digits that read back are laid out. -/
structure Style where
  /-- Which of two equally near digit strings is taken. -/
  tie : Tie
  /-- Whether a number whose first digit counts this power of ten is written without a power. -/
  positional : Int → Bool
  /-- Whether an integer is written with `.0` at its end. -/
  pointZero : Bool

/-- Reports and command lines: all digits and no power of ten, and integers without a point. -/
def Style.plain : Style where
  tie := .away
  positional _ := true
  pointZero := false

/-- JSON documents: powers of ten from the sixteenth on and below the minus fifth, and a point in
every integer, which tells it from a count. -/
def Style.document : Style where
  tie := .toEven
  positional k := -5 ≤ k && k < 16
  pointZero := true

/-- Digits with the point among, before or after them. -/
def positionalText (pointZero : Bool) (digits : List Char) (exponent : Int) : List Char :=
  if 0 ≤ exponent then
    digits ++ List.replicate exponent.toNat '0' ++ (if pointZero then ['.', '0'] else [])
  else
    let places := (-exponent).toNat
    if places < digits.length then
      digits.take (digits.length - places) ++ '.' :: digits.drop (digits.length - places)
    else '0' :: '.' :: List.replicate (places - digits.length) '0' ++ digits

/-- Digits with the point after the first of them and the power of ten that the first one counts. -/
def scientificText (digits : List Char) (leading : Int) : List Char :=
  let power := 'e' :: (if leading < 0 then '-' else '+') :: digitsOf leading.natAbs
  match digits with
  | [] => power
  | [d] => d :: power
  | d :: rest => d :: '.' :: rest ++ power

/-- The text of a positive decimal. -/
def Digits.text (style : Style) (d : Digits) : List Char :=
  let digits := digitsOf d.digits
  let leading := d.exponent + digits.length - 1
  if style.positional leading then positionalText style.pointZero digits d.exponent
  else scientificText digits leading

/-- A text with the sign of a number in front. -/
def signed (negative : Bool) (s : List Char) : List Char :=
  if negative then '-' :: s else s

/-- Writes a double with the fewest digits that read back. -/
def written (style : Style) (x : Float) : List Char :=
  match parts x with
  | .nan => "NaN".toList
  | .infinite negative => signed negative "inf".toList
  | .finite negative mantissa _ =>
    signed negative <|
      if mantissa = 0 then '0' :: (if style.pointZero then ['.', '0'] else [])
      else (shortest style.tie (magnitudeBits x)).text style

/-- A double as reports and command lines show it. -/
def plain (x : Float) : String := String.ofList (written .plain x)

/-- The digits of `n` with a point before the last `places` of them. -/
def withPlaces (places n : Nat) : List Char :=
  let digits := digitsOf n
  let digits := List.replicate (places + 1 - digits.length) '0' ++ digits
  if places = 0 then digits
  else digits.take (digits.length - places) ++ '.' :: digits.drop (digits.length - places)

/-- Writes a double with exactly `places` places, rounding its exact value, ties to even. -/
def fixed (places : Nat) (x : Float) : String :=
  String.ofList <|
    match parts x with
    | .nan => "NaN".toList
    | .infinite negative => signed negative "inf".toList
    | .finite negative mantissa exponent =>
      let (num, den) := fraction mantissa exponent
      signed negative (withPlaces places (roundQuotient .toEven (num * Nat.pow 10 places) den))

/-- Writes a double with four places at most and without trailing zeros; what rounds to zero has no
sign. -/
def rounded (x : Float) : String :=
  let y := roundToInteger (x * 10000) / 10000
  if y == 0 then "0" else plain y

end CheckerTrials.Decimal
