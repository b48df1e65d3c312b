/-!
# Doubles taken apart and put together

A double is read as exact arithmetic sees it: a sign, a mantissa and a power of two (`Parts`).  The
other direction is rounding: `nearestBits num den` is the magnitude of the double next to the
fraction `num / den`, and of two that are equally near the one with the even mantissa.  All of it is
arithmetic of natural numbers; nothing here rounds twice.

The bits of a magnitude are in the order of the magnitudes themselves.  That is why rounding needs no
case for a carry: a mantissa that rounds up to the next power of two is the next bit pattern, and
what goes beyond the greatest finite double is the pattern of infinity.

* `roundQuotient_of_dvd`: a quotient that needs no rounding is not rounded.
* `orderKey`: the total order of doubles as an order of integers.
-/

set_option autoImplicit false

namespace CheckerTrials.Decimal

/-! ## Rounding a quotient -/

/-- What becomes of a value halfway between two neighbours. -/
inductive Tie
  /-- The even neighbour. -/
  | toEven
  /-- The neighbour farther from zero. -/
  | away
  deriving DecidableEq, Repr

/-- The natural number next to `num / den`. -/
def roundQuotient (tie : Tie) (num den : Nat) : Nat :=
  let low := num / den
  let twice := 2 * (num % den)
  if twice < den then low
  else if den < twice then low + 1
  else
    match tie with
    | .away => low + 1
    | .toEven => if low % 2 = 0 then low else low + 1

/-- A quotient without remainder is its own rounding. -/
theorem roundQuotient_of_dvd (tie : Tie) {num den : Nat} (hd : 0 < den) (h : den ∣ num) :
    roundQuotient tie num den = num / den := by
  simp [roundQuotient, Nat.mod_eq_zero_of_dvd h, hd]

/-- Rounding moves a quotient to one of its two neighbours. -/
theorem roundQuotient_mem (tie : Tie) (num den : Nat) :
    roundQuotient tie num den = num / den ∨ roundQuotient tie num den = num / den + 1 := by
  unfold roundQuotient
  dsimp only
  split
  · exact .inl rfl
  · split
    · exact .inr rfl
    · cases tie with
      | away => exact .inr rfl
      | toEven => dsimp only; split <;> simp

/-! ## Magnitudes -/

/-- The greatest `k` with `2 ^ k ≤ num / den`, for a fraction that is not zero. -/
def floorLog2 (num den : Nat) : Int :=
  let guess : Int := (num.log2 : Int) - den.log2
  let reached :=
    if 0 ≤ guess then den * Nat.pow 2 guess.toNat ≤ num
    else den ≤ num * Nat.pow 2 (-guess).toNat
  if reached then guess else guess - 1

/-- The fraction `num / den` divided by `base ^ k`. -/
def scaled (base num den : Nat) (k : Int) : Nat × Nat :=
  if 0 ≤ k then (num, den * Nat.pow base k.toNat) else (num * Nat.pow base (-k).toNat, den)

/-- The number of mantissas between one power of two and the next. -/
def mantissaCount : Nat := 0x10000000000000

/-- The bit pattern of negative zero, which is that of the sign alone. -/
def signBits : Nat := 0x8000000000000000

/-- The bit pattern of positive infinity. -/
def infinityBits : Nat := 0x7FF0000000000000

/-- The bit pattern of the double next to `num / den`; ties go to the even mantissa. -/
def nearestBits (num den : Nat) : Nat :=
  if num = 0 then 0
  else
    let unit := max (-1074) (floorLog2 num den - 52)
    let (num, den) := scaled 2 num den unit
    min infinityBits ((unit + 1074).toNat * mantissaCount + roundQuotient .toEven num den)

/-- The double of a sign and the bit pattern of a magnitude. -/
def ofMagnitude (negative : Bool) (bits : Nat) : Float :=
  Float.ofBits (UInt64.ofNat (if negative then signBits + bits else bits))

/-! ## Parts -/

/-- A double as exact arithmetic sees it. -/
inductive Parts
  /-- Not a number. -/
  | nan
  /-- An infinity with its sign. -/
  | infinite (negative : Bool)
  /-- The number `mantissa * 2 ^ exponent` with its sign; zero has mantissa 0 and a sign as well. -/
  | finite (negative : Bool) (mantissa : Nat) (exponent : Int)
  deriving DecidableEq, Repr

/-- The bit pattern of a double without its sign. -/
def magnitudeBits (x : Float) : Nat := x.toBits.toNat % signBits

/-- Whether the sign bit of a double is set. -/
def isNegative (x : Float) : Bool := signBits ≤ x.toBits.toNat

/-- The mantissa and the exponent of a finite magnitude. -/
def mantissaExponent (bits : Nat) : Nat × Int :=
  if bits < mantissaCount then (bits, -1074)
  else (mantissaCount + bits % mantissaCount, (bits / mantissaCount : Nat) - 1075)

/-- Takes a double apart. -/
def parts (x : Float) : Parts :=
  let bits := magnitudeBits x
  if infinityBits < bits then .nan
  else if bits = infinityBits then .infinite (isNegative x)
  else .finite (isNegative x) (mantissaExponent bits).1 (mantissaExponent bits).2

/-- The fraction `mantissa * 2 ^ exponent`. -/
def fraction (mantissa : Nat) (exponent : Int) : Nat × Nat :=
  if 0 ≤ exponent then (mantissa * Nat.pow 2 exponent.toNat, 1)
  else (mantissa, Nat.pow 2 (-exponent).toNat)

/-- Whether a double is a number and no infinity. -/
def isFinite (x : Float) : Bool := magnitudeBits x < infinityBits

/-! ## Counts among the doubles -/

/-- The count that a double is, if it is an integer and not below zero: the double is exact, and a
value beyond the greatest count becomes the greatest count. -/
def countOf? (greatest : Nat) (x : Float) : Option Nat :=
  match parts x with
  | .finite negative mantissa exponent =>
    let (num, den) := fraction mantissa exponent
    if (negative && mantissa != 0) || num % den != 0 then none else some (min greatest (num / den))
  | _ => none

/-- The integer next to a double, ties away from zero. -/
def roundToInteger (x : Float) : Float :=
  match parts x with
  | .finite negative mantissa exponent =>
    if 0 ≤ exponent then x
    else
      let n := roundQuotient .away mantissa (Nat.pow 2 (-exponent).toNat)
      ofMagnitude negative (nearestBits n 1)
  | _ => x

/-! ## The total order -/

/-- The place of a double in the total order: what is no number below all numbers, negative numbers
below positive ones, and the negative zero directly below the positive one.

The order looks at the sign of what is no number, too, and puts a positive one above all numbers.  A `Float` knows only
one such value.  It stands for the negative one, which is what 64-bit x86 processors make of an operation on numbers
that has no result, such as a difference of infinities or zero divided by zero. -/
def orderKey (x : Float) : Int :=
  if infinityBits < magnitudeBits x then -(signBits : Int) - 1
  else if isNegative x then -(magnitudeBits x : Int) - 1
  else magnitudeBits x

/-- Compares two doubles in the total order. -/
def totalOrder (x y : Float) : Ordering := compare (orderKey x) (orderKey y)

/-- The total order does not contradict itself: exchanging the doubles exchanges the verdict. -/
theorem totalOrder_swap (x y : Float) : (totalOrder x y).swap = totalOrder y x := by
  simp [totalOrder, Int.compare_swap]

end CheckerTrials.Decimal
