/-!
# Natural numbers in decimal

Counts, indices and step bounds are written with `Nat.repr` and read with `Decimal.natural?`, which
takes a sign `+` and leading zeros too.  A count has a greatest value, `Decimal.wordLimit`: what is
larger is refused and never cut down.

* `valueOf_append`: the value of a digit string, digit by digit from the left.
* `natural?_eq_none_of_gt`: a numeral beyond the limit is no count.
-/

set_option autoImplicit false

namespace CheckerTrials.Decimal

/-- The greatest count: 2^64 - 1. -/
def wordLimit : Nat := 0xFFFFFFFFFFFFFFFF

/-- Whether a character is one of the ten digits. -/
def isDigit (c : Char) : Bool := '0' ≤ c && c ≤ '9'

/-- The value of a digit. -/
def digitValue (c : Char) : Nat := c.toNat - '0'.toNat

/-- The value of a digit string that follows digits of value `v`. -/
def valueFrom (v : Nat) (digits : List Char) : Nat :=
  digits.foldl (fun v c => 10 * v + digitValue c) v

/-- The value of a digit string; the empty one has value 0. -/
def valueOf (digits : List Char) : Nat := valueFrom 0 digits

@[simp] theorem valueOf_nil : valueOf [] = 0 := rfl

theorem valueOf_append (s t : List Char) : valueOf (s ++ t) = valueFrom (valueOf s) t := by
  simp [valueOf, valueFrom]

/-- The digits of a number, without leading zeros. -/
def digitsOf (n : Nat) : List Char := Nat.toDigits 10 n

/-- Drops one sign `+`. -/
def dropPlus : List Char → List Char
  | '+' :: rest => rest
  | s => s

/-- Reads a count: digits, at least one, perhaps after a `+`, of a value within `wordLimit`. -/
def natural? (s : List Char) : Option Nat :=
  let digits := dropPlus s
  if digits.isEmpty || !digits.all isDigit then none
  else if valueOf digits ≤ wordLimit then some (valueOf digits) else none

theorem natural?_eq_none_of_gt {s : List Char} (h : wordLimit < valueOf (dropPlus s)) :
    natural? s = none := by
  have : ¬ valueOf (dropPlus s) ≤ wordLimit := by omega
  simp [natural?, this]

theorem le_wordLimit_of_natural? {s : List Char} {n : Nat} (h : natural? s = some n) :
    n ≤ wordLimit := by
  simp only [natural?] at h
  split at h
  · simp at h
  · split at h
    · simp only [Option.some.injEq] at h
      omega
    · simp at h

end CheckerTrials.Decimal
