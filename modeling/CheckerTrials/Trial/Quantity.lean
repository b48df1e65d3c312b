/-!
# Quantities

What a trial measures are times, bounds and probabilities.  The program reckons with them in doubles,
whose sums depend on their order; laws about means and scales hold of the exact numbers behind them.
So everything that reckons with quantities is written for any type with a `Quantity` instance, and
the program takes `Float`.

A sum of quantities (`total`) starts from its first term and not from zero.  For doubles that is a
difference: a sum of negative zeros stays negative.
-/

set_option autoImplicit false

namespace CheckerTrials

/-- Numbers that can be measured, averaged and compared. -/
class Quantity (α : Type) extends Add α, Sub α, Div α, LT α, LE α where
  /-- The quantity of a count. -/
  ofCount : Nat → α
  /-- Whether one quantity is below another is decidable. -/
  decideLt : DecidableLT α
  /-- Whether one quantity is at most another is decidable. -/
  decideLe : DecidableLE α

namespace Quantity

instance {α : Type} [Quantity α] : DecidableLT α := decideLt

instance {α : Type} [Quantity α] : DecidableLE α := decideLe

instance : Quantity Float where
  ofCount := Float.ofNat
  decideLt := fun _ _ => inferInstance
  decideLe := fun _ _ => inferInstance

variable {α : Type} [Quantity α]

/-- The sum of quantities from the first to the last; without any, the quantity of none. -/
def total : List α → α
  | [] => ofCount 0
  | x :: rest => rest.foldl (· + ·) x

/-- The mean of quantities that are not without any. -/
def mean (xs : List α) : α := total xs / ofCount xs.length

/-- The mean of quantities, if there are any. -/
def mean? (xs : List α) : Option α := if xs.isEmpty then none else some (mean xs)

/-- The mean of quantities, if there are any, by a sum that starts from zero. -/
def meanFromZero? (xs : List α) : Option α :=
  if xs.isEmpty then none else some (xs.foldl (· + ·) (ofCount 0) / ofCount xs.length)

theorem mean?_eq_none_iff {xs : List α} : mean? xs = none ↔ xs = [] := by
  cases xs <;> simp [mean?]

/-- The least of a list of quantities.  What does not compare with itself is left out, unless there is
nothing else. -/
def least? (xs : List α) : Option α :=
  match xs.filter fun x => x ≤ x with
  | [] => xs.head?
  | x :: rest => some (rest.foldl (fun low y => if y < low then y else low) x)

end Quantity

end CheckerTrials
