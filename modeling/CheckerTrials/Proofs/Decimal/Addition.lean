import CheckerTrials.Decimal.Binary64
import Mathlib

/-!
# The addition of doubles

The sum of two doubles does not depend on their order (`add_comm_double`), and neither does a sum of two
that starts from zero (`zero_add_add_comm`), although zero is not neutral: added to a negative zero it gives
a positive one.  In a sum of three doubles the order counts.
-/

set_option autoImplicit false

namespace CheckerTrials.Decimal

open Float.Model (UnpackedFloat Format)

/-- A double as sign, mantissa and exponent, if it is a finite number. -/
def unpacked (x : Float) : UnpackedFloat := x.toModel.unpack

/-- The double with a sign, a mantissa and an exponent, which are taken to be rounded. -/
def packed (u : UnpackedFloat) : Float := .ofModel (Float.Model.pack u)

theorem packed_unpacked (x : Float) : packed (unpacked x) = x := Float.ofBits_toBits x

/-- Doubles are unpacked to be added. -/
theorem add_eq (x y : Float) : x + y = packed (UnpackedFloat.add Format.binary64 (unpacked x) (unpacked y)) := rfl

theorem add_comm_unpacked (u v : UnpackedFloat) :
    UnpackedFloat.add Format.binary64 u v = UnpackedFloat.add Format.binary64 v u := by
  cases u with
  | notANumber => cases v <;> rfl
  | infinity s =>
    cases v with
    | infinity t => cases s <;> cases t <;> rfl
    | _ => rfl
  | zero s =>
    cases v with
    | zero t => cases s <;> cases t <;> rfl
    | _ => rfl
  | finite s m e _ =>
    cases v with
    | finite t n f _ => simp only [UnpackedFloat.add, min_comm e f, Int.add_comm (s.apply _)]
    | _ => rfl

/-- **The sum of two doubles** does not depend on their order. -/
theorem add_comm_double (x y : Float) : x + y = y + x := by
  rw [add_eq, add_comm_unpacked, ← add_eq]

/-! ## Sums that start from zero -/

theorem unpacked_zero (s : UnpackedFloat.Sign) : unpacked (packed (.zero s)) = .zero s :=
  @UnpackedFloat.unpack_packedZero Format.binary64 s

/-- A negative zero changes no sum. -/
theorem add_negativeZero (x : Float) : x + packed (.zero .negative) = x := by
  have hsum : UnpackedFloat.add Format.binary64 (unpacked x) (.zero .negative) = unpacked x := by
    cases unpacked x with
    | zero s => cases s <;> rfl
    | _ => rfl
  rw [add_eq, unpacked_zero, hsum, packed_unpacked]

/-- Zero changes every double to itself but the negative zero. -/
theorem zero_add_eq_or (x : Float) : Float.ofNat 0 + x = x ∨ x = packed (.zero .negative) := by
  have hzero : unpacked (Float.ofNat 0) = .zero .positive := by
    rw [show Float.ofNat 0 = packed (.zero .positive) from rfl, unpacked_zero]
  by_cases hx : unpacked x = .zero .negative
  · exact .inr (by rw [← packed_unpacked x, hx])
  · left
    have hsum : UnpackedFloat.add Format.binary64 (.zero .positive) (unpacked x) = unpacked x := by
      cases hp : unpacked x with
      | zero s =>
        cases s with
        | positive => rfl
        | negative => exact absurd hp hx
      | _ => rfl
    rw [add_eq, hzero, hsum, packed_unpacked]

/-- **The sum of two doubles from zero on** does not depend on their order. -/
theorem zero_add_add_comm (x y : Float) : Float.ofNat 0 + x + y = Float.ofNat 0 + y + x := by
  rcases zero_add_eq_or x with hx | rfl
  · rcases zero_add_eq_or y with hy | rfl
    · rw [hx, hy, add_comm_double]
    · rw [add_negativeZero, add_negativeZero]
  · rw [add_negativeZero, add_negativeZero]

end CheckerTrials.Decimal
