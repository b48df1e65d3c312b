import CheckerTrials.Decimal.Binary64
import Mathlib

/-!
# The bits of a double

A double is its sign and the bit pattern of its magnitude: it can be had from the two (`ofMagnitude_magnitudeBits`),
and what is had from them has the magnitude and the sign that it was made of (`magnitudeBits_ofMagnitude`,
`isNegative_ofMagnitude`).  The latter is so only below the infinities, as there is one double that is no number but
many bit patterns of it.
-/

set_option autoImplicit false

namespace CheckerTrials.Decimal

open Float.Model (Format)
open Float.Model.UnpackedFloat

theorem toNat_unpackExponent (b : BitVec Format.binary64.numBits) :
    (unpackExponent b).toNat = b.toNat / 2 ^ 52 % 2 ^ 11 := by
  rw [unpackExponent_def, BitVec.extractLsb'_toNat, Nat.shiftRight_eq_div_pow]

/-- **Bits below the infinities are kept**: a bit pattern becomes a double by being taken apart and packed again,
which only the patterns of what is no number do not survive. -/
theorem toBits_ofBits {u : UInt64} (h : u.toNat % signBits < infinityBits) : (Float.ofBits u).toBits = u := by
  have hexponent : @unpackExponent Format.binary64 u.toBitVec ≠ -1#11 := by
    intro heq
    have hvalue := toNat_unpackExponent u.toBitVec
    rw [heq, UInt64.toNat_toBitVec, show (-1#11).toNat = 2047 from rfl] at hvalue
    unfold signBits infinityBits at h
    omega
  have hpack : pack Format.binary64 (unpack Format.binary64 u.toBitVec) = u.toBitVec := by
    rw [pack_unpack, if_neg]
    intro hnan
    exact hexponent (of_decide_eq_true hnan).1
  exact congrArg UInt64.ofBitVec hpack

/-- The bits of a double are its sign and its magnitude. -/
theorem toBits_eq (x : Float) : UInt64.ofNat (if isNegative x then signBits + magnitudeBits x else magnitudeBits x) =
    x.toBits := by
  have hlt : x.toBits.toNat < 2 ^ 64 := x.toBits.toNat_lt
  have hvalue : (if isNegative x then signBits + magnitudeBits x else magnitudeBits x) = x.toBits.toNat := by
    rw [magnitudeBits]
    unfold isNegative signBits
    by_cases hsign : 0x8000000000000000 ≤ x.toBits.toNat
    · rw [if_pos (decide_eq_true hsign)]
      omega
    · rw [if_neg (by rwa [decide_eq_true_iff])]
      omega
  rw [hvalue, UInt64.ofNat_toNat]

/-- **A double** is the one of its sign and its magnitude. -/
theorem ofMagnitude_magnitudeBits (x : Float) : ofMagnitude (isNegative x) (magnitudeBits x) = x := by
  rw [ofMagnitude, toBits_eq, Float.ofBits_toBits]

theorem toNat_toBits_ofMagnitude (negative : Bool) {bits : Nat} (h : bits < infinityBits) :
    (ofMagnitude negative bits).toBits.toNat = if negative then signBits + bits else bits := by
  have hvalue : (UInt64.ofNat (if negative then signBits + bits else bits)).toNat =
      if negative then signBits + bits else bits := by
    rw [UInt64.toNat_ofNat']
    unfold signBits infinityBits at *
    split <;> omega
  have hmagnitude : (if negative then signBits + bits else bits) % signBits < infinityBits := by
    unfold signBits infinityBits at *
    split <;> omega
  rw [ofMagnitude, toBits_ofBits (by rwa [hvalue]), hvalue]

/-- **The magnitude** of the double of a sign and a magnitude. -/
theorem magnitudeBits_ofMagnitude (negative : Bool) {bits : Nat} (h : bits < infinityBits) :
    magnitudeBits (ofMagnitude negative bits) = bits := by
  rw [magnitudeBits, toNat_toBits_ofMagnitude negative h]
  unfold signBits infinityBits at *
  split <;> omega

/-- **The sign** of the double of a sign and a magnitude. -/
theorem isNegative_ofMagnitude (negative : Bool) {bits : Nat} (h : bits < infinityBits) :
    isNegative (ofMagnitude negative bits) = negative := by
  rw [isNegative, toNat_toBits_ofMagnitude negative h]
  unfold signBits infinityBits at *
  cases negative with
  | false => exact decide_eq_false (by rw [if_neg Bool.false_ne_true]; omega)
  | true => exact decide_eq_true (by rw [if_pos rfl]; omega)

end CheckerTrials.Decimal
