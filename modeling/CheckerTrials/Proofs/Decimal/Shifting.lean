import CheckerTrials.Proofs.Decimal.Addition
import CheckerTrials.Proofs.Decimal.Order
import CheckerTrials.Proofs.Decimal.Rounding

/-!
# Rounding by shifting

Lean's doubles are rounded by shifting mantissas: of a result some bits are kept, two more bits say what was cut off,
and the mantissa is shifted to its place and rounded by them.  A mantissa with these two bits is what is known of a
fraction when it is rounded (`extended`), shifting it divides the fraction (`shiftRight_extended`), and so the result
is the double nearest to the fraction (`packed_roundWithAccuracy`), if enough bits were kept.  A fraction that is
known exactly has enough of them after shifting the other way (`packed_round`).
-/

set_option autoImplicit false

namespace CheckerTrials.Decimal

open Float.Model (Format UnpackedFloat totalExponent)
open Float.Model.UnpackedFloat

/-! ## A mantissa with two more bits -/

/-- What is known of a fraction when it is rounded: its whole part, whether half a unit is reached, and whether
neither nothing nor a half is left over. -/
def extended (num den : Nat) : ExtendedMantissa :=
  ⟨num / den, decide (den ≤ 2 * (num % den)), decide (num % den ≠ 0 ∧ 2 * (num % den) ≠ den)⟩

variable {num den : Nat}

/-- It is rounded like the fraction. -/
theorem roundedMantissa_extended (hden : 0 < den) :
    (extended num den).roundedMantissa = roundQuotient .toEven num den := by
  have hlt := Nat.mod_lt num hden
  rw [roundQuotient, extended, ExtendedMantissa.roundedMantissa]
  by_cases hhalf : den ≤ 2 * (num % den)
  · by_cases hrest : num % den ≠ 0 ∧ 2 * (num % den) ≠ den
    · rw [decide_eq_true hhalf, decide_eq_true hrest]
      dsimp only [ExtendedMantissa.accuracy, Accuracy.roundToNearestEven]
      rw [if_neg (by omega), if_pos (by omega)]
    · rw [decide_eq_true hhalf, decide_eq_false hrest]
      dsimp only [ExtendedMantissa.accuracy, Accuracy.roundToNearestEven]
      rw [if_neg (by omega), if_neg (by omega)]
      split <;> omega
  · rw [decide_eq_false hhalf, if_pos (by omega)]
    cases decide (num % den ≠ 0 ∧ 2 * (num % den) ≠ den) <;> rfl

/-- Shifting it divides the fraction. -/
theorem shiftRightOne_extended (hden : 0 < den) : (extended num den).shiftRightOne = extended num (den * 2) := by
  have hlt := Nat.mod_lt num hden
  have hmod : num % (den * 2) = num % den + den * (num / den % 2) := Nat.mod_mul
  rw [extended, extended, ExtendedMantissa.shiftRightOne, hmod, ExtendedMantissa.mk.injEq]
  refine ⟨Nat.div_div_eq_div_mul _ _ _, ?_, ?_⟩
  · rcases Nat.mod_two_eq_zero_or_one (num / den) with heven | hodd
    · rw [heven, Nat.mul_zero, Nat.add_zero]
      exact (decide_eq_false (by omega)).symm
    · rw [hodd, Nat.mul_one]
      exact (decide_eq_true (by omega)).symm
  · rw [← Bool.decide_or, decide_eq_decide]
    rcases Nat.mod_two_eq_zero_or_one (num / den) with heven | hodd
    · rw [heven, Nat.mul_zero, Nat.add_zero]
      omega
    · rw [hodd, Nat.mul_one]
      omega

theorem shiftRight_extended (hden : 0 < den) (k : Nat) : extended num den >>> k = extended num (den * 2 ^ k) := by
  induction k with
  | zero => rw [Nat.pow_zero, Nat.mul_one]; rfl
  | succ k ih =>
    have hsucc : extended num den >>> (k + 1) = (extended num den >>> k).shiftRightOne := rfl
    rw [hsucc, ih, shiftRightOne_extended (Nat.mul_pos hden (Nat.two_pow_pos k)), Nat.mul_assoc, Nat.pow_succ]

/-- A quotient and what is left of it are as much. -/
theorem ofMantissaAndAccuracy_eq_extended (hden : 0 < den) :
    ExtendedMantissa.ofMantissaAndAccuracy (num / den) (accuracyOfFraction (num % den) den) = extended num den := by
  have hlt := Nat.mod_lt num hden
  rw [accuracyOfFraction, extended]
  by_cases hzero : num % den = 0
  · rw [if_pos hzero, decide_eq_false (by omega), decide_eq_false (by omega)]
    rfl
  · rw [if_neg hzero]
    rcases Nat.lt_trichotomy (2 * (num % den)) den with h | h | h
    · rw [Nat.compare_eq_lt.2 h, decide_eq_false (by omega), decide_eq_true (by omega)]
      rfl
    · rw [Nat.compare_eq_eq.2 h, decide_eq_true (by omega), decide_eq_false (by omega)]
      rfl
    · rw [Nat.compare_eq_gt.2 h, decide_eq_true (by omega), decide_eq_true (by omega)]
      rfl

/-! ## Packing -/

theorem packed_zero (negative : Bool) : packed (.zero (signOf negative)) = ofMagnitude negative 0 := by
  cases negative <;> rfl

theorem packed_infinity (negative : Bool) : packed (.infinity (signOf negative)) = ofMagnitude negative infinityBits := by
  cases negative <;> rfl

theorem toNat_packComponents (negative : Bool) (e : BitVec 11) (m : BitVec 52) :
    (packComponents Format.binary64 (signOf negative) e m).toNat =
      (if negative then signBits else 0) + e.toNat * mantissaCount + m.toNat := by
  have hm : m.toNat < 2 ^ 52 := m.isLt
  have hsign : (signOf negative).toBitVec.toNat = if negative then 1 else 0 := by cases negative <;> rfl
  change ((signOf negative).toBitVec ++ e ++ m).toNat = _
  rw [BitVec.toNat_append, BitVec.toNat_append, ← Nat.shiftLeft_add_eq_or_of_lt m.isLt,
    ← Nat.shiftLeft_add_eq_or_of_lt e.isLt, Nat.shiftLeft_eq, Nat.shiftLeft_eq, hsign, mantissaCount, signBits]
  cases negative
  · simp
  · simp only [if_true]
    omega

/-- A double is known from its bits. -/
theorem eq_ofMagnitude {u : UnpackedFloat} {negative : Bool} {bits : Nat} (hfinite : bits < infinityBits)
    (h : (pack Format.binary64 u).toNat = (if negative then signBits else 0) + bits) :
    packed u = ofMagnitude negative bits := by
  have hsplit : (if negative then signBits + bits else bits) = (if negative then signBits else 0) + bits := by
    cases negative <;> simp
  have hlt : (if negative then signBits + bits else bits) < 2 ^ 64 := by
    unfold signBits infinityBits at *
    split <;> omega
  have hmod : (UInt64.ofNat (if negative then signBits + bits else bits)).toNat % signBits = bits := by
    rw [UInt64.toNat_ofNat_of_lt' hlt]
    unfold signBits infinityBits at *
    split <;> omega
  rw [← Float.toBits_inj, ofMagnitude, toBits_ofBits (by rwa [hmod]), ← UInt64.toNat_inj, UInt64.toNat_ofNat_of_lt' hlt,
    hsplit, ← h]
  rfl

section Packing

variable (negative : Bool) {m : Nat} {e : Int} (hpos : 0 < m)

theorem biasedExponent_eq (e : Int) :
    (e + (Format.binary64.exponentBias : Int) + Format.binary64.mantissaBitsWithoutImplicit).toNat =
      (e + 1075).toNat := by
  change (e + 1023 + 52).toNat = _
  omega

theorem packed_finite_of_large (he : 972 ≤ e) :
    packed (.finite (signOf negative) m e hpos) = ofMagnitude negative infinityBits := by
  have hpack : pack Format.binary64 (.finite (signOf negative) m e hpos) =
      pack Format.binary64 (.infinity (signOf negative)) := by
    dsimp only [pack]
    rw [biasedExponent_eq, if_pos]
    change 2048 ≤ _
    omega
  rw [← packed_infinity, packed, packed, Float.Model.pack, Float.Model.pack]
  simp only [hpack]

/-- The bits of the exponent and those of the mantissa make one number. -/
theorem toNat_pack_finite (hm : m < 2 * mantissaCount) (he : -1074 ≤ e) (hlarge : e < 972)
    (hunit : mantissaCount ≤ m ∨ e = -1074) :
    (pack Format.binary64 (.finite (signOf negative) m e hpos)).toNat =
      (if negative then signBits else 0) + ((e + 1074).toNat * mantissaCount + m) := by
  have hcount : mantissaCount = 2 ^ 52 := by decide
  dsimp only [pack]
  rw [biasedExponent_eq, if_neg (by change ¬ 2048 ≤ _; omega)]
  by_cases hnormal : mantissaCount ≤ m
  · have hlog : m.log2 = 52 := (Nat.log2_eq_iff hpos.ne').2 (by omega)
    have hexponent : (e + 1075).toNat % 2 ^ 11 = (e + 1074).toNat + 1 := by omega
    rw [hlog, if_pos (by decide), toNat_packComponents, BitVec.toNat_ofNat, BitVec.toNat_ofNat, hexponent, Nat.add_mul]
    omega
  · have hlog : m.log2 < 52 := (Nat.log2_lt hpos.ne').2 (by omega)
    have hexponent : (e + 1074).toNat = 0 := by omega
    rw [if_neg (by change ¬ m.log2 + 1 = 53; omega), toNat_packComponents, BitVec.toNat_ofNat, BitVec.toNat_ofNat,
      hexponent]
    omega

/-- **Packing** gives the double of a mantissa and an exponent, or infinity. -/
theorem packed_finite (hm : m < 2 * mantissaCount) (he : -1074 ≤ e) (hunit : mantissaCount ≤ m ∨ e = -1074) :
    packed (.finite (signOf negative) m e hpos) =
      ofMagnitude negative (min infinityBits ((e + 1074).toNat * mantissaCount + m)) := by
  have hinfinity : infinityBits = 2047 * mantissaCount := by decide
  by_cases hlarge : 972 ≤ e
  · have hmul := Nat.mul_le_mul_right mantissaCount (show 2046 ≤ (e + 1074).toNat by omega)
    rw [Nat.min_eq_left (by omega), packed_finite_of_large negative hpos hlarge]
  · have hmul := Nat.mul_le_mul_right mantissaCount (show (e + 1074).toNat ≤ 2045 by omega)
    have hfinite : (e + 1074).toNat * mantissaCount + m < infinityBits := by omega
    rw [Nat.min_eq_right hfinite.le]
    exact eq_ofMagnitude hfinite (toNat_pack_finite negative hpos hm he (by omega) hunit)

end Packing

/-! ## Rounding -/

theorem targetExponent_totalExponent (m : Nat) (e : Int) :
    Format.binary64.targetExponent (totalExponent m e) = max ((m.log2 : Int) + e - 52) (-1074) := by
  change max ((m.log2 : Int) + 1 + e - 53) (-1074) = _
  omega

/-- The unit in the last place of a fraction is known from its whole part in a smaller unit. -/
theorem max_log2_eq_unitOf (hnum : 0 < num) (hden : 0 < den) {e : Int} (he : e ≤ unitOf num den) :
    max ((((scaled 2 num den e).1 / (scaled 2 num den e).2).log2 : Int) + e - 52) (-1074) = unitOf num den := by
  have hunits := @le_units_iff num den hden e
  generalize (scaled 2 num den e).1 / (scaled 2 num den e).2 = units at hunits
  have htwo : (2 : ℚ) ≠ 0 := by norm_num
  rcases Nat.eq_zero_or_pos units with rfl | hpos
  · have hlt : (num : ℚ) / den < 2 ^ e := by
      have := mt (hunits 1).2 (by omega)
      rwa [Nat.cast_one, one_mul, not_le] at this
    have hlog : floorLog2 num den < e :=
      (zpow_lt_zpow_iff_right₀ (by norm_num)).1 ((zpow_floorLog2_le hnum hden).trans_lt hlt)
    rw [Nat.log2_zero]
    unfold unitOf at *
    omega
  · have hlog : floorLog2 num den = (units.log2 : Int) + e := by
      refine floorLog2_eq_of_bounds hnum hden ?_ ?_
      · have hle := (hunits (2 ^ units.log2)).1 (Nat.log2_self_le hpos.ne')
        rwa [Nat.cast_pow, Nat.cast_ofNat, ← zpow_natCast, ← zpow_add₀ htwo] at hle
      · have hlt := mt (hunits (2 ^ (units.log2 + 1))).2 (Nat.not_le.2 Nat.lt_log2_self)
        rwa [Nat.cast_pow, Nat.cast_ofNat, ← zpow_natCast, ← zpow_add₀ htwo, not_le, Nat.cast_add, Nat.cast_one,
          add_right_comm] at hlt
    rw [unitOf, hlog]
    omega

/-- **The first shift** brings a fraction to its unit in the last place. -/
theorem shiftToTargetExponent_eq (hnum : 0 < num) (hden : 0 < den) {m : Nat} {e : Int} {acc : Accuracy}
    (he : e ≤ unitOf num den)
    (hm : ExtendedMantissa.ofMantissaAndAccuracy m acc = extended (scaled 2 num den e).1 (scaled 2 num den e).2) :
    ∃ n d, 0 < d ∧ shiftToTargetExponent Format.binary64 m e acc = (extended n d, unitOf num den) ∧
      (n : ℚ) / d = num / den / 2 ^ unitOf num den := by
  have hpos := scaled_den_pos (by decide : 0 < 2) hden num e
  have hmantissa : m = (scaled 2 num den e).1 / (scaled 2 num den e).2 := by
    have hkept : (ExtendedMantissa.ofMantissaAndAccuracy m acc).mantissa = m := by
      cases acc with
      | exact => rfl
      | inexact o => cases o <;> rfl
    rw [← hkept, hm, extended]
  refine ⟨(scaled 2 num den e).1, (scaled 2 num den e).2 * 2 ^ (unitOf num den - e).toNat,
    Nat.mul_pos hpos (Nat.two_pow_pos _), ?_, ?_⟩
  · rw [shiftToTargetExponent, targetExponent_totalExponent, hmantissa, max_log2_eq_unitOf hnum hden he,
      shiftToExponent, ← hmantissa, hm, shiftRight_extended hpos]
    refine Prod.ext rfl ?_
    dsimp only
    omega
  · have hratio := ratio_scaled (by decide : 0 < 2) num den e
    rw [Nat.cast_ofNat] at hratio
    rw [Nat.cast_mul, ← div_div, hratio, div_div, Nat.cast_pow, Nat.cast_ofNat, ← zpow_natCast,
      ← zpow_add₀ (by norm_num)]
    congr 2
    omega

/-- **The second shift** is needed only if rounding carried into another bit. -/
theorem shiftToTargetExponent_rounded {m : Nat} {e : Int} (hm : m ≤ 2 * mantissaCount) (he : -1074 ≤ e) :
    shiftToTargetExponent Format.binary64 m e .exact =
      if m = 2 * mantissaCount then (⟨mantissaCount, false, false⟩, e + 1) else (⟨m, false, false⟩, e) := by
  rw [shiftToTargetExponent, targetExponent_totalExponent, shiftToExponent]
  split
  · rename_i hcarry
    have hlog : m.log2 = 53 := by rw [hcarry, show 2 * mantissaCount = 2 ^ 53 from rfl, Nat.log2_two_pow]
    have hshift : (max (((53 : Nat) : Int) + e - 52) (-1074) - e).toNat = 1 := by omega
    rw [hlog, hshift, hcarry]
    rfl
  · rename_i hcarry
    have hlog : m.log2 ≤ 52 := by
      by_cases hzero : m = 0
      · rw [hzero, Nat.log2_zero]
        omega
      · exact Nat.le_of_lt_succ ((Nat.log2_lt hzero).2 (by unfold mantissaCount at *; omega))
    have hshift : (max ((m.log2 : Int) + e - 52) (-1074) - e).toNat = 0 := by omega
    rw [hshift, Nat.cast_zero, Int.add_zero]
    rfl

/-- A rounded mantissa is packed where it is after the second shift. -/
theorem packed_rounded (negative : Bool) {q : Nat} {u : Int} (hq : q ≤ 2 * mantissaCount) (hu : -1074 ≤ u)
    (hunit : mantissaCount ≤ q ∨ u = -1074) :
    packed (if h : (shiftToTargetExponent Format.binary64 q u .exact).1.mantissa = 0 then .zero (signOf negative)
      else .finite (signOf negative) (shiftToTargetExponent Format.binary64 q u .exact).1.mantissa
        (shiftToTargetExponent Format.binary64 q u .exact).2 (Nat.pos_of_ne_zero h)) =
      ofMagnitude negative (min infinityBits ((u + 1074).toNat * mantissaCount + q)) := by
  have hcount : 0 < mantissaCount := by decide
  simp only [shiftToTargetExponent_rounded hq hu]
  by_cases hcarry : q = 2 * mantissaCount
  · have hcarried : (u + 1 + 1074).toNat = (u + 1074).toNat + 1 := by omega
    simp only [if_pos hcarry, dif_neg hcount.ne']
    rw [packed_finite negative hcount (by omega) (by omega) (.inl le_rfl), hcarried, hcarry, Nat.add_mul, Nat.one_mul,
      Nat.add_assoc, ← Nat.two_mul]
  · simp only [if_neg hcarry]
    by_cases hzero : q = 0
    · obtain rfl : u = -1074 := by omega
      rw [dif_pos hzero, packed_zero, hzero]
      rfl
    · rw [dif_neg hzero, packed_finite negative (Nat.pos_of_ne_zero hzero) (by omega) hu hunit]

/-- A fraction has its whole units in the last place, but for the smallest ones. -/
theorem mantissaCount_le_or (hnum : 0 < num) (hden : 0 < den) :
    mantissaCount ≤ (scaled 2 num den (unitOf num den)).1 / (scaled 2 num den (unitOf num den)).2 ∨
      unitOf num den = -1074 := by
  by_cases hunit : unitOf num den = floorLog2 num den - 52
  · exact .inl (mantissaCount_le_units hnum hden hunit)
  · right
    unfold unitOf at *
    omega

/-- **A result is rounded to the nearest double**, if enough bits of it are known. -/
theorem packed_roundWithAccuracy (negative : Bool) (hnum : 0 < num) (hden : 0 < den) {m : Nat} {e : Int}
    {acc : Accuracy} (he : e ≤ unitOf num den)
    (hm : ExtendedMantissa.ofMantissaAndAccuracy m acc = extended (scaled 2 num den e).1 (scaled 2 num den e).2) :
    packed (roundWithAccuracy Format.binary64 (signOf negative) m e acc) =
      ofMagnitude negative (nearestBits num den) := by
  obtain ⟨n, d, hd, hshift, hratio⟩ := shiftToTargetExponent_eq hnum hden he hm
  have hscaled := scaled_den_pos (by decide : 0 < 2) hden num (unitOf num den)
  have hrounded : (extended n d).roundedMantissa = roundQuotient .toEven (scaled 2 num den (unitOf num den)).1
      (scaled 2 num den (unitOf num den)).2 := by
    rw [roundedMantissa_extended hd]
    exact roundQuotient_congr .toEven hd hscaled
      (hratio.trans (by rw [ratio_scaled (by decide), Nat.cast_ofNat]))
  have hle := roundQuotient_le .toEven (scaled 2 num den (unitOf num den)).1 (scaled 2 num den (unitOf num den)).2
  have hge := le_roundQuotient .toEven (scaled 2 num den (unitOf num den)).1 (scaled 2 num den (unitOf num den)).2
  have hlt := units_lt hnum hden
  have hwhole := mantissaCount_le_or hnum hden
  have hlow : -1074 ≤ unitOf num den := by rw [unitOf]; omega
  rw [nearestBits_eq hnum, ← packed_rounded negative (by omega) hlow (by omega), ← hrounded, roundWithAccuracy]
  simp only [hshift]

theorem extended_mul {c : Nat} (hc : 0 < c) : extended (num * c) (den * c) = extended num den := by
  have htwice : 2 * (num % den * c) = 2 * (num % den) * c := (Nat.mul_assoc _ _ _).symm
  simp only [extended, Nat.mul_div_mul_right _ _ hc, Nat.mul_mod_mul_right, htwice, Nat.mul_le_mul_right_iff hc, ne_eq,
    Nat.mul_eq_zero, hc.ne', or_false, Nat.mul_left_inj hc.ne']

/-- What is known of a fraction depends on the fraction and not on how that is written. -/
theorem extended_congr {num' den' : Nat} (hden : 0 < den) (hden' : 0 < den')
    (h : (num : ℚ) / den = (num' : ℚ) / den') : extended num den = extended num' den' :=
  eq_of_ratio_eq (fun _ hc => extended_mul hc) hden hden' h

/-- An exact result is rounded to the nearest double. -/
theorem packed_roundWithAccuracy_exact (negative : Bool) (hnum : 0 < num) (hden : 0 < den) {m : Nat} {e : Int}
    (he : e ≤ unitOf num den) (hratio : (num : ℚ) / den = m * 2 ^ e) :
    packed (roundWithAccuracy Format.binary64 (signOf negative) m e .exact) =
      ofMagnitude negative (nearestBits num den) := by
  refine packed_roundWithAccuracy negative hnum hden he ?_
  have hone : extended m 1 = ExtendedMantissa.ofMantissaAndAccuracy m .exact := by
    rw [extended, Nat.div_one, Nat.mod_one]
    rfl
  rw [← hone]
  refine extended_congr Nat.one_pos (scaled_den_pos (by decide) hden num e) ?_
  have htwo : (2 : ℚ) ^ e ≠ 0 := by positivity
  rw [ratio_scaled (by decide), hratio, Nat.cast_one, div_one, Nat.cast_ofNat, mul_div_assoc, div_self htwo, mul_one]

/-- **A mantissa and an exponent are rounded to the nearest double.** -/
theorem packed_round (negative : Bool) {m : Nat} (hm : 0 < m) (e : Int) :
    packed (UnpackedFloat.round Format.binary64 (signOf negative) m e) =
      ofMagnitude negative (nearestBits (fraction m e).1 (fraction m e).2) := by
  have hunit : unitOf (fraction m e).1 (fraction m e).2 = max ((m.log2 : Int) + e - 52) (-1074) := by
    rw [unitOf, floorLog2_fraction hm, Int.max_comm]
  unfold UnpackedFloat.round decreaseExponent
  simp only [targetExponent_totalExponent]
  refine packed_roundWithAccuracy_exact negative (fraction_num_pos hm e) (fraction_den_pos m e) ?_ ?_
  · omega
  · rw [ratio_fraction, Nat.shiftLeft_eq, Nat.cast_mul, Nat.cast_pow, Nat.cast_ofNat, mul_assoc, ← zpow_natCast,
      ← zpow_add₀ (by norm_num)]
    congr 2
    omega

end CheckerTrials.Decimal
