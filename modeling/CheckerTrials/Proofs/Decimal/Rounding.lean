import CheckerTrials.Decimal.Binary64
import Mathlib.Algebra.Order.Field.Power
import Mathlib.Data.Rat.Cast.Order
import Mathlib.Tactic.FieldSimp
import Mathlib.Tactic.NormNum
import Mathlib.Tactic.Positivity
import Mathlib.Tactic.Ring

/-!
# Rounding a fraction to a double

`nearestBits` works on a numerator and a denominator.  What it gives depends on the fraction and not on how that
is written (`nearestBits_congr`), because the power of two below a fraction does (`zpow_floorLog2_le`,
`lt_zpow_floorLog2`).  A fraction that is a double is rounded to that double (`nearestBits_fraction`), and what
is too large or too small for a double is known without rounding it (`nearestBits_of_large`, `nearestBits_of_small`).
-/

set_option autoImplicit false

namespace CheckerTrials.Decimal

variable {num den : Nat}

/-! ## Fractions and powers -/

theorem scaled_den_pos {base : Nat} (hbase : 0 < base) (hden : 0 < den) (num : Nat) (k : Int) :
    0 < (scaled base num den k).2 := by
  rw [scaled]
  split
  · exact Nat.mul_pos hden (Nat.pow_pos hbase)
  · exact hden

/-- **Scaling divides** the fraction by a power. -/
theorem ratio_scaled {base : Nat} (hbase : 0 < base) (num den : Nat) (k : Int) :
    ((scaled base num den k).1 : ℚ) / (scaled base num den k).2 = (num : ℚ) / den / (base : ℚ) ^ k := by
  have hne : (base : ℚ) ≠ 0 := by exact_mod_cast hbase.ne'
  rw [scaled]
  split
  · rename_i hk
    obtain ⟨n, rfl⟩ := Int.eq_ofNat_of_zero_le hk
    rw [Int.toNat_natCast, zpow_natCast, Nat.pow_eq]
    push_cast
    rw [div_div]
  · rename_i hk
    obtain ⟨n, hn⟩ := Int.eq_ofNat_of_zero_le (show 0 ≤ -k by omega)
    obtain rfl : k = -(n : ℤ) := by omega
    rw [neg_neg, Int.toNat_natCast, zpow_neg, zpow_natCast, Nat.pow_eq, div_inv_eq_mul]
    push_cast
    ring

theorem scaled_mul (base c : Nat) (k : Int) : scaled base (num * c) (den * c) k =
    ((scaled base num den k).1 * c, (scaled base num den k).2 * c) := by
  rw [scaled, scaled]
  split
  · rw [Nat.mul_right_comm]
  · rw [Nat.mul_right_comm]

/-! ## Powers of two below a fraction -/

/-- Whether a power of two is reached is seen after scaling. -/
theorem zpow_le_iff (hden : 0 < den) (k : Int) :
    (2 : ℚ) ^ k ≤ (num : ℚ) / den ↔ (scaled 2 num den k).2 ≤ (scaled 2 num den k).1 := by
  have hpos : (0 : ℚ) < (scaled 2 num den k).2 := by exact_mod_cast scaled_den_pos (by decide) hden num k
  have hratio := ratio_scaled (by decide : 0 < 2) num den k
  have hpow : (0 : ℚ) < 2 ^ k := by positivity
  rw [← one_le_div₀ hpow, show ((2 : ℚ)) = ((2 : Nat) : ℚ) by norm_num, ← hratio, one_le_div₀ hpos, Nat.cast_le]

/-- The lengths of numerator and denominator tell the power of two up to one. -/
theorem zpow_log2_bounds (hnum : 0 < num) (hden : 0 < den) :
    (2 : ℚ) ^ ((num.log2 : Int) - den.log2 - 1) ≤ (num : ℚ) / den ∧
      (num : ℚ) / den < (2 : ℚ) ^ ((num.log2 : Int) - den.log2 + 1) := by
  have hlow : (2 : ℚ) ^ num.log2 ≤ num := by exact_mod_cast Nat.log2_self_le hnum.ne'
  have hhigh : (num : ℚ) < 2 ^ (num.log2 + 1) := by exact_mod_cast Nat.lt_log2_self
  have hlow' : (2 : ℚ) ^ den.log2 ≤ den := by exact_mod_cast Nat.log2_self_le hden.ne'
  have hhigh' : (den : ℚ) < 2 ^ (den.log2 + 1) := by exact_mod_cast Nat.lt_log2_self
  have hpos : (0 : ℚ) < den := by exact_mod_cast hden
  have htwo : (2 : ℚ) ≠ 0 := by norm_num
  constructor
  · rw [le_div_iff₀ hpos]
    calc (2 : ℚ) ^ ((num.log2 : Int) - den.log2 - 1) * den
        ≤ (2 : ℚ) ^ ((num.log2 : Int) - den.log2 - 1) * 2 ^ (den.log2 + 1) := by gcongr
      _ = 2 ^ num.log2 := by
        rw [← zpow_natCast, ← zpow_add₀ htwo, ← zpow_natCast]
        congr 1
        push_cast
        ring
      _ ≤ num := hlow
  · rw [div_lt_iff₀ hpos]
    calc (num : ℚ) < 2 ^ (num.log2 + 1) := hhigh
      _ = (2 : ℚ) ^ ((num.log2 : Int) - den.log2 + 1) * 2 ^ den.log2 := by
        rw [← zpow_natCast, ← zpow_natCast, ← zpow_add₀ htwo]
        congr 1
        push_cast
        ring
      _ ≤ (2 : ℚ) ^ ((num.log2 : Int) - den.log2 + 1) * den := by gcongr

theorem floorLog2_eq (hden : 0 < den) : floorLog2 num den =
    if (2 : ℚ) ^ ((num.log2 : Int) - den.log2) ≤ (num : ℚ) / den then (num.log2 : Int) - den.log2
    else (num.log2 : Int) - den.log2 - 1 := by
  have hreached := @zpow_le_iff num den hden ((num.log2 : Int) - den.log2)
  rw [if_congr hreached rfl rfl, floorLog2, scaled]
  split <;> rfl

/-- **The power of two** that a fraction reaches. -/
theorem zpow_floorLog2_le (hnum : 0 < num) (hden : 0 < den) :
    (2 : ℚ) ^ floorLog2 num den ≤ (num : ℚ) / den := by
  rw [floorLog2_eq hden]
  split
  · assumption
  · exact (zpow_log2_bounds hnum hden).1

/-- It does not reach the next one. -/
theorem lt_zpow_floorLog2 (hnum : 0 < num) (hden : 0 < den) :
    (num : ℚ) / den < (2 : ℚ) ^ (floorLog2 num den + 1) := by
  rw [floorLog2_eq hden]
  split
  · exact (zpow_log2_bounds hnum hden).2
  · rename_i hnot
    rw [sub_add_cancel]
    exact lt_of_not_ge hnot

/-- There is one such power only. -/
theorem floorLog2_eq_of_bounds (hnum : 0 < num) (hden : 0 < den) {k : Int} (hlow : (2 : ℚ) ^ k ≤ (num : ℚ) / den)
    (hhigh : (num : ℚ) / den < (2 : ℚ) ^ (k + 1)) : floorLog2 num den = k := by
  have htwo : (1 : ℚ) < 2 := by norm_num
  have h₁ := (zpow_lt_zpow_iff_right₀ htwo).1 ((zpow_floorLog2_le hnum hden).trans_lt hhigh)
  have h₂ := (zpow_lt_zpow_iff_right₀ htwo).1 (hlow.trans_lt (lt_zpow_floorLog2 hnum hden))
  omega

/-! ## The fraction alone matters -/

/-- What no common factor changes depends on the fraction alone. -/
theorem eq_of_ratio_eq {β : Type} {f : Nat → Nat → β}
    (hf : ∀ {num den c : Nat}, 0 < den → 0 < c → f (num * c) (den * c) = f num den) {num' den' : Nat} (hden : 0 < den)
    (hden' : 0 < den') (h : (num : ℚ) / den = (num' : ℚ) / den') : f num den = f num' den' := by
  rw [div_eq_div_iff (by exact_mod_cast hden.ne') (by exact_mod_cast hden'.ne')] at h
  have hnat : num * den' = num' * den := by exact_mod_cast h
  calc f num den = f (num * den') (den * den') := (hf hden hden').symm
    _ = f (num' * den) (den' * den) := by rw [hnat, Nat.mul_comm den den']
    _ = f num' den' := hf hden' hden

theorem roundQuotient_mul (tie : Tie) {c : Nat} (hc : 0 < c) :
    roundQuotient tie (num * c) (den * c) = roundQuotient tie num den := by
  have htwice : 2 * (num * c % (den * c)) = 2 * (num % den) * c := by
    rw [Nat.mul_mod_mul_right, Nat.mul_assoc]
  simp only [roundQuotient, Nat.mul_div_mul_right _ _ hc, htwice, Nat.mul_lt_mul_right hc]

theorem roundQuotient_congr (tie : Tie) {num' den' : Nat} (hden : 0 < den) (hden' : 0 < den')
    (h : (num : ℚ) / den = (num' : ℚ) / den') : roundQuotient tie num den = roundQuotient tie num' den' :=
  eq_of_ratio_eq (fun _ hc => roundQuotient_mul tie hc) hden hden' h

theorem floorLog2_mul (hnum : 0 < num) (hden : 0 < den) {c : Nat} (hc : 0 < c) :
    floorLog2 (num * c) (den * c) = floorLog2 num den := by
  have hratio : ((num * c : Nat) : ℚ) / (den * c : Nat) = (num : ℚ) / den := by
    push_cast
    exact mul_div_mul_right _ _ (by exact_mod_cast hc.ne')
  refine floorLog2_eq_of_bounds (Nat.mul_pos hnum hc) (Nat.mul_pos hden hc) ?_ ?_
  · rw [hratio]
    exact zpow_floorLog2_le hnum hden
  · rw [hratio]
    exact lt_zpow_floorLog2 hnum hden

/-- The unit in the last place of the double next to a fraction. -/
def unitOf (num den : Nat) : Int := max (-1074) (floorLog2 num den - 52)

theorem nearestBits_zero (den : Nat) : nearestBits 0 den = 0 := by
  rw [nearestBits, if_pos rfl]

theorem nearestBits_eq (hnum : 0 < num) (den : Nat) : nearestBits num den =
    min infinityBits ((unitOf num den + 1074).toNat * mantissaCount +
      roundQuotient .toEven (scaled 2 num den (unitOf num den)).1 (scaled 2 num den (unitOf num den)).2) := by
  rw [nearestBits, if_neg hnum.ne']
  rfl

/-- A common factor does not change the rounding. -/
theorem nearestBits_mul (hden : 0 < den) {c : Nat} (hc : 0 < c) :
    nearestBits (num * c) (den * c) = nearestBits num den := by
  rcases Nat.eq_zero_or_pos num with hnum | hnum
  · rw [hnum, Nat.zero_mul, nearestBits_zero, nearestBits_zero]
  · rw [nearestBits_eq (Nat.mul_pos hnum hc), nearestBits_eq hnum, unitOf, unitOf, floorLog2_mul hnum hden hc,
      scaled_mul, roundQuotient_mul _ hc]

/-- **Equal fractions are rounded to the same double.** -/
theorem nearestBits_congr {num' den' : Nat} (hden : 0 < den) (hden' : 0 < den')
    (h : (num : ℚ) / den = (num' : ℚ) / den') : nearestBits num den = nearestBits num' den' :=
  eq_of_ratio_eq (fun hpos hc => nearestBits_mul hpos hc) hden hden' h

/-! ## Exact, large and small fractions -/

theorem le_roundQuotient (tie : Tie) (num den : Nat) : num / den ≤ roundQuotient tie num den := by
  rcases roundQuotient_mem tie num den with h | h <;> omega

theorem roundQuotient_le (tie : Tie) (num den : Nat) : roundQuotient tie num den ≤ num / den + 1 := by
  rcases roundQuotient_mem tie num den with h | h <;> omega

/-- Whole units below a fraction. -/
theorem le_units_iff (hden : 0 < den) (k : Int) (a : Nat) :
    a ≤ (scaled 2 num den k).1 / (scaled 2 num den k).2 ↔ (a : ℚ) * 2 ^ k ≤ (num : ℚ) / den := by
  have hpos := scaled_den_pos (by decide : 0 < 2) hden num k
  have hpos' : (0 : ℚ) < (scaled 2 num den k).2 := by exact_mod_cast hpos
  have hratio := ratio_scaled (by decide : 0 < 2) num den k
  rw [Nat.cast_ofNat] at hratio
  have hpow : (0 : ℚ) < 2 ^ k := by positivity
  rw [← le_div_iff₀ hpow, ← hratio, le_div_iff₀ hpos', Nat.le_div_iff_mul_le hpos]
  exact_mod_cast Iff.rfl

/-- A fraction is less than so many units in the last place. -/
theorem units_lt (hnum : 0 < num) (hden : 0 < den) :
    (scaled 2 num den (unitOf num den)).1 / (scaled 2 num den (unitOf num den)).2 < 2 * mantissaCount := by
  have htwo : (1 : ℚ) < 2 := by norm_num
  rw [← not_le, le_units_iff hden, not_le]
  calc (num : ℚ) / den < 2 ^ (floorLog2 num den + 1) := lt_zpow_floorLog2 hnum hden
    _ ≤ 2 ^ (53 + unitOf num den) := zpow_le_zpow_right₀ htwo.le (by rw [unitOf]; omega)
    _ = ((2 * mantissaCount : Nat) : ℚ) * 2 ^ unitOf num den := by
      rw [zpow_add₀ (by norm_num)]
      norm_num [mantissaCount]

/-- It is at least half as many, if it is not too small. -/
theorem mantissaCount_le_units (hnum : 0 < num) (hden : 0 < den) (h : unitOf num den = floorLog2 num den - 52) :
    mantissaCount ≤ (scaled 2 num den (unitOf num den)).1 / (scaled 2 num den (unitOf num den)).2 := by
  rw [le_units_iff hden, h]
  calc (mantissaCount : ℚ) * 2 ^ (floorLog2 num den - 52) = 2 ^ (52 + (floorLog2 num den - 52)) := by
        rw [zpow_add₀ (by norm_num)]
        norm_num [mantissaCount]
    _ = 2 ^ floorLog2 num den := by rw [add_sub_cancel]
    _ ≤ (num : ℚ) / den := zpow_floorLog2_le hnum hden

/-- **What is beyond every double** is rounded to infinity. -/
theorem nearestBits_of_large (hden : 0 < den) (h : (2 : ℚ) ^ 1024 ≤ (num : ℚ) / den) :
    nearestBits num den = infinityBits := by
  have hnum : 0 < num := by
    rcases Nat.eq_zero_or_pos num with rfl | hnum
    · rw [Nat.cast_zero, zero_div] at h
      exact absurd h (by norm_num)
    · exact hnum
  have htwo : (1 : ℚ) < 2 := by norm_num
  have hlog : 1024 < floorLog2 num den + 1 := by
    rw [← zpow_natCast] at h
    exact (zpow_lt_zpow_iff_right₀ htwo).1 (h.trans_lt (lt_zpow_floorLog2 hnum hden))
  have hunit : unitOf num den = floorLog2 num den - 52 := by rw [unitOf]; omega
  have hmantissa := mantissaCount_le_units hnum hden hunit
  have hround := le_roundQuotient .toEven (scaled 2 num den (unitOf num den)).1 (scaled 2 num den (unitOf num den)).2
  have hcount : 2046 * mantissaCount ≤ (unitOf num den + 1074).toNat * mantissaCount :=
    Nat.mul_le_mul_right _ (by omega)
  have hinfinity : infinityBits = 2046 * mantissaCount + mantissaCount := by decide
  rw [nearestBits_eq hnum]
  omega

/-- **What is nearer to zero than to any double** is rounded to zero. -/
theorem nearestBits_of_small (hnum : 0 < num) (hden : 0 < den)
    (h : (num : ℚ) / den < (2 : ℚ) ^ (-1075 : Int)) : nearestBits num den = 0 := by
  have htwo : (1 : ℚ) < 2 := by norm_num
  have hlog : floorLog2 num den < -1075 :=
    (zpow_lt_zpow_iff_right₀ htwo).1 ((zpow_floorLog2_le hnum hden).trans_lt h)
  have hunit : unitOf num den = -1074 := by rw [unitOf]; omega
  rw [nearestBits_eq hnum, hunit]
  have hpos := scaled_den_pos (by decide : 0 < 2) hden num (-1074)
  have hhalf : 2 * (scaled 2 num den (-1074)).1 < (scaled 2 num den (-1074)).2 := by
    have hpos' : (0 : ℚ) < (scaled 2 num den (-1074)).2 := by exact_mod_cast hpos
    have hratio := ratio_scaled (by decide : 0 < 2) num den (-1074)
    rw [Nat.cast_ofNat] at hratio
    have hlt : ((scaled 2 num den (-1074)).1 : ℚ) / (scaled 2 num den (-1074)).2 < 2⁻¹ := by
      rw [hratio, div_lt_iff₀ (by positivity)]
      calc (num : ℚ) / den < 2 ^ (-1075 : Int) := h
        _ = 2⁻¹ * 2 ^ (-1074 : Int) := by
          rw [← zpow_neg_one, ← zpow_add₀ (by norm_num)]
          norm_num
    rw [div_lt_iff₀ hpos', inv_mul_eq_div, lt_div_iff₀ (by norm_num)] at hlt
    rw [Nat.mul_comm]
    exact_mod_cast hlt
  have hround : roundQuotient .toEven (scaled 2 num den (-1074)).1 (scaled 2 num den (-1074)).2 = 0 := by
    have hlt : (scaled 2 num den (-1074)).1 < (scaled 2 num den (-1074)).2 := by omega
    rw [roundQuotient, Nat.mod_eq_of_lt hlt, if_pos hhalf, Nat.div_eq_of_lt hlt]
  rw [hround]
  rfl

/-- What is below half the greatest power of two is rounded to a finite double. -/
theorem nearestBits_lt (hnum : 0 < num) (hden : 0 < den) (h : (num : ℚ) / den < (2 : ℚ) ^ (1023 : Int)) :
    nearestBits num den < infinityBits := by
  have htwo : (1 : ℚ) < 2 := by norm_num
  have hlog : floorLog2 num den < 1023 :=
    (zpow_lt_zpow_iff_right₀ htwo).1 ((zpow_floorLog2_le hnum hden).trans_lt h)
  have hunit : unitOf num den ≤ 970 := by rw [unitOf]; omega
  have hmantissa := units_lt hnum hden
  have hround := roundQuotient_le .toEven (scaled 2 num den (unitOf num den)).1 (scaled 2 num den (unitOf num den)).2
  have hcount : (unitOf num den + 1074).toNat * mantissaCount ≤ 2044 * mantissaCount :=
    Nat.mul_le_mul_right _ (by omega)
  have hinfinity : infinityBits = 2047 * mantissaCount := by decide
  have hpos : 0 < mantissaCount := by decide
  rw [nearestBits_eq hnum]
  omega

/-! ## The order of fractions -/

/-- A greater fraction is rounded to no smaller natural number. -/
theorem roundQuotient_mono {num' den' : Nat} (hden : 0 < den) (hden' : 0 < den') (h : num * den' ≤ num' * den) :
    roundQuotient .toEven num den ≤ roundQuotient .toEven num' den' := by
  have hlow : num / den ≤ num' / den' := by
    rw [Nat.le_div_iff_mul_le hden']
    refine Nat.le_of_mul_le_mul_right ?_ hden
    calc num / den * den' * den = num / den * den * den' := Nat.mul_right_comm _ _ _
      _ ≤ num * den' := Nat.mul_le_mul_right _ (Nat.div_mul_le_self num den)
      _ ≤ num' * den := h
  rcases Nat.lt_or_eq_of_le hlow with hlt | heq
  · exact (roundQuotient_le .toEven num den).trans (Nat.le_trans hlt (le_roundQuotient .toEven num' den'))
  · -- the whole parts are the same, so that the remainders decide
    have hrest : num % den * den' ≤ num' % den' * den := by
      have hnum := congrArg (· * den') (Nat.div_add_mod num den)
      have hnum' := congrArg (· * den) (Nat.div_add_mod num' den')
      simp only [Nat.add_mul] at hnum hnum'
      have hwhole : den * (num / den) * den' = den' * (num' / den') * den := by rw [heq]; ring
      omega
    have hhalf : den ≤ 2 * (num % den) → den' ≤ 2 * (num' % den') := fun hle => by
      refine Nat.le_of_mul_le_mul_right ?_ hden
      calc den' * den ≤ 2 * (num % den) * den' := by rw [Nat.mul_comm]; exact Nat.mul_le_mul_right _ hle
        _ = 2 * (num % den * den') := Nat.mul_assoc _ _ _
        _ ≤ 2 * (num' % den' * den) := Nat.mul_le_mul_left _ hrest
        _ = 2 * (num' % den') * den := (Nat.mul_assoc _ _ _).symm
    have hmore : den < 2 * (num % den) → den' < 2 * (num' % den') := fun hlt => by
      refine Nat.lt_of_mul_lt_mul_right (a := den) ?_
      calc den' * den < 2 * (num % den) * den' := by rw [Nat.mul_comm]; exact Nat.mul_lt_mul_of_pos_right hlt hden'
        _ = 2 * (num % den * den') := Nat.mul_assoc _ _ _
        _ ≤ 2 * (num' % den' * den) := Nat.mul_le_mul_left _ hrest
        _ = 2 * (num' % den') * den := (Nat.mul_assoc _ _ _).symm
    unfold roundQuotient
    dsimp only
    rw [← heq]
    split_ifs <;> omega

theorem floorLog2_mono {num' den' : Nat} (hnum : 0 < num) (hden : 0 < den) (hnum' : 0 < num') (hden' : 0 < den')
    (h : (num : ℚ) / den ≤ (num' : ℚ) / den') : floorLog2 num den ≤ floorLog2 num' den' := by
  have htwo : (1 : ℚ) < 2 := by norm_num
  have hlt := (zpow_lt_zpow_iff_right₀ htwo).1
    (((zpow_floorLog2_le hnum hden).trans h).trans_lt (lt_zpow_floorLog2 hnum' hden'))
  omega

/-- **A greater fraction is rounded to no smaller double.** -/
theorem nearestBits_mono {num' den' : Nat} (hden : 0 < den) (hden' : 0 < den')
    (h : (num : ℚ) / den ≤ (num' : ℚ) / den') : nearestBits num den ≤ nearestBits num' den' := by
  rcases Nat.eq_zero_or_pos num with rfl | hnum
  · rw [nearestBits_zero]
    exact Nat.zero_le _
  have hnum' : 0 < num' := by
    have hpos : (0 : ℚ) < (num' : ℚ) / den' :=
      (div_pos (by exact_mod_cast hnum) (by exact_mod_cast hden)).trans_le h
    exact_mod_cast (div_pos_iff_of_pos_right (by exact_mod_cast hden')).1 hpos
  have hlog := floorLog2_mono hnum hden hnum' hden' h
  rw [nearestBits_eq hnum, nearestBits_eq hnum']
  refine min_le_min_left _ ?_
  rcases eq_or_lt_of_le (show unitOf num den ≤ unitOf num' den' by rw [unitOf, unitOf]; omega) with hunit | hunit
  · rw [hunit]
    refine Nat.add_le_add_left (roundQuotient_mono (scaled_den_pos (by decide) hden _ _)
      (scaled_den_pos (by decide) hden' _ _) ?_) _
    have hpos : (0 : ℚ) < (scaled 2 num den (unitOf num' den')).2 := by
      exact_mod_cast scaled_den_pos (by decide) hden num _
    have hpos' : (0 : ℚ) < (scaled 2 num' den' (unitOf num' den')).2 := by
      exact_mod_cast scaled_den_pos (by decide) hden' num' _
    have hratio : ((scaled 2 num den (unitOf num' den')).1 : ℚ) / (scaled 2 num den (unitOf num' den')).2 ≤
        (scaled 2 num' den' (unitOf num' den')).1 / (scaled 2 num' den' (unitOf num' den')).2 := by
      rw [ratio_scaled (by decide), ratio_scaled (by decide)]
      gcongr
    rw [div_le_div_iff₀ hpos hpos'] at hratio
    exact_mod_cast hratio
  · -- a greater unit weighs more than all mantissas of the smaller one
    have hmantissa' := mantissaCount_le_units hnum' hden' (by unfold unitOf at *; omega)
    have hround' := le_roundQuotient .toEven (scaled 2 num' den' (unitOf num' den')).1
      (scaled 2 num' den' (unitOf num' den')).2
    have hmantissa := units_lt hnum hden
    have hround := roundQuotient_le .toEven (scaled 2 num den (unitOf num den)).1 (scaled 2 num den (unitOf num den)).2
    have hlow : -1074 ≤ unitOf num den := by rw [unitOf]; omega
    have hcount : ((unitOf num den + 1074).toNat + 1) * mantissaCount ≤ (unitOf num' den' + 1074).toNat * mantissaCount :=
      Nat.mul_le_mul_right _ (by omega)
    rw [Nat.add_mul] at hcount
    omega

theorem fraction_den_pos (mantissa : Nat) (exponent : Int) : 0 < (fraction mantissa exponent).2 := by
  rw [fraction]
  split
  · exact Nat.one_pos
  · exact Nat.pow_pos (by decide)

theorem fraction_num_pos {mantissa : Nat} (h : 0 < mantissa) (exponent : Int) :
    0 < (fraction mantissa exponent).1 := by
  rw [fraction]
  split
  · exact Nat.mul_pos h (Nat.pow_pos (by decide))
  · exact h

/-- The value of a mantissa and a power of two. -/
theorem ratio_fraction (mantissa : Nat) (exponent : Int) :
    ((fraction mantissa exponent).1 : ℚ) / (fraction mantissa exponent).2 = mantissa * (2 : ℚ) ^ exponent := by
  rw [fraction]
  split
  · rename_i hk
    obtain ⟨n, rfl⟩ := Int.eq_ofNat_of_zero_le hk
    rw [Int.toNat_natCast, zpow_natCast, Nat.pow_eq]
    push_cast
    rw [div_one]
  · rename_i hk
    obtain ⟨n, hn⟩ := Int.eq_ofNat_of_zero_le (show 0 ≤ -exponent by omega)
    obtain rfl : exponent = -(n : ℤ) := by omega
    rw [neg_neg, Int.toNat_natCast, zpow_neg, zpow_natCast, Nat.pow_eq, ← div_eq_mul_inv]
    push_cast
    rfl

theorem floorLog2_fraction {mantissa : Nat} (h : 0 < mantissa) (exponent : Int) :
    floorLog2 (fraction mantissa exponent).1 (fraction mantissa exponent).2 = mantissa.log2 + exponent := by
  have hlow : (2 : ℚ) ^ mantissa.log2 ≤ mantissa := by exact_mod_cast Nat.log2_self_le h.ne'
  have hhigh : (mantissa : ℚ) < 2 ^ (mantissa.log2 + 1) := by exact_mod_cast Nat.lt_log2_self
  have htwo : (2 : ℚ) ≠ 0 := by norm_num
  have hpos : (0 : ℚ) < 2 ^ exponent := by positivity
  refine floorLog2_eq_of_bounds (fraction_num_pos h exponent) (fraction_den_pos mantissa exponent) ?_ ?_
  · rw [ratio_fraction, zpow_add₀ htwo, zpow_natCast]
    gcongr
  · rw [ratio_fraction, show ((mantissa.log2 : Int) + exponent + 1) = ((mantissa.log2 + 1 : Nat) : Int) + exponent by
      push_cast; ring, zpow_add₀ htwo, zpow_natCast]
    gcongr

/-- A fraction counted in its unit in the last place is rounded to itself. -/
theorem nearestBits_of_unit {mantissa : Nat} {exponent : Int} (h : 0 < mantissa)
    (hunit : max (-1074) ((mantissa.log2 : Int) + exponent - 52) = exponent) :
    nearestBits (fraction mantissa exponent).1 (fraction mantissa exponent).2 =
      min infinityBits ((exponent + 1074).toNat * mantissaCount + mantissa) := by
  have hunitOf : unitOf (fraction mantissa exponent).1 (fraction mantissa exponent).2 = exponent := by
    rw [unitOf, floorLog2_fraction h, hunit]
  rw [nearestBits_eq (fraction_num_pos h exponent), hunitOf]
  have hpos := scaled_den_pos (by decide : 0 < 2) (fraction_den_pos mantissa exponent) (fraction mantissa exponent).1
    exponent
  have hratio := ratio_scaled (by decide : 0 < 2) (fraction mantissa exponent).1 (fraction mantissa exponent).2 exponent
  rw [ratio_fraction, Nat.cast_ofNat, mul_div_assoc, div_self (by positivity), mul_one,
    div_eq_iff (by exact_mod_cast hpos.ne')] at hratio
  have hexact : (scaled 2 (fraction mantissa exponent).1 (fraction mantissa exponent).2 exponent).1 =
      mantissa * (scaled 2 (fraction mantissa exponent).1 (fraction mantissa exponent).2 exponent).2 := by
    exact_mod_cast hratio
  rw [hexact, roundQuotient_of_dvd _ hpos (Nat.dvd_mul_left _ _), Nat.mul_div_cancel _ hpos]

/-- **Doubles are exact**: what a bit pattern stands for is rounded to that bit pattern. -/
theorem nearestBits_fraction {bits : Nat} (hpos : 0 < bits) (hfinite : bits < infinityBits) :
    nearestBits (fraction (mantissaExponent bits).1 (mantissaExponent bits).2).1
      (fraction (mantissaExponent bits).1 (mantissaExponent bits).2).2 = bits := by
  rw [mantissaExponent]
  split
  · rename_i hsmall
    have hlog : bits.log2 < 52 := (Nat.log2_lt hpos.ne').2 hsmall
    rw [nearestBits_of_unit hpos (by omega)]
    simpa using hfinite.le
  · rename_i hlarge
    have hcount : 0 < mantissaCount := by decide
    have hmod := Nat.mod_lt bits hcount
    have hdiv : 1 ≤ bits / mantissaCount := (Nat.one_le_div_iff hcount).2 (Nat.le_of_not_lt hlarge)
    have hmantissa : 0 < mantissaCount + bits % mantissaCount := by omega
    have hlog : (mantissaCount + bits % mantissaCount).log2 = 52 := by
      rw [Nat.log2_eq_iff hmantissa.ne']
      unfold mantissaCount at *
      omega
    dsimp only
    rw [nearestBits_of_unit hmantissa (by rw [hlog]; omega)]
    have hunit : ((bits / mantissaCount : Nat) - 1075 + 1074 : Int).toNat = bits / mantissaCount - 1 := by omega
    rw [hunit, Nat.sub_mul, Nat.one_mul]
    have hle : mantissaCount ≤ bits / mantissaCount * mantissaCount := Nat.le_mul_of_pos_left _ hdiv
    have hsplit := Nat.div_add_mod' bits mantissaCount
    rw [Nat.min_eq_right (by omega)]
    omega

end CheckerTrials.Decimal
