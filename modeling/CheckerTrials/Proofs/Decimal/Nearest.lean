import CheckerTrials.Decimal.Numeral
import CheckerTrials.Decimal.Shortest
import CheckerTrials.Proofs.Decimal.Rounding

/-!
# The digits of a double are nearest to it

`Digits.value` is the number that a decimal says.  Two decimals of one value are nearest to the same double
(`Digits.bits_congr`), so that zeros may be moved from the digits into the power of ten.  Hence the digits that
are found for a double are nearest to it (`bits_shortest`): those of at most seventeen digits because that has been
tried, and all digits because then the value is that of the double.

Reading a numeral rounds its value, whether or not the numeral is recognised as too large or too small
beforehand (`Numeral.toFloat_eq`).
-/

set_option autoImplicit false

namespace CheckerTrials.Decimal

/-! ## The value of a decimal -/

/-- The number that a decimal says. -/
def Digits.value (d : Digits) : ℚ := d.digits * (10 : ℚ) ^ d.exponent

theorem ratio_scaled_ten (digits : Nat) (exponent : Int) :
    ((scaled 10 digits 1 (-exponent)).1 : ℚ) / (scaled 10 digits 1 (-exponent)).2 =
      Digits.value ⟨digits, exponent⟩ := by
  rw [ratio_scaled (by decide), Digits.value, Nat.cast_one, div_one, zpow_neg, div_inv_eq_mul, Nat.cast_ofNat]

theorem Digits.bits_eq (d : Digits) : d.bits =
    nearestBits (scaled 10 d.digits 1 (-d.exponent)).1 (scaled 10 d.digits 1 (-d.exponent)).2 := rfl

/-- **Only the value counts** for which double is nearest. -/
theorem Digits.bits_of_value {d : Digits} {num den : Nat} (hden : 0 < den) (h : d.value = (num : ℚ) / den) :
    d.bits = nearestBits num den := by
  rw [bits_eq]
  exact nearestBits_congr (scaled_den_pos (by decide) Nat.one_pos _ _) hden ((ratio_scaled_ten _ _).trans h)

theorem Digits.bits_congr {d e : Digits} (h : d.value = e.value) : d.bits = e.bits := by
  rw [bits_eq e]
  exact bits_of_value (scaled_den_pos (by decide) Nat.one_pos _ _) (h.trans (ratio_scaled_ten _ _).symm)

theorem Digits.bits_of_digits_eq_zero {d : Digits} (h : d.digits = 0) : d.bits = 0 := by
  have hvalue : d.value = ((0 : Nat) : ℚ) / (1 : Nat) := by simp [Digits.value, h]
  rw [bits_of_value Nat.one_pos hvalue, nearestBits_zero]

/-! ## The digits that are found -/

theorem value_dropZeros (d : Digits) (fuel : Nat) : (d.dropZeros fuel).value = d.value := by
  induction fuel generalizing d with
  | zero => rfl
  | succ fuel ih =>
    rw [Digits.dropZeros]
    split
    · rename_i h
      have hdigits : d.digits = d.digits / 10 * 10 := by omega
      have hcast : (d.digits : ℚ) = (d.digits / 10 : Nat) * 10 := by exact_mod_cast hdigits
      rw [ih, Digits.value, Digits.value, hcast, zpow_add_one₀ (by norm_num)]
      ring
    · rfl

/-- What is found among the decimals next to a double is nearest to it. -/
theorem bits_of_shortestOf? {tie : Tie} {bits num den count : Nat} {d : Digits}
    (h : shortestOf? tie bits num den count = some d) : d.bits = bits := by
  unfold shortestOf? at h
  dsimp only at h
  split at h
  · rename_i hlow hhigh
    split at h
    · rw [← Option.some.inj h]
      exact of_decide_eq_true hlow
    · rw [← Option.some.inj h]
      exact of_decide_eq_true hhigh
  · rename_i hlow hhigh
    rw [← Option.some.inj h]
    exact of_decide_eq_true hlow
  · rename_i hlow hhigh
    rw [← Option.some.inj h]
    exact of_decide_eq_true hhigh
  · exact absurd h (by simp)

theorem value_exactDigits (mantissa : Nat) (exponent : Int) :
    (exactDigits mantissa exponent).value = mantissa * (2 : ℚ) ^ exponent := by
  rw [exactDigits]
  split
  · rename_i hk
    obtain ⟨n, rfl⟩ := Int.eq_ofNat_of_zero_le hk
    rw [Digits.value, Int.toNat_natCast, zpow_natCast, zpow_zero, mul_one, Nat.pow_eq]
    push_cast
    rfl
  · rename_i hk
    obtain ⟨n, hn⟩ := Int.eq_ofNat_of_zero_le (show 0 ≤ -exponent by omega)
    obtain rfl : exponent = -(n : ℤ) := by omega
    rw [Digits.value, neg_neg, Int.toNat_natCast, zpow_neg, zpow_neg, zpow_natCast, zpow_natCast, Nat.pow_eq]
    push_cast
    rw [show (10 : ℚ) = 5 * 2 by norm_num, mul_pow, mul_inv, mul_assoc, mul_inv_cancel_left₀ (by positivity)]

/-- **The digits of a double are nearest to it.** -/
theorem bits_shortest (tie : Tie) {bits : Nat} (hpos : 0 < bits) (hfinite : bits < infinityBits) :
    (shortest tie bits).bits = bits := by
  rw [shortest]
  dsimp only
  rw [Digits.bits_congr (value_dropZeros _ 400)]
  cases hfound : (List.range' 1 17).findSome? (shortestOf? tie bits
      (fraction (mantissaExponent bits).1 (mantissaExponent bits).2).1
      (fraction (mantissaExponent bits).1 (mantissaExponent bits).2).2) with
  | none =>
    rw [Option.getD_none, Digits.bits_of_value (fraction_den_pos _ _)
      ((value_exactDigits _ _).trans (ratio_fraction _ _).symm), nearestBits_fraction hpos hfinite]
  | some d =>
    obtain ⟨count, -, hd⟩ := List.exists_of_findSome?_eq_some hfound
    exact bits_of_shortestOf? hd

/-! ## Reading a numeral -/

theorem ten_zpow_le {k : Int} (h : k ≤ 0) : (10 : ℚ) ^ k ≤ 2 ^ (3 * k) := by
  obtain ⟨n, hn⟩ := Int.eq_ofNat_of_zero_le (show 0 ≤ -k by omega)
  obtain rfl : k = -(n : ℤ) := by omega
  rw [zpow_mul, zpow_neg, zpow_neg, zpow_natCast, zpow_natCast]
  exact inv_anti₀ (by positivity) (pow_le_pow_left₀ (by norm_num) (by norm_num) n)

/-- Digits with a great power of ten are too large for a double. -/
theorem Digits.bits_of_large {d : Digits} (hpos : 0 < d.digits) (h : 400 < d.exponent) : d.bits = infinityBits := by
  have hone : (1 : ℚ) ≤ d.digits := by exact_mod_cast hpos
  rw [bits_eq, nearestBits_of_large (scaled_den_pos (by decide) Nat.one_pos _ _)]
  rw [ratio_scaled_ten, value]
  calc (2 : ℚ) ^ 1024 ≤ 2 ^ (3 * 401) := pow_le_pow_right₀ (by norm_num) (by norm_num)
    _ = 8 ^ 401 := by rw [pow_mul]; norm_num
    _ ≤ 10 ^ (401 : Int) := pow_le_pow_left₀ (by norm_num) (by norm_num) 401
    _ ≤ 10 ^ d.exponent := zpow_le_zpow_right₀ (by norm_num) (by omega)
    _ ≤ d.digits * 10 ^ d.exponent := le_mul_of_one_le_left (by positivity) hone

/-- Few digits with a small power of ten are nearest to zero. -/
theorem Digits.bits_of_small {d : Digits} (hpos : 0 < d.digits) (hexponent : d.exponent ≤ 0)
    (h : 3 * d.exponent + d.digits.log2 < -1075) : d.bits = 0 := by
  have hnum : 0 < (scaled 10 d.digits 1 (-d.exponent)).1 := by
    rw [scaled, if_pos (by omega)]
    exact hpos
  have hlog : (d.digits : ℚ) < 2 ^ (d.digits.log2 + 1) := by exact_mod_cast Nat.lt_log2_self
  rw [bits_eq, nearestBits_of_small hnum (scaled_den_pos (by decide) Nat.one_pos _ _)]
  rw [ratio_scaled_ten, value]
  calc d.digits * (10 : ℚ) ^ d.exponent ≤ d.digits * 2 ^ (3 * d.exponent) := by
        gcongr
        exact ten_zpow_le hexponent
    _ < 2 ^ (d.digits.log2 + 1) * 2 ^ (3 * d.exponent) := by gcongr
    _ = 2 ^ ((d.digits.log2 + 1 : Nat) + 3 * d.exponent) := by
      rw [zpow_add₀ (by norm_num), zpow_natCast]
    _ ≤ 2 ^ (-1075 : Int) := zpow_le_zpow_right₀ (by norm_num) (by push_cast; omega)

/-- **The shortcuts do not matter**: a numeral is the double nearest to its value. -/
theorem Numeral.toFloat_eq (n : Numeral) :
    n.toFloat = ofMagnitude n.negative (Digits.bits ⟨n.digits, n.exponent⟩) := by
  rw [Numeral.toFloat]
  dsimp only
  congr 1
  split
  · rename_i hzero
    rw [Digits.bits_of_digits_eq_zero hzero]
  · rename_i hdigits
    have hpos : 0 < n.digits := Nat.pos_of_ne_zero hdigits
    split
    · rename_i hlarge
      rw [Digits.bits_of_large hpos hlarge]
    · split
      · rename_i hsmall
        rw [Digits.bits_of_small hpos hsmall.1.le (by dsimp only; omega)]
      · rfl

end CheckerTrials.Decimal
