import CheckerTrials.Proofs.Decimal.Shifting

/-!
# Sums, products and quotients of doubles

The number that a magnitude stands for is `ratioOf`, and the magnitude nearest to a number that is not negative is
`bitsNear`.  Doubles that are not negative are added, multiplied and divided by rounding the exact result once
(`add_ofMagnitude`, `mul_ofMagnitude`, `div_ofMagnitude`), and a count becomes the double nearest to it
(`ofNat_eq`).
-/

set_option autoImplicit false

namespace CheckerTrials.Decimal

open Float.Model (Format UnpackedFloat totalExponent)
open Float.Model.UnpackedFloat

/-! ## Numbers and magnitudes -/

/-- The number that the bits of a finite magnitude stand for. -/
def ratioOf (bits : Nat) : ℚ := (mantissaExponent bits).1 * (2 : ℚ) ^ (mantissaExponent bits).2

/-- The bits of the magnitude nearest to a number. -/
def bitsNear (q : ℚ) : Nat := nearestBits q.num.toNat q.den

variable {a b : Nat} {p q : ℚ}

theorem toNat_num_div_den (hq : 0 ≤ q) : (q.num.toNat : ℚ) / q.den = q := by
  have hnum : ((q.num.toNat : Int) : ℚ) = q.num := by rw [Int.toNat_of_nonneg (Rat.num_nonneg.2 hq)]
  rw [← Int.cast_natCast, hnum, Rat.num_div_den]

theorem bitsNear_div {num den : Nat} (hden : 0 < den) : bitsNear ((num : ℚ) / den) = nearestBits num den :=
  nearestBits_congr (Rat.den_pos _) hden (toNat_num_div_den (by positivity))

theorem bitsNear_mono (hp : 0 ≤ p) (h : p ≤ q) : bitsNear p ≤ bitsNear q :=
  nearestBits_mono (Rat.den_pos _) (Rat.den_pos _) (by rwa [toNat_num_div_den hp, toNat_num_div_den (hp.trans h)])

/-- What is below half the greatest power of two is near a finite double. -/
theorem bitsNear_lt (hq : 0 < q) (h : q < 2 ^ (1023 : Int)) : bitsNear q < infinityBits := by
  have hnum : 0 < q.num.toNat := Int.lt_toNat.2 (Rat.num_pos.2 hq)
  exact nearestBits_lt hnum (Rat.den_pos q) (by rwa [toNat_num_div_den hq.le])

theorem ratioOf_nonneg (bits : Nat) : 0 ≤ ratioOf bits := by
  unfold ratioOf
  positivity

theorem ratioOf_zero : ratioOf 0 = 0 := by
  rw [ratioOf, show mantissaExponent 0 = (0, -1074) from rfl, Nat.cast_zero, zero_mul]

theorem bitsNear_zero : bitsNear 0 = 0 := nearestBits_zero 1

theorem mantissa_pos (ha : 0 < a) : 0 < (mantissaExponent a).1 := by
  unfold mantissaExponent mantissaCount
  split <;> dsimp only <;> omega

/-- **A double is nearest to the number that it is.** -/
theorem bitsNear_ratioOf (ha : a < infinityBits) : bitsNear (ratioOf a) = a := by
  rcases Nat.eq_zero_or_pos a with rfl | hpos
  · rw [ratioOf_zero, bitsNear_zero]
  · rw [ratioOf, ← ratio_fraction, bitsNear_div (fraction_den_pos _ _), nearestBits_fraction hpos ha]

/-- Magnitudes are in the order of the numbers that they stand for. -/
theorem ratioOf_le_ratioOf (ha : a < infinityBits) (hb : b < infinityBits) (h : a ≤ b) : ratioOf a ≤ ratioOf b := by
  by_contra hlt
  have hle := bitsNear_mono (ratioOf_nonneg b) (not_le.1 hlt).le
  rw [bitsNear_ratioOf ha, bitsNear_ratioOf hb] at hle
  exact hlt (by rw [Nat.le_antisymm h hle])

theorem ratioOf_lt_ratioOf_iff (ha : a < infinityBits) (hb : b < infinityBits) : ratioOf a < ratioOf b ↔ a < b := by
  constructor
  · intro hlt
    by_contra hle
    exact absurd hlt (ratioOf_le_ratioOf hb ha (Nat.not_lt.1 hle)).not_gt
  · intro hlt
    refine lt_of_le_of_ne (ratioOf_le_ratioOf ha hb hlt.le) fun heq => hlt.ne ?_
    rw [← bitsNear_ratioOf ha, heq, bitsNear_ratioOf hb]

/-- **A mantissa with a power of two** has the bits of the mantissa and the power, if the mantissa has all its bits and
the power is in range. -/
theorem bitsNear_mantissa {m : Nat} {e : Int} (hm : mantissaCount ≤ m) (hm' : m < 2 * mantissaCount) (he : -1074 ≤ e)
    (he' : e ≤ 971) : bitsNear (m * 2 ^ e) = (e + 1074).toNat * mantissaCount + m := by
  have hpos : 0 < m := Nat.lt_of_lt_of_le (by decide) hm
  have hlog : m.log2 = 52 := by
    rw [Nat.log2_eq_iff hpos.ne']
    exact ⟨hm, hm'⟩
  have hinfinity : infinityBits = 2047 * mantissaCount := by decide
  have hle := Nat.mul_le_mul_right mantissaCount (show (e + 1074).toNat ≤ 2045 by omega)
  rw [← ratio_fraction, bitsNear_div (fraction_den_pos _ _), nearestBits_of_unit hpos (by rw [hlog]; omega),
    Nat.min_eq_right (by omega)]

/-- A mantissa with a power of two is a double. -/
theorem ratioOf_bitsNear {m : Nat} {e : Int} (hm : mantissaCount ≤ m) (hm' : m < 2 * mantissaCount) (he : -1074 ≤ e)
    (he' : e ≤ 971) : bitsNear (m * 2 ^ e) < infinityBits ∧ ratioOf (bitsNear (m * 2 ^ e)) = m * 2 ^ e := by
  have hpos : 0 < mantissaCount := by decide
  have hinfinity : infinityBits = 2047 * mantissaCount := by decide
  obtain ⟨i, hi⟩ := Int.eq_ofNat_of_zero_le (show 0 ≤ e + 1074 by omega)
  have hle : i * mantissaCount ≤ 2045 * mantissaCount := Nat.mul_le_mul_right _ (by omega)
  have hsplit : i * mantissaCount + m = (m - mantissaCount) + mantissaCount * (i + 1) := by
    rw [Nat.mul_add, Nat.mul_comm i]
    omega
  have hexponent : (((0 + (i + 1) : Nat) : Int) - 1075) = e := by omega
  have hlt : m - mantissaCount < mantissaCount := by omega
  have hlarge : ¬ i * mantissaCount + m < mantissaCount := by omega
  rw [bitsNear_mantissa hm hm' he he', hi, Int.toNat_natCast]
  refine ⟨by omega, ?_⟩
  rw [ratioOf, mantissaExponent, if_neg hlarge, hsplit, Nat.add_mul_mod_self_left, Nat.mod_eq_of_lt hlt,
    Nat.add_mul_div_left _ _ hpos, Nat.div_eq_of_lt hlt, Nat.add_sub_cancel' hm, hexponent]

/-! ## The parts of a magnitude -/

theorem parts_ofMagnitude_false (ha : a < infinityBits) :
    parts (ofMagnitude false a) = .finite false (mantissaExponent a).1 (mantissaExponent a).2 := by
  rw [parts, magnitudeBits_ofMagnitude false ha, if_neg (by omega), if_neg (by omega), isNegative_ofMagnitude false ha]

/-- The parts of a double are what it is unpacked to. -/
theorem unpacked_eq (x : Float) : unpacked x = (parts x).unpacked := unpack_eq x

theorem unpacked_ofMagnitude_zero : unpacked (ofMagnitude false 0) = .zero .positive := by
  rw [← packed_zero]
  exact unpacked_zero .positive

theorem unpacked_ofMagnitude (hpos : 0 < a) (ha : a < infinityBits) : unpacked (ofMagnitude false a) =
    .finite .positive (mantissaExponent a).1 (mantissaExponent a).2 (mantissa_pos hpos) := by
  rw [unpacked_eq, parts_ofMagnitude_false ha, Parts.unpacked, dif_pos (mantissa_pos hpos)]
  rfl

/-! ## Sums -/

theorem zero_add_ofMagnitude (ha : a < infinityBits) :
    ofMagnitude false 0 + ofMagnitude false a = ofMagnitude false a := by
  rcases Nat.eq_zero_or_pos a with rfl | hpos
  · rw [add_eq, unpacked_ofMagnitude_zero]
    exact packed_zero false
  · have hsum : UnpackedFloat.add Format.binary64 (.zero .positive) (unpacked (ofMagnitude false a)) =
        unpacked (ofMagnitude false a) := by
      rw [unpacked_ofMagnitude hpos ha]
      rfl
    rw [add_eq, unpacked_ofMagnitude_zero, hsum, packed_unpacked]

/-- Positive mantissas are added in the smaller exponent. -/
theorem packed_add_finite {m n : Nat} {e f : Int} (hm : 0 < m) (hn : 0 < n) :
    packed (UnpackedFloat.add Format.binary64 (.finite .positive m e hm) (.finite .positive n f hn)) =
      ofMagnitude false (bitsNear (m * 2 ^ e + n * 2 ^ f)) := by
  have hsum : 0 < m <<< (e - min e f).toNat + n <<< (f - min e f).toNat := by
    rw [Nat.shiftLeft_eq]
    exact Nat.add_pos_left (Nat.mul_pos hm (Nat.two_pow_pos _)) _
  have hcompare : compare ((m <<< (e - min e f).toNat : Nat) + (n <<< (f - min e f).toNat : Nat) : Int) 0 = .gt := by
    rw [Int.compare_eq_gt]
    exact_mod_cast hsum
  have hshift : ∀ (k : Nat) (g : Int), min e f ≤ g →
      ((k <<< (g - min e f).toNat : Nat) : ℚ) * 2 ^ min e f = k * 2 ^ g := fun k g hg => by
    rw [Nat.shiftLeft_eq, Nat.cast_mul, Nat.cast_pow, Nat.cast_ofNat, mul_assoc, ← zpow_natCast,
      ← zpow_add₀ (by norm_num)]
    congr 2
    omega
  have hround := packed_round false hsum (min e f)
  rw [← bitsNear_div (fraction_den_pos _ _), ratio_fraction, Nat.cast_add, add_mul, hshift m e (min_le_left e f),
    hshift n f (min_le_right e f)] at hround
  rw [← hround]
  unfold UnpackedFloat.add decreaseExponent UnpackedFloat.normalize
  dsimp only [Sign.apply]
  rw [hcompare]
  rfl

/-- **The sum of two doubles** that are not negative is the double nearest to the sum of their numbers. -/
theorem add_ofMagnitude (ha : a < infinityBits) (hb : b < infinityBits) :
    ofMagnitude false a + ofMagnitude false b = ofMagnitude false (bitsNear (ratioOf a + ratioOf b)) := by
  rcases Nat.eq_zero_or_pos a with rfl | hapos
  · rw [zero_add_ofMagnitude hb, ratioOf_zero, zero_add, bitsNear_ratioOf hb]
  rcases Nat.eq_zero_or_pos b with rfl | hbpos
  · rw [add_comm_double, zero_add_ofMagnitude ha, ratioOf_zero, add_zero, bitsNear_ratioOf ha]
  rw [add_eq, unpacked_ofMagnitude hapos ha, unpacked_ofMagnitude hbpos hb, packed_add_finite]
  rfl

/-! ## Products -/

/-- A mantissa has all its bits, unless its exponent is the least one. -/
theorem mantissaExponent_bounds (a : Nat) :
    -1074 ≤ (mantissaExponent a).2 ∧ (mantissaCount ≤ (mantissaExponent a).1 ∨ (mantissaExponent a).2 = -1074) := by
  unfold mantissaExponent
  split
  · exact ⟨le_rfl, .inr rfl⟩
  · rename_i hlarge
    have hdiv : 1 ≤ a / mantissaCount := (Nat.one_le_div_iff (by decide)).2 (Nat.le_of_not_lt hlarge)
    exact ⟨by dsimp only; omega, .inl (Nat.le_add_right _ _)⟩

/-- The product of mantissas has enough bits. -/
theorem packed_mul_finite {m n : Nat} {e f : Int} (hm : 0 < m) (hn : 0 < n)
    (he : -1074 ≤ e ∧ (mantissaCount ≤ m ∨ e = -1074)) (hf : -1074 ≤ f ∧ (mantissaCount ≤ n ∨ f = -1074)) :
    packed (UnpackedFloat.mul Format.binary64 (.finite .positive m e hm) (.finite .positive n f hn)) =
      ofMagnitude false (bitsNear (m * 2 ^ e * (n * 2 ^ f))) := by
  have hmn := Nat.mul_pos hm hn
  have hratio : ((fraction (m * n) (e + f)).1 : ℚ) / (fraction (m * n) (e + f)).2 = m * 2 ^ e * (n * 2 ^ f) := by
    rw [ratio_fraction, zpow_add₀ (by norm_num), Nat.cast_mul]
    ring
  have hunit : e + f ≤ unitOf (fraction (m * n) (e + f)).1 (fraction (m * n) (e + f)).2 := by
    have hlog : mantissaCount ≤ m * n → 52 ≤ (m * n).log2 := fun h => (Nat.le_log2 hmn.ne').2 h
    have hleft := Nat.le_mul_of_pos_right m hn
    have hright := Nat.le_mul_of_pos_left n hm
    rw [unitOf, floorLog2_fraction hmn]
    omega
  rw [← hratio, bitsNear_div (fraction_den_pos _ _)]
  exact packed_roundWithAccuracy_exact false (fraction_num_pos hmn _) (fraction_den_pos _ _) hunit (ratio_fraction _ _)

/-- **The product of two doubles** that are not zero and not negative is the double nearest to the product of their
numbers. -/
theorem mul_ofMagnitude (hapos : 0 < a) (ha : a < infinityBits) (hbpos : 0 < b) (hb : b < infinityBits) :
    ofMagnitude false a * ofMagnitude false b = ofMagnitude false (bitsNear (ratioOf a * ratioOf b)) := by
  have hproduct : ofMagnitude false a * ofMagnitude false b = packed (UnpackedFloat.mul Format.binary64
      (unpacked (ofMagnitude false a)) (unpacked (ofMagnitude false b))) := rfl
  rw [hproduct, unpacked_ofMagnitude hapos ha, unpacked_ofMagnitude hbpos hb,
    packed_mul_finite (mantissa_pos hapos) (mantissa_pos hbpos) (mantissaExponent_bounds a) (mantissaExponent_bounds b)]
  rfl

/-! ## Quotients -/

theorem mul_zpow_div_mul_zpow {m n : Nat} (e f : Int) : (m : ℚ) * 2 ^ e / (n * 2 ^ f) = m / n * 2 ^ (e - f) := by
  rw [zpow_sub₀ (by norm_num)]
  field_simp

/-- The exponent in which mantissas are divided. -/
def quotientExponent (m : Nat) (e : Int) (n : Nat) (f : Int) : Int :=
  min (e - f) (Format.binary64.targetExponent (totalExponent m e - totalExponent n f))

/-- Mantissas are divided with enough bits. -/
theorem quotientExponent_le {m n num den : Nat} {e f : Int} (hm : 0 < m) (hn : 0 < n) (hnum : 0 < num) (hden : 0 < den)
    (hratio : (num : ℚ) / den = m * 2 ^ e / (n * 2 ^ f)) : quotientExponent m e n f ≤ unitOf num den := by
  have hlow : (2 : ℚ) ^ ((m.log2 : Int) - n.log2 - 1 + (e - f)) ≤ (num : ℚ) / den := by
    rw [hratio, mul_zpow_div_mul_zpow, zpow_add₀ (by norm_num)]
    exact mul_le_mul_of_nonneg_right (zpow_log2_bounds hm hn).1 (by positivity)
  have hlog := (zpow_lt_zpow_iff_right₀ (by norm_num)).1 (hlow.trans_lt (lt_zpow_floorLog2 hnum hden))
  change min (e - f) (max ((m.log2 : Int) + 1 + e - (n.log2 + 1 + f) - 53) (-1074)) ≤ _
  unfold unitOf
  omega

theorem packed_div_finite {m n : Nat} {e f : Int} (hm : 0 < m) (hn : 0 < n) :
    packed (UnpackedFloat.div Format.binary64 (.finite .positive m e hm) (.finite .positive n f hn)) =
      ofMagnitude false (bitsNear (m * 2 ^ e / (n * 2 ^ f))) := by
  have hquotient : (0 : ℚ) < m * 2 ^ e / (n * 2 ^ f) := by positivity
  have hratio := toNat_num_div_den hquotient.le
  have hden := Rat.den_pos ((m : ℚ) * 2 ^ e / (n * 2 ^ f))
  have hnum : 0 < ((m : ℚ) * 2 ^ e / (n * 2 ^ f)).num.toNat := Int.lt_toNat.2 (Rat.num_pos.2 hquotient)
  rw [bitsNear]
  generalize ((m : ℚ) * 2 ^ e / (n * 2 ^ f)).num.toNat = num at *
  generalize ((m : ℚ) * 2 ^ e / (n * 2 ^ f)).den = den at *
  refine packed_roundWithAccuracy false hnum hden (quotientExponent_le hm hn hnum hden hratio) ?_
  have hle : quotientExponent m e n f ≤ e - f := Int.min_le_left _ _
  change ExtendedMantissa.ofMantissaAndAccuracy (m <<< (e - f - quotientExponent m e n f).toNat / n)
    (accuracyOfFraction (m <<< (e - f - quotientExponent m e n f).toNat % n) n) =
      extended (scaled 2 num den (quotientExponent m e n f)).1 (scaled 2 num den (quotientExponent m e n f)).2
  generalize quotientExponent m e n f = t at *
  have hshift : ((e - f - t).toNat : Int) = e - f - t := by omega
  rw [ofMantissaAndAccuracy_eq_extended hn]
  refine extended_congr hn (scaled_den_pos (by decide : 0 < 2) hden num t) ?_
  rw [ratio_scaled (by decide), hratio, mul_zpow_div_mul_zpow, Nat.shiftLeft_eq, Nat.cast_mul, Nat.cast_pow, Nat.cast_ofNat,
    ← zpow_natCast, hshift, zpow_sub₀ (by norm_num)]
  ring

/-- **The quotient of two doubles** that are not negative is the double nearest to the quotient of their numbers, if
the divisor is not zero. -/
theorem div_ofMagnitude (ha : a < infinityBits) (hbpos : 0 < b) (hb : b < infinityBits) :
    ofMagnitude false a / ofMagnitude false b = ofMagnitude false (bitsNear (ratioOf a / ratioOf b)) := by
  have hquotient : ofMagnitude false a / ofMagnitude false b = packed (UnpackedFloat.div Format.binary64
      (unpacked (ofMagnitude false a)) (unpacked (ofMagnitude false b))) := rfl
  rcases Nat.eq_zero_or_pos a with rfl | hapos
  · rw [hquotient, unpacked_ofMagnitude_zero, unpacked_ofMagnitude hbpos hb, ratioOf_zero, zero_div, bitsNear_zero]
    exact packed_zero false
  · rw [hquotient, unpacked_ofMagnitude hapos ha, unpacked_ofMagnitude hbpos hb, packed_div_finite]
    rfl

/-! ## Counts -/

theorem bitsNear_natCast (n : Nat) : bitsNear n = nearestBits n 1 := by
  have hone := @bitsNear_div n 1 Nat.one_pos
  rwa [Nat.cast_one, div_one] at hone

/-- The bits of one. -/
def oneBits : Nat := 0x3FF0000000000000

theorem ratioOf_oneBits : ratioOf oneBits = 1 := by
  rw [ratioOf, show mantissaExponent oneBits = (mantissaCount, -52) from rfl, mantissaCount]
  norm_num

theorem bitsNear_one : bitsNear 1 = oneBits := by rw [← ratioOf_oneBits, bitsNear_ratioOf (by decide)]

theorem oneBits_le_bitsNear {n : Nat} (hn : 0 < n) : oneBits ≤ bitsNear n := by
  rw [← bitsNear_one]
  exact bitsNear_mono zero_le_one (by exact_mod_cast hn)

theorem packed_ofNat {n : Nat} (hn : 0 < n) :
    packed (UnpackedFloat.ofNat Format.binary64 n) = ofMagnitude false (bitsNear n) := by
  have hround := packed_round false hn 0
  rw [← bitsNear_div (fraction_den_pos _ _), ratio_fraction, zpow_zero, mul_one] at hround
  rw [← hround]
  unfold UnpackedFloat.ofNat UnpackedFloat.ofInt UnpackedFloat.normalize
  rw [Int.compare_eq_gt.2 (by exact_mod_cast hn)]
  rfl

/-- A small count is rounded and multiplied by one. -/
theorem toFloat_mul_one {n : Nat} (hpos : 0 < n) (h : n < 2 ^ 53) :
    n.toUInt64.toFloat * ofMagnitude false oneBits = ofMagnitude false (bitsNear n) := by
  have hvalue : n.toUInt64.toNat = n := UInt64.toNat_ofNat_of_lt' (h.trans (by decide))
  have hfloat : n.toUInt64.toFloat = ofMagnitude false (bitsNear n) := by
    rw [← packed_ofNat hpos]
    change packed (UnpackedFloat.ofNat Format.binary64 n.toUInt64.toNat) = _
    rw [hvalue]
  have hfinite : bitsNear n < infinityBits := by
    refine bitsNear_lt (by exact_mod_cast hpos) ?_
    calc (n : ℚ) < 2 ^ 53 := by exact_mod_cast h
      _ ≤ 2 ^ (1023 : Int) := pow_le_pow_right₀ (by norm_num) (by norm_num)
  rw [hfloat, mul_ofMagnitude (Nat.lt_of_lt_of_le (by decide) (oneBits_le_bitsNear hpos)) hfinite (by decide)
    (by decide), ratioOf_oneBits, mul_one, bitsNear_ratioOf hfinite]

/-- A great count has enough bits. -/
theorem packed_ofScientific {n : Nat} (hpos : 0 < n) :
    packed (UnpackedFloat.ofScientific Format.binary64 n 0) = ofMagnitude false (bitsNear n) := by
  have hunit : (-53 + 0 : Int) ≤ unitOf n 1 := by
    have hone : (2 : ℚ) ^ (0 : Int) ≤ (n : ℚ) / (1 : Nat) := by
      rw [zpow_zero, Nat.cast_one, div_one]
      exact_mod_cast hpos
    have hlog := (zpow_lt_zpow_iff_right₀ (by norm_num)).1 (hone.trans_lt (lt_zpow_floorLog2 hpos Nat.one_pos))
    unfold unitOf
    omega
  have hratio : (n : ℚ) / (1 : Nat) = (n <<< 53 * 10 ^ 0 : Nat) * 2 ^ (-53 + 0 : Int) := by
    rw [Nat.shiftLeft_eq, pow_zero, mul_one]
    push_cast
    rw [mul_assoc]
    norm_num
  have hwidth : ¬ (0 : Int) < -((2 ^ 11 : Int) + n.log2) := by omega
  rw [bitsNear_natCast, ← packed_roundWithAccuracy_exact false hpos Nat.one_pos hunit hratio]
  unfold UnpackedFloat.ofScientific
  rw [dif_neg hpos.ne', if_neg (by decide), if_neg hwidth, if_pos le_rfl]
  rfl

/-- **A count becomes the double nearest to it.** -/
theorem ofNat_eq (n : Nat) : Float.ofNat n = ofMagnitude false (bitsNear n) := by
  rcases Nat.eq_zero_or_pos n with rfl | hpos
  · rw [Nat.cast_zero, bitsNear_zero]
    exact packed_zero false
  change Float.ofScientific n false 0 = _
  rw [Float.ofScientific]
  split
  · rename_i h
    exact toFloat_mul_one hpos h.1
  · exact packed_ofScientific hpos

end CheckerTrials.Decimal
