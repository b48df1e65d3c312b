import CheckerTrials.Proofs.Decimal.Arithmetic
import CheckerTrials.Proofs.Decimal.Layout
import CheckerTrials.Proofs.Decimal.Order

/-!
# The number that a double is

A finite double is a number with a sign (`exact`), and doubles are in the order of their numbers (`lt_iff_exact_lt`).
What a numeral says is a number with a sign, too (`Numeral.value`).  Reading a numeral changes the number if it is none
of the doubles.  It stays the same if it is a count up to `2 ^ 53` (`exact_toFloat_of_natCast`), and what is read as a
count is the number of the double, if that is a count at all (`countOf?_eq_some_iff`).
-/

set_option autoImplicit false

namespace CheckerTrials.Decimal

variable {x : Float}

/-! ## Numbers with a sign -/

/-- A number or its opposite. -/
def withSign (negative : Bool) (q : ℚ) : ℚ := if negative then -q else q

/-- The number that a finite double is.  An infinity stands for the power of two behind the greatest double. -/
def exact (x : Float) : ℚ := withSign (isNegative x) (ratioOf (magnitudeBits x))

/-- The number that a numeral says. -/
def Numeral.value (n : Numeral) : ℚ := withSign n.negative (Digits.value ⟨n.digits, n.exponent⟩)

/-- A count has no sign, unless it is zero. -/
theorem withSign_eq_natCast_iff {negative : Bool} {q : ℚ} (hq : 0 ≤ q) {k : Nat} :
    withSign negative q = k ↔ q = k ∧ (negative = true → k = 0) := by
  cases negative with
  | false => simp [withSign]
  | true =>
    have hk : (0 : ℚ) ≤ k := Nat.cast_nonneg k
    rw [withSign, if_pos rfl]
    constructor
    · intro h
      have hzero : (k : ℚ) = 0 := by linarith
      exact ⟨by linarith, fun _ => by exact_mod_cast hzero⟩
    · rintro ⟨rfl, hzero⟩
      rw [hzero rfl, Nat.cast_zero, neg_zero]

theorem exact_ofMagnitude (negative : Bool) {bits : Nat} (h : bits < infinityBits) :
    exact (ofMagnitude negative bits) = withSign negative (ratioOf bits) := by
  rw [exact, isNegative_ofMagnitude negative h, magnitudeBits_ofMagnitude negative h]

theorem withSign_lt_withSign_iff {s t : Bool} {a b : Nat} (ha : a < infinityBits) (hb : b < infinityBits) :
    withSign s (ratioOf a) < withSign t (ratioOf b) ↔ signedBits s a < signedBits t b := by
  have hzero : 0 < infinityBits := by decide
  have hposa : 0 < ratioOf a ↔ 0 < a := by rw [← ratioOf_lt_ratioOf_iff hzero ha, ratioOf_zero]
  have hposb : 0 < ratioOf b ↔ 0 < b := by rw [← ratioOf_lt_ratioOf_iff hzero hb, ratioOf_zero]
  have hnonnega := ratioOf_nonneg a
  have hnonnegb := ratioOf_nonneg b
  cases s <;> cases t <;> simp only [withSign, signedBits, if_true, if_false, Bool.false_eq_true, neg_lt_neg_iff]
  · rw [ratioOf_lt_ratioOf_iff ha hb, Nat.cast_lt]
  · exact iff_of_false (by linarith) (by omega)
  · constructor
    · intro hlt
      by_contra hnot
      have hnone : ¬ 0 < ratioOf a ∧ ¬ 0 < ratioOf b := by
        rw [hposa, hposb]
        omega
      linarith
    · intro hlt
      rcases (show 0 < a ∨ 0 < b by omega) with h | h
      · have hpos := hposa.2 h
        linarith
      · have hpos := hposb.2 h
        linarith
  · rw [ratioOf_lt_ratioOf_iff hb ha, Nat.cast_lt]

/-- **Doubles are in the order of the numbers that they are.** -/
theorem lt_iff_exact_lt {y : Float} (hx : isFinite x = true) (hy : isFinite y = true) : x < y ↔ exact x < exact y := by
  rw [isFinite, decide_eq_true_iff] at hx hy
  have hnumber : isNumber x = true ∧ isNumber y = true := ⟨decide_eq_true hx.le, decide_eq_true hy.le⟩
  rw [lt_iff, exact, exact, withSign_lt_withSign_iff hx hy]
  simp only [hnumber, true_and]

/-! ## Counts among the doubles -/

/-- A fraction is a count if its denominator divides its numerator that often. -/
theorem div_eq_natCast_iff {num den k : Nat} (hden : 0 < den) :
    (num : ℚ) / den = k ↔ num % den = 0 ∧ num / den = k := by
  rw [div_eq_iff (by exact_mod_cast hden.ne')]
  constructor
  · intro h
    have hnum : num = k * den := by exact_mod_cast h
    rw [hnum]
    exact ⟨Nat.mul_mod_left k den, Nat.mul_div_cancel k hden⟩
  · rintro ⟨hmod, rfl⟩
    rw [← Nat.cast_mul, Nat.div_mul_cancel (Nat.dvd_of_mod_eq_zero hmod)]

theorem fraction_num_eq_zero_iff {mantissa : Nat} (exponent : Int) :
    (fraction mantissa exponent).1 = 0 ↔ mantissa = 0 := by
  constructor
  · intro h
    exact Nat.eq_zero_of_not_pos fun hpos => Nat.ne_of_gt (fraction_num_pos hpos exponent) h
  · rintro rfl
    rw [fraction]
    split
    · exact Nat.zero_mul _
    · rfl

/-- **The count that a double is**, cut at the greatest one. -/
theorem countOf?_eq_some_iff {greatest n : Nat} :
    countOf? greatest x = some n ↔ isFinite x = true ∧ ∃ k : Nat, exact x = k ∧ n = min greatest k := by
  by_cases hfinite : isFinite x = true
  · let m := (mantissaExponent (magnitudeBits x)).1
    let e := (mantissaExponent (magnitudeBits x)).2
    have hden := fraction_den_pos m e
    have hzero : (fraction m e).1 % (fraction m e).2 = 0 → ((fraction m e).1 / (fraction m e).2 = 0 ↔ m = 0) := by
      intro hmod
      rw [← @fraction_num_eq_zero_iff m e, Nat.div_eq_zero_iff_lt hden]
      exact ⟨fun hlt => (Nat.mod_eq_of_lt hlt).symm.trans hmod, fun hnum => hnum ▸ hden⟩
    have hexact : ∀ k : Nat, exact x = k ↔ ((fraction m e).1 % (fraction m e).2 = 0 ∧
        (fraction m e).1 / (fraction m e).2 = k) ∧ (isNegative x = true → k = 0) := fun k => by
      rw [exact, withSign_eq_natCast_iff (ratioOf_nonneg _), ratioOf, ← ratio_fraction, div_eq_natCast_iff hden]
    have hcount : countOf? greatest x =
        if (isNegative x && m != 0) || (fraction m e).1 % (fraction m e).2 != 0 then none
        else some (min greatest ((fraction m e).1 / (fraction m e).2)) := by
      rw [countOf?, parts_of_isFinite hfinite]
    rw [hcount, Option.ite_none_left_eq_some, Option.some.injEq]
    simp only [hexact, hfinite, true_and, Bool.or_eq_true, Bool.and_eq_true, bne_iff_ne, ne_eq, not_or, not_and,
      Decidable.not_not]
    constructor
    · rintro ⟨⟨hsign, hmod⟩, rfl⟩
      exact ⟨_, ⟨⟨hmod, rfl⟩, fun hnegative => (hzero hmod).2 (hsign hnegative)⟩, rfl⟩
    · rintro ⟨_, ⟨⟨hmod, rfl⟩, hsign⟩, rfl⟩
      exact ⟨⟨fun hnegative => (hzero hmod).1 (hsign hnegative), hmod⟩, rfl⟩
  · refine iff_of_false (fun h => ?_) fun h => hfinite h.1
    rw [isFinite, decide_eq_true_iff, Nat.not_lt] at hfinite
    rw [countOf?, parts] at h
    by_cases hnan : infinityBits < magnitudeBits x
    · rw [if_pos hnan] at h
      cases h
    · rw [if_neg hnan, if_pos (by omega)] at h
      cases h

/-! ## Numbers that are doubles -/

/-- Counts are doubles as long as their bits fit into a mantissa. -/
theorem ratioOf_bitsNear_natCast {k : Nat} (h : k ≤ 2 ^ 53) : bitsNear k < infinityBits ∧ ratioOf (bitsNear k) = k := by
  rcases Nat.eq_zero_or_pos k with rfl | hpos
  · rw [Nat.cast_zero, bitsNear_zero]
    exact ⟨by decide, ratioOf_zero⟩
  -- the count as a mantissa with all its bits
  obtain ⟨m, e, hm, hm', he, he', hk⟩ : ∃ (m : Nat) (e : Int), mantissaCount ≤ m ∧ m < 2 * mantissaCount ∧ -1074 ≤ e ∧
      e ≤ 971 ∧ (k : ℚ) = m * 2 ^ e := by
    rcases Nat.lt_or_eq_of_le h with hlt | rfl
    · have hlow := Nat.log2_self_le hpos.ne'
      have hhigh := @Nat.lt_log2_self k
      have hlog : k.log2 < 53 := (Nat.log2_lt hpos.ne').2 hlt
      have hsplit : 2 ^ k.log2 * 2 ^ (52 - k.log2) = mantissaCount := by
        rw [← Nat.pow_add, Nat.add_sub_cancel' (by omega)]
        rfl
      have hdouble : 2 ^ (k.log2 + 1) * 2 ^ (52 - k.log2) = 2 * mantissaCount := by
        rw [Nat.pow_succ', Nat.mul_assoc, hsplit]
      refine ⟨k * 2 ^ (52 - k.log2), -((52 - k.log2 : Nat) : Int), hsplit ▸ Nat.mul_le_mul_right _ hlow,
        hdouble ▸ Nat.mul_lt_mul_of_pos_right hhigh (Nat.two_pow_pos _), by omega, by omega, ?_⟩
      rw [zpow_neg, zpow_natCast, Nat.cast_mul, Nat.cast_pow, Nat.cast_ofNat, mul_assoc,
        mul_inv_cancel₀ (by positivity), mul_one]
    · exact ⟨mantissaCount, 1, le_rfl, by decide, by decide, by decide, by norm_num [mantissaCount]⟩
  rw [hk]
  exact ratioOf_bitsNear hm hm' he he'

/-! ## Reading numerals -/

theorem Digits.value_nonneg (d : Digits) : 0 ≤ d.value := by
  unfold value
  positivity

/-- **A numeral of a count** is read as the double nearest to the count. -/
theorem Numeral.toFloat_of_natCast {n : Numeral} {k : Nat} (h : n.value = k) :
    n.toFloat = ofMagnitude n.negative (bitsNear k) ∧ (n.negative = true → k = 0) := by
  obtain ⟨hvalue, hsign⟩ := (withSign_eq_natCast_iff (Digits.value_nonneg _)).1 h
  refine ⟨?_, hsign⟩
  have hratio : Digits.value ⟨n.digits, n.exponent⟩ = (k : ℚ) / (1 : Nat) := by rw [hvalue, Nat.cast_one, div_one]
  rw [toFloat_eq, Digits.bits_of_value Nat.one_pos hratio, bitsNear_natCast]

theorem Numeral.exact_toFloat_of_bitsNear {n : Numeral} {k l : Nat} (h : n.value = k) (hk : k = 0 → l = 0)
    (hl : bitsNear k < infinityBits ∧ ratioOf (bitsNear k) = l) : isFinite n.toFloat = true ∧ exact n.toFloat = l := by
  obtain ⟨hfloat, hsign⟩ := toFloat_of_natCast h
  rw [hfloat, isFinite, magnitudeBits_ofMagnitude _ hl.1, decide_eq_true_iff, exact_ofMagnitude _ hl.1, hl.2,
    withSign_eq_natCast_iff (Nat.cast_nonneg l)]
  exact ⟨hl.1, rfl, fun hnegative => hk (hsign hnegative)⟩

/-- **A numeral of a count up to `2 ^ 53`** is read exactly. -/
theorem Numeral.exact_toFloat_of_natCast {n : Numeral} {k : Nat} (h : n.value = k) (hk : k ≤ 2 ^ 53) :
    isFinite n.toFloat = true ∧ exact n.toFloat = k :=
  exact_toFloat_of_bitsNear h id (ratioOf_bitsNear_natCast hk)

/-- The greatest count is no double: the one next to it is one more. -/
theorem Numeral.exact_toFloat_of_wordLimit {n : Numeral} (h : n.value = wordLimit) :
    isFinite n.toFloat = true ∧ exact n.toFloat = (wordLimit + 1 : Nat) := by
  have hnext : bitsNear wordLimit = bitsNear (mantissaCount * 2 ^ (12 : Int)) := by
    rw [bitsNear_natCast, ← ratio_fraction, bitsNear_div (fraction_den_pos _ _)]
    decide +kernel
  refine exact_toFloat_of_bitsNear h (fun hzero => absurd hzero (by decide)) ?_
  rw [hnext]
  obtain ⟨hfinite, hratio⟩ := @ratioOf_bitsNear mantissaCount 12 le_rfl (by decide) (by decide) (by decide)
  exact ⟨hfinite, hratio.trans (by norm_num [mantissaCount, wordLimit])⟩

end CheckerTrials.Decimal
