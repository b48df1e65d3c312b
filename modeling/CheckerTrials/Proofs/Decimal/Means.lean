import CheckerTrials.Proofs.Decimal.Arithmetic
import CheckerTrials.Trial.Quantity

/-!
# Which sums and means are finite

A sum of doubles is a number and no infinity only if all that is added is (`isFinite_of_add`), and so is a quotient
(`isFinite_of_div`).  The other way round there is an overflow to be ruled out, and there is none if no term is great:
however many doubles are added, the sum stops growing as soon as it is so much greater than each of them that they are
rounded away (`AtMost.add`).  So a mean of such doubles is finite exactly if all of them are (`isFinite_mean?_iff`).
-/

set_option autoImplicit false

namespace CheckerTrials.Decimal

open Float.Model (Format UnpackedFloat)
open Float.Model.UnpackedFloat

variable {x y : Float} {k l : Nat} {q : ℚ}

/-! ## What is not finite -/

/-- What a double is that is not finite. -/
theorem unpacked_of_not_isFinite (h : ¬ isFinite x = true) :
    unpacked x = .notANumber ∨ ∃ negative, unpacked x = .infinity (signOf negative) := by
  rw [isFinite, decide_eq_true_iff, Nat.not_lt] at h
  rw [unpacked_eq, parts]
  split
  · exact .inl rfl
  · rw [if_pos (by omega)]
    exact .inr ⟨_, rfl⟩

theorem not_isFinite_packed {u : UnpackedFloat} (h : u = .notANumber ∨ ∃ s, u = .infinity s) :
    ¬ isFinite (packed u) = true := by
  rcases h with rfl | ⟨s, rfl⟩
  · decide
  · cases s <;> decide

/-- **Both terms of a finite sum** are finite. -/
theorem isFinite_of_add (h : isFinite (x + y) = true) : isFinite x = true ∧ isFinite y = true := by
  have hleft : ∀ {x y : Float}, isFinite (x + y) = true → isFinite x = true := fun {x y} h => by
    by_contra hx
    refine not_isFinite_packed ?_ (add_eq x y ▸ h)
    rcases unpacked_of_not_isFinite hx with hnan | ⟨negative, hinfinity⟩
    · rw [hnan]
      exact .inl rfl
    · rw [hinfinity]
      cases unpacked y with
      | notANumber => exact .inl rfl
      | infinity s =>
        rw [UnpackedFloat.add]
        split
        · exact .inr ⟨_, rfl⟩
        · exact .inl rfl
      | zero => exact .inr ⟨_, rfl⟩
      | finite => exact .inr ⟨_, rfl⟩
  exact ⟨hleft h, hleft (add_comm_double x y ▸ h)⟩

theorem div_eq (x y : Float) : x / y = packed (UnpackedFloat.div Format.binary64 (unpacked x) (unpacked y)) := rfl

/-- **What a finite quotient divides** is finite. -/
theorem isFinite_of_div (h : isFinite (x / y) = true) : isFinite x = true := by
  by_contra hx
  refine not_isFinite_packed ?_ (div_eq x y ▸ h)
  rcases unpacked_of_not_isFinite hx with hnan | ⟨negative, hinfinity⟩
  · rw [hnan]
    exact .inl rfl
  · rw [hinfinity]
    cases unpacked y with
    | notANumber => exact .inl rfl
    | infinity => exact .inl rfl
    | zero => exact .inr ⟨_, rfl⟩
    | finite => exact .inr ⟨_, rfl⟩

/-- **What is divided by zero** gives no finite quotient. -/
theorem not_isFinite_div_zero (x : Float) : ¬ isFinite (x / Float.ofNat 0) = true := by
  have hzero : unpacked (Float.ofNat 0) = .zero .positive := by
    rw [ofNat_eq, Nat.cast_zero, bitsNear_zero, unpacked_ofMagnitude_zero]
  rw [div_eq, hzero]
  refine not_isFinite_packed ?_
  cases unpacked x with
  | notANumber => exact .inl rfl
  | infinity => exact .inr ⟨_, rfl⟩
  | zero => exact .inl rfl
  | finite => exact .inr ⟨_, rfl⟩

theorem bitsNear_natCast_le (n : Nat) : bitsNear n ≤ infinityBits := by
  rcases Nat.eq_zero_or_pos n with rfl | hn
  · rw [Nat.cast_zero, bitsNear_zero]
    exact Nat.zero_le _
  · rw [bitsNear_natCast, nearestBits_eq hn]
    exact Nat.min_le_left _ _

theorem magnitudeBits_ofNat (n : Nat) : magnitudeBits (Float.ofNat n) = bitsNear n := by
  rw [ofNat_eq]
  rcases Nat.lt_or_eq_of_le (bitsNear_natCast_le n) with hlt | heq
  · exact magnitudeBits_ofMagnitude false hlt
  · rw [heq]
    rfl

/-- **No count is a zero** but the count of nothing. -/
theorem ofNat_beq_zero_iff (n : Nat) : (Float.ofNat n == 0) = true ↔ n = 0 := by
  constructor
  · intro hzero
    have hvalue : Float.ofNat n = 0 ∨ Float.ofNat n = -0 := by
      obtain ⟨-, -, heq | ⟨heq, -⟩ | ⟨heq, -⟩⟩ := Float.beq_iff_ne_nan_and_eq.1 hzero
      · exact .inl heq
      · exact .inl heq
      · exact .inr heq
    have hbits : bitsNear n = 0 := by
      rw [← magnitudeBits_ofNat]
      rcases hvalue with heq | heq <;> rw [heq] <;> rfl
    by_contra hn
    have hone := oneBits_le_bitsNear (Nat.pos_of_ne_zero hn)
    rw [hbits] at hone
    exact absurd hone (by decide)
  · rintro rfl
    rfl

/-! ## What stays finite -/

theorem mantissaCount_mul_zpow (k : Nat) : (mantissaCount : ℚ) * 2 ^ ((k : Int) - 52) = 2 ^ k := by
  rw [mantissaCount, zpow_sub₀ (by norm_num), zpow_natCast]
  norm_num
  ring

/-- Powers of two are doubles. -/
theorem ratioOf_bitsNear_two_pow (hk : k < 1023) :
    bitsNear (2 ^ k) < infinityBits ∧ ratioOf (bitsNear (2 ^ k)) = 2 ^ k := by
  have hratio := @ratioOf_bitsNear mantissaCount (k - 52) le_rfl (by decide) (by omega) (by omega)
  rwa [mantissaCount_mul_zpow] at hratio

/-- **A double is at most a power of two**, and not negative. -/
def AtMost (k : Nat) (x : Float) : Prop :=
  ∃ bits, x = ofMagnitude false bits ∧ bits ≤ bitsNear (2 ^ k)

theorem AtMost.isFinite (hk : k < 1023) (hx : AtMost k x) : isFinite x = true := by
  obtain ⟨bits, rfl, hle⟩ := hx
  have hlt := Nat.lt_of_le_of_lt hle (ratioOf_bitsNear_two_pow hk).1
  rw [Decimal.isFinite, magnitudeBits_ofMagnitude false hlt]
  exact decide_eq_true hlt

theorem AtMost.mono (hx : AtMost k x) (h : k ≤ l) : AtMost l x := by
  obtain ⟨bits, rfl, hle⟩ := hx
  exact ⟨bits, rfl, hle.trans (bitsNear_mono (by positivity) (pow_le_pow_right₀ (by norm_num) h))⟩

/-- Bits of what is at most a power of two stand for a number that is. -/
theorem ratioOf_le_two_pow (hk : k < 1023) {bits : Nat} (h : bits ≤ bitsNear (2 ^ k)) : ratioOf bits ≤ 2 ^ k := by
  obtain ⟨hlt, hratio⟩ := ratioOf_bitsNear_two_pow hk
  rw [← hratio]
  exact ratioOf_le_ratioOf (Nat.lt_of_le_of_lt h hlt) hlt h

/-- A count is at most a power of two. -/
theorem atMost_ofNat {n : Nat} (h : n ≤ 2 ^ k) : AtMost k (Float.ofNat n) :=
  ⟨_, ofNat_eq n, bitsNear_mono (by positivity) (by exact_mod_cast h)⟩

/-- **One power of two is so much greater than another one** that their sum is rounded to it. -/
structure Absorbs (l k : Nat) : Prop where
  /-- It is far below the infinities. -/
  lt : l < 1022
  /-- It is the greater one. -/
  le : k ≤ l
  /-- Their sum is rounded to it. -/
  absorbed : bitsNear (2 ^ l + 2 ^ k) ≤ bitsNear (2 ^ l)

/-- **What is so much smaller than a sum** does not make it greater. -/
theorem AtMost.add (h : Absorbs l k) (hx : AtMost l x) (hy : AtMost k y) : AtMost l (x + y) := by
  obtain ⟨a, rfl, ha⟩ := hx
  obtain ⟨b, rfl, hb⟩ := hy
  have hl := h.lt
  have hk := h.le.trans_lt h.lt
  refine ⟨_, add_ofMagnitude (ha.trans_lt (ratioOf_bitsNear_two_pow (by omega)).1)
    (hb.trans_lt (ratioOf_bitsNear_two_pow (by omega)).1), ?_⟩
  refine le_trans (bitsNear_mono (add_nonneg (ratioOf_nonneg a) (ratioOf_nonneg b)) ?_) h.absorbed
  exact add_le_add (ratioOf_le_two_pow (by omega) ha) (ratioOf_le_two_pow (by omega) hb)

theorem div_infinity {a : Nat} (ha : a < infinityBits) :
    ofMagnitude false a / ofMagnitude false infinityBits = ofMagnitude false 0 := by
  have hparts : parts (ofMagnitude false infinityBits) = .infinite false := rfl
  have hinfinity : unpacked (ofMagnitude false infinityBits) = .infinity .positive := by
    rw [unpacked_eq, hparts]
    rfl
  rw [div_eq, hinfinity, ← packed_zero]
  rcases Nat.eq_zero_or_pos a with rfl | hpos
  · rw [unpacked_ofMagnitude_zero]
    rfl
  · rw [unpacked_ofMagnitude hpos ha]
    rfl

/-- Dividing by a count, even by one that is too great for a double, makes nothing greater. -/
theorem AtMost.div_ofNat (hk : k < 1023) (hx : AtMost k x) {n : Nat} (hn : 0 < n) : AtMost k (x / Float.ofNat n) := by
  obtain ⟨a, rfl, ha⟩ := hx
  have hafinite := ha.trans_lt (ratioOf_bitsNear_two_pow hk).1
  have hone := oneBits_le_bitsNear hn
  rw [ofNat_eq]
  by_cases hfinite : bitsNear n < infinityBits
  · have hpos : 0 < bitsNear n := Nat.lt_of_lt_of_le (by decide) hone
    refine ⟨_, div_ofMagnitude hafinite hpos hfinite, bitsNear_mono ?_ ?_⟩
    · exact div_nonneg (ratioOf_nonneg a) (ratioOf_nonneg _)
    · have hdivisor : 1 ≤ ratioOf (bitsNear n) := by
        rw [← ratioOf_oneBits]
        exact ratioOf_le_ratioOf (by decide) hfinite hone
      exact (div_le_self (ratioOf_nonneg a) hdivisor).trans (ratioOf_le_two_pow hk ha)
  · have hinfinite : bitsNear n = infinityBits := Nat.le_antisymm (bitsNear_natCast_le n) (Nat.le_of_not_lt hfinite)
    rw [hinfinite, div_infinity hafinite]
    exact ⟨0, rfl, Nat.zero_le _⟩

/-- Nothing is no part of anything. -/
theorem zero_div_ofNat {n : Nat} (hn : 0 < n) : Float.ofNat 0 / Float.ofNat n = 0 := by
  have hzero : (0 : Float) = ofMagnitude false 0 := zero_eq
  rw [ofNat_eq, ofNat_eq, Nat.cast_zero, bitsNear_zero, hzero]
  rcases Nat.lt_or_eq_of_le (bitsNear_natCast_le n) with hfinite | hinfinite
  · rw [div_ofMagnitude (by decide) (Nat.lt_of_lt_of_le (by decide) (oneBits_le_bitsNear hn)) hfinite, ratioOf_zero,
      zero_div, bitsNear_zero]
  · rw [hinfinite, div_infinity (by decide)]

/-! ## Totals and means -/

/-- A sum of small doubles stays small, however many there are. -/
theorem AtMost.foldl (h : Absorbs l k) {xs : List Float} (hx : AtMost l x) (hxs : ∀ y ∈ xs, AtMost k y) :
    AtMost l (xs.foldl (· + ·) x) := by
  induction xs generalizing x with
  | nil => exact hx
  | cons y xs ih =>
    rw [List.forall_mem_cons] at hxs
    exact ih (hx.add h hxs.1) hxs.2

theorem AtMost.total (h : Absorbs l k) {xs : List Float} (hxs : ∀ x ∈ xs, AtMost k x) :
    AtMost l (Quantity.total xs) := by
  cases xs with
  | nil => exact atMost_ofNat (Nat.zero_le _)
  | cons x xs =>
    rw [List.forall_mem_cons] at hxs
    exact (hxs.1.mono h.le).foldl h hxs.2

/-- All that is added up to a finite sum is finite. -/
theorem isFinite_of_foldl {xs : List Float} (h : isFinite (xs.foldl (· + ·) x) = true) :
    isFinite x = true ∧ ∀ y ∈ xs, isFinite y = true := by
  induction xs generalizing x with
  | nil => exact ⟨h, fun y hy => absurd hy List.not_mem_nil⟩
  | cons y xs ih =>
    obtain ⟨hsum, hxs⟩ := ih h
    obtain ⟨hx, hy⟩ := isFinite_of_add hsum
    exact ⟨hx, List.forall_mem_cons.2 ⟨hy, hxs⟩⟩

theorem isFinite_of_total {xs : List Float} (h : isFinite (Quantity.total xs) = true) : ∀ x ∈ xs, isFinite x = true := by
  cases xs with
  | nil => exact fun x hx => absurd hx List.not_mem_nil
  | cons x xs => exact List.forall_mem_cons.2 (isFinite_of_foldl h)

/-- **A mean of small doubles is small.** -/
theorem AtMost.mean? (h : Absorbs l k) {xs : List Float} (hxs : ∀ x ∈ xs, AtMost k x)
    (hmean : Quantity.mean? xs = some y) : AtMost l y := by
  have hl := h.lt
  cases xs with
  | nil => cases hmean
  | cons x xs =>
    cases hmean
    exact (AtMost.total h hxs).div_ofNat (by omega) (Nat.succ_pos _)

/-- **A mean is finite exactly if all that it is the mean of is**, where what is finite is small. -/
theorem isFinite_mean?_iff (h : Absorbs l k) {xs : List Float} (hxs : ∀ x ∈ xs, isFinite x = true → AtMost k x)
    (hmean : Quantity.mean? xs = some y) : isFinite y = true ↔ ∀ x ∈ xs, isFinite x = true := by
  have hl := h.lt
  constructor
  · intro hfinite
    cases xs with
    | nil => cases hmean
    | cons x xs =>
      cases hmean
      exact isFinite_of_total (isFinite_of_div hfinite)
  · intro hall
    exact (AtMost.mean? h (fun x hx => hxs x hx (hall x hx)) hmean).isFinite (by omega)

/-- **The mean, if there is one, is finite** exactly if all that it is the mean of is. -/
theorem forall_isFinite_mean?_iff (h : Absorbs l k) {xs : List Float}
    (hxs : ∀ x ∈ xs, isFinite x = true → AtMost k x) :
    (∀ y, Quantity.mean? xs = some y → isFinite y = true) ↔ ∀ x ∈ xs, isFinite x = true := by
  cases hmean : Quantity.mean? xs with
  | none =>
    rw [Quantity.mean?_eq_none_iff.1 hmean]
    exact ⟨fun _ x hx => absurd hx List.not_mem_nil, fun _ y hy => by cases hy⟩
  | some y =>
    rw [← isFinite_mean?_iff h hxs hmean]
    exact ⟨fun hall => hall y rfl, fun hy z hz => by cases hz; exact hy⟩

/-- Whether one power of two absorbs another one is seen by rounding a count. -/
theorem absorbs_of_count (hl : l < 1022) (hkl : k ≤ l)
    (h : nearestBits (2 ^ l + 2 ^ k) 1 ≤ nearestBits (2 ^ l) 1) : Absorbs l k := by
  refine ⟨hl, hkl, ?_⟩
  rw [← bitsNear_natCast, ← bitsNear_natCast] at h
  push_cast at h
  exact h

/-- A sum of counts within their limit. -/
theorem absorbs_counts : Absorbs 118 64 := absorbs_of_count (by decide) (by decide) (by decide +kernel)

/-- A sum of such sums. -/
theorem absorbs_sums : Absorbs 172 118 := absorbs_of_count (by decide) (by decide) (by decide +kernel)

end CheckerTrials.Decimal
