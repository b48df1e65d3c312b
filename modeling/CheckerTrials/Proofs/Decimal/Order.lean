import CheckerTrials.Proofs.Decimal.Bits

/-!
# The order of doubles

One double is below another one if both are numbers and so are their magnitudes with their signs (`lt_iff`).  So
comparing the bits, as the total order does, agrees with comparing the numbers (`orderKey_lt_of_lt`), and it leaves no
two doubles together (`totalOrder_eq_iff`).  Beyond numbers it orders the two zeros, and it puts what is no number
first (`totalOrder_eq_lt_iff`).

Lean's own arithmetic of doubles takes a double apart too, and compares the exponents first and then the mantissas.
That it finds the same parts is `unpack_eq`, and that exponents and mantissas compare like the bits of a magnitude is
`compare_mantissaExponent`.
-/

set_option autoImplicit false

namespace CheckerTrials.Decimal

open Float.Model (Format UnpackedFloat)
open Float.Model.UnpackedFloat

/-! ## The parts of a double -/

/-- A sign as Lean's doubles have it. -/
def signOf (negative : Bool) : Sign := if negative then .negative else .positive

/-- The parts of a double as Lean's doubles have them. -/
def Parts.unpacked : Parts → UnpackedFloat
  | .nan => .notANumber
  | .infinite negative => .infinity (signOf negative)
  | .finite negative mantissa exponent =>
    if h : 0 < mantissa then .finite (signOf negative) mantissa exponent h else .zero (signOf negative)

theorem toNat_unpackMantissa (b : BitVec Format.binary64.numBits) :
    (unpackMantissa b).toNat = b.toNat % 2 ^ 52 := by
  rw [unpackMantissa_def, BitVec.extractLsb'_toNat, Nat.shiftRight_zero]

theorem toNat_unpackSign (b : BitVec Format.binary64.numBits) :
    (unpackSign b).toNat = b.toNat / 2 ^ 63 % 2 := by
  rw [unpackSign_def, BitVec.extractLsb'_toNat, Nat.shiftRight_eq_div_pow]
  rfl

theorem ofBitVec_unpackSign (x : Float) :
    Sign.ofBitVec (@unpackSign Format.binary64 x.toBits.toBitVec) = signOf (isNegative x) := by
  have hvalue := toNat_unpackSign x.toBits.toBitVec
  rw [UInt64.toNat_toBitVec] at hvalue
  have hlt : x.toBits.toNat < 2 ^ 64 := x.toBits.toNat_lt
  have hzero : @unpackSign Format.binary64 x.toBits.toBitVec = 0#1 ↔ isNegative x = false := by
    rw [← BitVec.toNat_inj, hvalue, isNegative, decide_eq_false_iff_not, signBits]
    change x.toBits.toNat / 2 ^ 63 % 2 = 0 ↔ _
    omega
  rw [Sign.ofBitVec, signOf]
  cases hnegative : isNegative x with
  | false => rw [if_pos (hzero.2 hnegative), if_neg Bool.false_ne_true]
  | true => rw [if_neg fun h => Bool.false_ne_true ((hzero.1 h).symm.trans hnegative), if_pos rfl]

/-- The mantissa with the bit in front of it. -/
theorem toNat_one_append (m : BitVec 52) : (1#1 ++ m).toNat = 2 ^ 52 + m.toNat := by
  change 2 ^ 52 ||| m.toNat = _
  rw [Nat.or_comm, Nat.or_two_pow_eq_add_of_lt m.isLt, Nat.add_comm]

/-- **Lean's doubles** are taken apart in the same way. -/
theorem unpack_eq (x : Float) : unpack Format.binary64 x.toBits.toBitVec = (parts x).unpacked := by
  let e : BitVec 11 := @unpackExponent Format.binary64 x.toBits.toBitVec
  let m : BitVec 52 := @unpackMantissa Format.binary64 x.toBits.toBitVec
  have hbits : magnitudeBits x = e.toNat * 2 ^ 52 + m.toNat := by
    have hexponent := toNat_unpackExponent x.toBits.toBitVec
    have hmantissa := toNat_unpackMantissa x.toBits.toBitVec
    rw [UInt64.toNat_toBitVec] at hmantissa hexponent
    rw [show e.toNat = _ from hexponent, show m.toNat = _ from hmantissa, magnitudeBits, signBits]
    omega
  have he : e.toNat < 2 ^ 11 := e.isLt
  have hm : m.toNat < 2 ^ 52 := m.isLt
  have htop : e = -1#11 ↔ e.toNat = 2047 := BitVec.toNat_inj.symm
  have hbottom : e = 0#11 ↔ e.toNat = 0 := BitVec.toNat_inj.symm
  have hnone : m = 0#52 ↔ m.toNat = 0 := BitVec.toNat_inj.symm
  have hbias : (Format.binary64.exponentBias : Int) + Format.binary64.mantissaBitsWithoutImplicit = 1075 := rfl
  unfold unpack parts
  rw [hbits]
  simp only [ofBitVec_unpackSign, hbias]
  -- the format is a record, so that the widths in the conditions have to be seen as numbers
  change (if e = -1#11 then (if m = 0#52 then _ else _)
    else if e = 0#11 then (if _ : m = 0#52 then _ else _) else _) = _
  by_cases hinfinite : e = -1#11
  · have hvalue := htop.1 hinfinite
    rw [if_pos hinfinite]
    by_cases hzero : m = 0#52
    · have hvanishes := hnone.1 hzero
      rw [if_pos hzero, if_neg (by rw [infinityBits]; omega), if_pos (by rw [infinityBits]; omega)]
      rfl
    · have hnonzero := mt hnone.2 hzero
      rw [if_neg hzero, if_pos (by rw [infinityBits]; omega)]
      rfl
  · have hvalue := mt htop.2 hinfinite
    have hfinite : e.toNat * 2 ^ 52 + m.toNat < infinityBits := by
      rw [infinityBits]
      omega
    rw [if_neg hinfinite, if_neg (Nat.lt_asymm hfinite), if_neg (Nat.ne_of_lt hfinite), Parts.unpacked,
      mantissaExponent, mantissaCount]
    by_cases hsubnormal : e = 0#11
    · have hvalue := hbottom.1 hsubnormal
      rw [if_pos hsubnormal, if_pos (show e.toNat * 2 ^ 52 + m.toNat < 0x10000000000000 by omega)]
      by_cases hzero : m = 0#52
      · have hvanishes := hnone.1 hzero
        rw [dif_pos hzero, dif_neg (by dsimp only; omega)]
      · have hnonzero := mt hnone.2 hzero
        rw [dif_neg hzero, dif_pos (by dsimp only; omega)]
        congr 1
        · change m.toNat = _
          omega
        · change (e.toNat : Int) - _ + _ = _
          omega
    · have hnonzero := mt hbottom.2 hsubnormal
      rw [if_neg hsubnormal, if_neg (show ¬ e.toNat * 2 ^ 52 + m.toNat < 0x10000000000000 by omega),
        dif_pos (by dsimp only; omega)]
      congr 1
      · change (1#1 ++ m).toNat = _
        rw [toNat_one_append]
        dsimp only
        omega
      · change (e.toNat : Int) - _ = _
        dsimp only
        omega

/-! ## The order of magnitudes -/

/-- A greater magnitude has a greater exponent, or the same one and a greater mantissa. -/
theorem mantissaExponent_lt {a b : Nat} (h : a < b) :
    (mantissaExponent a).2 < (mantissaExponent b).2 ∨
      (mantissaExponent a).2 = (mantissaExponent b).2 ∧ (mantissaExponent a).1 < (mantissaExponent b).1 := by
  unfold mantissaExponent mantissaCount
  split <;> split
  · exact .inr ⟨rfl, h⟩
  all_goals
    dsimp only
    omega

/-- **The bits of a magnitude** are in the order of the magnitudes. -/
theorem compare_mantissaExponent (a b : Nat) :
    (compare (mantissaExponent a).2 (mantissaExponent b).2).then
      (compare (mantissaExponent a).1 (mantissaExponent b).1) = compare a b := by
  rcases Nat.lt_trichotomy a b with h | rfl | h
  · rw [Nat.compare_eq_lt.2 h, Ordering.then_eq_lt, Int.compare_eq_lt, Int.compare_eq_eq, Nat.compare_eq_lt]
    exact mantissaExponent_lt h
  · simp
  · rw [Nat.compare_eq_gt.2 h, Ordering.then_eq_gt, Int.compare_eq_gt, Int.compare_eq_eq, Nat.compare_eq_gt]
    exact (mantissaExponent_lt h).imp id fun hsame => ⟨hsame.1.symm, hsame.2⟩

/-! ## The order of doubles -/

/-- Whether a double is a number. -/
def isNumber (x : Float) : Bool := magnitudeBits x ≤ infinityBits

/-- A magnitude with a sign, where the two zeros are the same. -/
def signedBits (negative : Bool) (bits : Nat) : Int := if negative then -(bits : Int) else bits

/-- What Lean's doubles are that are numbers, with the sign and the bits of the magnitude. -/
inductive Unpacks : UnpackedFloat → Bool → Nat → Prop
  /-- An infinity. -/
  | infinity (negative : Bool) : Unpacks (.infinity (signOf negative)) negative infinityBits
  /-- A zero. -/
  | zero (negative : Bool) : Unpacks (.zero (signOf negative)) negative 0
  /-- Any other number. -/
  | finite (negative : Bool) {bits : Nat} (hbits : 0 < bits) (hfinite : bits < infinityBits)
      (hmantissa : 0 < (mantissaExponent bits).1) :
      Unpacks (.finite (signOf negative) (mantissaExponent bits).1 (mantissaExponent bits).2 hmantissa) negative bits

theorem compare_eq_lt_iff_of_unpacks {u v : UnpackedFloat} {s t : Bool} {a b : Nat} (hu : Unpacks u s a)
    (hv : Unpacks v t b) : u.compare v = some .lt ↔ signedBits s a < signedBits t b := by
  have hpos : 0 < infinityBits := by decide
  cases hu with
  | infinity =>
    cases hv <;> cases s <;> cases t <;> simp [signedBits, signOf, UnpackedFloat.compare] <;> first | decide | omega
  | zero => cases hv <;> cases s <;> cases t <;> simp [signedBits, signOf, UnpackedFloat.compare] <;> omega
  | finite =>
    cases hv with
    | infinity => cases s <;> cases t <;> simp [signedBits, signOf, UnpackedFloat.compare] <;> omega
    | zero => cases s <;> cases t <;> simp [signedBits, signOf, UnpackedFloat.compare] <;> omega
    | finite =>
      cases s <;> cases t <;>
        simp [signedBits, signOf, UnpackedFloat.compare, compare_mantissaExponent, Nat.compare_eq_lt, Nat.compare_eq_gt]
      omega

theorem unpacks_of_isNumber {x : Float} (h : isNumber x = true) :
    Unpacks (parts x).unpacked (isNegative x) (magnitudeBits x) := by
  rw [isNumber, decide_eq_true_iff] at h
  rw [parts, if_neg (Nat.not_lt.2 h)]
  split
  · rename_i hinfinite
    rw [hinfinite]
    exact .infinity _
  · rename_i hfinite
    rw [Parts.unpacked]
    by_cases hzero : magnitudeBits x = 0
    · rw [hzero]
      exact .zero _
    · have hmantissa : 0 < (mantissaExponent (magnitudeBits x)).1 := by
        unfold mantissaExponent mantissaCount
        split <;> dsimp only <;> omega
      rw [dif_pos hmantissa]
      exact .finite _ (Nat.pos_of_ne_zero hzero) (Nat.lt_of_le_of_ne h hfinite) hmantissa

theorem unpacked_of_not_isNumber {x : Float} (h : ¬ isNumber x = true) : (parts x).unpacked = .notANumber := by
  rw [isNumber, decide_eq_true_iff, Nat.not_le] at h
  rw [parts, if_pos h, Parts.unpacked]

/-- **One double is below another one** if both are numbers and so are their magnitudes with their signs. -/
theorem lt_iff {x y : Float} :
    x < y ↔ isNumber x ∧ isNumber y ∧
      signedBits (isNegative x) (magnitudeBits x) < signedBits (isNegative y) (magnitudeBits y) := by
  have hmodel : x < y ↔ (parts x).unpacked.compare (parts y).unpacked = some .lt := by
    rw [← unpack_eq, ← unpack_eq, ← beq_iff_eq]
    change Float.lt x y = true ↔ _
    rw [Float.lt, decide_eq_true_iff]
    exact Iff.rfl
  rw [hmodel]
  by_cases hx : isNumber x = true
  · by_cases hy : isNumber y = true
    · rw [compare_eq_lt_iff_of_unpacks (unpacks_of_isNumber hx) (unpacks_of_isNumber hy)]
      simp [hx, hy]
    · rw [unpacked_of_not_isNumber hy]
      cases (parts x).unpacked <;> simp [UnpackedFloat.compare, hy]
  · rw [unpacked_of_not_isNumber hx]
    simp [UnpackedFloat.compare, hx]

/-- **The total order of doubles** agrees with the order of numbers. -/
theorem orderKey_lt_of_lt {x y : Float} (h : x < y) : orderKey x < orderKey y := by
  obtain ⟨hx, hy, hlt⟩ := lt_iff.1 h
  rw [isNumber, decide_eq_true_iff] at hx hy
  rw [orderKey, orderKey, if_neg (Nat.not_lt.2 hx), if_neg (Nat.not_lt.2 hy)]
  unfold signedBits at hlt
  cases hsx : isNegative x <;> cases hsy : isNegative y <;> rw [hsx, hsy] at hlt <;> simp at hlt ⊢ <;> omega

/-! ## The total order -/

/-- There is one double that is no number. -/
theorem eq_of_not_isNumber {x y : Float} (hx : ¬ isNumber x = true) (hy : ¬ isNumber y = true) : x = y := by
  have hunpack : unpack Format.binary64 x.toBits.toBitVec = unpack Format.binary64 y.toBits.toBitVec := by
    rw [unpack_eq, unpack_eq, unpacked_of_not_isNumber hx, unpacked_of_not_isNumber hy]
  have hpacked : ∀ z : Float, z = .ofModel (Float.Model.pack (unpack Format.binary64 z.toBits.toBitVec)) :=
    fun z => (Float.ofBits_toBits z).symm
  rw [hpacked x, hunpack, ← hpacked y]

/-- What is no number stands below all numbers. -/
theorem isNumber_iff_le_orderKey {x : Float} : isNumber x = true ↔ -(signBits : Int) ≤ orderKey x := by
  have hinfinity : infinityBits < signBits := by decide
  rw [isNumber, decide_eq_true_iff, orderKey]
  split
  · omega
  · split <;> omega

/-- Every double has a place of its own. -/
theorem orderKey_inj {x y : Float} : orderKey x = orderKey y ↔ x = y := by
  refine ⟨fun h => ?_, congrArg orderKey⟩
  by_cases hx : isNumber x = true
  · have hy : isNumber y = true := by rwa [isNumber_iff_le_orderKey, ← h, ← isNumber_iff_le_orderKey]
    rw [isNumber, decide_eq_true_iff] at hx hy
    rw [orderKey, orderKey, if_neg (Nat.not_lt.2 hx), if_neg (Nat.not_lt.2 hy)] at h
    have hparts : isNegative x = isNegative y ∧ magnitudeBits x = magnitudeBits y := by
      cases hsx : isNegative x <;> cases hsy : isNegative y <;> rw [hsx, hsy] at h <;> simp at h ⊢ <;> omega
    rw [← ofMagnitude_magnitudeBits x, hparts.1, hparts.2, ofMagnitude_magnitudeBits]
  · have hy : ¬ isNumber y = true := by rwa [isNumber_iff_le_orderKey, ← h, ← isNumber_iff_le_orderKey]
    exact eq_of_not_isNumber hx hy

/-- **The total order tells doubles apart.** -/
theorem totalOrder_eq_iff {x y : Float} : totalOrder x y = .eq ↔ x = y := by
  rw [totalOrder, Int.compare_eq_eq, orderKey_inj]

/-- **One double stands below another one** in the total order. -/
inductive Below : Float → Float → Prop
  /-- It is the smaller number. -/
  | number {x y : Float} (h : x < y) : Below x y
  /-- Of the two zeros, it is the negative one. -/
  | zero : Below (-0.0) 0.0
  /-- It is no number, and the other one is. -/
  | nan {x y : Float} (hx : ¬ isNumber x = true) (hy : isNumber y = true) : Below x y

theorem negative_zero_eq : (-0.0 : Float) = ofMagnitude true 0 := rfl

theorem zero_eq : (0.0 : Float) = ofMagnitude false 0 := rfl

/-- **The total order**, said of numbers and not of their bits. -/
theorem totalOrder_eq_lt_iff {x y : Float} : totalOrder x y = .lt ↔ Below x y := by
  rw [totalOrder, Int.compare_eq_lt]
  constructor
  · intro h
    by_cases hx : isNumber x = true
    · have hy : isNumber y = true :=
        isNumber_iff_le_orderKey.2 (Int.le_trans (isNumber_iff_le_orderKey.1 hx) (Int.le_of_lt h))
      by_cases hlt : signedBits (isNegative x) (magnitudeBits x) < signedBits (isNegative y) (magnitudeBits y)
      · exact .number (lt_iff.2 ⟨hx, hy, hlt⟩)
      · -- only the zeros have places of their own without being different numbers
        have hzeros : isNegative x = true ∧ magnitudeBits x = 0 ∧ isNegative y = false ∧ magnitudeBits y = 0 := by
          rw [isNumber, decide_eq_true_iff] at hx hy
          rw [orderKey, orderKey, if_neg (Nat.not_lt.2 hx), if_neg (Nat.not_lt.2 hy)] at h
          unfold signedBits at hlt
          cases hsx : isNegative x <;> cases hsy : isNegative y <;> rw [hsx, hsy] at h hlt <;> simp at h hlt ⊢ <;> omega
        rw [← ofMagnitude_magnitudeBits x, ← ofMagnitude_magnitudeBits y, hzeros.1, hzeros.2.1, hzeros.2.2.1,
          hzeros.2.2.2, ← negative_zero_eq, ← zero_eq]
        exact .zero
    · refine .nan hx ?_
      by_contra hy
      rw [eq_of_not_isNumber hx hy] at h
      exact Int.lt_irrefl _ h
  · intro h
    cases h with
    | number h => exact orderKey_lt_of_lt h
    | zero => decide
    | nan hx hy =>
      have hx := mt isNumber_iff_le_orderKey.2 hx
      have hy := isNumber_iff_le_orderKey.1 hy
      omega

end CheckerTrials.Decimal
