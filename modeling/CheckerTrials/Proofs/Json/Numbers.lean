import CheckerTrials.Json.Decode
import CheckerTrials.Proofs.Json.Tokens

/-!
# Quantities and counts as JSON numbers

Every layout has the form of a JSON number (`isNumber_text`), because a leading zero stands alone in it.  So have
finite doubles in any style (`isNumber_written`) and counts (`isNumber_repr`).  A finite double that is read as a
quantity is itself (`finite?_written`), and a count is within the range of quantities too (`isSome_finite?_repr`).
-/

set_option autoImplicit false

namespace CheckerTrials.Json

open Decimal (Layout Style)

theorem isPower_powerText (power : Option Int) : isPower (Layout.powerText power) = true := by
  cases power with
  | none => rfl
  | some k =>
    have hall : (Decimal.digitsOf k.natAbs).all Decimal.isDigit = true :=
      List.all_eq_true.2 fun c hc => Decimal.isDigit_of_mem_digitsOf hc
    have hempty : (Decimal.digitsOf k.natAbs).isEmpty = false :=
      List.isEmpty_eq_false_iff.2 (Decimal.digitsOf_ne_nil _)
    rw [Layout.powerText]
    unfold isPower
    by_cases hk : k < 0
    · simp [if_pos hk, hall, hempty]
    · simp [if_neg hk, hall, hempty]

theorem isFraction_rest (l : Layout) :
    isFraction (Layout.placesText l.places ++ Layout.powerText l.power) = true := by
  have hpower := isPower_powerText l.power
  have hdigits := l.places_digits
  cases hplaces : l.places with
  | nil =>
    rw [Layout.placesText, List.nil_append]
    cases hl : l.power with
    | none => rfl
    | some k =>
      rw [hl] at hpower
      exact hpower
  | cons c rest =>
    rw [hplaces] at hdigits
    rw [Layout.placesText, List.cons_append, isFraction,
      Text.takeWhile_append_of_stop hdigits (Layout.head?_powerText _),
      Text.dropWhile_append_of_stop hdigits (Layout.head?_powerText _), hpower]
    rfl

/-- **A layout has the form of a number.** -/
theorem isMagnitude_text (l : Layout) : isMagnitude l.text = true := by
  rw [isMagnitude, Layout.text, Text.takeWhile_append_of_stop l.whole_digits l.head?_rest,
    Text.dropWhile_append_of_stop l.whole_digits l.head?_rest, isFraction_rest]
  obtain ⟨d, more, hwhole⟩ := List.exists_cons_of_ne_nil l.whole_ne_nil
  rw [hwhole]
  have hzero := l.leading_zero
  rw [hwhole] at hzero
  by_cases hd : d = '0'
  · have hmore : more = [] := List.length_eq_zero_iff.1 (Nat.succ.inj (hzero (by rw [hd]; rfl)))
    rw [hmore]
    simp
  · simp [hd]

theorem isNumber_text (negative : Bool) (l : Layout) : isNumber (Decimal.signed negative l.text) = true := by
  cases negative with
  | true => exact isMagnitude_text l
  | false =>
    obtain ⟨d, rest, htext, hd⟩ := l.exists_text_eq_cons
    have hmagnitude := isMagnitude_text l
    rw [Decimal.signed, if_neg (by decide)]
    rw [htext] at hmagnitude ⊢
    unfold isNumber
    split
    · rename_i heq
      cases heq
      exact absurd hd (by decide)
    · exact hmagnitude

/-! ## Quantities -/

theorem isNumber_written (style : Style) {x : Float} (h : Decimal.isFinite x = true) :
    isNumber (Decimal.written style x) = true := by
  obtain ⟨l, htext, -⟩ := Decimal.exists_layout_written style h
  rw [htext]
  exact isNumber_text _ l

/-- **A finite double is the quantity** that it is written as. -/
theorem finite?_written (style : Style) {x : Float} (h : Decimal.isFinite x = true) :
    finite? (String.ofList (Decimal.written style x)) = some x := by
  rw [finite?, String.toList_ofList, Decimal.float?_written style h, Option.filter_some, if_pos h]

/-! ## Counts -/

/-- The layout of a count. -/
def countLayout (n : Nat) : Layout where
  whole := Decimal.digitsOf n
  places := []
  power := none
  whole_ne_nil := Decimal.digitsOf_ne_nil n
  whole_digits _ hc := Decimal.isDigit_of_mem_digitsOf hc
  places_digits := by simp
  leading_zero hzero := by
    rcases Nat.eq_zero_or_pos n with rfl | hn
    · rfl
    · exact absurd hzero (Decimal.head?_digitsOf hn)

theorem text_countLayout (n : Nat) : (countLayout n).text = n.repr.toList := by
  rw [Layout.text, countLayout, Nat.toList_repr]
  exact List.append_nil _

theorem isNumber_repr (n : Nat) : isNumber n.repr.toList = true := by
  rw [← text_countLayout]
  exact isNumber_text false (countLayout n)

theorem bits_countLayout {n : Nat} (h : n ≤ Decimal.wordLimit) :
    (countLayout n).decimal.bits < Decimal.infinityBits := by
  have hdigits : (countLayout n).decimal = ⟨n, 0⟩ := by
    rw [Layout.decimal, countLayout, List.append_nil, Decimal.valueOf_digitsOf]
    rfl
  have hvalue : (countLayout n).decimal.value = (n : ℚ) / (1 : Nat) := by
    rw [hdigits, Decimal.Digits.value, zpow_zero, mul_one, Nat.cast_one, div_one]
  rw [Decimal.Digits.bits_of_value Nat.one_pos hvalue]
  rcases Nat.eq_zero_or_pos n with rfl | hn
  · rw [Decimal.nearestBits_zero]
    decide
  · refine Decimal.nearestBits_lt hn Nat.one_pos ?_
    have hle : (n : ℚ) ≤ Decimal.wordLimit := by exact_mod_cast h
    calc (n : ℚ) / (1 : Nat) = n := by rw [Nat.cast_one, div_one]
      _ ≤ Decimal.wordLimit := hle
      _ < 2 ^ (64 : Int) := by norm_num [Decimal.wordLimit]
      _ ≤ 2 ^ (1023 : Int) := zpow_le_zpow_right₀ (by norm_num) (by norm_num)

/-- **A count is a quantity**, too. -/
theorem isSome_finite?_repr {n : Nat} (h : n ≤ Decimal.wordLimit) : (finite? n.repr).isSome = true := by
  have hread := (countLayout n).float?_text false
  rw [Decimal.signed, if_neg (by decide), text_countLayout] at hread
  have hfinite : Decimal.isFinite (Decimal.ofMagnitude false (countLayout n).decimal.bits) = true := by
    rw [Decimal.isFinite, Decimal.magnitudeBits_ofMagnitude false (bits_countLayout h), decide_eq_true_iff]
    exact bits_countLayout h
  rw [finite?, hread, Option.filter_some, if_pos hfinite]
  rfl

end CheckerTrials.Json
