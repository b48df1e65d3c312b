import CheckerTrials.Proofs.Decimal.Bits
import CheckerTrials.Proofs.Decimal.Digits
import CheckerTrials.Proofs.Decimal.Nearest

/-!
# The parts of a written number

A `Layout` is the text of a number without its sign, in parts: digits before the point, digits after it, and perhaps
a power of ten.  It knows that a leading zero stands alone, which is what documents ask of their numbers.

Reading a layout gives a numeral whose digits are those before and after the point (`read?_text`), and every text
that is written for a decimal is a layout with the value of that decimal (`exists_layout`), whatever the style.
Together with what is known about the digits of a double this says that **a finite double that is written reads back
as itself** (`float?_written`), its sign included where it is zero.
-/

set_option autoImplicit false

namespace CheckerTrials.Decimal

/-! ## Digit strings -/

theorem isDigit_of_mem_digitsOf {n : Nat} {c : Char} (h : c ∈ digitsOf n) : isDigit c = true := by
  rw [digitsOf, ← Nat.toList_repr] at h
  exact isDigit_of_mem_repr h

theorem valueOf_digitsOf (n : Nat) : valueOf (digitsOf n) = n := by
  rw [digitsOf, ← Nat.toList_repr, valueOf_repr]

theorem digitsOf_ne_nil (n : Nat) : digitsOf n ≠ [] := Nat.toDigits_ne_nil

/-- The digits of a number do not begin with a zero. -/
theorem head?_digitsOf {n : Nat} (h : 0 < n) : (digitsOf n).head? ≠ some '0' := by
  induction n using Nat.strongRecOn with
  | ind n ih =>
    rw [digitsOf, Nat.toDigits_eq_if (by decide)]
    split
    · rename_i hlt
      interval_cases n <;> decide
    · rename_i hle
      rw [List.head?_append_of_ne_nil _ Nat.toDigits_ne_nil]
      exact ih (n / 10) (by omega) (by omega)

/-- Zeros at the end multiply by ten. -/
theorem valueOf_append_zeros (s : List Char) (n : Nat) :
    valueOf (s ++ List.replicate n '0') = valueOf s * 10 ^ n := by
  induction n with
  | zero => rw [List.replicate_zero, List.append_nil, pow_zero, Nat.mul_one]
  | succ n ih =>
    rw [List.replicate_succ', ← List.append_assoc, valueOf_append, ih, pow_succ]
    show 10 * (valueOf s * 10 ^ n) + 0 = valueOf s * (10 ^ n * 10)
    ring

/-! ## Layouts -/

/-- The text of a number without its sign, in parts. -/
structure Layout where
  /-- The digits before the point. -/
  whole : List Char
  /-- The digits after the point; without them there is no point. -/
  places : List Char
  /-- The power of ten, if one is written. -/
  power : Option Int
  /-- There is a digit before the point. -/
  whole_ne_nil : whole ≠ []
  /-- Before the point are digits. -/
  whole_digits : ∀ c ∈ whole, isDigit c = true
  /-- After the point are digits. -/
  places_digits : ∀ c ∈ places, isDigit c = true
  /-- A leading zero stands alone. -/
  leading_zero : whole.head? = some '0' → whole.length = 1

namespace Layout

/-- The text of a power of ten, or nothing. -/
def powerText : Option Int → List Char
  | none => []
  | some k => 'e' :: (if k < 0 then '-' else '+') :: digitsOf k.natAbs

/-- The point and the digits after it, or nothing. -/
def placesText : List Char → List Char
  | [] => []
  | c :: rest => '.' :: c :: rest

/-- The text of a layout. -/
def text (l : Layout) : List Char := l.whole ++ (placesText l.places ++ powerText l.power)

/-- What a layout says. -/
def numeral (l : Layout) (negative : Bool) : Numeral where
  negative := negative
  digits := valueOf (l.whole ++ l.places)
  exponent := l.power.getD 0 - l.places.length

/-- The decimal that a layout says. -/
def decimal (l : Layout) : Digits := ⟨valueOf (l.whole ++ l.places), l.power.getD 0 - l.places.length⟩

/-! ## Reading -/

theorem head?_powerText (power : Option Int) : ∀ c ∈ (powerText power).head?, isDigit c = false := by
  intro c hc
  cases power with
  | none => cases hc
  | some k =>
    cases hc
    decide

theorem head?_rest (l : Layout) :
    ∀ c ∈ (placesText l.places ++ powerText l.power).head?, isDigit c = false := by
  intro c hc
  cases hplaces : l.places with
  | nil =>
    rw [hplaces] at hc
    exact head?_powerText l.power c hc
  | cons d rest =>
    rw [hplaces] at hc
    cases hc
    decide

theorem exponentOf?_powerText (power : Option Int) : exponentOf? (powerText power) = some (power.getD 0) := by
  cases power with
  | none => rfl
  | some k =>
    have hall : (digitsOf k.natAbs).all isDigit = true := List.all_eq_true.2 fun c hc => isDigit_of_mem_digitsOf hc
    have hempty : (digitsOf k.natAbs).isEmpty = false := List.isEmpty_eq_false_iff.2 (digitsOf_ne_nil _)
    have hdigits : ((digitsOf k.natAbs).isEmpty || !(digitsOf k.natAbs).all isDigit) = false := by
      rw [hall, hempty]
      rfl
    rw [powerText, exponentOf?, if_pos (.inl rfl)]
    by_cases hk : k < 0
    · rw [if_pos hk]
      simp only [takeSign, hdigits, valueOf_digitsOf, Option.getD_some]
      exact congrArg some (show -(k.natAbs : Int) = k by omega)
    · rw [if_neg hk]
      simp only [takeSign, hdigits, valueOf_digitsOf, Option.getD_some]
      exact congrArg some (show (k.natAbs : Int) = k by omega)

/-- Reading a layout. -/
theorem unsignedNumeral?_text (l : Layout) (negative : Bool) :
    unsignedNumeral? negative l.text = some (l.numeral negative) := by
  obtain ⟨whole, places, power, hne, hwhole, hplaces, hzero⟩ := l
  have hrest := head?_rest ⟨whole, places, power, hne, hwhole, hplaces, hzero⟩
  have hempty : (whole ++ places).isEmpty = false := by simp [hne]
  dsimp only at hrest
  cases places with
  | nil =>
    rw [List.append_nil] at hempty
    rw [unsignedNumeral?, text, Text.takeWhile_append_of_stop hwhole hrest,
      Text.dropWhile_append_of_stop hwhole hrest]
    -- there is no point, because a power of ten begins with another character
    have hpower : ∀ rest, placesText [] ++ powerText power ≠ '.' :: rest := by
      intro rest h
      cases power <;> cases h
    have hexponent : exponentOf? (placesText [] ++ powerText power) = some (power.getD 0) :=
      exponentOf?_powerText power
    generalize placesText [] ++ powerText power = tail at hpower hexponent
    dsimp only
    split
    · rename_i rest
      exact absurd rfl (hpower rest)
    · dsimp only
      rw [List.append_nil, if_neg (by rw [hempty]; decide), hexponent]
      simp [numeral]
  | cons c rest =>
    have hpower := head?_powerText power
    rw [unsignedNumeral?, text, Text.takeWhile_append_of_stop hwhole hrest,
      Text.dropWhile_append_of_stop hwhole hrest]
    simp only [placesText, List.cons_append]
    rw [← List.cons_append, Text.takeWhile_append_of_stop hplaces hpower,
      Text.dropWhile_append_of_stop hplaces hpower, if_neg (by rw [hempty]; decide), exponentOf?_powerText]
    rfl

/-- What a layout begins with. -/
theorem exists_text_eq_cons (l : Layout) : ∃ d rest, l.text = d :: rest ∧ isDigit d = true := by
  obtain ⟨d, rest, hwhole⟩ := List.exists_cons_of_ne_nil l.whole_ne_nil
  refine ⟨d, rest ++ (placesText l.places ++ powerText l.power), ?_, ?_⟩
  · rw [text, hwhole, List.cons_append]
  · exact l.whole_digits d (hwhole ▸ List.mem_cons_self)

/-- No digit is a sign. -/
theorem takeSign_digit {d : Char} (h : isDigit d = true) (rest : List Char) :
    takeSign (d :: rest) = (false, d :: rest) := by
  unfold takeSign
  split
  · rename_i heq
    cases heq
    exact absurd h (by decide)
  · rename_i heq
    cases heq
    exact absurd h (by decide)
  · rfl

/-- What begins with a digit is no word. -/
theorem sameLetters_digit {d : Char} (h : isDigit d = true) (rest : List Char) {c : Char}
    (hc : isDigit c.toLower = false) (word : List Char) : sameLetters (d :: rest) (c :: word) = false := by
  have hlower : d.toLower = d := by
    rw [isDigit, Bool.and_eq_true, decide_eq_true_iff, decide_eq_true_iff] at h
    have h9 : d.val ≤ 57 := h.2
    refine Char.toLower_eq_of_not_isUpper fun hupper => ?_
    rw [Char.isUpper, decide_eq_true_iff] at hupper
    exact absurd (UInt32.le_trans hupper.1 h9) (by decide)
  rw [sameLetters, beq_eq_false_iff_ne]
  intro heq
  rw [List.map_cons, List.map_cons, hlower, List.cons.injEq] at heq
  rw [heq.1, hc] at h
  cases h

/-- What begins with a digit, perhaps after a sign, is read as a numeral or not at all. -/
theorem read?_of_takeSign {s rest : List Char} {negative : Bool} {d : Char} (hsign : takeSign s = (negative, d :: rest))
    (hd : isDigit d = true) : read? s = (unsignedNumeral? negative (d :: rest)).map .numeral := by
  have hinf : sameLetters (d :: rest) "inf".toList = false := sameLetters_digit hd rest (c := 'i') rfl "nf".toList
  have hinfinity : sameLetters (d :: rest) "infinity".toList = false :=
    sameLetters_digit hd rest (c := 'i') rfl "nfinity".toList
  have hnan : sameLetters (d :: rest) "nan".toList = false := sameLetters_digit hd rest (c := 'n') rfl "an".toList
  rw [read?, hsign]
  simp only [hinf, hinfinity, hnan]
  rfl

/-- **Reading a layout** gives what it says. -/
theorem read?_text (l : Layout) (negative : Bool) :
    read? (signed negative l.text) = some (.numeral (l.numeral negative)) := by
  obtain ⟨d, rest, htext, hd⟩ := l.exists_text_eq_cons
  have hsign : takeSign (signed negative l.text) = (negative, d :: rest) := by
    rw [htext]
    cases negative with
    | true => rfl
    | false => exact takeSign_digit hd rest
  rw [read?_of_takeSign hsign hd, ← htext, unsignedNumeral?_text, Option.map_some]

/-- The double of a layout is nearest to its decimal. -/
theorem float?_text (l : Layout) (negative : Bool) :
    float? (signed negative l.text) = some (ofMagnitude negative l.decimal.bits) := by
  rw [float?, read?_text, Option.map_some, Reading.toFloat, Numeral.toFloat_eq]
  rfl

end Layout

/-! ## The layout of a decimal -/

theorem Layout.placesText_of_ne_nil {s : List Char} (h : s ≠ []) : placesText s = '.' :: s := by
  cases s with
  | nil => exact absurd rfl h
  | cons c rest => rfl

/-- Digits with zeros after them. -/
def integerLayout (d : Digits) (h : 0 < d.digits) (zeros zeroPlaces : Nat) : Layout where
  whole := digitsOf d.digits ++ List.replicate zeros '0'
  places := List.replicate zeroPlaces '0'
  power := none
  whole_ne_nil := List.append_ne_nil_of_left_ne_nil (digitsOf_ne_nil d.digits) _
  whole_digits c hc := (List.mem_append.1 hc).elim isDigit_of_mem_digitsOf isDigit_of_mem_replicate
  places_digits _ hc := isDigit_of_mem_replicate hc
  leading_zero hzero := by
    rw [List.head?_append_of_ne_nil _ (digitsOf_ne_nil d.digits)] at hzero
    exact absurd hzero (head?_digitsOf h)

theorem value_integerLayout {d : Digits} (h : 0 < d.digits) {zeros : Nat} (hzeros : d.exponent = zeros)
    (zeroPlaces : Nat) : (integerLayout d h zeros zeroPlaces).decimal.value = d.value := by
  have hdigits : valueOf (digitsOf d.digits ++ List.replicate zeros '0' ++ List.replicate zeroPlaces '0') =
      d.digits * 10 ^ zeros * 10 ^ zeroPlaces := by
    rw [valueOf_append_zeros, valueOf_append_zeros, valueOf_digitsOf]
  rw [Layout.decimal, integerLayout, Digits.value, Digits.value, hdigits, hzeros, List.length_replicate,
    Option.getD_none, zero_sub, zpow_neg, zpow_natCast, zpow_natCast]
  push_cast
  exact mul_inv_cancel_right₀ (by positivity) _

/-- Digits with the point among them. -/
def innerLayout (d : Digits) (h : 0 < d.digits) (whole : Nat) (hwhole : 0 < whole) : Layout where
  whole := (digitsOf d.digits).take whole
  places := (digitsOf d.digits).drop whole
  power := none
  whole_ne_nil := by
    rw [ne_eq, List.take_eq_nil_iff, not_or]
    exact ⟨hwhole.ne', digitsOf_ne_nil d.digits⟩
  whole_digits _ hc := isDigit_of_mem_digitsOf (List.mem_of_mem_take hc)
  places_digits _ hc := isDigit_of_mem_digitsOf (List.mem_of_mem_drop hc)
  leading_zero hzero := by
    rw [List.head?_take, if_neg hwhole.ne'] at hzero
    exact absurd hzero (head?_digitsOf h)

/-- Digits with the point before them and zeros between. -/
def outerLayout (d : Digits) (zeros : Nat) : Layout where
  whole := ['0']
  places := List.replicate zeros '0' ++ digitsOf d.digits
  power := none
  whole_ne_nil := List.cons_ne_nil _ _
  whole_digits _ hc := @isDigit_of_mem_replicate 1 _ hc
  places_digits _ hc := (List.mem_append.1 hc).elim isDigit_of_mem_replicate isDigit_of_mem_digitsOf
  leading_zero _ := rfl

theorem value_outerLayout {d : Digits} {zeros : Nat}
    (h : -d.exponent = zeros + (digitsOf d.digits).length) : (outerLayout d zeros).decimal.value = d.value := by
  have hdigits : valueOf (['0'] ++ (List.replicate zeros '0' ++ digitsOf d.digits)) = d.digits := by
    rw [List.singleton_append, ← List.cons_append, ← List.replicate_succ, valueOf_zeros_append, valueOf_digitsOf]
  have hexponent : (0 : Int) - (List.replicate zeros '0' ++ digitsOf d.digits).length = d.exponent := by
    rw [List.length_append, List.length_replicate]
    push_cast
    omega
  rw [Layout.decimal, outerLayout, Digits.value, Digits.value, hdigits, Option.getD_none, hexponent]

/-- Digits with the point among, before or after them are a layout. -/
theorem exists_layout_positional (pointZero : Bool) (d : Digits) (h : 0 < d.digits) :
    ∃ l : Layout, l.text = positionalText pointZero (digitsOf d.digits) d.exponent ∧ l.decimal.value = d.value := by
  rw [positionalText]
  split
  · rename_i hexponent
    refine ⟨integerLayout d h d.exponent.toNat (if pointZero then 1 else 0), ?_,
      value_integerLayout h (Int.toNat_of_nonneg hexponent).symm _⟩
    cases pointZero <;> rfl
  · rename_i hexponent
    dsimp only
    split
    · rename_i hplaces
      have hwhole : 0 < (digitsOf d.digits).length - (-d.exponent).toNat := by omega
      refine ⟨innerLayout d h _ hwhole, ?_, ?_⟩
      · have hne : (digitsOf d.digits).drop ((digitsOf d.digits).length - (-d.exponent).toNat) ≠ [] := by
          rw [ne_eq, List.drop_eq_nil_iff]
          omega
        rw [Layout.text, innerLayout, Layout.placesText_of_ne_nil hne, Layout.powerText, List.append_nil]
      · have hlength : (0 : Int) -
            ((digitsOf d.digits).drop ((digitsOf d.digits).length - (-d.exponent).toNat)).length = d.exponent := by
          rw [List.length_drop]
          omega
        rw [Layout.decimal, innerLayout, Digits.value, Digits.value, List.take_append_drop, valueOf_digitsOf,
          Option.getD_none, hlength]
    · rename_i hplaces
      refine ⟨outerLayout d ((-d.exponent).toNat - (digitsOf d.digits).length), ?_, value_outerLayout (by omega)⟩
      rw [Layout.text, outerLayout, Layout.powerText, List.append_nil, Layout.placesText_of_ne_nil
        (List.append_ne_nil_of_right_ne_nil _ (digitsOf_ne_nil d.digits))]
      rfl

/-- Digits with the point after the first of them are a layout. -/
theorem exists_layout_scientific (d : Digits) (h : 0 < d.digits) :
    ∃ l : Layout, l.text = scientificText (digitsOf d.digits) (d.exponent + (digitsOf d.digits).length - 1) ∧
      l.decimal.value = d.value := by
  have hhead := head?_digitsOf h
  have hall : ∀ c ∈ digitsOf d.digits, isDigit c = true := fun c hc => isDigit_of_mem_digitsOf hc
  have hvalue := valueOf_digitsOf d.digits
  obtain ⟨first, rest, hdigits⟩ := List.exists_cons_of_ne_nil (digitsOf_ne_nil d.digits)
  rw [hdigits] at hhead hall hvalue ⊢
  refine ⟨⟨[first], rest, some (d.exponent + (first :: rest).length - 1), List.cons_ne_nil _ _,
    fun c hc => hall c (List.mem_singleton.1 hc ▸ List.mem_cons_self),
    fun c hc => hall c (List.mem_cons_of_mem _ hc), fun _ => rfl⟩, ?_, ?_⟩
  · cases rest <;> rfl
  · have hexponent : d.exponent + (first :: rest).length - 1 - rest.length = d.exponent := by
      rw [List.length_cons]
      push_cast
      omega
    rw [Layout.decimal, Digits.value, Digits.value, List.singleton_append, hvalue, Option.getD_some, hexponent]

/-- **What is written is a layout** of the value of the decimal. -/
theorem exists_layout (style : Style) (d : Digits) (h : 0 < d.digits) :
    ∃ l : Layout, l.text = d.text style ∧ l.decimal.value = d.value := by
  rw [Digits.text]
  split
  · exact exists_layout_positional style.pointZero d h
  · exact exists_layout_scientific d h

/-! ## Doubles -/

theorem parts_of_isFinite {x : Float} (h : isFinite x = true) : parts x =
    .finite (isNegative x) (mantissaExponent (magnitudeBits x)).1 (mantissaExponent (magnitudeBits x)).2 := by
  rw [isFinite, decide_eq_true_iff] at h
  rw [parts, if_neg (by omega), if_neg (by omega)]

theorem mantissa_eq_zero_iff {bits : Nat} : (mantissaExponent bits).1 = 0 ↔ bits = 0 := by
  have hcount : 0 < mantissaCount := by decide
  rw [mantissaExponent]
  split
  · rfl
  · dsimp only
    omega

/-- Zero, with or without a point. -/
def zeroLayout (pointZero : Bool) : Layout where
  whole := ['0']
  places := List.replicate (if pointZero then 1 else 0) '0'
  power := none
  whole_ne_nil := List.cons_ne_nil _ _
  whole_digits _ hc := @isDigit_of_mem_replicate 1 _ hc
  places_digits _ hc := isDigit_of_mem_replicate hc
  leading_zero _ := rfl

/-- **A finite double is written** as a layout that is nearest to it. -/
theorem exists_layout_written (style : Style) {x : Float} (h : isFinite x = true) :
    ∃ l : Layout, written style x = signed (isNegative x) l.text ∧ l.decimal.bits = magnitudeBits x := by
  rw [written, parts_of_isFinite h]
  dsimp only
  split
  · rename_i hzero
    refine ⟨zeroLayout style.pointZero, ?_, ?_⟩
    · congr 1
      cases style.pointZero <;> rfl
    · rw [mantissa_eq_zero_iff.1 hzero, Digits.bits_of_digits_eq_zero]
      cases style.pointZero <;> rfl
  · rename_i hmantissa
    rw [mantissa_eq_zero_iff] at hmantissa
    have hbits := bits_shortest style.tie (Nat.pos_of_ne_zero hmantissa) (of_decide_eq_true h)
    have hpos : 0 < (shortest style.tie (magnitudeBits x)).digits := by
      refine Nat.pos_of_ne_zero fun hzero => hmantissa ?_
      rw [← hbits, Digits.bits_of_digits_eq_zero hzero]
    obtain ⟨l, htext, hvalue⟩ := exists_layout style _ hpos
    refine ⟨l, by rw [htext], ?_⟩
    rw [Digits.bits_congr hvalue, hbits]

/-- **A finite double reads back**, in whatever style it was written. -/
theorem float?_written (style : Style) {x : Float} (h : isFinite x = true) :
    float? (written style x) = some x := by
  obtain ⟨l, htext, hbits⟩ := exists_layout_written style h
  rw [htext, Layout.float?_text, hbits, ofMagnitude_magnitudeBits]

end CheckerTrials.Decimal
