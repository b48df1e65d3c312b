import CheckerTrials.Proofs.Decimal.Exact
import CheckerTrials.Proofs.Trial.LastSection

/-!
# Counts as they are written

A count may be written in two ways.  Digits are read exactly, and any other numeral, digits beyond the greatest count
among them, is taken for the double that is nearest to it (`TakenAs`).  If that double is a count, so is the numeral,
whatever it says: what is a little less than one is read as 1, and what is beyond the greatest count as the greatest
count (`not_denotes_readCount`).

`readsCount` says when a count is the number that was written.  It is if the numeral is made of digits, or if it is a
double and at most the greatest count, and by chance if it says the greatest count itself.  Every way to write a count
up to `2 ^ 53` is of this kind.
-/

set_option autoImplicit false

namespace CheckerTrials

namespace Decimal

/-- Digits alone are a whole number. -/
theorem unsignedNumeral?_digits (negative : Bool) {digits : List Char} (hne : digits ≠ [])
    (hdigits : ∀ c ∈ digits, isDigit c = true) :
    unsignedNumeral? negative digits = some ⟨negative, valueOf digits, 0⟩ := by
  have htake : digits.takeWhile isDigit = digits := List.takeWhile_eq_self_iff.2 hdigits
  have hdrop : digits.dropWhile isDigit = [] := List.dropWhile_eq_nil_iff.2 hdigits
  rw [unsignedNumeral?, htake, hdrop]
  simp [hne, exponentOf?]

/-- **A plain number is the numeral of its value**, without a sign and a power of ten. -/
theorem read?_of_writes {n : Nat} {s : List Char} (h : Writes n s) : read? s = some (.numeral ⟨false, n, 0⟩) := by
  have hne : ∀ zeros, List.replicate zeros '0' ++ n.repr.toList ≠ [] := fun zeros =>
    List.append_ne_nil_of_right_ne_nil _ (repr_toList_ne_nil n)
  obtain ⟨zeros, hsign⟩ : ∃ zeros, takeSign s = (false, List.replicate zeros '0' ++ n.repr.toList) := by
    cases h with
    | unsigned zeros =>
      obtain ⟨d, rest, heq⟩ := List.exists_cons_of_ne_nil (hne zeros)
      refine ⟨zeros, ?_⟩
      rw [heq]
      exact Layout.takeSign_digit (isDigit_of_mem_zeros_append (heq ▸ List.mem_cons_self)) rest
    | signed zeros => exact ⟨zeros, rfl⟩
  have hnumeral := unsignedNumeral?_digits false (hne zeros) fun c hc => isDigit_of_mem_zeros_append hc
  rw [valueOf_zeros_append, valueOf_repr] at hnumeral
  obtain ⟨d, rest, heq⟩ := List.exists_cons_of_ne_nil (hne zeros)
  rw [heq] at hsign hnumeral
  rw [Layout.read?_of_takeSign hsign (isDigit_of_mem_zeros_append (heq ▸ List.mem_cons_self)), hnumeral,
    Option.map_some]

/-- What is read as no plain number is none, or one beyond the greatest count. -/
theorem natural?_eq_none_iff {s : List Char} : natural? s = none ↔ ¬ ∃ n ≤ wordLimit, Writes n s := by
  rw [← Option.not_isSome_iff_eq_none, Option.isSome_iff_exists]
  simp only [natural?_eq_some_iff, and_comm]

theorem Numeral.value_of_digits (n : Nat) : Numeral.value ⟨false, n, 0⟩ = n := by
  rw [value, withSign, if_neg Bool.false_ne_true, Digits.value, zpow_zero, mul_one]

end Decimal

open Decimal (Numeral Writes wordLimit)

namespace Series

/-! ## What a numeral is taken for -/

/-- The count that a numeral is taken for, from its text and from what it says. -/
inductive TakenAs (text : List Char) (m : Numeral) : Nat → Prop
  /-- A plain number up to the greatest count is that count. -/
  | plain {n : Nat} (htext : Writes n text) (hle : n ≤ wordLimit) : TakenAs text m n
  /-- Anything else is the count that the nearest double is, or the greatest count if that is less. -/
  | double {k : Nat} (htext : ¬ ∃ n ≤ wordLimit, Writes n text) (hfinite : Decimal.isFinite m.toFloat = true)
      (hk : Decimal.exact m.toFloat = k) : TakenAs text m (min wordLimit k)

/-- Only numerals are taken for counts, neither the names of the infinities nor what is no number. -/
theorem isNumeral_of_isFinite {r : Decimal.Reading} (h : Decimal.isFinite r.toFloat = true) : ∃ m, r = .numeral m := by
  cases r with
  | numeral m => exact ⟨m, rfl⟩
  | infinity negative => cases negative <;> exact absurd h (by decide +kernel)
  | nan => exact absurd h (by decide +kernel)

theorem readCount_eq_ok_iff_or {text : List Char} {n : Nat} : readCount text = .ok n ↔
    (Decimal.natural? text).or ((Decimal.float? text).bind (Decimal.countOf? wordLimit)) = some n := by
  rw [readCount]
  cases Decimal.natural? text with
  | some k => simp
  | none => cases (Decimal.float? text).bind (Decimal.countOf? wordLimit) <;> simp

/-- **Which texts are counts**, and which ones. -/
theorem readCount_eq_ok_iff {text : List Char} {n : Nat} :
    readCount text = .ok n ↔ ∃ m, Decimal.read? text = some (.numeral m) ∧ TakenAs text m n := by
  rw [readCount_eq_ok_iff_or, Option.or_eq_some_iff, Option.bind_eq_some_iff]
  simp only [Decimal.float?, Option.map_eq_some_iff, Decimal.countOf?_eq_some_iff]
  constructor
  · rintro (hplain | ⟨hnone, _, ⟨r, hr, rfl⟩, hfinite, k, hk, rfl⟩)
    · obtain ⟨htext, hle⟩ := Decimal.natural?_eq_some_iff.1 hplain
      exact ⟨_, Decimal.read?_of_writes htext, .plain htext hle⟩
    · obtain ⟨m, rfl⟩ := isNumeral_of_isFinite hfinite
      exact ⟨m, hr, .double (Decimal.natural?_eq_none_iff.1 hnone) hfinite hk⟩
  · rintro ⟨m, hm, htaken⟩
    cases htaken with
    | plain htext hle => exact .inl (Decimal.natural?_of_writes htext hle)
    | double hnot hfinite hk =>
      exact .inr ⟨Decimal.natural?_eq_none_iff.2 hnot, _, ⟨_, hm, rfl⟩, hfinite, _, hk, rfl⟩

/-- **When a count is the number that was written.** -/
theorem TakenAs.eq_value_iff {text : List Char} {m : Numeral} {n : Nat} (hm : Decimal.read? text = some (.numeral m))
    (h : TakenAs text m n) : (n : ℚ) = m.value ↔
      Writes n text ∨ (Decimal.exact m.toFloat = m.value ∧ m.value ≤ wordLimit) ∨ m.value = wordLimit := by
  have hplain : ∀ k, Writes k text → m.value = k := fun k hk => by
    have heq := (Decimal.read?_of_writes hk).symm.trans hm
    injection heq with heq
    injection heq with heq
    rw [← heq, Numeral.value_of_digits]
  cases h with
  | plain htext => exact iff_of_true (hplain n htext).symm (.inl htext)
  | @double k hnot hfinite hk =>
    rw [hk]
    constructor
    · intro hn
      rcases Nat.le_total wordLimit k with hle | hle
      · rw [Nat.min_eq_left hle] at hn
        exact .inr (.inr hn.symm)
      · rw [Nat.min_eq_right hle] at hn
        exact .inr (.inl ⟨hn, hn ▸ (by exact_mod_cast hle)⟩)
    · rintro (htext | ⟨hvalue, hle⟩ | hvalue)
      · exact absurd ⟨_, Nat.min_le_left _ _, htext⟩ hnot
      · rw [← hvalue] at hle ⊢
        rw [Nat.min_eq_right (by exact_mod_cast hle)]
      · have hnext := (Numeral.exact_toFloat_of_wordLimit hvalue).2
        rw [hk, Nat.cast_inj] at hnext
        rw [hvalue, hnext, Nat.min_eq_left (Nat.le_succ _)]

/-- A numeral of a count up to `2 ^ 53` is taken for that count. -/
theorem takenAs_of_value {text : List Char} {m : Numeral} (hm : Decimal.read? text = some (.numeral m)) {k : Nat}
    (hvalue : m.value = k) (hk : k ≤ 2 ^ 53) : TakenAs text m k := by
  have hle : k ≤ wordLimit := hk.trans (by decide)
  by_cases hplain : ∃ n ≤ wordLimit, Writes n text
  · obtain ⟨n, hn, htext⟩ := hplain
    have htaken : TakenAs text m n := .plain htext hn
    have heq := (htaken.eq_value_iff hm).2 (.inl htext)
    rw [hvalue, Nat.cast_inj] at heq
    rwa [← heq]
  · obtain ⟨hfinite, hexact⟩ := Numeral.exact_toFloat_of_natCast hvalue hk
    have htaken := TakenAs.double (m := m) hplain hfinite hexact
    rwa [Nat.min_eq_right hle] at htaken

/-! ## The number at the front -/

/-- **How the count at the front of a text is read.** -/
structure ReadsCount (s : List Char) : Prop where
  /-- A count is read if the number at the front is a numeral that is taken for it. -/
  accepted : ∀ n, readFront readCount s = .ok n ↔
    ∃ m, Decimal.read? (front s) = some (.numeral m) ∧ TakenAs (front s) m n
  /-- Any other number is refused by name. -/
  rejected : front s ≠ [] → (∀ n, readFront readCount s ≠ .ok n) →
    readFront readCount s = .error (.notCount (String.ofList (front s)))
  /-- The count is what the numeral says if that is written with digits, or if it is a double and at most the greatest
  count, or if it is the greatest count. -/
  eq_value_iff : ∀ m n, Decimal.read? (front s) = some (.numeral m) → readFront readCount s = .ok n →
    ((n : ℚ) = m.value ↔ Writes n (front s) ∨
      (Decimal.exact m.toFloat = m.value ∧ m.value ≤ wordLimit) ∨ m.value = wordLimit)
  /-- Whatever is written for a count up to `2 ^ 53` is read as that count. -/
  small : ∀ m (k : Nat), Decimal.read? (front s) = some (.numeral m) → m.value = k → k ≤ 2 ^ 53 →
    readFront readCount s = .ok k

theorem readsCount (s : List Char) : ReadsCount s := by
  have haccepted : ∀ n, readFront readCount s = .ok n ↔
      ∃ m, Decimal.read? (front s) = some (.numeral m) ∧ TakenAs (front s) m n := fun n => by
    rw [TextResult.readFront_eq_ok_iff, readCount_eq_ok_iff, and_iff_right_iff_imp]
    rintro ⟨m, hm, -⟩ hnil
    rw [hnil] at hm
    cases hm
  refine ⟨haccepted, fun hne hnot => ?_, fun m n hm hn => ?_, fun m k hm hvalue hk => ?_⟩
  · rw [readFront, if_neg (by simpa using hne)] at hnot ⊢
    rw [readCount] at hnot ⊢
    split at hnot
    · exact absurd rfl (hnot _)
    · split at hnot
      · exact absurd rfl (hnot _)
      · rfl
  · obtain ⟨m', hm', htaken⟩ := (haccepted n).1 hn
    obtain rfl : m' = m := by simpa using hm'.symm.trans hm
    exact htaken.eq_value_iff hm
  · exact (haccepted k).2 ⟨m, hm, takenAs_of_value hm hvalue hk⟩

/-- **A count need not be the number that was written**: what is beyond the greatest count is read as that. -/
theorem not_denotes_readCount : ¬ ∀ (s : List Char) (n : Nat), readFront readCount s = .ok n →
    ∃ m, Decimal.read? (front s) = some (.numeral m) ∧ m.value = n := by
  intro h
  obtain ⟨m, hm, hvalue⟩ := h "18446744073709551616".toList 18446744073709551615 (by decide +kernel)
  obtain rfl : ⟨false, 18446744073709551616, 0⟩ = m := by
    have hread : Decimal.read? (front "18446744073709551616".toList) =
        some (.numeral ⟨false, 18446744073709551616, 0⟩) := by decide +kernel
    simpa using hread.symm.trans hm
  rw [Numeral.value_of_digits, Nat.cast_inj] at hvalue
  exact absurd hvalue (by decide)

/-- Neither need what is no whole number be refused. -/
example : readCount "0.99999999999999999999".toList = .ok 1 := by decide +kernel

end Series
end CheckerTrials
