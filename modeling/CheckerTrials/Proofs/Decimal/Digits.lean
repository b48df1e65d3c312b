import CheckerTrials.Decimal.Written
import CheckerTrials.Proofs.Text.Words
import Mathlib.Data.List.Induction

/-!
# The digits of a number

A number that is written with `Nat.repr` is a string of digits of its value (`valueOf_repr`), so that reading it gives
it back, also with zeros or a sign in front of it, as reading nothing else does (`natural?_eq_some_iff`), and that it
can be told from whatever follows it, as long as that does not begin with a digit (`repr_append_inj`).

A double on a command line is made of few characters besides digits (`mem_plain`), and so is one with a number of
places (`mem_fixed`).
-/

set_option autoImplicit false

namespace CheckerTrials.Decimal

theorem isBlank_of_isDigit {c : Char} (h : isDigit c = true) : Text.isBlank c = false := by
  rw [isDigit, Bool.and_eq_true, decide_eq_true_iff, decide_eq_true_iff] at h
  have h0 : 48 ≤ c.toNat := h.1
  have h9 : c.toNat ≤ 57 := h.2
  simp only [Text.isBlank, Bool.or_eq_false_iff, Bool.and_eq_false_iff, decide_eq_false_iff_not,
    beq_eq_false_iff_ne]
  omega

theorem isDigit_of_mem_repr {n : Nat} {c : Char} (h : c ∈ n.repr.toList) : isDigit c = true := by
  rw [Nat.toList_repr] at h
  have hdigit : c.isDigit = true := Nat.isDigit_of_mem_toDigits (by decide) (by decide) h
  rw [Char.isDigit, Bool.and_eq_true, decide_eq_true_iff, decide_eq_true_iff] at hdigit
  rw [isDigit, Bool.and_eq_true, decide_eq_true_iff, decide_eq_true_iff]
  exact hdigit

theorem repr_toList_ne_nil (n : Nat) : n.repr.toList ≠ [] := by
  rw [Nat.toList_repr]
  exact Nat.toDigits_ne_nil

/-- The digits of a number have its value. -/
theorem valueOf_repr (n : Nat) : valueOf n.repr.toList = n := by
  have h : Nat.ofDigitChars 10 (Nat.toDigits 10 n) 0 = n := Nat.ofDigitChars_ten_toDigits
  rw [Nat.ofDigitChars_eq_foldl] at h
  rw [Nat.toList_repr]
  exact h

theorem repr_toList_inj {m n : Nat} (h : m.repr.toList = n.repr.toList) : m = n := by
  rw [← valueOf_repr m, h, valueOf_repr]

/-! ## Reading a number back -/

/-- The ways to write a number: zeros may stand in front of its digits, and a sign in front of them. -/
inductive Writes (n : Nat) : List Char → Prop
  /-- Without a sign. -/
  | unsigned (zeros : Nat) : Writes n (List.replicate zeros '0' ++ n.repr.toList)
  /-- With a sign. -/
  | signed (zeros : Nat) : Writes n ('+' :: (List.replicate zeros '0' ++ n.repr.toList))

/-- Zeros in front do not count. -/
theorem valueOf_zeros_append (n : Nat) (s : List Char) :
    valueOf (List.replicate n '0' ++ s) = valueOf s := by
  induction n with
  | zero => rfl
  | succ n ih =>
    rw [List.replicate_succ, List.cons_append]
    exact ih

theorem isDigit_of_mem_replicate {n : Nat} {c : Char} (h : c ∈ List.replicate n '0') : isDigit c = true := by
  rw [List.eq_of_mem_replicate h]
  decide

theorem isDigit_of_mem_zeros_append {zeros n : Nat} {c : Char}
    (h : c ∈ List.replicate zeros '0' ++ n.repr.toList) : isDigit c = true :=
  (List.mem_append.1 h).elim isDigit_of_mem_replicate isDigit_of_mem_repr

/-- Without its sign, a number is zeros and digits. -/
theorem Writes.dropPlus_eq {n : Nat} {s : List Char} (h : Writes n s) :
    ∃ zeros, dropPlus s = List.replicate zeros '0' ++ n.repr.toList := by
  cases h with
  | unsigned zeros =>
    refine ⟨zeros, ?_⟩
    unfold dropPlus
    split
    · rename_i rest hrest
      exact absurd (isDigit_of_mem_zeros_append (hrest ▸ List.mem_cons_self)) (by decide)
    · rfl
  | signed zeros => exact ⟨zeros, rfl⟩

/-- **A number can be read back** whichever way it is written, up to the greatest count. -/
theorem natural?_of_writes {n : Nat} {s : List Char} (h : Writes n s) (hn : n ≤ wordLimit) : natural? s = some n := by
  obtain ⟨zeros, hzeros⟩ := h.dropPlus_eq
  have hall : (List.replicate zeros '0' ++ n.repr.toList).all isDigit = true :=
    List.all_eq_true.2 fun c hc => isDigit_of_mem_zeros_append hc
  have hempty : (List.replicate zeros '0' ++ n.repr.toList).isEmpty = false := by
    rw [List.isEmpty_eq_false_iff, Ne, List.append_eq_nil_iff, not_and]
    exact fun _ => repr_toList_ne_nil n
  simp only [natural?, hzeros, hall, hempty, valueOf_zeros_append, valueOf_repr]
  rw [if_neg (by decide), if_pos hn]

theorem natural?_repr {n : Nat} (h : n ≤ wordLimit) : natural? n.repr.toList = some n :=
  natural?_of_writes (.unsigned 0) h

/-- A digit is what its value is written with. -/
theorem repr_digitValue {c : Char} (h : isDigit c = true) : digitValue c < 10 ∧ (digitValue c).repr.toList = [c] := by
  rw [isDigit, Bool.and_eq_true, decide_eq_true_iff, decide_eq_true_iff] at h
  have h0 : 48 ≤ c.toNat := h.1
  have h9 : c.toNat ≤ 57 := h.2
  have hlt : digitValue c < 10 := by
    have hvalue : digitValue c = c.toNat - 48 := rfl
    omega
  refine ⟨hlt, ?_⟩
  rw [Nat.toList_repr, Nat.toDigits_of_lt_base hlt]
  have hall : ∀ v < 10, Nat.digitChar v = Char.ofNat (v + 48) := by decide
  have hcode : digitValue c + 48 = c.toNat := Nat.sub_add_cancel h0
  rw [hall _ hlt, hcode, Char.ofNat_toNat]

theorem valueOf_concat (s : List Char) (c : Char) : valueOf (s ++ [c]) = 10 * valueOf s + digitValue c :=
  valueOf_append s [c]

/-- **Digits** are zeros and the digits of their value. -/
theorem exists_zeros_of_digits {digits : List Char} (hne : digits ≠ []) (hdigits : ∀ c ∈ digits, isDigit c = true) :
    ∃ zeros, digits = List.replicate zeros '0' ++ (valueOf digits).repr.toList := by
  induction digits using List.reverseRecOn with
  | nil => exact absurd rfl hne
  | append_singleton before c ih =>
    obtain ⟨hlt, hc⟩ := repr_digitValue (hdigits c (by simp))
    rw [valueOf_concat]
    by_cases hbefore : before = []
    · subst hbefore
      exact ⟨0, by simp [hc]⟩
    · obtain ⟨zeros, hzeros⟩ := ih hbefore fun d hd => hdigits d (List.mem_append_left _ hd)
      rcases Nat.eq_zero_or_pos (valueOf before) with hzero | hpos
      · -- the digits of zero are one more zero in front
        refine ⟨zeros + 1, ?_⟩
        rw [hzero] at hzeros ⊢
        rw [Nat.mul_zero, Nat.zero_add, hc, List.replicate_succ', hzeros]
        rfl
      · refine ⟨zeros, ?_⟩
        rw [Nat.toList_repr, ← Nat.toDigits_append_toDigits (by decide) hpos hlt, ← Nat.toList_repr, ← Nat.toList_repr,
          hc, ← List.append_assoc, ← hzeros]

/-- **What is read as a number** is a way to write it, if it is at most the greatest count. -/
theorem natural?_eq_some_iff {s : List Char} {n : Nat} : natural? s = some n ↔ Writes n s ∧ n ≤ wordLimit := by
  refine ⟨fun h => ⟨?_, le_wordLimit_of_natural? h⟩, fun h => natural?_of_writes h.1 h.2⟩
  unfold natural? at h
  simp only [Option.ite_none_left_eq_some, Option.ite_none_right_eq_some, Option.some_inj, Bool.or_eq_true, not_or,
    Bool.not_eq_true', Bool.not_eq_false, List.isEmpty_iff, List.all_eq_true] at h
  obtain ⟨⟨hne, hdigits⟩, -, hvalue⟩ := h
  obtain ⟨zeros, hzeros⟩ := exists_zeros_of_digits hne hdigits
  rw [hvalue] at hzeros
  have hs : s = dropPlus s ∨ s = '+' :: dropPlus s := by
    unfold dropPlus
    split <;> simp
  rcases hs with hs | hs
  · rw [hs, hzeros]
    exact .unsigned zeros
  · rw [hs, hzeros]
    exact .signed zeros
/-! ## Telling numbers apart -/

/-- What does not begin with a digit ends a number. -/
theorem takeWhile_repr_append (n : Nat) {t : List Char} (ht : ∀ c ∈ t.head?, isDigit c = false) :
    (n.repr.toList ++ t).takeWhile isDigit = n.repr.toList :=
  Text.takeWhile_append_of_stop (fun _ hc => isDigit_of_mem_repr hc) ht

/-- **Numbers are told apart** by their digits, whatever follows them. -/
theorem repr_append_inj {m n : Nat} {s t : List Char} (hs : ∀ c ∈ s.head?, isDigit c = false)
    (ht : ∀ c ∈ t.head?, isDigit c = false) (h : m.repr.toList ++ s = n.repr.toList ++ t) :
    m = n ∧ s = t := by
  have hdigits : m.repr.toList = n.repr.toList := by
    rw [← takeWhile_repr_append m hs, h, takeWhile_repr_append n ht]
  refine ⟨repr_toList_inj hdigits, ?_⟩
  rw [hdigits] at h
  exact List.append_cancel_left h

/-! ## Doubles on a command line -/

/-- The characters of a double on a command line: digits, and those of a point, a sign, `inf` and `NaN`. -/
def IsPlainChar (c : Char) : Prop := isDigit c = true ∨ c ∈ ".-infNa".toList

theorem isBlank_of_isPlainChar {c : Char} (h : IsPlainChar c) : Text.isBlank c = false := by
  rcases h with h | h
  · exact isBlank_of_isDigit h
  · have hnone : ∀ c ∈ ".-infNa".toList, Text.isBlank c = false := by decide
    exact hnone c h

theorem mem_signed {negative : Bool} {s : List Char} (h : ∀ c ∈ s, IsPlainChar c) :
    ∀ c ∈ signed negative s, IsPlainChar c := by
  cases negative with
  | false => exact h
  | true =>
    intro c hc
    rcases List.mem_cons.1 hc with rfl | hc
    · exact .inr (by decide)
    · exact h c hc

theorem mem_positionalText {digits : List Char} (h : ∀ c ∈ digits, IsPlainChar c) (exponent : Int) :
    ∀ c ∈ positionalText false digits exponent, IsPlainChar c := by
  have hzero : IsPlainChar '0' := .inl (by decide)
  have hpoint : IsPlainChar '.' := .inr (by decide)
  intro c hc
  simp only [positionalText] at hc
  split at hc
  · rcases List.mem_append.1 hc with hc | hc
    · rcases List.mem_append.1 hc with hc | hc
      · exact h c hc
      · exact List.eq_of_mem_replicate hc ▸ hzero
    · cases hc
  · split at hc
    · rcases List.mem_append.1 hc with hc | hc
      · exact h c (List.mem_of_mem_take hc)
      · rcases List.mem_cons.1 hc with rfl | hc
        · exact hpoint
        · exact h c (List.mem_of_mem_drop hc)
    · rcases List.mem_cons.1 hc with rfl | hc
      · exact hzero
      · rcases List.mem_cons.1 hc with rfl | hc
        · exact hpoint
        · rcases List.mem_append.1 hc with hc | hc
          · exact List.eq_of_mem_replicate hc ▸ hzero
          · exact h c hc

/-- **Few characters** make up a double on a command line, whatever its value. -/
theorem mem_plain {x : Float} {c : Char} (h : c ∈ (plain x).toList) : IsPlainChar c := by
  rw [plain, String.toList_ofList, written] at h
  cases hx : parts x with
  | nan =>
    simp only [hx] at h
    have hall : "NaN".toList ⊆ ".-infNa".toList := by decide
    exact .inr (hall h)
  | infinite negative =>
    simp only [hx] at h
    have hall : "inf".toList ⊆ ".-infNa".toList := by decide
    exact mem_signed (fun c hc => .inr (hall hc)) c h
  | finite negative mantissa exponent =>
    simp only [hx] at h
    refine mem_signed (fun c hc => ?_) c h
    split at hc
    · obtain rfl : c = '0' := List.mem_singleton.1 hc
      exact .inl (by decide)
    · have hdigits : ∀ (n : Nat), ∀ c ∈ digitsOf n, IsPlainChar c := by
        intro n c hc
        rw [digitsOf, ← Nat.toList_repr] at hc
        exact .inl (isDigit_of_mem_repr hc)
      exact mem_positionalText (hdigits _) _ c hc

/-! ## Doubles with a number of places -/

theorem mem_withPlaces {places n : Nat} {c : Char} (h : c ∈ withPlaces places n) : IsPlainChar c := by
  have hdigits : ∀ c ∈ List.replicate (places + 1 - (digitsOf n).length) '0' ++ digitsOf n, IsPlainChar c := by
    intro c hc
    rw [digitsOf, ← Nat.toList_repr] at hc
    exact .inl (isDigit_of_mem_zeros_append hc)
  simp only [withPlaces] at h
  split at h
  · exact hdigits c h
  · rcases List.mem_append.1 h with h | h
    · exact hdigits c (List.mem_of_mem_take h)
    · rcases List.mem_cons.1 h with rfl | h
      · exact .inr (by decide)
      · exact hdigits c (List.mem_of_mem_drop h)

/-- The same characters make up a double with a number of places. -/
theorem mem_fixed {places : Nat} {x : Float} {c : Char} (h : c ∈ (fixed places x).toList) : IsPlainChar c := by
  rw [fixed, String.toList_ofList] at h
  cases hx : parts x with
  | nan =>
    simp only [hx] at h
    have hall : "NaN".toList ⊆ ".-infNa".toList := by decide
    exact .inr (hall h)
  | infinite negative =>
    simp only [hx] at h
    have hall : "inf".toList ⊆ ".-infNa".toList := by decide
    exact mem_signed (fun c hc => .inr (hall hc)) c h
  | finite negative mantissa exponent =>
    simp only [hx] at h
    exact mem_signed (fun c hc => mem_withPlaces hc) c h

end CheckerTrials.Decimal
