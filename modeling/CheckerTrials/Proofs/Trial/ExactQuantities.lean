import CheckerTrials.Trial.Quantity
import Mathlib.Algebra.BigOperators.Ring.List
import Mathlib.Algebra.Order.BigOperators.Group.List
import Mathlib.Algebra.Order.Field.Basic
import Mathlib.Algebra.Order.Ring.Rat
import Mathlib.Data.Finset.Max
import Mathlib.Tactic.Ring

/-!
# Exact quantities

The rational numbers are quantities whose sums and quotients are exact.  What holds of them says what the program
would do if its doubles were not rounded: a total is a sum, a mean changes with the unit (`mean_map_div`), respects the
order (`mean_map_le`), and is between the least and the greatest of its terms (`liesAmong_mean`).  The least of some
quantities is a lower bound of them (`least?_eq_some_iff`).
-/

set_option autoImplicit false

namespace CheckerTrials

instance : Quantity ℚ where
  ofCount n := n
  decideLt := inferInstance
  decideLe := inferInstance

namespace Quantity

variable {β : Type}

@[simp] theorem ofCount_eq_cast (n : Nat) : (ofCount n : ℚ) = n := rfl

theorem foldl_add_eq (xs : List ℚ) (x : ℚ) : xs.foldl (· + ·) x = x + xs.sum := by
  induction xs generalizing x with
  | nil => simp
  | cons y rest ih => rw [List.foldl_cons, ih, List.sum_cons, add_assoc]

theorem total_eq_sum (xs : List ℚ) : total xs = xs.sum := by
  cases xs with
  | nil => rfl
  | cons x rest => exact foldl_add_eq rest x

theorem mean_eq (xs : List ℚ) : mean xs = xs.sum / xs.length := by
  rw [mean, total_eq_sum, ofCount_eq_cast]

/-! ## Means -/

/-- **A mean in another unit.** -/
theorem mean_map_div (f : β → ℚ) (m : ℚ) (xs : List β) : mean (xs.map fun x => f x / m) = mean (xs.map f) / m := by
  simp only [mean_eq, div_eq_mul_inv _ m, List.sum_map_mul_right, List.length_map]
  ring

/-- A mean of greater terms is no smaller. -/
theorem mean_map_le {f g : β → ℚ} {xs : List β} (h : ∀ x ∈ xs, f x ≤ g x) : mean (xs.map f) ≤ mean (xs.map g) := by
  rw [mean_eq, mean_eq, List.length_map, List.length_map]
  exact div_le_div_of_nonneg_right (List.sum_le_sum h) xs.length.cast_nonneg

/-- A number lies between the least and the greatest number of a list. -/
def LiesAmong (x : ℚ) (xs : List ℚ) : Prop :=
  ∃ low high, IsLeast {y | y ∈ xs} low ∧ IsGreatest {y | y ∈ xs} high ∧ low ≤ x ∧ x ≤ high

/-- **A mean is among its terms.** -/
theorem liesAmong_mean {xs : List ℚ} (hne : xs ≠ []) : LiesAmong (mean xs) xs := by
  have hterms : xs.toFinset.Nonempty := List.toFinset_nonempty_iff _ |>.2 hne
  obtain ⟨low, hlow, hleast⟩ := xs.toFinset.exists_min_image id hterms
  obtain ⟨high, hhigh, hgreatest⟩ := xs.toFinset.exists_max_image id hterms
  simp only [List.mem_toFinset, id_eq] at hlow hleast hhigh hgreatest
  have hlength : (0 : ℚ) < xs.length := by exact_mod_cast List.length_pos_iff.2 hne
  have hbelow := List.card_nsmul_le_sum xs low hleast
  have habove := List.sum_le_card_nsmul xs high hgreatest
  rw [nsmul_eq_mul] at hbelow habove
  refine ⟨low, high, ⟨hlow, hleast⟩, ⟨hhigh, hgreatest⟩, ?_, ?_⟩
  · rwa [mean_eq, le_div_iff₀ hlength, mul_comm]
  · rwa [mean_eq, div_le_iff₀ hlength, mul_comm]

/-! ## The least quantity -/

/-- Keeping the smaller one of two from the left to the right ends at the least of all. -/
theorem isLeast_foldl (rest : List ℚ) (first : ℚ) :
    IsLeast {y | y ∈ first :: rest} (rest.foldl (fun low y => if y < low then y else low) first) := by
  induction rest generalizing first with
  | nil => simp [IsLeast, lowerBounds]
  | cons x rest ih =>
    obtain ⟨hmem, hle⟩ := ih (if x < first then x else first)
    rw [List.foldl_cons]
    refine ⟨?_, fun y hy => ?_⟩
    · rcases List.mem_cons.1 hmem with heq | hrest
      · rw [heq]
        split <;> simp
      · exact List.mem_cons_of_mem _ (List.mem_cons_of_mem _ hrest)
    · have hkept := hle List.mem_cons_self
      rcases List.mem_cons.1 hy with rfl | hy
      · refine hkept.trans ?_
        split
        · rename_i hlt
          exact hlt.le
        · exact le_rfl
      · rcases List.mem_cons.1 hy with rfl | hy
        · refine hkept.trans ?_
          split
          · exact le_rfl
          · rename_i hnot
            exact not_lt.1 hnot
        · exact hle (List.mem_cons_of_mem _ hy)

/-- **The least quantity** is a lower bound among them. -/
theorem least?_eq_some_iff {xs : List ℚ} {x : ℚ} : least? xs = some x ↔ IsLeast {y | y ∈ xs} x := by
  have hself : xs.filter (fun x => x ≤ x) = xs := List.filter_eq_self.2 fun x _ => decide_eq_true (le_refl x)
  rw [least?, hself]
  cases xs with
  | nil => simp [IsLeast]
  | cons first rest =>
    have hleast := isLeast_foldl rest first
    exact ⟨fun h => Option.some.inj h ▸ hleast, fun h => congrArg some (hleast.unique h)⟩

end Quantity
end CheckerTrials
