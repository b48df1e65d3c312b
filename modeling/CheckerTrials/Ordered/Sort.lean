/-!
# Stable sorting

`sortBy cmp xs` sorts by insertion: one element after the other is put behind all those that it is not
below.  So elements that compare equal keep their order, and where `cmp` contradicts itself the
outcome is still determined.

* `perm_sortBy`: sorting loses and invents nothing.
* `sorted_sortBy`: for a consistent comparison no element stands behind one that it is below.
* `sortBy_eq_of_perm_of_eq`: what is sorted does not depend on the order it was in.
-/

set_option autoImplicit false

namespace CheckerTrials

variable {α : Type}

/-- Puts `x` into a list from the greatest to the least element, in front of the first one that it is
not below. -/
def place (cmp : α → α → Ordering) (x : α) : List α → List α
  | [] => [x]
  | y :: rest => if cmp x y = .lt then y :: place cmp x rest else x :: y :: rest

/-- The elements of a list from the greatest to the least; of equal ones the last comes first. -/
def sortDown (cmp : α → α → Ordering) (xs : List α) : List α :=
  xs.foldl (fun placed x => place cmp x placed) []

/-- The elements of a list from the least to the greatest; equal ones keep their order. -/
def sortBy (cmp : α → α → Ordering) (xs : List α) : List α := (sortDown cmp xs).reverse

/-! ## Sorting is a permutation -/

theorem perm_place (cmp : α → α → Ordering) (x : α) (xs : List α) :
    (place cmp x xs).Perm (x :: xs) := by
  induction xs with
  | nil => exact .refl _
  | cons y rest ih =>
    rw [place]
    split
    · exact (ih.cons y).trans (.swap x y rest)
    · exact .refl _

theorem perm_foldl_place (cmp : α → α → Ordering) (xs placed : List α) :
    (xs.foldl (fun placed x => place cmp x placed) placed).Perm (xs ++ placed) := by
  induction xs generalizing placed with
  | nil => exact .refl _
  | cons x rest ih =>
    exact (ih (place cmp x placed)).trans
      (((perm_place cmp x placed).append_left rest).trans List.perm_middle)

/-- Sorting loses and invents nothing. -/
theorem perm_sortBy (cmp : α → α → Ordering) (xs : List α) : (sortBy cmp xs).Perm xs := by
  have := perm_foldl_place cmp xs []
  rw [List.append_nil] at this
  exact (List.reverse_perm _).trans this

theorem mem_sortBy {cmp : α → α → Ordering} {xs : List α} {x : α} : x ∈ sortBy cmp xs ↔ x ∈ xs :=
  (perm_sortBy cmp xs).mem_iff

/-! ## Sorting sorts -/

/-- Placing keeps a list from the greatest to the least. -/
theorem pairwise_place {cmp : α → α → Ordering} [Std.TransCmp cmp] (x : α) {xs : List α}
    (h : xs.Pairwise fun a b => cmp a b ≠ .lt) :
    (place cmp x xs).Pairwise fun a b => cmp a b ≠ .lt := by
  induction xs with
  | nil => simp [place]
  | cons y rest ih =>
    rw [List.pairwise_cons] at h
    rw [place]
    split
    · rename_i hxy
      refine List.pairwise_cons.2 ⟨fun z hz => ?_, ih h.2⟩
      rcases List.mem_cons.1 ((perm_place cmp x rest).mem_iff.1 hz) with rfl | hz
      · rw [Std.OrientedCmp.gt_iff_lt.2 hxy]
        simp
      · exact h.1 z hz
    · rename_i hxy
      refine List.pairwise_cons.2 ⟨fun z hz => ?_, List.pairwise_cons.2 h⟩
      rcases List.mem_cons.1 hz with rfl | hz
      · exact hxy
      · intro hxz
        have hyz := h.1 z hz
        have hge : cmp y x ≠ .gt := fun e => hxy (Std.OrientedCmp.gt_iff_lt.1 e)
        exact hyz (Std.TransCmp.lt_of_isLE_of_lt (Ordering.isLE_iff_ne_gt.2 hge) hxz)

/-- **Sorting sorts.**  No element stands behind one that it is below. -/
theorem sorted_sortBy {cmp : α → α → Ordering} [Std.TransCmp cmp] (xs : List α) :
    (sortBy cmp xs).Pairwise fun a b => cmp b a ≠ .lt := by
  have key : ∀ (xs placed : List α), placed.Pairwise (fun a b => cmp a b ≠ .lt) →
      (xs.foldl (fun placed x => place cmp x placed) placed).Pairwise fun a b => cmp a b ≠ .lt := by
    intro xs
    induction xs with
    | nil => intro placed h; exact h
    | cons x rest ih => intro placed h; exact ih _ (pairwise_place x h)
  exact List.pairwise_reverse.2 (key xs [] .nil)

/-- **What is sorted does not depend on the order it was in** if no two different elements of it compare as
equal. -/
theorem sortBy_eq_of_perm_of_eq {cmp : α → α → Ordering} [Std.TransCmp cmp] {xs ys : List α} (h : xs.Perm ys)
    (heq : ∀ a ∈ xs, ∀ b ∈ xs, cmp a b = .eq → a = b) : sortBy cmp xs = sortBy cmp ys := by
  have hperm := ((perm_sortBy cmp xs).trans h).trans (perm_sortBy cmp ys).symm
  refine hperm.eq_of_pairwise (fun a b ha hb hba hab => ?_) (sorted_sortBy xs) (sorted_sortBy ys)
  cases hcmp : cmp a b with
  | lt => exact absurd hcmp hab
  | eq => exact heq a (mem_sortBy.1 ha) b (h.mem_iff.2 (mem_sortBy.1 hb)) hcmp
  | gt => exact absurd (Std.OrientedCmp.gt_iff_lt.1 hcmp) hba

/-- What is sorted by a whole order does not depend on the order it was in. -/
theorem sortBy_eq_of_perm [Ord α] [Std.TransOrd α] [Std.LawfulEqOrd α] {xs ys : List α} (h : xs.Perm ys) :
    sortBy compare xs = sortBy compare ys :=
  sortBy_eq_of_perm_of_eq h fun _ _ _ _ => Std.LawfulEqCmp.eq_of_compare

end CheckerTrials
