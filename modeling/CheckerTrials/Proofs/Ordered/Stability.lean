import CheckerTrials.Ordered.Sort
import Mathlib.Data.List.Induction
import Mathlib.Data.List.Sort

/-!
# Sorting is stable

Elements that compare equal keep their order.  If a list is in one order already, sorting it by another one is sorting
it by both, the first of which decides only where the other leaves something open (`sortBy_compareLex`).

To say so of any list the elements carry their places in it, and are compared by `compareInPlace`, which decides by the
places wherever the elements compare equal.  Sorting the elements with their places and then forgetting the places is
sorting the elements (`map_fst_sortBy`).  As no two places are the same, what is sorted with its places stands in
strict order (`pairwise_sortBy_lt`), and nothing about the order of the list is left open.  So it is with any other key
that no two elements share (`pairwise_lt_sortBy`).

What is in order already is left as it is (`sortBy_eq_self`).  And `sortBy` looks at the order of the members of a list
only (`sortBy_congr`), so that a comparison which is consistent on them may take the place of one that is not
consistent everywhere.
-/

set_option autoImplicit false

namespace CheckerTrials

variable {α : Type} {cmp other : α → α → Ordering}

/-! ## What sorting looks at -/

theorem place_congr {x : α} {xs : List α} (h : ∀ y ∈ xs, cmp x y = .lt ↔ other x y = .lt) :
    place cmp x xs = place other x xs := by
  induction xs with
  | nil => rfl
  | cons y rest ih =>
    simp only [place, h y List.mem_cons_self, ih fun z hz => h z (List.mem_cons_of_mem y hz)]

/-- What has been placed so far is compared with what is still to be placed. -/
theorem foldl_place_congr {xs placed : List α} (h : xs.Pairwise fun y x => cmp x y = .lt ↔ other x y = .lt)
    (hplaced : ∀ y ∈ placed, ∀ x ∈ xs, cmp x y = .lt ↔ other x y = .lt) :
    xs.foldl (fun placed x => place cmp x placed) placed = xs.foldl (fun placed x => place other x placed) placed := by
  induction xs generalizing placed with
  | nil => rfl
  | cons x rest ih =>
    have hmore : ∀ y ∈ place other x placed, ∀ z ∈ rest, cmp z y = .lt ↔ other z y = .lt := by
      intro y hy z hz
      rcases List.mem_cons.1 ((perm_place other x placed).mem_iff.1 hy) with rfl | hy
      · exact List.rel_of_pairwise_cons h hz
      · exact hplaced y hy z (List.mem_cons_of_mem x hz)
    rw [List.foldl_cons, List.foldl_cons, place_congr fun y hy => hplaced y hy x List.mem_cons_self, ih h.of_cons hmore]

/-- **Sorting looks at the members of a list only**, and of two it asks only if the later one is below. -/
theorem sortBy_congr {xs : List α} (h : xs.Pairwise fun y x => cmp x y = .lt ↔ other x y = .lt) :
    sortBy cmp xs = sortBy other xs :=
  congrArg List.reverse (foldl_place_congr h fun _ hy => absurd hy List.not_mem_nil)

/-- **Sorting is stable.**  What is in one order already stays in it wherever another order decides nothing. -/
theorem sortBy_compareLex {xs : List α} (h : xs.Pairwise fun y x => other x y ≠ .lt) :
    sortBy (compareLex cmp other) xs = sortBy cmp xs :=
  sortBy_congr (h.imp fun hother => by simp [compareLex, Ordering.then_eq_lt, hother])

theorem map_place {β : Type} (f : β → α) (x : β) (placed : List β) :
    (place (fun a b => cmp (f a) (f b)) x placed).map f = place cmp (f x) (placed.map f) := by
  induction placed with
  | nil => rfl
  | cons y rest ih =>
    rw [place, List.map_cons, place]
    split
    · rw [List.map_cons, ih]
    · rfl

/-- **Sorting by what is made of the elements** is sorting what is made of them. -/
theorem map_sortBy {β : Type} (f : β → α) (xs : List β) :
    (sortBy (fun a b => cmp (f a) (f b)) xs).map f = sortBy cmp (xs.map f) := by
  have hdown : ∀ placed : List β,
      (xs.foldl (fun placed x => place (fun a b => cmp (f a) (f b)) x placed) placed).map f =
        (xs.map f).foldl (fun placed x => place cmp x placed) (placed.map f) := by
    induction xs with
    | nil => exact fun _ => rfl
    | cons x rest ih =>
      intro placed
      rw [List.foldl_cons, ih, map_place, List.map_cons, List.foldl_cons]
  rw [sortBy, sortDown, List.map_reverse, hdown]
  rfl

/-! ## What is in order already -/

theorem place_of_ne_lt {x : α} {xs : List α} (h : ∀ y ∈ xs, cmp x y ≠ .lt) : place cmp x xs = x :: xs := by
  cases xs with
  | nil => rfl
  | cons y rest => rw [place, if_neg (h y List.mem_cons_self)]

/-- **What is in order already** is left as it is. -/
theorem sortBy_eq_self {xs : List α} (h : xs.Pairwise fun a b => cmp b a ≠ .lt) : sortBy cmp xs = xs := by
  have hdown : sortDown cmp xs = xs.reverse := by
    induction xs using List.reverseRecOn with
    | nil => rfl
    | append_singleton xs x ih =>
      obtain ⟨hxs, -, hx⟩ := List.pairwise_append.1 h
      have hlast : ∀ y ∈ xs.reverse, cmp x y ≠ .lt := fun y hy =>
        hx y (List.mem_reverse.1 hy) x (List.mem_singleton_self x)
      have hstep : sortDown cmp (xs ++ [x]) = place cmp x (sortDown cmp xs) := List.foldl_concat ..
      rw [hstep, ih hxs, place_of_ne_lt hlast, List.reverse_append, List.reverse_singleton, List.singleton_append]
  rw [sortBy, hdown, List.reverse_reverse]

/-! ## What is sorted by a key -/

/-- **What has keys of its own** stands in strict order, if only elements with the same key compare as equal. -/
theorem pairwise_lt_sortBy [Std.TransCmp cmp] {κ : Type} {key : α → κ} {xs : List α}
    (hkey : ∀ a b, cmp a b = .eq → key a = key b) (h : (xs.map key).Nodup) :
    (sortBy cmp xs).Pairwise fun a b => cmp a b = .lt := by
  have hapart : (sortBy cmp xs).Pairwise fun a b => key a ≠ key b :=
    List.pairwise_map.1 (((perm_sortBy cmp xs).map key).nodup_iff.2 h)
  refine (sorted_sortBy xs).imp₂ (fun {a b} hle hne => ?_) hapart
  cases hcmp : cmp a b with
  | lt => rfl
  | eq => exact absurd (hkey a b hcmp) hne
  | gt => exact absurd (Std.OrientedCmp.gt_iff_lt.1 hcmp) hle

/-! ## Sorting with places -/

/-- Compares elements that carry their places: by the elements, and if these are equal by the places. -/
def compareInPlace (cmp : α → α → Ordering) : α × Nat → α × Nat → Ordering :=
  compareLex (fun p q => cmp p.1 q.1) (compareOn Prod.snd)

instance [Std.TransCmp cmp] : Std.TransCmp (compareInPlace cmp) :=
  have : Std.TransCmp fun p q : α × Nat => cmp p.1 q.1 :=
    { eq_swap := Std.OrientedCmp.eq_swap, isLE_trans := Std.TransCmp.isLE_trans }
  inferInstanceAs (Std.TransCmp (compareLex _ _))

/-- Elements with different places never compare equal. -/
theorem snd_eq_of_compareInPlace {p q : α × Nat} (h : compareInPlace cmp p q = .eq) : p.2 = q.2 :=
  Nat.compare_eq_eq.1 (Ordering.then_eq_eq.1 h).2

/-- **Sorting with places.**  If the places increase along a list, sorting the elements with their places and forgetting
the places is sorting the elements. -/
theorem map_fst_sortBy {ps : List (α × Nat)} (h : ps.Pairwise fun p q => p.2 < q.2) :
    (sortBy (compareInPlace cmp) ps).map Prod.fst = sortBy cmp (ps.map Prod.fst) := by
  have hplaces : ps.Pairwise fun p q => compareOn Prod.snd q p ≠ .lt :=
    h.imp fun hlt hgt => absurd (Nat.compare_eq_lt.1 hgt) (Nat.lt_asymm hlt)
  rw [compareInPlace, sortBy_compareLex hplaces, map_sortBy]

/-- **What is sorted with its places stands in strict order.** -/
theorem pairwise_sortBy_lt [Std.TransCmp cmp] {ps : List (α × Nat)} (h : ps.Pairwise fun p q => p.2 < q.2) :
    (sortBy (compareInPlace cmp) ps).Pairwise fun p q => compareInPlace cmp p q = .lt :=
  pairwise_lt_sortBy (fun _ _ => snd_eq_of_compareInPlace) (List.pairwise_map.2 (h.imp Nat.ne_of_lt))

end CheckerTrials
