import CheckerTrials.Proofs.Decimal.Order
import CheckerTrials.Proofs.Ordered.Stability
import CheckerTrials.Proofs.Text.ByteOrder
import CheckerTrials.Summary.Order

/-!
# The order of summaries

Summaries are listed by name, or by the width of their interval first.  Names are in the order of their bytes, the
model before the configuration, and widths in the total order of doubles: `GroupKey.Before` and `SummaryOrder.Before`
say so without a comparison function, and `compare_eq_lt_iff_before` says that the comparison functions decide them.

Summaries of different groups, as those of a list of trials are, are never equal in either order.  So each of them has
one place in the list, however the summaries came together (`sortsSummaries_of_nodup`).
-/

set_option autoImplicit false

namespace CheckerTrials

variable {order : SummaryOrder} {xs ys : List (Summary Float)} {a b : Summary Float}

/-! ## The order of groups -/

namespace GroupKey

/-- **One group comes before another one** by name. -/
inductive Before (a b : GroupKey) : Prop
  /-- Its model does. -/
  | model (h : Text.bytes a.model < Text.bytes b.model)
  /-- It is of the same model, and it alone has no configuration. -/
  | missing (hmodel : a.model = b.model) (y : String) (ha : a.axis = none) (hb : b.axis = some y)
  /-- It is of the same model, and its configuration comes before the other one. -/
  | axis (hmodel : a.model = b.model) (x y : String) (ha : a.axis = some x) (hb : b.axis = some y)
    (h : Text.bytes x < Text.bytes y)

/-- **The comparison of groups** decides which one comes before. -/
theorem compare_eq_lt_iff_before {a b : GroupKey} : compare a b = .lt ↔ a.Before b := by
  have hcompare : compare a b = (compare a.model b.model).then (compare a.axis b.axis) := rfl
  rw [hcompare, Ordering.then_eq_lt, Text.compare_eq_lt_iff, Std.LawfulEqCmp.compare_eq_iff_eq]
  constructor
  · rintro (hlt | ⟨hmodel, hlt⟩)
    · exact .model hlt
    · cases ha : a.axis with
      | none =>
        cases hb : b.axis with
        | none => rw [ha, hb] at hlt; cases hlt
        | some y => exact .missing hmodel y ha hb
      | some x =>
        cases hb : b.axis with
        | none => rw [ha, hb] at hlt; cases hlt
        | some y =>
          rw [ha, hb] at hlt
          exact .axis hmodel x y ha hb (Text.compare_eq_lt_iff.1 hlt)
  · intro h
    cases h with
    | model h => exact .inl h
    | missing hmodel y ha hb => exact .inr ⟨hmodel, by rw [ha, hb]; rfl⟩
    | axis hmodel x y ha hb h => exact .inr ⟨hmodel, by rw [ha, hb]; exact Text.compare_eq_lt_iff.2 h⟩

end GroupKey

/-! ## The order of summaries -/

namespace SummaryOrder

/-- **One summary comes before another one**: its interval is narrower, or they are as wide and its group comes first;
or just the latter, where summaries are listed by name. -/
def Before (order : SummaryOrder) (a b : Summary Float) : Prop :=
  match order with
  | .precision => Decimal.Below a.precision b.precision ∨ a.precision = b.precision ∧ a.key.Before b.key
  | .alphabetical => a.key.Before b.key

/-- **The comparison of summaries** decides which one comes before. -/
theorem compare_eq_lt_iff_before : order.compare a b = .lt ↔ order.Before a b := by
  cases order with
  | precision =>
    rw [SummaryOrder.compare, Ordering.then_eq_lt, Decimal.totalOrder_eq_lt_iff, Decimal.totalOrder_eq_iff,
      GroupKey.compare_eq_lt_iff_before]
    rfl
  | alphabetical => exact GroupKey.compare_eq_lt_iff_before

instance (order : SummaryOrder) : Std.TransCmp order.compare :=
  match order with
  | .precision => inferInstanceAs (Std.TransCmp
      (compareLex (compareOn fun s : Summary Float => Decimal.orderKey s.precision) (compareOn Summary.key)))
  | .alphabetical => inferInstanceAs (Std.TransCmp (compareOn Summary.key))

/-- Two summaries that compare as equal are of the same group. -/
theorem key_eq_of_compare (h : order.compare a b = .eq) : a.key = b.key := by
  cases order with
  | precision => exact Std.LawfulEqCmp.eq_of_compare (Ordering.then_eq_eq.1 h).2
  | alphabetical =>
    have hkeys : Ord.compare a.key b.key = .eq := h
    exact Std.LawfulEqCmp.eq_of_compare hkeys

theorem Before.asymm (h : order.Before a b) : ¬ order.Before b a := fun hba => by
  have hgt := Std.OrientedCmp.gt_of_lt (compare_eq_lt_iff_before.2 h)
  rw [compare_eq_lt_iff_before.2 hba] at hgt
  cases hgt

/-- What is listed by width is not listed behind anything wider. -/
theorem Before.not_precision_lt (h : SummaryOrder.precision.Before a b) : ¬ b.precision < a.precision := by
  intro hlt
  have hkey := Decimal.orderKey_lt_of_lt hlt
  rcases h with hbelow | ⟨hsame, -⟩
  · exact Int.lt_asymm hkey (Int.compare_eq_lt.1 (Decimal.totalOrder_eq_lt_iff.2 hbelow))
  · exact Int.lt_irrefl _ (hsame ▸ hkey)

end SummaryOrder

/-! ## Listing summaries -/

/-- **What listing summaries does to a list of them.** -/
structure SortsSummaries (xs : List (Summary Float)) : Prop where
  /-- It lists each of them as often as the list does. -/
  perm : ∀ order, (sortSummaries order xs).Perm xs
  /-- Each of them comes before all that follow. -/
  sorted : ∀ order : SummaryOrder, (sortSummaries order xs).Pairwise order.Before
  /-- What they are listed by first, unless that is the name, is the width of their mean interval. -/
  width : ∀ s ∈ xs, s.precision = s.upper - s.lower
  /-- There is no other such list. -/
  unique : ∀ (order : SummaryOrder) (ys : List (Summary Float)), ys.Perm xs → ys.Pairwise order.Before →
    ys = sortSummaries order xs
  /-- The order of the list does not matter. -/
  permuted : ∀ order (ys : List (Summary Float)), ys.Perm xs → sortSummaries order ys = sortSummaries order xs
  /-- Nor does it matter in which order they were listed before. -/
  again : ∀ order other, sortSummaries order (sortSummaries other xs) = sortSummaries order xs
  /-- By width, nothing is listed behind anything wider. -/
  ascending : (sortSummaries .precision xs).Pairwise fun a b => ¬ b.precision < a.precision

/-- **Summaries of different groups** stand in strict order. -/
theorem pairwise_before_sortSummaries (h : (xs.map Summary.key).Nodup) (order : SummaryOrder) :
    (sortSummaries order xs).Pairwise order.Before := by
  have hlt : (sortSummaries order xs).Pairwise fun a b => order.compare a b = .lt :=
    pairwise_lt_sortBy (fun _ _ => SummaryOrder.key_eq_of_compare) h
  exact hlt.imp SummaryOrder.compare_eq_lt_iff_before.1

/-- **The order of the list** does not matter. -/
theorem sortSummaries_eq_of_perm (h : (xs.map Summary.key).Nodup) (hperm : ys.Perm xs) :
    sortSummaries order ys = sortSummaries order xs := by
  have hsame : ∀ a ∈ xs, ∀ b ∈ xs, order.compare a b = .eq → a = b := fun a ha b hb hab =>
    List.inj_on_of_nodup_map h ha hb (SummaryOrder.key_eq_of_compare hab)
  exact (sortBy_eq_of_perm_of_eq hperm.symm hsame).symm

/-- **Listing summaries** of different groups does not depend on where they came from. -/
theorem sortsSummaries_of_nodup (h : (xs.map Summary.key).Nodup) : SortsSummaries xs where
  perm order := perm_sortSummaries order xs
  sorted := pairwise_before_sortSummaries h
  width _ _ := rfl
  unique order _ hperm hsorted :=
    (hperm.trans (perm_sortSummaries order xs).symm).eq_of_pairwise
      (fun _ _ _ _ hab hba => absurd hba hab.asymm) hsorted (pairwise_before_sortSummaries h order)
  permuted _ _ hperm := sortSummaries_eq_of_perm h hperm
  again _ other := sortSummaries_eq_of_perm h (perm_sortSummaries other xs)
  ascending := (pairwise_before_sortSummaries h .precision).imp SummaryOrder.Before.not_precision_lt

/-- A summary of one success. -/
def oneSuccess (model : String) (axis : Option String) (lower upper : Float) : Summary Float :=
  ⟨⟨model, axis⟩, 1, 1, ⟨0, 0, 0⟩, lower, upper, 1, none, none, none, .seconds 1, 0⟩

/-- Summaries of which three are as wide, two of one model, the fourth wider, and the fifth without a width that is a
number. -/
def listedSummaries : List (Summary Float) := [
  oneSuccess "toy" (some "GREYBOX") 0.25 0.5,
  oneSuccess "brp" none 0.25 1,
  oneSuccess "toy" none 0.5 0.75,
  oneSuccess "élan" none 0 0.25,
  oneSuccess "zero" none (1 / 0) (1 / 0)]

theorem sortsSummaries_listedSummaries :
    (listedSummaries.map Summary.key).Nodup ∧ SortsSummaries listedSummaries := by
  have hnodup : (listedSummaries.map Summary.key).Nodup := by decide +kernel
  exact ⟨hnodup, sortsSummaries_of_nodup hnodup⟩

example : (sortSummaries .precision listedSummaries).map (fun s => s.key.text) =
    ["zero", "toy", "toy [GREYBOX]", "élan", "brp"] := by
  decide +kernel

end CheckerTrials
