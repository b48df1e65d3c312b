import CheckerTrials.Decimal.Binary64
import CheckerTrials.Ordered.Sort
import CheckerTrials.Summary.Basic

/-!
# The order of summaries and of trials

Summaries are listed by how narrow their interval is, or by their names.  The successful trials of a
list are ranked by their precision (`leaderboard`).  Widths are compared in the total order of doubles,
so that every pair of them has an order, and ties are broken by the key or by the iteration.
-/

set_option autoImplicit false

namespace CheckerTrials

/-- How summaries are listed. -/
inductive SummaryOrder
  /-- The narrowest interval first, and by name where they are equally wide. -/
  | precision
  /-- By name. -/
  | alphabetical
  deriving DecidableEq, Repr

/-- Compares two summaries. -/
def SummaryOrder.compare (order : SummaryOrder) (a b : Summary Float) : Ordering :=
  match order with
  | .precision => (Decimal.totalOrder a.precision b.precision).then (Ord.compare a.key b.key)
  | .alphabetical => Ord.compare a.key b.key

/-- Lists summaries. -/
def sortSummaries (order : SummaryOrder) (summaries : List (Summary Float)) :
    List (Summary Float) :=
  sortBy order.compare summaries

/-- Sorting summaries loses and invents none. -/
theorem perm_sortSummaries (order : SummaryOrder) (summaries : List (Summary Float)) :
    (sortSummaries order summaries).Perm summaries :=
  perm_sortBy order.compare summaries

/-- Compares two trials by the width of their final interval, and then by their iteration. -/
def rankOrder (a b : Trial Float) : Ordering :=
  let byPrecision :=
    match a.precision?, b.precision? with
    | some x, some y => Decimal.totalOrder x y
    | _, _ => .eq
  byPrecision.then (Ord.compare a.iteration b.iteration)

/-- The successful trials of a list, the most precise first. -/
def leaderboard (trials : List (Trial Float)) : List (Trial Float) :=
  sortBy rankOrder (trials.filter Trial.isSuccess)

/-- The leaderboard holds the successful trials and no others. -/
theorem mem_leaderboard {trials : List (Trial Float)} {t : Trial Float} :
    t ∈ leaderboard trials ↔ t ∈ trials ∧ t.isSuccess = true := by
  simp [leaderboard, mem_sortBy]

end CheckerTrials
