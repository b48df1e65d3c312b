import CheckerTrials.Proofs.Decimal.Order
import CheckerTrials.Proofs.Ordered.Stability
import CheckerTrials.Summary.Order

/-!
# The leaderboard

The leaderboard ranks successes by the width of their final interval, then by their iteration, and then by their place
in the list (`Ahead`).  `rankOrder`, by which it sorts, takes trials without final bounds for as good as all others,
and so it contradicts itself as soon as there is one.  No success that was read is without bounds, and on trials with
bounds it is the order of two keys (`rankOrder_eq`).

A list is ranked in one way only (`Ranks.eq`), and the leaderboard is that way (`ranks_leaderboard`).  What else there
is to know about it is collected in `RanksSuccesses`: failed trials do not matter, what is ranked is not ranked again,
and the order of the list matters for ties only.
-/

set_option autoImplicit false

namespace CheckerTrials

variable {trials : List (Trial Float)} {a b : Trial Float}

/-- The successes among trials hold final bounds. -/
def HoldsBounds (trials : List (Trial Float)) : Prop :=
  ∀ t ∈ trials, t.isSuccess = true → t.lower ≠ [] ∧ t.upper ≠ []

/-! ## The order of ranks -/

/-- A trial at its place in a list is ranked ahead of another one. -/
inductive Ahead (p q : Trial Float × Nat) : Prop
  /-- It is more precise. -/
  | precision (x y : Float) (hp : p.1.precision? = some x) (hq : q.1.precision? = some y)
      (h : Decimal.totalOrder x y = .lt)
  /-- It is as precise, and of an earlier iteration. -/
  | iteration (hprecision : p.1.precision? = q.1.precision?) (h : p.1.iteration < q.1.iteration)
  /-- It is as precise and of the same iteration, and comes first in the list. -/
  | place (hprecision : p.1.precision? = q.1.precision?) (hiteration : p.1.iteration = q.1.iteration) (h : p.2 < q.2)

/-- Compares trials by two keys, whether or not they have bounds. -/
def compareRanks : Trial Float → Trial Float → Ordering :=
  compareLex (compareOn fun t => Decimal.orderKey (t.precision?.getD 0)) (compareOn Trial.iteration)

instance : Std.TransCmp compareRanks := inferInstanceAs (Std.TransCmp (compareLex _ _))

/-- The precision of a trial with bounds is the last upper one less the last lower one. -/
theorem exists_bounds {t : Trial Float} (h : t.lower ≠ [] ∧ t.upper ≠ []) : ∃ lower upper,
    t.lower.getLast? = some lower ∧ t.upper.getLast? = some upper ∧ t.precision? = some (upper - lower) := by
  have hlower := List.getLast?_eq_some_getLast h.1
  have hupper := List.getLast?_eq_some_getLast h.2
  refine ⟨_, _, hlower, hupper, ?_⟩
  rw [Trial.precision?, Trial.finalBounds?, hlower, hupper]
  rfl

theorem exists_precision? {t : Trial Float} (h : t.lower ≠ [] ∧ t.upper ≠ []) : ∃ x, t.precision? = some x := by
  obtain ⟨lower, upper, -, -, hprecision⟩ := exists_bounds h
  exact ⟨upper - lower, hprecision⟩

theorem compareRanks_eq {x y : Float} (ha : a.precision? = some x) (hb : b.precision? = some y) :
    compareRanks a b = (Decimal.totalOrder x y).then (compare a.iteration b.iteration) := by
  rw [compareRanks, compareLex, compareOn, compareOn, ha, hb]
  rfl

/-- **Trials with bounds** are ranked by two keys. -/
theorem rankOrder_eq {x y : Float} (ha : a.precision? = some x) (hb : b.precision? = some y) :
    rankOrder a b = compareRanks a b := by
  rw [compareRanks_eq ha hb, rankOrder, ha, hb]

theorem compareRanks_eq_eq_iff {x y : Float} (ha : a.precision? = some x) (hb : b.precision? = some y) :
    compareRanks a b = .eq ↔ a.precision? = b.precision? ∧ a.iteration = b.iteration := by
  rw [compareRanks_eq ha hb, Ordering.then_eq_eq, Decimal.totalOrder_eq_iff, Nat.compare_eq_eq, ha, hb, Option.some_inj]

theorem compareInPlace_iff_ahead {p q : Trial Float × Nat} {x y : Float} (hp : p.1.precision? = some x)
    (hq : q.1.precision? = some y) : compareInPlace compareRanks p q = .lt ↔ Ahead p q := by
  rw [compareInPlace, compareLex, compareRanks_eq hp hq, compareOn, Ordering.then_eq_lt, Ordering.then_eq_lt,
    Ordering.then_eq_eq, Decimal.totalOrder_eq_iff, Nat.compare_eq_lt, Nat.compare_eq_eq, Nat.compare_eq_lt]
  constructor
  · rintro ((hlt | ⟨hsame, hlt⟩) | ⟨⟨hsame, hiteration⟩, hlt⟩)
    · exact .precision x y hp hq hlt
    · exact .iteration (by rw [hp, hq, hsame]) hlt
    · exact .place (by rw [hp, hq, hsame]) hiteration hlt
  · intro h
    cases h with
    | precision x' y' hp' hq' hlt =>
      rw [hp] at hp'
      rw [hq] at hq'
      cases hp'
      cases hq'
      exact .inl (.inl hlt)
    | iteration hprecision hlt =>
      rw [hp, hq] at hprecision
      exact .inl (.inr ⟨Option.some.inj hprecision, hlt⟩)
    | place hprecision hiteration hlt =>
      rw [hp, hq] at hprecision
      exact .inr ⟨⟨Option.some.inj hprecision, hiteration⟩, hlt⟩

/-! ## Rankings -/

/-- The successes of a list, each with its place in the list. -/
def placedSuccesses (trials : List (Trial Float)) : List (Trial Float × Nat) :=
  trials.zipIdx.filter fun p => p.1.isSuccess

/-- **A ranking of a list**: its successes, each of which is ahead of all that follow. -/
def Ranks (trials board : List (Trial Float)) : Prop :=
  ∃ ranked : List (Trial Float × Nat), ranked.map Prod.fst = board ∧ ranked.Perm (placedSuccesses trials) ∧
    ranked.Pairwise Ahead

theorem map_fst_placedSuccesses (trials : List (Trial Float)) :
    (placedSuccesses trials).map Prod.fst = trials.filter Trial.isSuccess := by
  have hsuccesses := List.filter_map (f := Prod.fst) (p := Trial.isSuccess) (l := trials.zipIdx)
  rw [List.zipIdx_map_fst] at hsuccesses
  exact hsuccesses.symm

theorem pairwise_placedSuccesses (trials : List (Trial Float)) :
    (placedSuccesses trials).Pairwise fun p q => p.2 < q.2 := by
  refine List.Pairwise.filter _ (List.pairwise_map.1 ?_)
  rw [List.zipIdx_map_snd]
  exact List.pairwise_lt_range'

namespace HoldsBounds

theorem exists_precision? (h : HoldsBounds trials) {t : Trial Float} (ht : t ∈ trials.filter Trial.isSuccess) :
    ∃ x, t.precision? = some x := by
  obtain ⟨hmem, hsuccess⟩ := List.mem_filter.1 ht
  exact CheckerTrials.exists_precision? (h t hmem hsuccess)

theorem compareInPlace_iff_ahead (h : HoldsBounds trials) {p q : Trial Float × Nat} (hp : p ∈ placedSuccesses trials)
    (hq : q ∈ placedSuccesses trials) : compareInPlace compareRanks p q = .lt ↔ Ahead p q := by
  have hmem : ∀ r ∈ placedSuccesses trials, r.1 ∈ trials.filter Trial.isSuccess := fun r hr =>
    map_fst_placedSuccesses trials ▸ List.mem_map_of_mem hr
  obtain ⟨x, hx⟩ := h.exists_precision? (hmem p hp)
  obtain ⟨y, hy⟩ := h.exists_precision? (hmem q hq)
  exact CheckerTrials.compareInPlace_iff_ahead hx hy

/-- The leaderboard is sorted by two keys. -/
theorem leaderboard_eq (h : HoldsBounds trials) :
    leaderboard trials = sortBy compareRanks (trials.filter Trial.isSuccess) := by
  refine sortBy_congr (List.pairwise_of_forall_mem_list fun b hb a ha => ?_)
  obtain ⟨x, hx⟩ := h.exists_precision? ha
  obtain ⟨y, hy⟩ := h.exists_precision? hb
  rw [rankOrder_eq hx hy]

/-- **The leaderboard is a ranking.** -/
theorem ranks_leaderboard (h : HoldsBounds trials) : Ranks trials (leaderboard trials) := by
  have hplaces := pairwise_placedSuccesses trials
  have hperm := perm_sortBy (compareInPlace compareRanks) (placedSuccesses trials)
  refine ⟨sortBy (compareInPlace compareRanks) (placedSuccesses trials), ?_, hperm, ?_⟩
  · rw [map_fst_sortBy hplaces, map_fst_placedSuccesses, h.leaderboard_eq]
  · exact (pairwise_sortBy_lt hplaces).imp_of_mem fun hp hq =>
      (h.compareInPlace_iff_ahead (hperm.mem_iff.1 hp) (hperm.mem_iff.1 hq)).1

/-- **There is one ranking of a list.** -/
theorem eq_of_ranks (h : HoldsBounds trials) {board other : List (Trial Float)} (hboard : Ranks trials board)
    (hother : Ranks trials other) : board = other := by
  obtain ⟨ranked, rfl, hperm, hahead⟩ := hboard
  obtain ⟨ranked', rfl, hperm', hahead'⟩ := hother
  refine congrArg (List.map Prod.fst) ((hperm.trans hperm'.symm).eq_of_pairwise (fun p q hp hq hpq hqp => ?_)
    hahead hahead')
  have hp := hperm.mem_iff.1 hp
  have hq := hperm'.mem_iff.1 hq
  have hlt := (h.compareInPlace_iff_ahead hp hq).2 hpq
  exact absurd ((h.compareInPlace_iff_ahead hq hp).2 hqp) (by rw [Std.OrientedCmp.gt_of_lt hlt]; decide)

end HoldsBounds

/-! ## Laws of the leaderboard -/

/-- No two successes of a list share their precision and their iteration. -/
def RanksApart (trials : List (Trial Float)) : Prop :=
  (trials.filter Trial.isSuccess).Pairwise fun a b => ¬ (a.precision? = b.precision? ∧ a.iteration = b.iteration)

/-- **What the leaderboard ranks.** -/
structure RanksSuccesses (trials : List (Trial Float)) : Prop where
  /-- It holds the successes and no others, each as often as the list does. -/
  perm : (leaderboard trials).Perm (trials.filter Trial.isSuccess)
  /-- Each of them is ahead of all that follow, ties being decided by the order of the list. -/
  ranks : Ranks trials (leaderboard trials)
  /-- What they are ranked by is the width of their final interval. -/
  precision : ∀ t ∈ leaderboard trials, ∃ lower upper, t.lower.getLast? = some lower ∧ t.upper.getLast? = some upper ∧
    t.precision? = some (upper - lower)
  /-- There is no other such list. -/
  unique : ∀ board, Ranks trials board → board = leaderboard trials
  /-- A failed trial may be put in anywhere. -/
  inserted : ∀ before failed after, trials = before ++ after → failed.isSuccess = false →
    leaderboard (before ++ failed :: after) = leaderboard trials
  /-- A failed trial may be left out. -/
  removed : ∀ before failed after, trials = before ++ failed :: after → failed.isSuccess = false →
    leaderboard (before ++ after) = leaderboard trials
  /-- What is ranked stays as it is. -/
  again : leaderboard (leaderboard trials) = leaderboard trials
  /-- Without ties, the order of the list does not matter. -/
  order : RanksApart trials → ∀ others : List (Trial Float), others.Perm trials →
    leaderboard others = leaderboard trials

theorem perm_leaderboard (trials : List (Trial Float)) : (leaderboard trials).Perm (trials.filter Trial.isSuccess) :=
  perm_sortBy rankOrder _

theorem leaderboard_congr {others : List (Trial Float)}
    (h : others.filter Trial.isSuccess = trials.filter Trial.isSuccess) : leaderboard others = leaderboard trials := by
  rw [leaderboard, leaderboard, h]

theorem filter_failed (before after : List (Trial Float)) {failed : Trial Float} (h : failed.isSuccess = false) :
    (before ++ failed :: after).filter Trial.isSuccess = (before ++ after).filter Trial.isSuccess := by
  rw [List.filter_append, List.filter_cons_of_neg (by rw [h]; decide), ← List.filter_append]

/-- All that is ranked are successes. -/
theorem filter_leaderboard (trials : List (Trial Float)) :
    (leaderboard trials).filter Trial.isSuccess = leaderboard trials :=
  List.filter_eq_self.2 fun _ ht => (mem_leaderboard.1 ht).2

theorem leaderboard_leaderboard (h : HoldsBounds trials) : leaderboard (leaderboard trials) = leaderboard trials := by
  have hbounds : HoldsBounds (leaderboard trials) := fun t ht => h t (mem_leaderboard.1 ht).1
  rw [hbounds.leaderboard_eq, filter_leaderboard, h.leaderboard_eq]
  exact sortBy_eq_self (sorted_sortBy _)

/-- Successes with the same rank are the same if no two of them share it. -/
theorem eq_of_compareRanks (h : HoldsBounds trials) (hapart : RanksApart trials)
    (ha : a ∈ trials.filter Trial.isSuccess) (hb : b ∈ trials.filter Trial.isSuccess)
    (hab : compareRanks a b = .eq) : a = b := by
  obtain ⟨x, hx⟩ := h.exists_precision? ha
  obtain ⟨y, hy⟩ := h.exists_precision? hb
  have hsame := (compareRanks_eq_eq_iff hx hy).1 hab
  by_contra hne
  have hsymm : Std.Symm fun a b : Trial Float => ¬ (a.precision? = b.precision? ∧ a.iteration = b.iteration) :=
    ⟨fun _ _ hne hsame => hne ⟨hsame.1.symm, hsame.2.symm⟩⟩
  exact hapart.forall ha hb hne hsame

theorem leaderboard_of_perm (h : HoldsBounds trials) (hapart : RanksApart trials) {others : List (Trial Float)}
    (hperm : others.Perm trials) : leaderboard others = leaderboard trials := by
  have hbounds : HoldsBounds others := fun t ht => h t (hperm.mem_iff.1 ht)
  rw [hbounds.leaderboard_eq, h.leaderboard_eq]
  exact (sortBy_eq_of_perm_of_eq (hperm.filter _).symm fun a ha b hb => eq_of_compareRanks h hapart ha hb).symm

/-- **What the leaderboard ranks**: the successes of a list, if they hold bounds. -/
theorem ranksSuccesses_of_holdsBounds (h : HoldsBounds trials) : RanksSuccesses trials where
  perm := perm_leaderboard trials
  ranks := h.ranks_leaderboard
  precision t ht := exists_bounds (h t (mem_leaderboard.1 ht).1 (mem_leaderboard.1 ht).2)
  unique _ hboard := h.eq_of_ranks hboard h.ranks_leaderboard
  inserted before failed after htrials hfailed := by
    rw [htrials]
    exact leaderboard_congr (filter_failed before after hfailed)
  removed before failed after htrials hfailed := by
    rw [htrials]
    exact (leaderboard_congr (filter_failed before after hfailed)).symm
  again := leaderboard_leaderboard h
  order hapart _ hperm := leaderboard_of_perm h hapart hperm

/-- A success with one sample. -/
def oneSample (model : String) (lower upper : Float) (iteration : Nat) : Trial Float :=
  ⟨model, none, [0], [lower], [upper], none, none, .success, iteration⟩

/-- Successes of which two are equally precise, one is more precise, and one has bounds whose difference is no number,
and a failure among them. -/
def rankedTrials : List (Trial Float) := [
  oneSample "late" 0.25 0.5 2,
  .failed "failed" none .timeout 0,
  oneSample "early" 0.5 0.75 1,
  oneSample "narrow" 0.5 0.5 3,
  oneSample "none" (1 / 0) (1 / 0) 4]

theorem ranksSuccesses_rankedTrials :
    HoldsBounds rankedTrials ∧ RanksApart rankedTrials ∧ RanksSuccesses rankedTrials := by
  have hbounds : HoldsBounds rankedTrials := by
    unfold HoldsBounds
    decide +kernel
  have hapart : RanksApart rankedTrials := by
    unfold RanksApart
    decide +kernel
  exact ⟨hbounds, hapart, ranksSuccesses_of_holdsBounds hbounds⟩

example : (leaderboard rankedTrials).map Trial.model = ["none", "narrow", "early", "late"] := by decide +kernel

end CheckerTrials
