import CheckerTrials.Proofs.Reachability.Counts
import CheckerTrials.Proofs.Reachability.Families
import CheckerTrials.Proofs.Reachability.Passes

/-!
# The tables agree

The table of kinds, the table of families and the plot of state counts look at the same instances, each in its own
way: an analysis that is missing is a timeout in the first one, a failure in the second one, and of infinitely many
states in the third one.  All the same they agree (`tables_agree`): the last two fail on the same documents
for the same reason, what the rows of the families count adds up to what the table of kinds counts, and the plot
has as many points of a family as its row has instances.
-/

set_option autoImplicit false

namespace CheckerTrials

variable {d : Document} {models : List (String × List Instance)} {rows : List FamilyRow}
  {plotted : List String}

/-! ## The plot -/

/-- The points of a model of the given family. -/
def pointsOf (plotted : List String) (p : String × List Instance) : List StatePair :=
  match plotted.idxOf? p.1 with
  | some index => p.2.map (StatePair.of index)
  | none => []

theorem statePairs_eq_ok_iff {pairs : List StatePair} :
    statePairs d plotted = .ok pairs ↔
      ∃ models, familiesOf d = .ok models ∧ models.flatMap (pointsOf plotted) = pairs := by
  rw [statePairs, bind_eq_ok_iff]
  refine exists_congr fun models => and_congr_right fun _ => ?_
  exact ⟨Except.ok.inj, congrArg Except.ok⟩

/-- The plot fails for want of a family only. -/
theorem statePairs_eq_error_iff {e : FamilyError} :
    statePairs d plotted = .error e ↔ familiesOf d = .error e := by
  rw [statePairs, bind_eq_error_iff]
  exact or_iff_left fun ⟨_, _, h⟩ => nomatch h

/-- The points of a model file, if its family is plotted. -/
def familyPoints (plotted : List String) (p : String × List Instance) : List StatePair :=
  (familyOf? p.1).elim [] fun name => pointsOf plotted (name, p.2)

/-- The points of all models, in the order of their names. -/
def Document.points (d : Document) (plotted : List String) : List StatePair :=
  d.entries.flatMap (familyPoints plotted)

/-- **The plot** has the points of a document whose models all have families. -/
theorem statePairs_eq (d : Document) (plotted : List String) :
    statePairs d plotted = d.ofCatalogued (d.points plotted) := by
  rw [Document.ofCatalogued]
  cases hfirst : d.firstUncatalogued? with
  | some file => exact statePairs_eq_error_iff.2 (familiesOf_eq_error_iff.2 ⟨file, hfirst, rfl⟩)
  | none =>
    obtain ⟨models, hmodels⟩ := exists_familiesOf hfirst
    refine statePairs_eq_ok_iff.2 ⟨models, hmodels, ?_⟩
    have hpoints : models.flatMap (pointsOf plotted) = (models.map fun q => (some q.1, q.2)).flatMap fun p =>
        p.1.elim [] fun name => pointsOf plotted (name, p.2) := by
      rw [List.flatMap_map]
      rfl
    rw [hpoints, ← familiesOf_eq_ok_iff.1 hmodels, List.flatMap_map]
    rfl

/-- A name in a list of different names has its place and no other one. -/
theorem idxOf?_eq_some_iff_of_nodup (hplotted : plotted.Nodup) {i : Nat} (hi : i < plotted.length)
    (name : String) : plotted.idxOf? name = some i ↔ name = plotted[i] := by
  rw [List.idxOf?_eq_some_iff]
  constructor
  · rintro ⟨-, rfl, -⟩
    rfl
  · rintro rfl
    exact ⟨hi, rfl, fun j hj heq => absurd ((List.getElem_inj hplotted).1 heq) (Nat.ne_of_lt hj)⟩

/-- The points with the place of a family are those of its models. -/
theorem countP_pointsOf (hplotted : plotted.Nodup) {i : Nat} (hi : i < plotted.length)
    (p : String × List Instance) :
    (pointsOf plotted p).countP (fun point => point.index == i) =
      if p.1 == plotted[i] then p.2.length else 0 := by
  have hplace := idxOf?_eq_some_iff_of_nodup hplotted hi p.1
  rw [pointsOf]
  cases hindex : plotted.idxOf? p.1 with
  | none =>
    have hname : p.1 ≠ plotted[i] := fun hname => by
      rw [hplace.2 hname] at hindex
      cases hindex
    simp [hname]
  | some index =>
    rw [List.countP_map]
    by_cases hname : p.1 = plotted[i]
    · obtain rfl : index = i := Option.some.inj (hindex.symm.trans (hplace.2 hname))
      rw [if_pos (by simpa using hname), List.countP_eq_length]
      exact fun a _ => beq_self_eq_true index
    · have hne : index ≠ i := fun heq => hname (hplace.1 (heq ▸ hindex))
      rw [if_neg (by simpa using hname), List.countP_eq_zero]
      exact fun a _ => by simpa [StatePair.of] using hne

/-- **The plot has as many points of a family** as it has instances. -/
theorem countP_flatMap_pointsOf (hplotted : plotted.Nodup) {i : Nat} (hi : i < plotted.length)
    (models : List (String × List Instance)) :
    (models.flatMap (pointsOf plotted)).countP (fun point => point.index == i) =
      (instancesOf plotted[i] models).length := by
  rw [instancesOf]
  induction models with
  | nil => rfl
  | cons p rest ih =>
    rw [List.flatMap_cons, List.countP_append, countP_pointsOf hplotted hi, ih, List.filter_cons]
    split
    · rw [List.flatMap_cons, List.length_append]
    · rw [Nat.zero_add]

/-! ## The rows of the families -/

/-- A family without a row has no instances. -/
theorem count_find?_rows (h : familyTable d = .ok rows) (name : String) :
    ((rows.find? fun r => r.family == name).map FamilyRow.count).getD 0 =
      (d.instancesIn name).length := by
  cases hfind : rows.find? fun r => r.family == name with
  | some r =>
    have hname : r.family = name := by simpa using List.find?_some hfind
    obtain ⟨-, -, hr⟩ := (mem_rows_iff h).1 (List.mem_of_find?_eq_some hfind)
    rw [hname] at hr
    exact congrArg FamilyRow.count hr
  | none =>
    obtain ⟨models, hmodels, -⟩ := familyTable_eq_ok_iff.1 h
    symm
    rw [Option.map_none, Option.getD_none, List.length_eq_zero_iff]
    by_contra hne
    have hfamily : name ∈ families.map Family.name := by
      obtain ⟨i, hi⟩ := List.exists_mem_of_ne_nil _ hne
      obtain ⟨p, hp, -⟩ := List.mem_flatMap.1 hi
      exact mem_families_of_familyOf? (by simpa using (List.mem_filter.1 hp).2)
    have hrow : FamilyRow.of name (d.instancesIn name) ∈ rows := (mem_rows_iff h).2 ⟨hfamily, hne, rfl⟩
    exact List.find?_eq_none.1 hfind _ hrow (beq_self_eq_true name)

/-- An experiment that has not finished has failed, or it is not there. -/
theorem countP_not_isFinished (instances : List Instance) (h : Heuristic) :
    (instances.countP fun i => !i.isFinished (.unbounded h)) =
      (instances.countP fun i => i.hasFailed (.unbounded h)) +
        instances.countP fun i => (i.results.get? (.unbounded h)).isNone := by
  induction instances with
  | nil => rfl
  | cons i rest ih =>
    rw [List.countP_cons, List.countP_cons, List.countP_cons, ih, hasFailed_unbounded]
    cases hentry : i.results.get? (.unbounded h) with
    | none =>
      have hfinished : i.isFinished (.unbounded h) = false := by rw [Instance.isFinished, hentry]; rfl
      simp [hfinished, Nat.add_assoc]
    | some o =>
      cases i.isFinished (.unbounded h)
      · simp [Nat.add_right_comm]
      · simp

/-! ## All of them together -/

/-- What a heuristic's cells in a row count, nothing if there is none. -/
def FamilyRow.countOf (count : HeuristicCell → Nat) (h : Heuristic) (r : FamilyRow) : Nat :=
  ((r.cell? h).map count).getD 0

/-- What the tables of a document have in common. -/
structure TablesAgree (d : Document) : Prop where
  /-- The table of families and the plot fail together, whatever is plotted. -/
  fails : ∀ plotted e, familyTable d = .error e ↔ statePairs d plotted = .error e
  /-- What they blame is the first model, in the order of the names, that belongs to no family. -/
  blames : ∀ e, familyTable d = .error e ↔
    ∃ file, d.firstUncatalogued? = some file ∧ e = .unknownModel file
  /-- The table of kinds has a row for every kind, which is made of what is tallied for it. -/
  kinds : ∀ k ∈ Kind.all,
    (MethodTable.of d).row? k = some (.of (MethodTable.of d).total k (tally d k))
  /-- A row reports the failures and the successes of its kind as shares of all instances. -/
  shares : ∀ row ∈ (MethodTable.of d).rows,
    row.failureRate = shareOf (MethodTable.of d).total (tally d row.kind).failures ∧
      row.successRate = shareOf (MethodTable.of d).total (tally d row.kind).successes
  /-- The rows of the families count every instance once. -/
  total : ∀ rows, familyTable d = .ok rows →
    (rows.map FamilyRow.count).sum = (MethodTable.of d).total
  /-- The failures of the complete analysis are the same. -/
  complete : ∀ rows, familyTable d = .ok rows →
    (rows.map FamilyRow.failures).sum = (tally d .complete).failures
  /-- The successes of every heuristic are the same. -/
  successes : ∀ rows, familyTable d = .ok rows → ∀ h,
    (rows.map (FamilyRow.countOf HeuristicCell.successes h)).sum = (tally d (.unbounded h)).successes
  /-- The failures of every heuristic are the same, but for the instances where it was not tried. -/
  failures : ∀ rows, familyTable d = .ok rows → ∀ h,
    (rows.map (FamilyRow.countOf HeuristicCell.failures h)).sum =
      (tally d (.unbounded h)).failures +
        d.instances.countP fun i => (i.results.get? (.unbounded h)).isNone
  /-- No family has two rows. -/
  distinct : ∀ rows, familyTable d = .ok rows → (rows.map FamilyRow.family).Nodup
  /-- The plot has as many points with the place of a family as the row of the family has instances. -/
  points : ∀ rows plotted pairs, familyTable d = .ok rows → statePairs d plotted = .ok pairs →
    plotted.Nodup → ∀ i, (hi : i < plotted.length) →
      pairs.countP (fun point => point.index == i) =
        ((rows.find? fun r => r.family == plotted[i]).map FamilyRow.count).getD 0
  /-- Both tables are what one pass over the document makes of it. -/
  passes : MethodTable.of d = MethodTable.pass d ∧ familyTable d = FamilyTable.pass d

/-- **The tables agree**, whatever is missing in a document. -/
theorem tables_agree (d : Document) : TablesAgree d where
  fails plotted e := familyTable_eq_error_iff.trans statePairs_eq_error_iff.symm
  blames e := familyTable_eq_error_iff.trans familiesOf_eq_error_iff
  kinds k hk := row?_of d hk
  shares row hrow := by
    obtain ⟨k, -, rfl⟩ := List.mem_map.1 hrow
    exact ⟨rfl, rfl⟩
  total rows hrows := by
    rw [sum_rows hrows count_row, total_of]
    exact congrFun List.countP_true d.instances
  complete rows hrows := sum_rows hrows failures_row
  successes rows hrows h := by
    rw [successes_tally]
    refine sum_rows hrows fun name instances => ?_
    rw [FamilyRow.countOf, cell?_of, Option.map_some, Option.getD_some, successes_cell]
  failures rows hrows h := by
    have hsum := sum_rows (g := FamilyRow.countOf HeuristicCell.failures h) hrows fun name instances => by
      rw [FamilyRow.countOf, cell?_of, Option.map_some, Option.getD_some, failures_cell]
    rw [hsum, countP_not_isFinished]
    rfl
  distinct rows hrows := nodup_family_rows hrows
  points rows plotted pairs hrows hpairs hplotted i hi := by
    obtain ⟨models, hmodels, rfl⟩ := statePairs_eq_ok_iff.1 hpairs
    rw [countP_flatMap_pointsOf hplotted hi, instancesOf_eq hmodels, count_find?_rows hrows]
  passes := ⟨MethodTable.of_eq_pass d, familyTable_eq_pass d⟩

end CheckerTrials
