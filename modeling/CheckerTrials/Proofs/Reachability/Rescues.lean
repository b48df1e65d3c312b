import CheckerTrials.Proofs.Reachability.Counts
import CheckerTrials.Proofs.Reachability.Families

/-!
# Rescued instances

An experiment rescues an instance if it finishes where the complete analysis has failed or is missing.  The
successes in the tables are meant to be the rescued instances, but what the tables look at is whether the number
of all states is known, and a complete analysis may finish without telling it.  So they count such instances
as well, on top of the rescued ones (`successes_in_tables`), and the complete analysis itself, which can rescue
nothing, has successes (`not_success_means_rescued`).
-/

set_option autoImplicit false

namespace CheckerTrials

/-- Whether an experiment has finished where the complete analysis has failed or is missing. -/
def Instance.isRescued (i : Instance) (k : Kind) : Bool :=
  i.isFinished k && !i.isFinished .complete

/-- Whether the complete analysis of an instance has finished without telling the number of states. -/
def Instance.isUntold (i : Instance) : Bool :=
  i.isFinished .complete && i.results.completeStates?.isNone

/-- How many of some instances an experiment rescues. -/
def rescued (k : Kind) (instances : List Instance) : Nat := instances.countP fun i => i.isRescued k

/-- How many of some instances an experiment has finished whose complete analysis has finished too, without
telling the number of states. -/
def untold (k : Kind) (instances : List Instance) : Nat :=
  instances.countP fun i => i.isFinished k && i.isUntold

/-- A complete analysis that tells the number of states has finished. -/
theorem isFinished_of_completeStates? {i : Instance} {n : Nat} (h : i.results.completeStates? = some n) :
    i.isFinished .complete = true := by
  rw [Instance.isFinished, Results.get?]
  rw [Results.completeStates?, Option.bind_eq_bind, Option.bind_eq_some_iff] at h
  obtain ⟨o, ho, h⟩ := h
  rw [Option.bind_eq_bind, Option.bind_eq_some_iff] at h
  obtain ⟨e, he, -⟩ := h
  rw [ho, Option.bind_some, he]
  rfl

/-- Where the number of states is not known, the instance is rescued, or its complete analysis does not tell. -/
theorem countP_isUncompared (k : Kind) (instances : List Instance) :
    (instances.countP fun i => i.isUncompared k) = rescued k instances + untold k instances := by
  induction instances with
  | nil => rfl
  | cons i rest ih =>
    rw [rescued, untold] at ih ⊢
    rw [List.countP_cons, List.countP_cons, List.countP_cons, ih, Instance.isUncompared,
      Instance.isRescued, Instance.isUntold]
    cases hstates : i.results.completeStates? with
    | some n => simp [isFinished_of_completeStates? hstates]
    | none =>
      cases i.isFinished k with
      | false => simp
      | true => cases i.isFinished .complete <;> simp <;> omega

/-- Nothing is rescued by the complete analysis. -/
theorem rescued_complete (instances : List Instance) : rescued .complete instances = 0 := by
  rw [rescued, List.countP_eq_zero]
  intro i _
  simp [Instance.isRescued]

theorem untold_eq_zero_iff {k : Kind} {instances : List Instance} :
    untold k instances = 0 ↔ ∀ i ∈ instances, i.isUntold = true → i.isFinished k = false := by
  rw [untold, List.countP_eq_zero]
  refine forall₂_congr fun i _ => ?_
  cases i.isFinished k <;> simp

/-- What the successes in the tables of a document are. -/
structure Successes (d : Document) : Prop where
  /-- The table of kinds tells, for each of them, the share of the instances that it rescues and of those
  that are untold. -/
  kinds : ∀ k ∈ Kind.all, ∃ row, (MethodTable.of d).row? k = some row ∧
    row.successRate = shareOf (MethodTable.of d).total (rescued k d.instances + untold k d.instances)
  /-- If every model has a family, there is a table of families, and it does the same for each family and
  heuristic. -/
  families : (∀ file ∈ d.keys, ∃ name, familyOf? file = some name) →
    ∃ rows, familyTable d = .ok rows ∧ ∀ row ∈ rows, ∀ h, ∃ cell, row.cell? h = some cell ∧
      cell.successes = rescued (.unbounded h) (d.instancesIn row.family) +
        untold (.unbounded h) (d.instancesIn row.family)
  /-- The complete analysis rescues nothing. -/
  complete : rescued .complete d.instances = 0
  /-- A success means a rescue if no complete analysis of an instance that the experiment has finished
  has itself finished without telling the number of states, and only then. -/
  exact_iff : ∀ k instances, rescued k instances + untold k instances = rescued k instances ↔
    ∀ i ∈ instances, i.isUntold = true → i.isFinished k = false

/-- **What the tables count as a success.** -/
theorem successes_in_tables (d : Document) : Successes d where
  kinds k hk := by
    refine ⟨_, row?_of d hk, ?_⟩
    rw [← countP_isUncompared, ← successes_tally]
    rfl
  families hfamilies := by
    cases htable : familyTable d with
    | error e =>
      obtain ⟨file, hfirst, -⟩ := familiesOf_eq_error_iff.1 (familyTable_eq_error_iff.1 htable)
      obtain ⟨name, hname⟩ := hfamilies file (List.mem_of_find?_eq_some hfirst)
      have hnone := List.find?_some hfirst
      rw [hname] at hnone
      cases hnone
    | ok rows =>
      refine ⟨rows, rfl, fun row hrow h => ?_⟩
      have hof : row = .of row.family (d.instancesIn row.family) := ((mem_rows_iff htable).1 hrow).2.2
      refine ⟨.of (d.instancesIn row.family) h, ?_, ?_⟩
      · conv => lhs; rw [hof]
        exact cell?_of _ _ h
      · rw [successes_cell, countP_isUncompared]
  complete := rescued_complete d.instances
  exact_iff k instances := by
    rw [Nat.add_eq_left, untold_eq_zero_iff]

/-- A model whose complete analysis has finished without telling the number of states. -/
def untoldDocument : Document :=
  .ofList [("brp.pm", [⟨"", { Results.empty with complete := some (.done ⟨1, none, none, none⟩) }⟩])]

/-- **A success need not be a rescue**: the complete analysis is counted as its own rescue. -/
theorem not_success_means_rescued :
    ¬ ∀ (d : Document), ∀ k ∈ Kind.all, ∀ row, (MethodTable.of d).row? k = some row →
      row.successRate = shareOf (MethodTable.of d).total (rescued k d.instances) := by
  intro h
  have hcomplete : Kind.complete ∈ Kind.all := List.mem_cons_self
  have hrate := h untoldDocument .complete hcomplete _ (row?_of untoldDocument hcomplete)
  have hsuccesses : (tally untoldDocument .complete).successes = 1 := by
    rw [successes_tally]
    decide
  rw [rescued_complete, MethodRow.of, hsuccesses, total_of] at hrate
  exact absurd hrate (by decide)

end CheckerTrials
