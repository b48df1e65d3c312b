import CheckerTrials.Reachability.FamilyTable
import CheckerTrials.Reachability.MethodTable

/-!
# What the tables count

Both tables come from the same instances, but one counts along the kinds of experiments and the other along the
families.  Here every number in them is brought into one form: the number of instances with some property.
There are three such properties, and they are about what a document holds, not about how a table is made:

* an experiment has finished (`Instance.isFinished`);
* it has failed, which an experiment that is not in the document has not (`Instance.hasFailed`), apart from
  the complete analysis (`hasFailed_complete`);
* nothing tells the number of all states (`Results.completeStates?`).
-/

set_option autoImplicit false

namespace CheckerTrials

variable {d : Document} {i : Instance} {instances : List Instance} {h : Heuristic} {k : Kind}

/-- Whether a document holds a finished outcome of an experiment on an instance. -/
def Instance.isFinished (i : Instance) (k : Kind) : Bool :=
  ((i.results.get? k).bind Outcome.exploration?).isSome

/-- Whether an experiment on an instance has finished while the number of all states is not known. -/
def Instance.isUncompared (i : Instance) (k : Kind) : Bool :=
  i.isFinished k && i.results.completeStates?.isNone

/-! ## The table of kinds -/

/-- A complete analysis that is not there has not finished, whatever it counts as. -/
theorem exploration?_outcome? (i : Instance) (k : Kind) :
    (i.outcome? k).bind Outcome.exploration? = (i.results.get? k).bind Outcome.exploration? := by
  cases k with
  | complete =>
    rw [Instance.outcome?, Results.completeOr, Results.get?]
    cases i.results.complete <;> rfl
  | unbounded => rfl
  | bounded => rfl

/-- A complete analysis has failed, or it is not there, or it has finished. -/
theorem hasFailed_complete (i : Instance) : i.hasFailed .complete = !i.isFinished .complete := by
  rw [Instance.hasFailed, Instance.outcome?, Results.completeOr, Instance.isFinished, Results.get?]
  cases i.results.complete with
  | none => rfl
  | some o => cases o <;> rfl

/-- An experiment that is in the document has failed if it has not finished. -/
theorem hasFailed_unbounded (i : Instance) (h : Heuristic) :
    i.hasFailed (.unbounded h) =
      ((i.results.get? (.unbounded h)).isSome && !i.isFinished (.unbounded h)) := by
  have houtcome : i.outcome? (.unbounded h) = i.results.get? (.unbounded h) := rfl
  rw [Instance.hasFailed, houtcome, Instance.isFinished]
  cases i.results.get? (.unbounded h) with
  | none => rfl
  | some o => cases o <;> rfl

/-- The table sees what a finished experiment reports. -/
theorem finish?_eq (i : Instance) (k : Kind) : i.finish? k =
    ((i.results.get? k).bind Outcome.exploration?).map fun e => Finish.of e i.results.completeStates? := by
  rw [← exploration?_outcome?, Instance.finish?]
  cases i.outcome? k with
  | none => rfl
  | some o => cases o <;> rfl

theorem successes_tally (d : Document) (k : Kind) :
    (tally d k).successes = d.instances.countP fun i => i.isUncompared k := by
  rw [Tally.successes, tally, List.countP_filterMap]
  refine List.countP_congr fun i _ => ?_
  rw [finish?_eq, Instance.isUncompared, Instance.isFinished]
  cases (i.results.get? k).bind Outcome.exploration? with
  | none => simp
  | some e => simp [Finish.of]

theorem total_of (d : Document) : (MethodTable.of d).total = d.instances.length := rfl

/-- Every kind of the table has its row. -/
theorem row?_of (d : Document) (hk : k ∈ Kind.all) :
    (MethodTable.of d).row? k = some (.of d.instances.length k (tally d k)) := by
  rw [MethodTable.row?, MethodTable.of, List.find?_map]
  have hfind : Kind.all.find? (fun l => (MethodRow.of d.instances.length l (tally d l)).kind == k) =
      some k := by
    cases hfound : Kind.all.find? fun l => (MethodRow.of d.instances.length l (tally d l)).kind == k with
    | none => exact absurd (List.find?_eq_none.1 hfound k hk) (by simp [MethodRow.of])
    | some l => rw [show l = k by simpa [MethodRow.of] using List.find?_some hfound]
  rw [Function.comp_def, hfind, Option.map_some]

/-! ## The table of families -/

/-- What a row says about a heuristic. -/
def FamilyRow.cell? (r : FamilyRow) (h : Heuristic) : Option HeuristicCell :=
  r.heuristics.find? fun c => c.heuristic == h

/-- Every row has a cell for every heuristic. -/
theorem cell?_of (family : String) (instances : List Instance) (h : Heuristic) :
    (FamilyRow.of family instances).cell? h = some (.of instances h) := by
  cases h <;> rfl

theorem isFinished_unbounded (i : Instance) (h : Heuristic) :
    i.isFinished (.unbounded h) = (i.results.unbounded? h).isSome := by
  rw [Instance.isFinished, Results.unbounded?]
  rfl

theorem successes_cell (instances : List Instance) (h : Heuristic) :
    (HeuristicCell.of instances h).successes =
      instances.countP fun i => i.isUncompared (.unbounded h) := by
  have hsavings : (HeuristicCell.of instances h).successes =
      (instances.map fun i => i.saving h).countP fun s => s == .rescued := rfl
  rw [hsavings, List.countP_map]
  refine List.countP_congr fun i _ => ?_
  rw [Function.comp_apply, Instance.isUncompared, isFinished_unbounded, Instance.saving]
  cases i.results.unbounded? h with
  | none => simp
  | some e => cases i.results.completeStates? <;> simp

theorem failures_cell (instances : List Instance) (h : Heuristic) :
    (HeuristicCell.of instances h).failures =
      instances.countP fun i => !i.isFinished (.unbounded h) := by
  have hsavings : (HeuristicCell.of instances h).failures =
      (instances.map fun i => i.saving h).countP fun s => s == .failed := rfl
  rw [hsavings, List.countP_map]
  refine List.countP_congr fun i _ => ?_
  rw [Function.comp_apply, isFinished_unbounded, Instance.saving]
  cases i.results.unbounded? h with
  | none => simp
  | some e => cases i.results.completeStates? <;> simp

theorem count_row (family : String) (instances : List Instance) :
    (FamilyRow.of family instances).count = instances.countP fun _ => true :=
  (congrFun List.countP_true instances).symm

theorem failures_row (family : String) (instances : List Instance) :
    (FamilyRow.of family instances).failures = instances.countP fun i => i.hasFailed .complete := by
  rw [FamilyRow.of]
  refine List.countP_congr fun i _ => ?_
  rw [hasFailed_complete, Instance.isFinished, Results.completeOr, Results.get?]
  cases i.results.complete with
  | none => rfl
  | some o => cases o <;> rfl

end CheckerTrials
