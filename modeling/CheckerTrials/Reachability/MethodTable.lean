import CheckerTrials.Decimal.Written
import CheckerTrials.Reachability.Outcome
import CheckerTrials.Report.Table
import CheckerTrials.Trial.Quantity

/-!
# Comparing the kinds of experiments

For every kind of experiment the method table says how long it took and how much it explored, on average
over all instances of a document, how often it failed, and how often it finished although the complete
analysis has no number of states to compare with.

* `tally` collects what the instances say about one kind; every column of the table comes from it.
* `Tally.successes` counts the finished experiments without anything to compare with.
-/

set_option autoImplicit false

namespace CheckerTrials

/-- All kinds of experiments, in the order of the table. -/
def Kind.all : List Kind :=
  .complete :: Heuristic.all.map .unbounded
    ++ stepBounds.flatMap fun steps => Heuristic.all.map fun h => .bounded h steps

/-- What came of an experiment on an instance, where a complete analysis that is missing counts as one
that ran out of time. -/
def Instance.outcome? (i : Instance) : Kind → Option Outcome
  | .complete => some (i.results.completeOr .timeout)
  | k => i.results.get? k

/-- A finished experiment as the table sees it. -/
structure Finish where
  /-- How long it took. -/
  time : Float
  /-- How many states it explored, none if it does not tell. -/
  states : Float
  /-- The share of all states, if their number is known. -/
  fraction : Option Float
  deriving DecidableEq, Repr

/-- A finished experiment on an instance with the given number of states. -/
def Finish.of (e : Exploration) (completeStates : Option Nat) : Finish :=
  let states := Float.ofNat (e.coreStates.getD 0)
  { time := e.time, states, fraction := completeStates.map fun n => states / Float.ofNat n }

/-- What the instances of a document say about a kind of experiment. -/
structure Tally where
  /-- How many experiments failed. -/
  failures : Nat
  /-- The finished experiments. -/
  finished : List Finish
  deriving DecidableEq, Repr

namespace Tally

/-- How many experiments finished where the number of all states is not known. -/
def successes (t : Tally) : Nat := t.finished.countP fun f => f.fraction.isNone

/-- The mean time. -/
def meanTime? (t : Tally) : Option Float := Quantity.mean? (t.finished.map Finish.time)

/-- The mean number of explored states. -/
def meanStates? (t : Tally) : Option Float := Quantity.mean? (t.finished.map Finish.states)

/-- The mean share of all states. -/
def meanFraction? (t : Tally) : Option Float := Quantity.mean? (t.finished.filterMap Finish.fraction)

end Tally

/-- The finished experiment of some kind on an instance. -/
def Instance.finish? (i : Instance) (k : Kind) : Option Finish := do
  return .of (← (← i.outcome? k).exploration?) i.results.completeStates?

/-- Whether an experiment of some kind on an instance failed. -/
def Instance.hasFailed (i : Instance) (k : Kind) : Bool := (i.outcome? k).any Outcome.isFailure

/-- Collects what the instances of a document say about a kind of experiment. -/
def tally (d : Document) (k : Kind) : Tally where
  failures := d.instances.countP fun i => i.hasFailed k
  finished := d.instances.filterMap fun i => i.finish? k

/-- The summary of one kind of experiment. -/
structure MethodRow where
  /-- The kind. -/
  kind : Kind
  /-- The mean time. -/
  meanTime : Option Float
  /-- The mean number of explored states. -/
  meanStates : Option Float
  /-- The mean share of all states. -/
  meanFraction : Option Float
  /-- The share of instances on which the experiment failed. -/
  failureRate : Float
  /-- The share of instances on which it finished without anything to compare with. -/
  successRate : Float
  deriving DecidableEq, Repr

/-- A share of a total; nothing of nothing is nothing. -/
def shareOf (total count : Nat) : Float :=
  if total = 0 then 0 else Float.ofNat count / Float.ofNat total

/-- The row of a tally among `total` instances. -/
def MethodRow.of (total : Nat) (k : Kind) (t : Tally) : MethodRow where
  kind := k
  meanTime := t.meanTime?
  meanStates := t.meanStates?
  meanFraction := t.meanFraction?
  failureRate := shareOf total t.failures
  successRate := shareOf total t.successes

/-- The comparison of all kinds of experiments. -/
structure MethodTable where
  /-- The number of instances. -/
  total : Nat
  /-- One row for each kind. -/
  rows : List MethodRow
  deriving DecidableEq, Repr

namespace MethodTable

/-- Compares the kinds of experiments in a document. -/
def of (d : Document) : MethodTable where
  total := d.instances.length
  rows := Kind.all.map fun k => .of d.instances.length k (tally d k)

/-- The row of a kind. -/
def row? (t : MethodTable) (k : Kind) : Option MethodRow := t.rows.find? fun row => row.kind == k

/-- Every kind of the table has a row. -/
theorem map_kind_rows (d : Document) : (of d).rows.map MethodRow.kind = Kind.all := by
  rw [of, List.map_map]
  exact List.map_id' Kind.all

/-- The part of the table that a kind belongs to. -/
def sectionOf? : Kind → Option String
  | .complete => none
  | .unbounded _ => some "Unbounded"
  | .bounded _ steps => some ("Bounded " ++ steps.repr)

/-- The title of a part of the table, over all columns. -/
def sectionRow (title : String) : List String :=
  ("\\multicolumn\x7b6\x7d\x7bl\x7d\x7b" ++ title ++ "\x7d") :: List.replicate 5 ""

/-- The name of a kind inside its part. -/
def kindCell : Kind → String
  | .complete => "Complete"
  | .unbounded h => "\\hspace\x7b1em\x7d " ++ h.latexName
  | .bounded h _ => "\\hspace\x7b1em\x7d " ++ h.latexName

/-- A share in percent. -/
def percent (x : Float) : String := Decimal.fixed 0 (x * 100) ++ " \\%"

/-- The cells of a row. -/
def cells (r : MethodRow) : List String := [
  kindCell r.kind,
  orMissing (fun x => Decimal.fixed 0 x ++ " s") r.meanTime,
  orMissing (Decimal.fixed 0) r.meanStates,
  orMissing percent r.meanFraction,
  percent r.failureRate,
  percent r.successRate]

/-- The rows with a title in front of each part, where `current` is the part of the rows before. -/
def rowsWithSections (current : Option String) : List MethodRow → List (List String)
  | [] => []
  | r :: rest =>
    match sectionOf? r.kind with
    | some title =>
      if current = some title then cells r :: rowsWithSections current rest
      else sectionRow title :: cells r :: rowsWithSections (some title) rest
    | none => cells r :: rowsWithSections current rest

/-- The LaTeX table. -/
def latex (t : MethodTable) : Table :=
  .of ["", "Time", "States", "Fraction", "Failures", "Success"] (rowsWithSections none t.rows)

end MethodTable

end CheckerTrials
