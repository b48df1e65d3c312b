import CheckerTrials.Decimal.Written
import CheckerTrials.Reachability.Outcome
import CheckerTrials.Report.Table
import CheckerTrials.Trial.Quantity

/-!
# Comparing the heuristics

The heuristics are compared on the instances that all of them finished with a number of states: on these
the mean and the standard deviation of the explored states are told for each heuristic.
-/

set_option autoImplicit false

namespace CheckerTrials

/-- The mean and the deviation of the states that a heuristic explored. -/
structure HeuristicStats where
  /-- The heuristic. -/
  heuristic : Heuristic
  /-- The mean. -/
  mean : Option Float
  /-- The standard deviation of a sample. -/
  deviation : Option Float
  deriving DecidableEq, Repr

/-- The standard deviation of a sample of at least two. -/
def sampleDeviation? (xs : List Float) : Option Float :=
  if xs.length < 2 then none
  else
    let mean : Float := Quantity.mean xs
    let squares := xs.map fun x => (x - mean) * (x - mean)
    some (Quantity.total squares / Float.ofNat (xs.length - 1)).sqrt

/-- The states that a heuristic explored on an instance. -/
def Instance.exploredBy? (i : Instance) (h : Heuristic) : Option Nat := do
  (← i.results.unbounded? h).coreStates

/-- Whether all heuristics finished an instance with a number of states. -/
def Instance.isExploredByAll (i : Instance) : Bool :=
  Heuristic.all.all fun h => (i.exploredBy? h).isSome

/-- Compares the heuristics on the instances of a document that all of them finished. -/
def heuristicStats (d : Document) : List HeuristicStats :=
  let instances := d.instances.filter Instance.isExploredByAll
  Heuristic.all.map fun h =>
    let states := (instances.filterMap fun i => i.exploredBy? h).map Float.ofNat
    { heuristic := h, mean := Quantity.mean? states, deviation := sampleDeviation? states }

/-- The line of a heuristic in the comparison. -/
def HeuristicStats.line (s : HeuristicStats) : String :=
  s.heuristic.name ++ ", " ++ orMissing (Decimal.fixed 0) s.mean ++ ", "
    ++ orMissing (Decimal.fixed 0) s.deviation ++ "\n"

/-- The text of a comparison, with the number of all instances at its end. -/
def comparisonText (stats : List HeuristicStats) (total : Nat) : String :=
  String.join (stats.map HeuristicStats.line) ++ "Total instance count " ++ total.repr ++ "\n"

end CheckerTrials
