import CheckerTrials.Catalogue.Families
import CheckerTrials.Decimal.Written
import CheckerTrials.Ordered.Sort
import CheckerTrials.Reachability.Outcome
import CheckerTrials.Report.Table
import CheckerTrials.Trial.Quantity

/-!
# Comparing the heuristics by family

The family table has a row for every family of models in a document.  A row says how large the models
are, how often the complete analysis failed, and for each heuristic which share of the states it needed
on average.  A heuristic that failed needed all of them.

Families come in the order of how much the heuristics save.  Those where they save nothing and every model
is a single component come last.

* `familiesOf` finds the family of every model of a document, or the first model without one; the plot of
  state counts starts from it too, and so the two fail on the same documents.
* `FamilyRow.of` collects what the instances of a family say, and `FamilyRow.compare` orders the rows.
-/

set_option autoImplicit false

namespace CheckerTrials

/-- Why a document cannot be compared by family. -/
inductive FamilyError
  /-- A model belongs to no family. -/
  | unknownModel (file : String)
  deriving DecidableEq, Repr

/-- What is said about a document that cannot be compared by family. -/
def FamilyError.message : FamilyError → String
  | .unknownModel file => "Model `" ++ file ++ "` belongs to no model group."

/-- The instances of every model of a document with the name of the model's family. -/
def familiesOf (d : Document) : Except FamilyError (List (String × List Instance)) :=
  d.entries.mapM fun (file, instances) =>
    match familyOf? file with
    | some name => .ok (name, instances)
    | none => .error (.unknownModel file)

/-! ## What the instances of a family say -/

/-- What an instance says about a heuristic. -/
inductive Saving
  /-- The heuristic failed, or it was not tried. -/
  | failed
  /-- The heuristic finished, but the number of all states is not known. -/
  | rescued
  /-- The heuristic needed this share of all states. -/
  | ratio (x : Float)
  deriving DecidableEq, Repr

/-- What an instance says about a heuristic. -/
def Instance.saving (i : Instance) (h : Heuristic) : Saving :=
  match i.results.unbounded? h, i.results.completeStates? with
  | none, _ => .failed
  | some _, none => .rescued
  | some e, some states => .ratio (Float.ofNat (e.coreStates.getD 0) / Float.ofNat states)

/-- The share that counts in the mean: a heuristic that failed needed all states. -/
def Saving.ratio? : Saving → Option Float
  | .failed => some 1
  | .rescued => none
  | .ratio x => some x

/-- What a row says about a heuristic. -/
structure HeuristicCell where
  /-- The heuristic. -/
  heuristic : Heuristic
  /-- The mean share of the states. -/
  meanRatio : Option Float
  /-- How often it failed or was not tried. -/
  failures : Nat
  /-- How often it finished where the number of all states is not known. -/
  successes : Nat
  deriving DecidableEq, Repr

/-- What instances say about a heuristic. -/
def HeuristicCell.of (instances : List Instance) (h : Heuristic) : HeuristicCell :=
  let savings := instances.map fun i => i.saving h
  { heuristic := h
    meanRatio := Quantity.mean? (savings.filterMap Saving.ratio?)
    failures := savings.countP fun s => s == .failed
    successes := savings.countP fun s => s == .rescued }

/-- The numbers of components that the complete analyses of instances report. -/
def componentCounts (instances : List Instance) : List Nat :=
  instances.filterMap fun i => do
    return (← (← (← i.results.complete).exploration?).components).count

/-- What a family says. -/
structure FamilyRow where
  /-- The name of the family. -/
  family : String
  /-- The number of instances. -/
  count : Nat
  /-- The mean number of all states. -/
  meanStates : Option Float
  /-- How often the complete analysis failed or is missing. -/
  failures : Nat
  /-- The mean number of components. -/
  meanComponents : Option Float
  /-- The greatest number of components. -/
  mostComponents : Option Nat
  /-- What the row says about each heuristic. -/
  heuristics : List HeuristicCell
  deriving DecidableEq, Repr

namespace FamilyRow

/-- The row of a family with the given instances. -/
def of (family : String) (instances : List Instance) : FamilyRow where
  family := family
  count := instances.length
  meanStates := Quantity.mean?
    ((instances.filterMap fun i => i.results.completeStates?).map Float.ofNat)
  failures := instances.countP fun i => (i.results.completeOr .generic).isFailure
  meanComponents := Quantity.mean? ((componentCounts instances).map Float.ofNat)
  mostComponents := (componentCounts instances).max?
  heuristics := Heuristic.all.map (HeuristicCell.of instances)

/-- The mean share over all heuristics; a heuristic without a share counts as one that needed all
states. -/
def meanRatio (r : FamilyRow) : Float :=
  (Quantity.mean? (r.heuristics.map fun c => c.meanRatio.getD 1)).getD 1

/-- Whether no heuristic saves anything and every model is a single component. -/
def isHopeless (r : FamilyRow) : Bool := 0.999 ≤ r.meanRatio && r.mostComponents == some 1

/-- Compares two rows by how much the heuristics save, hopeless ones last. -/
def compare (a b : FamilyRow) : Ordering :=
  ((Ord.compare a.isHopeless b.isHopeless).then
    (Decimal.totalOrder a.meanRatio b.meanRatio)).then (Ord.compare a.family b.family)

/-- The cells of a row. -/
def cells (r : FamilyRow) : List String :=
  [r.family, r.count.repr, orMissing (Decimal.fixed 0) r.meanStates, r.failures.repr,
      orMissing (Decimal.fixed 0) r.meanComponents]
    ++ r.heuristics.flatMap fun c =>
      [orMissing (fun x => Decimal.fixed 0 (x * 100)) c.meanRatio, c.successes.repr]

end FamilyRow

/-- The instances of a family. -/
def instancesOf (family : String) (models : List (String × List Instance)) : List Instance :=
  (models.filter fun p => p.1 == family).flatMap (·.2)

/-- One row for every family with instances, in the order of how much the heuristics save. -/
def familyTable (d : Document) : Except FamilyError (List FamilyRow) := do
  let models ← familiesOf d
  let rows := families.map fun f => FamilyRow.of f.name (instancesOf f.name models)
  return sortBy FamilyRow.compare (rows.filter fun r => 0 < r.count)

/-- The LaTeX table of rows. -/
def familyLatex (rows : List FamilyRow) : Table :=
  .of (["Model", "Count", "C States", "C Fail", "Comp"]
      ++ Heuristic.all.flatMap fun h => [h.latexName, ""])
    (rows.map FamilyRow.cells)

/-! ## The plot of state counts -/

/-- An instance in the plot: its number of states, the least number that a heuristic explored, and the
place of its family among those that are plotted. -/
structure StatePair where
  /-- The number of all states, infinite if the complete analysis does not tell it. -/
  complete : Float
  /-- The least number that a heuristic explored, infinite if none tells it. -/
  least : Float
  /-- The place of the family. -/
  index : Nat
  deriving DecidableEq, Repr

/-- A number of states, or infinity. -/
def statesOrInfinity : Option Nat → Float
  | some n => Float.ofNat n
  | none => Decimal.ofMagnitude false Decimal.infinityBits

/-- The states that the most frugal heuristic explored. -/
def Instance.leastExplored? (i : Instance) : Option Nat :=
  (Heuristic.all.filterMap fun h => (i.results.unbounded? h).bind Exploration.coreStates).min?

/-- An instance of the family at place `index`. -/
def StatePair.of (index : Nat) (i : Instance) : StatePair where
  complete := statesOrInfinity i.results.completeStates?
  least := statesOrInfinity i.leastExplored?
  index := index

/-- The instances of the given families for the plot. -/
def statePairs (d : Document) (plotted : List String) : Except FamilyError (List StatePair) := do
  let models ← familiesOf d
  return models.flatMap fun (family, instances) =>
    match plotted.idxOf? family with
    | some index => instances.map (StatePair.of index)
    | none => []

/-- A number of states in the plot's file. -/
def plotText (x : Float) : String :=
  match Decimal.parts x with
  | .infinite _ => "nan"
  | _ => Decimal.fixed 1 x

/-- A line of the plot's file. -/
def StatePair.line (p : StatePair) : String :=
  plotText p.complete ++ "," ++ plotText p.least ++ "," ++ p.index.repr ++ "\n"

/-- The plot's file. -/
def statePairsText (pairs : List StatePair) : String := String.join (pairs.map StatePair.line)

end CheckerTrials
