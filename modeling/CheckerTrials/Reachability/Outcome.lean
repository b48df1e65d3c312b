import CheckerTrials.Ordered.Map
import CheckerTrials.Reachability.Kind
import CheckerTrials.Trial.Status

/-!
# Outcomes and instances

An instance is a model under one choice of its constants.  It is analysed completely and with every
heuristic, and what came of each of these experiments is an `Outcome`.  An instance need not have an
outcome for every kind of experiment.

* `Results.get?` finds the outcome of a kind and `Results.insert` puts it there; each kind has a place
  of its own (`get?_insert_self`).
-/

set_option autoImplicit false

namespace CheckerTrials

/-- The components of a model. -/
structure Components where
  /-- How many there are. -/
  count : Nat
  /-- How many states they have on average. -/
  averageSize : Option Float
  deriving DecidableEq, Repr

/-- What a finished experiment reports. -/
structure Exploration where
  /-- How long it took, in seconds. -/
  time : Float
  /-- The number of states. -/
  states : Option Nat
  /-- The number of explored states, if it is told separately. -/
  exploredStates : Option Nat
  /-- The components of the model. -/
  components : Option Components
  deriving DecidableEq, Repr

/-- The number of explored states, or of all states where nothing else is told. -/
def Exploration.coreStates (e : Exploration) : Option Nat := e.exploredStates.or e.states

/-- What came of an experiment. -/
inductive Outcome
  /-- It failed. -/
  | failed (f : Failure)
  /-- It finished. -/
  | done (e : Exploration)
  deriving DecidableEq, Repr

namespace Outcome

/-- What a finished experiment reports. -/
def exploration? : Outcome → Option Exploration
  | .failed _ => none
  | .done e => some e

/-- How an experiment ended. -/
def status : Outcome → Status
  | .failed f => f.status
  | .done _ => .success

/-- Whether an experiment failed. -/
def isFailure (o : Outcome) : Bool := o.exploration?.isNone

end Outcome

/-- What came of the experiments on an instance. -/
structure Results where
  /-- The complete analysis. -/
  complete : Option Outcome
  /-- The analyses without a bound, by heuristic. -/
  unbounded : NameMap Outcome
  /-- The analyses with a bound, by the number of steps and by heuristic. -/
  bounded : NameMap (NameMap Outcome)
  deriving DecidableEq

namespace Results

/-- No experiments. -/
def empty : Results := ⟨none, ∅, ∅⟩

/-- What came of an experiment of some kind. -/
def get? (r : Results) : Kind → Option Outcome
  | .complete => r.complete
  | .unbounded h => r.unbounded.get? h.name
  | .bounded h steps => (r.bounded.get? steps.repr).bind fun outcomes => outcomes.get? h.name

/-- The results with `o` as what came of the experiment of kind `k`. -/
def insert (r : Results) (k : Kind) (o : Outcome) : Results :=
  match k with
  | .complete => { r with complete := some o }
  | .unbounded h => { r with unbounded := r.unbounded.insert h.name o }
  | .bounded h steps =>
    let outcomes := (r.bounded.get? steps.repr).getD ∅
    { r with bounded := r.bounded.insert steps.repr (outcomes.insert h.name o) }

/-- What was put in is found. -/
theorem get?_insert_self (r : Results) (k : Kind) (o : Outcome) : (r.insert k o).get? k = some o := by
  cases k <;> simp [insert, get?, OrderedMap.get?_insert_self]

/-- What came of the complete analysis; if there was none, it counts as failed in the given way. -/
def completeOr (r : Results) (missing : Failure) : Outcome := r.complete.getD (.failed missing)

/-- The number of all states, if the complete analysis finished and tells it. -/
def completeStates? (r : Results) : Option Nat := do (← (← r.complete).exploration?).states

/-- What a finished analysis with a heuristic and no bound reports. -/
def unbounded? (r : Results) (h : Heuristic) : Option Exploration := do
  (← r.get? (.unbounded h)).exploration?

end Results

/-- A model under one choice of its constants. -/
structure Instance where
  /-- The constants. -/
  constants : String
  /-- What came of the experiments. -/
  results : Results
  deriving DecidableEq

/-- The instances of every model, by the names of the model files. -/
abbrev Document := NameMap (List Instance)

/-- All instances of a document, in the order of the models. -/
def Document.instances (d : Document) : List Instance := d.values.flatten

end CheckerTrials
