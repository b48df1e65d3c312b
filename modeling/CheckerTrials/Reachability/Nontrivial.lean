import CheckerTrials.Reachability.Outcome

/-!
# Instances worth comparing

Exploring an instance partially can only pay if its complete analysis finished and found more than one
component that holds all states.  `Document.nontrivial` keeps these instances, and the models that have
one of them.
-/

set_option autoImplicit false

namespace CheckerTrials

/-- Whether a complete analysis found a single component that holds as many states as it tells. -/
def Exploration.isOneComponent (e : Exploration) : Bool :=
  match e.components with
  | some c => c.count == 1 && c.averageSize == e.states.map Float.ofNat
  | none => false

/-- Whether the complete analysis of an instance finished and found more than one component. -/
def Instance.isNontrivial (i : Instance) : Bool :=
  match i.results.complete with
  | some (.done e) => !e.isOneComponent
  | _ => false

/-- The instances of a document that are worth comparing. -/
def Document.nontrivial (d : Document) : Document :=
  d.filterMapValues fun _ instances =>
    let kept := instances.filter Instance.isNontrivial
    if kept.isEmpty then none else some kept

end CheckerTrials
