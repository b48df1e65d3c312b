import CheckerTrials.Trial.Status

/-!
# Flags of the checker

`Flags` are the options that are the same for every model of a plan.  Asking for both update methods
means running every model twice: `Flags.variants` are the flags of the single runs, and none of them
asks for both (`method_ne_both_of_mem_variants`).
-/

set_option autoImplicit false

namespace CheckerTrials

/-- What the checker may know about the model. -/
inductive InformationLevel
  | whitebox
  | blackbox
  | greybox
  deriving DecidableEq, Repr

/-- How the checker updates its bounds. -/
inductive UpdateMethod
  | blackbox
  | greybox
  /-- Every model is run once with each of the other methods. -/
  | both
  deriving DecidableEq, Repr

/-- How the checker simulates end components. -/
inductive EndComponents
  | standard
  | cheat
  | heuristic
  deriving DecidableEq, Repr

/-- How the checker distributes its error tolerance. -/
inductive Tolerance
  | pMin
  | maxSuccessors
  deriving DecidableEq, Repr

/-- The name of a level on the checker's command line. -/
def InformationLevel.name : InformationLevel → String
  | .whitebox => "WHITEBOX"
  | .blackbox => "BLACKBOX"
  | .greybox => "GREYBOX"

/-- The name of a method on the checker's command line. -/
def UpdateMethod.name : UpdateMethod → String
  | .blackbox => "BLACKBOX"
  | .greybox => "GREYBOX"
  | .both => "BOTH"

/-- The name of a simulation on the checker's command line. -/
def EndComponents.name : EndComponents → String
  | .standard => "STANDARD"
  | .cheat => "CHEAT"
  | .heuristic => "HEURISTIC"

/-- The name of a distribution on the checker's command line. -/
def Tolerance.name : Tolerance → String
  | .pMin => "P_MIN"
  | .maxSuccessors => "MAX_SUCCESSORS"

/-- All levels. -/
def InformationLevel.all : List InformationLevel := [.whitebox, .blackbox, .greybox]

/-- All methods. -/
def UpdateMethod.all : List UpdateMethod := [.blackbox, .greybox, .both]

/-- All simulations. -/
def EndComponents.all : List EndComponents := [.standard, .cheat, .heuristic]

/-- All distributions. -/
def Tolerance.all : List Tolerance := [.pMin, .maxSuccessors]

/-- The options that every run of a plan is given. -/
structure Flags where
  /-- What the checker may know about the model. -/
  level : InformationLevel
  /-- How bounds are updated. -/
  method : Option UpdateMethod
  /-- Whether results end with the missing probability instead of the number of states. -/
  errorProbability : Bool
  /-- How end components are simulated. -/
  endComponents : Option EndComponents
  /-- How the error tolerance is distributed. -/
  tolerance : Option Tolerance
  /-- Whether the models are continuous-time models. -/
  ctmdp : Bool
  deriving DecidableEq, Repr

namespace Flags

/-- The flags with nothing but a level. -/
def plain (level : InformationLevel) : Flags where
  level := level
  method := none
  errorProbability := false
  endComponents := none
  tolerance := none
  ctmdp := false

/-- The flags of the single runs: one for each of two update methods if both are asked for. -/
def variants (f : Flags) : List Flags :=
  match f.method with
  | some .both => [{ f with method := some .greybox }, { f with method := some .blackbox }]
  | _ => [f]

theorem method_ne_both_of_mem_variants {f v : Flags} (h : v ∈ f.variants) :
    v.method ≠ some .both := by
  unfold variants at h
  split at h
  · simp only [List.mem_cons, List.not_mem_nil, or_false] at h
    rcases h with rfl | rfl <;> simp
  · rename_i hf
    simp only [List.mem_singleton] at h
    subst h
    exact fun e => hf e

/-- What the last section of the results holds under these flags. -/
def trailing (f : Flags) : Trailing := if f.errorProbability then .missing else .states

/-- The arguments that say the flags to the checker. -/
def arguments (f : Flags) : List String :=
  ["--informationLevel", f.level.name]
    ++ (f.method.elim [] fun m => ["--updateMethod", m.name])
    ++ (if f.errorProbability then ["--getErrorProbability"] else [])
    ++ (f.endComponents.elim [] fun e => ["--simulateMec", e.name])
    ++ (f.tolerance.elim [] fun t => ["--deltaTMethod", t.name])
    ++ (if f.ctmdp then ["--ctmdp"] else [])

end Flags

end CheckerTrials
