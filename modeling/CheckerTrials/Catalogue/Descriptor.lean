import CheckerTrials.Decimal.Written
import CheckerTrials.Trial.ModelPath

/-!
# Descriptors

A descriptor is what the checker needs to know to analyse one model: the file, the greatest reward,
the least transition probability, and whatever else a model asks for.  `Descriptor.arguments` are the
arguments that say it to the checker.
-/

set_option autoImplicit false

namespace CheckerTrials

/-- The parameters of one model. -/
structure Descriptor where
  /-- The path of the model file. -/
  path : String
  /-- The greatest reward in the model. -/
  maxReward : Float
  /-- A lower bound of the probabilities of transitions. -/
  pMin : Float
  /-- Values of undefined constants. -/
  constants : Option String
  /-- The reward structure to analyse. -/
  rewardModule : Option String
  /-- Further arguments, passed on as they are. -/
  extra : List String
  deriving DecidableEq

namespace Descriptor

/-- A descriptor without anything optional. -/
def plain (path : String) (maxReward pMin : Float) : Descriptor where
  path := path
  maxReward := maxReward
  pMin := pMin
  constants := none
  rewardModule := none
  extra := []

/-- The name of the model, as the checker's command line will tell it. -/
def model? (d : Descriptor) : Option String := modelName? d.path

/-- What is said about a descriptor whose path names no model file. -/
def malformedMessage (d : Descriptor) : String := "Descriptor `" ++ d.path ++ "` names no model file."

/-- The mode of the checker that all trials use. -/
def mode : String := "meanPayoff"

/-- An option with a value, if there is one. -/
def optionArguments (name : String) : Option String → List String
  | some value => [name, value]
  | none => []

/-- The arguments that describe the model to the checker. -/
def arguments (d : Descriptor) : List String :=
  [mode, "-m", d.path, "--maxReward", Decimal.plain d.maxReward, "--pMin", Decimal.plain d.pMin]
    ++ optionArguments "--const" d.constants ++ optionArguments "--rewardModule" d.rewardModule
    ++ d.extra

end Descriptor

end CheckerTrials
