import CheckerTrials.Json.Decode
import CheckerTrials.Trial.Basic

/-!
# Trials in JSON

Trials, and the tags of how they end, as they are exchanged in JSON.
-/

set_option autoImplicit false

namespace CheckerTrials

open Json (Library Presence)
open Json.Library

variable {V : Type} [Library V]

/-- The tag of a status, which is not always its name in reports. -/
def Status.tag : Status → String
  | .generic => "generic-error"
  | s => s.name

/-- The status whose tag a JSON value is. -/
def Status.ofJson? (v : V) : Option Status := named all tag v

/-- The tag of what the last section of a result holds. -/
def Trailing.tag : Trailing → String
  | .states => "states-explored"
  | .missing => "missing-probability"

/-- What the last section of a result holds, from its tag. -/
def Trailing.ofJson? (v : V) : Option Trailing := named all tag v

namespace Trial

/-- The fields of a trial. -/
def fields : List (String × Presence) := [
  ("model_name", .required), ("config_axis", .optional), ("times", .required),
  ("lower_bounds", .required), ("upper_bounds", .required), ("states_explored", .optional),
  ("missing_probability", .optional), ("status", .required), ("iteration_number", .required)]

/-- The trial that a JSON value says. -/
def ofJson? (v : V) : Option (Trial Float) :=
  match fields? fields v with
  | some [model, axis, times, lower, upper, states, missing, status, iteration] => do
    return {
      model := ← required string? model
      axis := ← orElse none (optional string?) axis
      times := ← required (list float?) times
      lower := ← required (list float?) lower
      upper := ← required (list float?) upper
      states := ← orElse none (optional count?) states
      missing := ← orElse none (optional float?) missing
      status := ← required Status.ofJson? status
      iteration := ← required count? iteration }
  | _ => none

/-- The JSON value of a trial. -/
def toJson (t : Trial Float) : V := ofMembers [
  ("model_name", ofString t.model),
  ("config_axis", ofOption ofString t.axis),
  ("times", ofList ofFloat t.times),
  ("lower_bounds", ofList ofFloat t.lower),
  ("upper_bounds", ofList ofFloat t.upper),
  ("states_explored", ofOption ofCount t.states),
  ("missing_probability", ofOption ofFloat t.missing),
  ("status", ofString t.status.tag),
  ("iteration_number", ofCount t.iteration)]

end Trial

end CheckerTrials
