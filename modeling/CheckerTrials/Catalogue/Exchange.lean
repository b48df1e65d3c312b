import CheckerTrials.Catalogue.Benchmarks
import CheckerTrials.Json.Decode

/-!
# The catalogue in JSON

Descriptors and the names of benchmark sets as they are exchanged in JSON.
-/

set_option autoImplicit false

namespace CheckerTrials

open Json (Library Presence)
open Json.Library

variable {V : Type} [Library V]

namespace Descriptor

/-- The fields of a descriptor. -/
def fields : List (String × Presence) := [
  ("model-path", .required), ("max-reward", .required), ("p-min", .required),
  ("constants", .defaulted), ("reward-module", .defaulted), ("extra", .defaulted)]

/-- The descriptor that a JSON value says. -/
def ofJson? (v : V) : Option Descriptor :=
  match fields? fields v with
  | some [path, maxReward, pMin, constants, rewardModule, extra] => do
    return {
      path := ← required string? path
      maxReward := ← required float? maxReward
      pMin := ← required float? pMin
      constants := ← orElse none (optional string?) constants
      rewardModule := ← orElse none (optional string?) rewardModule
      extra := ← orElse [] (list string?) extra }
  | _ => none

/-- The JSON value of a descriptor. -/
def toJson (d : Descriptor) : V := ofMembers [
  ("model-path", ofString d.path),
  ("max-reward", ofFloat d.maxReward),
  ("p-min", ofFloat d.pMin),
  ("constants", ofOption ofString d.constants),
  ("reward-module", ofOption ofString d.rewardModule),
  ("extra", ofList ofString d.extra)]

end Descriptor

/-- The benchmark set whose tag a JSON value is. -/
def BenchmarkSet.ofJson? (v : V) : Option BenchmarkSet := named all name v

end CheckerTrials
