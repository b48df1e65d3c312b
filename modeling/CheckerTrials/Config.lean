import CheckerTrials.Catalogue.Benchmarks
import CheckerTrials.Files.Disk
import CheckerTrials.Json.Library
import CheckerTrials.Summary.Basic

/-!
# The configuration

A `Config` holds what trials are reckoned with: the greatest rewards and the known values of models, the
runtime that counts as timed out, and the words by which a log tells that memory ran out.  The defaults
come from the catalogue, and a file may replace any of them.

`SummaryOptions.ofConfig` takes from a configuration what a summary needs.
-/

set_option autoImplicit false

namespace CheckerTrials

/-- The words in a log that tell that memory ran out. -/
def defaultMarker : String := "OutOfMemoryError"

/-- What trials are reckoned with. -/
structure Config where
  /-- The greatest rewards of models. -/
  maxRewards : NameMap Float
  /-- The known values of models. -/
  trueValues : NameMap Float
  /-- The runtime from which on a group counts as timed out, in seconds. -/
  ceiling : Float
  /-- The words in a log that tell that memory ran out. -/
  marker : String

namespace Config

/-- The configuration that holds unless something else is said. -/
def default : Config where
  maxRewards := .ofList <| BenchmarkSet.all.flatMap fun set =>
    set.descriptors.filterMap fun d => d.model?.map fun model => (model, d.maxReward)
  trueValues := .ofList CheckerTrials.knownValues
  ceiling := Float.ofNat defaultCeilingSeconds
  marker := defaultMarker

/-- Why there is no configuration. -/
inductive ConfigError
  /-- The file cannot be read. -/
  | unreadable (cause : Cause)
  /-- The text of the file says no configuration. -/
  | invalid (e : Json.Error)
  deriving DecidableEq, Repr

/-- What is said when there is no configuration. -/
def ConfigError.message : ConfigError → String
  | .unreadable cause => "Unable to read configuration: " ++ cause.message
  | .invalid e => "Invalid configuration: " ++ e.message

/-- The fields of a configuration, all of which may be left out. -/
def fields : List (String × Json.Presence) := [
  ("max-rewards", .defaulted), ("true-values", .defaulted), ("timeout-ceiling-secs", .defaulted),
  ("memout-marker", .defaulted)]

open Json.Library

variable {V : Type} [Json.Library V]

/-- The configuration that a JSON value says. -/
def ofJson? (v : V) : Option Config :=
  match fields? fields v with
  | some [maxRewards, trueValues, ceiling, marker] => do
    return {
      maxRewards := ← orElse default.maxRewards (map float?) maxRewards
      trueValues := ← orElse default.trueValues (map float?) trueValues
      ceiling := ← orElse default.ceiling float? ceiling
      marker := ← orElse default.marker string? marker }
  | _ => none

/-- Reads a configuration from the text of a file. -/
def parse (s : String) : Except ConfigError Config :=
  (Json.decode ofJson? s).mapError .invalid

/-- Reads a configuration file. -/
def read (d : Disk) (p : Path) : Except ConfigError Config :=
  match d.readText p with
  | .error cause => .error (.unreadable cause)
  | .ok s => parse s

end Config

/-- How trials are summarised under a configuration: whether bounds are scaled, and whether the known
values are attached. -/
def SummaryOptions.ofConfig (config : Config) (grouping : Grouping) (scale compare : Bool) :
    SummaryOptions Float where
  grouping := grouping
  scaling := if scale then some config.maxRewards else none
  knownValues := if compare then some config.trueValues else none
  ceiling := config.ceiling

end CheckerTrials
