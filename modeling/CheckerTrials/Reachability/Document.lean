import CheckerTrials.Files.Disk
import CheckerTrials.Json.Library
import CheckerTrials.Reachability.Outcome

/-!
# The results document

Outcomes are kept in a JSON document: an object of models, each with the array of its instances.  A
failed experiment is a tag, a finished one an object, and what is not known is left out.

* `Document.parse` reads a document and `Document.text` writes one, both with a library.
* `Outcome.ofJson?` reads an outcome, which is a tag or else an object.
-/

set_option autoImplicit false

namespace CheckerTrials

open Json (Library Presence)
open Json.Library

variable {V : Type} [Library V]

/-! ## Reading -/

/-- The components that a JSON value says. -/
def Components.ofJson? (v : V) : Option Components :=
  match fields? [("count", .required), ("average-size", .defaulted)] v with
  | some [count, averageSize] => do
    return {
      count := ← required count? count
      averageSize := ← orElse none (optional float?) averageSize }
  | _ => none

/-- The fields of a finished experiment. -/
def Exploration.fields : List (String × Presence) := [
  ("time", .required), ("states", .defaulted), ("explored-states", .defaulted),
  ("components", .defaulted)]

/-- The report of a finished experiment that a JSON value says. -/
def Exploration.ofJson? (v : V) : Option Exploration :=
  match fields? fields v with
  | some [time, states, exploredStates, components] => do
    return {
      time := ← required float? time
      states := ← orElse none (optional count?) states
      exploredStates := ← orElse none (optional count?) exploredStates
      components := ← orElse none (optional Components.ofJson?) components }
  | _ => none

/-- The failure whose tag a JSON value is. -/
def Failure.ofJson? (v : V) : Option Failure := named Failure.all Failure.name v

/-- The outcome that a JSON value says, which stands inside `outside` arrays and objects. -/
def Outcome.ofJson? (outside : Nat) (v : V) : Option Outcome :=
  firstOf outside [fun v => (Failure.ofJson? v).map Outcome.failed, fun v => (Exploration.ofJson? v).map Outcome.done] v

/-- The fields of the results of an instance. -/
def Results.fields : List (String × Presence) := [
  ("complete", .defaulted), ("unbounded", .defaulted), ("bounded", .defaulted)]

/-- The results that a JSON value says. -/
def Results.ofJson? (v : V) : Option Results :=
  match fields? fields v with
  | some [complete, unbounded, bounded] => do
    return {
      complete := ← orElse none (optional (Outcome.ofJson? 4)) complete
      unbounded := ← orElse ∅ (map (Outcome.ofJson? 5)) unbounded
      bounded := ← orElse ∅ (map (map (Outcome.ofJson? 6))) bounded }
  | _ => none

/-- The instance that a JSON value says. -/
def Instance.ofJson? (v : V) : Option Instance :=
  match fields? [("constants", .required), ("results", .required)] v with
  | some [constants, results] => do
    return {
      constants := ← required string? constants
      results := ← required Results.ofJson? results }
  | _ => none

/-- Why there is no document. -/
inductive DocumentError
  /-- The file cannot be read. -/
  | unreadable (p : Path) (cause : Cause)
  /-- The text of the file is no document. -/
  | invalid (e : Json.Error)
  deriving DecidableEq, Repr

/-- What is said when there is no document. -/
def DocumentError.message : DocumentError → String
  | .unreadable p cause => "Unable to read " ++ p.text ++ ": " ++ cause.message
  | .invalid e => "Invalid results document: " ++ e.message

/-! ## Writing -/

/-- The JSON value of components. -/
def Components.toJson (c : Components) : V :=
  ofMembers (("count", ofCount c.count) :: memberOf "average-size" ofFloat c.averageSize)

/-- The JSON value of a report. -/
def Exploration.toJson (e : Exploration) : V :=
  ofMembers <| ("time", ofFloat e.time) :: memberOf "states" ofCount e.states
    ++ memberOf "explored-states" ofCount e.exploredStates
    ++ memberOf "components" Components.toJson e.components

/-- The JSON value of an outcome. -/
def Outcome.toJson : Outcome → V
  | .failed f => ofString f.name
  | .done e => e.toJson

/-- The JSON value of results. -/
def Results.toJson (r : Results) : V :=
  ofMembers <| memberOf "complete" Outcome.toJson r.complete
    ++ [("unbounded", ofMap Outcome.toJson r.unbounded),
      ("bounded", ofMap (ofMap Outcome.toJson) r.bounded)]

/-- The JSON value of an instance. -/
def Instance.toJson (i : Instance) : V :=
  ofMembers [("constants", ofString i.constants), ("results", i.results.toJson)]

namespace Document

/-- The document that a JSON value says. -/
def ofJson? (v : V) : Option Document := map (list Instance.ofJson?) v

/-- The JSON value of a document. -/
def toJson (d : Document) : V := ofMap (ofList Instance.toJson) d

/-- Reads a document from a text. -/
def parse (s : String) : Except DocumentError Document :=
  (Json.decode ofJson? s).mapError .invalid

/-- Reads a document from a file. -/
def read (d : Disk) (p : Path) : Except DocumentError Document :=
  match d.readText p with
  | .error cause => .error (.unreadable p cause)
  | .ok s => parse s

/-- The text of a document. -/
def text (d : Document) : String := Library.text (toJson d)

end Document

end CheckerTrials
