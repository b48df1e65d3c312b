import CheckerTrials.Catalogue.Heuristic
import CheckerTrials.Decimal.Natural
import CheckerTrials.Text.Blank

/-!
# Kinds of experiments

An instance is analysed completely, with a heuristic and no bound, or with a heuristic and a bound on
the number of steps.  Which of these an experiment was is said by its setup line, fields between
commas; fields after those that are needed are ignored, and so are blanks around fields.

* `Kind.parse` reads a setup line and `Kind.setup` writes one.
-/

set_option autoImplicit false

namespace CheckerTrials

/-- What an experiment computed. -/
inductive Kind
  /-- The whole model. -/
  | complete
  /-- What a heuristic explored. -/
  | unbounded (h : Heuristic)
  /-- What a heuristic explored within a number of steps. -/
  | bounded (h : Heuristic) (steps : Nat)
  deriving DecidableEq, Repr

/-- Why a setup line says no kind. -/
inductive SetupError
  /-- The field of the heuristic holds no name of one. -/
  | unknownHeuristic (name : String)
  /-- The fields fit no kind, or the number of steps is none. -/
  | malformed (setup : String)
  deriving DecidableEq, Repr

/-- What is said about a setup line that says no kind. -/
def SetupError.message : SetupError → String
  | .unknownHeuristic name => Heuristic.unknownMessage name
  | .malformed setup => "Malformed experiment setup `" ++ setup ++ "`."

namespace Kind

/-- The setup line of a kind. -/
def setup : Kind → String
  | .complete => "complete"
  | .unbounded h => "unbounded," ++ h.name
  | .bounded h steps => "bounded," ++ h.name ++ "," ++ steps.repr

/-- Reads the field of the heuristic. -/
def heuristicField (field : List Char) : Except SetupError Heuristic :=
  match Heuristic.ofName? (String.ofList field) with
  | some h => .ok h
  | none => .error (.unknownHeuristic (String.ofList field))

/-- The fields of a setup line. -/
def fields (line : List Char) : List (List Char) :=
  (Text.splitOn ',' (Text.trim line)).map Text.trim

/-- The kind that the fields of a setup line say; `line` is what is shown when they say none. -/
def ofFields (line : List Char) : List (List Char) → Except SetupError Kind
  | [] => .error (.malformed (String.ofList line))
  | first :: rest =>
    match String.ofList first, rest with
    | "complete", _ => .ok .complete
    | "unbounded", heuristic :: _ => (heuristicField heuristic).map .unbounded
    | "bounded", heuristic :: steps :: _ =>
      match heuristicField heuristic with
      | .error e => .error e
      | .ok h =>
        match Decimal.natural? steps with
        | some n => .ok (.bounded h n)
        | none => .error (.malformed (String.ofList line))
    | _, _ => .error (.malformed (String.ofList line))

/-- Reads a setup line. -/
def parse (line : String) : Except SetupError Kind :=
  ofFields (Text.trim line.toList) (fields line.toList)

end Kind

end CheckerTrials
