/-!
# Exploration heuristics

The reachability benchmarks analyse every instance once completely and then partially, with each of
five heuristics that choose what to explore next.  `Heuristic.ofName?` reads the name of a heuristic
exactly as `Heuristic.name` writes it (`ofName?_name`, `name_of_ofName?`).
-/

set_option autoImplicit false

namespace CheckerTrials

/-- A way to choose what to explore next. -/
inductive Heuristic
  | weighted
  | prob
  | difference
  | graphWeighted
  | graphDifference
  deriving DecidableEq, Repr

namespace Heuristic

/-- All heuristics, in the order of the tables. -/
def all : List Heuristic := [.weighted, .prob, .difference, .graphWeighted, .graphDifference]

theorem mem_all (h : Heuristic) : h ∈ all := by
  cases h <;> decide

/-- The name of a heuristic in setup lines and documents. -/
def name : Heuristic → String
  | .weighted => "WEIGHTED"
  | .prob => "PROB"
  | .difference => "DIFFERENCE"
  | .graphWeighted => "GRAPH_WEIGHTED"
  | .graphDifference => "GRAPH_DIFFERENCE"

/-- The short name of a heuristic in LaTeX tables. -/
def latexName : Heuristic → String
  | .weighted => "\\texttt\x7bW\x7d"
  | .prob => "\\texttt\x7bP\x7d"
  | .difference => "\\texttt\x7bD\x7d"
  | .graphWeighted => "\\texttt\x7bGW\x7d"
  | .graphDifference => "\\texttt\x7bGD\x7d"

/-- The heuristic of a name. -/
def ofName? (s : String) : Option Heuristic := all.find? fun h => h.name == s

theorem ofName?_name (h : Heuristic) : ofName? h.name = some h := by
  cases h <;> decide

theorem name_of_ofName? {s : String} {h : Heuristic} (e : ofName? s = some h) : h.name = s := by
  simpa [ofName?] using List.find?_some e

/-- What is said about a name of no heuristic. -/
def unknownMessage (s : String) : String := "Unknown heuristic `" ++ s ++ "`."

end Heuristic

/-- The step bounds of the bounded experiments. -/
def stepBounds : List Nat := [10, 100, 200, 500]

end CheckerTrials
