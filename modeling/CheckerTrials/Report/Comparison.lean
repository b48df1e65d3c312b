import CheckerTrials.Decimal.Written
import CheckerTrials.Note
import CheckerTrials.Report.Table
import CheckerTrials.Summary.Basic

/-!
# Comparing columns of summaries

A comparison table puts several lists of summaries beside each other, one row per group.  It is written
as CSV or as a LaTeX table from the same cells.

* `ComparisonTable.of` builds a table.  If a column has two summaries of one group the later one counts,
  and that is noted.
* `Csv.quoted` is a field of a CSV file: between quotes, with every quote in it doubled.
-/

set_option autoImplicit false

namespace CheckerTrials

/-! ## CSV -/

namespace Csv

/-- A field between quotes. -/
def quoted (field : List Char) : List Char :=
  '"' :: (field.flatMap fun c => if c = '"' then ['"', '"'] else [c]) ++ ['"']

/-- A record with its fields between commas. -/
def record (fields : List String) : List Char :=
  [','].intercalate (fields.map fun field => quoted field.toList) ++ ['\n']

end Csv

/-! ## Tables -/

/-- Several columns of summaries, one row per group. -/
structure ComparisonTable where
  /-- The labels of the columns. -/
  labels : List String
  /-- The summaries of each group, one place for every column. -/
  groups : OrderedMap GroupKey (List (Option (Summary Float)))

namespace ComparisonTable

/-- The rows of a table that is being built. -/
abbrev Rows := OrderedMap GroupKey (List (Option (Summary Float)))

/-- Puts a summary into a column of a table with `width` columns. -/
def put (width position : Nat) (rows : Rows) (s : Summary Float) : Noted Rows := do
  let places := (rows.get? s.key).getD (List.replicate width none)
  if (places[position]?.join).isSome then
    Noted.warn s!"Duplicate summary of {s.key.text} in column {position}."
  return rows.insert s.key (places.set position (some s))

/-- Builds the table of columns with their labels. -/
def of (columns : List (String × List (Summary Float))) : Noted ComparisonTable := do
  let rows ← columns.zipIdx.foldlM (fun rows ((_, summaries), position) =>
    summaries.foldlM (put columns.length position) rows) (OrderedMap.empty : Rows)
  return ⟨columns.map (·.1), rows⟩

/-- The header of a table: four columns for every label. -/
def header (t : ComparisonTable) : List String :=
  "Benchmarks" :: t.labels.flatMap fun label =>
    [label ++ " states explored", label ++ " lower bound", label ++ " upper bound", "Time(s)"]

/-- The cells of a summary. -/
def cells : Option (Summary Float) → List String
  | none => List.replicate 4 missingMark
  | some s => [
      orMissing Decimal.rounded s.states,
      Decimal.rounded s.lower,
      Decimal.rounded s.upper,
      s.runtime.text Decimal.rounded]

/-- The rows of a table, in the order of the groups. -/
def rows (t : ComparisonTable) : List (List String) :=
  t.groups.entries.map fun (k, summaries) => k.text :: summaries.flatMap cells

theorem length_cells (s : Option (Summary Float)) : (cells s).length = 4 := by
  cases s <;> rfl

/-- The table as a CSV file. -/
def csv (t : ComparisonTable) : String :=
  String.ofList ((t.header :: t.rows).flatMap Csv.record)

/-- The table in LaTeX. -/
def latex (t : ComparisonTable) : Table := .of t.header t.rows

end ComparisonTable

end CheckerTrials
