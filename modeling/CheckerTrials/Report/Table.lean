/-!
# LaTeX tables

A `Table` is what a `tabular` environment shows: a header and rows of cells.  Cells are written as
they are.  Unless the alignment is given, the first column is set to the left and all others to the
right, and there are as many of them as the longest row has cells.
-/

set_option autoImplicit false

namespace CheckerTrials

/-- The content of a cell whose value does not exist. -/
def missingMark : String := "---"

/-- The text of a value, or the mark of a missing one. -/
def orMissing {α : Type} (text : α → String) : Option α → String
  | some a => text a
  | none => missingMark

/-- A `tabular` environment with a header row. -/
structure Table where
  /-- The cells of the header. -/
  header : List String
  /-- The cells of the rows. -/
  rows : List (List String)
  /-- The alignment of the columns, or nothing for the usual one. -/
  alignment : String
  deriving DecidableEq, Repr

namespace Table

/-- A table with the usual alignment. -/
def of (header : List String) (rows : List (List String)) : Table where
  header := header
  rows := rows
  alignment := ""

/-- The number of cells of the longest row, the header among them. -/
def width (t : Table) : Nat :=
  (t.rows.map List.length).foldl max t.header.length

/-- The alignment of the columns. -/
def columns (t : Table) : String :=
  if t.alignment.isEmpty then String.ofList ('l' :: List.replicate (t.width - 1) 'r')
  else t.alignment

/-- A row of cells. -/
def rowText (cells : List String) : String := " " ++ " & ".intercalate cells ++ " \\\\\n"

/-- The text of a table. -/
def render (t : Table) : String :=
  "\\begin\x7btabular\x7d\x7b" ++ t.columns ++ "\x7d\n\\hline\n" ++ rowText t.header ++ "\\hline\n"
    ++ String.join (t.rows.map rowText) ++ "\\hline\n\\end\x7btabular\x7d\n"

end Table

end CheckerTrials
