import CheckerTrials.Decimal.Natural
import CheckerTrials.Proofs.Text.Words
import CheckerTrials.Report.Table
import Mathlib.Algebra.GroupWithZero.Nat
import Mathlib.Data.List.Basic

/-!
# Reading a LaTeX table

What LaTeX makes of a `tabular` environment depends on two numbers: how many columns it declares, and how many
columns each of its rows spans.  A row is a line that ends with two backslashes, its cells stand between ampersands,
and a cell spans one column unless it begins with `\multicolumn`, which says how many.

A table is written by `Table.render`, which knows nothing of such cells.  Whatever is written can be read back: the
rows that are found in the text are the header and the rows of the table, each cell with a space at both sides
(`Tabular.rows_render`), and the columns are those of the table (`Tabular.declared?_render`), provided that no cell
holds an ampersand or a line feed of its own (`Tabular.KeepsApart`).
-/

set_option autoImplicit false

namespace CheckerTrials

namespace Tabular

/-! ## The reader -/

/-- What every table begins with. -/
def mark : List Char := "\\begin\x7btabular\x7d\x7b".toList

/-- What a cell over several columns begins with. -/
def wideMark : List Char := "\\multicolumn\x7b".toList

/-- The number of columns that a cell spans. -/
def span (cell : List Char) : Nat :=
  match wideMark.isPrefixOf? (Text.trimStart cell) with
  | some rest => Decimal.valueOf (rest.takeWhile Decimal.isDigit)
  | none => 1

/-- The number of columns that a row spans. -/
def spanOfRow (cells : List (List Char)) : Nat := (cells.map span).sum

/-- The cells of a line, if it is a row. -/
def row? (line : List Char) : Option (List (List Char)) :=
  match line.reverse with
  | '\\' :: '\\' :: cells => some (Text.splitOn '&' cells.reverse)
  | _ => none

/-- The rows of a table. -/
def rows (text : String) : List (List (List Char)) := (Text.splitOn '\n' text.toList).filterMap row?

/-- The number of columns that a table declares: one for each letter of its alignment. -/
def declared? (text : String) : Option Nat :=
  (mark.isPrefixOf? text.toList).map fun rest => (rest.takeWhile (· ≠ '\x7d')).length

example : span " \\multicolumn\x7b6\x7d\x7bl\x7d\x7bBounded 10\x7d ".toList = 6 := by decide

/-! ## Reading what was written -/

/-- A cell as it is written. -/
def padded (cell : String) : List Char := ' ' :: cell.toList ++ [' ']

/-- A row as it is written, without the end of the line. -/
def line (cells : List String) : List Char := ['&'].intercalate (cells.map padded) ++ ['\\', '\\']

theorem row?_line {cells : List String} (hne : cells ≠ []) (h : ∀ cell ∈ cells, '&' ∉ cell.toList) :
    row? (line cells) = some (cells.map padded) := by
  have hcut : Text.splitOn '&' (['&'].intercalate (cells.map padded)) = cells.map padded := by
    refine Text.splitOn_intercalate (by simpa using hne) fun piece hpiece => ?_
    obtain ⟨cell, hcell, rfl⟩ := List.mem_map.1 hpiece
    simpa [padded] using h cell hcell
  rw [row?, line, List.reverse_append]
  show some (Text.splitOn '&' (List.reverse (List.reverse _))) = _
  rw [List.reverse_reverse, hcut]

/-- A line that ends with another character is no row. -/
theorem row?_concat {c : Char} (s : List Char) (h : c ≠ '\\') : row? (s ++ [c]) = none := by
  rw [row?, List.reverse_append, List.reverse_singleton, List.singleton_append]
  split
  · rename_i heq
    exact absurd (List.cons.inj heq).1 h
  · rfl

theorem intercalate_padded (first : String) (rest : List String) :
    ' ' :: [' ', '&', ' '].intercalate ((first :: rest).map String.toList) ++ [' '] =
      ['&'].intercalate ((first :: rest).map padded) := by
  induction rest generalizing first with
  | nil => simp [padded]
  | cons second rest ih =>
    have hrest := ih second
    simp only [List.map_cons] at hrest ⊢
    rw [List.intercalate_cons_cons, List.intercalate_cons_cons, ← hrest]
    simp [padded]

theorem toList_rowText {cells : List String} (hne : cells ≠ []) :
    (Table.rowText cells).toList = line cells ++ ['\n'] := by
  cases cells with
  | nil => exact absurd rfl hne
  | cons first rest =>
    rw [Table.rowText, line, ← intercalate_padded]
    simp

/-- The line that opens a table. -/
def opening (t : Table) : List Char := mark ++ t.columns.toList ++ ['\x7d']

/-- The line that closes a table. -/
def closing : List Char := "\\end\x7btabular\x7d".toList

/-- A line that LaTeX draws. -/
def rule : List Char := "\\hline".toList

/-- The lines of a table. -/
def lines (t : Table) : List (List Char) :=
  opening t :: rule :: line t.header :: rule :: t.rows.map line ++ [rule, closing]

theorem toList_render {t : Table} (h : ∀ cells ∈ t.header :: t.rows, cells ≠ []) :
    t.render.toList = (lines t).flatMap fun line => line ++ ['\n'] := by
  have hrows : (String.join (t.rows.map Table.rowText)).toList =
      (t.rows.map line).flatMap fun line => line ++ ['\n'] := by
    rw [String.toList_join, List.flatMap_map, List.flatMap_map]
    exact List.flatMap_congr fun cells hcells => toList_rowText (h cells (List.mem_cons_of_mem _ hcells))
  have hmark : "\\begin\x7btabular\x7d\x7b".toList = mark := rfl
  have hopening : "\x7d\n\\hline\n".toList = '\x7d' :: '\n' :: (rule ++ ['\n']) := by decide
  have hrule : "\\hline\n".toList = rule ++ ['\n'] := by decide
  have hclosing : "\\hline\n\\end\x7btabular\x7d\n".toList = rule ++ '\n' :: (closing ++ ['\n']) := by decide
  unfold Table.render
  simp only [String.toList_append, toList_rowText (h t.header List.mem_cons_self), hrows, hmark, hopening,
    hrule, hclosing]
  unfold lines opening
  simp only [List.flatMap_cons, List.flatMap_append, List.flatMap_nil, List.append_assoc, List.cons_append,
    List.nil_append]

/-! ## Tables that keep their cells apart -/

/-- Every row of a table has cells, and neither they nor the columns hold what would end them. -/
structure KeepsApart (t : Table) : Prop where
  /-- No row is without cells, nor is the header. -/
  ne_nil : ∀ cells ∈ t.header :: t.rows, cells ≠ []
  /-- No cell ends itself or its line. -/
  cell : ∀ cells ∈ t.header :: t.rows, ∀ cell ∈ cells, '&' ∉ cell.toList ∧ '\n' ∉ cell.toList
  /-- The columns end neither themselves nor their line. -/
  columns : '\x7d' ∉ t.columns.toList ∧ '\n' ∉ t.columns.toList

variable {t : Table}

theorem KeepsApart.not_mem_lines (h : KeepsApart t) : ∀ l ∈ lines t, '\n' ∉ l := by
  have hrow : ∀ cells ∈ t.header :: t.rows, '\n' ∉ line cells := by
    intro cells hcells
    have hjoined : '\n' ∉ ['&'].intercalate (cells.map padded) := by
      refine Text.not_mem_intercalate (by decide) fun piece hpiece => ?_
      obtain ⟨cell, hcell, rfl⟩ := List.mem_map.1 hpiece
      simpa [padded] using (h.cell cells hcells cell hcell).2
    simpa [line] using hjoined
  have hopening : '\n' ∉ opening t := by
    have hmark : '\n' ∉ mark := by decide
    simpa [opening, hmark] using h.columns.2
  have hrule : '\n' ∉ rule := by decide
  have hclosing : '\n' ∉ closing := by decide
  intro l hl
  simp only [lines, List.mem_append, List.mem_cons, List.mem_map, List.not_mem_nil, or_false] at hl
  obtain (rfl | rfl | rfl | rfl | ⟨cells, hcells, rfl⟩) | rfl | rfl := hl
  · exact hopening
  · exact hrule
  · exact hrow t.header List.mem_cons_self
  · exact hrule
  · exact hrow cells (List.mem_cons_of_mem _ hcells)
  · exact hrule
  · exact hclosing

/-- **The rows of a table are read back** from its text. -/
theorem rows_render (h : KeepsApart t) : rows t.render = (t.header :: t.rows).map fun cells => cells.map padded := by
  have hrow : ∀ cells ∈ t.header :: t.rows, row? (line cells) = some (cells.map padded) := fun cells hcells =>
    row?_line (h.ne_nil cells hcells) fun cell hcell => (h.cell cells hcells cell hcell).1
  have hrows : (t.rows.map line).filterMap row? = t.rows.map fun cells => cells.map padded := by
    rw [List.filterMap_map, ← List.filterMap_eq_map]
    exact List.filterMap_congr fun cells hcells => hrow cells (List.mem_cons_of_mem _ hcells)
  have hopening : row? (opening t) = none := row?_concat _ (by decide)
  have hrule : row? rule = none := by decide
  have hclosing : row? closing = none := by decide
  have hempty : row? [] = none := rfl
  rw [rows, toList_render h.ne_nil, Text.splitOn_lines h.not_mem_lines, lines]
  simp only [List.filterMap_append, List.filterMap_cons, List.filterMap_nil, hopening, hrule, hclosing, hempty,
    hrow t.header List.mem_cons_self, hrows, List.cons_append, List.append_nil, List.map_cons]

/-- **The columns of a table are read back** from its text. -/
theorem declared?_render (h : KeepsApart t) : declared? t.render = some t.columns.length := by
  obtain ⟨rest, hrest⟩ : ∃ rest, t.render.toList = mark ++ (t.columns.toList ++ '\x7d' :: rest) := by
    rw [toList_render h.ne_nil, lines]
    simp only [List.cons_append, List.flatMap_cons, opening, List.append_assoc, List.nil_append]
    exact ⟨_, rfl⟩
  have hall : ∀ c ∈ t.columns.toList, decide (c ≠ '\x7d') = true := fun c hc =>
    decide_eq_true fun heq => h.columns.1 (heq ▸ hc)
  have hstop : ('\x7d' :: rest).takeWhile (fun c => decide (c ≠ '\x7d')) = [] := by simp
  rw [declared?, hrest, List.isPrefixOf?_eq_some_iff_append_eq.2 rfl, Option.map_some,
    List.takeWhile_append_of_pos hall, hstop, List.append_nil, String.length_toList]

/-! ## The columns that are spanned -/

/-- A cell spans one column if a letter is missing that it would need to span several. -/
theorem span_padded_eq_one {cell : String} (h : 'm' ∉ cell.toList) : span (padded cell) = 1 := by
  rw [span]
  split
  · rename_i rest heq
    rw [List.isPrefixOf?_eq_some_iff_append_eq] at heq
    have hmark : 'm' ∈ wideMark := by decide
    have hstart : 'm' ∈ Text.trimStart (padded cell) := heq ▸ List.mem_append_left rest hmark
    have hcell : 'm' ∈ padded cell := (List.dropWhile_sublist Text.isBlank).subset hstart
    simp [padded, h] at hcell
  · rfl

theorem span_wideMark {digits : List Char} (h : ∀ c ∈ digits, Decimal.isDigit c = true) (rest : List Char) :
    span (' ' :: wideMark ++ digits ++ '\x7d' :: rest) = Decimal.valueOf digits := by
  have hstart : Text.trimStart (' ' :: wideMark ++ digits ++ '\x7d' :: rest) =
      wideMark ++ (digits ++ '\x7d' :: rest) := by
    rw [← List.append_assoc]
    rfl
  have hstop : ('\x7d' :: rest).takeWhile Decimal.isDigit = [] := List.takeWhile_cons_of_neg (by decide)
  rw [span, hstart, List.isPrefixOf?_eq_some_iff_append_eq.2 rfl]
  dsimp only
  rw [List.takeWhile_append_of_pos h, hstop, List.append_nil]

/-- A row spans as many columns as it has cells if none of them spans several. -/
theorem spanOfRow_padded {cells : List String} (h : ∀ cell ∈ cells, span (padded cell) = 1) :
    spanOfRow (cells.map padded) = cells.length := by
  have hones : (cells.map padded).map span = cells.map fun _ => 1 := by
    rw [List.map_map]
    exact List.map_congr_left h
  rw [spanOfRow, hones]
  simp

end Tabular

namespace Table

/-- A table whose rows have one length is as wide. -/
theorem width_eq {t : Table} {n : Nat} (h : ∀ cells ∈ t.header :: t.rows, cells.length = n) : t.width = n := by
  have hfold : ∀ rows : List (List String), (∀ cells ∈ rows, cells.length = n) →
      (rows.map List.length).foldl max n = n := by
    intro rows hrows
    induction rows with
    | nil => rfl
    | cons cells rest ih =>
      rw [List.map_cons, List.foldl_cons, hrows cells List.mem_cons_self, Nat.max_self]
      exact ih fun cells hcells => hrows cells (List.mem_cons_of_mem _ hcells)
  rw [width, h t.header List.mem_cons_self]
  exact hfold t.rows fun cells hcells => h cells (List.mem_cons_of_mem _ hcells)

theorem toList_columns_of (header : List String) (rows : List (List String)) :
    (Table.of header rows).columns.toList = 'l' :: List.replicate ((Table.of header rows).width - 1) 'r' :=
  String.toList_ofList

theorem length_columns_of {header : List String} {rows : List (List String)} (h : 0 < (Table.of header rows).width) :
    (Table.of header rows).columns.length = (Table.of header rows).width := by
  rw [← String.length_toList, toList_columns_of, List.length_cons, List.length_replicate, Nat.sub_add_cancel h]

/-- The usual columns end neither themselves nor their line. -/
theorem not_mem_columns_of (header : List String) (rows : List (List String)) {c : Char} (hl : c ≠ 'l') (hr : c ≠ 'r') :
    c ∉ (Table.of header rows).columns.toList := by
  rw [toList_columns_of, List.mem_cons, List.mem_replicate]
  simp [hl, hr]

end Table

end CheckerTrials
