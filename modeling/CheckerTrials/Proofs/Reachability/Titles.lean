import CheckerTrials.Proofs.Decimal.Digits
import CheckerTrials.Proofs.Report.Tabular
import CheckerTrials.Reachability.MethodTable

/-!
# The titles in the method table

The method table has a row for each kind of experiment and a title in front of each part.  Every row has six cells,
as many as there are columns, but the first cell of a title spans all six of them already (`MethodTable.sectionRow`).
So a title is five columns too wide, and all other rows fit (`MethodTable.fitsButTitles`), whatever is in the
document.

Where the titles stand depends on the kinds only (`MethodTable.map_rowsWithSections`), and no cell of another row can
be taken for one that spans several columns: it has no letter `m`, or it is the name of a kind
(`MethodTable.isSingle_of_mem_cells`).
-/

set_option autoImplicit false

namespace CheckerTrials

open Tabular

namespace MethodTable

/-! ## Where the titles stand -/

/-- What the rows of some kinds are: the title of a part, or nothing for the row of a kind. -/
def titles (current : Option String) : List Kind → List (Option String)
  | [] => []
  | k :: rest =>
    match sectionOf? k with
    | some title =>
      if current = some title then none :: titles current rest else some title :: none :: titles (some title) rest
    | none => none :: titles current rest

/-- **The rows follow the titles.** -/
theorem map_rowsWithSections {α : Type} {f : List String → α} {a b : α} (hcells : ∀ r, f (cells r) = a)
    (hsection : ∀ title, f (sectionRow title) = b) (current : Option String) (rows : List MethodRow) :
    (rowsWithSections current rows).map f =
      (titles current (rows.map MethodRow.kind)).map fun title => if title.isSome then b else a := by
  induction rows generalizing current with
  | nil => rfl
  | cons r rest ih =>
    rw [rowsWithSections, List.map_cons, titles]
    cases hs : sectionOf? r.kind with
    | none => simp [hcells, ih]
    | some title =>
      by_cases hcurrent : current = some title
      · simp [hcurrent, hcells, ih]
      · simp [hcurrent, hcells, hsection, ih]

/-- A row is the row of a kind or the title of a part. -/
theorem mem_rowsWithSections {current : Option String} {rows : List MethodRow} {row : List String}
    (h : row ∈ rowsWithSections current rows) :
    (∃ r, row = cells r) ∨ ∃ k title, sectionOf? k = some title ∧ row = sectionRow title := by
  induction rows generalizing current with
  | nil => cases h
  | cons r rest ih =>
    rw [rowsWithSections] at h
    cases hs : sectionOf? r.kind with
    | none =>
      simp only [hs, List.mem_cons] at h
      exact h.elim (fun h => .inl ⟨r, h⟩) ih
    | some title =>
      simp only [hs] at h
      split at h
      · exact (List.mem_cons.1 h).elim (fun h => .inl ⟨r, h⟩) ih
      · rcases List.mem_cons.1 h with h | h
        · exact .inr ⟨r.kind, title, hs, h⟩
        · exact (List.mem_cons.1 h).elim (fun h => .inl ⟨r, h⟩) ih

/-! ## What is in the cells -/

/-- A cell of a table that spans one column and ends neither itself nor its line. -/
structure IsSingle (cell : String) : Prop where
  /-- It spans one column. -/
  span : span (padded cell) = 1
  /-- It does not end itself. -/
  ampersand : '&' ∉ cell.toList
  /-- It does not end its line. -/
  feed : '\n' ∉ cell.toList

/-- The characters of a cell with a number. -/
def isFigureChar (c : Char) : Bool := Decimal.isDigit c || ".-infNa \\%s".toList.contains c

theorem isFigureChar_of_isPlainChar {c : Char} (h : Decimal.IsPlainChar c) : isFigureChar c = true := by
  rcases h with h | h
  · rw [isFigureChar, h, Bool.true_or]
  · have hall : ".-infNa".toList.all isFigureChar = true := by decide
    exact List.all_eq_true.1 hall c h

theorem IsSingle.of_figures {cell : String} (h : ∀ c ∈ cell.toList, isFigureChar c = true) : IsSingle cell := by
  have hnot : ∀ c, isFigureChar c = false → c ∉ cell.toList := fun c hc hmem =>
    Bool.false_ne_true (hc.symm.trans (h c hmem))
  exact ⟨span_padded_eq_one (hnot 'm' (by decide)), hnot '&' (by decide), hnot '\n' (by decide)⟩

theorem isSingle_figures {unit : String} (hunit : unit.toList.all isFigureChar = true) (x : Float) :
    IsSingle (Decimal.fixed 0 x ++ unit) := by
  refine .of_figures fun c hc => ?_
  rw [String.toList_append] at hc
  rcases List.mem_append.1 hc with hc | hc
  · exact isFigureChar_of_isPlainChar (Decimal.mem_fixed hc)
  · exact List.all_eq_true.1 hunit c hc

theorem isSingle_percent (x : Float) : IsSingle (percent x) := isSingle_figures (by decide) (x * 100)

theorem isSingle_orMissing {text : Float → String} (h : ∀ x, IsSingle (text x)) (x : Option Float) :
    IsSingle (orMissing text x) := by
  cases x with
  | none =>
    have hmark : missingMark.toList.all isFigureChar = true := by decide
    exact .of_figures (List.all_eq_true.1 hmark)
  | some x => exact h x

theorem isSingle_kindCell (k : Kind) : IsSingle (kindCell k) := by
  have hname : ∀ h : Heuristic, IsSingle ("\\hspace\x7b1em\x7d " ++ h.latexName) := by
    intro h
    cases h <;> exact ⟨by decide, by decide, by decide⟩
  cases k with
  | complete => exact ⟨by decide, by decide, by decide⟩
  | unbounded h => exact hname h
  | bounded h steps => exact hname h

/-- **The cells of a row** span one column each. -/
theorem isSingle_of_mem_cells {r : MethodRow} {cell : String} (h : cell ∈ cells r) : IsSingle cell := by
  simp only [cells, List.mem_cons, List.not_mem_nil, or_false] at h
  obtain rfl | rfl | rfl | rfl | rfl | rfl := h
  · exact isSingle_kindCell r.kind
  · exact isSingle_orMissing (isSingle_figures (by decide)) r.meanTime
  · exact isSingle_orMissing (fun x => .of_figures fun c hc => isFigureChar_of_isPlainChar (Decimal.mem_fixed hc))
      r.meanStates
  · exact isSingle_orMissing isSingle_percent r.meanFraction
  · exact isSingle_percent r.failureRate
  · exact isSingle_percent r.successRate

/-! ## What is in the titles -/

theorem span_title (title : String) :
    span (padded ("\\multicolumn\x7b6\x7d\x7bl\x7d\x7b" ++ title ++ "\x7d")) = 6 := by
  have hcell : padded ("\\multicolumn\x7b6\x7d\x7bl\x7d\x7b" ++ title ++ "\x7d") =
      ' ' :: wideMark ++ ['6'] ++ '\x7d' :: ("\x7bl\x7d\x7b".toList ++ title.toList ++ "\x7d".toList ++ [' ']) := by
    rw [padded, String.toList_append, String.toList_append]
    rfl
  rw [hcell]
  exact span_wideMark (List.forall_mem_singleton.2 (by decide)) _

/-- **A title is five columns too wide**: it is over six columns, and five empty cells stand behind it. -/
theorem spanOfRow_sectionRow (title : String) : spanOfRow ((sectionRow title).map padded) = 11 := by
  have hempty : span (padded "") = 1 := by decide
  rw [sectionRow, spanOfRow, List.map_map, List.map_cons, List.map_replicate, List.sum_cons, Function.comp_apply,
    Function.comp_apply, span_title, hempty]
  rfl

theorem not_mem_of_sectionOf? {k : Kind} {title : String} (h : sectionOf? k = some title) :
    '&' ∉ title.toList ∧ '\n' ∉ title.toList := by
  cases k with
  | complete => cases h
  | unbounded _ =>
    obtain rfl : "Unbounded" = title := Option.some.inj h
    decide
  | bounded _ steps =>
    obtain rfl : "Bounded " ++ steps.repr = title := Option.some.inj h
    have hdigits : ∀ c, Decimal.isDigit c = false → c ∉ steps.repr.toList := fun c hc hmem =>
      Bool.false_ne_true (hc ▸ Decimal.isDigit_of_mem_repr hmem)
    have hword : '&' ∉ "Bounded ".toList ∧ '\n' ∉ "Bounded ".toList := by decide
    rw [String.toList_append, List.mem_append, List.mem_append]
    exact ⟨not_or.2 ⟨hword.1, hdigits '&' (by decide)⟩, not_or.2 ⟨hword.2, hdigits '\n' (by decide)⟩⟩

theorem not_mem_sectionRow {title cell : String} (htitle : '&' ∉ title.toList ∧ '\n' ∉ title.toList)
    (h : cell ∈ sectionRow title) : '&' ∉ cell.toList ∧ '\n' ∉ cell.toList := by
  rcases List.mem_cons.1 h with rfl | h
  · have hbefore : '&' ∉ "\\multicolumn\x7b6\x7d\x7bl\x7d\x7b".toList ∧
        '\n' ∉ "\\multicolumn\x7b6\x7d\x7bl\x7d\x7b".toList := by decide
    have hafter : '&' ∉ "\x7d".toList ∧ '\n' ∉ "\x7d".toList := by decide
    simp only [String.toList_append, List.mem_append, not_or]
    exact ⟨⟨⟨hbefore.1, htitle.1⟩, hafter.1⟩, ⟨hbefore.2, htitle.2⟩, hafter.2⟩
  · obtain rfl := List.eq_of_mem_replicate h
    decide

/-! ## The whole table -/

theorem length_of_mem_latex {t : MethodTable} {row : List String} (h : row ∈ t.latex.header :: t.latex.rows) :
    row.length = 6 := by
  rcases List.mem_cons.1 h with rfl | h
  · rfl
  · obtain ⟨r, rfl⟩ | ⟨k, title, -, rfl⟩ := mem_rowsWithSections h
    · rfl
    · rfl

theorem keepsApart_latex (t : MethodTable) : KeepsApart t.latex where
  ne_nil row hrow := by
    rintro rfl
    cases length_of_mem_latex hrow
  cell row hrow cell hcell := by
    rcases List.mem_cons.1 hrow with rfl | hrow
    · revert cell
      show ∀ cell ∈ ["", "Time", "States", "Fraction", "Failures", "Success"], _
      decide
    · obtain ⟨r, rfl⟩ | ⟨k, title, hk, rfl⟩ := mem_rowsWithSections hrow
      · exact ⟨(isSingle_of_mem_cells hcell).ampersand, (isSingle_of_mem_cells hcell).feed⟩
      · exact not_mem_sectionRow (not_mem_of_sectionOf? hk) hcell
  columns := by
    have hnot : ∀ c : Char, c ≠ 'l' → c ≠ 'r' → c ∉ t.latex.columns.toList := fun _ hl hr =>
      Table.not_mem_columns_of _ _ hl hr
    exact ⟨hnot '\x7d' (by decide) (by decide), hnot '\n' (by decide) (by decide)⟩

theorem declared?_latex (t : MethodTable) : declared? t.latex.render = some 6 := by
  have hwidth : t.latex.width = 6 := Table.width_eq fun row => length_of_mem_latex
  have hpositive : 0 < t.latex.width := hwidth ▸ Nat.zero_lt_succ 5
  have hlength : t.latex.columns.length = 6 := (Table.length_columns_of hpositive).trans hwidth
  rw [declared?_render (keepsApart_latex t), hlength]

theorem spanOfRow_header (t : MethodTable) : spanOfRow (t.latex.header.map padded) = 6 := by
  show spanOfRow (["", "Time", "States", "Fraction", "Failures", "Success"].map padded) = 6
  decide

theorem spanOfRow_cells (r : MethodRow) : spanOfRow ((cells r).map padded) = 6 :=
  spanOfRow_padded fun _ hcell => (isSingle_of_mem_cells hcell).span

theorem spans_latex (d : Document) : (Tabular.rows (of d).latex.render).map spanOfRow =
    6 :: (titles none Kind.all).map fun title => if title.isSome then 11 else 6 := by
  rw [rows_render (keepsApart_latex _), List.map_map, List.map_cons, ← map_kind_rows d]
  refine congrArg₂ List.cons (spanOfRow_header _) ?_
  exact map_rowsWithSections (f := fun cells => spanOfRow (cells.map padded)) spanOfRow_cells spanOfRow_sectionRow
    none _

/-- How the rows in the text of a method table stand to its columns. -/
structure FitsButTitles (text : String) : Prop where
  /-- Six columns are declared. -/
  declared : declared? text = some 6
  /-- The header and the row of the complete analysis span six columns, and so do the five rows in each of the five
  parts; but the title in front of each part spans eleven. -/
  spans : (Tabular.rows text).map spanOfRow = 6 :: 6 :: (List.replicate 5 [11, 6, 6, 6, 6, 6]).flatten
  /-- A row that does not fit is a cell over all six columns and five empty cells behind it. -/
  wide : ∀ row ∈ Tabular.rows text, spanOfRow row ≠ 6 →
    ∃ title, span title = 6 ∧ row = title :: List.replicate 5 [' ', ' ']

/-- **All rows fit but the titles**, in the method table of every document. -/
theorem fitsButTitles (d : Document) : FitsButTitles (of d).latex.render where
  declared := declared?_latex (of d)
  spans := by
    rw [spans_latex]
    decide
  wide := by
    intro row hrow hwide
    rw [rows_render (keepsApart_latex _)] at hrow
    obtain ⟨row, hmem, rfl⟩ := List.mem_map.1 hrow
    rcases List.mem_cons.1 hmem with rfl | hmem
    · exact absurd (spanOfRow_header _) hwide
    · obtain ⟨r, rfl⟩ | ⟨k, title, -, rfl⟩ := mem_rowsWithSections hmem
      · exact absurd (spanOfRow_cells r) hwide
      · exact ⟨_, span_title title, rfl⟩

/-- **A title does not fit**, not even in a table without instances. -/
theorem not_every_row_fits : ¬ ∀ d : Document, ∀ row ∈ Tabular.rows (of d).latex.render,
    declared? (of d).latex.render = some (spanOfRow row) := by
  intro h
  have hall : ∀ n ∈ (Tabular.rows (of .empty).latex.render).map spanOfRow, some 6 = some n := by
    intro n hn
    obtain ⟨row, hrow, rfl⟩ := List.mem_map.1 hn
    rw [← declared?_latex (of .empty)]
    exact h .empty row hrow
  rw [spans_latex] at hall
  exact absurd hall (by decide)

end MethodTable

end CheckerTrials
