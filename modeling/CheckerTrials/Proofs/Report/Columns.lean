import CheckerTrials.Proofs.Ordered.Keys
import CheckerTrials.Proofs.Summary.Accounts
import CheckerTrials.Proofs.Trial.ModelNames
import CheckerTrials.Report.Comparison

/-!
# What a comparison table shows

A comparison table is built column by column and summary by summary, and a row is begun when its group is first met.
What is in the table on the way is `Filled`: each group met so far has a row, with its summaries at the places of the
columns that are done.  Putting in one more summary keeps it so (`Filled.put`), and therefore a whole column and all
of them do (`Filled.append`, `Filled.append_all`).

So a finished table shows every summary at the place of its column in the row of its group, and marks everywhere else
(`shows_of`).  Its rows can be told apart by their labels, because a model that was read has no blank in its name
(`GroupKey.eq_of_text_eq`).
-/

set_option autoImplicit false

namespace CheckerTrials
namespace ComparisonTable

/-- A label with the summaries under it. -/
abbrev Column := String × List (Summary Float)

/-- The summary of a group in a column; of several the last one counts. -/
def Column.summary? (c : Column) (k : GroupKey) : Option (Summary Float) :=
  c.2.reverse.find? fun s => s.key = k

/-- The groups of a column. -/
def Column.keys (c : Column) : List GroupKey := c.2.map Summary.key

/-- The places of a group in a table with `width` columns, of which the first ones are filled. -/
def placesIn (width : Nat) (columns : List Column) (k : GroupKey) : List (Option (Summary Float)) :=
  columns.map (fun c => c.summary? k) ++ List.replicate (width - columns.length) none

theorem summary?_append_singleton (label : String) (summaries : List (Summary Float)) (s : Summary Float)
    (k : GroupKey) : Column.summary? (label, summaries ++ [s]) k =
      if s.key = k then some s else Column.summary? (label, summaries) k := by
  rw [Column.summary?, List.reverse_append, List.reverse_singleton, List.singleton_append, List.find?_cons]
  split
  · rename_i h
    rw [if_pos (of_decide_eq_true h)]
  · rename_i h
    rw [if_neg (of_decide_eq_false h)]
    rfl

theorem keys_append_singleton (label : String) (summaries : List (Summary Float)) (s : Summary Float) :
    Column.keys (label, summaries ++ [s]) = Column.keys (label, summaries) ++ [s.key] :=
  List.map_append

theorem mem_keys_of_summary? {c : Column} {k : GroupKey} (h : (c.summary? k).isSome = true) : k ∈ c.keys := by
  obtain ⟨s, hs⟩ := Option.isSome_iff_exists.1 h
  have hmem := List.mem_reverse.1 (List.mem_of_find?_eq_some hs)
  have hkey : s.key = k := by simpa using List.find?_some hs
  exact hkey ▸ List.mem_map_of_mem hmem

/-! ## Putting in one summary -/

variable {width : Nat} {columns : List Column} {table : Noted Rows}

theorem value_put (width position : Nat) (rows : Rows) (s : Summary Float) :
    (put width position rows s).value =
      rows.insert s.key (((rows.get? s.key).getD (List.replicate width none)).set position (some s)) := by
  rw [put]
  dsimp only
  split <;> rfl

theorem notes_put {width position : Nat} {rows : Rows} {s : Summary Float}
    (h : ((rows.get? s.key).getD (List.replicate width none))[position]?.join = none) :
    (put width position rows s).notes = [] := by
  rw [put]
  dsimp only
  rw [h]
  rfl

theorem getElem?_placesIn (label : String) (summaries : List (Summary Float)) (k : GroupKey) :
    (placesIn width (columns ++ [(label, summaries)]) k)[columns.length]?.join =
      Column.summary? (label, summaries) k := by
  rw [placesIn, List.map_append, List.append_assoc, List.getElem?_append_right (by simp), List.length_map,
    Nat.sub_self]
  rfl

theorem set_placesIn (label : String) (summaries : List (Summary Float)) (s : Summary Float) :
    (placesIn width (columns ++ [(label, summaries)]) s.key).set columns.length (some s) =
      placesIn width (columns ++ [(label, summaries ++ [s])]) s.key := by
  rw [placesIn, placesIn, List.map_append, List.map_append, List.append_assoc, List.append_assoc,
    List.set_append_right _ _ (by simp), List.length_map, Nat.sub_self, List.length_append, List.length_append]
  simp [summary?_append_singleton]

/-- What is in a table that is being built when some columns have been put in. -/
structure Filled (width : Nat) (columns : List Column) (table : Noted Rows) : Prop where
  /-- A group has a row if it has a summary in one of the columns. -/
  isSome_iff : ∀ k, (table.value.get? k).isSome = true ↔ ∃ c ∈ columns, k ∈ c.keys
  /-- Each place holds the summary of the group in its column. -/
  places : ∀ k, (table.value.get? k).getD (List.replicate width none) = placesIn width columns k
  /-- Nothing is noted if no column has two summaries of a group. -/
  quiet : (∀ c ∈ columns, c.keys.Nodup) → table.notes = []

/-- **Putting one more summary into the last column.** -/
theorem Filled.put {label : String} {summaries : List (Summary Float)}
    (h : Filled width (columns ++ [(label, summaries)]) table) (s : Summary Float) :
    Filled width (columns ++ [(label, summaries ++ [s])])
      (table >>= fun rows => ComparisonTable.put width columns.length rows s) := by
  have hvalue : (table >>= fun rows => ComparisonTable.put width columns.length rows s).value =
      table.value.insert s.key (placesIn width (columns ++ [(label, summaries ++ [s])]) s.key) := by
    rw [Noted.value_bind, value_put, h.places, set_placesIn]
  refine ⟨fun k => ?_, fun k => ?_, fun hnodup => ?_⟩
  · have hold := h.isSome_iff k
    simp only [List.mem_append, List.mem_singleton, or_and_right, exists_or, exists_eq_left] at hold ⊢
    rw [hvalue, OrderedMap.get?_insert, keys_append_singleton, List.mem_append, List.mem_singleton, ← or_assoc, ← hold]
    split
    · rename_i hk
      simp [hk]
    · rename_i hk
      rw [or_iff_left hk]
  · rw [hvalue, OrderedMap.get?_insert]
    split
    · rename_i hk
      rw [hk]
      rfl
    · rename_i hk
      rw [h.places, placesIn, placesIn]
      simp [summary?_append_singleton, Ne.symm hk]
  · have hlast : (Column.keys (label, summaries) ++ [s.key]).Nodup := by
      rw [← keys_append_singleton]
      exact hnodup _ (List.mem_append_right columns (List.mem_singleton_self _))
    obtain ⟨hbefore, -, hnew⟩ := List.nodup_append.1 hlast
    have hold : ∀ c ∈ columns ++ [(label, summaries)], c.keys.Nodup := by
      intro c hc
      rcases List.mem_append.1 hc with hc | hc
      · exact hnodup c (List.mem_append_left _ hc)
      · rwa [List.mem_singleton.1 hc]
    rw [Noted.notes_bind, h.quiet hold, List.nil_append]
    refine notes_put ?_
    rw [h.places, getElem?_placesIn, ← Option.not_isSome_iff_eq_none]
    exact fun hsome => hnew s.key (mem_keys_of_summary? hsome) s.key (List.mem_singleton_self _) rfl

/-! ## Putting in all summaries -/

/-- No column is filled in a table without rows. -/
theorem filled_empty (width : Nat) : Filled width [] (pure OrderedMap.empty) where
  isSome_iff k := by simp
  places k := by simp [placesIn]
  quiet _ := rfl

/-- A column without summaries fills no place. -/
theorem Filled.append_nil (h : Filled width columns table) (hwidth : columns.length < width) (label : String) :
    Filled width (columns ++ [(label, [])]) table where
  isSome_iff k := by
    rw [h.isSome_iff]
    simp [Column.keys]
  places k := by
    obtain ⟨more, rfl⟩ := Nat.exists_eq_add_of_lt hwidth
    have hmore : columns.length + more + 1 - columns.length = more + 1 := by omega
    have hrest : columns.length + more + 1 - (columns.length + 1) = more := by omega
    rw [h.places, placesIn, placesIn, hmore, List.replicate_succ, List.map_append, List.length_append,
      List.length_singleton, hrest, List.append_assoc]
    rfl
  quiet hnodup := h.quiet fun c hc => hnodup c (List.mem_append_left _ hc)

/-- **A whole column** is put in, one summary after the other. -/
theorem Filled.append (h : Filled width columns table) (hwidth : columns.length < width) (c : Column) :
    Filled width (columns ++ [c])
      (table >>= fun rows => c.2.foldlM (ComparisonTable.put width columns.length) rows) := by
  obtain ⟨label, summaries⟩ := c
  induction summaries using List.reverseRecOn with
  | nil => simpa only [List.foldlM_nil, bind_pure] using h.append_nil hwidth label
  | append_singleton summaries s ih =>
    have hstep := ih.put s
    rw [bind_assoc] at hstep
    simpa only [List.foldlM_append, List.foldlM_cons, List.foldlM_nil, bind_pure] using hstep

/-- **All columns** are put in, one after the other. -/
theorem Filled.append_all {rest : List Column} (h : Filled width columns table)
    (hwidth : columns.length + rest.length ≤ width) :
    Filled width (columns ++ rest) (table >>= fun rows =>
      (rest.zipIdx columns.length).foldlM (fun rows e => e.1.2.foldlM (ComparisonTable.put width e.2) rows) rows) := by
  induction rest generalizing columns table with
  | nil => simpa using h
  | cons c rest ih =>
    rw [List.length_cons] at hwidth
    have hrest := ih (h.append (by omega) c) (by rw [List.length_append, List.length_singleton]; omega)
    rw [List.append_assoc, List.length_append, bind_assoc] at hrest
    exact hrest

/-- **The table of columns** has all of them in it. -/
theorem filled_of (columns : List Column) :
    Filled columns.length columns ((fun t => t.groups) <$> of columns) := by
  have hall : Filled columns.length ([] ++ columns) _ := (filled_empty columns.length).append_all (by simp)
  rw [List.nil_append, pure_bind] at hall
  rw [of]
  simpa using hall

/-! ## The rows of the table -/

/-- The row of a group: its cells in every column, one after the other. -/
def rowOf (columns : List Column) (k : GroupKey) : List String :=
  k.text :: columns.flatMap fun c => cells (c.summary? k)

theorem get?_groups (columns : List Column) (k : GroupKey) :
    (of columns).value.groups.get? k =
      if ∃ c ∈ columns, k ∈ c.keys then some (columns.map fun c => c.summary? k) else none := by
  have hfilled := filled_of columns
  have hplaces := hfilled.places k
  have hsome := hfilled.isSome_iff k
  rw [Noted.value_map] at hplaces hsome
  rw [placesIn, Nat.sub_self, List.replicate_zero, List.append_nil] at hplaces
  split
  · rename_i hk
    obtain ⟨places, hget⟩ := Option.isSome_iff_exists.1 (hsome.2 hk)
    rw [hget, Option.getD_some] at hplaces
    rw [hget, hplaces]
  · rename_i hk
    exact Option.not_isSome_iff_eq_none.1 (mt hsome.1 hk)

theorem mem_keys_groups {k : GroupKey} :
    k ∈ (of columns).value.groups.keys ↔ ∃ c ∈ columns, k ∈ c.keys := by
  rw [← not_iff_not, ← OrderedMap.get?_eq_none_iff, get?_groups]
  simp

theorem rows_of (columns : List Column) :
    (of columns).value.rows = (of columns).value.groups.keys.map (rowOf columns) := by
  rw [rows, OrderedMap.keys, List.map_map]
  refine List.map_congr_left fun entry hentry => ?_
  obtain ⟨k, summaries⟩ := entry
  have hget := OrderedMap.get?_eq_some_iff.2 hentry
  rw [get?_groups, if_pos (mem_keys_groups.1 (List.mem_map_of_mem hentry)), Option.some.injEq] at hget
  change k.text :: summaries.flatMap cells = rowOf columns k
  rw [← hget, rowOf, List.flatMap_map]

theorem length_flatMap_of_length {α β : Type} {f : α → List β} {n : Nat} (hf : ∀ a, (f a).length = n)
    (xs : List α) : (xs.flatMap f).length = n * xs.length := by
  rw [List.length_flatMap, List.map_congr_left fun a _ => hf a, List.map_const', List.sum_replicate_nat,
    Nat.mul_comm]

/-- A piece of a list that is put together from pieces of one length. -/
theorem take_drop_flatMap {α β : Type} {f : α → List β} {n : Nat} (hf : ∀ a, (f a).length = n) {xs : List α}
    {p : Nat} (hp : p < xs.length) : ((xs.flatMap f).drop (n * p)).take n = f xs[p] := by
  induction xs generalizing p with
  | nil => cases hp
  | cons x rest ih =>
    cases p with
    | zero => rw [Nat.mul_zero, List.drop_zero, List.flatMap_cons, ← hf x, List.take_left, List.getElem_cons_zero]
    | succ p =>
      rw [List.flatMap_cons, Nat.mul_succ, Nat.add_comm, ← List.drop_drop, ← hf x, List.drop_left, hf x,
        ih (Nat.lt_of_succ_lt_succ hp), List.getElem_cons_succ]

theorem length_rowOf (columns : List Column) (k : GroupKey) : (rowOf columns k).length = 1 + 4 * columns.length := by
  rw [rowOf, List.length_cons, length_flatMap_of_length fun c => length_cells (Column.summary? c k), Nat.add_comm]

/-- The cells of a column stand at its place in the row. -/
theorem cells_rowOf {p : Nat} (hp : p < columns.length) (k : GroupKey) :
    ((rowOf columns k).drop (1 + 4 * p)).take 4 = cells (columns[p].summary? k) := by
  rw [rowOf, Nat.add_comm, List.drop_succ_cons]
  exact take_drop_flatMap (fun c => length_cells (Column.summary? c k)) hp

theorem length_header (columns : List Column) :
    (of columns).value.header.length = 1 + 4 * columns.length := by
  have hlabels : (of columns).value.labels = columns.map (·.1) := rfl
  rw [header, List.length_cons, length_flatMap_of_length (n := 4), hlabels, List.length_map, Nat.add_comm]
  intro label
  rfl

/-- The only summary of a group in a column is the one that counts. -/
theorem summary?_eq_some {c : Column} (hnodup : c.keys.Nodup) {s : Summary Float} (hs : s ∈ c.2) :
    c.summary? s.key = some s := by
  obtain ⟨t, ht⟩ : ∃ t, c.summary? s.key = some t :=
    Option.isSome_iff_exists.1 (List.find?_isSome.2 ⟨s, List.mem_reverse.2 hs, by simp⟩)
  have hmem := List.mem_reverse.1 (List.mem_of_find?_eq_some ht)
  have hkey : t.key = s.key := by simpa using List.find?_some ht
  rw [ht, List.inj_on_of_nodup_map hnodup hmem hs hkey]

/-- A table with rows as long as its header has that many columns. -/
theorem columns_of_length {header : List String} {rows : List (List String)}
    (h : ∀ row ∈ rows, row.length = header.length) :
    (Table.of header rows).columns = String.ofList ('l' :: List.replicate (header.length - 1) 'r') := by
  have hwidth : (Table.of header rows).width = header.length := by
    rw [Table.width]
    change (rows.map List.length).foldl max header.length = header.length
    induction rows with
    | nil => rfl
    | cons row rest ih =>
      rw [List.map_cons, List.foldl_cons, h row List.mem_cons_self, Nat.max_self]
      exact ih fun row hrow => h row (List.mem_cons_of_mem _ hrow)
  rw [Table.columns, hwidth]
  rfl

end ComparisonTable

/-! ## The labels of the rows -/

/-- Whether a group is one of trials that were read from a disk. -/
def GroupKey.IsLoaded (k : GroupKey) : Prop :=
  ∃ (d : Disk) (root : Path) (options : LoadOptions) (trials : List (Trial Float)),
    (loadResults d root options).value = .ok trials ∧ ∃ t ∈ trials, ∃ grouping, k = .of grouping t

/-- The model of a group that was read has no blank in its name. -/
theorem GroupKey.IsLoaded.space_not_mem {k : GroupKey} (h : k.IsLoaded) : ' ' ∉ k.model.toList := by
  obtain ⟨d, root, options, trials, hload, t, ht, grouping, rfl⟩ := h
  intro hspace
  have hblank := (isModelName_of_loadResults hload ht).blank ' ' hspace
  exact absurd hblank (by decide)

theorem GroupKey.toList_text (k : GroupKey) : k.text.toList =
    k.model.toList ++ k.axis.elim [] fun axis => ' ' :: '[' :: (axis.toList ++ [']']) := by
  rw [text]
  cases k.axis <;> simp

/-- The first blank of a label is the one behind the model. -/
theorem GroupKey.takeWhile_text {k : GroupKey} (h : ' ' ∉ k.model.toList) :
    k.text.toList.takeWhile (fun c => c ≠ ' ') = k.model.toList := by
  have hmodel : ∀ c ∈ k.model.toList, decide (c ≠ ' ') = true := by
    intro c hc
    rw [decide_eq_true_iff]
    rintro rfl
    exact h hc
  rw [toList_text, List.takeWhile_append_of_pos hmodel]
  cases k.axis <;> simp

/-- **Groups with the same label** are the same if the names of their models hold no blanks. -/
theorem GroupKey.eq_of_text_eq {k l : GroupKey} (hk : ' ' ∉ k.model.toList) (hl : ' ' ∉ l.model.toList)
    (h : k.text = l.text) : k = l := by
  have hmodel : k.model.toList = l.model.toList := by rw [← takeWhile_text hk, h, takeWhile_text hl]
  have hrest := congrArg String.toList h
  rw [toList_text, toList_text, hmodel, List.append_cancel_left_eq] at hrest
  have haxis : k.axis = l.axis := by
    cases ha : k.axis with
    | none =>
      cases hb : l.axis with
      | none => rfl
      | some b => simp [ha, hb] at hrest
    | some a =>
      cases hb : l.axis with
      | none => simp [ha, hb] at hrest
      | some b => simpa [ha, hb, String.toList_inj] using hrest
  cases k
  cases l
  rw [GroupKey.mk.injEq]
  exact ⟨String.toList_inj.1 hmodel, haxis⟩

/-! ## Columns of summarised trials -/

section

variable {α : Type} [Quantity α]

theorem key_of_summarize {k : GroupKey} {group : List (Trial α)} {options : SummaryOptions α} {s : Summary α}
    (h : summarize k group options = .ok s) : s.key = k := by
  obtain ⟨scale, value, -, -, -, rfl⟩ := summarize_eq_ok_iff.1 h
  rfl

/-- A group has a summary under its own name. -/
theorem key_of_mem_entries {trials : List (Trial α)} {options : SummaryOptions α} {k : GroupKey} {s : Summary α}
    (h : (k, .ok s) ∈ (aggregate trials options).entries) : s.key = k :=
  key_of_summarize (mem_entries_aggregate.1 h).2.symm

omit [Quantity α] in
theorem exists_mem_entries_of_mem_summaries {groups : Groups α} {s : Summary α} (h : s ∈ groups.summaries) :
    ∃ k, (k, .ok s) ∈ groups.entries := by
  obtain ⟨r, hr, hs⟩ := List.mem_filterMap.1 h
  obtain ⟨⟨k, r⟩, hentry, rfl⟩ := List.mem_map.1 hr
  cases r with
  | error e => cases hs
  | ok t =>
    cases hs
    exact ⟨k, hentry⟩

/-- **A column of summarised trials** has no two summaries of a group. -/
theorem nodup_keys_summaries (trials : List (Trial α)) (options : SummaryOptions α) :
    ((aggregate trials options).summaries.map Summary.key).Nodup := by
  rw [List.Nodup, List.pairwise_map, Groups.summaries, List.pairwise_filterMap, OrderedMap.values, List.pairwise_map]
  refine (List.pairwise_map.1 (OrderedMap.nodup_keys (aggregate trials options))).imp_of_mem ?_
  rintro ⟨k, r⟩ ⟨l, r'⟩ hr hr' hne s hs s' hs' heq
  cases r with
  | error e => cases hs
  | ok t =>
    cases r' with
    | error e => cases hs'
    | ok t' =>
      cases hs
      cases hs'
      exact hne ((key_of_mem_entries hr).symm.trans (heq.trans (key_of_mem_entries hr')))

end

/-- The groups of trials that were read. -/
theorem isLoaded_of_mem_summaries {d : Disk} {root : Path} {load : LoadOptions} {trials : List (Trial Float)}
    (hload : (loadResults d root load).value = .ok trials) {options : SummaryOptions Float} {s : Summary Float}
    (hs : s ∈ (aggregate trials options).summaries) : s.key.IsLoaded := by
  obtain ⟨k, hentry⟩ := exists_mem_entries_of_mem_summaries hs
  obtain ⟨⟨t, ht, hkey⟩, -⟩ := mem_entries_aggregate.1 hentry
  exact ⟨d, root, load, trials, hload, t, ht, options.grouping, (key_of_mem_entries hentry).trans hkey.symm⟩

/-! ## The whole table -/

namespace ComparisonTable

/-- The cells of a summary, text by text. -/
theorem cells_some (s : Summary Float) : cells (some s) = [
    match s.states with
    | some states => Decimal.rounded states
    | none => missingMark,
    Decimal.rounded s.lower,
    Decimal.rounded s.upper,
    match s.runtime with
    | .seconds seconds => Decimal.rounded seconds
    | .timedOut => timedOutText] := by
  rw [cells]
  cases s.states <;> cases s.runtime <;> rfl

/-- All columns in one table, side by side. -/
structure Shows (columns : List Column) (t : ComparisonTable) : Prop where
  /-- The groups increase. -/
  increasing : t.groups.keys.Pairwise fun k l => compare k l = .lt
  /-- They are those of some column. -/
  groups_iff : ∀ k, k ∈ t.groups.keys ↔ ∃ c ∈ columns, ∃ s ∈ c.2, s.key = k
  /-- Each has its row. -/
  rows : t.rows = t.groups.keys.map (rowOf columns)
  /-- A row starts with the label of its group. -/
  label : ∀ k, (rowOf columns k).head? = some k.text
  /-- At the place of a column it shows the summary that the column has of the group. -/
  shown : ∀ p (hp : p < columns.length), ∀ s ∈ columns[p].2,
    ((rowOf columns s.key).drop (1 + 4 * p)).take 4 = cells (some s)
  /-- That is its mean number of explored states, its mean bounds and its runtime, all of them rounded; a mark stands for
  states that no trial reports, and another one for a runtime that reached the ceiling. -/
  texts : ∀ s : Summary Float, cells (some s) = [
    match s.states with
    | some states => Decimal.rounded states
    | none => missingMark,
    Decimal.rounded s.lower,
    Decimal.rounded s.upper,
    match s.runtime with
    | .seconds seconds => Decimal.rounded seconds
    | .timedOut => timedOutText]
  /-- It shows marks there if the column has none. -/
  missing : ∀ p (hp : p < columns.length), ∀ k, (∀ s ∈ columns[p].2, s.key ≠ k) →
    ((rowOf columns k).drop (1 + 4 * p)).take 4 = List.replicate 4 missingMark
  /-- Every row has four cells for each column, and one in front of them. -/
  length_row : ∀ row ∈ t.rows, row.length = 1 + 4 * columns.length
  /-- So has the header. -/
  length_header : t.header.length = 1 + 4 * columns.length
  /-- LaTeX is given the same header and the same rows. -/
  latex : t.latex.header = t.header ∧ t.latex.rows = t.rows
  /-- And it is told of as many columns. -/
  length_columns : t.latex.columns.length = 1 + 4 * columns.length
  /-- No two rows have the same label if all groups are of trials that were read. -/
  nodup_labels : (∀ c ∈ columns, ∀ s ∈ c.2, s.key.IsLoaded) → (t.rows.map List.head?).Nodup

/-- **A comparison table** shows every summary of its columns once, and nothing else. -/
theorem shows_of {columns : List Column} (h : ∀ c ∈ columns, (c.2.map Summary.key).Nodup) :
    Shows columns (of columns).value ∧ (of columns).notes = [] := by
  have hlength : ∀ row ∈ (of columns).value.rows, row.length = 1 + 4 * columns.length := by
    rw [rows_of]
    exact List.forall_mem_map.2 fun k _ => length_rowOf columns k
  have hgroups : ∀ k, k ∈ (of columns).value.groups.keys ↔ ∃ c ∈ columns, ∃ s ∈ c.2, s.key = k := fun k =>
    mem_keys_groups.trans (exists_congr fun c => and_congr_right fun _ => List.mem_map)
  refine ⟨?_, ?_⟩
  · exact {
      increasing := List.pairwise_map.2 (of columns).value.groups.increasing
      groups_iff := hgroups
      rows := rows_of columns
      label := fun k => rfl
      shown := fun p hp s hs => by
        rw [cells_rowOf hp, summary?_eq_some (h _ (List.getElem_mem hp)) hs]
      texts := cells_some
      missing := fun p hp k hk => by
        have hnone : columns[p].summary? k = none :=
          Option.not_isSome_iff_eq_none.1 fun hsome =>
            (List.mem_map.1 (mem_keys_of_summary? hsome)).elim fun s hs => hk s hs.1 hs.2
        rw [cells_rowOf hp, hnone]
        rfl
      length_row := hlength
      length_header := length_header columns
      latex := ⟨rfl, rfl⟩
      length_columns := by
        have hcolumns : (Table.of (of columns).value.header (of columns).value.rows).columns = _ :=
          columns_of_length fun row hrow => by rw [hlength row hrow, length_header]
        rw [latex, hcolumns, length_header, String.length_ofList, List.length_cons, List.length_replicate]
        omega
      nodup_labels := fun hloaded => by
        rw [rows_of, List.map_map]
        refine List.Nodup.map_on (fun k hk l hl heq => ?_) (OrderedMap.nodup_keys _)
        obtain ⟨c, hc, s, hs, rfl⟩ := (hgroups k).1 hk
        obtain ⟨c', hc', s', hs', rfl⟩ := (hgroups l).1 hl
        exact GroupKey.eq_of_text_eq (hloaded c hc s hs).space_not_mem (hloaded c' hc' s' hs').space_not_mem
          (Option.some.inj heq) }
  · have hquiet := (filled_of columns).quiet h
    rwa [Noted.map_eq] at hquiet

/-- Two columns, of which the second one is of a folder without results. -/
def sampleColumns : List Column := [
  ("Greybox", (aggregate sampleTrials ⟨.modelAndAxis, none, none, 1800⟩).summaries),
  ("Blackbox", (aggregate [] ⟨.modelAndAxis, none, none, 1800⟩).summaries)]

example : (of sampleColumns).value.rows =
    [["toy", "3", "0.5", "1", "0.001", missingMark, missingMark, missingMark, missingMark]] := by
  decide +kernel

/-- The table of two columns of summarised trials, of which the labels are different too. -/
theorem shows_of_sampleColumns :
    Shows sampleColumns (of sampleColumns).value ∧ (of sampleColumns).notes = [] ∧
      ∀ c ∈ sampleColumns, ∀ s ∈ c.2, s.key.IsLoaded := by
  have hload : (loadResults sampleResults ⟨"results"⟩ ⟨.states, "oom"⟩).value = .ok sampleTrials := by
    decide +kernel
  have hnodup : ∀ c ∈ sampleColumns, (c.2.map Summary.key).Nodup := by
    intro c hc
    rcases List.mem_pair.1 hc with rfl | rfl <;> exact nodup_keys_summaries _ _
  have hshows := shows_of hnodup
  refine ⟨hshows.1, hshows.2, fun c hc s hs => ?_⟩
  rcases List.mem_pair.1 hc with rfl | rfl
  · exact isLoaded_of_mem_summaries hload hs
  · cases hs

end ComparisonTable
end CheckerTrials
