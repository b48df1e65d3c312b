import CheckerTrials.Report.Comparison

/-!
# Reading a CSV file

A CSV file is read one character after the other.  What a character means depends on where the reader is
(`Csv.Position`): between quotes everything belongs to the field but a quote, and a quote there is only known to have
ended the field when the next character is seen.  `Csv.read?` refuses a text with a quote where none may stand and a
text that ends between quotes.

A field between quotes brings the reader from the beginning of a field to behind its closing quote, whatever the field
holds (`Csv.Progress.fills_quoted`), and so does a field without quotes in which there is none of the characters that
have a meaning (`Csv.Progress.fills_bare`).  So the commas and the line feeds that are met there are those between the
fields and behind the records, and **what was written is read back** (`Csv.read?_written`), in particular every
comparison table (`ComparisonTable.read?_csv`).
-/

set_option autoImplicit false

namespace CheckerTrials

namespace Csv

/-! ## The reader -/

/-- Where a reader is. -/
inductive Position
  /-- At the beginning of a field. -/
  | fieldStart
  /-- In a field without quotes. -/
  | bare
  /-- Between the quotes of a field. -/
  | quoted
  /-- Behind a quote inside a field, which is the closing one unless another quote follows. -/
  | behindQuote
  deriving DecidableEq, Repr

/-- What has been read of a file. -/
structure Progress where
  /-- Where the reader is. -/
  position : Position
  /-- What has been read of the field. -/
  field : List Char
  /-- The fields of the record before this one. -/
  fields : List String
  /-- The records before this one. -/
  records : List (List String)
  deriving DecidableEq, Repr

namespace Progress

/-- The beginning of a file. -/
def start : Progress := ⟨.fieldStart, [], [], []⟩

/-- One more character of the field. -/
def more (p : Progress) (position : Position) (c : Char) : Progress :=
  { p with position := position, field := p.field ++ [c] }

/-- The end of the field. -/
def endField (p : Progress) : Progress :=
  ⟨.fieldStart, [], p.fields ++ [String.ofList p.field], p.records⟩

/-- The end of the record. -/
def endRecord (p : Progress) : Progress :=
  ⟨.fieldStart, [], [], p.records ++ [p.fields ++ [String.ofList p.field]]⟩

/-- The end of the field or of the record, if the character is one. -/
def separate? (p : Progress) (c : Char) : Option Progress :=
  if c = ',' then some p.endField else if c = '\n' then some p.endRecord else none

/-- Reads a character. -/
def step (p : Progress) (c : Char) : Option Progress :=
  match p.position with
  | .fieldStart =>
    if c = '"' then some { p with position := .quoted } else (p.separate? c).or (some (p.more .bare c))
  | .bare => if c = '"' then none else (p.separate? c).or (some (p.more .bare c))
  | .quoted => if c = '"' then some { p with position := .behindQuote } else some (p.more .quoted c)
  | .behindQuote => if c = '"' then some (p.more .quoted c) else p.separate? c

/-- Reads several characters. -/
def follow (p : Progress) (s : List Char) : Option Progress := s.foldlM step p

/-- The records of a file that ends here; the last one needs no line feed. -/
def finish (p : Progress) : Option (List (List String)) :=
  match p.position with
  | .quoted => none
  | .fieldStart => some (if p.fields.isEmpty then p.records else p.endRecord.records)
  | .bare | .behindQuote => some p.endRecord.records

end Progress

/-- **The records of a CSV file**, if it is one. -/
def read? (text : String) : Option (List (List String)) := do (← Progress.start.follow text.toList).finish

example : read? "a,\"b\n\"\"\"\n,\n" = some [["a", "b\n\""], ["", ""]] := by decide

example : read? "\"a\"b\n" = none := by decide

/-! ## Reading what was written -/

namespace Progress

variable {field : List Char} {fields : List String} {records : List (List String)}

theorem follow_append (p : Progress) (s t : List Char) :
    p.follow (s ++ t) = (p.follow s).bind fun q => q.follow t := List.foldlM_append ..

theorem follow_cons (p : Progress) (c : Char) (s : List Char) :
    p.follow (c :: s) = (p.step c).bind fun q => q.follow s := List.foldlM_cons ..

/-- Between quotes every character is read as it was meant, and the reader stays there. -/
theorem follow_doubled (before field : List Char) :
    (⟨.quoted, before, fields, records⟩ : Progress).follow
        (field.flatMap fun c => if c = '"' then ['"', '"'] else [c]) =
      some ⟨.quoted, before ++ field, fields, records⟩ := by
  induction field generalizing before with
  | nil => rw [List.append_nil]; rfl
  | cons c rest ih =>
    have hchar : (⟨.quoted, before, fields, records⟩ : Progress).follow (if c = '"' then ['"', '"'] else [c]) =
        some ⟨.quoted, before ++ [c], fields, records⟩ := by
      by_cases hc : c = '"'
      · subst hc
        rfl
      · simp [step, hc, more, follow]
    rw [List.flatMap_cons, follow_append, hchar, Option.bind_some, ih, List.append_assoc, List.singleton_append]

/-- A text brings a reader from the beginning of a field behind the field, so that a separator there ends it. -/
def Fills (s : List Char) (field : String) : Prop :=
  ∀ fields records, ∃ position, position ≠ .quoted ∧
    (⟨.fieldStart, [], fields, records⟩ : Progress).follow s = some ⟨position, field.toList, fields, records⟩

/-- **A field between quotes** is read, whatever it holds. -/
theorem fills_quoted (field : String) : Fills (quoted field.toList) field := by
  intro fields records
  have hopen : (⟨.fieldStart, [], fields, records⟩ : Progress).step '"' = some ⟨.quoted, [], fields, records⟩ := rfl
  refine ⟨.behindQuote, nofun, ?_⟩
  rw [quoted, List.cons_append, follow_cons, hopen, Option.bind_some, follow_append, follow_doubled, Option.bind_some]
  rfl

/-- Characters that a field without quotes can have. -/
def IsBare (c : Char) : Prop := c ≠ '"' ∧ c ≠ ',' ∧ c ≠ '\n'

theorem step_bare {position : Position} (hposition : position = .fieldStart ∨ position = .bare) {c : Char}
    (hc : IsBare c) : (⟨position, field, fields, records⟩ : Progress).step c =
      some ⟨.bare, field ++ [c], fields, records⟩ := by
  obtain ⟨hquote, hcomma, hline⟩ := hc
  rcases hposition with rfl | rfl <;> simp [step, separate?, more, hquote, hcomma, hline]

/-- Behind the first character of a field without quotes the others are read. -/
theorem follow_bare {rest : List Char} (h : ∀ c ∈ rest, IsBare c) (before : List Char) :
    (⟨.bare, before, fields, records⟩ : Progress).follow rest = some ⟨.bare, before ++ rest, fields, records⟩ := by
  induction rest generalizing before with
  | nil => rw [List.append_nil]; rfl
  | cons c rest ih =>
    rw [follow_cons, step_bare (.inr rfl) (h c List.mem_cons_self), Option.bind_some,
      ih fun d hd => h d (List.mem_cons_of_mem c hd), List.append_assoc, List.singleton_append]

/-- **A field without quotes** is read, if there is nothing in it that would need them. -/
theorem fills_bare {field : String} (h : ∀ c ∈ field.toList, IsBare c) : Fills field.toList field := by
  intro fields records
  cases hfield : field.toList with
  | nil => exact ⟨.fieldStart, nofun, rfl⟩
  | cons c rest =>
    rw [hfield] at h
    refine ⟨.bare, nofun, ?_⟩
    rw [follow_cons, step_bare (.inl rfl) (h c List.mem_cons_self), Option.bind_some,
      follow_bare fun d hd => h d (List.mem_cons_of_mem c hd), List.nil_append, List.singleton_append]

/-- Behind a field a separator ends it. -/
theorem step_of_separate? {p q : Progress} {c : Char} (hposition : p.position ≠ .quoted) (hc : c ≠ '"')
    (h : p.separate? c = some q) : p.step c = some q := by
  obtain ⟨position, field, fields, records⟩ := p
  cases position with
  | quoted => exact absurd rfl hposition
  | fieldStart | bare | behindQuote => simp [step, h, hc]

variable {write : String → List Char}

/-- **A record that was written** is read, and the reader is at the beginning of the next one. -/
theorem follow_record {row : List String} (hwrite : ∀ field ∈ row, Fills (write field) field) (hrow : row ≠ [])
    (fields : List String) (records : List (List String)) :
    (⟨.fieldStart, [], fields, records⟩ : Progress).follow ([','].intercalate (row.map write) ++ ['\n']) =
      some ⟨.fieldStart, [], [], records ++ [fields ++ row]⟩ := by
  induction row generalizing fields with
  | nil => exact absurd rfl hrow
  | cons first rest ih =>
    obtain ⟨position, hposition, hfirst⟩ := hwrite first List.mem_cons_self fields records
    cases rest with
    | nil =>
      have hend : (⟨position, first.toList, fields, records⟩ : Progress).step '\n' =
          some ⟨.fieldStart, [], [], records ++ [fields ++ [String.ofList first.toList]]⟩ :=
        step_of_separate? hposition (by decide) rfl
      rw [List.map_singleton, List.intercalate_singleton, follow_append, hfirst, Option.bind_some, follow_cons, hend,
        String.ofList_toList]
      rfl
    | cons second rest =>
      have hcomma : (⟨position, first.toList, fields, records⟩ : Progress).step ',' =
          some ⟨.fieldStart, [], fields ++ [String.ofList first.toList], records⟩ :=
        step_of_separate? hposition (by decide) rfl
      rw [List.map_cons, List.map_cons, List.intercalate_cons_cons, List.append_assoc, List.append_assoc,
        ← List.map_cons, follow_append, hfirst, Option.bind_some, List.singleton_append, follow_cons, hcomma,
        Option.bind_some, ih (fun f hf => hwrite f (List.mem_cons_of_mem first hf)) (List.cons_ne_nil second rest),
        String.ofList_toList, List.append_assoc, List.singleton_append]

/-- All records that were written are read. -/
theorem follow_records {rows : List (List String)} (hwrite : ∀ row ∈ rows, ∀ field ∈ row, Fills (write field) field)
    (hrows : ∀ row ∈ rows, row ≠ []) (records : List (List String)) :
    (⟨.fieldStart, [], [], records⟩ : Progress).follow
        (rows.flatMap fun row => [','].intercalate (row.map write) ++ ['\n']) =
      some ⟨.fieldStart, [], [], records ++ rows⟩ := by
  induction rows generalizing records with
  | nil => rw [List.append_nil]; rfl
  | cons row rest ih =>
    rw [List.flatMap_cons, follow_append,
      follow_record (hwrite row List.mem_cons_self) (hrows row List.mem_cons_self), Option.bind_some,
      ih (fun r hr => hwrite r (List.mem_cons_of_mem row hr)) fun r hr => hrows r (List.mem_cons_of_mem row hr),
      List.nil_append, List.append_assoc, List.singleton_append]

end Progress

/-- **What was written is read back**, if every record has a field and every field is written so that it is read. -/
theorem read?_written {write : String → List Char} {rows : List (List String)}
    (hwrite : ∀ row ∈ rows, ∀ field ∈ row, Progress.Fills (write field) field) (hrows : ∀ row ∈ rows, row ≠ []) :
    read? (String.ofList (rows.flatMap fun row => [','].intercalate (row.map write) ++ ['\n'])) = some rows := by
  rw [read?, String.toList_ofList, Progress.start, Progress.follow_records hwrite hrows]
  rfl

end Csv

/-- **A comparison table that was written as CSV is read back**: first its header and then its rows, with all their
cells as they were. -/
theorem ComparisonTable.read?_csv (t : ComparisonTable) : Csv.read? t.csv = some (t.header :: t.rows) := by
  refine Csv.read?_written (fun _ _ field _ => Csv.Progress.fills_quoted field) fun row hrow => ?_
  rcases List.mem_cons.1 hrow with rfl | hrow
  · exact List.cons_ne_nil _ _
  · obtain ⟨entry, -, rfl⟩ := List.mem_map.1 hrow
    exact List.cons_ne_nil _ _

end CheckerTrials
