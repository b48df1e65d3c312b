import CheckerTrials.Proofs.CommandLine.Configuring
import CheckerTrials.Proofs.Files.Beside
import CheckerTrials.Proofs.Reachability.Agreement

/-!
# What a failed evaluation leaves

An evaluation reads a document, creates the file for the table, makes the table and writes it.  Two of the tables
cannot be made if the document has a model that belongs to no family, and this is found out when the file has
already been created.  So a failed evaluation leaves the disk as it was, unless it comes to this point: then
whatever was in the file is lost, and a file that was not there is there and empty (`failedEvaluation`).

* `tableText_eq_error_iff`: when a table cannot be made.
* `Outcomes`: the ways in which an evaluation can end, in the order of its steps.
-/

set_option autoImplicit false

namespace CheckerTrials

/-! ## Writing a file twice -/

namespace Disk

variable {d e : Disk} {p : Path}

/-- The disk `e` is the disk `d` with an empty file where a path leads to. -/
structure Emptied (d : Disk) (p : Path) (e : Disk) : Prop where
  /-- Nothing is in the file. -/
  empty : e.readText p = .ok ""
  /-- Everything else is as it was. -/
  others : ∃ l, d.locate p = .ok l ∧ ∀ m, m ≠ l → e.get? m = d.get? m

/-- Nothing but the file is changed by writing it. -/
theorem get?_of_writeText {text : String} (h : d.writeText p text = .ok e) :
    ∃ l, d.locate p = .ok l ∧ ∀ m, m ≠ l → e.get? m = d.get? m := by
  rw [writeText_eq] at h
  obtain ⟨l, o, hl, -, rfl⟩ := edit_eq_ok_iff.1 h
  exact ⟨l, hl, fun m hm => get?_set_of_ne d hm o⟩

theorem Emptied.of_writeText (h : d.writeText p "" = .ok e) : d.Emptied p e :=
  ⟨readText_of_writeText h, get?_of_writeText h⟩

/-- A file that has been written can be written again. -/
theorem exists_writeText_again {text : String} (h : d.writeText p text = .ok e) (other : String) :
    ∃ f, e.writeText p other = .ok f := by
  obtain ⟨l, executable, hfile, -, -, hl, hget⟩ := exists_of_writeText h
  refine ⟨e.set l (some (.file other.toUTF8 executable)), ?_⟩
  rw [writeText_eq]
  refine edit_eq_ok_iff.2 ⟨l, _, hl, ?_, rfl⟩
  simp [hget, overwrite, hfile]

end Disk

/-! ## Making a table -/

/-- Whether a table puts the models of a document into families. -/
def TableKind.needsFamilies : TableKind → Bool
  | .methods | .filtered => false
  | .groups | .pairs => true

namespace Task

section

variable {V : Type} [Json.Library V]
variable {doc : Document} {table : TableKind} {d : Disk} {document : Path} {output : Option Path}

/-- **When a table cannot be made**: it needs the families of all models, and some model has none. -/
theorem tableText_eq_error_iff {e : FamilyError} :
    tableText doc table = .error e ↔
      table.needsFamilies = true ∧ ∃ file, doc.firstUncatalogued? = some file ∧ e = .unknownModel file := by
  rw [← familiesOf_eq_error_iff]
  cases table with
  | methods => exact ⟨nofun, fun h => absurd h.1 nofun⟩
  | filtered => exact ⟨nofun, fun h => absurd h.1 nofun⟩
  | groups =>
    rw [tableText, map_eq_error_iff, familyTable_eq_error_iff]
    exact (and_iff_right rfl).symm
  | pairs =>
    rw [tableText, map_eq_error_iff, statePairs_eq_error_iff]
    exact (and_iff_right rfl).symm

/-! ## The ways of an evaluation -/

/-- **How an evaluation ends**, by the step at which it does. -/
inductive Outcomes (d : Disk) (document : Path) (table : TableKind) :
    Option Path → Except TaskError String → Disk → Prop
  /-- There is no document. -/
  | noDocument (output : Option Path) (e : DocumentError) (hread : Document.read d document = .error e) :
      Outcomes d document table output (.error (.document e)) d
  /-- The table is to be shown. -/
  | shown (doc : Document) (hread : Document.read d document = .ok doc) :
      Outcomes d document table none ((tableText doc table).mapError .family) d
  /-- The file for the table cannot be created. -/
  | noFile (p : Path) (cause : Cause) (hcreate : d.writeText p "" = .error cause) :
      Outcomes d document table (some p) (.error (.disk cause)) d
  /-- The file has been created, but the table cannot be made. -/
  | noTable (p : Path) (doc : Document) (e : Disk) (failure : FamilyError)
      (hread : Document.read d document = .ok doc) (hcreate : d.writeText p "" = .ok e)
      (htable : tableText doc table = .error failure) :
      Outcomes d document table (some p) (.error (.family failure)) e
  /-- The table has been written. -/
  | written (p : Path) (doc : Document) (e f : Disk) (text : String)
      (hread : Document.read d document = .ok doc) (hcreate : d.writeText p "" = .ok e)
      (htable : tableText doc table = .ok text) (hwrite : e.writeText p text = .ok f) :
      Outcomes d document table (some p) (.ok "") f

theorem yields_writeFile_ok {p : Path} {text : String} {e : Disk} (h : d.writeText p text = .ok e) :
    Work.Yields (writeFile p text) d (.ok ()) e := by
  have hon := Work.on_change (fun d => (d.writeText p text).mapError TaskError.disk) d
  rw [h] at hon
  exact .of_on hon

theorem yields_writeFile_error {p : Path} {text : String} {cause : Cause} (h : d.writeText p text = .error cause) :
    Work.Yields (writeFile p text) d (.error (.disk cause)) d := by
  have hon := Work.on_change (fun d => (d.writeText p text).mapError TaskError.disk) d
  rw [h] at hon
  exact .of_on hon

/-- Making a table changes nothing. -/
theorem yields_table {x : Except TaskError String} (h : (tableText doc table).mapError TaskError.family = x)
    (d : Disk) : Work.Yields (Work.ofExcept ((tableText doc table).mapError TaskError.family)) d x d := by
  rw [h]
  exact .of_on (Work.on_ofExcept x d)

/-- Reading a document changes nothing. -/
theorem yields_document {x : Except DocumentError Document} (h : Document.read d document = x) :
    Work.Yields (Work.tryAsk fun d => (Document.read d document).mapError TaskError.document) d
      (x.mapError TaskError.document) d := by
  rw [← h]
  exact .of_on (Work.on_tryAsk _ d)

/-- A table that is shown leaves the disk alone. -/
theorem outcomes_shown (hread : Document.read d document = .ok doc) :
    Outcomes d document table none ((performEvaluate document table none).on d).result
      ((performEvaluate document table none).on d).disk := by
  have hall : Work.Yields (performEvaluate document table none) d ((tableText doc table).mapError .family) d := by
    refine .bind_ok (yields_document hread) (.note_bind ?_)
    cases (tableText doc table).mapError TaskError.family with
    | error failure => exact .bind_error (.of_on (Work.on_ofExcept _ d))
    | ok text => exact .bind_ok (.of_on (Work.on_ofExcept _ d)) ⟨rfl, rfl⟩
  rw [hall.result, hall.disk]
  exact .shown doc hread

/-- A table that goes into a file is made when the file has been created. -/
theorem outcomes_into (hread : Document.read d document = .ok doc) (p : Path) :
    Outcomes d document table (some p) ((performEvaluate document table (some p)).on d).result
      ((performEvaluate document table (some p)).on d).disk := by
  have hask := yields_document hread
  cases hcreate : d.writeText p "" with
  | error cause =>
    have hall : Work.Yields (performEvaluate document table (some p)) d (.error (.disk cause)) d :=
      .bind_ok hask (.bind_error (yields_writeFile_error hcreate))
    rw [hall.result, hall.disk]
    exact .noFile p cause hcreate
  | ok e =>
    have hfile := yields_writeFile_ok hcreate
    cases htable : tableText doc table with
    | error failure =>
      have hmade : (tableText doc table).mapError TaskError.family = .error (.family failure) :=
        mapError_eq_error_iff.2 ⟨failure, htable, rfl⟩
      have hall : Work.Yields (performEvaluate document table (some p)) d (.error (.family failure)) e :=
        .bind_ok hask (.bind_ok hfile (.note_bind (.bind_error (yields_table hmade e))))
      rw [hall.result, hall.disk]
      exact .noTable p doc e failure hread hcreate htable
    | ok text =>
      have hmade : (tableText doc table).mapError TaskError.family = .ok text := mapError_eq_ok_iff.2 htable
      obtain ⟨f, hwrite⟩ := Disk.exists_writeText_again hcreate text
      have hlast : Work.Yields (writeFile p text >>= fun _ => pure "") e (.ok "") f :=
        .bind_ok (yields_writeFile_ok hwrite) ⟨rfl, rfl⟩
      have hall : Work.Yields (performEvaluate document table (some p)) d (.ok "") f :=
        .bind_ok hask (.bind_ok hfile (.note_bind (.bind_ok (yields_table hmade e) hlast)))
      rw [hall.result, hall.disk]
      exact .written p doc e f text hread hcreate htable hwrite

/-- **Every evaluation ends in one of these ways.** -/
theorem outcomes_performEvaluate (d : Disk) (document : Path) (table : TableKind) (output : Option Path) :
    Outcomes d document table output ((performEvaluate document table output).on d).result
      ((performEvaluate document table output).on d).disk := by
  cases hread : Document.read d document with
  | error e =>
    have hall : Work.Yields (performEvaluate document table output) d (.error (.document e)) d :=
      .bind_error (yields_document hread)
    rw [hall.result, hall.disk]
    exact .noDocument output e hread
  | ok doc =>
    cases output with
    | none => exact outcomes_shown hread
    | some p => exact outcomes_into hread p

/-! ## Failures -/

/-- An evaluation comes to its failure when the file for the table has already been created. -/
structure FailsLate (d : Disk) (document : Path) (table : TableKind) (output : Option Path) (file : String)
    (p : Path) : Prop where
  /-- There is a document, and the first model in it without a family is in `file`. -/
  document : ∃ doc, Document.read d document = .ok doc ∧ doc.firstUncatalogued? = some file
  /-- The table puts models into families. -/
  table : table.needsFamilies = true
  /-- The table is to be written into a file. -/
  output : output = some p
  /-- The file can be created. -/
  create : ∃ e, d.writeText p "" = .ok e

namespace Outcomes

variable {result : Except TaskError String} {e : Disk}

/-- A failure leaves the disk as it was or comes late. -/
theorem unchanged_or_failsLate (h : Outcomes d document table output result e) {failure : TaskError}
    (hfailure : result = .error failure) : e = d ∨ ∃ file p, FailsLate d document table output file p := by
  cases h with
  | noDocument => exact .inl rfl
  | shown => exact .inl rfl
  | noFile => exact .inl rfl
  | noTable p doc e failure hread hcreate htable =>
    obtain ⟨hneeds, file, hfile, -⟩ := tableText_eq_error_iff.1 htable
    exact .inr ⟨file, p, ⟨doc, hread, hfile⟩, hneeds, rfl, e, hcreate⟩
  | written => cases hfailure

/-- A late failure leaves an empty file. -/
theorem emptied_of_failsLate (h : Outcomes d document table output result e) {file : String} {p : Path}
    (hlate : FailsLate d document table output file p) :
    result = .error (.family (.unknownModel file)) ∧ d.Emptied p e := by
  obtain ⟨⟨doc, hread, hfile⟩, hneeds, rfl, made, hcreate⟩ := hlate
  have hfails := tableText_eq_error_iff.2 ⟨hneeds, file, hfile, rfl⟩
  cases h with
  | noDocument _ failure hfailed => exact absurd (hread.symm.trans hfailed) nofun
  | noFile _ cause hfailed => exact absurd (hcreate.symm.trans hfailed) nofun
  | noTable _ doc' _ failure hread' hcreate' htable =>
    obtain rfl : doc = doc' := Except.ok.inj (hread.symm.trans hread')
    obtain rfl : FamilyError.unknownModel file = failure := Except.error.inj (hfails.symm.trans htable)
    exact ⟨rfl, .of_writeText hcreate'⟩
  | written _ doc' _ _ text hread' _ htable =>
    obtain rfl : doc = doc' := Except.ok.inj (hread.symm.trans hread')
    exact absurd (hfails.symm.trans htable) nofun

end Outcomes

/-- **What a failed evaluation leaves.**  The disk is as it was, unless the failure comes late; and if the failure
comes late, the file for the table is empty. -/
theorem failedEvaluation (execute : Executor) (d : Disk) (document : Path) (table : TableKind)
    (output : Option Path) :
    let done := ((Task.evaluate document table output).perform execute).on d
    (∀ failure, done.result = .error failure →
      done.disk = d ∨ ∃ file p, FailsLate d document table output file p) ∧
    ∀ file p, FailsLate d document table output file p →
      done.result = .error (.family (.unknownModel file)) ∧ d.Emptied p done.disk := by
  have houtcome := outcomes_performEvaluate d document table output
  exact ⟨fun _ hfailure => houtcome.unchanged_or_failsLate hfailure,
    fun _ _ hlate => houtcome.emptied_of_failsLate hlate⟩

end

/-! ## A model without a family -/

/-- A disk with a document whose only model belongs to no family, and with a table from before. -/
def tableDisk : Disk where
  home := []
  entries := [
    (["doc.json"], .file "\x7b\"other.pm\":[]\x7d".toUTF8 false),
    (["table.tex"], .file "earlier\n".toUTF8 false)]

/-- The document that is on it. -/
def strayDocument : Document := .ofList [("other.pm", [])]

theorem read_tableDisk : Document.read tableDisk ⟨"doc.json"⟩ = .ok strayDocument := by decide +kernel

/-- The table from before is lost. -/
theorem failedEvaluation_tableDisk :
    FailsLate tableDisk ⟨"doc.json"⟩ .groups (some ⟨"table.tex"⟩) "other.pm" ⟨"table.tex"⟩ ∧
      tableDisk.Emptied ⟨"table.tex"⟩
        (((Task.evaluate ⟨"doc.json"⟩ .groups (some ⟨"table.tex"⟩)).perform marking).on tableDisk).disk := by
  have hcreate : (tableDisk.writeText ⟨"table.tex"⟩ "").isOk = true := by decide +kernel
  have hlate : FailsLate tableDisk ⟨"doc.json"⟩ .groups (some ⟨"table.tex"⟩) "other.pm" ⟨"table.tex"⟩ :=
    ⟨⟨strayDocument, read_tableDisk, by decide +kernel⟩, rfl, rfl, exists_of_isOk hcreate⟩
  exact ⟨hlate, ((failedEvaluation marking tableDisk ⟨"doc.json"⟩ .groups (some ⟨"table.tex"⟩)).2 _ _ hlate).2⟩

/-- Not every failed evaluation leaves the file for the table alone. -/
theorem not_unchanged_of_failedEvaluation :
    ¬ ∀ (execute : Executor) (d : Disk) (document p : Path) (table : TableKind) (failure : TaskError),
      (((Task.evaluate document table (some p)).perform execute).on d).result = .error failure →
        (((Task.evaluate document table (some p)).perform execute).on d).disk.readText p = d.readText p := by
  intro h
  have hlate : (((Task.evaluate ⟨"doc.json"⟩ .groups (some ⟨"table.tex"⟩)).perform marking).on tableDisk).result =
      .error (.family (.unknownModel "other.pm")) := by decide +kernel
  have hbefore : tableDisk.readText ⟨"table.tex"⟩ = .ok "earlier\n" := by decide +kernel
  have hafter : (((Task.evaluate ⟨"doc.json"⟩ .groups (some ⟨"table.tex"⟩)).perform marking).on
      tableDisk).disk.readText ⟨"table.tex"⟩ = .ok "" := by decide +kernel
  have hunchanged := h _ _ _ _ _ _ hlate
  rw [hbefore, hafter] at hunchanged
  exact absurd hunchanged (by decide)

end Task

end CheckerTrials
