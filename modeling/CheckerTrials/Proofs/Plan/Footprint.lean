import CheckerTrials.Plan.Run
import CheckerTrials.Proofs.Files.Edit

/-!
# What a run changes

A run has five files: its result, and four files beside it whose names are that of the result with a suffix.
It changes no others (`get?_next_of_not_owns`) and it loses no folder (`grows_finish`), provided that the tool
keeps to its result and its log (`Executor.Orderly`).

All of this is said relative to a disk `d₁` that has the folder of the files.  On every disk that grows from
it the files are at the same locations (`Sited`).

* `Run.Owns`: the locations of the files of a run.
* `next_cases`: all that a step of a run can do to the disk.
* `value_finish`: a run goes on from what its next step has done.
-/

set_option autoImplicit false

namespace CheckerTrials

open Disk

/-! ## Tools that keep to their files -/

/-- The tool of a run changes its result and its log and nothing else, and it removes no folder. -/
structure Executor.Orderly (execute : Executor) (r : Run) : Prop where
  /-- No folder is lost. -/
  grows : ∀ d done, execute r.command r.artifact.log d = .ok done → d.Grows done.disk
  /-- Everything else is as it was. -/
  frame : ∀ d done, execute r.command r.artifact.log d = .ok done → ∀ l, d.locate r.base ≠ .ok l →
    d.locate r.artifact.log ≠ .ok l → done.disk.get? l = d.get? l
  /-- The disk stays well formed. -/
  wellFormed : ∀ d done, execute r.command r.artifact.log d = .ok done → d.WellFormed →
    done.disk.WellFormed

/-! ## The files of a run -/

/-- The suffixes of the files that a stage may change. -/
def Stage.suffixes : Stage → List String
  | .setup => [setupSuffix]
  | .log | .withdrawal _ => [logSuffix]
  | .tool => ["", logSuffix]
  | .status _ _ => [statusSuffix]
  | .time _ _ => [timeSuffix]

namespace Run

/-- The suffixes of the files of a run. -/
def suffixes : List String := ["", setupSuffix, logSuffix, statusSuffix, timeSuffix]

theorem mem_suffixes_of_stage {stage : Stage} {s : String} (hs : s ∈ stage.suffixes) : s ∈ suffixes := by
  have hsubset : stage.suffixes ⊆ suffixes := by
    cases stage <;> exact of_decide_eq_true rfl
  exact hsubset hs

/-- Only the first stage changes the command line. -/
theorem setupSuffix_notMem {stage : Stage} (h : stage ≠ .setup) : setupSuffix ∉ stage.suffixes := by
  cases stage with
  | setup => exact absurd rfl h
  | log | tool | withdrawal _ | status _ _ | time _ _ => exact of_decide_eq_true rfl

/-- The location of a file of a run. -/
def place (r : Run) (d : Disk) (suffix : String) : Except Cause Location :=
  d.locate (r.base.withSuffix suffix)

/-- A location is that of a file of the run. -/
def Owns (r : Run) (d : Disk) (l : Location) : Prop := ∃ s ∈ suffixes, r.place d s = .ok l

/-- Runs with one base path have the same files. -/
theorem owns_congr {r r' : Run} (h : r.base = r'.base) {d : Disk} {l : Location} : r.Owns d l ↔ r'.Owns d l := by
  simp only [Owns, place, h]

/-- The files of a run stay where they are while the disk grows, and no two of them are in one place. -/
structure Sited (r : Run) (d₁ : Disk) : Prop where
  /-- The locations stay. -/
  place_eq : ∀ d, d₁.Grows d → ∀ s ∈ suffixes, r.place d s = r.place d₁ s
  /-- Different files are in different places. -/
  place_ne : ∀ s ∈ suffixes, ∀ t ∈ suffixes, s ≠ t → ∀ l, r.place d₁ s = .ok l → r.place d₁ t ≠ .ok l

/-! ## What a step does to the disk -/

/-- The result has no suffix. -/
theorem place_result (r : Run) (d : Disk) : r.place d "" = d.locate r.base := by
  rw [place, Path.withSuffix, String.append_empty]

theorem next_setup (execute : Executor) (r : Run) (d : Disk) :
    (next execute r d .setup).value = after d
      (d.edit (r.base.withSuffix setupSuffix) (overwrite (r.base.withSuffix setupSuffix)
        r.setupText.toUTF8)) (.reached .log) := by
  rw [← writeBytes_eq]
  rfl

theorem next_log (execute : Executor) (r : Run) (d : Disk) :
    (next execute r d .log).value = after d
      (d.edit (r.base.withSuffix logSuffix) (overwrite (r.base.withSuffix logSuffix) "".toUTF8))
      (.reached .tool) := by
  rw [← writeBytes_eq]
  rfl

theorem next_status (execute : Executor) (r : Run) (d : Disk) (exit : Option Nat) (seconds : Float) :
    (next execute r d (.status exit seconds)).value = after d
      (d.edit (r.base.withSuffix statusSuffix) (overwrite (r.base.withSuffix statusSuffix)
        (statusText exit).toUTF8)) (.reached (.time exit seconds)) := by
  rw [← writeBytes_eq]
  rfl

theorem next_time (execute : Executor) (r : Run) (d : Disk) (exit : Option Nat) (seconds : Float) :
    (next execute r d (.time exit seconds)).value = after d
      (d.edit (r.base.withSuffix timeSuffix) (overwrite (r.base.withSuffix timeSuffix)
        (Decimal.plain seconds ++ "\n").toUTF8)) (.ended (.ok exit)) := by
  rw [← writeBytes_eq]
  rfl

theorem next_tool_ok {execute : Executor} {r : Run} {d : Disk} {done : Executed}
    (h : execute r.command r.artifact.log d = .ok done) :
    (next execute r d .tool).value = (.reached (.status done.exit done.seconds), done.disk) := by
  rw [next, h]
  rfl

theorem next_tool_error {execute : Executor} {r : Run} {d : Disk} {cause : Cause}
    (h : execute r.command r.artifact.log d = .error cause) :
    (next execute r d .tool).value = (.reached (.withdrawal cause), d) := by
  rw [next, h]
  rfl

/-- Whether the log can be removed or not, the run ends. -/
theorem next_withdrawal (execute : Executor) (r : Run) (d : Disk) (cause : Cause) :
    (next execute r d (.withdrawal cause)).value = (.ended (.error cause), (d.outcome
      (d.edit (r.base.withSuffix logSuffix) (takeAway (r.base.withSuffix logSuffix)))).2) := by
  have hremove : d.edit (r.base.withSuffix logSuffix) (takeAway (r.base.withSuffix logSuffix)) =
      d.removeFile r.artifact.log := (removeFile_eq d _).symm
  rw [next, hremove]
  cases d.removeFile r.artifact.log <;> rfl

theorem snd_after (d : Disk) (action : Except Cause Disk) (onward : Progress) :
    (after d action onward).2 = (d.outcome action).2 := by
  cases action <;> rfl

/-- **All that a step of a run can do to the disk**: an edit of a file of its stage, perhaps one that
fails, or what the tool does. -/
theorem next_cases (execute : Executor) (r : Run) (d : Disk) (stage : Stage) :
    (∃ s ∈ stage.suffixes, ∃ f, SparesFolders f ∧
      (next execute r d stage).value.2 = (d.outcome (d.edit (r.base.withSuffix s) f)).2) ∨
    (next execute r d stage).value.2 = d ∨
    stage = .tool ∧ ∃ done, execute r.command r.artifact.log d = .ok done ∧
      (next execute r d stage).value.2 = done.disk := by
  cases stage with
  | setup =>
    rw [next_setup, snd_after]
    exact .inl ⟨setupSuffix, List.mem_cons_self, _, sparesFolders_overwrite _ _, rfl⟩
  | log =>
    rw [next_log, snd_after]
    exact .inl ⟨logSuffix, List.mem_cons_self, _, sparesFolders_overwrite _ _, rfl⟩
  | tool =>
    cases h : execute r.command r.artifact.log d with
    | ok done => exact .inr (.inr ⟨rfl, done, rfl, by rw [next_tool_ok h]⟩)
    | error cause => exact .inr (.inl (by rw [next_tool_error h]))
  | withdrawal cause =>
    rw [next_withdrawal]
    exact .inl ⟨logSuffix, List.mem_cons_self, _, sparesFolders_takeAway _, rfl⟩
  | status exit seconds =>
    rw [next_status, snd_after]
    exact .inl ⟨statusSuffix, List.mem_cons_self, _, sparesFolders_overwrite _ _, rfl⟩
  | time exit seconds =>
    rw [next_time, snd_after]
    exact .inl ⟨timeSuffix, List.mem_cons_self, _, sparesFolders_overwrite _ _, rfl⟩

/-! ## What a step leaves alone -/

/-- No folder is lost in a step. -/
theorem grows_next {execute : Executor} {r : Run} (ho : execute.Orderly r) (d : Disk) (stage : Stage) :
    d.Grows (next execute r d stage).value.2 := by
  rcases next_cases execute r d stage with ⟨s, -, f, hf, h⟩ | h | ⟨-, done, hdone, h⟩
  · rw [h]
    cases he : d.edit (r.base.withSuffix s) f with
    | ok e => exact grows_edit hf he
    | error cause => exact .refl d
  · rw [h]
    exact .refl d
  · rw [h]
    exact ho.grows d done hdone

theorem wellFormed_next {execute : Executor} {r : Run} (ho : execute.Orderly r) {d : Disk}
    (hd : d.WellFormed) (stage : Stage) : (next execute r d stage).value.2.WellFormed := by
  rcases next_cases execute r d stage with ⟨s, -, f, hf, h⟩ | h | ⟨-, done, hdone, h⟩
  · rw [h]
    cases he : d.edit (r.base.withSuffix s) f with
    | ok e => exact hd.edit hf he
    | error cause => exact hd
  · rw [h]
    exact hd
  · rw [h]
    exact ho.wellFormed d done hdone hd

/-- **A step changes the files of its stage only.** -/
theorem get?_next {execute : Executor} {r : Run} (ho : execute.Orderly r) {d₁ d : Disk}
    (hr : r.Sited d₁) (hd : d₁.Grows d) {stage : Stage} {l : Location}
    (hl : ∀ s ∈ stage.suffixes, r.place d₁ s ≠ .ok l) :
    (next execute r d stage).value.2.get? l = d.get? l := by
  have hplace : ∀ s ∈ stage.suffixes, r.place d s ≠ .ok l := fun s hs => by
    rw [hr.place_eq d hd s (mem_suffixes_of_stage hs)]
    exact hl s hs
  rcases next_cases execute r d stage with ⟨s, hs, f, hf, h⟩ | h | ⟨rfl, done, hdone, h⟩
  · rw [h]
    cases he : d.edit (r.base.withSuffix s) f with
    | error cause => rfl
    | ok e =>
      obtain ⟨m, o, hm, -, rfl⟩ := edit_eq_ok_iff.1 he
      refine get?_set_of_ne d ?_ o
      rintro rfl
      exact hplace s hs hm
  · rw [h]
  · rw [h]
    refine ho.frame d done hdone l ?_ (hplace logSuffix (List.mem_cons_of_mem _ List.mem_cons_self))
    have hresult := hplace "" List.mem_cons_self
    rwa [place_result] at hresult

/-- A run changes its own files only. -/
theorem get?_next_of_not_owns {execute : Executor} {r : Run} (ho : execute.Orderly r) {d₁ d : Disk}
    (hr : r.Sited d₁) (hd : d₁.Grows d) (stage : Stage) {l : Location} (hl : ¬ r.Owns d₁ l) :
    (next execute r d stage).value.2.get? l = d.get? l :=
  get?_next ho hr hd fun s hs hplace => hl ⟨s, mem_suffixes_of_stage hs, hplace⟩

/-! ## From a stage to the end -/

/-- How a run ends that has come so far, and the disk then. -/
def conclude (execute : Executor) (r : Run) : Progress × Disk → Except Cause (Option Nat) × Disk
  | (.ended result, d) => (result, d)
  | (.reached s, d) => (finish execute r s d).value

/-- A run goes on from what its next step has done. -/
theorem value_finish (execute : Executor) (r : Run) (stage : Stage) (d : Disk) :
    (finish execute r stage d).value = conclude execute r (next execute r d stage).value := by
  rw [finish]
  split
  · rename_i result h
    have hnext : (next execute r d stage).value = (.ended result, (next execute r d stage).value.2) :=
      Prod.ext h rfl
    exact (congrArg (conclude execute r) hnext).symm
  · rename_i s h
    have hnext : (next execute r d stage).value = (.reached s, (next execute r d stage).value.2) :=
      Prod.ext h rfl
    exact (congrArg (conclude execute r) hnext).symm

/-- No folder is lost in a run. -/
theorem grows_finish {execute : Executor} {r : Run} (ho : execute.Orderly r) (n : Nat) :
    ∀ {d : Disk} {s : Stage}, s.stepsLeft ≤ n → d.Grows (finish execute r s d).value.2 := by
  induction n with
  | zero =>
    intro d s hs
    cases s <;> simp [Stage.stepsLeft] at hs
  | succ n ih =>
    intro d s hs
    have hgrows := grows_next ho d s
    rw [value_finish]
    cases hd : (next execute r d s).value with
    | mk p d' =>
      rw [hd] at hgrows
      cases p with
      | ended ending => exact hgrows
      | reached t =>
        have hless : t.stepsLeft < s.stepsLeft := stepsLeft_lt_of_next (congrArg Prod.fst hd)
        exact hgrows.trans (ih (by omega))

end Run
end CheckerTrials
