import CheckerTrials.Proofs.Plan.Schedule

/-!
# The command line of a run

The first thing a run does is to write the command line of its tool, and nobody touches that file afterwards:
no later step of the run, no other run, and no tool that keeps to its files.  When a crew is finished, the
command lines of all its runs are on the disk, whatever has become of the runs (`Kept.of_finished`).
-/

set_option autoImplicit false

namespace CheckerTrials

open Disk Run

namespace Run

/-- The command line of a run can be written on a disk. -/
def Recordable (r : Run) (d : Disk) : Prop :=
  ∃ e, d.writeText (r.base.withSuffix setupSuffix) r.setupText = .ok e

/-- The command line of a run is on the disk `d`, which grew from `d₁`. -/
def Recorded (r : Run) (d₁ d : Disk) : Prop :=
  ∃ l executable, r.place d₁ setupSuffix = .ok l ∧
    d.get? l = some (.file r.setupText.toUTF8 executable)

/-- What is true of the command line of a run at any time: once the run has begun it is on the disk, and
before that nothing has happened to its place. -/
def Keeps (r : Run) (d₁ d : Disk) : Progress → Prop
  | .reached .setup => ∀ l, r.place d₁ setupSuffix = .ok l → d.get? l = d₁.get? l
  | _ => r.Recorded d₁ d

theorem setupSuffix_mem : setupSuffix ∈ suffixes := by decide

theorem keeps_of_ne {r : Run} {d₁ d : Disk} {p : Progress} (hp : p ≠ .reached .setup) :
    r.Keeps d₁ d p ↔ r.Recorded d₁ d := by
  unfold Keeps
  split
  · exact absurd rfl hp
  · rfl

/-- If the place of its command line is as it was, nothing changes for a run. -/
theorem Keeps.of_get?_eq {r : Run} {d₁ d e : Disk} {p : Progress} (h : r.Keeps d₁ d p)
    (hsame : ∀ l, r.place d₁ setupSuffix = .ok l → e.get? l = d.get? l) : r.Keeps d₁ e p := by
  by_cases hp : p = .reached .setup
  · subst hp
    exact fun l hl => (hsame l hl).trans (h l hl)
  · rw [keeps_of_ne hp] at h ⊢
    obtain ⟨l, executable, hl, hd⟩ := h
    exact ⟨l, executable, hl, (hsame l hl).trans hd⟩

/-- No run begins again. -/
theorem next_ne_setup (execute : Executor) (r : Run) (d : Disk) (s : Stage) :
    (r.next execute d s).value.1 ≠ .reached .setup := by
  intro h
  have hless := stepsLeft_lt_of_next h
  cases s <;> simp [Stage.stepsLeft] at hless

/-- **The first step** of a run writes its command line. -/
theorem recorded_next_setup {execute : Executor} {r : Run} {d₁ d : Disk} (hr : r.Sited d₁)
    (hd : d₁.Grows d) (hrecordable : r.Recordable d₁)
    (hsame : ∀ l, r.place d₁ setupSuffix = .ok l → d.get? l = d₁.get? l) :
    r.Recorded d₁ (r.next execute d .setup).value.2 := by
  obtain ⟨e, he⟩ := hrecordable
  rw [writeText, writeBytes_eq] at he
  obtain ⟨l, o, hl, ho, -⟩ := edit_eq_ok_iff.1 he
  have hplace : r.place d₁ setupSuffix = .ok l := hl
  have hne : l ≠ [] := ne_nil_of_get?_ne ((sparesFolders_overwrite _ _).ne_folder ho)
  obtain ⟨executable, hfile⟩ := overwrite_eq_ok ho
  have hedit : d.edit (r.base.withSuffix setupSuffix) (overwrite (r.base.withSuffix setupSuffix)
      r.setupText.toUTF8) = .ok (d.set l o) := by
    refine edit_eq_ok_iff.2 ⟨l, o, ?_, ?_, rfl⟩
    · exact (hr.place_eq d hd setupSuffix setupSuffix_mem).trans hplace
    · rw [hsame l hplace]
      exact ho
  refine ⟨l, executable, hplace, ?_⟩
  rw [next_setup, hedit]
  exact (get?_set_self d hne o).trans hfile

/-- The later steps of a run leave its command line alone. -/
theorem recorded_next {execute : Executor} {r : Run} (ho : execute.Orderly r) {d₁ d : Disk}
    (hr : r.Sited d₁) (hd : d₁.Grows d) {s : Stage} (hs : s ≠ .setup) (h : r.Recorded d₁ d) :
    r.Recorded d₁ (r.next execute d s).value.2 := by
  obtain ⟨l, executable, hl, hfile⟩ := h
  refine ⟨l, executable, hl, ?_⟩
  rw [get?_next ho hr hd fun t ht => ?_]
  · exact hfile
  · have hne : setupSuffix ≠ t := by
      rintro rfl
      exact setupSuffix_notMem hs ht
    exact hr.place_ne setupSuffix setupSuffix_mem t (mem_suffixes_of_stage ht) hne l hl

end Run

/-- **What is true of the command lines at any time**: each is on the disk, or its run has not begun. -/
structure Kept (d₁ : Disk) (runs : List Run) (d : Disk) (reports : List (Run × Progress)) : Prop
    extends Framed d₁ runs d reports where
  /-- No command line is lost. -/
  keeps : ∀ q ∈ reports, q.1.Keeps d₁ d q.2

namespace Kept

variable {execute : Executor} {d₁ d : Disk} {runs : List Run}

theorem start (d₁ : Disk) (runs : List Run) :
    Kept d₁ runs d₁ (runs.map fun r => (r, .reached .setup)) := by
  refine ⟨.start d₁ runs, fun q hq => ?_⟩
  obtain ⟨r, -, rfl⟩ := List.mem_map.1 hq
  exact fun _ _ => rfl

/-- **It stays true** when a run takes a step. -/
theorem step (hexec : ∀ r ∈ runs, execute.Orderly r) (hsited : ∀ r ∈ runs, r.Sited d₁)
    (hsep : Separated d₁ runs) (hrecordable : ∀ r ∈ runs, r.Recordable d₁) {clocked : Executor}
    (hclock : clocked.timeless = execute.timeless) {before after : List (Run × Progress)} {r : Run}
    {s : Stage} (h : Kept d₁ runs d (before ++ (r, .reached s) :: after)) :
    Kept d₁ runs (r.next clocked d s).value.2
      (before ++ (r, (r.next clocked d s).value.1) :: after) := by
  have hr := h.toFramed.mem_runs
  refine ⟨h.toFramed.step hexec hsited hclock, fun q hq => ?_⟩
  rw [(next_clocked hclock r d s).2]
  rcases mem_reports hq with rfl | hmem
  · rw [keeps_of_ne (next_ne_setup clocked r d s)]
    have hkeeps := h.keeps (r, .reached s) (by simp)
    by_cases hs : s = .setup
    · subst hs
      exact recorded_next_setup (hsited r hr) h.grows (hrecordable r hr) hkeeps
    · rw [keeps_of_ne fun he => hs (Progress.reached.inj he)] at hkeeps
      exact recorded_next (hexec r hr) (hsited r hr) h.grows hs hkeeps
  · refine (h.keeps q (mem_reports_of_other hmem)).of_get?_eq fun l hl => ?_
    exact h.toFramed.get?_other hexec hsited hsep hmem ⟨setupSuffix, setupSuffix_mem, hl⟩

/-- **It is true after any number of steps** of a crew. -/
theorem of_steps (hexec : ∀ r ∈ runs, execute.Orderly r) (hsited : ∀ r ∈ runs, r.Sited d₁)
    (hsep : Separated d₁ runs) (hrecordable : ∀ r ∈ runs, r.Recordable d₁) {c c' : Crew}
    (hsteps : c.Steps execute c') (h : Kept d₁ runs c.disk c.reports) :
    Kept d₁ runs c'.disk c'.reports :=
  Crew.preserves (fun _ hclock _ _ _ _ _ h => step hexec hsited hsep hrecordable hclock h) hsteps h

/-- **When all runs have ended**, the command lines of all of them are there. -/
theorem of_finished {c : Crew} (h : Kept d₁ runs c.disk c.reports) (hf : c.Finished) :
    ∀ r ∈ runs, r.Recorded d₁ c.disk := by
  intro r hr
  have hreports := Crew.reports_of_finished hf
  rw [← h.runs_eq, hreports, List.map_map] at hr
  obtain ⟨⟨q, ending⟩, hq, rfl⟩ := List.mem_map.1 hr
  exact h.keeps (q, .ended ending) (hreports ▸ List.mem_map_of_mem hq)

end Kept

end CheckerTrials
