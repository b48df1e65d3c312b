import CheckerTrials.Proofs.Plan.Likeness
import Mathlib.Data.List.Pairwise
import Mathlib.Logic.Relation

/-!
# Workers that take turns

A `Crew` is a disk and the workers on it.  Each worker carries out its runs one after the other, and in a
step of the crew some worker does what is next in its current run (`Crew.Step`).  Nothing is said about whose
turn it is, and a tool may take as long as it likes.

The order of the turns does not matter.  If no two runs have a file in common, every run ends as it would end
if it were carried out alone on the disk that the crew began with, and leaves the same behind
(`Settled.of_steps`).  What carries this is that a run that is under way would still end like that if nobody
else took a turn any more.

* `Worker.reports`: how far a worker has come with each of its runs.
* `Settled`: what is true of a crew at any time.
-/

set_option autoImplicit false

namespace CheckerTrials

open Run

/-- What has come of a run: its exit code, or why it could not be carried out. -/
abbrev Ending := Except Cause (Option Nat)

/-- A worker with its runs. -/
structure Worker where
  /-- The runs that have ended. -/
  ended : List (Run × Ending)
  /-- What is next in the first of the other runs. -/
  stage : Stage
  /-- The other runs, the current one first. -/
  waiting : List Run

/-- Workers on a disk. -/
structure Crew where
  /-- The disk. -/
  disk : Disk
  /-- The workers. -/
  workers : List Worker

namespace Worker

/-- A worker that has done nothing yet. -/
def start (runs : List Run) : Worker := ⟨[], .setup, runs⟩

/-- Does what is next in the current run of a worker. -/
def next (execute : Executor) (w : Worker) (d : Disk) : Option (Worker × Disk) :=
  match w.waiting with
  | [] => none
  | r :: rest =>
    match (r.next execute d w.stage).value with
    | (.reached s, d) => some ({ w with stage := s }, d)
    | (.ended ending, d) => some (⟨w.ended ++ [(r, ending)], .setup, rest⟩, d)

/-- How far a worker has come with the runs that have not ended. -/
def underWay (stage : Stage) : List Run → List (Run × Progress)
  | [] => []
  | r :: rest => (r, .reached stage) :: rest.map fun r => (r, .reached .setup)

/-- How far a worker has come with each of its runs. -/
def reports (w : Worker) : List (Run × Progress) :=
  w.ended.map (fun (r, ending) => (r, .ended ending)) ++ underWay w.stage w.waiting

theorem reports_start (runs : List Run) :
    (start runs).reports = runs.map fun r => (r, .reached .setup) := by
  cases runs <;> rfl

/-- A run that waits behind another one has not begun. -/
theorem underWay_setup (runs : List Run) :
    underWay .setup runs = runs.map fun r => (r, .reached .setup) := by
  cases runs <;> rfl

/-- **A turn of a worker** is one step of one run. -/
theorem reports_next {execute : Executor} {w w' : Worker} {d d' : Disk}
    (h : w.next execute d = some (w', d')) :
    ∃ before r s after, w.reports = before ++ (r, .reached s) :: after ∧
      w'.reports = before ++ (r, (r.next execute d s).value.1) :: after ∧
      d' = (r.next execute d s).value.2 := by
  obtain ⟨ended, stage, waiting⟩ := w
  cases waiting with
  | nil => cases h
  | cons r rest =>
    refine ⟨ended.map (fun (r, ending) => (r, .ended ending)), r, stage,
      rest.map fun r => (r, .reached .setup), rfl, ?_⟩
    simp only [next] at h
    split at h
    · rename_i s e hstep
      cases h
      rw [hstep]
      exact ⟨rfl, rfl⟩
    · rename_i ending e hstep
      cases h
      rw [hstep]
      refine ⟨?_, rfl⟩
      simp [reports, underWay_setup]

end Worker

namespace Crew

/-- How far a crew has come with each of its runs. -/
def reports (c : Crew) : List (Run × Progress) := c.workers.flatMap Worker.reports

/-- The runs that have ended, with what has come of them. -/
def ended (c : Crew) : List (Run × Ending) := c.workers.flatMap Worker.ended

/-- Nobody has anything left to do. -/
def Finished (c : Crew) : Prop := ∀ w ∈ c.workers, w.waiting = []

/-- A step of a crew: some worker does what is next in its current run, and if the tool is started it may
take any time. -/
inductive Step (execute : Executor) : Crew → Crew → Prop
  /-- A worker takes its turn. -/
  | turn {clocked : Executor} {before after : List Worker} {w w' : Worker} {d d' : Disk}
      (hclock : clocked.timeless = execute.timeless) (h : w.next clocked d = some (w', d')) :
      Step execute ⟨d, before ++ w :: after⟩ ⟨d', before ++ w' :: after⟩

/-- Any number of steps. -/
abbrev Steps (execute : Executor) : Crew → Crew → Prop := Relation.ReflTransGen (Step execute)

/-- A step of a crew is one step of one run. -/
theorem reports_step {execute : Executor} {c c' : Crew} (h : Step execute c c') :
    ∃ clocked : Executor, clocked.timeless = execute.timeless ∧ ∃ before r s after,
      c.reports = before ++ (r, .reached s) :: after ∧
      c'.reports = before ++ (r, (r.next clocked c.disk s).value.1) :: after ∧
      c'.disk = (r.next clocked c.disk s).value.2 := by
  cases h with
  | @turn clocked before after w w' d d' hclock h =>
    obtain ⟨earlier, r, s, later, hw, hw', hd'⟩ := Worker.reports_next h
    refine ⟨clocked, hclock, before.flatMap Worker.reports ++ earlier, r, s,
      later ++ after.flatMap Worker.reports, ?_, ?_, hd'⟩
    · simp [reports, hw]
    · simp [reports, hw']

end Crew

/-! ## What is true at any time -/

/-- **What every step of a run preserves** is preserved by any number of steps of a crew. -/
theorem Crew.preserves {execute : Executor} {P : Disk → List (Run × Progress) → Prop}
    (hstep : ∀ clocked : Executor, clocked.timeless = execute.timeless → ∀ d before r s after,
      P d (before ++ (r, .reached s) :: after) →
        P (r.next clocked d s).value.2 (before ++ (r, (r.next clocked d s).value.1) :: after))
    {c c' : Crew} (hsteps : c.Steps execute c') (h : P c.disk c.reports) : P c'.disk c'.reports := by
  induction hsteps with
  | refl => exact h
  | tail _ hnext ih =>
    obtain ⟨clocked, hclock, before, r, s, after, hc, hc', hd⟩ := Crew.reports_step hnext
    rw [hc', hd]
    exact hstep clocked hclock _ before r s after (hc ▸ ih)

/-- No two of the runs have a file in common. -/
def Separated (d₁ : Disk) (runs : List Run) : Prop :=
  runs.Pairwise fun r r' => ∀ l, r.Owns d₁ l → ¬ r'.Owns d₁ l

/-- Another run has no file where `r` has one, on whichever side of it it stands. -/
theorem Separated.not_owns {d₁ : Disk} {before after : List (Run × Progress)} {r : Run} {p : Progress}
    (h : Separated d₁ ((before ++ (r, p) :: after).map Prod.fst)) {q : Run × Progress}
    (hq : q ∈ before ++ after) {l : Location} (hl : q.1.Owns d₁ l) : ¬ r.Owns d₁ l := by
  rw [Separated, List.map_append, List.map_cons, List.pairwise_append, List.pairwise_cons] at h
  intro hown
  rcases List.mem_append.1 hq with hq | hq
  · exact h.2.2 q.1 (List.mem_map_of_mem hq) r List.mem_cons_self l hl hown
  · exact h.2.1.1 q.1 (List.mem_map_of_mem hq) l hown hl

/-- Two of the runs that are different have no file in common. -/
theorem Separated.not_owns_of_mem {d₁ : Disk} {runs : List Run} (h : Separated d₁ runs) {r r' : Run} (hr : r ∈ runs)
    (hr' : r' ∈ runs) (hne : r ≠ r') {l : Location} (hl : r.Owns d₁ l) : ¬ r'.Owns d₁ l := by
  have hsymm : Std.Symm fun q q' : Run => ∀ l, q.Owns d₁ l → ¬ q'.Owns d₁ l :=
    ⟨fun _ _ hapart l hl' hl => hapart l hl hl'⟩
  exact List.Pairwise.forall h hr hr' hne l hl

/-- What a crew does not change, if it began with the disk `d₁` and the given runs. -/
structure Framed (d₁ : Disk) (runs : List Run) (d : Disk) (reports : List (Run × Progress)) : Prop where
  /-- The reports are about the runs. -/
  runs_eq : reports.map Prod.fst = runs
  /-- No folder is lost. -/
  grows : d₁.Grows d
  /-- The disk stays well formed. -/
  wellFormed : d₁.WellFormed → d.WellFormed
  /-- Outside of the files of the runs nothing has changed. -/
  frame : ∀ l, (∀ r ∈ runs, ¬ r.Owns d₁ l) → d.get? l = d₁.get? l

namespace Framed

variable {execute clocked : Executor} {d₁ d : Disk} {runs : List Run}
  {before after : List (Run × Progress)} {r : Run} {s : Stage}

theorem start (d₁ : Disk) (runs : List Run) :
    Framed d₁ runs d₁ (runs.map fun r => (r, .reached .setup)) :=
  ⟨by simp [Function.comp_def], .refl d₁, id, fun _ _ => rfl⟩

theorem mem_runs (h : Framed d₁ runs d (before ++ (r, .reached s) :: after)) : r ∈ runs := by
  rw [← h.runs_eq]
  simp

/-- **It stays true** when a run takes a step. -/
theorem step (hexec : ∀ r ∈ runs, execute.Orderly r) (hsited : ∀ r ∈ runs, r.Sited d₁)
    (hclock : clocked.timeless = execute.timeless)
    (h : Framed d₁ runs d (before ++ (r, .reached s) :: after)) :
    Framed d₁ runs (r.next clocked d s).value.2
      (before ++ (r, (r.next clocked d s).value.1) :: after) := by
  have hr := h.mem_runs
  rw [(next_clocked hclock r d s).2]
  refine ⟨by simpa using h.runs_eq, h.grows.trans (grows_next (hexec r hr) d s),
    fun hd => wellFormed_next (hexec r hr) (h.wellFormed hd) s, fun l hl => ?_⟩
  rw [get?_next_of_not_owns (hexec r hr) (hsited r hr) h.grows s (hl r hr)]
  exact h.frame l hl

/-- A step of one run changes nothing for the others. -/
theorem get?_other (hexec : ∀ r ∈ runs, execute.Orderly r) (hsited : ∀ r ∈ runs, r.Sited d₁)
    (hsep : Separated d₁ runs) (h : Framed d₁ runs d (before ++ (r, .reached s) :: after))
    {q : Run × Progress} (hq : q ∈ before ++ after) {l : Location} (hl : q.1.Owns d₁ l) :
    (r.next execute d s).value.2.get? l = d.get? l := by
  have hr := h.mem_runs
  rw [← h.runs_eq] at hsep
  exact get?_next_of_not_owns (hexec r hr) (hsited r hr) h.grows s (hsep.not_owns hq hl)

end Framed

/-- A report is that of the run that has taken a step, or it is as it was. -/
theorem mem_reports {before after : List (Run × Progress)} {r : Run} {p : Progress}
    {q : Run × Progress} (hq : q ∈ before ++ (r, p) :: after) : q = (r, p) ∨ q ∈ before ++ after := by
  rw [List.mem_append, List.mem_cons] at hq
  rw [List.mem_append]
  tauto

theorem mem_reports_of_other {before after : List (Run × Progress)} {q x : Run × Progress}
    (hq : q ∈ before ++ after) : q ∈ before ++ x :: after := by
  rw [List.mem_append] at hq
  exact List.mem_append.2 (hq.imp_right (List.mem_cons_of_mem x))

/-! ## How runs end -/

/-- How a run ends that is carried out alone, and the disk then. -/
def Run.alone (execute : Executor) (r : Run) (d : Disk) : Ending × Disk :=
  (r.finish execute .setup d).value

/-- **What is true of a crew at any time**, if it began with the disk `d₁` and the given runs: outside of
their files nothing has changed, and if a run were carried on without anyone else taking a turn, it would end
as it would have ended alone on `d₁`. -/
structure Settled (execute : Executor) (d₁ : Disk) (runs : List Run) (d : Disk)
    (reports : List (Run × Progress)) : Prop extends Framed d₁ runs d reports where
  /-- Every run ends as it would alone. -/
  alone : ∀ r p, (r, p) ∈ reports → (r.conclude execute (p, d)).1 = (r.alone execute d₁).1 ∧
    r.Alike d₁ (r.conclude execute (p, d)).2 (r.alone execute d₁).2

namespace Settled

variable {execute : Executor} {d₁ d : Disk} {runs : List Run}

/-- It is true in the beginning. -/
theorem start (execute : Executor) (d₁ : Disk) (runs : List Run)
    (hexec : ∀ r ∈ runs, execute.Confined r) (hsited : ∀ r ∈ runs, r.Sited d₁) :
    Settled execute d₁ runs d₁ (runs.map fun r => (r, .reached .setup)) := by
  refine ⟨.start d₁ runs, fun r p hr => ?_⟩
  obtain ⟨r', hr', he⟩ := List.mem_map.1 hr
  cases he
  exact ⟨rfl, (finish_alike (hexec r hr') (hsited r hr') _ (Nat.le_refl _) (.refl (.refl d₁))
    (.refl .setup)).2⟩

/-- **It stays true** when a run takes a step. -/
theorem step (hexec : ∀ r ∈ runs, execute.Confined r) (hsited : ∀ r ∈ runs, r.Sited d₁)
    (hsep : Separated d₁ runs) {clocked : Executor} (hclock : clocked.timeless = execute.timeless)
    {before after : List (Run × Progress)} {r : Run} {s : Stage}
    (h : Settled execute d₁ runs d (before ++ (r, .reached s) :: after)) :
    Settled execute d₁ runs (r.next clocked d s).value.2
      (before ++ (r, (r.next clocked d s).value.1) :: after) := by
  have horderly : ∀ r ∈ runs, execute.Orderly r := fun r hr => (hexec r hr).toOrderly
  have hframed := h.toFramed.step horderly hsited hclock
  have hr := h.toFramed.mem_runs
  refine ⟨hframed, fun q p hq => ?_⟩
  obtain ⟨hprogress, hdisk⟩ := next_clocked hclock r d s
  have hgrows := hframed.grows
  rw [hdisk] at hgrows ⊢
  rcases mem_reports hq with he | hmem
  · cases he
    obtain ⟨hresult, hfiles⟩ := h.alone r (.reached s) (by simp)
    have hconclude : r.conclude execute (.reached s, d) =
        r.conclude execute ((r.next execute d s).value.1, (r.next execute d s).value.2) :=
      value_finish execute r s d
    rw [hconclude] at hresult hfiles
    obtain ⟨hsame, halike⟩ := conclude_alike (hexec r hr) (hsited r hr) (.refl hgrows) hprogress
    exact ⟨hsame.trans hresult, halike.trans hfiles⟩
  · have hq' : (q, p) ∈ before ++ (r, .reached s) :: after := mem_reports_of_other hmem
    have hqruns : q ∈ runs := by
      rw [← h.runs_eq]
      exact List.mem_map_of_mem hq'
    obtain ⟨hresult, hfiles⟩ := h.alone q p hq'
    have hsame : q.Alike d₁ (r.next execute d s).value.2 d :=
      .of_get?_eq hgrows h.grows fun l hl => h.toFramed.get?_other horderly hsited hsep hmem hl
    obtain ⟨heq, halike⟩ := conclude_alike (hexec q hqruns) (hsited q hqruns) hsame (.refl p)
    exact ⟨heq.trans hresult, halike.trans hfiles⟩

/-- **It is true after any number of steps** of a crew. -/
theorem of_steps (hexec : ∀ r ∈ runs, execute.Confined r) (hsited : ∀ r ∈ runs, r.Sited d₁)
    (hsep : Separated d₁ runs) {c c' : Crew} (hsteps : c.Steps execute c')
    (h : Settled execute d₁ runs c.disk c.reports) :
    Settled execute d₁ runs c'.disk c'.reports :=
  Crew.preserves (fun _ hclock _ _ _ _ _ h => step hexec hsited hsep hclock h) hsteps h

end Settled

end CheckerTrials
