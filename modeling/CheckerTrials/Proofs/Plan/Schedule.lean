import CheckerTrials.Proofs.Plan.Crew
import Mathlib.Algebra.GroupWithZero.Nat
import Mathlib.Data.List.Basic

/-!
# Schedules of a crew

Whoever takes a turn when, a crew comes to an end (`stepsLeft_lt_of_step`, `exists_step`), and all ends are
the same but for the durations (`Settled.of_finished`, `agree_of_finished`).  One way to get there is that
every worker does all its runs before the next one begins (`steps_inOrder`), which is how `Plan.perform` goes
about it.
-/

set_option autoImplicit false

namespace CheckerTrials

open Run

/-! ## The end of a crew -/

/-- How many steps a run may take after this progress. -/
def Progress.stepsLeft : Progress → Nat
  | .reached s => s.stepsLeft
  | .ended _ => 0

namespace Crew

/-- How many steps a crew may take at most. -/
def stepsLeft (c : Crew) : Nat := (c.reports.map fun q => q.2.stepsLeft).sum

/-- **No schedule goes on for ever.** -/
theorem stepsLeft_lt_of_step {execute : Executor} {c c' : Crew} (h : Step execute c c') :
    c'.stepsLeft < c.stepsLeft := by
  obtain ⟨clocked, -, before, r, s, after, hc, hc', -⟩ := reports_step h
  have hless : (r.next clocked c.disk s).value.1.stepsLeft < s.stepsLeft := by
    cases hstep : (r.next clocked c.disk s).value.1 with
    | ended ending => cases s <;> simp [Progress.stepsLeft, Stage.stepsLeft]
    | reached t => exact stepsLeft_lt_of_next hstep
  have hreached : (Progress.reached s).stepsLeft = s.stepsLeft := rfl
  rw [stepsLeft, stepsLeft, hc, hc']
  simp only [List.map_append, List.map_cons, List.sum_append, List.sum_cons]
  omega

/-- **No schedule gets stuck** before all runs have ended. -/
theorem exists_step (execute : Executor) {c : Crew} (h : ¬ c.Finished) : ∃ c', Step execute c c' := by
  obtain ⟨d, workers⟩ := c
  simp only [Finished, not_forall] at h
  obtain ⟨w, hw, hwaiting⟩ := h
  obtain ⟨before, after, rfl⟩ := List.append_of_mem hw
  obtain ⟨ended, stage, waiting⟩ := w
  obtain ⟨r, rest, rfl⟩ := List.exists_cons_of_ne_nil hwaiting
  have hnext : ∃ w' d', Worker.next execute ⟨ended, stage, r :: rest⟩ d = some (w', d') := by
    simp only [Worker.next]
    split
    · exact ⟨_, _, rfl⟩
    · exact ⟨_, _, rfl⟩
  obtain ⟨w', d', hnext⟩ := hnext
  exact ⟨_, .turn rfl hnext⟩

/-- All runs of a crew that is finished have ended. -/
theorem reports_of_finished {c : Crew} (h : c.Finished) :
    c.reports = c.ended.map fun (r, ending) => (r, .ended ending) := by
  rw [reports, ended, List.map_flatMap]
  refine List.flatMap_congr fun w hw => ?_
  rw [Worker.reports, h w hw]
  exact List.append_nil _

end Crew

/-- The durations of runs are at these locations. -/
def IsTime (d₁ : Disk) (runs : List Run) (l : Location) : Prop := ∃ r ∈ runs, r.place d₁ timeSuffix = .ok l

/-- Two disks are the same, but for the content of files at some locations. -/
structure Disk.SameBut (d e : Disk) (apart : Location → Prop) : Prop where
  /-- The working folder is the same. -/
  home : e.home = d.home
  /-- The same stands at all other locations. -/
  get? : ∀ l, ¬ apart l → e.get? l = d.get? l
  /-- The same kind of thing stands everywhere. -/
  shape : ∀ l, (e.get? l).map Entry.shape = (d.get? l).map Entry.shape

namespace Settled

variable {execute : Executor} {d₁ : Disk} {runs : List Run}

/-- **How a crew ends**: every run has ended once and in its place, as it would have ended alone. -/
theorem of_finished {c : Crew} (h : Settled execute d₁ runs c.disk c.reports) (hf : c.Finished) :
    c.ended = runs.map (fun r => (r, (r.alone execute d₁).1)) ∧
      ∀ r ∈ runs, r.Alike d₁ c.disk (r.alone execute d₁).2 := by
  have hreports := Crew.reports_of_finished hf
  have hruns : c.ended.map Prod.fst = runs := by
    rw [← h.runs_eq, hreports, List.map_map]
    rfl
  have hone : ∀ q ∈ c.ended, q.2 = (q.1.alone execute d₁).1 ∧
      q.1.Alike d₁ c.disk (q.1.alone execute d₁).2 := by
    intro q hq
    refine h.alone q.1 (.ended q.2) ?_
    rw [hreports]
    exact List.mem_map_of_mem hq
  constructor
  · rw [← hruns, List.map_map]
    conv => lhs; rw [← List.map_id c.ended]
    exact List.map_congr_left fun q hq => Prod.ext rfl (hone q hq).1
  · intro r hr
    rw [← hruns] at hr
    obtain ⟨q, hq, rfl⟩ := List.mem_map.1 hr
    exact (hone q hq).2

/-- **All schedules end alike**, but for the durations. -/
theorem agree_of_finished {c c' : Crew} (h : Settled execute d₁ runs c.disk c.reports)
    (hf : c.Finished) (h' : Settled execute d₁ runs c'.disk c'.reports) (hf' : c'.Finished) :
    c'.ended = c.ended ∧ c.disk.SameBut c'.disk (IsTime d₁ runs) := by
  obtain ⟨hended, halike⟩ := h.of_finished hf
  obtain ⟨hended', halike'⟩ := h'.of_finished hf'
  have hboth : ∀ r ∈ runs, r.Alike d₁ c'.disk c.disk :=
    fun r hr => (halike' r hr).trans (halike r hr).symm
  have hframe : ∀ l, (∀ r ∈ runs, ¬ r.Owns d₁ l) → c'.disk.get? l = c.disk.get? l :=
    fun l hl => (h'.frame l hl).trans (h.frame l hl).symm
  -- a location belongs to a run, and there the disks are alike, or it belongs to none of them
  refine ⟨hended'.trans hended.symm, h'.grows.home.trans h.grows.home.symm, fun l hl => ?_,
    fun l => ?_⟩
  · by_cases hown : ∃ r ∈ runs, r.Owns d₁ l
    · obtain ⟨r, hr, s, hs, hplace⟩ := hown
      refine (hboth r hr).file s hs ?_ l hplace
      rintro rfl
      exact hl ⟨r, hr, hplace⟩
    · exact hframe l fun r hr hr' => hown ⟨r, hr, hr'⟩
  · by_cases hown : ∃ r ∈ runs, r.Owns d₁ l
    · obtain ⟨r, hr, s, hs, hplace⟩ := hown
      by_cases hst : s = timeSuffix
      · subst hst
        exact (hboth r hr).time l hplace
      · rw [(hboth r hr).file s hs hst l hplace]
    · rw [hframe l fun r hr hr' => hown ⟨r, hr, hr'⟩]

end Settled

/-! ## One worker after the other -/

/-- Carries out runs one after the other. -/
def inOrder (execute : Executor) : List Run → Disk → List (Run × Ending) × Disk
  | [], d => ([], d)
  | r :: rest, d =>
    let done := r.alone execute d
    let others := inOrder execute rest done.2
    ((r, done.1) :: others.1, others.2)

theorem inOrder_append (execute : Executor) (runs more : List Run) (d : Disk) :
    inOrder execute (runs ++ more) d =
      ((inOrder execute runs d).1 ++ (inOrder execute more (inOrder execute runs d).2).1,
        (inOrder execute more (inOrder execute runs d).2).2) := by
  induction runs generalizing d with
  | nil => rfl
  | cons r rest ih => simp only [List.cons_append, inOrder, ih]

namespace Crew

variable {execute : Executor}

/-- A worker may take turns until its current run has ended. -/
theorem steps_finish (n : Nat) : ∀ {d : Disk} {before after : List Worker} {ended : List (Run × Ending)}
    {r : Run} {rest : List Run} {s : Stage}, s.stepsLeft ≤ n →
    Steps execute ⟨d, before ++ ⟨ended, s, r :: rest⟩ :: after⟩
      ⟨(r.finish execute s d).value.2,
        before ++ ⟨ended ++ [(r, (r.finish execute s d).value.1)], .setup, rest⟩ :: after⟩ := by
  induction n with
  | zero =>
    intro d before after ended r rest s hs
    cases s <;> simp [Stage.stepsLeft] at hs
  | succ n ih =>
    intro d before after ended r rest s hs
    rw [value_finish]
    cases hstep : (r.next execute d s).value with
    | mk p d' =>
      cases p with
      | ended ending =>
        refine .single (.turn rfl ?_)
        simp only [Worker.next, hstep]
        rfl
      | reached t =>
        have hless : t.stepsLeft < s.stepsLeft := stepsLeft_lt_of_next (congrArg Prod.fst hstep)
        refine .head (.turn rfl ?_) (ih (by omega))
        simp only [Worker.next, hstep]

/-- A worker may take turns until all its runs have ended. -/
theorem steps_worker {before after : List Worker} (runs : List Run) {d : Disk}
    {ended : List (Run × Ending)} :
    Steps execute ⟨d, before ++ ⟨ended, .setup, runs⟩ :: after⟩
      ⟨(inOrder execute runs d).2,
        before ++ ⟨ended ++ (inOrder execute runs d).1, .setup, []⟩ :: after⟩ := by
  induction runs generalizing d ended with
  | nil =>
    rw [inOrder, List.append_nil]
  | cons r rest ih =>
    have hrest := @ih (r.alone execute d).2 (ended ++ [(r, (r.alone execute d).1)])
    rw [List.append_assoc, List.singleton_append] at hrest
    exact (steps_finish _ (Nat.le_refl _)).trans hrest

/-- **One worker after the other**: one schedule of a crew is that every worker does all its runs before the
next one begins. -/
theorem steps_inOrder (slices : List (List Run)) (d : Disk) (before : List Worker)
    (hbefore : ∀ w ∈ before, w.waiting = []) :
    ∃ c : Crew, Steps execute ⟨d, before ++ slices.map Worker.start⟩ c ∧ c.Finished ∧
      c.disk = (inOrder execute slices.flatten d).2 ∧
      c.ended = before.flatMap Worker.ended ++ (inOrder execute slices.flatten d).1 := by
  induction slices generalizing d before with
  | nil =>
    refine ⟨⟨d, before⟩, ?_, hbefore, rfl, ?_⟩
    · rw [List.map_nil, List.append_nil]
    · simp [ended, inOrder]
  | cons runs rest ih =>
    have hfirst : Steps execute ⟨d, before ++ (runs :: rest).map Worker.start⟩
        ⟨(inOrder execute runs d).2,
          before ++ ⟨(inOrder execute runs d).1, .setup, []⟩ :: rest.map Worker.start⟩ :=
      steps_worker runs
    obtain ⟨c, hsteps, hfinished, hdisk, hended⟩ := ih (inOrder execute runs d).2
      (before ++ [⟨(inOrder execute runs d).1, .setup, []⟩]) (by
        intro w hw
        rcases List.mem_append.1 hw with hw | hw
        · exact hbefore w hw
        · rw [List.mem_singleton] at hw
          rw [hw])
    refine ⟨c, ?_, hfinished, ?_, ?_⟩
    · rw [List.append_assoc, List.singleton_append] at hsteps
      exact hfirst.trans hsteps
    · rw [hdisk, List.flatten_cons, inOrder_append]
    · rw [hended, List.flatten_cons, inOrder_append]
      simp
end Crew

end CheckerTrials
