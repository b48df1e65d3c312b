import CheckerTrials.Proofs.Plan.Places
import CheckerTrials.Proofs.Plan.Splitting

/-!
# What carrying out a plan amounts to

`Plan.perform` is work on a disk: it makes notes, may fail, and threads the disk through the jobs.  Without
the notes it is simple: if there is someone to do the work and the folders can be created, the runs of all
jobs are carried out in order (`perform_ok`), however many workers share them.

* `on_jobs`: what the jobs of a list amount to.
* `Run.Course`: the four ways in which a single run can go, and what has come of it in each.
* `Run.ran?_of_unstarted`: a run whose tool is not started leaves nothing for the list of results.
-/

set_option autoImplicit false

namespace CheckerTrials

open Disk CheckerTrials.Path

/-! ## One job -/

namespace Work

variable {ε ζ α : Type}

theorem on_lift (f : StateT Disk Noted α) (d : Disk) :
    on (ExceptT.lift f : Work ε α) d = ⟨.ok (f d).value.1, (f d).value.2, (f d).notes⟩ := by
  have hrun : StateT.run (ExceptT.run (ExceptT.lift f : Work ε α)) d =
      (fun q : α × Disk => (Except.ok q.1, q.2)) <$> (f d : Noted (α × Disk)) := rfl
  rw [on, hrun, Noted.map_eq]

theorem on_attempt (w : Work ε α) (d : Disk) : on (w.attempt : Work ζ (Except ε α)) d =
    ⟨.ok (on w d).result, (on w d).disk, (on w d).notes⟩ := by
  rw [attempt, on_lift]
  rfl

theorem on_note (x : Noted α) (d : Disk) : on (note x : Work ε α) d = ⟨.ok x.value, d, x.notes⟩ := by
  rw [note, on_lift]
  exact congrArg (Done.mk (.ok x.value) d) (List.append_nil x.notes)

/-- What work does after something that has succeeded. -/
theorem on_bind_ok {β : Type} {w : Work ε α} {d : Disk} {a : α} (h : (on w d).result = .ok a)
    (f : α → Work ε β) :
    (on (w >>= f) d).result = (on (f a) (on w d).disk).result ∧
      (on (w >>= f) d).disk = (on (f a) (on w d).disk).disk := by
  rw [on_bind]
  cases hw : on w d with
  | mk result e notes =>
    rw [hw] at h
    subst h
    exact ⟨rfl, rfl⟩

/-- Work ends with a failure. -/
theorem on_bind_error {β : Type} {w : Work ε α} {d : Disk} {e : ε} (h : (on w d).result = .error e)
    (f : α → Work ε β) :
    (on (w >>= f) d).result = .error e ∧ (on (w >>= f) d).disk = (on w d).disk := by
  rw [on_bind]
  cases hw : on w d with
  | mk result e notes =>
    rw [hw] at h
    subst h
    exact ⟨rfl, rfl⟩

/-- What goes before the end of work that has succeeded. -/
theorem exists_of_on_bind {β : Type} {w : Work ε α} {f : α → Work ε β} {d : Disk} {b : β}
    (h : (on (w >>= f) d).result = .ok b) :
    ∃ a, (on w d).result = .ok a ∧ (on (f a) (on w d).disk).result = .ok b ∧
      (on (w >>= f) d).disk = (on (f a) (on w d).disk).disk := by
  cases hresult : (on w d).result with
  | error e =>
    rw [(on_bind_error hresult f).1] at h
    cases h
  | ok a =>
    obtain ⟨hok, hdisk⟩ := on_bind_ok hresult f
    exact ⟨a, rfl, hok.symm.trans h, hdisk⟩

/-- Work on the disk `d` comes to a result and leaves the disk `e`, whatever is noted on the way. -/
structure Yields (w : Work ε α) (d : Disk) (result : Except ε α) (e : Disk) : Prop where
  /-- What has come of it. -/
  result : (on w d).result = result
  /-- What is left. -/
  disk : (on w d).disk = e

namespace Yields

variable {β : Type} {w : Work ε α} {d e : Disk} {f : α → Work ε β}

/-- What is noted is left out. -/
theorem of_on {result : Except ε α} {notes : List Note} (h : on w d = ⟨result, e, notes⟩) :
    Yields w d result e :=
  ⟨congrArg Done.result h, congrArg Done.disk h⟩

/-- A failure ends the work. -/
theorem bind_error {failure : ε} (h : Yields w d (.error failure) e) :
    Yields (w >>= f) d (.error failure) e := by
  obtain ⟨hresult, hdisk⟩ := on_bind_error h.result f
  exact ⟨hresult, hdisk.trans h.disk⟩

theorem bind_ok {a : α} {last : Disk} {result : Except ε β} (h : Yields w d (.ok a) e)
    (hrest : Yields (f a) e result last) : Yields (w >>= f) d result last := by
  obtain ⟨hresult, hdisk⟩ := on_bind_ok h.result f
  rw [h.disk] at hresult hdisk
  exact ⟨hresult.trans hrest.result, hdisk.trans hrest.disk⟩

/-- A note changes nothing. -/
theorem note_bind {x : Noted α} {last : Disk} {result : Except ε β} (h : Yields (f x.value) d result last) :
    Yields (note x >>= f) d result last :=
  bind_ok (of_on (on_note x d)) h

end Yields

/-- A note that is made or not changes nothing. -/
theorem on_ite_note (c : Prop) [Decidable c] (x : Noted Unit) (a : α) (d : Disk) :
    (on (if c then note x >>= fun _ => pure a else pure a : Work ε α) d).result = .ok a ∧
      (on (if c then note x >>= fun _ => pure a else pure a : Work ε α) d).disk = d := by
  split
  · rw [on_bind, on_note]
    exact ⟨rfl, rfl⟩
  · exact ⟨rfl, rfl⟩

theorem on_ofExcept (x : Except ε α) (d : Disk) : on (ofExcept x) d = ⟨x, d, []⟩ := by
  cases x <;> rfl

theorem on_ask (question : Disk → α) (d : Disk) :
    on (ask question : Work ε α) d = ⟨.ok (question d), d, []⟩ := rfl

theorem on_tryAsk (question : Disk → Except ε α) (d : Disk) :
    on (tryAsk question) d = ⟨question d, d, []⟩ := by
  have hask : on (tryAsk question) d = on (ofExcept (question d)) d := rfl
  rw [hask, on_ofExcept]

end Work

/-- What a run that has ended leaves for the list of results. -/
def Run.ran? : Run × Ending → Option Ran
  | (r, .ok exit) => some { artifact := r.artifact, exit }
  | (_, .error _) => none

/-- What is left for the list has the files of the run. -/
theorem Run.artifact_of_ran? {r : Run} {ending : Ending} {x : Ran} (h : ran? (r, ending) = some x) :
    x.artifact = r.artifact := by
  cases ending with
  | ok exit =>
    cases h
    rfl
  | error cause => cases h

/-- Carrying out a run as work. -/
theorem on_perform (execute : Executor) (r : Run) (d : Disk) :
    ((r.perform execute).on d).result = (r.alone execute d).1.map (fun exit => ⟨r.artifact, exit⟩) ∧
      ((r.perform execute).on d).disk = (r.alone execute d).2 := by
  have hlift : (Work.on (ExceptT.lift fun d => r.finish execute .setup d : Work Cause Ending) d) =
      ⟨.ok (r.alone execute d).1, (r.alone execute d).2, (r.finish execute .setup d).notes⟩ :=
    Work.on_lift _ d
  have hbind := Work.on_bind_ok (congrArg Done.result hlift) fun ending => (do
    return { artifact := r.artifact, exit := ← Work.ofExcept ending } : Work Cause Ran)
  rw [hlift] at hbind
  rw [Run.perform, hbind.1, hbind.2]
  cases (r.alone execute d).1 with
  | ok exit => exact ⟨rfl, rfl⟩
  | error cause => exact ⟨rfl, rfl⟩

/-! ## The course of a run -/

namespace Run

variable {execute : Executor} {r : Run} {d e : Disk} {ending : Ending}

/-- Writes the command line of a run. -/
def record (r : Run) (d : Disk) : Except Cause Disk :=
  d.writeText (r.base.withSuffix setupSuffix) r.setupText

/-- Opens the log of a run. -/
def openLog (r : Run) (d : Disk) : Except Cause Disk := d.writeText r.artifact.log ""

/-- **All ways a run can go**, with what has come of it and the disk in the end. -/
inductive Course (execute : Executor) (r : Run) (d : Disk) : Ending → Disk → Prop
  /-- The command line cannot be written. -/
  | unrecorded {cause : Cause} (hrecord : r.record d = .error cause) : Course execute r d (.error cause) d
  /-- The log cannot be opened. -/
  | unopened {d₁ : Disk} {cause : Cause} (hrecord : r.record d = .ok d₁)
      (hlog : r.openLog d₁ = .error cause) : Course execute r d (.error cause) d₁
  /-- The tool cannot be started, and the log is taken back. -/
  | unstarted {d₁ d₂ : Disk} {cause : Cause} (hrecord : r.record d = .ok d₁)
      (hlog : r.openLog d₁ = .ok d₂) (htool : execute r.command r.artifact.log d₂ = .error cause) :
      Course execute r d (.error cause) (d₂.outcome (d₂.removeFile r.artifact.log)).2
  /-- The tool has run, and what is known about it is written. -/
  | ran {d₁ d₂ : Disk} {done : Executed} (hrecord : r.record d = .ok d₁)
      (hlog : r.openLog d₁ = .ok d₂) (htool : execute r.command r.artifact.log d₂ = .ok done) :
      Course execute r d (r.finish execute (.status done.exit done.seconds) done.disk).value.1
        (r.finish execute (.status done.exit done.seconds) done.disk).value.2

theorem course_alone (execute : Executor) (r : Run) (d : Disk) :
    Course execute r d (r.alone execute d).1 (r.alone execute d).2 := by
  have hsetup : (next execute r d .setup).value = after d (r.record d) (.reached .log) := rfl
  rw [alone, value_finish, hsetup]
  cases hrecord : r.record d with
  | error cause => exact .unrecorded hrecord
  | ok d₁ =>
    have hopen : (next execute r d₁ .log).value = after d₁ (r.openLog d₁) (.reached .tool) := rfl
    rw [after, conclude, value_finish, hopen]
    cases hlog : r.openLog d₁ with
    | error cause => exact .unopened hrecord hlog
    | ok d₂ =>
      rw [after, conclude, value_finish]
      cases htool : execute r.command r.artifact.log d₂ with
      | error cause =>
        rw [next_tool_error htool, conclude, value_finish, next_withdrawal, conclude]
        have hremove := Course.unstarted hrecord hlog htool
        rw [removeFile_eq] at hremove
        exact hremove
      | ok done =>
        rw [next_tool_ok htool, conclude]
        exact .ran hrecord hlog htool

/-- The command line of a run was written, but its tool was not started. -/
def Unstarted (execute : Executor) (r : Run) (d : Disk) : Prop :=
  ∃ d₁, r.record d = .ok d₁ ∧ ∀ d₂, r.openLog d₁ = .ok d₂ →
    ∃ cause, execute r.command r.artifact.log d₂ = .error cause

/-- **A run whose tool is not started** fails. -/
theorem Course.exists_error (h : Course execute r d ending e) (hunstarted : r.Unstarted execute d) :
    ∃ cause, ending = .error cause := by
  obtain ⟨d', hrecorded, hnone⟩ := hunstarted
  cases h with
  | unrecorded _ | unopened _ _ | unstarted _ _ _ => exact ⟨_, rfl⟩
  | ran hrecord hlog htool =>
    rw [hrecord] at hrecorded
    cases hrecorded
    obtain ⟨cause, herror⟩ := hnone _ hlog
    rw [htool] at herror
    cases herror

/-- It had a place for its command line. -/
theorem Unstarted.exists_owns (h : r.Unstarted execute d) : ∃ l, r.Owns d l := by
  obtain ⟨_, hrecord, -⟩ := h
  have hedit : d.edit (r.base.withSuffix setupSuffix) (overwrite (r.base.withSuffix setupSuffix)
      r.setupText.toUTF8) = .ok _ := (writeBytes_eq d _ _).symm.trans hrecord
  obtain ⟨l, -, hl, -⟩ := edit_eq_ok_iff.1 hedit
  exact ⟨l, setupSuffix, by decide, hl⟩

/-- It leaves nothing for the list of results. -/
theorem ran?_of_unstarted (h : r.Unstarted execute d) : ran? (r, (r.alone execute d).1) = none := by
  obtain ⟨cause, hending⟩ := (course_alone execute r d).exists_error h
  rw [hending]
  rfl

end Run

/-- Running the tool once is carrying out the run whose path is written from the root. -/
theorem on_runOnce {execute : Executor} {launcher : Launcher} {descriptor : Descriptor} {flags : Flags}
    {output base : Path} {d : Disk} (h : output.absolute? d.home = some base) :
    (runOnce execute launcher descriptor flags output).on d =
      ((Run.of launcher descriptor flags base).perform execute).on d := by
  rw [runOnce, Work.on_bind, Work.on_ask]
  simp only [h]
  rfl

/-- **Carrying out a job** never fails: a job that cannot be run leaves nothing in the list. -/
theorem on_job (execute : Executor) (launcher : Launcher) (output : Path) (j : Job) (d : Disk) :
    ((j.perform execute launcher output).on d).result = .ok (Run.ran? (j.run launcher output d.home,
        ((j.run launcher output d.home).alone execute d).1)) ∧
      ((j.perform execute launcher output).on d).disk =
        ((j.run launcher output d.home).alone execute d).2 := by
  obtain ⟨-, -, -, habsolute⟩ := absolute?_outputPath launcher output d.home j
  obtain ⟨hresult, hdisk⟩ := on_perform execute (j.run launcher output d.home) d
  have honce : (runOnce execute launcher j.descriptor j.flags (j.outputPath output)).on d =
      ((j.run launcher output d.home).perform execute).on d := on_runOnce habsolute
  rw [← honce] at hresult hdisk
  have hattempt := Work.on_attempt (ζ := PlanError)
    (runOnce execute launcher j.descriptor j.flags (j.outputPath output)) d
  rw [hresult, hdisk] at hattempt
  have hattempted := congrArg Done.result hattempt
  rw [Job.perform]
  obtain ⟨hafter, hafter'⟩ := Work.on_bind_ok hattempted _
  refine ⟨hafter.trans ?_, hafter'.trans ?_⟩
  · rw [hattempt]
    cases (Run.alone execute (j.run launcher output d.home) d).1 with
    | error cause => rfl
    | ok exit => exact (Work.on_ite_note _ _ _ _).1
  · rw [hattempt]
    cases (Run.alone execute (j.run launcher output d.home) d).1 with
    | error cause => rfl
    | ok exit => exact (Work.on_ite_note _ _ _ _).2

/-! ## All jobs -/

section

variable {execute : Executor} {launcher : Launcher} {output : Path}

/-- **Carrying out jobs** one after the other is carrying out their runs. -/
theorem on_jobs {home : Location} (jobs : List Job) {d : Disk} (hhome : d.home = home)
    (ho : ∀ j ∈ jobs, execute.Orderly (j.run launcher output home)) :
    (Work.on (jobs.mapM (Job.perform execute launcher output)) d).result =
        .ok ((inOrder execute (jobs.map (Job.run launcher output home)) d).1.map Run.ran?) ∧
      (Work.on (jobs.mapM (Job.perform execute launcher output)) d).disk =
        (inOrder execute (jobs.map (Job.run launcher output home)) d).2 := by
  induction jobs generalizing d with
  | nil => exact ⟨rfl, rfl⟩
  | cons j rest ih =>
    obtain ⟨hresult, hdisk⟩ := on_job execute launcher output j d
    rw [hhome] at hresult hdisk
    have hgrows : d.Grows ((j.run launcher output home).alone execute d).2 :=
      Run.grows_finish (ho j List.mem_cons_self) _ (Nat.le_refl _)
    obtain ⟨hrest, hrest'⟩ := ih (hgrows.home.trans hhome) fun i hi =>
      ho i (List.mem_cons_of_mem j hi)
    rw [← hdisk] at hrest hrest'
    rw [List.mapM_cons]
    obtain ⟨hafter, hafter'⟩ := Work.on_bind_ok hresult _
    obtain ⟨hlast, hlast'⟩ := Work.on_bind_ok hrest _
    rw [hafter, hafter', hlast, hlast']
    rw [hdisk] at hrest' ⊢
    exact ⟨rfl, hrest'⟩

/-- The runs of a list that is carried out in two parts. -/
theorem home_inOrder {home : Location} (jobs : List Job) {d : Disk} (hhome : d.home = home)
    (ho : ∀ j ∈ jobs, execute.Orderly (j.run launcher output home)) :
    (inOrder execute (jobs.map (Job.run launcher output home)) d).2.home = home := by
  induction jobs generalizing d with
  | nil => exact hhome
  | cons j rest ih =>
    have hgrows : d.Grows ((j.run launcher output home).alone execute d).2 :=
      Run.grows_finish (ho j List.mem_cons_self) _ (Nat.le_refl _)
    exact ih (hgrows.home.trans hhome) fun i hi => ho i (List.mem_cons_of_mem j hi)

/-- The same for jobs that are given in slices. -/
theorem on_slices {σ : Type} (f : σ → List Job) {home : Location} (slices : List σ) {d : Disk}
    (hhome : d.home = home)
    (ho : ∀ j ∈ slices.flatMap f, execute.Orderly (j.run launcher output home)) :
    ∃ rans : List (List (Option Ran)),
      (Work.on (slices.mapM fun s => (f s).mapM (Job.perform execute launcher output)) d).result =
        .ok rans ∧
      rans.flatten = (inOrder execute ((slices.flatMap f).map (Job.run launcher output home)) d).1.map
        Run.ran? ∧
      (Work.on (slices.mapM fun s => (f s).mapM (Job.perform execute launcher output)) d).disk =
        (inOrder execute ((slices.flatMap f).map (Job.run launcher output home)) d).2 := by
  induction slices generalizing d with
  | nil => exact ⟨[], rfl, rfl, rfl⟩
  | cons s rest ih =>
    rw [List.flatMap_cons] at ho
    have hfirst : ∀ j ∈ f s, execute.Orderly (j.run launcher output home) :=
      fun j hj => ho j (List.mem_append_left _ hj)
    obtain ⟨hresult, hdisk⟩ := on_jobs (f s) hhome hfirst
    obtain ⟨rans, hrest, hflatten, hrest'⟩ := ih (home_inOrder (f s) hhome hfirst) fun j hj =>
      ho j (List.mem_append_right _ hj)
    rw [← hdisk] at hrest hrest'
    rw [List.mapM_cons]
    obtain ⟨hafter, hafter'⟩ := Work.on_bind_ok hresult _
    obtain ⟨hlast, hlast'⟩ := Work.on_bind_ok hrest _
    rw [hafter, hafter', hlast, hlast', List.flatMap_cons, List.map_append, inOrder_append]
    rw [hdisk] at hrest'
    refine ⟨_, rfl, ?_, hdisk ▸ hrest'⟩
    rw [List.flatten_cons, hflatten, List.map_append]

end

/-! ## The folders -/

namespace Work

variable {ε ζ α : Type}

theorem on_mapError (f : ε → ζ) (w : Work ε α) (d : Disk) :
    (on (w.mapError f) d).result = (on w d).result.mapError f ∧
      (on (w.mapError f) d).disk = (on w d).disk := by
  have hrun : StateT.run (ExceptT.run (w.mapError f)) d =
      (fun q : Except ε α × Disk => (q.1.mapError f, q.2)) <$> StateT.run (ExceptT.run w) d := rfl
  rw [on, hrun, Noted.map_eq]
  exact ⟨rfl, rfl⟩

theorem Yields.mapError {w : Work ε α} {d e : Disk} {result : Except ε α} (h : Yields w d result e) (f : ε → ζ) :
    Yields (w.mapError f) d (result.mapError f) e := by
  obtain ⟨hresult, hdisk⟩ := on_mapError f w d
  exact ⟨hresult.trans (congrArg _ h.result), hdisk.trans h.disk⟩

end Work

/-- Creates the folder of one iteration. -/
def createIteration (output : Path) (iteration : Nat) : Work PlanError Unit :=
  (Work.act fun d => d.createFolders (iterationFolder output iteration)).mapError .folder

theorem on_createIteration (output : Path) (iteration : Nat) (d : Disk) :
    d.Gains (Work.on (createIteration output iteration) d).disk ∧
      ((Work.on (createIteration output iteration) d).result = .ok () →
        (iterationFolder output iteration).IsUsable ∧
        (Work.on (createIteration output iteration) d).disk.Leads (d.startOf output)
          (iterationFolder output iteration).steps) := by
  have hact := Work.on_act (fun d => d.createFolders (iterationFolder output iteration)) d
  obtain ⟨hresult, hdisk⟩ := Work.on_mapError PlanError.folder
    (Work.act fun d => d.createFolders (iterationFolder output iteration)) d
  rw [createIteration, hresult, hdisk, hact]
  have hstart : d.startOf (iterationFolder output iteration) = d.startOf output := by
    rw [startOf, startOf, isRooted_iterationFolder]
  refine ⟨gains_createFolders d _, fun hok => ?_⟩
  rw [← hstart]
  exact leads_createFolders (mapError_eq_ok_iff.1 hok)

/-- **Creating folders** one after the other adds folders, and when it succeeds they are all there. -/
theorem on_createIterations (output : Path) (iterations : List Nat) (d : Disk) :
    d.Gains (Work.on (iterations.forM (createIteration output)) d).disk ∧
      ((Work.on (iterations.forM (createIteration output)) d).result = .ok () → ∀ i ∈ iterations,
        (iterationFolder output i).IsUsable ∧
        (Work.on (iterations.forM (createIteration output)) d).disk.Leads (d.startOf output)
          (iterationFolder output i).steps) := by
  induction iterations generalizing d with
  | nil => exact ⟨.refl d, fun _ => nofun⟩
  | cons i rest ih =>
    obtain ⟨hgains, hleads⟩ := on_createIteration output i d
    have hcons : (i :: rest).forM (createIteration output) =
        createIteration output i >>= fun _ => rest.forM (createIteration output) := rfl
    rw [hcons]
    cases hresult : (Work.on (createIteration output i) d).result with
    | error e =>
      obtain ⟨hafter, hafter'⟩ := Work.on_bind_error hresult fun _ => rest.forM (createIteration output)
      rw [hafter, hafter']
      exact ⟨hgains, nofun⟩
    | ok u =>
      obtain ⟨hrest, hrest'⟩ := ih (Work.on (createIteration output i) d).disk
      obtain ⟨hafter, hafter'⟩ := Work.on_bind_ok hresult fun _ => rest.forM (createIteration output)
      rw [hafter, hafter']
      refine ⟨hgains.trans hrest, fun hok k hk => ?_⟩
      rcases List.mem_cons.1 hk with rfl | hk
      · exact ⟨(hleads hresult).1, (hleads hresult).2.grows hrest.grows⟩
      · rw [← startOf_grows hgains.grows]
        exact hrest' hok k hk

/-! ## The whole plan -/

/-- The runs of a plan that is carried out in a working folder. -/
def Plan.runs (p : Plan) (launcher : Launcher) (home : Location) : List Run :=
  p.jobs.map (Job.run launcher p.output home)

/-- What the folders of a plan are like once they have been created. -/
theorem stocked_createFolders {p : Plan} {d : Disk} (hok : (Work.on p.createFolders d).result = .ok ())
    (hpos : 0 < p.iterations) :
    ∃ o, Stocked p.output p.iterations (Work.on p.createFolders d).disk o := by
  obtain ⟨hgains, hleads⟩ := on_createIterations p.output (List.range p.iterations) d
  refine exists_stocked hpos fun i hi => ?_
  rw [startOf_grows (show d.Grows (Work.on p.createFolders d).disk from hgains.grows)]
  exact hleads hok i (List.mem_range.2 hi)

/-- Without workers nothing is done. -/
theorem perform_zero (execute : Executor) (launcher : Launcher) (p : Plan) (d : Disk) :
    (Work.on (p.perform execute launcher 0) d).result = .error (.split .noWorkers) ∧
      (Work.on (p.perform execute launcher 0) d).disk = d := by
  have hnote := Work.on_note (ε := PlanError) p.skipNotes d
  obtain ⟨hafter, hafter'⟩ := Work.on_bind_ok (congrArg Done.result hnote) _
  rw [Plan.perform, hafter, hafter', hnote, partition_zero]
  exact ⟨rfl, rfl⟩

/-- If there are workers, the folders come first. -/
theorem perform_of_pos (execute : Executor) (launcher : Launcher) (p : Plan) {workers : Nat}
    (hw : 0 < workers) (d : Disk) :
    let slices := (List.range workers).map (slice p.jobs.length workers)
    let rest := p.createFolders >>= fun _ => do
      Work.note (Noted.info
        s!"Running {p.jobs.length} jobs on {workers} workers into {p.output.text}.")
      let ran ← slices.mapM fun slice => (slice.of p.jobs).mapM (Job.perform execute launcher p.output)
      return ran.flatten.filterMap id
    (Work.on (p.perform execute launcher workers) d).result = (Work.on rest d).result ∧
      (Work.on (p.perform execute launcher workers) d).disk = (Work.on rest d).disk := by
  have hnote := Work.on_note (ε := PlanError) p.skipNotes d
  obtain ⟨hafter, hafter'⟩ := Work.on_bind_ok (congrArg Done.result hnote) _
  intro slices rest
  rw [Plan.perform, hafter, hafter', hnote, partition_of_pos _ hw]
  obtain ⟨hsplit, hsplit'⟩ := Work.on_bind_ok (ε := PlanError) (d := d)
    (congrArg Done.result (Work.on_ofExcept (Except.ok slices) d)) fun slices => rest
  exact ⟨hsplit, hsplit'⟩

/-- If the folders cannot be created, nothing else is done. -/
theorem perform_error (execute : Executor) (launcher : Launcher) (p : Plan) {workers : Nat}
    (hw : 0 < workers) {d : Disk} {e : PlanError} (he : (Work.on p.createFolders d).result = .error e) :
    (Work.on (p.perform execute launcher workers) d).result = .error e ∧
      (Work.on (p.perform execute launcher workers) d).disk = (Work.on p.createFolders d).disk := by
  obtain ⟨hresult, hdisk⟩ := perform_of_pos execute launcher p hw d
  rw [hresult, hdisk]
  exact Work.on_bind_error he _

/-- **What carrying out a plan amounts to**, once the folders have been created: the runs of all jobs are
carried out in order, and the list is what they leave. -/
theorem perform_ok {execute : Executor} {launcher : Launcher} {p : Plan} {workers : Nat}
    (hw : 0 < workers) {d : Disk} (hok : (Work.on p.createFolders d).result = .ok ())
    (ho : ∀ r ∈ p.runs launcher d.home, execute.Orderly r) :
    (Work.on (p.perform execute launcher workers) d).result =
        .ok ((inOrder execute (p.runs launcher d.home) (Work.on p.createFolders d).disk).1.filterMap
          Run.ran?) ∧
      (Work.on (p.perform execute launcher workers) d).disk =
        (inOrder execute (p.runs launcher d.home) (Work.on p.createFolders d).disk).2 := by
  obtain ⟨hresult, hdisk⟩ := perform_of_pos execute launcher p hw d
  have hhome : (Work.on p.createFolders d).disk.home = d.home :=
    (on_createIterations p.output (List.range p.iterations) d).1.home
  have hjobs : ((List.range workers).map (slice p.jobs.length workers)).flatMap (Slice.of · p.jobs) =
      p.jobs := by
    rw [List.flatMap_map, List.flatMap_def]
    exact flatten_slices p.jobs hw
  have hslices := @on_slices execute launcher p.output Slice (Slice.of · p.jobs) d.home
    ((List.range workers).map (slice p.jobs.length workers)) _ hhome
  rw [hjobs] at hslices
  obtain ⟨rans, hrans, hflatten, hend⟩ := hslices fun j hj =>
    ho (j.run launcher p.output d.home) (List.mem_map_of_mem hj)
  obtain ⟨hafter, hafter'⟩ := Work.on_bind_ok hok _
  rw [hresult, hdisk, hafter, hafter']
  have hnote := Work.on_note (ε := PlanError) (Noted.info
    s!"Running {p.jobs.length} jobs on {workers} workers into {p.output.text}.")
      (Work.on p.createFolders d).disk
  obtain ⟨hnext, hnext'⟩ := Work.on_bind_ok (congrArg Done.result hnote) _
  rw [hnext, hnext', hnote]
  obtain ⟨hlast, hlast'⟩ := Work.on_bind_ok hrans fun ran => pure (ran.flatten.filterMap id)
  refine ⟨hlast.trans ?_, hlast'.trans hend⟩
  rw [hflatten, List.filterMap_map]
  rfl

end CheckerTrials
