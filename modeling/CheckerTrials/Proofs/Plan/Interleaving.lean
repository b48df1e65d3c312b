import CheckerTrials.Proofs.Plan.Perform
import CheckerTrials.Proofs.Plan.Writer

/-!
# Plans that are carried out side by side

The workers of a plan work side by side, each on its slice of the jobs.  `Plan.Performed` says what can come of
that: whatever the order in which the workers take turns, and however long the tool takes.  `Plan.perform`, in
which one worker goes after the other, is one of these ways (`performed_perform`).

`schedules_agree` compares all of them with a single worker who carries out the jobs in order.  If the tool
keeps to its files, nothing but the content of the duration files depends on the number of the workers or on
their turns.
-/

set_option autoImplicit false

namespace CheckerTrials

open Disk

namespace Plan

/-- The disk with the folders of a plan. -/
def prepared (p : Plan) (d : Disk) : Disk := (Work.on p.createFolders d).disk

/-- The workers of a plan before they begin, each with the runs of its slice, on the disk with the folders. -/
def crew (p : Plan) (launcher : Launcher) (slices : List Slice) (d : Disk) : Crew :=
  ⟨p.prepared d, slices.map fun s => .start ((s.of p.jobs).map (Job.run launcher p.output d.home))⟩

/-- What can come of a plan on a disk: a result and the disk afterwards. -/
inductive Performed (execute : Executor) (launcher : Launcher) (p : Plan) (workers : Nat) (d : Disk) :
    Except PlanError (List Ran) → Disk → Prop
  /-- The jobs cannot be split. -/
  | refused {e : PartitionError} (h : partition p.jobs.length workers = .error e) :
      Performed execute launcher p workers d (.error (.split e)) d
  /-- The folders cannot be created. -/
  | failed {slices : List Slice} {e : PlanError} (hslices : partition p.jobs.length workers = .ok slices)
      (h : (Work.on p.createFolders d).result = .error e) :
      Performed execute launcher p workers d (.error e) (p.prepared d)
  /-- The workers have taken turns until all were finished. -/
  | finished {slices : List Slice} {c : Crew} (hslices : partition p.jobs.length workers = .ok slices)
      (h : (Work.on p.createFolders d).result = .ok ())
      (hsteps : (p.crew launcher slices d).Steps execute c) (hfinished : c.Finished) :
      Performed execute launcher p workers d (.ok (c.ended.filterMap Run.ran?)) c.disk

/-- All ways to carry out a plan on a disk agree with a single worker who carries out the jobs in order. -/
structure SchedulesAgree (execute : Executor) (launcher : Launcher) (p : Plan) (d : Disk) : Prop where
  /-- Without workers there is an error, and nothing is created. -/
  refused : ∀ result e, p.Performed execute launcher 0 d result e →
    result = .error (.split .noWorkers) ∧ e = d
  /-- With workers, the result is that of a single one, and so is the disk but for the durations. -/
  agree : ∀ workers, 0 < workers → ∀ result e, p.Performed execute launcher workers d result e →
    result = (Work.on (p.perform execute launcher 1) d).result ∧
      (Work.on (p.perform execute launcher 1) d).disk.SameBut e
        (IsTime (p.prepared d) (p.runs launcher d.home))
  /-- Every job runs once and ends as it would have ended alone, in the order of the jobs; it leaves behind
  what it would have left alone, and outside of the files of the jobs nothing changes. -/
  alone : ∀ workers slices, 0 < workers → partition p.jobs.length workers = .ok slices →
    (Work.on p.createFolders d).result = .ok () → ∀ c, (p.crew launcher slices d).Steps execute c →
    c.Finished →
      c.ended = (p.runs launcher d.home).map (fun r => (r, (r.alone execute (p.prepared d)).1)) ∧
      (∀ r ∈ p.runs launcher d.home,
        r.Alike (p.prepared d) c.disk (r.alone execute (p.prepared d)).2) ∧
      ∀ l, (∀ r ∈ p.runs launcher d.home, ¬ r.Owns (p.prepared d) l) →
        c.disk.get? l = (p.prepared d).get? l
  /-- A job that cannot be carried out is left out of the list, which is otherwise in the order of the jobs. -/
  listed : ∀ workers, 0 < workers → ∀ ran e, p.Performed execute launcher workers d (.ok ran) e →
    ran = (p.runs launcher d.home).filterMap fun r => Run.ran? (r, (r.alone execute (p.prepared d)).1)
  /-- In particular, nothing is listed with the files of a job whose tool cannot be started. -/
  unstarted : ∀ workers, 0 < workers → ∀ ran e, p.Performed execute launcher workers d (.ok ran) e →
    ∀ r ∈ p.runs launcher d.home, r.Unstarted execute (p.prepared d) → ∀ x ∈ ran, x.artifact ≠ r.artifact
  /-- Whatever has been done, someone can go on until all are finished, and that comes. -/
  ends : ∀ c : Crew, (¬ c.Finished → ∃ c', c.Step execute c') ∧
    ∀ c', c.Step execute c' → c'.stepsLeft < c.stepsLeft

variable {execute : Executor} {launcher : Launcher} {p : Plan} {d : Disk}

theorem gains_prepared (p : Plan) (d : Disk) : d.Gains (p.prepared d) :=
  (on_createIterations p.output (List.range p.iterations) d).1

theorem flatten_crew (p : Plan) (launcher : Launcher) {workers : Nat} (hw : 0 < workers) (d : Disk) :
    (((List.range workers).map (slice p.jobs.length workers)).map fun s =>
      (s.of p.jobs).map (Job.run launcher p.output d.home)).flatten = p.runs launcher d.home := by
  have hjobs := flatten_slices p.jobs hw
  rw [runs, ← hjobs, List.map_flatten, List.map_map, List.map_map]
  rw [hjobs]
  rfl

theorem home_prepared (p : Plan) (d : Disk) : (p.prepared d).home = d.home := (gains_prepared p d).home

/-- Once the folders have been created, the files of the runs have places of their own. -/
theorem sited_runs (launcher : Launcher) (hd : d.WellFormed)
    (hok : (Work.on p.createFolders d).result = .ok ()) :
    (∀ r ∈ p.runs launcher d.home, r.Sited (p.prepared d)) ∧
      Separated (p.prepared d) (p.runs launcher d.home) := by
  have hprepared : (p.prepared d).WellFormed := (gains_prepared p d).wellFormed hd
  rw [← home_prepared p d]
  by_cases hpos : 0 < p.iterations
  · obtain ⟨o, ho⟩ := stocked_createFolders hok hpos
    refine ⟨fun r hr => ?_, separated_runs launcher p ho hprepared⟩
    obtain ⟨j, hj, rfl⟩ := List.mem_map.1 hr
    exact sited_run launcher ho hprepared (iteration_lt_of_mem_jobs hj)
  · have hnil : p.runs launcher (p.prepared d).home = [] := by
      rw [runs, jobs, Nat.eq_zero_of_not_pos hpos]
      rfl
    rw [hnil]
    exact ⟨fun r hr => absurd hr List.not_mem_nil, .nil⟩

/-- A crew begins with all runs of its plan. -/
theorem reports_crew (p : Plan) (launcher : Launcher) {workers : Nat} (hw : 0 < workers) (d : Disk) :
    (p.crew launcher ((List.range workers).map (slice p.jobs.length workers)) d).reports =
      (p.runs launcher d.home).map fun r => (r, .reached .setup) := by
  rw [← flatten_crew p launcher hw d, crew, Crew.reports, List.map_flatten, List.flatMap_map,
    List.flatMap_def]
  simp only [Worker.reports_start, List.map_map, Function.comp_def]

/-- The crew of a plan is settled from the beginning. -/
theorem settled_crew (hd : d.WellFormed)
    (hexec : ∀ r ∈ p.runs launcher d.home, execute.Confined r)
    (hok : (Work.on p.createFolders d).result = .ok ()) {workers : Nat} (hw : 0 < workers) {c : Crew}
    (hsteps : (p.crew launcher ((List.range workers).map (slice p.jobs.length workers)) d).Steps
      execute c) :
    Settled execute (p.prepared d) (p.runs launcher d.home) c.disk c.reports := by
  obtain ⟨hsited, hsep⟩ := sited_runs launcher hd hok
  refine Settled.of_steps hexec hsited hsep hsteps ?_
  rw [reports_crew p launcher hw d]
  exact .start execute (p.prepared d) _ hexec hsited

/-- **One worker after the other** is one of the ways to carry out a plan. -/
theorem performed_perform (hexec : ∀ r ∈ p.runs launcher d.home, execute.Orderly r) (workers : Nat) :
    p.Performed execute launcher workers d (Work.on (p.perform execute launcher workers) d).result
      (Work.on (p.perform execute launcher workers) d).disk := by
  rcases Nat.eq_zero_or_pos workers with rfl | hw
  · obtain ⟨hresult, hdisk⟩ := perform_zero execute launcher p d
    rw [hresult, hdisk]
    exact .refused rfl
  · cases hfolders : (Work.on p.createFolders d).result with
    | error e =>
      obtain ⟨hresult, hdisk⟩ := perform_error execute launcher p hw hfolders
      rw [hresult, hdisk]
      exact .failed (partition_of_pos _ hw) hfolders
    | ok u =>
      obtain ⟨hresult, hdisk⟩ := perform_ok hw hfolders hexec
      obtain ⟨c, hsteps, hfinished, hcdisk, hended⟩ := @Crew.steps_inOrder execute
        (((List.range workers).map (slice p.jobs.length workers)).map fun s =>
          (s.of p.jobs).map (Job.run launcher p.output d.home)) (p.prepared d) [] nofun
      rw [flatten_crew p launcher hw d] at hcdisk hended
      rw [List.nil_append, List.map_map] at hsteps
      have hperformed := Performed.finished (partition_of_pos p.jobs.length hw) hfolders hsteps hfinished
      rw [hended, hcdisk] at hperformed
      rw [hresult, hdisk]
      exact hperformed

/-- What has come of a plan whose folders could be created is what has come of a crew. -/
theorem Performed.exists_crew {workers : Nat} (hw : 0 < workers) {result : Except PlanError (List Ran)}
    {e : Disk} (h : p.Performed execute launcher workers d result e)
    (hok : (Work.on p.createFolders d).result = .ok ()) :
    ∃ c : Crew, (p.crew launcher ((List.range workers).map (slice p.jobs.length workers)) d).Steps
        execute c ∧ c.Finished ∧ result = .ok (c.ended.filterMap Run.ran?) ∧ e = c.disk := by
  cases h with
  | refused h =>
    rw [partition_of_pos _ hw] at h
    cases h
  | failed _ h =>
    rw [hok] at h
    cases h
  | @finished slices c hslices _ hsteps hfinished =>
    rw [partition_of_pos _ hw] at hslices
    cases hslices
    exact ⟨c, hsteps, hfinished, rfl, rfl⟩

/-- A list comes of a plan only if its folders can be created. -/
theorem Performed.result_createFolders {workers : Nat} {ran : List Ran} {e : Disk}
    (h : p.Performed execute launcher workers d (.ok ran) e) : (Work.on p.createFolders d).result = .ok () := by
  cases h with
  | finished _ hok _ _ => exact hok

/-- **The list of a plan** is what its runs would leave for it, each of them alone. -/
theorem Performed.eq_filterMap (hd : d.WellFormed) (hexec : ∀ r ∈ p.runs launcher d.home, execute.Confined r)
    {workers : Nat} (hw : 0 < workers) {ran : List Ran} {e : Disk}
    (h : p.Performed execute launcher workers d (.ok ran) e) :
    ran = (p.runs launcher d.home).filterMap fun r => Run.ran? (r, (r.alone execute (p.prepared d)).1) := by
  have hok := h.result_createFolders
  obtain ⟨c, hsteps, hfinished, hran, -⟩ := h.exists_crew hw hok
  obtain ⟨hended, -⟩ := (settled_crew hd hexec hok hw hsteps).of_finished hfinished
  rw [Except.ok.inj hran, hended, List.filterMap_map]
  rfl

/-- Nothing is listed with the files of a run whose tool cannot be started, because no other run has its files. -/
theorem artifact_ne_of_unstarted (hd : d.WellFormed) (hok : (Work.on p.createFolders d).result = .ok ()) {r : Run}
    (hr : r ∈ p.runs launcher d.home) (hunstarted : r.Unstarted execute (p.prepared d)) {x : Ran}
    (hx : x ∈ (p.runs launcher d.home).filterMap fun r => Run.ran? (r, (r.alone execute (p.prepared d)).1)) :
    x.artifact ≠ r.artifact := by
  intro hsame
  obtain ⟨other, hother, hx⟩ := List.mem_filterMap.1 hx
  have hbase : other.base = r.base := congrArg Artifact.result ((Run.artifact_of_ran? hx).symm.trans hsame)
  by_cases hne : other = r
  · rw [hne, Run.ran?_of_unstarted hunstarted] at hx
    cases hx
  · obtain ⟨l, hl⟩ := hunstarted.exists_owns
    exact (sited_runs launcher hd hok).2.not_owns_of_mem hother hr hne ((Run.owns_congr hbase).2 hl) hl

/-- **All schedules of a plan agree**: however many workers share the jobs and whoever takes a turn when, the
result and the disk are those of a single worker who carries out the jobs in order, but for the durations. -/
theorem schedules_agree (hd : d.WellFormed)
    (hexec : ∀ r ∈ p.runs launcher d.home, execute.Confined r) :
    p.SchedulesAgree execute launcher d := by
  refine ⟨fun result e h => ?_, fun workers hw result e h => ?_,
    fun workers slices hw hslices hok c hsteps hfinished => ?_,
    fun workers hw ran e h => h.eq_filterMap hd hexec hw,
    fun workers hw ran e h r hr hunstarted x hx => ?_,
    fun c => ⟨Crew.exists_step execute, fun c' => Crew.stepsLeft_lt_of_step⟩⟩
  · cases h with
    | refused h =>
      rw [partition_zero] at h
      cases h
      exact ⟨rfl, rfl⟩
    | failed hslices _ => cases hslices
    | finished hslices _ _ _ => cases hslices
  · have hone := performed_perform (fun r hr => (hexec r hr).toOrderly) 1
    cases hfolders : (Work.on p.createFolders d).result with
    | error cause =>
      obtain ⟨hresult, hdisk⟩ := perform_error execute launcher p Nat.one_pos hfolders
      rw [hresult, hdisk]
      cases h with
      | refused h =>
        rw [partition_of_pos _ hw] at h
        cases h
      | failed _ h =>
        rw [hfolders] at h
        cases h
        exact ⟨rfl, rfl, fun _ _ => rfl, fun _ => rfl⟩
      | finished _ h _ _ =>
        rw [hfolders] at h
        cases h
    | ok u =>
      obtain ⟨c, hsteps, hfinished, hresult, hdisk⟩ := hone.exists_crew Nat.one_pos hfolders
      obtain ⟨c', hsteps', hfinished', rfl, rfl⟩ := h.exists_crew hw hfolders
      obtain ⟨hended, hsame⟩ := Settled.agree_of_finished
        (settled_crew hd hexec hfolders Nat.one_pos hsteps) hfinished
        (settled_crew hd hexec hfolders hw hsteps') hfinished'
      rw [hresult, hdisk, hended]
      exact ⟨rfl, hsame⟩
  · rw [partition_of_pos _ hw] at hslices
    cases hslices
    have hsettled := settled_crew hd hexec hok hw hsteps
    obtain ⟨hended, halike⟩ := hsettled.of_finished hfinished
    exact ⟨hended, halike, hsettled.frame⟩
  · rw [h.eq_filterMap hd hexec hw] at hx
    exact artifact_ne_of_unstarted hd h.result_createFolders hr hunstarted hx

/-- Four jobs, half of which cannot be started. -/
theorem schedules_agree_samplePlan : (samplePlan 2).jobs.length = 4 ∧
    (samplePlan 2).SchedulesAgree sampleTool (.direct "checker") emptyDisk :=
  ⟨rfl, schedules_agree wellFormed_emptyDisk (confined_sampleTool (samplePlan 2) [])⟩

end Plan

end CheckerTrials
