import CheckerTrials.Proofs.Plan.Interleaving
import CheckerTrials.Proofs.Plan.Numbering
import CheckerTrials.Proofs.Plan.Recording
import CheckerTrials.Proofs.Trial.CommandLine
import CheckerTrials.Proofs.Trial.Reading
import Mathlib.Data.List.Forall2

/-!
# Reading back what a plan has left

What a plan leaves behind can be read back: one trial for every job, in the order of the jobs, each with the
iteration of its job, and if it is no success with the model of its job (`Plan.matches_of_performed`).  This does not
depend on what the tool does, as long as it keeps to its files, nor on the number of the workers and their
turns.

The proof has two halves that meet at `Plan.Stored`, a description of the output folder.  A finished crew has
left such a folder (`stored_of_finished`), and from such a folder the trials of the jobs are read
(`Stored.value_loadResults`).
-/

set_option autoImplicit false

namespace CheckerTrials

open Disk CheckerTrials.Path

/-! ## The output folder -/

namespace Plan

/-- What a plan has left in its output folder, at the location `o`. -/
structure Stored (p : Plan) (d : Disk) (o : Location) : Prop where
  /-- The disk is that of a system. -/
  wellFormed : d.WellFormed
  /-- The path leads there. -/
  locate : d.locate p.output = .ok o
  /-- There is a folder. -/
  folder : d.get? o = some .folder
  /-- There is one for each of the iterations. -/
  iteration : ∀ i, i < p.iterations → d.get? (o ++ [iterationName i]) = some .folder
  /-- All folders are found by their paths. -/
  found : ∀ name, d.get? (o ++ [name]) = some .folder →
    d.locate (p.output.join name) = .ok (o ++ [name])
  /-- The command line of every job is known. -/
  recorded : ∀ j ∈ p.jobs, ∃ i, recordedInvocation? d (j.outputPath p.output) = some i ∧
    j.descriptor.model? = some i.model
  /-- It has a file. -/
  setup : ∀ j ∈ p.jobs, ∃ e,
    d.get? (o ++ [iterationName j.iteration] ++ [j.index.repr ++ setupSuffix]) = some e
  /-- Every file is one of a job. -/
  owner : ∀ name file content executable,
    d.get? (o ++ [name] ++ [file]) = some (.file content executable) →
      ∃ j ∈ p.jobs, name = iterationName j.iteration ∧ ∃ s ∈ Run.suffixes, file = j.index.repr ++ s

namespace Stored

variable {p : Plan} {d : Disk} {o : Location} {options : LoadOptions}

/-- **No run is invented**: where a number has files, it is the number of a job of that iteration. -/
theorem loadRun_eq_none (h : p.Stored d o) {name : String}
    (hfolder : d.get? (o ++ [name]) = some .folder) {n : Nat}
    (hno : ∀ j ∈ p.jobs, name = iterationName j.iteration → n ≠ j.index) (iteration : Nat) :
    (loadRun d ((p.output.join name).join n.repr) iteration options).value = none := by
  refine CheckerTrials.loadRun_eq_none iteration options fun s hs content executable hfind => ?_
  have hsuffix : s ∈ Run.suffixes := by
    rcases List.mem_cons.1 hs with rfl | hs
    · decide
    · rw [List.mem_singleton.1 hs]
      decide
  rw [withSuffix_join _ (isStep_repr n)] at hfind
  obtain ⟨-, l, hl, hfile⟩ := find_eq_file_iff.1 hfind
  have hplace := eq_of_locate_join (h.found name hfolder) hfolder
    (isStep_repr_append n (suffix_spec hsuffix).1) (repr_append_ne_points n s) hl
  rw [hplace] at hfile
  obtain ⟨j, hj, hname, t, ht, hfile⟩ := h.owner _ _ _ _ hfile
  exact hno j hj hname (eq_of_repr_append hsuffix ht hfile)

/-- **The jobs of an iteration are read** in their order. -/
theorem value_loadIteration (h : p.Stored d o) (hword : p.variantsOf.length ≤ Decimal.wordLimit) {i : Nat}
    (hi : i < p.iterations) :
    (loadIteration d (iterationFolder p.output i) i options).value =
      .ok ((p.jobsOf i).filterMap fun j =>
        (loadRun d (j.outputPath p.output) j.iteration options).value) := by
  have hfolder := h.iteration i hi
  have hlist : d.list (iterationFolder p.output i) = .ok (d.children (o ++ [iterationName i])) :=
    list_eq_ok_iff.2 ⟨_, h.found _ hfolder, hfolder, rfl⟩
  have hread := @CheckerTrials.value_loadIteration d (iterationFolder p.output i) i options _ hlist
    p.variantsOf.length (fun n hn => ?_) (fun n hn => ?_)
  · rw [hread, ← map_index_jobsOf p i, List.filterMap_map]
    refine congrArg Except.ok (List.filterMap_congr fun j hj => ?_)
    rw [Function.comp_apply, Job.outputPath, iteration_of_mem_jobsOf hj]
  · rw [← List.mem_range, ← map_index_jobsOf p i, List.mem_map] at hn
    obtain ⟨j, hj, rfl⟩ := hn
    have hjob := jobsOf_subset p hi hj
    obtain ⟨e, he⟩ := h.setup j hjob
    rw [iteration_of_mem_jobsOf hj] at he
    refine ⟨(j.index.repr ++ setupSuffix, e), h.wellFormed.mem_children.2 he, ?_⟩
    have hindex := index_lt_of_mem_jobs hjob
    exact runNumber?_setup (by omega)
  · refine h.loadRun_eq_none hfolder (fun j hj _ hindex => ?_) i
    have hless := index_lt_of_mem_jobs hj
    omega

/-- **What is read from the output folder** is what is read of each job. -/
theorem value_loadResults (h : p.Stored d o) (hiterations : p.iterations ≤ Decimal.wordLimit)
    (hvariants : p.variantsOf.length ≤ Decimal.wordLimit) :
    (loadResults d p.output options).value =
      .ok (p.jobs.filterMap fun j =>
        (loadRun d (j.outputPath p.output) j.iteration options).value) := by
  have hlist : d.list p.output = .ok (d.children o) :=
    list_eq_ok_iff.2 ⟨o, h.locate, h.folder, rfl⟩
  rw [jobs, List.filterMap_flatMap]
  refine CheckerTrials.value_loadResults hlist h.wellFormed.nodup_children hiterations (fun i hi => ?_)
    (fun i hi => h.value_loadIteration hvariants hi) fun name hname hother number => ?_
  · exact h.wellFormed.mem_children.2 (h.iteration i hi)
  · have hfolder := h.wellFormed.mem_children.1 hname
    have hinner : d.list (p.output.join name) = .ok (d.children (o ++ [name])) :=
      list_eq_ok_iff.2 ⟨_, h.found name hfolder, hfolder, rfl⟩
    refine CheckerTrials.value_loadIteration hinner (fun n hn => absurd hn (Nat.not_lt_zero n))
      fun n _ => h.loadRun_eq_none hfolder (fun j hj hiteration _ => ?_) number
    exact hother j.iteration (iteration_lt_of_mem_jobs hj) hiteration

end Stored

/-! ## What a finished crew has left -/

/-- Nothing goes wrong with files when a plan is carried out and its results are read: the folders can be
created and listed, and the command lines can be written and found.  Starting the tool may fail. -/
structure Unhindered (p : Plan) (launcher : Launcher) (d : Disk) : Prop where
  /-- The folders can be created. -/
  folders : (Work.on p.createFolders d).result = .ok ()
  /-- The command lines can be written. -/
  recordable : ∀ r ∈ p.runs launcher d.home, r.Recordable (p.prepared d)
  /-- Their paths in the output folder can be followed. -/
  found : ∀ j ∈ p.jobs, ∃ l,
    (p.prepared d).locate ((j.outputPath p.output).withSuffix setupSuffix) = .ok l
  /-- The folders in the output folder can be listed. -/
  listed : ∀ names, folderNames (p.prepared d) p.output = .ok names →
    ∀ name ∈ names, ∃ es, (p.prepared d).list (p.output.join name) = .ok es

/-- The output folder is empty when a plan begins, or it is not there yet. -/
def StartsEmpty (p : Plan) (d : Disk) : Prop :=
  ∀ o, (p.prepared d).locate p.output = .ok o → ∀ name, d.get? (o ++ [name]) = none

variable {execute : Executor} {launcher : Launcher} {p : Plan} {d : Disk}

/-- The output folder is there once the folders have been created, if there are any or it was there before. -/
theorem exists_output (hok : (Work.on p.createFolders d).result = .ok ()) (htext : p.output.text ≠ "")
    (hexists : 0 < p.iterations ∨ d.isFolder p.output = true) :
    ∃ o, (p.prepared d).locate p.output = .ok o ∧ Stocked p.output p.iterations (p.prepared d) o := by
  by_cases hpos : 0 < p.iterations
  · obtain ⟨o, ho⟩ := stocked_createFolders hok hpos
    have husable : p.output.IsUsable := (ho.usable 0 hpos).of_join (isStep_iterationName 0)
    exact ⟨o, locate_eq_ok_iff.2 ⟨husable, htext, ho.walk⟩, ho⟩
  · have hfolder := hexists.resolve_left hpos
    obtain ⟨o, ho, hl⟩ := isFolder_iff.1 hfolder
    have hgrows := (gains_prepared p d).grows
    have hlocate := locate_of_grows hgrows ho
    refine ⟨o, hlocate, (locate_eq_ok_iff.1 hlocate).2.2, hgrows.folder o hl, ?_, ?_, ?_⟩
    · exact fun i hi => absurd hi (by omega)
    · exact fun i hi => absurd hi (by omega)
    · exact fun i hi => absurd hi (by omega)

/-- What is in the output folder belongs to nobody, and what is two levels below it belongs to a job. -/
theorem owner_of_owns {o : Location} (hd : d.WellFormed) (ho : Stocked p.output p.iterations (p.prepared d) o)
    {r : Run} (hr : r ∈ p.runs launcher d.home) {l : Location} (hl : r.Owns (p.prepared d) l) :
    ∃ j ∈ p.jobs, r = j.run launcher p.output d.home ∧
      ∃ s ∈ Run.suffixes, l = o ++ [iterationName j.iteration] ++ [j.index.repr ++ s] := by
  obtain ⟨j, hj, rfl⟩ := List.mem_map.1 hr
  obtain ⟨s, hs, hplace⟩ := hl
  rw [← home_prepared p d] at hplace
  exact ⟨j, hj, rfl, s, hs, (place_run launcher ho ((gains_prepared p d).wellFormed hd)
    (iteration_lt_of_mem_jobs hj) hs).2 l hplace⟩

/-- Where nothing was, there are only folders before the runs begin. -/
theorem get?_prepared_ne_file {o : Location} (hd : d.WellFormed)
    (hempty : ∀ name, d.get? (o ++ [name]) = none) (name file : String) (content : ByteArray)
    (executable : Bool) : (p.prepared d).get? (o ++ [name] ++ [file]) ≠ some (.file content executable) := by
  have hnone : d.get? (o ++ [name] ++ [file]) = none := by
    cases he : d.get? (o ++ [name] ++ [file]) with
    | none => rfl
    | some e =>
      have hparent := (hd.parent _ (List.mem_map_of_mem (mem_of_get? (by simp) he))).2
      rw [List.dropLast_concat, hempty name] at hparent
      cases hparent
  rcases (gains_prepared p d).entry (o ++ [name] ++ [file]) with hsame | ⟨-, hfolder⟩
  · rw [hsame, hnone]
    exact nofun
  · rw [hfolder]
    exact nofun

/-- **The command line of a job is read back**, by the path of the job in the output folder. -/
theorem recorded_of_stocked {o : Location} (hd : d.WellFormed)
    (ho : Stocked p.output p.iterations (p.prepared d) o) {e : Disk} (he : (p.prepared d).Grows e) {j : Job}
    (hj : j ∈ p.jobs) (hrecorded : (j.run launcher p.output d.home).Recorded (p.prepared d) e)
    (hfound : ∃ l, (p.prepared d).locate ((j.outputPath p.output).withSuffix setupSuffix) = .ok l)
    (hblank : ∀ c ∈ j.descriptor.path.toList, Text.isBlank c = false) :
    (∃ i, recordedInvocation? e (j.outputPath p.output) = some i ∧
      j.descriptor.model? = some i.model) ∧
    ∃ entry, e.get? (o ++ [iterationName j.iteration] ++ [j.index.repr ++ setupSuffix]) = some entry := by
  have hiteration := iteration_lt_of_mem_jobs hj
  obtain ⟨l, executable, hplace, hfile⟩ := hrecorded
  rw [← home_prepared p d] at hplace
  have hl := (place_run launcher ho ((gains_prepared p d).wellFormed hd) hiteration
    Run.setupSuffix_mem).2 l hplace
  rw [hl] at hfile
  refine ⟨?_, _, hfile⟩
  obtain ⟨m, hm⟩ := hfound
  have hpath : (j.outputPath p.output).withSuffix setupSuffix =
      (iterationFolder p.output j.iteration).join (j.index.repr ++ setupSuffix) :=
    withSuffix_join _ (isStep_repr j.index) setupSuffix
  have hname := isStep_repr_append j.index (suffix_spec Run.setupSuffix_mem).1
  have hmplace : m = o ++ [iterationName j.iteration] ++ [j.index.repr ++ setupSuffix] := by
    obtain ⟨-, -, hw⟩ := locate_eq_ok_iff.1 hm
    have hstart : (p.prepared d).startOf ((j.outputPath p.output).withSuffix setupSuffix) =
        (p.prepared d).startOf p.output := by
      rw [hpath, startOf, startOf, isRooted_join _ hname, isRooted_iterationFolder]
    rw [hstart, hpath, steps_join_name _ hname, steps_iterationFolder, walk_file ho.walk ho hiteration
      (repr_append_ne_points j.index setupSuffix)] at hw
    split at hw
    · cases hw
    · exact (Except.ok.inj hw).symm
  have hread := readText_of_get? (namesFolder_join _ hname) (hpath ▸ hmplace ▸ locate_of_grows he hm) hfile
  obtain ⟨model, hmodel⟩ := Option.isSome_iff_exists.1
    (List.mem_filter.1 (descriptor_of_mem_jobs hj)).2
  obtain ⟨i, hparse, hi⟩ := model_of_setupText launcher j.flags
    (((j.outputPath p.output).absolute? d.home).getD ⟨""⟩) hmodel hblank
  exact ⟨i, recordedInvocation?_of_setup (hpath ▸ hread) hparse, hi ▸ hmodel⟩

/-- **A finished crew** has left the command lines of all jobs in the output folder, and nothing else but what
the jobs have left. -/
theorem stored_of_finished (hd : d.WellFormed) (hexec : ∀ r ∈ p.runs launcher d.home, execute.Orderly r)
    (hio : p.Unhindered launcher d) (htext : p.output.text ≠ "")
    (hexists : 0 < p.iterations ∨ d.isFolder p.output = true) (hempty : p.StartsEmpty d)
    (hblank : ∀ x ∈ p.runnable, ∀ c ∈ x.path.toList, Text.isBlank c = false) {workers : Nat}
    (hw : 0 < workers) {c : Crew}
    (hsteps : (p.crew launcher ((List.range workers).map (slice p.jobs.length workers)) d).Steps
      execute c) (hfinished : c.Finished) : ∃ o, p.Stored c.disk o := by
  obtain ⟨hsited, hsep⟩ := sited_runs launcher hd hio.folders
  have hkept : Kept (p.prepared d) (p.runs launcher d.home) c.disk c.reports := by
    refine Kept.of_steps hexec hsited hsep hio.recordable hsteps ?_
    rw [reports_crew p launcher hw d]
    exact .start (p.prepared d) _
  obtain ⟨o, hlocate, ho⟩ := exists_output hio.folders htext hexists
  have hprepared := (gains_prepared p d).wellFormed hd
  have hrecorded := fun j (hj : j ∈ p.jobs) =>
    recorded_of_stocked hd ho hkept.grows hj
      (hkept.of_finished hfinished _ (List.mem_map_of_mem hj)) (hio.found j hj)
      (hblank _ (descriptor_of_mem_jobs hj))
  refine ⟨o, hkept.wellFormed hprepared, locate_of_grows hkept.grows hlocate,
    hkept.grows.folder o ho.folder, fun i hi => hkept.grows.folder _ (ho.iteration i hi),
    fun name hname => ?_, fun j hj => (hrecorded j hj).1, fun j hj => (hrecorded j hj).2,
    fun name file content executable hfile => ?_⟩
  · -- a folder in the output folder is as it was, because no run owns anything on this level
    have hsame : c.disk.get? (o ++ [name]) = (p.prepared d).get? (o ++ [name]) := by
      refine hkept.frame _ fun r hr hown => ?_
      obtain ⟨j, -, -, s, -, hl⟩ := owner_of_owns hd ho hr hown
      simpa using congrArg List.length hl
    rw [hsame] at hname
    have hnames := hprepared.names_of_get? hname name (by simp)
    have hlist : (p.prepared d).list p.output = .ok ((p.prepared d).children o) :=
      list_eq_ok_iff.2 ⟨o, hlocate, ho.folder, rfl⟩
    obtain ⟨names, hok, -, hmem⟩ := exists_folderNames hlist hprepared.nodup_children
    obtain ⟨es, hes⟩ := hio.listed names hok name
      ((hmem name).2 (hprepared.mem_children.2 hname))
    obtain ⟨l, hl, -⟩ := list_eq_ok_iff.1 hes
    have hplace := eq_of_locate_join hlocate ho.folder hnames.isStep hnames.ne_points hl
    exact locate_of_grows hkept.grows (hplace ▸ hl)
  · by_cases hown : ∃ r ∈ p.runs launcher d.home, r.Owns (p.prepared d) (o ++ [name] ++ [file])
    · obtain ⟨r, hr, hown⟩ := hown
      obtain ⟨j, hj, -, s, hs, hl⟩ := owner_of_owns hd ho hr hown
      have hboth : name = iterationName j.iteration ∧ file = j.index.repr ++ s := by simpa using hl
      exact ⟨j, hj, hboth.1, s, hs, hboth.2⟩
    · rw [hkept.frame _ fun r hr hr' => hown ⟨r, hr, hr'⟩] at hfile
      exact absurd hfile (get?_prepared_ne_file hd (hempty o hlocate) name file content executable)

/-- The trials of a list are those of jobs, one for each of them and in their order: a trial has the iteration
of its job, and if it is no success it is about the model of its job. -/
def Matches (jobs : List Job) (trials : List (Trial Float)) : Prop :=
  List.Forall₂ (fun j t => t.iteration = j.iteration ∧
    (t.status ≠ .success → j.descriptor.model? = some t.model)) jobs trials

theorem matches_filterMap {jobs : List Job} {f : Job → Option (Trial Float)}
    (h : ∀ j ∈ jobs, ∃ t, f j = some t ∧ t.iteration = j.iteration ∧
      (t.status ≠ .success → j.descriptor.model? = some t.model)) :
    Matches jobs (jobs.filterMap f) := by
  induction jobs with
  | nil => exact .nil
  | cons j rest ih =>
    obtain ⟨t, ht, hof⟩ := h j List.mem_cons_self
    rw [List.filterMap_cons_some ht]
    exact .cons hof (ih fun i hi => h i (List.mem_cons_of_mem j hi))

/-- **Every job is read back**, whatever the tool has done and in whichever order: what is read after a plan
has been carried out is one trial for every job, in the order of the jobs. -/
theorem matches_of_performed (hd : d.WellFormed) (hexec : ∀ r ∈ p.runs launcher d.home, execute.Orderly r)
    (hio : p.Unhindered launcher d) (htext : p.output.text ≠ "")
    (hexists : 0 < p.iterations ∨ d.isFolder p.output = true) (hempty : p.StartsEmpty d)
    (hblank : ∀ x ∈ p.runnable, ∀ c ∈ x.path.toList, Text.isBlank c = false)
    (hiterations : p.iterations ≤ Decimal.wordLimit)
    (hvariants : p.variantsOf.length ≤ Decimal.wordLimit) {workers : Nat} (hw : 0 < workers)
    {result : Except PlanError (List Ran)} {e : Disk}
    (h : p.Performed execute launcher workers d result e) (options : LoadOptions) :
    ∃ trials, (loadResults e p.output options).value = .ok trials ∧
      trials.length = p.jobs.length ∧ Matches p.jobs trials := by
  obtain ⟨c, hsteps, hfinished, -, rfl⟩ := h.exists_crew hw hio.folders
  obtain ⟨o, hstored⟩ := stored_of_finished hd hexec hio htext hexists hempty hblank hw hsteps hfinished
  have hread : ∀ j ∈ p.jobs, ∃ t,
      (loadRun c.disk (j.outputPath p.output) j.iteration options).value = some t ∧
        t.iteration = j.iteration ∧ (t.status ≠ .success → j.descriptor.model? = some t.model) := by
    intro j hj
    obtain ⟨i, hi, hmodel⟩ := hstored.recorded j hj
    obtain ⟨t, ht, hiteration, hfailed⟩ := exists_loadRun hi j.iteration options
    exact ⟨t, ht, hiteration, fun hstatus => (hfailed hstatus).symm ▸ hmodel⟩
  have hmatches := matches_filterMap hread
  exact ⟨_, hstored.value_loadResults hiterations hvariants, hmatches.length_eq.symm, hmatches⟩

/-- Whether nothing goes wrong can be tested. -/
theorem Unhindered.of_isOk (hfolders : (Work.on p.createFolders d).result = .ok ())
    (hrecordable : ((p.runs launcher d.home).all fun r =>
      ((p.prepared d).writeText (r.base.withSuffix setupSuffix) r.setupText).isOk) = true)
    (hfound : (p.jobs.all fun j =>
      ((p.prepared d).locate ((j.outputPath p.output).withSuffix setupSuffix)).isOk) = true)
    (hlisted : ∀ names, folderNames (p.prepared d) p.output = .ok names →
      (names.all fun name => ((p.prepared d).list (p.output.join name)).isOk) = true) :
    p.Unhindered launcher d := by
  refine ⟨hfolders, fun r hr => ?_, fun j hj => ?_, fun names hok name hname => ?_⟩
  · exact exists_of_isOk (List.all_eq_true.1 hrecordable r hr)
  · exact exists_of_isOk (List.all_eq_true.1 hfound j hj)
  · exact exists_of_isOk (List.all_eq_true.1 (hlisted names hok) name hname)

/-- Nothing goes wrong on an empty disk. -/
theorem unhindered_samplePlan : (samplePlan 2).Unhindered (.direct "checker") emptyDisk := by
  have hnames : folderNames ((samplePlan 2).prepared emptyDisk) (samplePlan 2).output =
      .ok ["iteration0", "iteration1"] := by decide +kernel
  refine .of_isOk (by decide +kernel) (by decide +kernel) (by decide +kernel) fun names hok => ?_
  rw [hnames] at hok
  cases hok
  decide +kernel

/-- Nothing is on an empty disk. -/
theorem startsEmpty_emptyDisk (p : Plan) : p.StartsEmpty emptyDisk := by
  intro o _ name
  rw [get?, if_neg (by simp)]
  rfl

/-- Four trials are read back, although only two of the jobs have left a result. -/
theorem matches_samplePlan : (samplePlan 2).jobs.length = 4 ∧ ∃ trials,
    (loadResults (Work.on ((samplePlan 2).perform sampleTool (.direct "checker") 3) emptyDisk).disk
      (samplePlan 2).output ⟨.states, "OutOfMemoryError"⟩).value = .ok trials ∧
    trials.length = (samplePlan 2).jobs.length ∧ Matches (samplePlan 2).jobs trials := by
  have horderly : ∀ r ∈ (samplePlan 2).runs (.direct "checker") emptyDisk.home, sampleTool.Orderly r :=
    fun r hr => (confined_sampleTool (samplePlan 2) emptyDisk.home r hr).toOrderly
  have hblank : (samplePlan 2).runnable.all fun x => x.path.toList.all fun c =>
      Text.isBlank c == false := by decide +kernel
  have hpaths : ∀ x ∈ (samplePlan 2).runnable, ∀ c ∈ x.path.toList, Text.isBlank c = false :=
    fun x hx c hc => beq_iff_eq.1 (List.all_eq_true.1 (List.all_eq_true.1 hblank x hx) c hc)
  have hread := matches_of_performed wellFormed_emptyDisk horderly unhindered_samplePlan (by decide)
    (.inl (by decide)) (startsEmpty_emptyDisk _) hpaths (by decide) (by decide +kernel) (by decide)
    (performed_perform horderly 3)
  exact ⟨rfl, hread ⟨.states, "OutOfMemoryError"⟩⟩

/-! ## Results that cannot be read -/

/-- The results of a plan are not read back under its output path, although nothing goes wrong. -/
structure Unread (execute : Executor) (launcher : Launcher) (p : Plan) (workers : Nat) (d : Disk)
    (options : LoadOptions) : Prop where
  /-- The folders are created, and the command lines are written. -/
  unhindered : p.Unhindered launcher d
  /-- Nothing was in the output folder. -/
  startsEmpty : p.StartsEmpty d
  /-- The plan is carried out, and there is not one trial for every job. -/
  lost : ∃ ran e, p.Performed execute launcher workers d (.ok ran) e ∧
    ¬ ∃ trials, (loadResults e p.output options).value = .ok trials ∧ trials.length = p.jobs.length

/-- Results are not read from a folder that cannot be listed in the end. -/
theorem Unread.of_list_error (hexec : ∀ r ∈ p.runs launcher d.home, execute.Orderly r)
    (hio : p.Unhindered launcher d) (hempty : p.StartsEmpty d) {workers : Nat} (hw : 0 < workers)
    {cause : Cause} (hlist : folderNames (Work.on (p.perform execute launcher workers) d).disk p.output =
      .error cause) (options : LoadOptions) : p.Unread execute launcher workers d options := by
  have hperformed := performed_perform hexec workers
  obtain ⟨c, -, -, hresult, -⟩ := hperformed.exists_crew hw hio.folders
  rw [hresult] at hperformed
  refine ⟨hio, hempty, _, _, hperformed, ?_⟩
  rintro ⟨trials, hok, -⟩
  rw [loadResults, iterationFolders, hlist] at hok
  cases hok

/-- A plan with an empty output path. -/
def strayPlan : Plan := { samplePlan 1 with output := ⟨""⟩ }

/-- **Two ways to lose all results.**  Without iterations, an output folder that is not there is not created.
And what is written under the empty path is written into the working folder, to which the empty path does not
lead. -/
theorem not_matches_absent :
    (samplePlan 0).Unread sampleTool (.direct "checker") 1 emptyDisk ⟨.states, "OutOfMemoryError"⟩ ∧
    strayPlan.Unread sampleTool (.direct "checker") 1 emptyDisk ⟨.states, "OutOfMemoryError"⟩ := by
  have horderly : ∀ p : Plan, ∀ r ∈ p.runs (.direct "checker") emptyDisk.home, sampleTool.Orderly r :=
    fun p r hr => (confined_sampleTool p emptyDisk.home r hr).toOrderly
  constructor
  · have hnone : folderNames ((samplePlan 0).prepared emptyDisk) (samplePlan 0).output =
        .error .notFound := by decide +kernel
    have hio : (samplePlan 0).Unhindered (.direct "checker") emptyDisk := by
      refine .of_isOk (by decide +kernel) (by decide +kernel) (by decide +kernel) fun names hok => ?_
      rw [hnone] at hok
      cases hok
    have hlist : folderNames (Work.on ((samplePlan 0).perform sampleTool (.direct "checker") 1)
        emptyDisk).disk (samplePlan 0).output = .error .notFound := by decide +kernel
    exact .of_list_error (horderly _) hio (startsEmpty_emptyDisk _) Nat.one_pos hlist _
  · have hnone : ∀ d : Disk, folderNames d strayPlan.output = .error .notFound := fun _ => rfl
    have hio : strayPlan.Unhindered (.direct "checker") emptyDisk := by
      refine .of_isOk (by decide +kernel) (by decide +kernel) (by decide +kernel) fun names hok => ?_
      rw [hnone] at hok
      cases hok
    exact .of_list_error (horderly _) hio (startsEmpty_emptyDisk _) Nat.one_pos (hnone _) _

end Plan

end CheckerTrials
