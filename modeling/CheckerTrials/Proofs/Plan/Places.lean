import CheckerTrials.Proofs.Files.Folders
import CheckerTrials.Proofs.Plan.Names
import CheckerTrials.Proofs.Plan.Schedule

/-!
# Where the files of a plan are

The files of a job are in the folder of its iteration, and their names begin with the number of the job.
Once the folders have been created (`Stocked`), this says where they are (`place_run`), whatever the path of
the output folder looks like, and it follows that the jobs of a plan have no file in common
(`separated_runs`).
-/

set_option autoImplicit false

namespace CheckerTrials

open Disk CheckerTrials.Path

/-! ## The runs of a plan -/

/-- Where the output folder is, as steps from the root. -/
def stem (output : Path) (home : Location) : List String :=
  (if output.isRooted then [] else home) ++ output.steps.filter (· ≠ ".")

/-- The run of a job, with its path from the root. -/
def Job.run (launcher : Launcher) (output : Path) (home : Location) (j : Job) : Run :=
  .of launcher j.descriptor j.flags (((j.outputPath output).absolute? home).getD ⟨""⟩)

/-- **The path of a run** is that of its iteration and its number. -/
theorem absolute?_outputPath (launcher : Launcher) (output : Path) (home : Location) (j : Job) :
    ∃ front, (front = "" ∨ front = "/") ∧
      (j.run launcher output home).base =
        ⟨front ++ ofSteps (stem output home ++ [iterationName j.iteration] ++ [j.index.repr])⟩ ∧
      (j.outputPath output).absolute? home = some (j.run launcher output home).base := by
  have hfilter : (j.outputPath output).steps.filter (· ≠ ".") =
      output.steps.filter (· ≠ ".") ++ [iterationName j.iteration] ++ [j.index.repr] := by
    have hindex := (repr_append_ne_points j.index "").1
    rw [String.append_empty] at hindex
    rw [steps_outputPath, List.filter_append, List.filter_append,
      List.filter_singleton, List.filter_singleton]
    simp [hindex, (iterationName_ne_points j.iteration).1]
  have hname := isStep_repr j.index
  obtain ⟨front, hfront, habsolute⟩ := absolute?_eq_some (join_toList_ne_nil _ hname)
    (namesFolder_join (iterationFolder output j.iteration) hname) home
    (by rw [← Job.outputPath, hfilter]; simp)
  rw [← Job.outputPath, hfilter, isRooted_outputPath, ← List.append_assoc, ← List.append_assoc,
    ← stem] at habsolute
  have hbase : (j.run launcher output home).base =
      ⟨front ++ ofSteps (stem output home ++ [iterationName j.iteration] ++ [j.index.repr])⟩ := by
    rw [Job.run, Run.of, habsolute]
    rfl
  exact ⟨front, hfront, hbase, by rw [habsolute, hbase]⟩

/-! ## Folders that have been created -/

/-- The output folder is at a location `o`, and the folders of some iterations are in it. -/
structure Stocked (output : Path) (iterations : Nat) (d : Disk) (o : Location) : Prop where
  /-- The path leads there. -/
  walk : d.walk (d.startOf output) output.steps = .ok o
  /-- There is a folder. -/
  folder : d.get? o = some .folder
  /-- There is one for each of the iterations. -/
  iteration : ∀ i, i < iterations → d.get? (o ++ [iterationName i]) = some .folder
  /-- Their names are not too long. -/
  short : ∀ i, i < iterations → (iterationName i).utf8ByteSize ≤ 255
  /-- Nor are their paths. -/
  usable : ∀ i, i < iterations → (iterationFolder output i).IsUsable

theorem Stocked.grows {output : Path} {iterations : Nat} {d e : Disk} {o : Location}
    (h : Stocked output iterations d o) (hg : d.Grows e) : Stocked output iterations e o := by
  refine ⟨?_, hg.folder o h.folder, fun i hi => hg.folder _ (h.iteration i hi), h.short, h.usable⟩
  rw [startOf_grows hg]
  exact walk_of_grows hg h.walk

/-- If the paths of all iterations lead to folders, they are in one folder. -/
theorem exists_stocked {output : Path} {iterations : Nat} {d : Disk} (hpos : 0 < iterations)
    (h : ∀ i, i < iterations → (iterationFolder output i).IsUsable ∧
      d.Leads (d.startOf output) (iterationFolder output i).steps) :
    ∃ o, Stocked output iterations d o := by
  have hsplit : ∀ i, i < iterations → ∃ o, d.walk (d.startOf output) output.steps = .ok o ∧
      d.get? o = some .folder ∧ d.get? (o ++ [iterationName i]) = some .folder ∧
      (iterationName i).utf8ByteSize ≤ 255 := by
    intro i hi
    obtain ⟨-, l, hw, hl⟩ := h i hi
    rw [steps_iterationFolder, walk_append, bind_eq_ok_iff] at hw
    obtain ⟨o, ho, hlast⟩ := hw
    obtain ⟨hfolder, m, hm, hend⟩ := walk_cons_eq_ok_iff.1 hlast
    cases hend
    rw [enter, if_neg (iterationName_ne_points i).1, if_neg (iterationName_ne_points i).2] at hm
    split at hm
    · cases hm
    · rename_i hshort
      cases hm
      exact ⟨o, ho, hfolder, hl, Nat.le_of_not_lt hshort⟩
  obtain ⟨o, ho, hfolder, -⟩ := hsplit 0 hpos
  have hall : ∀ i, i < iterations → d.get? (o ++ [iterationName i]) = some .folder ∧
      (iterationName i).utf8ByteSize ≤ 255 := by
    intro i hi
    obtain ⟨o', ho', -, hi'⟩ := hsplit i hi
    rw [ho] at ho'
    cases ho'
    exact hi'
  exact ⟨o, ho, hfolder, fun i hi => (hall i hi).1, fun i hi => (hall i hi).2, fun i hi => (h i hi).1⟩

/-! ## The files of a job -/

section

variable {output : Path} {iterations : Nat} {d d₁ : Disk} {o : Location}

/-- A name in the folder of an iteration, when the way to the output folder is known. -/
theorem walk_file {start : Location} {before : List String} (hw : d.walk start before = .ok o)
    (h : Stocked output iterations d o) {i : Nat} (hi : i < iterations) {name : String}
    (hname : name ≠ "." ∧ name ≠ "..") :
    d.walk start (before ++ [iterationName i] ++ [name]) =
      if 255 < name.utf8ByteSize then .error .nameTooLong
      else .ok (o ++ [iterationName i] ++ [name]) := by
  have hfolder : d.walk start (before ++ [iterationName i]) = .ok (o ++ [iterationName i]) := by
    rw [walk_concat hw h.folder (iterationName_ne_points i).1 (iterationName_ne_points i).2,
      if_neg (Nat.not_lt.2 (h.short i hi))]
  exact walk_concat hfolder (h.iteration i hi) hname.1 hname.2

/-- The output folder is reached from the root by its stem. -/
theorem walk_stem (h : Stocked output iterations d o) (hhome : d.walk [] d.home = .ok d.home) :
    d.walk [] (stem output d.home) = .ok o := by
  have hw := walk_filter h.walk
  rw [startOf] at hw
  rw [stem]
  split
  · rename_i hrooted
    rw [if_pos hrooted] at hw
    exact hw
  · rename_i hrooted
    rw [if_neg hrooted] at hw
    rw [walk_append, hhome]
    exact hw

/-- What a suffix of a file looks like: nothing, or a point and more, but no slash. -/
theorem suffix_spec {s : String} (hs : s ∈ Run.suffixes) :
    '/' ∉ s.toList ∧ ∀ c ∈ s.toList.head?, Decimal.isDigit c = false := by
  have hshape : '/' ∉ s.toList ∧ (s.toList.head? = none ∨ s.toList.head? = some '.') := by
    simp only [Run.suffixes, List.mem_cons, List.not_mem_nil, or_false] at hs
    rcases hs with rfl | rfl | rfl | rfl | rfl <;> decide
  refine ⟨hshape.1, fun c hc => ?_⟩
  rcases hshape.2 with hhead | hhead
  · rw [hhead] at hc
    cases hc
  · rw [hhead] at hc
    cases hc
    rfl

/-- Files of different numbers have different names. -/
theorem eq_of_repr_append {m n : Nat} {s t : String} (hs : s ∈ Run.suffixes) (ht : t ∈ Run.suffixes)
    (h : m.repr ++ s = n.repr ++ t) : m = n := by
  have hlist := congrArg String.toList h
  rw [String.toList_append, String.toList_append] at hlist
  exact (Decimal.repr_append_inj (suffix_spec hs).2 (suffix_spec ht).2 hlist).1

/-- **The names of a file tell its job**: the name of its folder the iteration, and its own name the number. -/
theorem eq_of_names {i j : Job} {s t : String} (hs : s ∈ Run.suffixes) (ht : t ∈ Run.suffixes)
    (hfolder : iterationName i.iteration = iterationName j.iteration)
    (hfile : i.index.repr ++ s = j.index.repr ++ t) : i.iteration = j.iteration ∧ i.index = j.index := by
  have hiteration := congrArg String.toList hfolder
  rw [iterationName, iterationName, String.toList_append, String.toList_append] at hiteration
  exact ⟨Decimal.repr_toList_inj (List.append_cancel_left hiteration), eq_of_repr_append hs ht hfile⟩

/-- The steps of a file of a run. -/
theorem steps_file (launcher : Launcher) {home : Location}
    (hhome : ∀ name ∈ home, IsStep name.toList) (j : Job) {s : String} (hs : s ∈ Run.suffixes) :
    (((j.run launcher output home).base).withSuffix s).steps =
        stem output home ++ [iterationName j.iteration] ++ [j.index.repr ++ s] ∧
      (((j.run launcher output home).base).withSuffix s).isRooted = true := by
  obtain ⟨front, hfront, hbase, -⟩ := absolute?_outputPath launcher output home j
  have hstem : ∀ step ∈ stem output home ++ [iterationName j.iteration], IsStep step.toList := by
    intro step hstep
    rw [List.mem_append, stem, List.mem_append, List.mem_singleton] at hstep
    rcases hstep with (hstep | hstep) | rfl
    · split at hstep
      · cases hstep
      · exact hhome step hstep
    · exact isStep_of_mem_stepsOf (List.mem_filter.1 hstep).1
    · exact isStep_iterationName j.iteration
  rw [hbase]
  exact ⟨steps_withSuffix hfront hstem (isStep_repr_append j.index (suffix_spec hs).1),
    isRooted_withSuffix hfront _ _ s⟩

/-- **Where a file of a run is**: where it is on any disk that has the folders, and in the folder of the
iteration, under the number of the job. -/
theorem place_run (launcher : Launcher) (h : Stocked output iterations d₁ o) (hd : d₁.WellFormed)
    {j : Job} (hj : j.iteration < iterations) {s : String} (hs : s ∈ Run.suffixes) :
    (∀ d, d₁.Grows d → (j.run launcher output d₁.home).place d s =
      (j.run launcher output d₁.home).place d₁ s) ∧
    ∀ l, (j.run launcher output d₁.home).place d₁ s = .ok l →
      l = o ++ [iterationName j.iteration] ++ [j.index.repr ++ s] := by
  have hhome : d₁.walk [] d₁.home = .ok d₁.home := hd.walk_of_folder hd.home
  obtain ⟨hsteps, hrooted⟩ := steps_file launcher (fun name hname => (hd.names_of_get? hd.home name hname).isStep) j hs
  have hwalk : ∀ d, d₁.Grows d →
      d.walk [] (((j.run launcher output d₁.home).base).withSuffix s).steps =
        if 255 < (j.index.repr ++ s).utf8ByteSize then .error .nameTooLong
        else .ok (o ++ [iterationName j.iteration] ++ [j.index.repr ++ s]) := by
    intro d hg
    rw [hsteps]
    exact walk_file (walk_of_grows hg (walk_stem h hhome)) (h.grows hg) hj
      (repr_append_ne_points j.index s)
  constructor
  · intro d hg
    rw [Run.place, Run.place, locate, locate, hrooted, if_pos rfl, if_pos rfl, hwalk d hg,
      hwalk d₁ (.refl d₁)]
  · intro l hl
    obtain ⟨-, -, hw⟩ := locate_eq_ok_iff.1 hl
    rw [startOf, if_pos hrooted, hwalk d₁ (.refl d₁)] at hw
    split at hw
    · cases hw
    · exact (Except.ok.inj hw).symm

/-- A run of a plan keeps its files where they are. -/
theorem sited_run (launcher : Launcher) (h : Stocked output iterations d₁ o) (hd : d₁.WellFormed)
    {j : Job} (hj : j.iteration < iterations) : (j.run launcher output d₁.home).Sited d₁ := by
  refine ⟨fun d hg s hs => (place_run launcher h hd hj hs).1 d hg, fun s hs t ht hst l hl hl' => ?_⟩
  have hs' := (place_run launcher h hd hj hs).2 l hl
  have ht' := (place_run launcher h hd hj ht).2 l hl'
  rw [hs'] at ht'
  have hname : j.index.repr ++ s = j.index.repr ++ t := by simpa using ht'
  exact hst ((String.append_right_inj _).1 hname)

/-- **No file belongs to two jobs.** -/
theorem eq_of_owns (launcher : Launcher) (h : Stocked output iterations d₁ o) (hd : d₁.WellFormed)
    {i j : Job} (hi : i.iteration < iterations) (hj : j.iteration < iterations) {l : Location}
    (hil : (i.run launcher output d₁.home).Owns d₁ l)
    (hjl : (j.run launcher output d₁.home).Owns d₁ l) :
    i.iteration = j.iteration ∧ i.index = j.index := by
  obtain ⟨s, hs, hplace⟩ := hil
  obtain ⟨t, ht, hplace'⟩ := hjl
  have hl := (place_run launcher h hd hi hs).2 l hplace
  have hl' := (place_run launcher h hd hj ht).2 l hplace'
  rw [hl] at hl'
  have hboth : iterationName i.iteration = iterationName j.iteration ∧
      i.index.repr ++ s = j.index.repr ++ t := by simpa using hl'
  exact eq_of_names hs ht hboth.1 hboth.2

end

/-! ## All jobs -/

theorem iteration_of_mem_jobsOf {p : Plan} {iteration : Nat} {j : Job} (h : j ∈ p.jobsOf iteration) :
    j.iteration = iteration := by
  rw [Plan.jobsOf, List.mem_map] at h
  obtain ⟨q, -, rfl⟩ := h
  rfl

theorem iteration_lt_of_mem_jobs {p : Plan} {j : Job} (h : j ∈ p.jobs) :
    j.iteration < p.iterations := by
  rw [Plan.jobs, List.mem_flatMap] at h
  obtain ⟨i, hi, hj⟩ := h
  rw [iteration_of_mem_jobsOf hj]
  exact List.mem_range.1 hi

/-- The jobs of a plan are told apart by their iterations and their numbers. -/
theorem pairwise_jobs (p : Plan) :
    p.jobs.Pairwise fun i j => ¬ (i.iteration = j.iteration ∧ i.index = j.index) := by
  rw [Plan.jobs, List.pairwise_flatMap]
  constructor
  · intro i _
    have hnumbers : (p.variantsOf.zipIdx.map Prod.snd).Pairwise (· < ·) := by
      rw [List.zipIdx_map_snd]
      exact List.pairwise_lt_range'
    rw [Plan.jobsOf, List.pairwise_map]
    refine (List.pairwise_map.1 hnumbers).imp fun {q q'} hlt he => ?_
    exact Nat.ne_of_lt hlt he.2
  · refine List.pairwise_lt_range.imp fun hlt i hi j hj he => ?_
    rw [iteration_of_mem_jobsOf hi, iteration_of_mem_jobsOf hj] at he
    exact Nat.ne_of_lt hlt he.1

/-- **The jobs of a plan have no file in common.** -/
theorem separated_runs (launcher : Launcher) (p : Plan) {d₁ : Disk} {o : Location}
    (h : Stocked p.output p.iterations d₁ o) (hd : d₁.WellFormed) :
    Separated d₁ (p.jobs.map (Job.run launcher p.output d₁.home)) := by
  rw [Separated, List.pairwise_map]
  refine (pairwise_jobs p).imp_of_mem fun hi hj hne l hil hjl => hne ?_
  exact eq_of_owns launcher h hd (iteration_lt_of_mem_jobs hi) (iteration_lt_of_mem_jobs hj) hil hjl

end CheckerTrials
