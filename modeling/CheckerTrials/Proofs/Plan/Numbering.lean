import CheckerTrials.Proofs.Plan.Places

/-!
# How jobs are numbered

The jobs of a plan are a list of blocks of one size, one block for each iteration, and the jobs of an iteration are
again blocks of one size, one for each model.  The place of an element in a list of blocks tells its block and its
place in the block (`getElem?_flatMap`), and so the place of a job tells all about it (`getElem?_jobs_iff`): iteration
and number are the quotient and the remainder by the number of jobs in an iteration, and model and flags are those at
the quotient and the remainder of the number by the number of variants.

Two jobs at different places therefore differ in the iteration or in the number, which are in the last two steps of
the paths of their files (`steps_file_outputPath`).

* `Plan.NumbersJobs`: what is to be known about numbers and files.
-/

set_option autoImplicit false

namespace CheckerTrials

open CheckerTrials.Path

/-! ## Blocks of one size -/

/-- **What is at a place** in a list of blocks of one size. -/
theorem getElem?_flatMap {α β : Type} {f : α → List β} {size : Nat} (hsize : 0 < size) {xs : List α}
    (h : ∀ a ∈ xs, (f a).length = size) (n : Nat) :
    (xs.flatMap f)[n]? = xs[n / size]?.bind fun a => (f a)[n % size]? := by
  induction xs generalizing n with
  | nil => rfl
  | cons a rest ih =>
    have ha := h a List.mem_cons_self
    rw [List.flatMap_cons]
    by_cases hn : n < size
    · rw [List.getElem?_append_left (by omega), Nat.div_eq_of_lt hn, Nat.mod_eq_of_lt hn]
      rfl
    · obtain ⟨m, rfl⟩ : ∃ m, n = m + size := ⟨n - size, by omega⟩
      rw [List.getElem?_append_right (by omega), ha, Nat.add_sub_cancel,
        ih fun b hb => h b (List.mem_cons_of_mem a hb), Nat.add_div_right m hsize, Nat.add_mod_right]
      rfl

namespace Plan

theorem length_jobsOf (p : Plan) (iteration : Nat) : (p.jobsOf iteration).length = p.variantsOf.length := by
  rw [jobsOf, List.length_map, List.length_zipIdx]

theorem length_variants (f : Flags) : f.variants.length = if f.method = some .both then 2 else 1 := by
  rw [Flags.variants]
  split
  · rename_i h
    rw [if_pos h]
    rfl
  · rename_i h
    rw [if_neg h]
    rfl

theorem length_variants_pos (f : Flags) : 0 < f.variants.length := by
  rw [length_variants]
  split <;> decide

theorem length_jobs (p : Plan) : p.jobs.length = p.iterations * p.variantsOf.length := by
  simp [jobs, List.length_flatMap, length_jobsOf]

theorem getElem?_variantsOf (p : Plan) (n : Nat) : p.variantsOf[n]? =
    p.runnable[n / p.flags.variants.length]?.bind fun d =>
      p.flags.variants[n % p.flags.variants.length]?.map fun v => (d, v) := by
  rw [variantsOf, getElem?_flatMap (length_variants_pos p.flags) fun _ _ => List.length_map _]
  simp only [List.getElem?_map]

theorem getElem?_jobsOf (p : Plan) (iteration n : Nat) : (p.jobsOf iteration)[n]? =
    p.variantsOf[n]?.map fun q => { iteration, index := n, descriptor := q.1, flags := q.2 } := by
  rw [jobsOf, List.getElem?_map, List.getElem?_zipIdx, Option.map_map]
  simp [Function.comp_def]

theorem getElem?_jobs_iff {p : Plan} {n : Nat} {j : Job} : p.jobs[n]? = some j ↔
    j.iteration = n / p.variantsOf.length ∧ j.index = n % p.variantsOf.length ∧ j.iteration < p.iterations ∧
      p.runnable[j.index / p.flags.variants.length]? = some j.descriptor ∧
      p.flags.variants[j.index % p.flags.variants.length]? = some j.flags := by
  rcases Nat.eq_zero_or_pos p.variantsOf.length with hnone | hpos
  · have hjobs : p.jobs = [] := List.length_eq_zero_iff.1 (by rw [length_jobs, hnone, Nat.mul_zero])
    have hrunnable : p.runnable = [] := by
      rw [length_variantsOf, Nat.mul_eq_zero] at hnone
      exact List.length_eq_zero_iff.1 (hnone.resolve_right (Nat.ne_of_gt (length_variants_pos p.flags)))
    simp [hjobs, hrunnable]
  · rw [jobs, getElem?_flatMap hpos fun i _ => p.length_jobsOf i]
    simp only [getElem?_jobsOf, getElem?_variantsOf, Option.bind_eq_some_iff, Option.map_eq_some_iff]
    constructor
    · rintro ⟨i, hi, _, ⟨d, hd, v, hv, rfl⟩, rfl⟩
      obtain ⟨hlt, rfl⟩ := List.getElem?_eq_some_iff.1 hi
      rw [List.length_range] at hlt
      rw [List.getElem_range]
      exact ⟨rfl, rfl, hlt, hd, hv⟩
    · rintro ⟨hiteration, hindex, hlt, hd, hv⟩
      rw [hindex] at hd hv
      refine ⟨j.iteration, ?_, _, ⟨_, hd, _, hv, rfl⟩, ?_⟩
      · rw [← hiteration, List.getElem?_range hlt]
      · rw [← hindex]

/-! ## The jobs of an iteration -/

/-- The numbers of the jobs of an iteration count them. -/
theorem map_index_jobsOf (p : Plan) (i : Nat) :
    (p.jobsOf i).map Job.index = List.range p.variantsOf.length := by
  have hnumbers : p.variantsOf.zipIdx.map Prod.snd = List.range p.variantsOf.length := by
    rw [List.zipIdx_map_snd, List.range_eq_range']
  rw [jobsOf, List.map_map, ← hnumbers]
  rfl

theorem jobsOf_subset (p : Plan) {i : Nat} (hi : i < p.iterations) : p.jobsOf i ⊆ p.jobs :=
  fun _ hj => List.mem_flatMap.2 ⟨i, List.mem_range.2 hi, hj⟩

/-- A job is one of its iteration. -/
theorem mem_jobsOf_of_mem_jobs {p : Plan} {j : Job} (h : j ∈ p.jobs) : j ∈ p.jobsOf j.iteration := by
  rw [jobs, List.mem_flatMap] at h
  obtain ⟨i, -, hj⟩ := h
  rw [iteration_of_mem_jobsOf hj]
  exact hj

theorem index_lt_of_mem_jobs {p : Plan} {j : Job} (h : j ∈ p.jobs) :
    j.index < p.variantsOf.length := by
  have hindex := @List.mem_map_of_mem _ _ _ _ Job.index (mem_jobsOf_of_mem_jobs h)
  rwa [map_index_jobsOf, List.mem_range] at hindex

/-- Model and flags of a job are those at the places that its number tells. -/
theorem at_of_mem_jobs {p : Plan} {j : Job} (h : j ∈ p.jobs) :
    p.runnable[j.index / p.flags.variants.length]? = some j.descriptor ∧
      p.flags.variants[j.index % p.flags.variants.length]? = some j.flags := by
  obtain ⟨n, hn⟩ := List.mem_iff_getElem?.1 h
  obtain ⟨-, -, -, hplaces⟩ := getElem?_jobs_iff.1 hn
  exact hplaces

theorem descriptor_of_mem_jobs {p : Plan} {j : Job} (h : j ∈ p.jobs) : j.descriptor ∈ p.runnable :=
  List.mem_of_getElem? (at_of_mem_jobs h).1

end Plan

/-! ## The files of two jobs -/

/-- No file of the run at `b` has the path of a file of the run at `c`, however the paths are written: they go through
other steps. -/
def FilesApart (b c : Path) : Prop :=
  ∀ s ∈ Run.suffixes, ∀ t ∈ Run.suffixes, (b.withSuffix s).steps ≠ (c.withSuffix t).steps

/-- The steps of a file of a job. -/
theorem steps_file_outputPath (j : Job) (output : Path) {s : String} (hs : s ∈ Run.suffixes) :
    ((j.outputPath output).withSuffix s).steps =
      output.steps ++ [iterationName j.iteration] ++ [j.index.repr ++ s] := by
  rw [Job.outputPath, withSuffix_join _ (isStep_repr j.index),
    steps_join_name _ (isStep_repr_append j.index (suffix_spec hs).1), steps_iterationFolder]

/-- **Different jobs have different files** if the last two steps of the files are what they are. -/
theorem filesApart_of_steps {b c : Path} {before : List String} {i j : Job}
    (hne : ¬ (i.iteration = j.iteration ∧ i.index = j.index))
    (hb : ∀ s ∈ Run.suffixes, (b.withSuffix s).steps = before ++ [iterationName i.iteration] ++ [i.index.repr ++ s])
    (hc : ∀ s ∈ Run.suffixes, (c.withSuffix s).steps = before ++ [iterationName j.iteration] ++ [j.index.repr ++ s]) :
    FilesApart b c := by
  intro s hs t ht heq
  rw [hb s hs, hc t ht] at heq
  have hboth : iterationName i.iteration = iterationName j.iteration ∧ i.index.repr ++ s = j.index.repr ++ t := by
    simpa using heq
  exact hne (eq_of_names hs ht hboth.1 hboth.2)

/-! ## Numbers and files -/

/-- **The numbers of the jobs of a plan, and their files.** -/
structure Plan.NumbersJobs (p : Plan) : Prop where
  /-- Both update methods are two variants of the flags, and all else is one. -/
  variants : p.flags.variants.length = if p.flags.method = some .both then 2 else 1
  /-- No job asks for both update methods. -/
  single : ∀ j ∈ p.jobs, j.flags.method ≠ some .both
  /-- In each iteration every model is run with every variant. -/
  length : p.jobs.length = p.iterations * p.runnable.length * p.flags.variants.length
  /-- The place of a job tells its iteration and its number, and the number its model and its flags. -/
  job : ∀ n j, p.jobs[n]? = some j ↔
    j.iteration = n / (p.runnable.length * p.flags.variants.length) ∧
      j.index = n % (p.runnable.length * p.flags.variants.length) ∧ j.iteration < p.iterations ∧
      p.runnable[j.index / p.flags.variants.length]? = some j.descriptor ∧
      p.flags.variants[j.index % p.flags.variants.length]? = some j.flags
  /-- A number means the same model and flags in every iteration. -/
  same : ∀ i ∈ p.jobs, ∀ j ∈ p.jobs, i.index = j.index → i.descriptor = j.descriptor ∧ i.flags = j.flags
  /-- No two jobs have a file in common. -/
  apart : p.jobs.Pairwise fun i j => FilesApart (i.outputPath p.output) (j.outputPath p.output)
  /-- Nor have they if the paths are written from the root, as they are when the jobs are run. -/
  apartFromRoot : ∀ launcher home, (∀ name ∈ home, IsStep name.toList) → p.jobs.Pairwise fun i j =>
    FilesApart (i.run launcher p.output home).base (j.run launcher p.output home).base

/-- **The numbering of jobs is consistent, and their files never collide.** -/
theorem Plan.numbersJobs (p : Plan) : p.NumbersJobs where
  variants := length_variants p.flags
  single j hj := Flags.method_ne_both_of_mem_variants (List.mem_of_getElem? (at_of_mem_jobs hj).2)
  length := by rw [length_jobs, length_variantsOf, Nat.mul_assoc]
  job n j := by
    rw [← length_variantsOf]
    exact getElem?_jobs_iff
  same i hi j hj hindex := by
    obtain ⟨hd, hv⟩ := at_of_mem_jobs hi
    obtain ⟨hd', hv'⟩ := at_of_mem_jobs hj
    rw [hindex] at hd hv
    exact ⟨Option.some.inj (hd.symm.trans hd'), Option.some.inj (hv.symm.trans hv')⟩
  apart := (pairwise_jobs p).imp fun {i j} hne => filesApart_of_steps hne
    (fun _ hs => steps_file_outputPath i p.output hs) fun _ hs => steps_file_outputPath j p.output hs
  apartFromRoot launcher home hhome := (pairwise_jobs p).imp fun {i j} hne => filesApart_of_steps hne
    (fun _ hs => (steps_file launcher hhome i hs).1) fun _ hs => (steps_file launcher hhome j hs).1

end CheckerTrials
