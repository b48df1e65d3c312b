import CheckerTrials.Catalogue.Descriptor
import CheckerTrials.Files.Path
import CheckerTrials.Note
import CheckerTrials.Plan.Flags

/-!
# Plans and their jobs

A plan runs every model of a list with every variant of its flags, several times over.  A job is one
of these runs.  The jobs of one iteration are numbered from 0, in the order of the models and for each
model in the order of the variants, so that a number means the same model and flags in every
iteration; the number is also the name of the file that the job's result goes to.

* `Plan.jobs`: all jobs, iteration by iteration.
* `Plan.runnable`: the models that are run, which are those that have a name.
* `length_variantsOf`: how many jobs an iteration has.
-/

set_option autoImplicit false

namespace CheckerTrials

/-- The names of the folders of iterations begin with this. -/
def iterationWord : String := "iteration"

/-- One run of a plan. -/
structure Job where
  /-- Which repetition the run belongs to. -/
  iteration : Nat
  /-- Its number in this repetition. -/
  index : Nat
  /-- The model. -/
  descriptor : Descriptor
  /-- The flags, which name one update method at most. -/
  flags : Flags
  deriving DecidableEq

/-- The folder of an iteration in the output folder. -/
def iterationFolder (output : Path) (iteration : Nat) : Path :=
  output.join (iterationWord ++ iteration.repr)

/-- Where the result of a job goes. -/
def Job.outputPath (j : Job) (output : Path) : Path :=
  (iterationFolder output j.iteration).join j.index.repr

/-- What to run, how often, and where the results go. -/
structure Plan where
  /-- The models. -/
  descriptors : List Descriptor
  /-- The flags for all of them. -/
  flags : Flags
  /-- The number of repetitions. -/
  iterations : Nat
  /-- The folder of the results. -/
  output : Path
  deriving DecidableEq

namespace Plan

/-- The models that can be run: those whose path names a model file. -/
def runnable (p : Plan) : List Descriptor := p.descriptors.filter fun d => d.model?.isSome

/-- The models that are left out. -/
def skipped (p : Plan) : List Descriptor := p.descriptors.filter fun d => d.model?.isNone

/-- The runs of one iteration: every model with every variant of the flags. -/
def variantsOf (p : Plan) : List (Descriptor × Flags) :=
  p.runnable.flatMap fun d => p.flags.variants.map fun v => (d, v)

theorem length_variantsOf (p : Plan) :
    p.variantsOf.length = p.runnable.length * p.flags.variants.length := by
  simp [variantsOf, List.length_flatMap, List.map_const', List.sum_replicate_nat]

/-- The jobs of one iteration. -/
def jobsOf (p : Plan) (iteration : Nat) : List Job :=
  p.variantsOf.zipIdx.map fun ((descriptor, flags), index) => { iteration, index, descriptor, flags }

/-- All jobs of a plan. -/
def jobs (p : Plan) : List Job := (List.range p.iterations).flatMap p.jobsOf

/-- What is said about the models that are left out. -/
def skipNotes (p : Plan) : Noted Unit :=
  ⟨(), p.skipped.map fun d => ⟨.warning, "Skipping descriptor: " ++ d.malformedMessage⟩⟩

end Plan

end CheckerTrials
