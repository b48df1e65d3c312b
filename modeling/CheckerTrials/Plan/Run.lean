import CheckerTrials.Decimal.Written
import CheckerTrials.Files.Work
import CheckerTrials.Plan.Job
import CheckerTrials.Plan.Launcher
import CheckerTrials.Plan.Partition
import CheckerTrials.Trial.Artifact

/-!
# Running plans

A run writes the command line of the tool beside its base path, opens a log for the console, starts the
tool and waits for it, and then writes the exit code and the duration.  A run whose tool cannot be started
takes its log back, so that nothing is known about it later but its command line.

What the tool does is not said here.  An `Executor` starts a command on a disk, with a log for what it
prints, and tells what the disk is like afterwards.

* `Stage` is what is next in a run, and `Run.next` does one thing to the disk; runs that are carried out
  side by side take turns between these steps.
* `Run.perform` carries out a whole run, and `Plan.perform` all runs of a plan.  Each worker has its slice
  of the jobs, and slices are carried out in order.
-/

set_option autoImplicit false

namespace CheckerTrials

/-! ## Starting programs -/

/-- What has come of a program that was started. -/
structure Executed where
  /-- The disk after the program ended. -/
  disk : Disk
  /-- The exit code, unless a signal ended the program. -/
  exit : Option Nat
  /-- How long the program ran. -/
  seconds : Float

/-- Starts a command on a disk and waits for it to end.  What it prints goes to the file at the given
path, which is there and empty. -/
abbrev Executor := Command → Path → Disk → Except Cause Executed

/-! ## Runs -/

/-- One run of the tool. -/
structure Run where
  /-- The base path of its files, from the root. -/
  base : Path
  /-- The arguments of the tool. -/
  arguments : List String
  /-- The command that starts the tool. -/
  command : Command
  deriving DecidableEq, Repr

/-- What a run has left behind. -/
structure Ran where
  /-- Its files. -/
  artifact : Artifact
  /-- The exit code, unless a signal ended the tool. -/
  exit : Option Nat
  deriving DecidableEq, Repr

/-- What is next in a run. -/
inductive Stage
  /-- To write the command line. -/
  | setup
  /-- To open the log. -/
  | log
  /-- To start the tool. -/
  | tool
  /-- To remove the log, because the tool could not be started. -/
  | withdrawal (cause : Cause)
  /-- To write the exit code. -/
  | status (exit : Option Nat) (seconds : Float)
  /-- To write the duration. -/
  | time (exit : Option Nat) (seconds : Float)

/-- How many steps a run may take from a stage on. -/
def Stage.stepsLeft : Stage → Nat
  | .setup => 5
  | .log => 4
  | .tool => 3
  | .withdrawal _ => 1
  | .status _ _ => 2
  | .time _ _ => 1

/-- How far a run has come. -/
inductive Progress
  /-- Something is left to do. -/
  | reached (stage : Stage)
  /-- The run has ended, with an exit code unless a signal ended the tool. -/
  | ended (result : Except Cause (Option Nat))

namespace Run

/-- The run of a descriptor with flags by a launcher, whose result goes to `base`. -/
def of (launcher : Launcher) (descriptor : Descriptor) (flags : Flags) (base : Path) : Run :=
  let arguments := descriptor.arguments ++ flags.arguments ++ ["--outputPath", base.text]
  { base, arguments, command := launcher.command arguments }

/-- The files by which the run is judged. -/
def artifact (r : Run) : Artifact := .text r.base

/-- The line that tells the command line of the tool. -/
def setupText (r : Run) : String := " ".intercalate r.arguments ++ "\n"

/-- The line that tells an exit code. -/
def statusText : Option Nat → String
  | some code => code.repr ++ "\n"
  | none => "signal\n"

/-- The progress after an action on a disk: `onward`, or the end of the run if the action fails. -/
def after (d : Disk) (action : Except Cause Disk) (onward : Progress) : Progress × Disk :=
  match action with
  | .ok d => (onward, d)
  | .error cause => (.ended (.error cause), d)

/-- Does what is next. -/
def next (execute : Executor) (r : Run) (d : Disk) : Stage → Noted (Progress × Disk)
  | .setup =>
    pure (after d (d.writeText (r.base.withSuffix setupSuffix) r.setupText) (.reached .log))
  | .log => pure (after d (d.writeText r.artifact.log "") (.reached .tool))
  | .tool =>
    match execute r.command r.artifact.log d with
    | .ok done => pure (.reached (.status done.exit done.seconds), done.disk)
    | .error cause => pure (.reached (.withdrawal cause), d)
  | .withdrawal cause =>
    match d.removeFile r.artifact.log with
    | .ok d => pure (.ended (.error cause), d)
    | .error e => do
      Noted.warn s!"Unable to remove {r.artifact.log.text}: {e.message}"
      return (.ended (.error cause), d)
  | .status exit seconds =>
    pure (after d (d.writeText (r.base.withSuffix statusSuffix) (statusText exit))
      (.reached (.time exit seconds)))
  | .time exit seconds =>
    pure (after d (d.writeText (r.base.withSuffix timeSuffix) (Decimal.plain seconds ++ "\n"))
      (.ended (.ok exit)))

theorem eq_of_after {d : Disk} {action : Except Cause Disk} {onward : Progress} {s : Stage}
    (h : (after d action onward).1 = .reached s) : onward = .reached s := by
  cases action with
  | ok d => exact h
  | error cause => simp [after] at h

/-- Every step leads closer to the end. -/
theorem stepsLeft_lt_of_next {execute : Executor} {r : Run} {d : Disk} {stage s : Stage}
    (h : (next execute r d stage).value.1 = .reached s) : s.stepsLeft < stage.stepsLeft := by
  cases stage with
  | tool =>
    simp only [next] at h
    split at h <;> (cases h; simp [Stage.stepsLeft])
  | withdrawal cause =>
    simp only [next] at h
    split at h <;> cases h
  | setup => cases eq_of_after h; decide
  | log => cases eq_of_after h; decide
  | status exit seconds => cases eq_of_after h; simp [Stage.stepsLeft]
  | time exit seconds => cases eq_of_after h

/-- Carries out a run from a stage to its end. -/
def finish (execute : Executor) (r : Run) (stage : Stage) (d : Disk) :
    Noted (Except Cause (Option Nat) × Disk) :=
  let step := next execute r d stage
  match h : step.value.1 with
  | .ended result => ⟨(result, step.value.2), step.notes⟩
  | .reached s =>
    have : s.stepsLeft < stage.stepsLeft := stepsLeft_lt_of_next h
    let rest := finish execute r s step.value.2
    ⟨rest.value, step.notes ++ rest.notes⟩
termination_by stage.stepsLeft

/-- Carries out a run. -/
def perform (execute : Executor) (r : Run) : Work Cause Ran := do
  let result ← ExceptT.lift fun d => r.finish execute .setup d
  return { artifact := r.artifact, exit := ← Work.ofExcept result }

end Run

/-- Runs the tool once, whatever its exit code. -/
def runOnce (execute : Executor) (launcher : Launcher) (descriptor : Descriptor) (flags : Flags)
    (output : Path) : Work Cause Ran := do
  match output.absolute? (← Work.ask Disk.home) with
  | none => throw .emptyPath
  | some base => (Run.of launcher descriptor flags base).perform execute

/-! ## Plans -/

/-- Why a plan is not carried out. -/
inductive PlanError
  /-- The jobs cannot be split among the workers. -/
  | split (e : PartitionError)
  /-- The folders of the results cannot be created. -/
  | folder (cause : Cause)
  deriving DecidableEq, Repr

/-- What is said about a plan that is not carried out. -/
def PlanError.message : PlanError → String
  | .split e => e.message
  | .folder cause => cause.message

/-- An exit code in a message. -/
def exitText : Option Nat → String
  | some code => s!"Some({code})"
  | none => "None"

/-- Runs a job.  A job that cannot be run is noted and leaves nothing in the list. -/
def Job.perform (execute : Executor) (launcher : Launcher) (output : Path) (j : Job) :
    Work PlanError (Option Ran) := do
  let path := j.outputPath output
  match ← (runOnce execute launcher j.descriptor j.flags path).attempt with
  | .ok ran =>
    if ran.exit ≠ some 0 then
      Work.note (Noted.warn s!"{path.text} exited with {exitText ran.exit}.")
    return some ran
  | .error cause =>
    Work.note (Noted.error s!"Unable to run {path.text}: {cause.message}")
    return none

namespace Plan

/-- Creates the folder of every iteration. -/
def createFolders (p : Plan) : Work PlanError Unit :=
  (List.range p.iterations).forM fun iteration =>
    (Work.act fun d => d.createFolders (iterationFolder p.output iteration)).mapError .folder

/-- Carries out a plan with a number of workers. -/
def perform (execute : Executor) (launcher : Launcher) (p : Plan) (workers : Nat) :
    Work PlanError (List Ran) := do
  Work.note p.skipNotes
  let slices ← Work.ofExcept ((partition p.jobs.length workers).mapError .split)
  p.createFolders
  Work.note (Noted.info
    s!"Running {p.jobs.length} jobs on {workers} workers into {p.output.text}.")
  let ran ← slices.mapM fun slice =>
    (slice.of p.jobs).mapM fun j => j.perform execute launcher p.output
  return ran.flatten.filterMap id

end Plan

end CheckerTrials
