import CheckerTrials.Reachability.Document
import CheckerTrials.Trial.Artifact
import CheckerTrials.Trial.Folder

/-!
# Collecting outcomes from folders

The experiments of a model are in its folder, or in one folder for each choice of its constants.  A
folder of experiments holds a file with the constants, and for every experiment its setup line, its log,
its exit code, its duration and, if it finished, its result in JSON.

* `scanFolder` finds the experiments of a folder.  One whose files are not all there, or whose setup line
  says no kind, is left out.
* `readOutcome` reads the result of an experiment.  One that cannot be read counts as a failure.
* `collect` puts the outcomes of all models into a document.
-/

set_option autoImplicit false

namespace CheckerTrials

/-- The file with the constants. -/
def constantsFile : String := "constants"

/-- The files that every experiment must have left. -/
def expectedSuffixes : List String := [logSuffix, statusSuffix, timeSuffix, setupSuffix]

/-- An experiment that is there. -/
structure Experiment where
  /-- The base path of its files. -/
  base : Path
  /-- What it computed. -/
  kind : Kind
  deriving DecidableEq, Repr

/-- The experiments under one choice of constants. -/
structure ExperimentFolder where
  /-- The constants. -/
  constants : String
  /-- The experiments. -/
  experiments : List Experiment
  deriving DecidableEq, Repr

/-! ## Finding experiments -/

/-- The name of the experiment that a setup file belongs to. -/
def experimentName? (file : String) : Option String :=
  let name := file.toList
  let suffix := setupSuffix.toList
  if suffix.isSuffixOf name then some (String.ofList (name.take (name.length - suffix.length)))
  else none

/-- The names of the experiments in a folder, in order. -/
def experimentNames (d : Disk) (folder : Path) : Except Cause (List String) :=
  (d.list folder).map fun entries =>
    sortBy compare (entries.filterMap fun e => experimentName? e.1)

/-- The experiment at a base path, if it is complete and its setup line says a kind. -/
def findExperiment (d : Disk) (base : Path) : Noted (Except Cause (Option Experiment)) :=
  match expectedSuffixes.find? fun suffix => !d.isFile (base.withSuffix suffix) with
  | some missing => do
    Noted.warn s!"Experiment {base.text} is missing {missing}"
    return .ok none
  | none =>
    match d.readText (base.withSuffix setupSuffix) with
    | .error cause => pure (.error cause)
    | .ok setup =>
      match Kind.parse setup with
      | .ok kind => pure (.ok (some ⟨base, kind⟩))
      | .error e => do
        Noted.warn s!"{e.message} in {base.text}"
        return .ok none

/-- Finds the experiments of a folder. -/
def scanFolder (d : Disk) (folder : Path) : Noted (Except Cause ExperimentFolder) :=
  match d.readText (folder.join constantsFile) with
  | .error cause => pure (.error cause)
  | .ok constants =>
    match experimentNames d folder with
    | .error cause => pure (.error cause)
    | .ok names => do
      let found ← Noted.forEach (fun name => findExperiment d (folder.join name)) names
      return found.map fun experiments =>
        { constants := String.ofList (Text.trimEnd constants.toList)
          experiments := experiments.filterMap id }

/-- The folders with the experiments of a model. -/
def experimentFolders (d : Disk) (model : Path) : Except Cause (List Path) :=
  if d.isFile (model.join constantsFile) then .ok [model]
  else
    (folderNames d model).map fun names =>
      (names.map model.join).filter fun folder => d.isFile (folder.join constantsFile)

/-! ## Reading outcomes -/

/-- Why the result of an experiment says no outcome. -/
inductive OutcomeError
  /-- The file cannot be read. -/
  | unreadable (cause : Cause)
  /-- The text of the file is no JSON document. -/
  | invalid (e : Json.Error)
  /-- The document says nothing about this kind of experiment. -/
  | noEntry (k : Kind)
  /-- What it says is no outcome. -/
  | noOutcome
  deriving DecidableEq, Repr

/-- What is said about a result that says no outcome. -/
def OutcomeError.message : OutcomeError → String
  | .unreadable cause => cause.message
  | .invalid e => e.message
  | .noEntry k => "no entry for `" ++ k.setup ++ "`"
  | .noOutcome => "data did not match any variant of untagged enum Outcome"

section

open Json (Library)

variable {V : Type} [Library V]

/-- The part of a result that is about a kind of experiment. -/
def Kind.entry? (v : V) : Kind → Option V
  | .complete => Library.member? "model" v
  | .unbounded h => do Library.member? h.name (← Library.member? "unbounded" v)
  | .bounded h steps => do Library.member? h.name (← Library.member? steps.repr (← Library.member? "bounded" v))

/-- The outcome that the text of a result says about a kind of experiment. -/
def outcomeOf (k : Kind) (s : String) : Except OutcomeError Outcome :=
  match Json.decode Library.whole? s with
  | .error e => .error (.invalid e)
  | .ok v =>
    match k.entry? v with
    | none => .error (.noEntry k)
    | some entry =>
      match Outcome.ofJson? 0 entry with
      | none => .error .noOutcome
      | some o => .ok o

/-- Reads the outcome of an experiment. -/
def readOutcome (d : Disk) (x : Experiment) (marker : String) : Noted Outcome :=
  let artifact := Artifact.json x.base
  match classify d artifact marker with
  | some failure => pure (.failed failure)
  | none =>
    let read : Except OutcomeError Outcome := do
      outcomeOf x.kind (← (d.readText artifact.result).mapError .unreadable)
    match read with
    | .ok o => pure o
    | .error e => do
      Noted.warn s!"{artifact.result.text}: {e.message}"
      return .failed .generic

/-- Reads the outcomes of the experiments in a folder. -/
def readInstance (d : Disk) (marker : String) (folder : ExperimentFolder) : Noted Instance := do
  let outcomes ← Noted.all (folder.experiments.map fun x => readOutcome d x marker)
  return {
    constants := folder.constants
    results := (folder.experiments.zip outcomes).foldl (fun r (x, o) => r.insert x.kind o) .empty }

/-! ## Collecting -/

/-- Why nothing was collected. -/
inductive CollectError
  /-- There is no folder. -/
  | notAFolder (p : Path)
  /-- Something cannot be read. -/
  | unreadable (cause : Cause)
  deriving DecidableEq, Repr

/-- What is said when nothing was collected. -/
def CollectError.message : CollectError → String
  | .notAFolder p => p.text ++ " is not a directory"
  | .unreadable cause => cause.message

/-- Collects the instances of a model from its folder. -/
def collectModel (d : Disk) (marker : String) (root : Path) (model : String) :
    Noted (Except Cause (String × List Instance)) :=
  match experimentFolders d (root.join model) with
  | .error cause => pure (.error cause)
  | .ok folders => do
    match ← Noted.forEach (scanFolder d) folders with
    | .error cause => return .error cause
    | .ok folders =>
      let instances ← Noted.all (folders.map (readInstance d marker))
      Noted.info s!"Collected {instances.length} instances of {model}."
      return .ok (model, instances)

/-- Collects the outcomes of all models below a folder. -/
def collect (d : Disk) (root : Path) (marker : String) : Noted (Except CollectError Document) :=
  if !d.isFolder root then pure (.error (.notAFolder root))
  else
    match folderNames d root with
    | .error cause => pure (.error (.unreadable cause))
    | .ok models => do
      match ← Noted.forEach (collectModel d marker root) models with
      | .error cause => return .error (.unreadable cause)
      | .ok entries => return .ok (.ofList entries)

end

end CheckerTrials
