import CheckerTrials.Ordered.Sort
import CheckerTrials.Plan.Job
import CheckerTrials.Trial.Artifact
import CheckerTrials.Trial.TextResult

/-!
# Folders of trials

The results of a plan are in a folder with one folder for each iteration, and in that one base path for
each run, whose name is the number of the run.  Reading them back loses no run whose model is known:

* `loadRun` reads one run.  A run that left no result or one that cannot be read is a failed trial of
  the model that its command line names.
* `iterationFolders` finds the iterations and numbers them, and `runNumbers` finds the runs of one.
* `loadResults` reads all runs, iteration by iteration and in the order of their numbers.
-/

set_option autoImplicit false

namespace CheckerTrials

/-- How trials are read. -/
structure LoadOptions where
  /-- What the last section of results holds. -/
  trailing : Trailing
  /-- The words in a log that tell that memory ran out. -/
  marker : String
  deriving DecidableEq, Repr

/-! ## One run -/

/-- Why the result of a run cannot be read. -/
inductive LoadError
  /-- The file cannot be read. -/
  | unreadable (p : Path) (cause : Cause)
  /-- The text of the file is no result. -/
  | invalid (p : Path) (e : ResultError)
  deriving DecidableEq, Repr

/-- What is said about a result that cannot be read. -/
def LoadError.message : LoadError → String
  | .unreadable p cause => "Unable to read " ++ p.text ++ ": " ++ cause.message
  | .invalid p e => p.text ++ ": " ++ e.message

/-- Reads a text result from a file. -/
def TextResult.read (d : Disk) (p : Path) (mode : Trailing) (iteration : Nat) :
    Noted (Except LoadError (Trial Float)) :=
  match d.readText p with
  | .error cause => pure (.error (.unreadable p cause))
  | .ok s => (·.mapError (.invalid p)) <$> TextResult.parse s mode iteration

/-- The lines that may hold the command line of a run: what was written beside the result, and the first
line of the result itself. -/
def invocationLines (d : Disk) (base : Path) : List (List Char) :=
  let setup := (d.readText (base.withSuffix setupSuffix)).toOption.map String.toList
  let echoed := (d.readText base).toOption.bind fun s => (Text.lines s.toList).head?
  setup.toList ++ echoed.toList

/-- The command line of a run, as far as it is known. -/
def recordedInvocation? (d : Disk) (base : Path) : Option Invocation :=
  (invocationLines d base).findSome? fun line =>
    (Invocation.parse (String.ofList (Text.trim line))).toOption

/-- The trial of a run that failed, if its model is known. -/
def failedTrial (d : Disk) (base : Path) (failure : Failure) (iteration : Nat) :
    Noted (Option (Trial Float)) :=
  match recordedInvocation? d base with
  | some i => pure (some (.failed i.model i.axis? failure iteration))
  | none => do
    Noted.warn s!"Skipping {base.text}: run failed ({failure.name}) and names no model."
    return none

/-- Reads one run. -/
def loadRun (d : Disk) (base : Path) (iteration : Nat) (options : LoadOptions) :
    Noted (Option (Trial Float)) :=
  match classify d (.text base) options.marker with
  | some failure => failedTrial d base failure iteration
  | none => do
    match ← TextResult.read d base options.trailing iteration with
    | .ok t => return some t
    | .error e =>
      Noted.warn e.message
      failedTrial d base .generic iteration

/-! ## One iteration -/

/-- The number of the run that a file belongs to: what stands before the first point of its name. -/
def runNumber? (name : String) : Option Nat :=
  (Text.splitOn '.' name.toList).head?.bind Decimal.natural?

/-- Puts a number into an increasing list, unless it is in there. -/
def insertNumber (n : Nat) : List Nat → List Nat
  | [] => [n]
  | m :: rest => if n < m then n :: m :: rest else if n = m then m :: rest else m :: insertNumber n rest

/-- The numbers of a list in increasing order, each of them once. -/
def distinctNumbers (ns : List Nat) : List Nat := ns.foldr insertNumber []

theorem mem_insertNumber {n m : Nat} {ns : List Nat} : m ∈ insertNumber n ns ↔ m = n ∨ m ∈ ns := by
  induction ns with
  | nil => simp [insertNumber]
  | cons k rest ih =>
    rw [insertNumber]
    split
    · simp
    · split
      · rename_i h
        subst h
        simp
      · simp only [List.mem_cons, ih]
        constructor <;> (intro h; rcases h with h | h | h <;> simp [h])

/-- No number is lost and none is invented. -/
theorem mem_distinctNumbers {m : Nat} {ns : List Nat} : m ∈ distinctNumbers ns ↔ m ∈ ns := by
  induction ns with
  | nil => simp [distinctNumbers]
  | cons n rest ih =>
    rw [distinctNumbers, List.foldr_cons, mem_insertNumber, List.mem_cons]
    exact or_congr_right ih

/-- The numbers of the runs in a folder, in increasing order. -/
def runNumbers (d : Disk) (folder : Path) : Except Cause (List Nat) :=
  (d.list folder).map fun entries => distinctNumbers (entries.filterMap fun e => runNumber? e.1)

/-- Reads all runs of an iteration, in the order of their numbers. -/
def loadIteration (d : Disk) (folder : Path) (iteration : Nat) (options : LoadOptions) :
    Noted (Except Cause (List (Trial Float))) :=
  match runNumbers d folder with
  | .error cause => pure (.error cause)
  | .ok numbers => do
    let trials ← Noted.all (numbers.map fun n => loadRun d (folder.join n.repr) iteration options)
    return .ok (trials.filterMap id)

/-! ## All iterations -/

/-- The names of the folders inside a folder, in order. -/
def folderNames (d : Disk) (p : Path) : Except Cause (List String) :=
  (d.list p).map fun entries =>
    sortBy compare (entries.filterMap fun (name, e) => if e = .folder then some name else none)

/-- The number in the name of an iteration's folder. -/
def iterationNumber? (name : String) : Option Nat :=
  if iterationWord.toList.isPrefixOf name.toList then
    Decimal.natural? (name.toList.drop iterationWord.length)
  else none

/-- The numbers of folders that are given in order: the number in the name, or else the place of the
folder. -/
def numberFolders (names : List String) : List (Nat × String) :=
  sortBy (compareOn Prod.fst) <|
    names.zipIdx.map fun (name, place) => ((iterationNumber? name).getD place, name)

/-- The folders of iterations with their numbers, in the order of the numbers. -/
def iterationFolders (d : Disk) (root : Path) : Except Cause (List (Nat × Path)) :=
  (folderNames d root).map fun names =>
    (numberFolders names).map fun (number, name) => (number, root.join name)

/-- Reads all runs below a folder. -/
def loadResults (d : Disk) (root : Path) (options : LoadOptions) :
    Noted (Except Cause (List (Trial Float))) :=
  match iterationFolders d root with
  | .error cause => pure (.error cause)
  | .ok folders => do
    let loaded ← Noted.forEach (fun (number, folder) => loadIteration d folder number options) folders
    return loaded.map List.flatten

end CheckerTrials
