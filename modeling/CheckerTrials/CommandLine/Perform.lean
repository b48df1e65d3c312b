import CheckerTrials.CommandLine.Task
import CheckerTrials.Config
import CheckerTrials.Plan.Run
import CheckerTrials.Reachability.Collection
import CheckerTrials.Reachability.Comparison
import CheckerTrials.Reachability.FamilyTable
import CheckerTrials.Reachability.MethodTable
import CheckerTrials.Reachability.Nontrivial
import CheckerTrials.Report.Comparison
import CheckerTrials.Report.Group
import CheckerTrials.Report.Series

/-!
# Doing what the program is asked for

`Task.perform` does a task on a disk.  It gives what is shown on the console; everything else that a task
gives is written into files.
-/

set_option autoImplicit false

namespace CheckerTrials

/-- Why a task is not done. -/
inductive TaskError
  /-- Something cannot be read or written. -/
  | disk (cause : Cause)
  /-- There is no configuration. -/
  | config (e : Config.ConfigError)
  /-- The plan is not carried out. -/
  | plan (e : PlanError)
  /-- Nothing was collected. -/
  | collect (e : CollectError)
  /-- There is no document. -/
  | document (e : DocumentError)
  /-- The document cannot be compared by family. -/
  | family (e : FamilyError)
  /-- Work cannot be split. -/
  | split (e : PartitionError)
  deriving DecidableEq, Repr

/-- What is said about a task that is not done. -/
def TaskError.message : TaskError → String
  | .disk cause => cause.message
  | .config e => e.message
  | .plan e => e.message
  | .collect e => e.message
  | .document e => e.message
  | .family e => e.message
  | .split e => e.message

namespace Task

/-- A result with a note beside it as work. -/
def workOf {ε α : Type} (f : ε → TaskError) (x : Noted (Except ε α)) : Work TaskError α := do
  Work.ofExcept ((← Work.note x).mapError f)

variable {V : Type} [Json.Library V]

/-- Reads the configuration of a file, or takes the usual one. -/
def loadConfig : Option Path → Work TaskError Config
  | none => return Config.default
  | some p => Work.tryAsk fun d => (Config.read d p).mapError .config

/-- Reads the trials of a folder. -/
def loadTrials (results : Path) (o : TrialOptions) (config : Config) :
    Work TaskError (List (Trial Float)) := do
  workOf .disk (loadResults (← get) results ⟨o.trailing, config.marker⟩)

/-- What is said about the groups without a summary. -/
def skippedNotes (groups : Groups Float) : List Note :=
  groups.entries.filterMap fun (k, summary) =>
    match summary with
    | .ok _ => none
    | .error e => some ⟨.warning, s!"Skipping {k.text}: {e.message}"⟩

/-- Reads and summarises the trials of a folder. -/
def summarizeFolder (results : Path) (o : TrialOptions) (config : Config) :
    Work TaskError (List (Trial Float) × Groups Float) := do
  let trials ← loadTrials results o config
  let failed := trials.countP fun t => !t.isSuccess
  Work.note (Noted.info s!"Loaded {trials.length} runs ({failed} failed) from {results.text}.")
  let groups ← Work.note (aggregateNoted trials (.ofConfig config o.grouping o.scale o.trueValues))
  Work.note ⟨(), skippedNotes groups⟩
  return (trials, groups)

/-- Writes the reports of groups. -/
def report (output : Path) (trials : List (Trial Float)) (groups : Groups Float) :
    Work TaskError Unit := do
  let _ ← (writeReports output trials groups).mapError .disk

/-- Writes a file. -/
def writeFile (output : Path) (text : String) : Work TaskError Unit :=
  Work.change fun d => (d.writeText output text).mapError .disk

/-- Runs a benchmark set and summarises the results. -/
def performRun (execute : Executor) (o : RunOptions) : Work TaskError Unit := do
  Work.note (Noted.info (s!"Running {o.benchmarks.name} benchmarks with "
    ++ s!"{small o.flags.level.name} information, {o.iterations} times."))
  let ran ← (o.plan.perform execute o.launcher o.workers).mapError .plan
  Work.note (Noted.info s!"{ran.length} runs finished.")
  let config ← loadConfig o.trials.config
  let (trials, groups) ← summarizeFolder o.output o.trials config
  report o.output trials groups

/-- The line that tells a summary. -/
def summaryLine (s : Summary Float) : String :=
  let bounds := "[" ++ Decimal.plain s.lower ++ ", " ++ Decimal.plain s.upper ++ "]"
  s.key.text ++ ": " ++ bounds ++ ", precision " ++ Decimal.plain s.precision ++ ", runtime "
    ++ s.runtime.text Decimal.plain ++ s!", {s.failures.total} of {s.samples} runs failed."

/-- Summarises results. -/
def performSummarize (results : Path) (output : Option Path) (order : SummaryOrder)
    (o : TrialOptions) : Work TaskError Unit := do
  let config ← loadConfig o.config
  let (trials, groups) ← summarizeFolder results o config
  report (output.getD results) trials groups
  Work.note ⟨(), (sortSummaries order groups.summaries).map fun s => ⟨.info, summaryLine s⟩⟩

/-- Puts the summaries of several folders beside each other. -/
def performCompare (columns : List (String × Path)) (output : Path) (latex : Bool)
    (o : TrialOptions) : Work TaskError Unit := do
  let config ← loadConfig o.config
  let columns ← columns.mapM fun (label, folder) => do
    let (_, groups) ← summarizeFolder folder o config
    return (label, groups.summaries)
  let table ← Work.note (ComparisonTable.of columns)
  writeFile output (if latex then table.latex.render else table.csv)
  Work.note (Noted.info s!"Comparison of {table.rows.length} groups written to {output.text}.")

/-- Collects the outcomes of experiments. -/
def performCollect (results output : Path) (config : Option Path) : Work TaskError Unit := do
  let config ← loadConfig config
  let document ← workOf .collect (CheckerTrials.collect (← get) results config.marker)
  writeFile output document.text
  Work.note (Noted.info s!"Collected {document.size} models into {output.text}.")

/-- The text of a table. -/
def tableText (document : Document) : TableKind → Except FamilyError String
  | .methods => .ok (methodsText document)
  | .filtered => .ok (methodsText document.nontrivial)
  | .groups => (familyTable document).map fun rows => (familyLatex rows).render
  | .pairs => (statePairs document plotFamilies).map statePairsText
where
  /-- The comparison of all kinds of experiments, and of the heuristics below it. -/
  methodsText (document : Document) : String :=
    let table := MethodTable.of document
    table.latex.render ++ comparisonText (heuristicStats document) table.total

/-- Makes a table.  The file for it is created before the table is made. -/
def performEvaluate (document : Path) (table : TableKind) (output : Option Path) :
    Work TaskError String := do
  let document ← Work.tryAsk fun d => (Document.read d document).mapError TaskError.document
  if let some p := output then writeFile p ""
  Work.note (Noted.info s!"Evaluating {table.name} table.")
  let text ← Work.ofExcept ((tableText document table).mapError .family)
  match output with
  | some p =>
    writeFile p text
    return ""
  | none => return text

/-- The names of the models of trials, in order and each of them once. -/
def modelsOf (trials : List (Trial Float)) : List String :=
  (OrderedMap.ofKeys (fun _ => ()) (trials.map Trial.model)).keys

/-- The name of the file with the series of a model. -/
def seriesFileName (model : String) : String :=
  String.ofList (Text.replace '.' '-' model.toList) ++ ".csv"

/-- Writes the series of the best trial of a model, if one succeeded. -/
def writeSeries (output : Path) (trials : List (Trial Float)) (config : Config) (model : String) :
    Work TaskError Unit := do
  match leaderboard (trials.filter fun t => t.model == model) with
  | [] => Work.note (Noted.warn s!"No successful run of {model}, no series written.")
  | best :: _ =>
    let path := output.join (seriesFileName model)
    writeFile path (seriesText best (config.trueValues.get? model))
    Work.note (Noted.info s!"Series of {model} written to {path.text}.")

/-- Writes the series of the best trial of every model. -/
def performSeries (results output : Path) (o : TrialOptions) : Work TaskError Unit := do
  let config ← loadConfig o.config
  let trials ← loadTrials results o config
  (Work.act fun d => d.createFolders output).mapError .disk
  (modelsOf trials).forM (writeSeries output trials config)

/-- Shows how work is split. -/
def performPartition (total workers : Nat) : Except TaskError String :=
  ((CheckerTrials.partition total workers).mapError .split).map fun slices =>
    String.join (slices.zipIdx.map fun (s, worker) => s!"{worker}: {s.start}..{s.stop}\n")

/-- Does a task and gives what is shown on the console. -/
def perform (execute : Executor) : Task → Work TaskError String
  | .run o => do
    performRun execute o
    return ""
  | .summarize results output order o => do
    performSummarize results output order o
    return ""
  | .compare columns output latex o => do
    performCompare columns output latex o
    return ""
  | .collect results output config => do
    performCollect results output config
    return ""
  | .evaluate document table output => performEvaluate document table output
  | .series results output o => do
    performSeries results output o
    return ""
  | .partition total workers => Work.ofExcept (performPartition total workers)

end Task

end CheckerTrials
