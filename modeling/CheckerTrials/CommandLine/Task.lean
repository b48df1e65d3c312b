import CheckerTrials.Catalogue.Benchmarks
import CheckerTrials.CommandLine.Usage
import CheckerTrials.Plan.Job
import CheckerTrials.Plan.Launcher
import CheckerTrials.Summary.Order
import CheckerTrials.Trial.Folder

/-!
# The tasks of the program

The first word of a command line names the task, and the others say how to do it.  `Task.read` reads a
command line, and what it gives is complete: every option that was left out has its usual value.
-/

set_option autoImplicit false

namespace CheckerTrials

open Usage (Form Forms Given)

/-! ## Options -/

/-- How the trials of a folder are read and summarised. -/
structure TrialOptions where
  /-- A configuration file. -/
  config : Option Path
  /-- Whether results end with the missing probability. -/
  errorProbability : Bool
  /-- Whether groups are told apart by their configuration. -/
  byAxis : Bool
  /-- Whether bounds are divided by the greatest reward. -/
  scale : Bool
  /-- Whether known values are attached. -/
  trueValues : Bool
  deriving DecidableEq, Repr

namespace TrialOptions

/-- What the last section of results holds. -/
def trailing (o : TrialOptions) : Trailing := if o.errorProbability then .missing else .states

/-- What makes a group. -/
def grouping (o : TrialOptions) : Grouping := if o.byAxis then .modelAndAxis else .model

/-- The forms of these options. -/
def forms : List Form := [
  Usage.option "config" [] Usage.path,
  Usage.switch "error-probability" ["getErrorProbability"],
  Usage.switch "by-axis" [],
  Usage.switch "scale" [],
  Usage.switch "true-values" []]

/-- The options that are given. -/
def ofGiven (g : Given) : Except UsageError TrialOptions := do
  return {
    config := ← g.value? "config" Usage.path
    errorProbability := g.has "error-probability"
    byAxis := g.has "by-axis"
    scale := g.has "scale"
    trueValues := g.has "true-values" }

end TrialOptions

/-- The tables that can be made from a document. -/
inductive TableKind
  /-- The comparison of all kinds of experiments. -/
  | methods
  /-- The same without trivial instances. -/
  | filtered
  /-- The comparison of the heuristics by family. -/
  | groups
  /-- The plot of state counts. -/
  | pairs
  deriving DecidableEq, Repr

/-- The name of a table. -/
def TableKind.name : TableKind → String
  | .methods => "methods"
  | .filtered => "filtered"
  | .groups => "groups"
  | .pairs => "pairs"

/-- How to run a benchmark set. -/
structure RunOptions where
  /-- The benchmark set. -/
  benchmarks : BenchmarkSet
  /-- The flags of the checker. -/
  flags : Flags
  /-- The folder of the results. -/
  output : Path
  /-- The number of workers. -/
  workers : Nat
  /-- How often every model is run, unless it is the usual number. -/
  repetitions : Option Nat
  /-- What starts the checker. -/
  launcher : Launcher
  /-- How the results are summarised. -/
  trials : TrialOptions
  deriving DecidableEq

/-- How often every model is run. -/
def RunOptions.iterations (o : RunOptions) : Nat := o.repetitions.getD o.benchmarks.defaultIterations

/-- The plan of a run. -/
def RunOptions.plan (o : RunOptions) : Plan where
  descriptors := o.benchmarks.descriptors
  flags := o.flags
  iterations := o.iterations
  output := o.output

/-- What the program is asked to do. -/
inductive Task
  /-- To run a benchmark set and summarise the results. -/
  | run (options : RunOptions)
  /-- To summarise results and write reports into a folder. -/
  | summarize (results : Path) (output : Option Path) (order : SummaryOrder) (trials : TrialOptions)
  /-- To put the summaries of several folders beside each other. -/
  | compare (columns : List (String × Path)) (output : Path) (latex : Bool) (trials : TrialOptions)
  /-- To collect the outcomes of experiments into a document. -/
  | collect (results output : Path) (config : Option Path)
  /-- To make a table from a document. -/
  | evaluate (document : Path) (table : TableKind) (output : Option Path)
  /-- To write the series of the best trial of every model. -/
  | series (results output : Path) (trials : TrialOptions)
  /-- To show how work is split. -/
  | partition (total workers : Nat)
  deriving DecidableEq

namespace Task

/-! ## Words for values -/

/-- A word with its capitals made small. -/
def small (s : String) : String := String.ofList (s.toList.map Char.toLower)

/-- Reads a word whatever its capitals are. -/
def anyCase {α : Type} (all : List (String × α)) : String → Except UsageError α :=
  Usage.choice small all

/-- Reads a word as it is written. -/
def exactly {α : Type} (all : List (String × α)) : String → Except UsageError α :=
  Usage.choice id all

/-- Reads an information level. -/
def level : String → Except UsageError InformationLevel :=
  anyCase (InformationLevel.all.map fun l => (l.name, l))

/-- Reads an update method. -/
def method : String → Except UsageError UpdateMethod :=
  anyCase (UpdateMethod.all.map fun m => (m.name, m))

/-- Reads a simulation of end components. -/
def endComponents : String → Except UsageError EndComponents :=
  anyCase (EndComponents.all.map fun e => (e.name, e))

/-- Reads a distribution of the error tolerance, which has a hyphen or an underscore in it. -/
def tolerance : String → Except UsageError Tolerance :=
  anyCase <| Tolerance.all.flatMap fun t =>
    [(t.name, t), (String.ofList (Text.replace '_' '-' t.name.toList), t)]

/-- Reads a benchmark set. -/
def benchmarks : String → Except UsageError BenchmarkSet :=
  anyCase (BenchmarkSet.all.map fun b => (b.name, b))

/-- Reads an order of summaries. -/
def order : String → Except UsageError SummaryOrder :=
  exactly [("precision", .precision), ("alphabetical", .alphabetical)]

/-- Reads the name of a table. -/
def table : String → Except UsageError TableKind :=
  exactly ([TableKind.methods, .filtered, .groups, .pairs].map fun t => (t.name, t))

/-- The number of workers unless something else is asked for. -/
def usualWorkers : Nat := 3

/-! ## The commands -/

/-- Forms without exclusions. -/
def formsOf (positionals options : List Form) : Forms := ⟨options, positionals, []⟩

/-- The option that names the output. -/
def outputForm (name : String) (aliases : List String) : Form :=
  { Usage.option name aliases Usage.path with short := some 'o' }

/-- Reads the command `run`. -/
def readRun (words : List String) : Except UsageError Task := do
  let forms := formsOf [] <| [
    { Usage.option "information-level" ["informationLevel"] level with required := true },
    Usage.option "update-method" ["updateMethod"] method,
    Usage.option "simulate-mec" ["simulateMec"] endComponents,
    Usage.option "delta-t-method" ["deltaTMethod"] tolerance,
    Usage.option "benchmarks" [] benchmarks,
    outputForm "output-directory" ["outputDirectory"],
    Usage.option "n-threads" ["nThreads"] Usage.count,
    Usage.option "n-experiments" ["nExperiments"] Usage.count,
    Usage.option "tool-dir" [] Usage.path,
    Usage.option "program" [] (pure : String → Except UsageError String)] ++ TrialOptions.forms
  let g ← Usage.read { forms with exclusive := [("tool-dir", "program")] } words
  let trials ← TrialOptions.ofGiven g
  let benchmarks := (← g.value? "benchmarks" benchmarks).getD .mdp
  let project := (← g.value? "tool-dir" Usage.path).getD ⟨".."⟩
  return .run {
    benchmarks, trials
    flags := {
      level := ← g.value "information-level" level
      method := ← g.value? "update-method" method
      errorProbability := trials.errorProbability
      endComponents := ← g.value? "simulate-mec" endComponents
      tolerance := ← g.value? "delta-t-method" tolerance
      ctmdp := benchmarks == .ctmdp }
    output := (← g.value? "output-directory" Usage.path).getD ⟨"results"⟩
    workers := (← g.value? "n-threads" Usage.count).getD usualWorkers
    repetitions := ← g.value? "n-experiments" Usage.count
    launcher := (g.lookup "program").elim (.gradle project.text) .direct }

/-- Reads the command `summarize`. -/
def readSummarize (words : List String) : Except UsageError Task := do
  let forms := formsOf [Usage.positional "results" Usage.path] <|
    [outputForm "output" [], Usage.option "sort" [] order] ++ TrialOptions.forms
  let g ← Usage.read forms words
  return .summarize (← g.value "results" Usage.path) (← g.value? "output" Usage.path)
    ((← g.value? "sort" order).getD .precision) (← TrialOptions.ofGiven g)

/-- Reads the command `compare`. -/
def readCompare (words : List String) : Except UsageError Task := do
  let columns : Form :=
    { Usage.option "column" [] Usage.column with arity := .repeated, required := true }
  let forms := formsOf [] <|
    [columns, outputForm "output" [], Usage.switch "latex" []] ++ TrialOptions.forms
  let g ← Usage.read forms words
  return .compare (← g.values "column" Usage.column)
    ((← g.value? "output" Usage.path).getD ⟨"experimentResults.csv"⟩) (g.has "latex")
    (← TrialOptions.ofGiven g)

/-- Reads the command `collect`. -/
def readCollect (words : List String) : Except UsageError Task := do
  let forms := formsOf [Usage.positional "results" Usage.path]
    [outputForm "output" [], Usage.option "config" [] Usage.path]
  let g ← Usage.read forms words
  return .collect (← g.value "results" Usage.path)
    ((← g.value? "output" Usage.path).getD ⟨"results.json"⟩) (← g.value? "config" Usage.path)

/-- Reads the command `evaluate`. -/
def readEvaluate (words : List String) : Except UsageError Task := do
  let forms := formsOf [Usage.positional "document" Usage.path]
    [Usage.option "table" [] table, outputForm "output" []]
  let g ← Usage.read forms words
  return .evaluate (← g.value "document" Usage.path) ((← g.value? "table" table).getD .methods)
    (← g.value? "output" Usage.path)

/-- Reads the command `series`. -/
def readSeries (words : List String) : Except UsageError Task := do
  let forms := formsOf [Usage.positional "results" Usage.path] <|
    outputForm "output" [] :: TrialOptions.forms
  let g ← Usage.read forms words
  return .series (← g.value "results" Usage.path)
    ((← g.value? "output" Usage.path).getD ⟨"series"⟩) (← TrialOptions.ofGiven g)

/-- Reads the command `partition`. -/
def readPartition (words : List String) : Except UsageError Task := do
  let forms := formsOf [Usage.positional "total" Usage.count]
    [Usage.option "workers" ["nThreads"] Usage.count]
  let g ← Usage.read forms words
  return .partition (← g.value "total" Usage.count)
    ((← g.value? "workers" Usage.count).getD usualWorkers)

/-- The commands by their names. -/
def commands : List (String × (List String → Except UsageError Task)) := [
  ("run", readRun), ("summarize", readSummarize), ("compare", readCompare), ("collect", readCollect),
  ("evaluate", readEvaluate), ("series", readSeries), ("partition", readPartition)]

/-- What a word in front of the command means, which begins with a dash. -/
def frontOption (word : String) : UsageError :=
  match word.toList with
  | '-' :: '-' :: long =>
    if long = "help".toList then .help
    else if long = "version".toList then .version
    else if long.takeWhile (· != '=') = "help".toList
        ∨ long.takeWhile (· != '=') = "version".toList then .unneededValue
    else .unknownArgument
  | _ :: 'h' :: _ => .help
  | _ :: 'V' :: _ => .version
  | _ => .unknownArgument

/-- Whether a word is the name of a command.  One of them is the command that asks for help. -/
def isCommand (word : String) : Bool := word == "help" || commands.any fun c => c.1 == word

/-- Reads a command line.  Help is about the whole program or about one command. -/
def read : List String → Except UsageError Task
  | [] => .error .noCommand
  | "--" :: [] => .error .noCommand
  | "--" :: word :: _ =>
    if isCommand word then .error .unknownArgument else .error .unknownCommand
  | ["help"] => .error .help
  | ["help", word] => if isCommand word then .error .help else .error .unknownCommand
  | "help" :: _ => .error .unknownCommand
  | word :: words =>
    match commands.lookup word with
    | some reader => reader words
    | none =>
      if word.toList.head? = some '-' ∧ word ≠ "-" then .error (frontOption word)
      else .error .unknownCommand

end Task

end CheckerTrials
