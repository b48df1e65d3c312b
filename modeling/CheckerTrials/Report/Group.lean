import CheckerTrials.Decimal.Written
import CheckerTrials.Files.Work
import CheckerTrials.Summary.Order

/-!
# Reports of groups

The report of a group lists its successful trials, the most precise first, and then the summary of the
group, or why it has none.  Every group has a report in a file of its own.

* `reportOf` collects what a report says and `Report.text` writes it.
* `writeReports` writes the reports of all groups into a folder.
-/

set_option autoImplicit false

namespace CheckerTrials

/-- What a report says. -/
structure Report where
  /-- The successful trials, the most precise first. -/
  runs : List (Trial Float)
  /-- The summary of the group. -/
  summary : Except SummaryError (Summary Float)

/-- Whether a trial is listed in the report of a group: its model is that of the group, and so is its
configuration if the group has one. -/
def GroupKey.lists (k : GroupKey) (t : Trial Float) : Bool :=
  t.model == k.model && (k.axis.isNone || t.axis == k.axis)

/-- The report of a group. -/
def reportOf (trials : List (Trial Float)) (k : GroupKey)
    (summary : Except SummaryError (Summary Float)) : Report where
  runs := leaderboard (trials.filter k.lists)
  summary := summary

/-! ## The text of a report -/

/-- A line of a report. -/
def reportLine (label value : String) : String := label ++ ": " ++ value ++ "\n"

/-- A line of a report for a value that may be missing. -/
def optionalLine {α : Type} (label : String) (text : α → String) : Option α → String
  | some a => reportLine label (text a)
  | none => ""

/-- The paragraph of a trial. -/
def runText (t : Trial Float) : String :=
  let bounds := t.finalBounds?.getD (0, 0)
  reportLine "Execution time" (Decimal.plain (t.runtimeSeconds?.getD 0))
    ++ reportLine "Lower bound" (Decimal.plain bounds.1)
    ++ reportLine "Upper bound" (Decimal.plain bounds.2)
    ++ reportLine "Iteration number" t.iteration.repr
    ++ optionalLine "Num states explored" Nat.repr t.states
    ++ optionalLine "Error probability" Decimal.plain t.missing
    ++ "\n\n\n"

/-- The paragraph of a summary. -/
def summaryText (s : Summary Float) : String :=
  reportLine "Average Lower Bound" (Decimal.plain s.lower)
    ++ reportLine "Average Upper Bound" (Decimal.plain s.upper)
    ++ reportLine "Average Run time" (s.runtime.text Decimal.plain)
    ++ reportLine "Precision" (Decimal.plain s.precision)
    ++ optionalLine "Average number of states explored" Decimal.plain s.states
    ++ optionalLine "Average Error Probability" Decimal.plain s.missing
    ++ optionalLine "True value" Decimal.plain s.knownValue
    ++ (if 0 < s.failures.total then
        reportLine "Failed runs" s!"{s.failures.total} of {s.samples} ({s.failures.text})"
      else "")

/-- The text of a report. -/
def Report.text (r : Report) : String :=
  String.join (r.runs.map runText) ++
    match r.summary with
    | .ok s => summaryText s
    | .error e => e.message ++ "\n"

/-! ## Report files -/

/-- The name of the file with the report of a group. -/
def reportFileName (k : GroupKey) : String :=
  match k.axis with
  | some axis =>
    k.model ++ "_" ++ String.ofList (Text.replace '/' '-' axis.toList) ++ ".txt"
  | none => k.model ++ ".txt"

/-- Writes the report of a group into a folder and gives the path of its file. -/
def writeReport (folder : Path) (trials : List (Trial Float)) (k : GroupKey)
    (summary : Except SummaryError (Summary Float)) : Work Cause Path := do
  let path := folder.join (reportFileName k)
  Work.change fun d => d.writeText path (reportOf trials k summary).text
  return path

/-- Writes the reports of all groups into a folder, which is created if need be, and gives the paths of
their files. -/
def writeReports (folder : Path) (trials : List (Trial Float)) (groups : Groups Float) :
    Work Cause (List Path) := do
  Work.act fun d => d.createFolders folder
  let paths ← groups.entries.mapM fun (k, summary) => writeReport folder trials k summary
  Work.note (Noted.info s!"Wrote {paths.length} model reports to {folder.text}.")
  return paths

end CheckerTrials
