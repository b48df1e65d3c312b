import CheckerTrials.Files.Disk
import CheckerTrials.Text.Split
import CheckerTrials.Text.Utf8
import CheckerTrials.Trial.Status

/-!
# What a run leaves behind

A run has a base path.  The tool writes its result there, as text or with the suffix `.json`, and its
console goes to a log beside it.  `classify` tells how a run failed that left no result: without a log
nothing is known, and with one the log tells whether memory ran out.
-/

set_option autoImplicit false

namespace CheckerTrials

/-- The suffix of the command line of a run. -/
def setupSuffix : String := ".setup"

/-- The suffix of the console log of a run. -/
def logSuffix : String := ".out"

/-- The suffix of the exit code of a run. -/
def statusSuffix : String := ".status"

/-- The suffix of the duration of a run. -/
def timeSuffix : String := ".time"

/-- The suffix of a result in JSON. -/
def jsonSuffix : String := ".json"

/-- The files by which a run is judged. -/
structure Artifact where
  /-- The result of the tool. -/
  result : Path
  /-- The log of its console. -/
  log : Path
  deriving DecidableEq, Repr

namespace Artifact

/-- The artifact of a run whose result is a text. -/
def text (base : Path) : Artifact := ⟨base, base.withSuffix logSuffix⟩

/-- The artifact of a run whose result is in JSON. -/
def json (base : Path) : Artifact := ⟨base.withSuffix jsonSuffix, base.withSuffix logSuffix⟩

end Artifact

/-- How a run failed, or nothing if it left a result.  A log that holds the marker tells that memory ran
out. -/
def classify (d : Disk) (a : Artifact) (marker : String) : Option Failure :=
  if d.isFile a.result then none
  else
    match d.readBytes a.log with
    | .error _ => some .generic
    | .ok log =>
      if Text.occurs marker.toList (Text.decodeLossy log) then some .memout else some .timeout

/-- A run that left a result did not fail. -/
theorem classify_eq_none_iff {d : Disk} {a : Artifact} {marker : String} :
    classify d a marker = none ↔ d.isFile a.result = true := by
  unfold classify
  split
  · simp_all
  · rename_i h
    simp only [h]
    split
    · simp
    · split <;> simp

end CheckerTrials
