/-!
# How a trial ends

A trial succeeds, or it fails in one of three ways.  The way it failed is all that a failed trial
tells, so `Failure` is a type of its own, and `Failure.status` embeds it into `Status`.
-/

set_option autoImplicit false

namespace CheckerTrials

/-- How a trial ended. -/
inductive Status
  /-- The tool wrote a result. -/
  | success
  /-- The tool wrote no result and did not run out of memory. -/
  | timeout
  /-- The tool ran out of memory. -/
  | memout
  /-- Anything else went wrong. -/
  | generic
  deriving DecidableEq, Repr

/-- How a trial failed. -/
inductive Failure
  /-- The tool ran out of memory. -/
  | memout
  /-- The tool wrote no result and did not run out of memory. -/
  | timeout
  /-- Anything else went wrong. -/
  | generic
  deriving DecidableEq, Repr

namespace Status

/-- All ways to end. -/
def all : List Status := [.success, .timeout, .memout, .generic]

/-- The name of a status in reports and messages. -/
def name : Status → String
  | .success => "success"
  | .timeout => "timeout"
  | .memout => "memout"
  | .generic => "generic"

end Status

namespace Failure

/-- All ways to fail. -/
def all : List Failure := [.memout, .timeout, .generic]

/-- The status of a trial that failed this way. -/
def status : Failure → Status
  | .memout => .memout
  | .timeout => .timeout
  | .generic => .generic

/-- The name of a failure, which is that of its status. -/
def name (f : Failure) : String := f.status.name

theorem status_ne_success (f : Failure) : f.status ≠ .success := by
  cases f <;> simp [status]

end Failure

/-- What the optional last section of a text result holds.  The file does not say it; whoever reads
the file has to know how the tool was run. -/
inductive Trailing
  /-- The number of explored states. -/
  | states
  /-- The probability mass that was not explored. -/
  | missing
  deriving DecidableEq, Repr

/-- Both meanings of the last section. -/
def Trailing.all : List Trailing := [.states, .missing]

end CheckerTrials
