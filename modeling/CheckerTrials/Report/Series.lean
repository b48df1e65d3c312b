import CheckerTrials.Decimal.Written
import CheckerTrials.Trial.Basic

/-!
# The series of a trial

How a trial converges is written as a CSV file with one line per sample: the minutes since its earliest
sample, both bounds, and the known value of the model where there is one.
-/

set_option autoImplicit false

namespace CheckerTrials

variable {α : Type} [Quantity α]

/-- A sample of a trial. -/
structure Sample (α : Type) where
  /-- The minutes since the earliest sample. -/
  minutes : α
  /-- The lower bound. -/
  lower : α
  /-- The upper bound. -/
  upper : α
  deriving DecidableEq, Repr

/-- The samples of a trial, in order. -/
def Trial.samples (t : Trial α) : List (Sample α) :=
  match Quantity.least? t.times with
  | none => []
  | some start =>
    (t.times.zip (t.lower.zip t.upper)).map fun (time, lower, upper) =>
      ⟨(time - start) / Quantity.ofCount 60000, lower, upper⟩

/-- The first line of a series. -/
def seriesHeader : String := "minutes,lower,upper,true_value\n"

/-- The line of a sample. -/
def Sample.line (knownValue : Option Float) (s : Sample Float) : String :=
  Decimal.plain s.minutes ++ "," ++ Decimal.plain s.lower ++ "," ++ Decimal.plain s.upper ++ ","
    ++ knownValue.elim "" Decimal.plain ++ "\n"

/-- The series of a trial as a CSV file. -/
def seriesText (t : Trial Float) (knownValue : Option Float) : String :=
  seriesHeader ++ String.join (t.samples.map (Sample.line knownValue))

end CheckerTrials
