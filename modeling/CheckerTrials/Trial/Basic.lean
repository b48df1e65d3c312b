import CheckerTrials.Trial.Quantity
import CheckerTrials.Trial.Status

/-!
# Trials

A trial is one run of the checker on one model under one configuration.  While it runs, the checker
closes in on the value of the model from below and above, so a successful trial is three series of
equal length: the times of its samples, and the lower and the upper bound at each of them.  A failed
trial has no series.

The type does not enforce this.  Trials are also given directly, and then they hold what they are
given; `Trial.WellFormed` says what is true of a trial that was read from a file.
-/

set_option autoImplicit false

namespace CheckerTrials

/-- One completed or failed run. -/
structure Trial (α : Type) where
  /-- The name of the model. -/
  model : String
  /-- The configuration, if the command line names one. -/
  axis : Option String
  /-- When the samples were taken, in milliseconds. -/
  times : List α
  /-- The lower bound at each sample. -/
  lower : List α
  /-- The upper bound at each sample. -/
  upper : List α
  /-- How many states were explored. -/
  states : Option Nat
  /-- The probability mass that was not explored. -/
  missing : Option α
  /-- How the trial ended. -/
  status : Status
  /-- Which repetition of the experiment the trial belongs to. -/
  iteration : Nat
  deriving DecidableEq, Repr

namespace Trial

variable {α : Type}

/-- A trial that produced no bounds. -/
def failed (model : String) (axis : Option String) (failure : Failure) (iteration : Nat) :
    Trial α where
  model := model
  axis := axis
  times := []
  lower := []
  upper := []
  states := none
  missing := none
  status := failure.status
  iteration := iteration

/-- Whether a trial succeeded. -/
def isSuccess (t : Trial α) : Bool := t.status == .success

@[simp] theorem isSuccess_failed (model : String) (axis : Option String) (failure : Failure)
    (iteration : Nat) : (failed model axis failure iteration : Trial α).isSuccess = false := by
  cases failure <;> rfl

/-- The bounds at the end of a trial. -/
def finalBounds? (t : Trial α) : Option (α × α) := do
  return (← t.lower.getLast?, ← t.upper.getLast?)

/-- What is true of a trial that was read from a file: a successful one has three series of the same
length with at least one sample, and any other one holds nothing but its name. -/
structure WellFormed (t : Trial α) : Prop where
  /-- The samples of a successful trial. -/
  of_success : t.status = .success →
    t.times ≠ [] ∧ t.lower.length = t.times.length ∧ t.upper.length = t.times.length
  /-- The emptiness of a failed one. -/
  of_failure : t.status ≠ .success →
    t.times = [] ∧ t.lower = [] ∧ t.upper = [] ∧ t.states = none ∧ t.missing = none

/-- A failed trial is well formed. -/
theorem wellFormed_failed (model : String) (axis : Option String) (failure : Failure)
    (iteration : Nat) : (failed model axis failure iteration : Trial α).WellFormed where
  of_success h := absurd h failure.status_ne_success
  of_failure _ := ⟨rfl, rfl, rfl, rfl, rfl⟩

/-- The trial with every quantity in it changed by `f`. -/
def map {β : Type} (f : α → β) (t : Trial α) : Trial β where
  model := t.model
  axis := t.axis
  times := t.times.map f
  lower := t.lower.map f
  upper := t.upper.map f
  states := t.states
  missing := t.missing.map f
  status := t.status
  iteration := t.iteration

variable [Quantity α]

/-- The time between the first and the last sample, in seconds. -/
def runtimeSeconds? (t : Trial α) : Option α := do
  return ((← t.times.getLast?) - (← t.times.head?)) / Quantity.ofCount 1000

/-- The width of the interval between the final bounds. -/
def precision? (t : Trial α) : Option α := t.finalBounds?.map fun (lower, upper) => upper - lower

/-- Whether some sample has its upper bound below its lower bound. -/
def hasInvertedBounds (t : Trial α) : Bool :=
  (t.lower.zip t.upper).any fun (lower, upper) => upper < lower

/-- Whether no sample was taken before the one that precedes it. -/
def isChronological (t : Trial α) : Bool :=
  (t.times.zip t.times.tail).all fun (earlier, later) => !(later < earlier : Bool)

end Trial

end CheckerTrials
