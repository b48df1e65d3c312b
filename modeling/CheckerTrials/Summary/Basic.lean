import CheckerTrials.Decimal.Written
import CheckerTrials.Note
import CheckerTrials.Summary.Group

/-!
# Summaries

The trials of a group are summarised by the means of their final bounds, of their runtimes and of what
else they report.  Failed trials are counted but never averaged.

* `summarize` summarises one group.  It asks for the constants of the model before it looks at any
  trial, and a group without a successful trial has no summary.
* `aggregate` summarises every group of a list of trials.  What becomes of a group depends on its own
  members alone.

With a scale, the bounds of every trial are divided by the greatest reward of the model before they are
averaged, and so is the known value.
-/

set_option autoImplicit false

namespace CheckerTrials

/-! ## Failed trials of a group -/

/-- The failed trials of a group by the way they failed. -/
structure FailureCounts where
  /-- Trials that ran out of time. -/
  timeouts : Nat
  /-- Trials that ran out of memory. -/
  memouts : Nat
  /-- Trials that failed otherwise. -/
  generic : Nat
  deriving DecidableEq, Repr

namespace FailureCounts

/-- All failed trials. -/
def total (f : FailureCounts) : Nat := f.timeouts + f.memouts + f.generic

/-- The counts in words. -/
def text (f : FailureCounts) : String :=
  s!"{f.timeouts} timeouts, {f.memouts} memouts, {f.generic} generic errors"

/-- Counts the failed trials of a list. -/
def of {α : Type} (trials : List (Trial α)) : FailureCounts where
  timeouts := trials.countP fun t => t.status == .timeout
  memouts := trials.countP fun t => t.status == .memout
  generic := trials.countP fun t => t.status == .generic

/-- Every trial of a list succeeded or is counted as failed. -/
theorem total_of {α : Type} (trials : List (Trial α)) :
    (of trials).total + trials.countP Trial.isSuccess = trials.length := by
  induction trials with
  | nil => rfl
  | cons t rest ih =>
    simp only [total, of] at ih ⊢
    cases h : t.status <;> simp [h, Trial.isSuccess] at ih ⊢ <;> omega

end FailureCounts

/-! ## The runtime of a group -/

/-- The text in the place of a runtime that reached the ceiling. -/
def timedOutText : String := "timed out"

/-- The mean runtime of a group as it is reported. -/
inductive ReportedRuntime (α : Type)
  /-- Seconds below the ceiling. -/
  | seconds (mean : α)
  /-- The ceiling was reached. -/
  | timedOut
  deriving DecidableEq, Repr

namespace ReportedRuntime

variable {α : Type}

/-- A mean runtime counts as timed out from the ceiling on. -/
def of [Quantity α] (mean ceiling : α) : ReportedRuntime α :=
  if ceiling ≤ mean then .timedOut else .seconds mean

/-- The seconds, unless the ceiling was reached. -/
def seconds? : ReportedRuntime α → Option α
  | .seconds mean => some mean
  | .timedOut => none

/-- The runtime as a report shows it. -/
def text (write : α → String) : ReportedRuntime α → String
  | .seconds mean => write mean
  | .timedOut => timedOutText

end ReportedRuntime

/-! ## Options -/

/-- The runtime from which on a group counts as timed out, in seconds. -/
def defaultCeilingSeconds : Nat := 1800

/-- How trials are summarised. -/
structure SummaryOptions (α : Type) where
  /-- What makes a group. -/
  grouping : Grouping
  /-- The greatest rewards of models, to divide bounds and known values by. -/
  scaling : Option (NameMap α)
  /-- The known values of models, to attach to their summaries. -/
  knownValues : Option (NameMap α)
  /-- The runtime from which on a group counts as timed out, in seconds. -/
  ceiling : α

/-! ## Summaries -/

/-- What the successful trials of a group amount to. -/
structure Summary (α : Type) where
  /-- The group. -/
  key : GroupKey
  /-- The number of all trials. -/
  samples : Nat
  /-- The number of trials with series. -/
  successes : Nat
  /-- The failed trials. -/
  failures : FailureCounts
  /-- The mean of the final lower bounds. -/
  lower : α
  /-- The mean of the final upper bounds. -/
  upper : α
  /-- The mean runtime in seconds. -/
  meanRuntime : α
  /-- The mean number of explored states, over the trials that report it. -/
  states : Option α
  /-- The mean of the missing probabilities, over the trials that report one. -/
  missing : Option α
  /-- The known value of the model. -/
  knownValue : Option α
  /-- The mean runtime as it is reported. -/
  runtime : ReportedRuntime α
  /-- How many trials end with the upper bound below the lower one. -/
  inverted : Nat
  deriving DecidableEq, Repr

/-- Why a group has no summary. -/
inductive SummaryError
  /-- No trial succeeded. -/
  | noSuccess (key : GroupKey) (samples : Nat) (failures : FailureCounts)
  /-- Bounds are to be scaled, but the model has no greatest reward. -/
  | missingScale (model : String)
  /-- The known value is to be attached, but the model has none. -/
  | missingValue (model : String)
  deriving DecidableEq, Repr

/-- What is said about a group without a summary. -/
def SummaryError.message : SummaryError → String
  | .noSuccess key samples failures =>
    "No successful runs for " ++ key.text ++ s!" ({failures.text} in {samples} samples)."
  | .missingScale model => "No normalization constant registered for `" ++ model ++ "`."
  | .missingValue model => "No true value registered for `" ++ model ++ "`."

variable {α : Type} [Quantity α]

namespace Summary

/-- The width of the interval between the mean bounds. -/
def precision (s : Summary α) : α := s.upper - s.lower

/-- The share of failed trials. -/
def failureRate (s : Summary α) : α := Quantity.ofCount s.failures.total / Quantity.ofCount s.samples

end Summary

/-- A successful trial with its end. -/
structure Finished (α : Type) where
  /-- The trial. -/
  trial : Trial α
  /-- Its last lower bound. -/
  lower : α
  /-- Its last upper bound. -/
  upper : α
  /-- Its runtime in seconds. -/
  seconds : α

/-- The end of a trial, if it succeeded and has series. -/
def Finished.of? (t : Trial α) : Option (Finished α) :=
  if t.isSuccess then do
    let (lower, upper) ← t.finalBounds?
    let seconds ← t.runtimeSeconds?
    some ⟨t, lower, upper, seconds⟩
  else none

/-- The divisor of the bounds of a model. -/
def SummaryOptions.scaleOf (options : SummaryOptions α) (model : String) : Except SummaryError α :=
  match options.scaling with
  | none => .ok (Quantity.ofCount 1)
  | some rewards =>
    match rewards.get? model with
    | some reward => .ok reward
    | none => .error (.missingScale model)

/-- The known value of a model divided by `scale`, if known values are asked for. -/
def SummaryOptions.knownValueOf (options : SummaryOptions α) (model : String) (scale : α) :
    Except SummaryError (Option α) :=
  match options.knownValues with
  | none => .ok none
  | some values =>
    match values.get? model with
    | some value => .ok (some (value / scale))
    | none => .error (.missingValue model)

/-- Summarises finished trials of a group, of which there is at least one. -/
def Summary.ofFinished (key : GroupKey) (samples : Nat) (failures : FailureCounts) (scale : α)
    (knownValue : Option α) (ceiling : α) (finished : List (Finished α)) : Summary α :=
  let meanRuntime := Quantity.mean (finished.map Finished.seconds)
  { key, samples, failures, knownValue, meanRuntime
    successes := finished.length
    lower := Quantity.mean (finished.map fun f => f.lower / scale)
    upper := Quantity.mean (finished.map fun f => f.upper / scale)
    states := Quantity.meanFromZero?
      (finished.filterMap fun f => f.trial.states.map Quantity.ofCount)
    missing := Quantity.meanFromZero? (finished.filterMap fun f => f.trial.missing)
    runtime := .of meanRuntime ceiling
    inverted := finished.countP fun f => f.upper < f.lower }

/-- Summarises the trials of one group. -/
def summarize (key : GroupKey) (trials : List (Trial α)) (options : SummaryOptions α) :
    Except SummaryError (Summary α) := do
  let scale ← options.scaleOf key.model
  let knownValue ← options.knownValueOf key.model scale
  let failures := FailureCounts.of trials
  let finished := trials.filterMap Finished.of?
  if finished.isEmpty then .error (.noSuccess key trials.length failures)
  else .ok (.ofFinished key trials.length failures scale knownValue options.ceiling finished)

/-! ## All groups -/

/-- Summaries by group, or why a group has none. -/
abbrev Groups (α : Type) := OrderedMap GroupKey (Except SummaryError (Summary α))

/-- Summarises every group of a list of trials. -/
def aggregate (trials : List (Trial α)) (options : SummaryOptions α) : Groups α :=
  .ofKeys (fun k => summarize k (members options.grouping trials k) options)
    (trials.map (GroupKey.of options.grouping))

/-- The summaries of the groups that have one, in the order of the groups. -/
def Groups.summaries (groups : Groups α) : List (Summary α) :=
  groups.values.filterMap fun
    | .ok summary => some summary
    | .error _ => none

/-- What is said about a summary whose trials cross their bounds. -/
def Summary.invertedNote? (s : Summary α) : Option Note :=
  if s.inverted = 0 then none
  else some ⟨.warning,
    s!"{s.inverted} runs of {s.key.text} end with the upper bound below the lower bound."⟩

/-- The groups of a list of trials, and a note for each that crosses its bounds. -/
def aggregateNoted (trials : List (Trial α)) (options : SummaryOptions α) : Noted (Groups α) :=
  let groups := aggregate trials options
  ⟨groups, groups.summaries.filterMap Summary.invertedNote?⟩

end CheckerTrials
