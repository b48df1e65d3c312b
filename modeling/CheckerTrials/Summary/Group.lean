import CheckerTrials.Ordered.Map
import CheckerTrials.Trial.Basic

/-!
# Groups of trials

Trials are summarised in groups: by model, or by model and configuration.  A `GroupKey` names a group,
and keys are in the order of their models and then of their configurations, a missing one first.

* `GroupKey.of`: the group of a trial.
* `members`: the trials of a group, in the order of the list.
-/

set_option autoImplicit false

namespace CheckerTrials

/-- What trials have in common within a group. -/
inductive Grouping
  /-- The model. -/
  | model
  /-- The model and the configuration. -/
  | modelAndAxis
  deriving DecidableEq, Repr

/-- The name of a group. -/
structure GroupKey where
  /-- The model. -/
  model : String
  /-- The configuration, if the group has one. -/
  axis : Option String
  deriving DecidableEq, Repr

namespace GroupKey

/-- Compares keys by their models, and those of one model by their configurations. -/
instance : Ord GroupKey := ⟨compareLex (compareOn GroupKey.model) (compareOn GroupKey.axis)⟩

instance : Std.TransOrd GroupKey :=
  inferInstanceAs (Std.TransCmp (compareLex (compareOn GroupKey.model) (compareOn GroupKey.axis)))

theorem eq_of_compare {a b : GroupKey} (h : compare a b = .eq) : a = b := by
  have h : compareLex (compareOn GroupKey.model) (compareOn GroupKey.axis) a b = .eq := h
  rw [compareLex_eq_eq] at h
  obtain ⟨hm, ha⟩ := h
  cases a
  cases b
  simp only [compareOn, Std.LawfulEqCmp.compare_eq_iff_eq] at hm ha
  rw [hm, ha]

instance : Std.LawfulEqOrd GroupKey where
  eq_of_compare := eq_of_compare

/-- The key of a group in reports and messages. -/
def text (k : GroupKey) : String :=
  match k.axis with
  | some axis => k.model ++ " [" ++ axis ++ "]"
  | none => k.model

variable {α : Type}

/-- The group that a trial belongs to. -/
def of (grouping : Grouping) (t : Trial α) : GroupKey where
  model := t.model
  axis :=
    match grouping with
    | .model => none
    | .modelAndAxis => t.axis

end GroupKey

variable {α : Type}

/-- The trials that belong to a group. -/
def members (grouping : Grouping) (trials : List (Trial α)) (k : GroupKey) : List (Trial α) :=
  trials.filter fun t => GroupKey.of grouping t = k

/-- Every trial is a member of its own group. -/
theorem mem_members {grouping : Grouping} {trials : List (Trial α)} {t : Trial α} {k : GroupKey} :
    t ∈ members grouping trials k ↔ t ∈ trials ∧ GroupKey.of grouping t = k := by
  simp [members]

end CheckerTrials
