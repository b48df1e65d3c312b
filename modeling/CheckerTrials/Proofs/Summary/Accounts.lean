import CheckerTrials.Proofs.Summary.Groups
import CheckerTrials.Proofs.Trial.WellFormed
import Mathlib.Data.List.Basic

/-!
# Every trial is accounted for

A group either has a summary, which says how many trials it covers and how many of them failed in which
way, or an error that says the same, unless a constant of its model is missing.  For well-formed trials
these numbers are right and complete:

* `GroupAccount` is what the outcome of one group says about its trials, and
  `Summarized.groupAccount` shows it for whatever `summarize` can give.
* `Accounts` is the same for all groups together: they split the trials up, and the numbers that they
  tell add up to the number of trials.
* `accounts_of_loadResults` carries this over to whatever is read from a disk.
-/

set_option autoImplicit false

namespace CheckerTrials

variable {α : Type}

/-- The number of trials that the outcome of a group tells, if it tells one. -/
def samples? : Except SummaryError (Summary α) → Option Nat
  | .ok s => some s.samples
  | .error (.noSuccess _ samples _) => some samples
  | .error (.missingScale _) => none
  | .error (.missingValue _) => none

variable [Quantity α]

/-- What the outcome `r` of a group says about the trials of the group. -/
structure GroupAccount (options : SummaryOptions α) (k : GroupKey) (group : List (Trial α))
    (r : Except SummaryError (Summary α)) : Prop where
  /-- There is no group without a trial. -/
  ne_nil : group ≠ []
  /-- A summary covers the group, it counts every trial once, and there is a success. -/
  of_summary : ∀ s, r = .ok s →
    s.samples = group.length ∧ s.successes = group.countP Trial.isSuccess ∧
      s.samples = s.successes + s.failures.timeouts + s.failures.memouts + s.failures.generic ∧
      1 ≤ s.successes
  /-- A group without a success is the group in question, and each of its trials failed. -/
  of_noSuccess : ∀ l samples failures, r = .error (.noSuccess l samples failures) →
    l = k ∧ samples = group.length ∧ failures.total = samples
  /-- If the constants are registered, only a group without a success has no summary. -/
  noSuccess_iff : options.Registers k.model →
    ((∃ l samples failures, r = .error (.noSuccess l samples failures)) ↔
      ∀ t ∈ group, t.isSuccess = false)

/-- What the outcomes of all groups say about the trials. -/
structure Accounts (trials : List (Trial α)) (options : SummaryOptions α) : Prop where
  /-- No group comes twice. -/
  nodup : (aggregate trials options).keys.Nodup
  /-- The groups split the trials up. -/
  perm : ((aggregate trials options).keys.flatMap (members options.grouping trials)).Perm trials
  /-- Every outcome is right about its group. -/
  group : ∀ k r, (k, r) ∈ (aggregate trials options).entries →
    GroupAccount options k (members options.grouping trials k) r
  /-- If no constant is missing, the numbers of trials add up. -/
  sum : (∀ k r, (k, r) ∈ (aggregate trials options).entries → ∀ model,
      r ≠ .error (.missingScale model) ∧ r ≠ .error (.missingValue model)) →
    ((aggregate trials options).entries.filterMap fun e => samples? e.2).sum = trials.length

/-! ## One group -/

/-- The end of a trial is what its success depends on, for all trials of a list at once. -/
theorem finishedOf_eq_nil_iff {group : List (Trial α)} (h : ∀ t ∈ group, t.WellFormed) :
    finishedOf group = [] ↔ ∀ t ∈ group, t.isSuccess = false := by
  rw [← List.length_eq_zero_iff, length_finishedOf fun t ht => (h t ht).sampled, List.countP_eq_zero]
  simp

/-- **The account of a group.**  What can become of a group of well-formed trials is right about them. -/
theorem Summarized.groupAccount {options : SummaryOptions α} {k : GroupKey} {group : List (Trial α)}
    {r : Except SummaryError (Summary α)} (hr : Summarized options k group r) (hne : group ≠ [])
    (h : ∀ t ∈ group, t.WellFormed) : GroupAccount options k group r := by
  have htotal := FailureCounts.total_of group
  have hcount := length_finishedOf fun t ht => (h t ht).sampled
  refine ⟨hne, ?_, ?_, ?_⟩
  · rintro s rfl
    cases hr with
    | summary _ hfinished hsamples hfailures hsuccesses =>
      have hpos := List.length_pos_iff.2 hfinished
      have hsplit : s.failures.total = s.failures.timeouts + s.failures.memouts + s.failures.generic :=
        rfl
      rw [← hfailures] at htotal
      exact ⟨hsamples, hsuccesses.trans hcount, by omega, by omega⟩
  · rintro l samples failures rfl
    cases hr with
    | noSuccess hfinished =>
      rw [hfinished, List.length_nil] at hcount
      exact ⟨rfl, rfl, by omega⟩
  · intro hregisters
    rw [← finishedOf_eq_nil_iff h]
    cases hr with
    | missingScale hnot => exact absurd hregisters hnot
    | missingValue hnot => exact absurd hregisters hnot
    | noSuccess hfinished => exact ⟨fun _ => hfinished, fun _ => ⟨_, _, _, rfl⟩⟩
    | summary s hfinished => exact ⟨nofun, fun hnil => absurd hnil hfinished⟩

/-- An outcome that names no missing constant tells the size of its group. -/
theorem Summarized.samples?_eq {options : SummaryOptions α} {k : GroupKey} {group : List (Trial α)}
    {r : Except SummaryError (Summary α)} (hr : Summarized options k group r)
    (h : ∀ model, r ≠ .error (.missingScale model) ∧ r ≠ .error (.missingValue model)) :
    samples? r = some group.length := by
  cases hr with
  | missingScale => exact absurd rfl (h k.model).1
  | missingValue => exact absurd rfl (h k.model).2
  | noSuccess => rfl
  | summary s _ hsamples => exact congrArg some hsamples

/-! ## All groups -/

/-- **The account of all groups** of well-formed trials. -/
theorem accounts_of_wellFormed {trials : List (Trial α)} (h : ∀ t ∈ trials, t.WellFormed)
    (options : SummaryOptions α) : Accounts trials options := by
  have hnodup := OrderedMap.nodup_keys (aggregate trials options)
  have hall : ∀ t ∈ trials, GroupKey.of options.grouping t ∈ (aggregate trials options).keys :=
    fun t ht => mem_keys_aggregate.2 ⟨t, ht, rfl⟩
  refine ⟨hnodup, perm_flatMap_members hnodup hall, ?_, ?_⟩
  · intro k r hr
    obtain ⟨⟨t, ht, hk⟩, rfl⟩ := mem_entries_aggregate.1 hr
    refine (summarized_summarize options k _).groupAccount ?_ fun u hu => h u (mem_members.1 hu).1
    exact List.ne_nil_of_mem (mem_members.2 ⟨ht, hk⟩)
  · intro hregistered
    have hsamples : ∀ e ∈ (aggregate trials options).entries,
        samples? e.2 = some (members options.grouping trials e.1).length := by
      intro e he
      have hr := summarized_summarize options e.1 (members options.grouping trials e.1)
      rw [← (mem_entries_aggregate.1 he).2] at hr
      exact hr.samples?_eq (hregistered e.1 e.2 he)
    rw [List.filterMap_congr hsamples, List.filterMap_eq_map', ← sum_length_members hnodup hall,
      OrderedMap.keys, List.map_map]
    rfl

/-- **From the disk to summaries nothing is lost or counted twice.**  Whatever a disk holds, the trials that
are read from it are well formed, and their groups account for every one of them. -/
theorem accounts_of_loadResults {d : Disk} {root : Path} {load : LoadOptions}
    {trials : List (Trial Float)} (h : (loadResults d root load).value = .ok trials) :
    (∀ t ∈ trials, t.WellFormed) ∧ ∀ options, Accounts trials options :=
  have hwell : ∀ t ∈ trials, t.WellFormed := fun _ ht => wellFormed_of_loadResults h ht
  ⟨hwell, accounts_of_wellFormed hwell⟩

/-- A folder of results with a run that left a result and one of which only the command line is left. -/
def sampleResults : Disk where
  home := []
  entries := [
    (["results"], .folder),
    (["results", "iteration1"], .folder),
    (["results", "iteration1", "0"],
      .file "run -m toy.prism\n1 2\n0 0.5\n1 1\n3\n".toUTF8 false),
    (["results", "iteration1", "1.setup"], .file "run -m toy.prism".toUTF8 false)]

/-- The trials in it, of which the second one failed. -/
def sampleTrials : List (Trial Float) := [
  { Trial.failed "toy" none .generic 1 with
    times := [1, 2], lower := [0, 0.5], upper := [1, 1], states := some 3, status := .success },
  .failed "toy" none .generic 1]

theorem accounts_sampleTrials :
    (loadResults sampleResults ⟨"results"⟩ ⟨.states, "oom"⟩).value = .ok sampleTrials ∧
      (∀ t ∈ sampleTrials, t.WellFormed) ∧ ∀ options, Accounts sampleTrials options := by
  have hload : (loadResults sampleResults ⟨"results"⟩ ⟨.states, "oom"⟩).value = .ok sampleTrials := by
    decide +kernel
  exact ⟨hload, accounts_of_loadResults hload⟩

end CheckerTrials
