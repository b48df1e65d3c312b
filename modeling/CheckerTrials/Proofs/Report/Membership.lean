import CheckerTrials.Proofs.Summary.Groups
import CheckerTrials.Report.Group
import Mathlib.Data.List.Basic

/-!
# Who is in a report

The trials of a group are picked twice: by their keys when they are summarised, and by `GroupKey.lists`
when the report of the group is written.  The second choice does not know the grouping.  A key without a
configuration stands for all trials of its model there, and so it does when trials are grouped by their
models; but when they are grouped by configurations as well, it is the key of those trials only that have
none.

`perm_runs_iff` says when a report lists the successful trials of its group and no others: always, unless
the group is in this situation (`Overlists`).
-/

set_option autoImplicit false

namespace CheckerTrials

variable {trials : List (Trial Float)} {grouping : Grouping} {k : GroupKey}

/-- The report of a group lists a success of another one: trials are grouped by configurations, those of
the group have none, and a success of the same model has one. -/
def Overlists (grouping : Grouping) (trials : List (Trial Float)) (k : GroupKey) : Prop :=
  grouping = .modelAndAxis ∧ k.axis = none ∧
    ∃ t ∈ trials, t.isSuccess = true ∧ t.model = k.model ∧ t.axis ≠ none

/-- The successful trials of a group. -/
def successesOf (grouping : Grouping) (trials : List (Trial Float)) (k : GroupKey) :
    List (Trial Float) :=
  (members grouping trials k).filter Trial.isSuccess

/-! ## Two ways to pick trials -/

/-- Every group lists its own trials. -/
theorem lists_of (grouping : Grouping) (t : Trial Float) : (GroupKey.of grouping t).lists t = true := by
  cases grouping <;> simp [GroupKey.of, GroupKey.lists]

/-- Grouped by models, a group lists no other trials. -/
theorem lists_iff_of_model {t u : Trial Float} :
    (GroupKey.of .model t).lists u = true ↔ GroupKey.of .model u = GroupKey.of .model t := by
  simp [GroupKey.of, GroupKey.lists]

/-- Grouped by configurations as well, it does if it has none of its own. -/
theorem lists_iff_of_axis {t : Trial Float} :
    k.lists t = true ↔
      GroupKey.of .modelAndAxis t = k ∨ k.axis = none ∧ t.model = k.model ∧ t.axis ≠ none := by
  obtain ⟨model, axis⟩ := k
  cases axis with
  | none =>
    by_cases haxis : t.axis = none
    · simp [GroupKey.of, GroupKey.lists, haxis]
    · simp [GroupKey.of, GroupKey.lists, haxis]
  | some axis => simp [GroupKey.of, GroupKey.lists]

/-- A success is listed by a group that is not its own exactly in a group that lists too much. -/
theorem overlists_iff (hk : ∃ t ∈ trials, GroupKey.of grouping t = k) :
    Overlists grouping trials k ↔
      ∃ t ∈ trials, t.isSuccess = true ∧ k.lists t = true ∧ GroupKey.of grouping t ≠ k := by
  cases grouping with
  | model =>
    obtain ⟨u, -, rfl⟩ := hk
    constructor
    · exact fun h => absurd h.1 nofun
    · rintro ⟨t, -, -, hl, hne⟩
      exact absurd (lists_iff_of_model.1 hl) hne
  | modelAndAxis =>
    constructor
    · rintro ⟨-, hkey, t, ht, hs, hm, haxis⟩
      refine ⟨t, ht, hs, lists_iff_of_axis.2 (.inr ⟨hkey, hm, haxis⟩), ?_⟩
      rintro rfl
      exact haxis hkey
    · rintro ⟨t, ht, hs, hl, hne⟩
      obtain ⟨hkey, hm, haxis⟩ := (lists_iff_of_axis.1 hl).resolve_left hne
      exact ⟨rfl, hkey, t, ht, hs, hm, haxis⟩

/-! ## The runs of a report -/

theorem perm_runs (summary : Except SummaryError (Summary Float)) :
    (reportOf trials k summary).runs.Perm ((trials.filter k.lists).filter Trial.isSuccess) :=
  perm_sortBy rankOrder _

/-- The successes of a group are among the trials that its report lists, in the same order. -/
theorem successesOf_sublist :
    (successesOf grouping trials k).Sublist ((trials.filter k.lists).filter Trial.isSuccess) := by
  refine List.Sublist.filter _ (List.monotone_filter_right trials ?_)
  intro t ht
  have hof : GroupKey.of grouping t = k := by simpa using ht
  exact hof ▸ lists_of grouping t

theorem mem_successesOf {t : Trial Float} :
    t ∈ successesOf grouping trials k ↔
      t ∈ trials ∧ GroupKey.of grouping t = k ∧ t.isSuccess = true := by
  rw [successesOf, List.mem_filter, mem_members, and_assoc]

theorem mem_runs {summary : Except SummaryError (Summary Float)} {t : Trial Float} :
    t ∈ (reportOf trials k summary).runs ↔ t ∈ trials ∧ k.lists t = true ∧ t.isSuccess = true := by
  rw [(perm_runs summary).mem_iff, List.mem_filter, List.mem_filter, and_assoc]

/-- A report stays within its group exactly if the group does not list too much. -/
theorem runs_within_iff (hk : ∃ t ∈ trials, GroupKey.of grouping t = k)
    (summary : Except SummaryError (Summary Float)) :
    (∀ t ∈ (reportOf trials k summary).runs, GroupKey.of grouping t = k) ↔
      ¬ Overlists grouping trials k := by
  rw [overlists_iff hk]
  constructor
  · rintro h ⟨t, ht, hs, hl, hne⟩
    exact hne (h t (mem_runs.2 ⟨ht, hl, hs⟩))
  · intro h t ht
    obtain ⟨ht, hl, hs⟩ := mem_runs.1 ht
    exact Decidable.byContradiction fun hne => h ⟨t, ht, hs, hl, hne⟩

/-- A report that stays within its group lists every success of the group once. -/
theorem perm_successesOf_iff (hk : ∃ t ∈ trials, GroupKey.of grouping t = k)
    (summary : Except SummaryError (Summary Float)) :
    (reportOf trials k summary).runs.Perm (successesOf grouping trials k) ↔
      ¬ Overlists grouping trials k := by
  rw [← runs_within_iff hk summary]
  constructor
  · intro h t ht
    exact (mem_successesOf.1 (h.mem_iff.1 ht)).2.1
  · intro h
    have hlisted : (trials.filter k.lists).filter Trial.isSuccess = successesOf grouping trials k := by
      rw [successesOf, members, List.filter_filter, List.filter_filter]
      refine List.filter_congr fun t ht => ?_
      cases hs : t.isSuccess with
      | false => simp
      | true =>
        rw [Bool.true_and, Bool.true_and, Bool.eq_iff_iff, decide_eq_true_iff]
        constructor
        · exact fun hl => h t (mem_runs.2 ⟨ht, hl, hs⟩)
        · rintro rfl
          exact lists_of grouping t
    exact hlisted ▸ perm_runs summary

/-- A report lists as many trials as its group has successes exactly if it stays within the group. -/
theorem length_runs_eq_iff (hk : ∃ t ∈ trials, GroupKey.of grouping t = k)
    (summary : Except SummaryError (Summary Float)) :
    (reportOf trials k summary).runs.length = (successesOf grouping trials k).length ↔
      ¬ Overlists grouping trials k := by
  rw [← perm_successesOf_iff hk summary]
  refine ⟨fun h => ?_, List.Perm.length_eq⟩
  have heq := successesOf_sublist.eq_of_length (h.symm.trans (perm_runs summary).length_eq)
  exact heq ▸ perm_runs summary

/-! ## The report and the summary of a group -/

/-- **Who is in a report.**  The report of a group lists every success of the group once and no other trial,
and as many as its summary counts, exactly if the group does not list too much. -/
theorem report_lists_group_iff {options : SummaryOptions Float}
    {summary : Except SummaryError (Summary Float)}
    (hk : (k, summary) ∈ (aggregate trials options).entries) :
    ((reportOf trials k summary).runs.Perm (successesOf options.grouping trials k) ↔
      ¬ Overlists options.grouping trials k) ∧
    ((∀ t ∈ (reportOf trials k summary).runs, GroupKey.of options.grouping t = k) ↔
      ¬ Overlists options.grouping trials k) ∧
    ∀ s, summary = .ok s → (∀ t ∈ trials, t.Sampled) →
      ((reportOf trials k summary).runs.length = s.successes ↔
        ¬ Overlists options.grouping trials k) := by
  obtain ⟨hkey, hsummary⟩ := mem_entries_aggregate.1 hk
  refine ⟨perm_successesOf_iff hkey summary, runs_within_iff hkey summary, ?_⟩
  rintro s rfl hsampled
  have hr := summarized_summarize options k (members options.grouping trials k)
  rw [← hsummary] at hr
  cases hr with
  | summary _ _ _ _ hsuccesses =>
    rw [hsuccesses, length_finishedOf fun t ht => hsampled t (mem_members.1 ht).1,
      List.countP_eq_length_filter]
    exact length_runs_eq_iff hkey (.ok s)

/-- Two successes of one model, one of them under a configuration. -/
def mixedTrials : List (Trial Float) :=
  [none, some "GREYBOX"].map fun axis =>
    { Trial.failed "toy" axis .generic 0 with
      times := [0], lower := [0], upper := [1], status := .success }

/-- Summaries by configurations, without any constants. -/
def byConfiguration : SummaryOptions Float := ⟨.modelAndAxis, none, none, 1800⟩

theorem report_lists_group_of_configured : ∃ summary,
    (⟨"toy", some "GREYBOX"⟩, summary) ∈ (aggregate mixedTrials byConfiguration).entries ∧
      (reportOf mixedTrials ⟨"toy", some "GREYBOX"⟩ summary).runs.Perm
        (successesOf .modelAndAxis mixedTrials ⟨"toy", some "GREYBOX"⟩) := by
  have hkey : ∃ t ∈ mixedTrials, GroupKey.of .modelAndAxis t = ⟨"toy", some "GREYBOX"⟩ :=
    ⟨mixedTrials[1], List.getElem_mem _, rfl⟩
  have hk : (_, _) ∈ (aggregate mixedTrials byConfiguration).entries :=
    mem_entries_aggregate.2 ⟨hkey, rfl⟩
  exact ⟨_, hk, (report_lists_group_iff hk).1.2 fun h => absurd h.2.1 nofun⟩

/-- Not every report lists the successes of its group and no others: the group of the trials without a
configuration lists the other trial as well. -/
theorem not_report_lists_group :
    ¬ ∀ (trials : List (Trial Float)) (options : SummaryOptions Float) (k : GroupKey)
      (summary : Except SummaryError (Summary Float)),
      (k, summary) ∈ (aggregate trials options).entries →
        (reportOf trials k summary).runs.Perm (successesOf options.grouping trials k) := by
  intro h
  have hk : ∃ t ∈ mixedTrials, GroupKey.of .modelAndAxis t = ⟨"toy", none⟩ :=
    ⟨mixedTrials[0], List.getElem_mem _, rfl⟩
  have hperm := h mixedTrials byConfiguration _ _ (mem_entries_aggregate.2 ⟨hk, rfl⟩)
  refine (perm_successesOf_iff hk _).1 hperm ⟨rfl, rfl, mixedTrials[1], List.getElem_mem _, rfl, rfl, ?_⟩
  exact nofun

end CheckerTrials
