import CheckerTrials.Proofs.Decimal.Addition
import CheckerTrials.Proofs.Summary.Groups

/-!
# Trials in another order

What a list of trials is summarised to should not depend on the order of the list.  The groups do not,
neither do the errors, and nor does anything in a summary that is counted or looked up.  The means do: they
are sums of doubles, from the first trial to the last.

* `Averaged` holds the terms of all means of a summary, and `summarize_of_perm` says that another order of
  the trials is another order of these terms and changes nothing else.
* `aggregate_of_perm` is the same for all groups: `Reordered` says exactly what becomes of them, and groups
  with at most two finished trials stay as they are.
* `not_aggregate_of_perm` are three trials whose order counts.
* `aggregate_eq_of_perm` is the law that holds for exact numbers.
-/

set_option autoImplicit false

namespace CheckerTrials

variable {α : Type}

/-! ## What is averaged -/

/-- The terms of the means of a summary, in the order of the trials. -/
structure Averaged (α : Type) where
  /-- The final lower bounds. -/
  lower : List α
  /-- The final upper bounds. -/
  upper : List α
  /-- The runtimes in seconds. -/
  seconds : List α
  /-- The numbers of explored states, of the trials that report one. -/
  states : List α
  /-- The missing probabilities, of the trials that report one. -/
  missing : List α

namespace Averaged

/-- The same terms in another order. -/
structure Rearranges (a b : Averaged α) : Prop where
  /-- The lower bounds. -/
  lower : a.lower.Perm b.lower
  /-- The upper bounds. -/
  upper : a.upper.Perm b.upper
  /-- The runtimes. -/
  seconds : a.seconds.Perm b.seconds
  /-- The numbers of states. -/
  states : a.states.Perm b.states
  /-- The missing probabilities. -/
  missing : a.missing.Perm b.missing

variable [Quantity α]

/-- What finished trials contribute to the means, with bounds that are divided by `scale`. -/
def of (scale : α) (finished : List (Finished α)) : Averaged α where
  lower := finished.map fun f => f.lower / scale
  upper := finished.map fun f => f.upper / scale
  seconds := finished.map Finished.seconds
  states := finished.filterMap fun f => f.trial.states.map Quantity.ofCount
  missing := finished.filterMap fun f => f.trial.missing

/-- Terms with the same means. -/
structure SameMeans (a b : Averaged α) : Prop where
  /-- The mean lower bound. -/
  lower : Quantity.mean a.lower = Quantity.mean b.lower
  /-- The mean upper bound. -/
  upper : Quantity.mean a.upper = Quantity.mean b.upper
  /-- The mean runtime. -/
  seconds : Quantity.mean a.seconds = Quantity.mean b.seconds
  /-- The mean number of states, if there is one. -/
  states : Quantity.meanFromZero? a.states = Quantity.meanFromZero? b.states
  /-- The mean of the missing probabilities, if there is one. -/
  missing : Quantity.meanFromZero? a.missing = Quantity.meanFromZero? b.missing

theorem rearranges_of_perm {finished finished' : List (Finished α)} (h : finished'.Perm finished) (scale : α) :
    (of scale finished').Rearranges (of scale finished) where
  lower := h.map _
  upper := h.map _
  seconds := h.map _
  states := h.filterMap _
  missing := h.filterMap _

/-- If no mean tells a list from its rearrangements, then no mean of a summary does. -/
theorem sameMeans_of_perm {finished finished' : List (Finished α)} (h : finished'.Perm finished) (scale : α)
    (hmean : ∀ xs ys : List α, xs.Perm ys → ys.length ≤ finished.length →
      Quantity.mean xs = Quantity.mean ys ∧ Quantity.meanFromZero? xs = Quantity.meanFromZero? ys) :
    (of scale finished').SameMeans (of scale finished) := by
  have hperm := rearranges_of_perm h scale
  refine ⟨(hmean _ _ hperm.lower ?_).1, (hmean _ _ hperm.upper ?_).1, (hmean _ _ hperm.seconds ?_).1,
    (hmean _ _ hperm.states ?_).2, (hmean _ _ hperm.missing ?_).2⟩
  · simp [of]
  · simp [of]
  · simp [of]
  · exact List.length_filterMap_le _ _
  · exact List.length_filterMap_le _ _

end Averaged

variable [Quantity α]

namespace Summary

/-- The summary with the means of other terms. -/
def averaging (s : Summary α) (a : Averaged α) (ceiling : α) : Summary α :=
  { s with
    lower := Quantity.mean a.lower
    upper := Quantity.mean a.upper
    meanRuntime := Quantity.mean a.seconds
    states := Quantity.meanFromZero? a.states
    missing := Quantity.meanFromZero? a.missing
    runtime := .of (Quantity.mean a.seconds) ceiling }

/-- Two summaries that differ in their terms only are the same if the terms have the same means. -/
theorem averaging_eq_iff {s : Summary α} {a b : Averaged α} {ceiling : α} :
    s.averaging a ceiling = s.averaging b ceiling ↔ a.SameMeans b := by
  constructor
  · intro h
    injection h with _ _ _ _ hlower hupper hseconds hstates hmissing
    exact ⟨hlower, hupper, hseconds, hstates, hmissing⟩
  · intro ⟨hlower, hupper, hseconds, hstates, hmissing⟩
    rw [averaging, averaging, hlower, hupper, hseconds, hstates, hmissing]

/-- Finished trials in another order have the summary with the means of the terms in that order. -/
theorem ofFinished_of_perm {finished finished' : List (Finished α)} (h : finished'.Perm finished)
    (key : GroupKey) (samples : Nat) (failures : FailureCounts) (scale : α) (value : Option α) (ceiling : α) :
    ofFinished key samples failures scale value ceiling finished' =
      (ofFinished key samples failures scale value ceiling finished).averaging (.of scale finished') ceiling := by
  rw [ofFinished, h.length_eq, h.countP_eq]
  rfl

end Summary

/-! ## One group -/

omit [Quantity α] in
theorem FailureCounts.of_perm {group group' : List (Trial α)} (h : group'.Perm group) :
    FailureCounts.of group' = FailureCounts.of group := by
  rw [FailureCounts.of, FailureCounts.of, h.countP_eq, h.countP_eq, h.countP_eq]

/-- **A group in another order** has the same error, or the same summary but for its means. -/
theorem summarize_of_perm {group group' : List (Trial α)} (h : group'.Perm group) (k : GroupKey)
    (options : SummaryOptions α) :
    summarize k group' options = (options.scaleOf k.model).bind fun scale =>
      (summarize k group options).map fun s =>
        s.averaging (.of scale (finishedOf group')) options.ceiling := by
  have hfinished : (finishedOf group').Perm (finishedOf group) := h.filterMap _
  rw [summarize, summarize]
  cases options.scaleOf k.model with
  | error e => rfl
  | ok scale =>
    simp only [bind_ok, Except.bind]
    cases options.knownValueOf k.model scale with
    | error e => rfl
    | ok value =>
      show (if (finishedOf group').isEmpty = true then _ else _) =
        Except.map _ (if (finishedOf group).isEmpty = true then _ else _)
      rw [hfinished.isEmpty_eq, h.length_eq, FailureCounts.of_perm h]
      by_cases hnil : (finishedOf group).isEmpty = true
      · rw [if_pos hnil, if_pos hnil]
        rfl
      · rw [if_neg hnil, if_neg hnil]
        exact congrArg Except.ok (Summary.ofFinished_of_perm hfinished _ _ _ _ _ _)

/-! ## All groups -/

/-- Trials in another order have the same groups, and what becomes of a group changes in its means only. -/
theorem aggregate_eq_mapValues {trials trials' : List (Trial α)} (h : trials'.Perm trials)
    (options : SummaryOptions α) :
    aggregate trials' options = (aggregate trials options).mapValues fun k r =>
      (options.scaleOf k.model).bind fun scale => r.map fun s =>
        s.averaging (.of scale (finishedOf (members options.grouping trials' k))) options.ceiling := by
  refine OrderedMap.ext_get? fun k => ?_
  have hmembers : (members options.grouping trials' k).Perm (members options.grouping trials k) := h.filter _
  rw [OrderedMap.get?_mapValues, get?_aggregate, get?_aggregate, outcome?, outcome?]
  by_cases hnil : members options.grouping trials k = []
  · rw [if_pos hnil, if_pos (List.perm_nil.1 (hnil ▸ hmembers))]
    rfl
  · have hnil' : members options.grouping trials' k ≠ [] := fun he => hnil (List.nil_perm.1 (he ▸ hmembers))
    rw [if_neg hnil, if_neg hnil', summarize_of_perm hmembers]
    rfl

/-- **What another order of the trials changes.**  `trials'` are the trials `trials` in another order. -/
structure Reordered (trials trials' : List (Trial α)) (options : SummaryOptions α) : Prop where
  /-- The groups are the same. -/
  keys : (aggregate trials' options).keys = (aggregate trials options).keys
  /-- A group without a summary has the same error. -/
  error : ∀ k e, (aggregate trials options).get? k = some (.error e) →
    (aggregate trials' options).get? k = some (.error e)
  /-- A summary keeps everything but its means, which are those of the same terms in another order. -/
  summary : ∀ k s, (aggregate trials options).get? k = some (.ok s) →
    ∃ scale, options.scaleOf k.model = .ok scale ∧
      let terms := Averaged.of scale (finishedOf (members options.grouping trials k))
      let terms' := Averaged.of scale (finishedOf (members options.grouping trials' k))
      terms'.Rearranges terms ∧ s.averaging terms options.ceiling = s ∧
        (aggregate trials' options).get? k = some (.ok (s.averaging terms' options.ceiling))
  /-- Nothing changes exactly if all means are what they were. -/
  eq_iff : aggregate trials' options = aggregate trials options ↔
    ∀ k s scale, (aggregate trials options).get? k = some (.ok s) → options.scaleOf k.model = .ok scale →
      (Averaged.of scale (finishedOf (members options.grouping trials' k))).SameMeans
        (.of scale (finishedOf (members options.grouping trials k)))

/-- What is found for a group in the other order. -/
theorem get?_aggregate_of_perm {trials trials' : List (Trial α)} (h : trials'.Perm trials)
    (options : SummaryOptions α) (k : GroupKey) :
    (aggregate trials' options).get? k = ((aggregate trials options).get? k).map fun r =>
      (options.scaleOf k.model).bind fun scale => r.map fun s =>
        s.averaging (.of scale (finishedOf (members options.grouping trials' k))) options.ceiling := by
  rw [aggregate_eq_mapValues h, OrderedMap.get?_mapValues]

theorem get?_error_of_perm {trials trials' : List (Trial α)} (h : trials'.Perm trials)
    {options : SummaryOptions α} {k : GroupKey} {e : SummaryError}
    (he : (aggregate trials options).get? k = some (.error e)) :
    (aggregate trials' options).get? k = some (.error e) := by
  have hself := get?_aggregate_of_perm (.refl trials) options k
  have hother := get?_aggregate_of_perm h options k
  rw [he, Option.map_some] at hself hother
  rw [hother]
  cases hscale : options.scaleOf k.model with
  | error e' =>
    rw [hself, hscale]
    rfl
  | ok scale => rfl

theorem get?_summary_of_perm {trials trials' : List (Trial α)} (h : trials'.Perm trials)
    {options : SummaryOptions α} {k : GroupKey} {s : Summary α}
    (hs : (aggregate trials options).get? k = some (.ok s)) :
    ∃ scale, options.scaleOf k.model = .ok scale ∧
      s.averaging (.of scale (finishedOf (members options.grouping trials k))) options.ceiling = s ∧
      (aggregate trials' options).get? k = some (.ok
        (s.averaging (.of scale (finishedOf (members options.grouping trials' k))) options.ceiling)) := by
  have hself := get?_aggregate_of_perm (.refl trials) options k
  have hother := get?_aggregate_of_perm h options k
  rw [hs, Option.map_some] at hself hother
  cases hscale : options.scaleOf k.model with
  | error e =>
    rw [hscale] at hself
    injection hself with hself
    cases hself
  | ok scale =>
    rw [hscale] at hself hother
    injection hself with hself
    injection hself with hself
    exact ⟨scale, rfl, hself.symm, hother⟩

/-- What becomes of a group stays the same exactly if the means of its summary do, if it has one. -/
theorem get?_aggregate_eq_iff {trials trials' : List (Trial α)} (h : trials'.Perm trials)
    (options : SummaryOptions α) (k : GroupKey) :
    (aggregate trials' options).get? k = (aggregate trials options).get? k ↔
      ∀ s scale, (aggregate trials options).get? k = some (.ok s) → options.scaleOf k.model = .ok scale →
        (Averaged.of scale (finishedOf (members options.grouping trials' k))).SameMeans
          (.of scale (finishedOf (members options.grouping trials k))) := by
  constructor
  · intro heq s scale hs hscale
    obtain ⟨scale', hscale', hself, hother⟩ := get?_summary_of_perm h hs
    rw [hscale] at hscale'
    cases hscale'
    rw [heq, hs] at hother
    injection hother with hother
    injection hother with hother
    exact Summary.averaging_eq_iff.1 (hother.symm.trans hself.symm)
  · intro hmeans
    cases hr : (aggregate trials options).get? k with
    | none => rw [get?_aggregate_of_perm h, hr, Option.map_none]
    | some r =>
      cases r with
      | error e => exact get?_error_of_perm h hr
      | ok s =>
        obtain ⟨scale, hscale, hself, hother⟩ := get?_summary_of_perm h hr
        rw [hother, Summary.averaging_eq_iff.2 (hmeans s scale hr hscale), hself]

theorem finishedOf_members_perm {trials trials' : List (Trial α)} (h : trials'.Perm trials)
    (grouping : Grouping) (k : GroupKey) :
    (finishedOf (members grouping trials' k)).Perm (finishedOf (members grouping trials k)) :=
  (h.filter _).filterMap _

theorem reordered_of_perm {trials trials' : List (Trial α)} (h : trials'.Perm trials)
    (options : SummaryOptions α) : Reordered trials trials' options where
  keys := by
    rw [aggregate_eq_mapValues h]
    simp [OrderedMap.keys, OrderedMap.mapValues]
  error k e he := get?_error_of_perm h he
  summary k s hs := by
    obtain ⟨scale, hscale, hself, hother⟩ := get?_summary_of_perm h hs
    have hfinished := finishedOf_members_perm h options.grouping k
    exact ⟨scale, hscale, Averaged.rearranges_of_perm hfinished scale, hself, hother⟩
  eq_iff := by
    constructor
    · intro heq k
      exact (get?_aggregate_eq_iff h options k).1 (by rw [heq])
    · intro hmeans
      exact OrderedMap.ext_get? fun k => (get?_aggregate_eq_iff h options k).2 (hmeans k)

/-- A group keeps what becomes of it if no mean tells a list as long as it from its rearrangements. -/
theorem get?_aggregate_of_means {trials trials' : List (Trial α)} (h : trials'.Perm trials)
    (options : SummaryOptions α) (k : GroupKey)
    (hmean : ∀ xs ys : List α, xs.Perm ys →
      ys.length ≤ (finishedOf (members options.grouping trials k)).length →
      Quantity.mean xs = Quantity.mean ys ∧ Quantity.meanFromZero? xs = Quantity.meanFromZero? ys) :
    (aggregate trials' options).get? k = (aggregate trials options).get? k := by
  rw [get?_aggregate_eq_iff h]
  intro s scale _ _
  exact Averaged.sameMeans_of_perm (finishedOf_members_perm h options.grouping k) scale hmean

/-! ## Exact numbers -/

section

variable [Std.Associative (α := α) (· + ·)] [Std.Commutative (α := α) (· + ·)]

theorem Quantity.total_of_perm {xs ys : List α} (h : xs.Perm ys) : total xs = total ys := by
  induction h with
  | nil => rfl
  | cons x hrest _ => exact hrest.foldl_op_eq
  | swap x y rest =>
    rw [total, total, List.foldl_cons, List.foldl_cons]
    congr 1
    exact @Std.Commutative.comm α (· + ·) _ y x
  | trans _ _ ih₁ ih₂ => exact ih₁.trans ih₂

/-- **Among exact numbers the order does not count.**  If sums depend on their terms alone, then the
summaries depend on the trials alone. -/
theorem aggregate_eq_of_perm {trials trials' : List (Trial α)} (h : trials'.Perm trials)
    (options : SummaryOptions α) : aggregate trials' options = aggregate trials options := by
  refine OrderedMap.ext_get? fun k => get?_aggregate_of_means h options k fun xs ys hperm _ => ?_
  constructor
  · rw [Quantity.mean, Quantity.mean, Quantity.total_of_perm hperm, hperm.length_eq]
  · rw [Quantity.meanFromZero?, Quantity.meanFromZero?, hperm.foldl_op_eq, hperm.length_eq, hperm.isEmpty_eq]

end

/-! ## Doubles -/

/-- What does not tell a pair from the swapped pair does not tell a list of at most two elements from its
rearrangements. -/
theorem eq_of_perm_of_length_le_two {β γ : Type} (f : List β → γ) (hswap : ∀ x y, f [x, y] = f [y, x])
    {xs ys : List β} (h : xs.Perm ys) (hlength : ys.length ≤ 2) : f xs = f ys := by
  match ys, hlength with
  | [], _ => rw [h.eq_nil]
  | [y], _ => rw [List.perm_singleton.1 h]
  | [x, y], _ =>
    obtain ⟨a, b, rfl⟩ := List.length_eq_two.1 h.length_eq
    by_cases ha : a = x
    · subst ha
      rw [List.singleton_perm_singleton.1 ((List.perm_cons a).1 h)]
    · have hay : a = y := by simpa [ha] using h.subset List.mem_cons_self
      subst hay
      have hb := (List.perm_cons a).1 (h.trans (.swap a x []))
      rw [List.singleton_perm_singleton.1 hb, hswap]

theorem Quantity.mean_of_perm {xs ys : List Float} (h : xs.Perm ys) (hlength : ys.length ≤ 2) :
    mean xs = mean ys ∧ meanFromZero? xs = meanFromZero? ys := by
  constructor
  · refine eq_of_perm_of_length_le_two mean (fun x y => ?_) h hlength
    show (x + y) / ofCount 2 = (y + x) / ofCount 2
    rw [Decimal.add_comm_double]
  · refine eq_of_perm_of_length_le_two meanFromZero? (fun x y => ?_) h hlength
    show some ((Float.ofNat 0 + x + y) / ofCount 2) = some ((Float.ofNat 0 + y + x) / ofCount 2)
    rw [Decimal.zero_add_add_comm]

/-- **Trials in another order.**  The groups are the same, and what becomes of them is the same but for the
means, which are those of the same doubles in another order; they are the same too where at most two trials
are averaged. -/
theorem aggregate_of_perm {trials trials' : List (Trial Float)} (h : trials'.Perm trials)
    (options : SummaryOptions Float) :
    Reordered trials trials' options ∧
      ∀ k, (finishedOf (members options.grouping trials k)).length ≤ 2 →
        (aggregate trials' options).get? k = (aggregate trials options).get? k := by
  refine ⟨reordered_of_perm h options, fun k htwo => ?_⟩
  refine get?_aggregate_of_means h options k fun xs ys hperm hlength => ?_
  exact Quantity.mean_of_perm hperm (hlength.trans htwo)

/-- Three trials of a model that differ in their last lower bound. -/
def threeTrials : List (Trial Float) :=
  [(0, 0.1), (1, 0.2), (2, 0.3)].map fun (iteration, lower) =>
    { Trial.failed "toy" none .generic iteration with
      times := [0, 1000], lower := [0, lower], upper := [1, 1], status := .success }

/-- Summaries by model, without constants. -/
def plainOptions : SummaryOptions Float := ⟨.model, none, none, Float.ofNat defaultCeilingSeconds⟩

theorem aggregate_of_perm_threeTrials :
    threeTrials.reverse.Perm threeTrials ∧ Reordered threeTrials threeTrials.reverse plainOptions ∧
      (finishedOf (members .model (threeTrials.take 2) ⟨"toy", none⟩)).length = 2 ∧
      (aggregate (threeTrials.take 2).reverse plainOptions).get? ⟨"toy", none⟩ =
        (aggregate (threeTrials.take 2) plainOptions).get? ⟨"toy", none⟩ := by
  have htwo : (finishedOf (members .model (threeTrials.take 2) ⟨"toy", none⟩)).length = 2 := by
    decide +kernel
  exact ⟨List.reverse_perm _, (aggregate_of_perm (List.reverse_perm _) plainOptions).1, htwo,
    (aggregate_of_perm (List.reverse_perm _) plainOptions).2 ⟨"toy", none⟩ htwo.le⟩

/-- **The order of three trials counts**: the mean of their lower bounds is not the same the other way
around. -/
theorem not_aggregate_of_perm :
    ¬ ∀ trials trials' : List (Trial Float), ∀ options, trials'.Perm trials →
      aggregate trials' options = aggregate trials options := by
  intro h
  have heq := h threeTrials threeTrials.reverse plainOptions (List.reverse_perm _)
  have hlower := congrArg (fun groups => groups.summaries.map Summary.lower) heq
  exact absurd hlower (by decide +kernel)

end CheckerTrials
