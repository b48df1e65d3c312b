import CheckerTrials.Proofs.Ordered.Keys
import CheckerTrials.Proofs.Success
import CheckerTrials.Summary.Basic
import Mathlib.Algebra.GroupWithZero.Nat

/-!
# Groups partition the trials

`aggregate` makes a group for each key that some trial has.  `perm_flatMap_members` says that this splits
the trials up: the members of all groups, one group after the other, are the trials in another order, so
none is lost and none is in two groups.  What is summed over the groups is therefore summed over the trials
(`sum_length_members`).

What is found for a key among the groups depends on its members alone (`get?_aggregate`), and
`summarized_summarize` says once what can become of them; the laws about summaries come from the two.
-/

set_option autoImplicit false

namespace CheckerTrials

variable {α : Type}

/-! ## The partition -/

/-- A trial counts in its own group and in no other one. -/
theorem sum_map_ite_eq {κ : Type} [DecidableEq κ] {ks : List κ} (hks : ks.Nodup) {k : κ} (hk : k ∈ ks)
    (n : Nat) : (ks.map fun l => if k = l then n else 0).sum = n := by
  induction ks with
  | nil => cases hk
  | cons l rest ih =>
    rw [List.nodup_cons] at hks
    rw [List.map_cons, List.sum_cons]
    by_cases hkl : k = l
    · subst hkl
      have hrest : (rest.map fun l => if k = l then n else 0) = rest.map fun _ => 0 := by
        refine List.map_congr_left fun l hl => if_neg ?_
        rintro rfl
        exact hks.1 hl
      simp [hrest, List.map_const', List.sum_replicate_nat]
    · rw [if_neg hkl, ih hks.2 ((List.mem_cons.1 hk).resolve_left hkl), Nat.zero_add]

/-- **Groups partition.**  If every trial has its key in a list of distinct keys, then the groups of these
keys hold every trial once. -/
theorem perm_flatMap_members {grouping : Grouping} {trials : List (Trial α)}
    {ks : List GroupKey} (hks : ks.Nodup) (hall : ∀ t ∈ trials, GroupKey.of grouping t ∈ ks) :
    (ks.flatMap (members grouping trials)).Perm trials := by
  classical
  rw [List.perm_iff_count]
  intro t
  have hcount : ∀ k, List.count t (members grouping trials k) =
      if GroupKey.of grouping t = k then trials.count t else 0 := by
    intro k
    split
    · rename_i hk
      exact List.count_filter (by simpa using hk)
    · rename_i hk
      exact List.count_eq_zero.2 fun hmem => hk (mem_members.1 hmem).2
  rw [List.count_flatMap, Function.comp_def]
  simp only [hcount]
  by_cases ht : t ∈ trials
  · exact sum_map_ite_eq hks (hall t ht) _
  · simp [List.count_eq_zero.2 ht, List.map_const', List.sum_replicate_nat]

theorem sum_length_members {grouping : Grouping} {trials : List (Trial α)}
    {ks : List GroupKey} (hks : ks.Nodup) (hall : ∀ t ∈ trials, GroupKey.of grouping t ∈ ks) :
    (ks.map fun k => (members grouping trials k).length).sum = trials.length := by
  rw [← (perm_flatMap_members hks hall).length_eq, List.length_flatMap]

variable [Quantity α]

/-- The groups are those of the trials, and each has what `summarize` makes of its members. -/
theorem mem_entries_aggregate {trials : List (Trial α)} {options : SummaryOptions α} {k : GroupKey}
    {r : Except SummaryError (Summary α)} :
    (k, r) ∈ (aggregate trials options).entries ↔
      (∃ t ∈ trials, GroupKey.of options.grouping t = k) ∧
        r = summarize k (members options.grouping trials k) options := by
  rw [aggregate, OrderedMap.mem_entries_ofKeys, List.mem_map]

theorem mem_keys_aggregate {trials : List (Trial α)} {options : SummaryOptions α} {k : GroupKey} :
    k ∈ (aggregate trials options).keys ↔ ∃ t ∈ trials, GroupKey.of options.grouping t = k := by
  rw [aggregate, OrderedMap.mem_keys_ofKeys, List.mem_map]

/-- What is found for a group with the given members. -/
def outcome? (options : SummaryOptions α) (k : GroupKey) (group : List (Trial α)) :
    Option (Except SummaryError (Summary α)) :=
  if group = [] then none else some (summarize k group options)

/-- **What is found for a group** depends on its members alone. -/
theorem get?_aggregate (trials : List (Trial α)) (options : SummaryOptions α) (k : GroupKey) :
    (aggregate trials options).get? k = outcome? options k (members options.grouping trials k) := by
  rw [aggregate, OrderedMap.get?_ofKeys, outcome?]
  by_cases hnil : members options.grouping trials k = []
  · rw [if_pos hnil, if_neg]
    intro hk
    obtain ⟨t, ht, hkey⟩ := List.mem_map.1 hk
    exact List.ne_nil_of_mem (mem_members.2 ⟨ht, hkey⟩) hnil
  · obtain ⟨t, ht⟩ := List.exists_mem_of_ne_nil _ hnil
    rw [if_neg hnil, if_pos (List.mem_map.2 ⟨t, mem_members.1 ht⟩)]

/-! ## One group -/

/-- Whether the constants that a summary of a model needs are registered. -/
structure SummaryOptions.Registers (options : SummaryOptions α) (model : String) : Prop where
  /-- The greatest reward, if bounds are scaled. -/
  scale : ∀ rewards, options.scaling = some rewards → (rewards.get? model).isSome = true
  /-- The known value, if known values are attached. -/
  value : ∀ values, options.knownValues = some values → (values.get? model).isSome = true

theorem SummaryOptions.scaleOf_of_registers {options : SummaryOptions α} {model : String}
    (h : options.Registers model) : ∃ scale, options.scaleOf model = .ok scale := by
  rw [SummaryOptions.scaleOf]
  split
  · exact ⟨_, rfl⟩
  · rename_i rewards hr
    obtain ⟨reward, hreward⟩ := Option.isSome_iff_exists.1 (h.scale rewards hr)
    exact ⟨reward, by rw [hreward]⟩

theorem SummaryOptions.knownValueOf_of_registers {options : SummaryOptions α} {model : String}
    (h : options.Registers model) (scale : α) :
    ∃ value, options.knownValueOf model scale = .ok value := by
  rw [SummaryOptions.knownValueOf]
  split
  · exact ⟨_, rfl⟩
  · rename_i values hv
    obtain ⟨value, hvalue⟩ := Option.isSome_iff_exists.1 (h.value values hv)
    exact ⟨some (value / scale), by rw [hvalue]⟩

/-- The finished trials of a list. -/
def finishedOf (trials : List (Trial α)) : List (Finished α) := trials.filterMap Finished.of?

/-- What is finished comes of a successful trial and has its end. -/
theorem Finished.of?_eq_some {t : Trial α} {f : Finished α} (h : of? t = some f) :
    t.isSuccess = true ∧ t.finalBounds? = some (f.lower, f.upper) ∧ t.runtimeSeconds? = some f.seconds := by
  rw [of?] at h
  split at h
  · rename_i hsuccess
    simp only [Option.bind_eq_bind, Option.bind_eq_some_iff, Option.some.injEq] at h
    obtain ⟨bounds, hbounds, seconds, hseconds, rfl⟩ := h
    exact ⟨hsuccess, hbounds, hseconds⟩
  · cases h

/-- What a summary is made of. -/
theorem summarize_eq_ok_iff {options : SummaryOptions α} {k : GroupKey} {group : List (Trial α)} {s : Summary α} :
    summarize k group options = .ok s ↔
      ∃ scale value, options.scaleOf k.model = .ok scale ∧ options.knownValueOf k.model scale = .ok value ∧
        finishedOf group ≠ [] ∧
        .ofFinished k group.length (.of group) scale value options.ceiling (finishedOf group) = s := by
  have hlast : ∀ scale value, (if (finishedOf group).isEmpty then
        .error (.noSuccess k group.length (.of group))
      else .ok (.ofFinished k group.length (.of group) scale value options.ceiling (finishedOf group)) :
        Except SummaryError (Summary α)) = .ok s ↔ finishedOf group ≠ [] ∧
      .ofFinished k group.length (.of group) scale value options.ceiling (finishedOf group) = s := by
    intro scale value
    cases finishedOf group <;> simp
  simp only [summarize, bind_eq_ok_iff]
  exact ⟨fun ⟨scale, hscale, value, hvalue, h⟩ => ⟨scale, value, hscale, hvalue, (hlast scale value).1 h⟩,
    fun ⟨scale, value, hscale, hvalue, h⟩ => ⟨scale, hscale, value, hvalue, (hlast scale value).2 h⟩⟩

/-- **What can become of a group.**  A constant is not registered, or no trial has an end, or there is a
summary that counts the trials of the group. -/
inductive Summarized (options : SummaryOptions α) (k : GroupKey) (group : List (Trial α)) :
    Except SummaryError (Summary α) → Prop
  /-- The greatest reward of the model is not registered. -/
  | missingScale (h : ¬ options.Registers k.model) :
      Summarized options k group (.error (.missingScale k.model))
  /-- The known value of the model is not registered. -/
  | missingValue (h : ¬ options.Registers k.model) :
      Summarized options k group (.error (.missingValue k.model))
  /-- No trial has an end. -/
  | noSuccess (h : finishedOf group = []) :
      Summarized options k group (.error (.noSuccess k group.length (.of group)))
  /-- There is a summary. -/
  | summary (s : Summary α) (h : finishedOf group ≠ []) (hsamples : s.samples = group.length)
      (hfailures : s.failures = .of group) (hsuccesses : s.successes = (finishedOf group).length) :
      Summarized options k group (.ok s)

theorem summarized_summarize (options : SummaryOptions α) (k : GroupKey) (group : List (Trial α)) :
    Summarized options k group (summarize k group options) := by
  rw [summarize]
  cases hscale : options.scaleOf k.model with
  | error e =>
    have hnot : ¬ options.Registers k.model := fun h => by
      obtain ⟨scale, hs⟩ := SummaryOptions.scaleOf_of_registers h
      rw [hs] at hscale
      cases hscale
    have he : e = .missingScale k.model := by
      rw [SummaryOptions.scaleOf] at hscale
      split at hscale
      · cases hscale
      · split at hscale <;> cases hscale
        rfl
    subst he
    exact .missingScale hnot
  | ok scale =>
    cases hvalue : options.knownValueOf k.model scale with
    | error e =>
      have hnot : ¬ options.Registers k.model := fun h => by
        obtain ⟨value, hv⟩ := SummaryOptions.knownValueOf_of_registers h scale
        rw [hv] at hvalue
        cases hvalue
      have he : e = .missingValue k.model := by
        rw [SummaryOptions.knownValueOf] at hvalue
        split at hvalue
        · cases hvalue
        · split at hvalue <;> cases hvalue
          rfl
      subst he
      rw [bind_ok, hvalue]
      exact .missingValue hnot
    | ok value =>
      rw [bind_ok, hvalue, bind_ok]
      show Summarized options k group (if (finishedOf group).isEmpty = true then _ else _)
      split
      · rename_i hempty
        exact .noSuccess (List.isEmpty_iff.1 hempty)
      · rename_i hne
        exact .summary _ (fun he => hne (List.isEmpty_iff.2 he)) rfl rfl rfl

/-! ## Successes and failures -/

/-- Whether a trial has samples if it succeeded, which no trial has to. -/
def Trial.Sampled (t : Trial α) : Prop :=
  t.isSuccess = true → t.times ≠ [] ∧ t.lower ≠ [] ∧ t.upper ≠ []

omit [Quantity α] in
theorem Trial.WellFormed.sampled {t : Trial α} (h : t.WellFormed) : t.Sampled := by
  intro hs
  obtain ⟨htimes, hlower, hupper⟩ := h.of_success (by simpa [Trial.isSuccess] using hs)
  have hpos := List.length_pos_iff.2 htimes
  exact ⟨htimes, List.length_pos_iff.1 (hlower ▸ hpos), List.length_pos_iff.1 (hupper ▸ hpos)⟩

/-- A trial with samples has an end exactly when it succeeded. -/
theorem isSome_of? {t : Trial α} (h : t.Sampled) : (Finished.of? t).isSome = t.isSuccess := by
  rw [Finished.of?]
  cases hs : t.isSuccess with
  | false => rfl
  | true =>
    obtain ⟨htimes, hlower, hupper⟩ := h hs
    simp [Trial.finalBounds?, Trial.runtimeSeconds?, List.getLast?_eq_some_getLast htimes,
      List.getLast?_eq_some_getLast hlower, List.getLast?_eq_some_getLast hupper,
      List.head?_eq_some_head htimes]

/-- The two ways to count successes agree on trials with samples: by their status and by their end. -/
theorem length_finishedOf {trials : List (Trial α)} (h : ∀ t ∈ trials, t.Sampled) :
    (finishedOf trials).length = trials.countP Trial.isSuccess := by
  induction trials with
  | nil => rfl
  | cons t rest ih =>
    have ht := isSome_of? (h t List.mem_cons_self)
    have hrest := ih fun u hu => h u (List.mem_cons_of_mem t hu)
    rw [finishedOf, List.filterMap_cons, List.countP_cons, ← ht, ← hrest]
    cases Finished.of? t with
    | none => rfl
    | some f => rfl

end CheckerTrials
