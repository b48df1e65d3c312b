import CheckerTrials.Proofs.Summary.Groups

/-!
# Groups do not touch each other

What becomes of a group depends on its own members, in their order, and on the constants of its own model.
Whatever else is in the list of trials, and whatever becomes of the other groups, does not matter to it.

* `gather` groups the trials in one pass, as the program does: each trial goes to the end of its group.
  `get?_foldl_gatherStep` says what a pass over some more trials adds, and `aggregate_eq_gather` that
  `aggregate` summarises what was gathered.
* `ChangedOff` are the changes of a list that leave the members of a group alone, and
  `SummaryOptions.AgreesAt` the changes of the constants that leave those of a model alone.
* `Interleaves` are the ways to merge two lists.
* `groupsApart` puts the laws together.
-/

set_option autoImplicit false

namespace CheckerTrials

/-! ## Merged lists -/

/-- `zs` has the elements of `xs` and of `ys`, each of them in their order. -/
inductive Interleaves {β : Type} : List β → List β → List β → Prop
  /-- Nothing is left to merge. -/
  | nil : Interleaves [] [] []
  /-- The next element comes from the first list. -/
  | left (x : β) {xs ys zs : List β} (h : Interleaves xs ys zs) : Interleaves (x :: xs) ys (x :: zs)
  /-- The next element comes from the second list. -/
  | right (y : β) {xs ys zs : List β} (h : Interleaves xs ys zs) : Interleaves xs (y :: ys) (y :: zs)

namespace Interleaves

variable {β : Type} {xs ys zs : List β}

theorem swap (h : Interleaves xs ys zs) : Interleaves ys xs zs := by
  induction h with
  | nil => exact .nil
  | left x _ ih => exact .right x ih
  | right y _ ih => exact .left y ih

/-- Two lists one after the other are merged. -/
theorem append (xs ys : List β) : Interleaves xs ys (xs ++ ys) := by
  induction xs with
  | cons x rest ih => exact .left x ih
  | nil =>
    induction ys with
    | nil => exact .nil
    | cons y rest ih => exact .right y ih

/-- What only the first list can have is in the merged list as it is in the first one. -/
theorem filter_eq (h : Interleaves xs ys zs) (p : β → Bool) (hys : ∀ y ∈ ys, p y = false) :
    zs.filter p = xs.filter p := by
  induction h with
  | nil => rfl
  | left x _ ih => simp [List.filter_cons, ih hys]
  | right y _ ih =>
    rw [List.forall_mem_cons] at hys
    rw [List.filter_cons_of_neg (by simp [hys.1]), ih hys.2]

end Interleaves

variable {α : Type}

/-! ## Changes that leave a group alone -/

/-- Trials of other groups come and go, and the members of the group stay as they are. -/
inductive ChangedOff (grouping : Grouping) (k : GroupKey) : List (Trial α) → List (Trial α) → Prop
  /-- Nothing is left to change. -/
  | nil : ChangedOff grouping k [] []
  /-- A trial stays. -/
  | keep (t : Trial α) {trials trials' : List (Trial α)} (h : ChangedOff grouping k trials trials') :
      ChangedOff grouping k (t :: trials) (t :: trials')
  /-- A trial of another group comes. -/
  | add (t : Trial α) {trials trials' : List (Trial α)} (hne : GroupKey.of grouping t ≠ k)
      (h : ChangedOff grouping k trials trials') : ChangedOff grouping k trials (t :: trials')
  /-- A trial of another group goes. -/
  | drop (t : Trial α) {trials trials' : List (Trial α)} (hne : GroupKey.of grouping t ≠ k)
      (h : ChangedOff grouping k trials trials') : ChangedOff grouping k (t :: trials) trials'

theorem members_cons_self {grouping : Grouping} {k : GroupKey} {t : Trial α}
    (h : GroupKey.of grouping t = k) (trials : List (Trial α)) :
    members grouping (t :: trials) k = t :: members grouping trials k :=
  List.filter_cons_of_pos (decide_eq_true h)

theorem members_cons_of_ne {grouping : Grouping} {k : GroupKey} {t : Trial α}
    (h : GroupKey.of grouping t ≠ k) (trials : List (Trial α)) :
    members grouping (t :: trials) k = members grouping trials k :=
  List.filter_cons_of_neg (by simpa using h)

theorem ChangedOff.members_eq {grouping : Grouping} {k : GroupKey} {trials trials' : List (Trial α)}
    (h : ChangedOff grouping k trials trials') : members grouping trials' k = members grouping trials k := by
  induction h with
  | nil => rfl
  | keep t _ ih =>
    by_cases ht : GroupKey.of grouping t = k
    · rw [members_cons_self ht, members_cons_self ht, ih]
    · rw [members_cons_of_ne ht, members_cons_of_ne ht, ih]
  | add t hne _ ih => rw [members_cons_of_ne hne, ih]
  | drop t hne _ ih => rw [members_cons_of_ne hne, ih]

/-- Leaving out all trials of a group leaves every other group alone. -/
theorem changedOff_filter {grouping : Grouping} {k l : GroupKey} (h : l ≠ k) (trials : List (Trial α)) :
    ChangedOff grouping l trials (trials.filter fun t => GroupKey.of grouping t ≠ k) := by
  induction trials with
  | nil => exact .nil
  | cons t rest ih =>
    by_cases ht : GroupKey.of grouping t = k
    · rw [List.filter_cons_of_neg (by simpa using ht)]
      exact .drop t (fun hl => h (hl.symm.trans ht)) ih
    · rw [List.filter_cons_of_pos (by simpa using ht)]
      exact .keep t ih

/-! ## Grouping in one pass -/

/-- A trial goes to the end of its group. -/
def gatherStep (grouping : Grouping) (groups : OrderedMap GroupKey (List (Trial α))) (t : Trial α) :
    OrderedMap GroupKey (List (Trial α)) :=
  groups.insert (GroupKey.of grouping t) ((groups.get? (GroupKey.of grouping t)).getD [] ++ [t])

/-- The trials of each group, from one pass over the list. -/
def gather (grouping : Grouping) (trials : List (Trial α)) : OrderedMap GroupKey (List (Trial α)) :=
  trials.foldl (gatherStep grouping) ∅

/-- One trial changes its own group only, and there it is the last one. -/
theorem get?_gatherStep (grouping : Grouping) (groups : OrderedMap GroupKey (List (Trial α))) (t : Trial α)
    (k : GroupKey) : (gatherStep grouping groups t).get? k =
      if k = GroupKey.of grouping t then some ((groups.get? k).getD [] ++ [t]) else groups.get? k := by
  rw [gatherStep, OrderedMap.get?_insert]
  by_cases hk : k = GroupKey.of grouping t
  · rw [if_pos hk, if_pos hk, hk]
  · rw [if_neg hk, if_neg hk]

/-- **A pass over some more trials** puts the members of a group behind those that it has. -/
theorem get?_foldl_gatherStep (grouping : Grouping) (trials : List (Trial α))
    (groups : OrderedMap GroupKey (List (Trial α))) (k : GroupKey) :
    (trials.foldl (gatherStep grouping) groups).get? k =
      if members grouping trials k = [] then groups.get? k
      else some ((groups.get? k).getD [] ++ members grouping trials k) := by
  induction trials generalizing groups with
  | nil => rfl
  | cons t rest ih =>
    rw [List.foldl_cons, ih, get?_gatherStep]
    by_cases ht : GroupKey.of grouping t = k
    · rw [members_cons_self ht, if_pos ht.symm, if_neg (List.cons_ne_nil _ _)]
      by_cases hrest : members grouping rest k = []
      · rw [if_pos hrest, hrest]
      · rw [if_neg hrest, Option.getD_some, List.append_assoc, List.singleton_append]
    · rw [members_cons_of_ne ht, if_neg (Ne.symm ht)]

theorem get?_gather (grouping : Grouping) (trials : List (Trial α)) (k : GroupKey) :
    (gather grouping trials).get? k =
      if members grouping trials k = [] then none else some (members grouping trials k) :=
  get?_foldl_gatherStep grouping trials ∅ k

/-! ## Lists without a common group -/

/-- No trial of `xs` is in a group with a trial of `ys`. -/
def Apart (grouping : Grouping) (xs ys : List (Trial α)) : Prop :=
  ∀ x ∈ xs, ∀ y ∈ ys, GroupKey.of grouping x ≠ GroupKey.of grouping y

/-- Every group has members in one of two lists at most. -/
theorem Apart.members_eq_nil {grouping : Grouping} {xs ys : List (Trial α)} (h : Apart grouping xs ys)
    (k : GroupKey) : members grouping xs k = [] ∨ members grouping ys k = [] := by
  by_cases hxs : members grouping xs k = []
  · exact .inl hxs
  · right
    obtain ⟨x, hx⟩ := List.exists_mem_of_ne_nil _ hxs
    obtain ⟨hx, hk⟩ := mem_members.1 hx
    rw [List.eq_nil_iff_forall_not_mem]
    intro y hy
    obtain ⟨hy, hl⟩ := mem_members.1 hy
    exact h x hx y hy (hk.trans hl.symm)

/-- Lists without a common group can be merged in any way. -/
theorem Apart.members_eq {grouping : Grouping} {xs ys zs : List (Trial α)} (h : Apart grouping xs ys)
    (hzs : Interleaves xs ys zs) (k : GroupKey) :
    members grouping zs k = members grouping xs k ++ members grouping ys k := by
  have hnone : ∀ ts : List (Trial α), members grouping ts k = [] →
      ∀ t ∈ ts, decide (GroupKey.of grouping t = k) = false := by
    intro ts hts t ht
    simpa using List.filter_eq_nil_iff.1 hts t ht
  rcases h.members_eq_nil k with hxs | hys
  · rw [hxs, List.nil_append]
    exact hzs.swap.filter_eq _ (hnone xs hxs)
  · rw [hys, List.append_nil]
    exact hzs.filter_eq _ (hnone ys hys)

/-! ## Constants of other models -/

namespace SummaryOptions

/-- The options agree but for the constants of other models. -/
structure AgreesAt (options options' : SummaryOptions α) (model : String) : Prop where
  /-- The grouping. -/
  grouping : options'.grouping = options.grouping
  /-- The ceiling of runtimes. -/
  ceiling : options'.ceiling = options.ceiling
  /-- The greatest reward of the model, and whether bounds are scaled at all. -/
  scaling : options'.scaling.map (·.get? model) = options.scaling.map (·.get? model)
  /-- The known value of the model, and whether known values are attached at all. -/
  knownValues : options'.knownValues.map (·.get? model) = options.knownValues.map (·.get? model)

theorem map_get?_insert (constants : Option (NameMap α)) {model other : String} (h : model ≠ other) (v : α) :
    (constants.map (·.insert other v)).map (·.get? model) = constants.map (·.get? model) := by
  cases constants with
  | none => rfl
  | some m => exact congrArg some ((m.get?_insert other model v).trans (if_neg h))

/-- Registering a greatest reward matters to its own model only. -/
theorem agreesAt_scaling (options : SummaryOptions α) {model other : String} (h : model ≠ other) (v : α) :
    options.AgreesAt { options with scaling := options.scaling.map (·.insert other v) } model :=
  ⟨rfl, rfl, map_get?_insert _ h v, rfl⟩

/-- Registering a known value matters to its own model only. -/
theorem agreesAt_knownValues (options : SummaryOptions α) {model other : String} (h : model ≠ other) (v : α) :
    options.AgreesAt { options with knownValues := options.knownValues.map (·.insert other v) } model :=
  ⟨rfl, rfl, rfl, map_get?_insert _ h v⟩

variable [Quantity α]

theorem AgreesAt.scaleOf_eq {options options' : SummaryOptions α} {model : String}
    (h : options.AgreesAt options' model) : options'.scaleOf model = options.scaleOf model := by
  have hlookup := h.scaling
  rw [scaleOf, scaleOf]
  cases hs : options.scaling <;> cases hs' : options'.scaling
  · rfl
  · simp [hs, hs'] at hlookup
  · simp [hs, hs'] at hlookup
  · rw [hs, hs'] at hlookup
    injection hlookup with hlookup
    simp only [hlookup]

theorem AgreesAt.knownValueOf_eq {options options' : SummaryOptions α} {model : String}
    (h : options.AgreesAt options' model) (scale : α) :
    options'.knownValueOf model scale = options.knownValueOf model scale := by
  have hlookup := h.knownValues
  rw [knownValueOf, knownValueOf]
  cases hv : options.knownValues <;> cases hv' : options'.knownValues
  · rfl
  · simp [hv, hv'] at hlookup
  · simp [hv, hv'] at hlookup
  · rw [hv, hv'] at hlookup
    injection hlookup with hlookup
    simp only [hlookup]

end SummaryOptions

/-! ## What is found for a group -/

variable [Quantity α]

/-- A summary asks for the constants of its own model only. -/
theorem summarize_congr {options options' : SummaryOptions α} {k : GroupKey}
    (h : options.AgreesAt options' k.model) (group : List (Trial α)) :
    summarize k group options' = summarize k group options := by
  simp only [summarize, h.scaleOf_eq, h.knownValueOf_eq, h.ceiling]

/-- What is found for a group is the same for lists with the same members of it. -/
theorem get?_aggregate_congr {trials trials' : List (Trial α)} {options options' : SummaryOptions α}
    {k : GroupKey} (hoptions : options.AgreesAt options' k.model)
    (hmembers : members options.grouping trials' k = members options.grouping trials k) :
    (aggregate trials' options').get? k = (aggregate trials options).get? k := by
  rw [get?_aggregate, get?_aggregate, hoptions.grouping, hmembers, outcome?, outcome?,
    summarize_congr hoptions]

/-- **`aggregate` summarises what was gathered**: no trial is lost or put into another place by the pass. -/
theorem aggregate_eq_gather (trials : List (Trial α)) (options : SummaryOptions α) :
    aggregate trials options =
      (gather options.grouping trials).mapValues fun k group => summarize k group options := by
  refine OrderedMap.ext_get? fun k => ?_
  rw [OrderedMap.get?_mapValues, get?_gather, get?_aggregate, outcome?]
  by_cases hnil : members options.grouping trials k = []
  · rw [if_pos hnil, if_pos hnil, Option.map_none]
  · rw [if_neg hnil, if_neg hnil, Option.map_some]

/-- What is found for a group is found in the list that has its members. -/
theorem Apart.get?_aggregate {options : SummaryOptions α} {xs ys zs : List (Trial α)}
    (h : Apart options.grouping xs ys) (hzs : Interleaves xs ys zs) (k : GroupKey) :
    (aggregate zs options).get? k = ((aggregate xs options).get? k).or ((aggregate ys options).get? k) := by
  simp only [CheckerTrials.get?_aggregate, outcome?, h.members_eq hzs]
  rcases h.members_eq_nil k with hxs | hys
  · rw [if_pos hxs, hxs, List.nil_append, Option.none_or]
  · rw [if_pos hys, hys, List.append_nil, Option.or_none]

theorem Apart.notMem_keys {options : SummaryOptions α} {xs ys : List (Trial α)}
    (h : Apart options.grouping xs ys) {k : GroupKey} (hk : k ∈ (aggregate xs options).keys) :
    k ∉ (aggregate ys options).keys := by
  rw [mem_keys_aggregate] at hk ⊢
  rintro ⟨y, hy, hl⟩
  obtain ⟨x, hx, hk⟩ := hk
  exact h x hx y hy (hk.trans hl.symm)

/-- The entries of all groups are those of the groups in either list. -/
theorem Apart.perm_entries {options : SummaryOptions α} {xs ys zs : List (Trial α)}
    (h : Apart options.grouping xs ys) (hzs : Interleaves xs ys zs) :
    (aggregate zs options).entries.Perm ((aggregate xs options).entries ++ (aggregate ys options).entries) := by
  have hnodup : ∀ ts : List (Trial α), (aggregate ts options).entries.Nodup :=
    fun ts => .of_map _ (OrderedMap.nodup_keys _)
  have hdisjoint : (aggregate xs options).entries.Disjoint (aggregate ys options).entries := by
    intro e hx hy
    exact h.notMem_keys (List.mem_map_of_mem hx) (List.mem_map_of_mem hy)
  rw [List.perm_ext_iff_of_nodup (hnodup zs) ((hnodup xs).append (hnodup ys) hdisjoint)]
  intro (k, r)
  rw [List.mem_append, ← OrderedMap.get?_eq_some_iff, ← OrderedMap.get?_eq_some_iff,
    ← OrderedMap.get?_eq_some_iff, h.get?_aggregate hzs, Option.or_eq_some_iff]
  constructor
  · exact Or.imp_right And.right
  · rintro (hx | hy)
    · exact .inl hx
    · refine .inr ⟨?_, hy⟩
      rw [OrderedMap.get?_eq_none_iff]
      intro hk
      exact h.notMem_keys hk (List.mem_map_of_mem (OrderedMap.get?_eq_some_iff.1 hy))

/-! ## The laws -/

/-- **Groups do not touch each other.** -/
structure GroupsApart (options : SummaryOptions α) : Prop where
  /-- The groups are those of the trials. -/
  keys : ∀ trials k, k ∈ (aggregate trials options).keys ↔
    ∃ t ∈ trials, GroupKey.of options.grouping t = k
  /-- What is found for a group is the summary of its members, in the order of the list. -/
  entry : ∀ trials, ∀ k ∈ (aggregate trials options).keys, (aggregate trials options).get? k =
    some (summarize k (trials.filter fun t => GroupKey.of options.grouping t = k) options)
  /-- It is the summary of what one pass over the trials puts into the group. -/
  gathered : ∀ trials, aggregate trials options =
    (gather options.grouping trials).mapValues fun k group => summarize k group options
  /-- Trials of other groups and constants of other models do not change it. -/
  other : ∀ trials trials' options' k, ChangedOff options.grouping k trials trials' →
    options.AgreesAt options' k.model →
    (aggregate trials' options').get? k = (aggregate trials options).get? k
  /-- In particular it does not matter whether a constant of another model is registered or not. -/
  constants : ∀ trials k model value, k.model ≠ model →
    (aggregate trials { options with
      scaling := options.scaling.map (·.insert model value) }).get? k = (aggregate trials options).get? k ∧
    (aggregate trials { options with
      knownValues := options.knownValues.map (·.insert model value) }).get? k = (aggregate trials options).get? k
  /-- Whatever becomes of a group, the others are as they would be without it. -/
  without : ∀ trials k l, (aggregate (trials.filter fun t => GroupKey.of options.grouping t ≠ k) options).get? l =
    if l = k then none else (aggregate trials options).get? l
  /-- The groups of two lists without a common group are those of either list. -/
  union : ∀ xs ys, Apart options.grouping xs ys →
    (aggregate (xs ++ ys) options).entries.Perm
        ((aggregate xs options).entries ++ (aggregate ys options).entries) ∧
      ∀ k, (aggregate (xs ++ ys) options).get? k =
        ((aggregate xs options).get? k).or ((aggregate ys options).get? k)
  /-- It does not matter how such lists are merged. -/
  merged : ∀ xs ys zs, Apart options.grouping xs ys → Interleaves xs ys zs →
    aggregate zs options = aggregate (xs ++ ys) options

theorem groupsApart (options : SummaryOptions α) : GroupsApart options where
  keys _ _ := mem_keys_aggregate
  entry trials k hk := by
    obtain ⟨t, ht, hkey⟩ := mem_keys_aggregate.1 hk
    rw [get?_aggregate, outcome?, if_neg (List.ne_nil_of_mem (mem_members.2 ⟨ht, hkey⟩))]
    rfl
  gathered trials := aggregate_eq_gather trials options
  other _ _ _ _ htrials hoptions := get?_aggregate_congr hoptions htrials.members_eq
  constants _ _ _ _ h :=
    ⟨get?_aggregate_congr (options.agreesAt_scaling h _) rfl,
      get?_aggregate_congr (options.agreesAt_knownValues h _) rfl⟩
  without trials k l := by
    by_cases hl : l = k
    · rw [if_pos hl, get?_aggregate, outcome?, if_pos]
      rw [members, List.filter_filter, List.filter_eq_nil_iff]
      intro t _
      simp [hl]
    · rw [if_neg hl]
      exact get?_aggregate_congr ⟨rfl, rfl, rfl, rfl⟩ (changedOff_filter hl trials).members_eq
  union xs ys h := ⟨h.perm_entries (.append xs ys), h.get?_aggregate (.append xs ys)⟩
  merged xs ys zs h hzs := by
    refine OrderedMap.ext_get? fun k => ?_
    rw [h.get?_aggregate hzs, h.get?_aggregate (.append xs ys)]

/-- A trial of one model that succeeded and a failed one of a model without a greatest reward. -/
def scaledTrials : List (Trial Float) := [
  { Trial.failed "known" none .generic 0 with
    times := [0, 1000], lower := [0, 1], upper := [4, 2], status := .success },
  .failed "unknown" none .timeout 0]

/-- Bounds are scaled, and one model has a greatest reward. -/
def scaledOptions : SummaryOptions Float := ⟨.model, some ((∅ : NameMap Float).insert "known" 2), none, 1800⟩

/-- The model without a greatest reward has an error, and the other one has the summary that it has alone, also
if a greatest reward is registered for the former. -/
theorem groupsApart_scaledTrials :
    (aggregate scaledTrials scaledOptions).get? ⟨"unknown", none⟩ = some (.error (.missingScale "unknown")) ∧
      (aggregate scaledTrials scaledOptions).get? ⟨"known", none⟩ =
        (aggregate (scaledTrials.take 1) scaledOptions).get? ⟨"known", none⟩ ∧
      (aggregate scaledTrials { scaledOptions with
        scaling := scaledOptions.scaling.map (·.insert "unknown" 5) }).get? ⟨"known", none⟩ =
        (aggregate scaledTrials scaledOptions).get? ⟨"known", none⟩ := by
  have hdropped : ChangedOff .model ⟨"known", none⟩ (scaledTrials.take 1) scaledTrials :=
    .keep _ (.add _ (by decide) .nil)
  refine ⟨?_, ?_, ?_⟩
  · rw [(groupsApart scaledOptions).entry scaledTrials ⟨"unknown", none⟩ (by decide)]
    rfl
  · exact (groupsApart scaledOptions).other _ _ scaledOptions _ hdropped ⟨rfl, rfl, rfl, rfl⟩
  · exact ((groupsApart scaledOptions).constants _ _ "unknown" 5 (by decide)).1

end CheckerTrials
