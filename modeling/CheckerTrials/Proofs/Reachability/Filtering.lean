import CheckerTrials.Proofs.Decimal.Means
import CheckerTrials.Proofs.Ordered.Keys
import CheckerTrials.Proofs.Reachability.Counts
import CheckerTrials.Reachability.Nontrivial

/-!
# What is left without trivial instances

An instance is left out if its complete analysis did not finish, or if it found one component with all states.  That
the component has all states is seen from two numbers that need not be told, its size and the number of states.  If
one of them is missing, they are different, but if both are, they are taken to be the same (`IsOneComponent.untold`),
so that an instance is left out of which only the number of components is known (`not_kept_of_untold`).

What is left of a document is left in its order (`Document.Filters`), and in its table no complete analysis has
failed.
-/

set_option autoImplicit false

namespace CheckerTrials

variable {d : Document} {i : Instance} {e : Exploration} {file : String}

/-! ## Trivial instances -/

/-- **One component is taken to have all states.** -/
inductive IsOneComponent (e : Exploration) : Prop
  /-- Its size is the number of states, as a double. -/
  | spanning (c : Components) (size : Float) (states : Nat) (hcomponents : e.components = some c) (hcount : c.count = 1)
    (hsize : c.averageSize = some size) (hstates : e.states = some states) (heq : (size == Float.ofNat states) = true)
  /-- Neither its size nor the number of states is told. -/
  | untold (c : Components) (hcomponents : e.components = some c) (hcount : c.count = 1) (hsize : c.averageSize = none)
    (hstates : e.states = none)

theorem beq_option_iff {x y : Option Float} : (x == y) = true ↔
    x = none ∧ y = none ∨ ∃ a b, x = some a ∧ y = some b ∧ (a == b) = true := by
  cases x <;> cases y <;> simp

theorem isOneComponent_iff : e.isOneComponent = true ↔ IsOneComponent e := by
  have hparts : e.isOneComponent = true ↔
      ∃ c, e.components = some c ∧ c.count = 1 ∧ (c.averageSize == e.states.map Float.ofNat) = true := by
    rw [Exploration.isOneComponent]
    cases e.components <;> simp
  rw [hparts]
  simp only [beq_option_iff, Option.map_eq_none_iff, Option.map_eq_some_iff]
  constructor
  · rintro ⟨c, hcomponents, hcount, ⟨hsize, hstates⟩ | ⟨size, _, hsize, ⟨states, hstates, rfl⟩, heq⟩⟩
    · exact .untold c hcomponents hcount hsize hstates
    · exact .spanning c size states hcomponents hcount hsize hstates heq
  · rintro (⟨c, size, states, hcomponents, hcount, hsize, hstates, heq⟩ | ⟨c, hcomponents, hcount, hsize, hstates⟩)
    · exact ⟨c, hcomponents, hcount, .inr ⟨size, _, hsize, ⟨states, hstates, rfl⟩, heq⟩⟩
    · exact ⟨c, hcomponents, hcount, .inl ⟨hsize, hstates⟩⟩

theorem isNontrivial_iff : i.isNontrivial = true ↔
    ∃ e, i.results.complete = some (.done e) ∧ ¬ IsOneComponent e := by
  rw [Instance.isNontrivial]
  cases hcomplete : i.results.complete with
  | none => simp
  | some o =>
    cases o with
    | failed f => simp
    | done e => simp [← isOneComponent_iff]

theorem hasFailed_complete_of_isNontrivial (h : i.isNontrivial = true) : i.hasFailed .complete = false := by
  obtain ⟨e, he, -⟩ := isNontrivial_iff.1 h
  rw [hasFailed_complete, Instance.isFinished, Results.get?, he]
  rfl

/-! ## What is left -/

/-- What is left of a model. -/
theorem get?_nontrivial (d : Document) (file : String) : d.nontrivial.get? file =
    (d.get? file).bind fun all =>
      if (all.filter Instance.isNontrivial).isEmpty then none else some (all.filter Instance.isNontrivial) := by
  rw [Document.nontrivial, OrderedMap.get?_filterMapValues]

theorem get?_nontrivial_eq_some_iff {kept : List Instance} : d.nontrivial.get? file = some kept ↔
    ∃ all, d.get? file = some all ∧ kept = all.filter Instance.isNontrivial ∧ kept ≠ [] := by
  rw [get?_nontrivial, Option.bind_eq_some_iff]
  refine exists_congr fun all => and_congr_right fun _ => ?_
  split
  · rename_i hempty
    rw [List.isEmpty_iff] at hempty
    simp [hempty]
  · rename_i hempty
    rw [List.isEmpty_iff] at hempty
    constructor
    · rintro ⟨⟩
      exact ⟨rfl, hempty⟩
    · rintro ⟨rfl, -⟩
      rfl

/-- Nothing more is left out a second time. -/
theorem nontrivial_nontrivial (d : Document) : d.nontrivial.nontrivial = d.nontrivial := by
  refine OrderedMap.ext_get? fun file => ?_
  rw [get?_nontrivial, get?_nontrivial, Option.bind_assoc]
  congr 1
  funext all
  split
  · rfl
  · rename_i hempty
    rw [Option.bind_some, List.filter_filter]
    simp only [Bool.and_self]
    rw [if_neg hempty]

/-- The instances that are left are those of all models together that are not trivial. -/
theorem instances_nontrivial (d : Document) : d.nontrivial.instances = d.instances.filter Instance.isNontrivial := by
  rw [Document.instances, Document.instances, OrderedMap.values, OrderedMap.values, Document.nontrivial,
    OrderedMap.filterMapValues]
  dsimp only
  induction d.entries with
  | nil => rfl
  | cons p rest ih =>
    rw [List.map_cons, List.flatten_cons, List.filter_append, ← ih]
    by_cases hempty : (p.2.filter Instance.isNontrivial).isEmpty = true
    · rw [List.filterMap_cons_none (by rw [if_pos hempty, Option.map_none]), List.isEmpty_iff.1 hempty, List.nil_append]
    · rw [List.filterMap_cons_some (by rw [if_neg hempty, Option.map_some]), List.map_cons, List.flatten_cons]

/-- **What is left of a document** without its trivial instances. -/
structure Document.Filters (d : Document) : Prop where
  /-- An instance is worth comparing if its complete analysis finished and did not find one component. -/
  nontrivial_iff : ∀ i : Instance, i.isNontrivial = true ↔
    ∃ e, i.results.complete = some (.done e) ∧ ¬ IsOneComponent e
  /-- Those of a model are left to it, in their order, if there are any. -/
  kept_iff : ∀ file kept, d.nontrivial.get? file = some kept ↔
    ∃ all, d.get? file = some all ∧ kept = all.filter Instance.isNontrivial ∧ kept ≠ []
  /-- A model is left exactly if one of its instances is. -/
  mem_keys_iff : ∀ file, file ∈ d.nontrivial.keys ↔ ∃ all, d.get? file = some all ∧ ∃ i ∈ all, i.isNontrivial = true
  /-- Nothing more is left out a second time. -/
  idempotent : d.nontrivial.nontrivial = d.nontrivial
  /-- The table counts the instances that are left. -/
  total : (MethodTable.of d.nontrivial).total = d.instances.countP Instance.isNontrivial
  /-- No complete analysis of them has failed. -/
  failureRate : ∃ row, (MethodTable.of d.nontrivial).row? .complete = some row ∧ row.failureRate = 0

/-- No part of anything is the share of nothing. -/
theorem shareOf_zero (total : Nat) : shareOf total 0 = 0 := by
  rw [shareOf]
  split
  · rfl
  · rename_i htotal
    exact Decimal.zero_div_ofNat (Nat.pos_of_ne_zero htotal)

/-- **Exactly the trivial instances are left out**, where one is trivial too of which nothing is told. -/
theorem filters (d : Document) : d.Filters where
  nontrivial_iff _ := isNontrivial_iff
  kept_iff _ _ := get?_nontrivial_eq_some_iff
  mem_keys_iff file := by
    have hfilter : ∀ all : List Instance, all.filter Instance.isNontrivial ≠ [] ↔ ∃ i ∈ all, i.isNontrivial = true :=
      fun all => by simp [List.filter_eq_nil_iff]
    rw [← not_not (a := file ∈ d.nontrivial.keys), ← OrderedMap.get?_eq_none_iff, ← Ne, Option.ne_none_iff_exists']
    simp only [get?_nontrivial_eq_some_iff]
    constructor
    · rintro ⟨kept, all, hall, rfl, hne⟩
      exact ⟨all, hall, (hfilter all).1 hne⟩
    · rintro ⟨all, hall, hi⟩
      exact ⟨_, all, hall, rfl, (hfilter all).2 hi⟩
  idempotent := nontrivial_nontrivial d
  total := by rw [total_of, instances_nontrivial, List.countP_eq_length_filter]
  failureRate := by
    refine ⟨_, row?_of d.nontrivial List.mem_cons_self, ?_⟩
    have hfailures : (tally d.nontrivial .complete).failures = 0 := by
      rw [tally, instances_nontrivial, List.countP_eq_zero]
      intro i hi
      rw [hasFailed_complete_of_isNontrivial (List.mem_filter.1 hi).2]
      exact Bool.false_ne_true
    rw [MethodRow.of, hfailures, shareOf_zero]

/-- An instance of which a complete analysis tells that there is one component, and nothing else. -/
def untoldInstance : Instance := ⟨"", .insert .empty .complete (.done ⟨1, none, none, some ⟨1, none⟩⟩)⟩

/-- A document with that instance. -/
def bareDocument : Document := .ofList [("brp.pm", [untoldInstance])]

/-- **An instance can be left out of which nothing tells that it is trivial**: no size was told and no number of
states. -/
theorem not_kept_of_untold : ¬ ∀ (d : Document) (file : String) (all : List Instance), d.get? file = some all →
    ∀ i ∈ all, (∃ e, i.results.complete = some (.done e) ∧ ¬ ∃ c size states, e.components = some c ∧ c.count = 1 ∧
      c.averageSize = some size ∧ e.states = some states ∧ (size == Float.ofNat states) = true) →
      ∃ kept, d.nontrivial.get? file = some kept ∧ i ∈ kept := by
  intro h
  obtain ⟨kept, hkept, -⟩ := h bareDocument "brp.pm" [untoldInstance] (by decide +kernel) untoldInstance
    List.mem_cons_self ⟨_, rfl, fun ⟨_, _, _, _, _, _, hstates, _⟩ => nomatch hstates⟩
  have hnone : bareDocument.nontrivial.get? "brp.pm" = none := by decide +kernel
  rw [hnone] at hkept
  cases hkept

end CheckerTrials
