import CheckerTrials.Proofs.Decimal.Digits
import CheckerTrials.Proofs.Ordered.Keys
import CheckerTrials.Proofs.Reachability.Collecting

/-!
# Results by kind

Each kind of experiment has its own place in the results of an instance, since the names of heuristics and the digits
of step bounds can be told apart (`get?_insert`).  So of what is put in one after the other, the last outcome of a
kind is the one that is found under it (`get?_addAll`), and there is nothing else in the results
(`byKind_addAll`): two results that hold the same under every kind are equal (`ByKind.ext`).
-/

set_option autoImplicit false

namespace CheckerTrials

theorem Heuristic.name_inj {g h : Heuristic} : g.name = h.name ↔ g = h :=
  ⟨fun e => Option.some.inj (by rw [← ofName?_name g, e, ofName?_name]), congrArg name⟩

theorem Decimal.repr_inj {m n : Nat} : m.repr = n.repr ↔ m = n :=
  ⟨fun h => repr_toList_inj (congrArg String.toList h), congrArg Nat.repr⟩

namespace Results

/-! ## What is found -/

/-- **Putting in an outcome** changes what is found under its kind only. -/
theorem get?_insert (r : Results) (k l : Kind) (o : Outcome) :
    (r.insert k o).get? l = if l = k then some o else r.get? l := by
  cases k with
  | complete => cases l <;> simp [insert, get?]
  | unbounded g =>
    cases l with
    | complete => simp [insert, get?]
    | unbounded h => simp [insert, get?, OrderedMap.get?_insert, Heuristic.name_inj]
    | bounded h n => simp [insert, get?]
  | bounded g m =>
    cases l with
    | complete => simp [insert, get?]
    | unbounded h => simp [insert, get?]
    | bounded h n =>
      simp only [insert, get?, OrderedMap.get?_insert, Decimal.repr_inj, Kind.bounded.injEq]
      by_cases hsteps : n = m
      · simp only [hsteps, and_true, if_true, Option.bind_some, OrderedMap.get?_insert, Heuristic.name_inj,
          OrderedMap.get?_getD_empty]
      · simp only [hsteps, and_false, if_false]

/-- What an experiment adds to a kind. -/
def outcomeFor (k : Kind) (c : Option (Kind × Outcome)) : Option Outcome :=
  c.bind fun c => if c.1 = k then some c.2 else none

theorem outcomeFor_eq_some_iff {k : Kind} {c : Option (Kind × Outcome)} {o : Outcome} :
    outcomeFor k c = some o ↔ c = some (k, o) := by
  cases c with
  | none => simp [outcomeFor]
  | some c => simp [outcomeFor, Prod.ext_iff]

theorem addAll_append_singleton (r : Results) (cs : List (Option (Kind × Outcome))) (c : Option (Kind × Outcome)) :
    r.addAll (cs ++ [c]) = c.elim (r.addAll cs) fun c => (r.addAll cs).insert c.1 c.2 := by
  rw [addAll, List.filterMap_append, List.foldl_append]
  cases c <;> rfl

/-- **Of all that was put in**, the last outcome of a kind is found. -/
theorem get?_addAll (cs : List (Option (Kind × Outcome))) (k : Kind) :
    (empty.addAll cs).get? k = cs.reverse.findSome? (outcomeFor k) := by
  induction cs using List.reverseRecOn with
  | nil => cases k <;> rfl
  | append_singleton cs c ih =>
    rw [addAll_append_singleton, List.reverse_append, List.reverse_singleton, List.singleton_append,
      List.findSome?_cons]
    cases c with
    | none => exact ih
    | some c =>
      rw [Option.elim_some, get?_insert, outcomeFor, Option.bind_some, ih]
      by_cases hk : k = c.1
      · rw [if_pos hk, if_pos hk.symm]
      · rw [if_neg hk, if_neg (Ne.symm hk)]

/-! ## All there is -/

/-- Results in which everything stands under a kind. -/
structure ByKind (r : Results) : Prop where
  /-- Without a bound, it stands under the name of a heuristic. -/
  unbounded : ∀ name o, r.unbounded.get? name = some o → ∃ h : Heuristic, name = h.name
  /-- With a bound, it stands under that number and then under the name of a heuristic, and there is no number with
  nothing under it. -/
  bounded : ∀ steps outcomes, r.bounded.get? steps = some outcomes →
    (∃ n : Nat, steps = n.repr) ∧ outcomes.keys ≠ [] ∧
      ∀ name o, outcomes.get? name = some o → ∃ h : Heuristic, name = h.name

theorem byKind_empty : empty.ByKind := ⟨fun _ _ => nofun, fun _ _ => nofun⟩

/-- What is put in stands under its kind. -/
theorem ByKind.insert {r : Results} (hr : r.ByKind) (k : Kind) (o : Outcome) : (r.insert k o).ByKind := by
  cases k with
  | complete => exact ⟨hr.unbounded, hr.bounded⟩
  | unbounded h =>
    refine ⟨fun name o' hget => ?_, hr.bounded⟩
    rw [Results.insert, OrderedMap.get?_insert] at hget
    split at hget
    · rename_i hname
      exact ⟨h, hname⟩
    · exact hr.unbounded name o' hget
  | bounded h n =>
    refine ⟨hr.unbounded, fun steps outcomes hget => ?_⟩
    rw [Results.insert] at hget
    dsimp only at hget
    rw [OrderedMap.get?_insert] at hget
    split at hget
    · rename_i hsteps
      cases hget
      refine ⟨⟨n, hsteps⟩, fun hnil => ?_, fun name o' hname => ?_⟩
      · have hself := OrderedMap.get?_insert_self ((r.bounded.get? n.repr).getD ∅) h.name o
        rw [OrderedMap.get?_eq_none_iff.2 (by rw [hnil]; exact List.not_mem_nil)] at hself
        cases hself
      · rw [OrderedMap.get?_insert] at hname
        split at hname
        · rename_i heq
          exact ⟨h, heq⟩
        · rw [OrderedMap.get?_getD_empty] at hname
          obtain ⟨before, hbefore, hname⟩ := Option.bind_eq_some_iff.1 hname
          exact (hr.bounded _ before hbefore).2.2 name o' hname
    · exact hr.bounded steps outcomes hget

/-- **All that was put in** stands under its kind. -/
theorem byKind_addAll (cs : List (Option (Kind × Outcome))) : (empty.addAll cs).ByKind := by
  induction cs using List.reverseRecOn with
  | nil => exact byKind_empty
  | append_singleton cs c ih =>
    rw [addAll_append_singleton]
    cases c with
    | none => exact ih
    | some c => exact ih.insert c.1 c.2

theorem ByKind.unbounded_eq {r s : Results} (hr : r.ByKind) (hs : s.ByKind) (h : ∀ k, r.get? k = s.get? k) :
    r.unbounded = s.unbounded := by
  refine OrderedMap.ext_get? fun name => Option.ext fun o => ⟨fun hname => ?_, fun hname => ?_⟩
  · obtain ⟨g, rfl⟩ := hr.unbounded name o hname
    exact (h (.unbounded g)).symm.trans hname
  · obtain ⟨g, rfl⟩ := hs.unbounded name o hname
    exact (h (.unbounded g)).trans hname

/-- Outcomes with a bound are found in other results too, if the same is found under all kinds. -/
theorem ByKind.get?_bounded {r s : Results} (hr : r.ByKind) (hs : s.ByKind) (h : ∀ k, r.get? k = s.get? k)
    {steps : String} {outcomes : OrderedMap String Outcome} (hget : r.bounded.get? steps = some outcomes) :
    s.bounded.get? steps = some outcomes := by
  obtain ⟨⟨n, rfl⟩, hne, hnames⟩ := hr.bounded steps outcomes hget
  have hsame : ∀ g : Heuristic, outcomes.get? g.name = (s.bounded.get? n.repr).bind fun os => os.get? g.name := by
    intro g
    have hkind := h (.bounded g n)
    simpa only [Results.get?, hget, Option.bind_some] using hkind
  obtain ⟨name, hname⟩ := List.exists_mem_of_ne_nil _ hne
  have hsome : outcomes.get? name ≠ none := fun hnone => OrderedMap.get?_eq_none_iff.1 hnone hname
  obtain ⟨o, ho⟩ := Option.ne_none_iff_exists'.1 hsome
  obtain ⟨g, rfl⟩ := hnames name o ho
  rw [hsame g] at ho
  obtain ⟨others, hothers, -⟩ := Option.bind_eq_some_iff.1 ho
  simp only [hothers, Option.bind_some] at hsame
  rw [hothers]
  refine congrArg some (OrderedMap.ext_get? fun name => Option.ext fun o => ⟨fun ho => ?_, fun ho => ?_⟩)
  · obtain ⟨f, rfl⟩ := (hs.bounded _ others hothers).2.2 name o ho
    rwa [hsame f]
  · obtain ⟨f, rfl⟩ := hnames name o ho
    rwa [← hsame f]

/-- **Nothing but what is found under the kinds** makes up results in which everything stands under a kind. -/
theorem ByKind.ext {r s : Results} (hr : r.ByKind) (hs : s.ByKind) (h : ∀ k, r.get? k = s.get? k) : r = s := by
  have hbounded : r.bounded = s.bounded := OrderedMap.ext_get? fun steps => Option.ext fun outcomes =>
    ⟨hr.get?_bounded hs h, hs.get?_bounded hr fun k => (h k).symm⟩
  have hcomplete : r.complete = s.complete := h .complete
  have hunbounded := hr.unbounded_eq hs h
  cases r
  cases s
  cases hcomplete
  cases hunbounded
  cases hbounded
  rfl

end Results

end CheckerTrials
