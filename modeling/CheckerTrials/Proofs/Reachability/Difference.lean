import CheckerTrials.Proofs.Ordered.Keys
import CheckerTrials.Proofs.Reachability.Collecting

/-!
# Documents that differ in one place

* `Results.AgreeOff`: results that differ in the entries of some kinds at most.  If all that is different in what was
  put in is of these kinds, the results agree off them (`AgreeOff.addAll_middle`).
* `Document.DifferAt`: documents that differ in such a way in one instance of one model, and nowhere else.  Lists that
  do make documents that do (`DifferAt.ofList`).
-/

set_option autoImplicit false

namespace CheckerTrials

/-- Results that differ at most in the entries of some kinds. -/
structure Results.AgreeOff (kinds : List Kind) (r s : Results) : Prop where
  /-- The complete analysis. -/
  complete : .complete ∉ kinds → s.complete = r.complete
  /-- The analyses without a bound. -/
  unbounded : ∀ name, (∀ h, .unbounded h ∈ kinds → h.name ≠ name) →
    s.unbounded.get? name = r.unbounded.get? name
  /-- The analyses with a bound. -/
  bounded : ∀ steps name, (∀ h n, .bounded h n ∈ kinds → n.repr = steps → h.name ≠ name) →
    (s.bounded.get? steps).bind (·.get? name) = (r.bounded.get? steps).bind (·.get? name)
  /-- Whether there are analyses with a bound, and all of them where no kind has that bound. -/
  steps : ∀ steps, (∀ h n, .bounded h n ∈ kinds → n.repr ≠ steps) → s.bounded.get? steps = r.bounded.get? steps

namespace Results.AgreeOff

variable {kinds : List Kind} {r s t : Results}

theorem refl (kinds : List Kind) (r : Results) : r.AgreeOff kinds r :=
  ⟨fun _ => rfl, fun _ _ => rfl, fun _ _ _ => rfl, fun _ _ => rfl⟩

theorem symm (h : r.AgreeOff kinds s) : s.AgreeOff kinds r :=
  ⟨fun hk => (h.complete hk).symm, fun name hk => (h.unbounded name hk).symm,
    fun steps name hk => (h.bounded steps name hk).symm, fun steps hk => (h.steps steps hk).symm⟩

theorem trans (h : r.AgreeOff kinds s) (h' : s.AgreeOff kinds t) : r.AgreeOff kinds t :=
  ⟨fun hk => (h'.complete hk).trans (h.complete hk),
    fun name hk => (h'.unbounded name hk).trans (h.unbounded name hk),
    fun steps name hk => (h'.bounded steps name hk).trans (h.bounded steps name hk),
    fun steps hk => (h'.steps steps hk).trans (h.steps steps hk)⟩

/-- Results go on to agree when the same is put in. -/
theorem insert (h : r.AgreeOff kinds s) (k : Kind) (o : Outcome) :
    (r.insert k o).AgreeOff kinds (s.insert k o) := by
  cases k with
  | complete => exact ⟨fun _ => rfl, h.unbounded, h.bounded, h.steps⟩
  | unbounded g =>
    refine ⟨h.complete, fun name hk => ?_, h.bounded, h.steps⟩
    simp only [Results.insert, OrderedMap.get?_insert, h.unbounded name hk]
  | bounded g n =>
    refine ⟨h.complete, h.unbounded, fun steps name hk => ?_, fun steps hk => ?_⟩
    · simp only [Results.insert, OrderedMap.get?_insert]
      split
      · rename_i hsteps
        simp only [Option.bind_some, OrderedMap.get?_insert, OrderedMap.get?_getD_empty, ← hsteps,
          h.bounded steps name hk]
      · exact h.bounded steps name hk
    · simp only [Results.insert, OrderedMap.get?_insert]
      split
      · rename_i hsteps
        rw [← hsteps, h.steps steps hk]
      · exact h.steps steps hk

/-- What is put in for one of the kinds makes no other difference. -/
theorem insert_self {k : Kind} (hk : k ∈ kinds) (r : Results) (o : Outcome) : r.AgreeOff kinds (r.insert k o) := by
  cases k with
  | complete => exact ⟨fun h => absurd hk h, fun _ _ => rfl, fun _ _ _ => rfl, fun _ _ => rfl⟩
  | unbounded g =>
    refine ⟨fun _ => rfl, fun name h => ?_, fun _ _ _ => rfl, fun _ _ => rfl⟩
    simp only [Results.insert, OrderedMap.get?_insert, if_neg (h g hk).symm]
  | bounded g n =>
    refine ⟨fun _ => rfl, fun _ _ => rfl, fun steps name h => ?_, fun steps h => ?_⟩
    · simp only [Results.insert, OrderedMap.get?_insert]
      split
      · rename_i hsteps
        simp only [Option.bind_some, OrderedMap.get?_insert, OrderedMap.get?_getD_empty,
          if_neg (h g n hk hsteps.symm).symm, ← hsteps]
      · rfl
    · simp only [Results.insert, OrderedMap.get?_insert, if_neg (h g n hk).symm]

theorem addAll (h : r.AgreeOff kinds s) (cs : List (Option (Kind × Outcome))) :
    (r.addAll cs).AgreeOff kinds (s.addAll cs) := by
  rw [Results.addAll, Results.addAll]
  induction cs.filterMap id generalizing r s with
  | nil => exact h
  | cons c rest ih => exact ih (h.insert c.1 c.2)

/-- **Results agree off the kinds of what is different** in what was put in. -/
theorem addAll_middle (r : Results) (before after : List (Option (Kind × Outcome)))
    {x y : Option (Kind × Outcome)} (hx : ∀ c ∈ x, c.1 ∈ kinds) (hy : ∀ c ∈ y, c.1 ∈ kinds) :
    (r.addAll (before ++ x :: after)).AgreeOff kinds (r.addAll (before ++ y :: after)) := by
  have hone : ∀ z : Option (Kind × Outcome), (∀ c ∈ z, c.1 ∈ kinds) → ∀ q : Results,
      (q.addAll after).AgreeOff kinds (q.addAll (z :: after)) := by
    intro z hz q
    cases z with
    | none => exact .refl kinds _
    | some c => exact (insert_self (hz c rfl) q c.2).addAll after
  have happend : ∀ z, r.addAll (before ++ z :: after) = (r.addAll before).addAll (z :: after) := fun z => by
    rw [Results.addAll, List.filterMap_append, List.foldl_append]
    rfl
  rw [happend, happend]
  exact (hone x hx _).symm.trans (hone y hy _)

end Results.AgreeOff

/-- Documents that differ in one instance of one model at most, and there in the entries of some kinds. -/
structure Document.DifferAt (model : String) (place : Nat) (kinds : List Kind) (doc doc' : Document) : Prop where
  /-- All other models are the same. -/
  other : ∀ name, name ≠ model → doc'.get? name = doc.get? name
  /-- The model has the same instances, but for the one at that place. -/
  inside : ∃ before i after j, doc.get? model = some (before ++ i :: after) ∧
    doc'.get? model = some (before ++ j :: after) ∧ before.length = place ∧
    j.constants = i.constants ∧ i.results.AgreeOff kinds j.results

/-- Documents differ like that if they are made of lists that do, and the model does not come again. -/
theorem Document.DifferAt.ofList {model : String} {kinds : List Kind} {i j : Instance}
    (first : List (String × List Instance)) (front back : List Instance) {last : List (String × List Instance)}
    (hlater : model ∉ last.map Prod.fst)
    (hconstants : j.constants = i.constants) (hresults : i.results.AgreeOff kinds j.results) :
    Document.DifferAt model front.length kinds (OrderedMap.ofList (first ++ (model, front ++ i :: back) :: last))
      (OrderedMap.ofList (first ++ (model, front ++ j :: back) :: last)) := by
  have hmodel := OrderedMap.get?_ofList_of_not_mem (β := List Instance) hlater first
  refine ⟨fun name hne => ?_, front, i, back, j, hmodel _, hmodel _, rfl, hconstants, hresults⟩
  rw [OrderedMap.get?_ofList_middle, OrderedMap.get?_ofList_middle, if_neg hne, if_neg hne]

end CheckerTrials
