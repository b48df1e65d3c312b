import CheckerTrials.Proofs.Reachability.Families
import CheckerTrials.Reachability.MethodTable

/-!
# Tables that are made in one pass

The table of kinds and the table of families are defined number by number, each of them a count or a mean over the
instances.  Here they are made in the way in which one goes through a document once: what has been counted of every
row is kept, and each instance is added to the rows that it says something about.  Both ways come to the same tables
(`MethodTable.of_eq_pass`, `familyTable_eq_pass`).

* `KindCount.addInstance` and `FamilyCount.addInstance`: what an instance adds to a row.
* `foldl_addInstance_kind` and `foldl_addInstance_family`: what has been counted after some instances.
* `MethodTable.pass` and `FamilyTable.pass`: all rows at once.
-/

set_option autoImplicit false

namespace CheckerTrials

/-- The complete analysis tells the number of all states or not, whatever it counts as when it is missing. -/
theorem completeStates?_eq (r : Results) (missing : Failure) :
    (r.completeOr missing).exploration?.bind Exploration.states = r.completeStates? := by
  rw [Results.completeOr, Results.completeStates?]
  cases r.complete <;> rfl

/-! ## A kind of experiments -/

/-- What has been counted of a kind of experiments. -/
structure KindCount where
  /-- How many experiments failed. -/
  failures : Nat
  /-- How many finished where the number of all states is not known. -/
  successes : Nat
  /-- How long the finished ones took. -/
  times : List Float
  /-- The numbers of states that they explored. -/
  states : List Float
  /-- The shares of all states, where their number is known. -/
  fractions : List Float

namespace KindCount

/-- Nothing has been counted yet. -/
def zero : KindCount := ⟨0, 0, [], [], []⟩

/-- Adds an outcome on an instance with so many states, if their number is known. -/
def add (c : KindCount) (o : Outcome) (completeStates : Option Nat) : KindCount :=
  match o.exploration? with
  | none => { c with failures := c.failures + 1 }
  | some e =>
    let states := Float.ofNat (e.coreStates.getD 0)
    let c := { c with times := c.times ++ [e.time], states := c.states ++ [states] }
    match completeStates with
    | some n => { c with fractions := c.fractions ++ [states / Float.ofNat n] }
    | none => { c with successes := c.successes + 1 }

/-- Adds what an instance says about a kind. -/
def addInstance (k : Kind) (c : KindCount) (i : Instance) : KindCount :=
  match i.outcome? k with
  | some o => c.add o ((i.results.completeOr .timeout).exploration?.bind Exploration.states)
  | none => c

/-- The row of what has been counted on `total` instances. -/
def row (c : KindCount) (total : Nat) (k : Kind) : MethodRow where
  kind := k
  meanTime := Quantity.mean? c.times
  meanStates := Quantity.mean? c.states
  meanFraction := Quantity.mean? c.fractions
  failureRate := shareOf total c.failures
  successRate := shareOf total c.successes

end KindCount

/-- What a tally has counted. -/
def Tally.counted (t : Tally) : KindCount :=
  ⟨t.failures, t.successes, t.finished.map Finish.time, t.finished.map Finish.states,
    t.finished.filterMap Finish.fraction⟩

/-- What instances say about a kind; for all instances of a document it is the `tally`. -/
def tallyOf (instances : List Instance) (k : Kind) : Tally where
  failures := instances.countP fun i => i.hasFailed k
  finished := instances.filterMap fun i => i.finish? k

/-- **An instance is added** to a tally. -/
theorem addInstance_counted (instances : List Instance) (i : Instance) (k : Kind) :
    (tallyOf instances k).counted.addInstance k i = (tallyOf (instances ++ [i]) k).counted := by
  have hfailed : i.hasFailed k = (i.outcome? k).any Outcome.isFailure := rfl
  have hfinish : i.finish? k = ((i.outcome? k).bind Outcome.exploration?).map fun e =>
      Finish.of e i.results.completeStates? := by
    rw [Instance.finish?]
    cases i.outcome? k with
    | none => rfl
    | some o => cases o <;> rfl
  rw [KindCount.addInstance, completeStates?_eq]
  generalize i.results.completeStates? = states at hfinish ⊢
  cases houtcome : i.outcome? k with
  | none =>
    rw [houtcome] at hfinish hfailed
    simp [tallyOf, Tally.counted, Tally.successes, hfinish, hfailed]
  | some o =>
    rw [houtcome] at hfinish hfailed
    cases o with
    | failed f =>
      simp [tallyOf, Tally.counted, Tally.successes, hfinish, hfailed, KindCount.add, Outcome.exploration?,
        Outcome.isFailure]
    | done e =>
      cases states <;>
        simp [tallyOf, Tally.counted, Tally.successes, hfinish, hfailed, KindCount.add, Outcome.exploration?,
          Outcome.isFailure, Finish.of]

/-- **A pass has counted** what the instances say that it has seen. -/
theorem foldl_addInstance_kind (instances : List Instance) (k : Kind) :
    instances.foldl (KindCount.addInstance k) .zero = (tallyOf instances k).counted := by
  induction instances using List.reverseRecOn with
  | nil => rfl
  | append_singleton instances i ih => rw [List.foldl_concat, ih, addInstance_counted]

/-- Rows that are made side by side are made each on its own. -/
theorem foldl_zipWith {ι γ β : Type} (step : ι → γ → β → γ) (ks : List ι) (start : ι → γ) (xs : List β) :
    xs.foldl (fun cs x => List.zipWith (fun k c => step k c x) ks cs) (ks.map start) =
      ks.map fun k => xs.foldl (step k) (start k) := by
  induction xs generalizing start with
  | nil => rfl
  | cons x rest ih =>
    rw [List.foldl_cons, List.zipWith_map_right, List.zipWith_self, ih]
    rfl

namespace MethodTable

/-- Adds an instance to the rows of all kinds. -/
def passStep (counted : Nat × List KindCount) (i : Instance) : Nat × List KindCount :=
  (counted.1 + 1, List.zipWith (fun k c => c.addInstance k i) Kind.all counted.2)

/-- The table of kinds, made in one pass. -/
def pass (d : Document) : MethodTable :=
  let counted := d.instances.foldl passStep (0, Kind.all.map fun _ => .zero)
  { total := counted.1
    rows := List.zipWith (fun k c => c.row counted.1 k) Kind.all counted.2 }

theorem foldl_passStep (instances : List Instance) (total : Nat) (counts : List KindCount) :
    instances.foldl passStep (total, counts) = (total + instances.length,
      instances.foldl (fun cs i => List.zipWith (fun k c => c.addInstance k i) Kind.all cs) counts) := by
  induction instances generalizing total counts with
  | nil => rfl
  | cons i rest ih =>
    rw [List.foldl_cons, passStep, ih, List.length_cons, List.foldl_cons, Nat.add_assoc, Nat.add_comm 1]

/-- **The table of kinds** is what one pass over the instances makes of them. -/
theorem of_eq_pass (d : Document) : MethodTable.of d = pass d := by
  simp only [pass, foldl_passStep, Nat.zero_add, foldl_zipWith KindCount.addInstance, foldl_addInstance_kind,
    List.zipWith_map_right, List.zipWith_self]
  rfl

end MethodTable

/-! ## A family -/

/-- What has been counted of a heuristic in a family. -/
structure HeuristicCount where
  /-- How often it failed or was not tried. -/
  failures : Nat
  /-- How often it finished where the number of all states is not known. -/
  successes : Nat
  /-- The shares of all states that it needed. -/
  ratios : List Float

namespace HeuristicCount

/-- Nothing has been counted yet. -/
def zero : HeuristicCount := ⟨0, 0, []⟩

/-- Adds what a finished experiment reports, if there is one, on an instance with so many states, if their number is
known. -/
def add (c : HeuristicCount) : Option Exploration → Option Nat → HeuristicCount
  | none, _ => { c with failures := c.failures + 1, ratios := c.ratios ++ [1] }
  | some _, none => { c with successes := c.successes + 1 }
  | some e, some n => { c with ratios := c.ratios ++ [Float.ofNat (e.coreStates.getD 0) / Float.ofNat n] }

/-- The cell of what has been counted. -/
def cell (c : HeuristicCount) (h : Heuristic) : HeuristicCell := ⟨h, Quantity.mean? c.ratios, c.failures, c.successes⟩

end HeuristicCount

/-- **A pass has counted** of a heuristic what its cell says. -/
theorem cell_foldl_add (instances : List Instance) (h : Heuristic) :
    (instances.foldl (fun c i => c.add (i.results.unbounded? h) i.results.completeStates?) .zero :
      HeuristicCount).cell h = .of instances h := by
  suffices hcounted : (instances.foldl (fun c i => c.add (i.results.unbounded? h) i.results.completeStates?) .zero :
      HeuristicCount) = ⟨(HeuristicCell.of instances h).failures, (HeuristicCell.of instances h).successes,
        (instances.map fun i => i.saving h).filterMap Saving.ratio?⟩ by
    rw [hcounted]
    rfl
  induction instances using List.reverseRecOn with
  | nil => rfl
  | append_singleton instances i ih =>
    rw [List.foldl_concat, ih]
    have hsaving : i.saving h = match i.results.unbounded? h, i.results.completeStates? with
      | none, _ => .failed
      | some _, none => .rescued
      | some e, some states => .ratio (Float.ofNat (e.coreStates.getD 0) / Float.ofNat states) := rfl
    cases hunbounded : i.results.unbounded? h with
    | none =>
      rw [hunbounded] at hsaving
      simp [HeuristicCell.of, HeuristicCount.add, hsaving, Saving.ratio?]
    | some e =>
      cases hstates : i.results.completeStates? <;> rw [hunbounded, hstates] at hsaving <;>
        simp [HeuristicCell.of, HeuristicCount.add, hsaving, Saving.ratio?]

/-- What has been counted of a family. -/
structure FamilyCount where
  /-- The number of instances. -/
  count : Nat
  /-- The numbers of all states, where they are known. -/
  completeStates : List Float
  /-- How often the complete analysis failed or is missing. -/
  failures : Nat
  /-- The numbers of components, where they are known. -/
  components : List Nat
  /-- What has been counted of every heuristic. -/
  heuristics : List HeuristicCount

namespace FamilyCount

/-- Nothing has been counted yet. -/
def zero : FamilyCount := ⟨0, [], 0, [], Heuristic.all.map fun _ => .zero⟩

/-- Adds what a complete analysis says. -/
def addComplete (c : FamilyCount) (complete : Outcome) : FamilyCount :=
  match complete.exploration? with
  | none => { c with failures := c.failures + 1 }
  | some e => { c with
      completeStates := c.completeStates ++ (e.states.map Float.ofNat).toList
      components := c.components ++ (e.components.map Components.count).toList }

/-- Adds what an instance says, but for its number. -/
def addInstance (c : FamilyCount) (i : Instance) : FamilyCount :=
  let complete := i.results.completeOr .generic
  let states := complete.exploration?.bind Exploration.states
  let c := c.addComplete complete
  { c with heuristics := List.zipWith (fun h t => t.add (i.results.unbounded? h) states) Heuristic.all c.heuristics }

/-- Adds the instances of a model. -/
def addAll (c : FamilyCount) (instances : List Instance) : FamilyCount :=
  instances.foldl addInstance { c with count := c.count + instances.length }

/-- The row of what has been counted. -/
def row (c : FamilyCount) (family : String) : FamilyRow where
  family := family
  count := c.count
  meanStates := Quantity.mean? c.completeStates
  failures := c.failures
  meanComponents := Quantity.mean? (c.components.map Float.ofNat)
  mostComponents := c.components.max?
  heuristics := List.zipWith (fun h t => t.cell h) Heuristic.all c.heuristics

/-- What has been counted of a family with these instances. -/
def of (instances : List Instance) : FamilyCount where
  count := instances.length
  completeStates := (instances.filterMap fun i => i.results.completeStates?).map Float.ofNat
  failures := instances.countP fun i => (i.results.completeOr .generic).isFailure
  components := componentCounts instances
  heuristics := Heuristic.all.map fun h =>
    instances.foldl (fun c i => c.add (i.results.unbounded? h) i.results.completeStates?) .zero

theorem row_of (instances : List Instance) (family : String) :
    (of instances).row family = FamilyRow.of family instances := by
  simp only [row, of, List.zipWith_map_right, List.zipWith_self, cell_foldl_add]
  rfl

theorem componentCounts_concat (instances : List Instance) (i : Instance) :
    componentCounts (instances ++ [i]) = componentCounts instances ++
      (((i.results.completeOr .generic).exploration?.bind Exploration.components).map Components.count).toList := by
  rw [componentCounts, List.filterMap_append, ← componentCounts, Results.completeOr]
  refine congrArg (componentCounts instances ++ ·) ?_
  cases hcomplete : i.results.complete with
  | none => simp [hcomplete, Outcome.exploration?]
  | some o =>
    cases o with
    | failed f => simp [hcomplete, Outcome.exploration?]
    | done e => cases hcomponents : e.components <;> simp [hcomplete, hcomponents, Outcome.exploration?]

/-- What the complete analysis says does not touch what has been counted of the heuristics. -/
theorem addComplete_of (instances : List Instance) (i : Instance) (count : Nat) :
    addComplete { of instances with count } (i.results.completeOr .generic) =
      { of (instances ++ [i]) with count, heuristics := (of instances).heuristics } := by
  have hstates := completeStates?_eq i.results .generic
  have hcomponents := componentCounts_concat instances i
  rw [addComplete]
  cases hcomplete : (i.results.completeOr .generic).exploration? with
  | none =>
    rw [hcomplete, Option.bind_none] at hstates hcomponents
    simp [of, hcomponents, ← hstates, Outcome.isFailure, hcomplete]
  | some e =>
    rw [hcomplete, Option.bind_some] at hstates hcomponents
    cases hknown : e.states <;> rw [hknown] at hstates <;>
      simp [of, hcomponents, ← hstates, hknown, Outcome.isFailure, hcomplete]

/-- **An instance is added** to a family. -/
theorem addInstance_of (instances : List Instance) (i : Instance) (count : Nat) :
    addInstance { of instances with count } i = { of (instances ++ [i]) with count } := by
  have hheuristics : List.zipWith (fun h t => HeuristicCount.add t (i.results.unbounded? h) i.results.completeStates?)
      Heuristic.all (of instances).heuristics = (of (instances ++ [i])).heuristics := by
    simp only [of, List.zipWith_map_right, List.zipWith_self, List.foldl_concat]
  rw [addInstance, addComplete_of, completeStates?_eq, hheuristics]

/-- So are the instances of a model. -/
theorem addAll_of (instances more : List Instance) : (of instances).addAll more = of (instances ++ more) := by
  have hfold : ∀ count, more.foldl addInstance { of instances with count } = { of (instances ++ more) with count } := by
    intro count
    induction more generalizing instances with
    | nil => rw [List.append_nil, List.foldl_nil]
    | cons i rest ih => rw [List.foldl_cons, addInstance_of, ih, List.append_assoc, List.singleton_append]
  rw [addAll, hfold]
  simp [of]

end FamilyCount

/-! ## All families -/

namespace FamilyTable

/-- What has been counted of every family. -/
abbrev Counted := List (String × FamilyCount)

/-- Adds the instances of a model to its family, which must be known. -/
def passStep (counted : Counted) (p : String × List Instance) : Except FamilyError Counted :=
  match familyOf? p.1 with
  | none => .error (.unknownModel p.1)
  | some name => .ok (counted.map fun r => if r.1 = name then (r.1, r.2.addAll p.2) else r)

/-- The table of families, made in one pass. -/
def pass (d : Document) : Except FamilyError (List FamilyRow) := do
  let counted ← d.entries.foldlM passStep (families.map fun f => (f.name, .zero))
  return sortBy FamilyRow.compare ((counted.filter fun r => 0 < r.2.count).map fun r => r.2.row r.1)

/-- **A pass has counted** of every family the instances of its models. -/
theorem foldlM_passStep (names : List String) (seen : String → List Instance)
    (entries : List (String × List Instance)) :
    entries.foldlM passStep (names.map fun name => (name, .of (seen name))) =
      (entries.mapM withFamily).map fun models =>
        names.map fun name => (name, .of (seen name ++ instancesOf name models)) := by
  induction entries generalizing seen with
  | nil =>
    refine congrArg Except.ok (List.map_congr_left fun name _ => ?_)
    simp [instancesOf]
  | cons p rest ih =>
    rw [List.foldlM_cons, List.mapM_cons, passStep, withFamily]
    cases hname : familyOf? p.1 with
    | none => rfl
    | some family =>
      have hadd : ((names.map fun name => (name, FamilyCount.of (seen name))).map fun r =>
          if r.1 = family then (r.1, r.2.addAll p.2) else r) =
          names.map fun name => (name, .of (seen name ++ instancesOf name [(family, p.2)])) := by
        rw [List.map_map]
        refine List.map_congr_left fun name _ => ?_
        by_cases hfamily : name = family
        · simp [hfamily, FamilyCount.addAll_of, instancesOf]
        · simp [hfamily, Ne.symm hfamily, instancesOf]
      simp only [hadd, bind_ok, ih]
      cases rest.mapM withFamily with
      | error e => rfl
      | ok models =>
        refine congrArg Except.ok (List.map_congr_left fun name _ => ?_)
        rw [List.append_assoc, instancesOf, instancesOf, instancesOf, ← List.flatMap_append, ← List.filter_append,
          List.singleton_append]

end FamilyTable

/-- **The table of families** is what one pass over the document makes of it, and both fail for the same model. -/
theorem familyTable_eq_pass (d : Document) : familyTable d = FamilyTable.pass d := by
  have hzero : families.map (fun f => (f.name, FamilyCount.zero)) =
      (families.map Family.name).map fun name => (name, .of []) := by
    rw [List.map_map]
    rfl
  rw [FamilyTable.pass, hzero, FamilyTable.foldlM_passStep, familyTable, familiesOf_eq]
  cases d.entries.mapM withFamily with
  | error e => rfl
  | ok models =>
    refine congrArg (fun rows => Except.ok (sortBy FamilyRow.compare rows)) ?_
    simp only [List.map_map, List.filter_map, Function.comp_def, List.nil_append, FamilyCount.row_of]
    rfl

end CheckerTrials
