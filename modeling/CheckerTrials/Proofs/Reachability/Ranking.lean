import CheckerTrials.Proofs.Decimal.Order
import CheckerTrials.Proofs.Ordered.Stability
import CheckerTrials.Proofs.Reachability.Counts
import CheckerTrials.Proofs.Reachability.Families
import Mathlib.Data.List.Find
import Mathlib.Data.List.Nodup
import Mathlib.Data.List.Pairwise

/-!
# The ranking of the families

A row of the family table accounts for every instance of its family (`accounts_of`): each is counted, and it is
counted again among the failures of the complete analysis or of a heuristic exactly if the outcome is missing or
failed.  The rows stand in the order of `FamilyRow.Precedes`, which leaves nothing open
(`compare_eq_lt_iff_precedes`), since no family has two rows; so it does not matter in which order the families are
listed (`familyTableIn_eq_of_perm`).

All of this holds of every document whose models have families (`ranks_of_catalogued`).
-/

set_option autoImplicit false

namespace CheckerTrials

variable {d : Document} {rows : List FamilyRow} {instances : List Instance}

/-! ## What a row accounts for -/

/-- Whether the outcome of an experiment on an instance is missing or failed. -/
def Instance.lacks (i : Instance) (k : Kind) : Bool :=
  match i.results.get? k with
  | some (.done _) => false
  | _ => true

theorem lacks_eq_not_isFinished (i : Instance) (k : Kind) : i.lacks k = !i.isFinished k := by
  rw [Instance.lacks, Instance.isFinished]
  cases i.results.get? k with
  | none => rfl
  | some o => cases o <;> rfl

/-- An outcome is stored in the results of an instance, under its kind. -/
def Instance.Stores (i : Instance) (o : Outcome) : Kind → Prop
  | .complete => i.results.complete = some o
  | .unbounded h => (h.name, o) ∈ i.results.unbounded.entries
  | .bounded h steps => ∃ outcomes, (steps.repr, outcomes) ∈ i.results.bounded.entries ∧ (h.name, o) ∈ outcomes.entries

/-- **What is found under a kind** is what is stored there. -/
theorem get?_eq_some_iff_stores {i : Instance} {k : Kind} {o : Outcome} :
    i.results.get? k = some o ↔ i.Stores o k := by
  cases k with
  | complete => exact Iff.rfl
  | unbounded h => exact OrderedMap.get?_eq_some_iff
  | bounded h steps => simp only [Results.get?, Instance.Stores, Option.bind_eq_some_iff, OrderedMap.get?_eq_some_iff]

/-- **An outcome is not missing or failed** if one that is done is stored. -/
theorem lacks_eq_false_iff {i : Instance} {k : Kind} : i.lacks k = false ↔ ∃ e, i.Stores (.done e) k := by
  simp only [← get?_eq_some_iff_stores]
  rw [Instance.lacks]
  cases i.results.get? k with
  | none => simp
  | some o => cases o <;> simp

/-- Whether the complete analysis of an instance reports a number of components. -/
def Instance.ReportsComponents (i : Instance) (n : Nat) : Prop :=
  ∃ e c, i.results.complete = some (.done e) ∧ e.components = some c ∧ c.count = n

theorem mem_componentCounts_iff {n : Nat} :
    n ∈ componentCounts instances ↔ ∃ i ∈ instances, i.ReportsComponents n := by
  rw [componentCounts, List.mem_filterMap]
  refine exists_congr fun i => and_congr_right fun _ => ?_
  rw [Instance.ReportsComponents]
  cases hcomplete : i.results.complete with
  | none => simp
  | some o =>
    cases o with
    | failed f => simp [Outcome.exploration?]
    | done e => cases hcomponents : e.components <;> simp [Outcome.exploration?, hcomponents]

/-- What a cell says about the outcomes of a heuristic on instances. -/
structure HeuristicCell.Accounts (c : HeuristicCell) (instances : List Instance) : Prop where
  /-- It failed wherever it is missing or failed. -/
  failures : c.failures = instances.countP fun i => i.lacks (.unbounded c.heuristic)
  /-- It succeeded wherever it finished and the complete analysis does not tell the number of states. -/
  successes : c.successes =
    instances.countP fun i => !i.lacks (.unbounded c.heuristic) && i.results.completeStates?.isNone
  /-- It did not do both. -/
  disjoint : c.failures + c.successes ≤ instances.length
  /-- There is a mean share unless it succeeded everywhere. -/
  meanRatio_eq_none_iff : c.meanRatio = none ↔ c.successes = instances.length

theorem accounts_cell (instances : List Instance) (h : Heuristic) :
    (HeuristicCell.of instances h).Accounts instances := by
  have hfailures : (HeuristicCell.of instances h).failures = instances.countP fun i => i.lacks (.unbounded h) := by
    simp only [failures_cell, lacks_eq_not_isFinished]
  have hsuccesses : (HeuristicCell.of instances h).successes =
      instances.countP fun i => !i.lacks (.unbounded h) && i.results.completeStates?.isNone := by
    simp only [successes_cell, lacks_eq_not_isFinished, Bool.not_not]
    rfl
  refine ⟨hfailures, hsuccesses, ?_, ?_⟩
  · have htotal := List.length_eq_countP_add_countP (fun i : Instance => i.lacks (.unbounded h)) (l := instances)
    have hle : (HeuristicCell.of instances h).successes ≤
        instances.countP fun i => ! i.lacks (.unbounded h) := by
      rw [hsuccesses]
      exact List.countP_mono_left fun i _ hi => (Bool.and_eq_true_iff.1 hi).1
    simp only [Bool.not_eq_true, Bool.decide_eq_false] at htotal
    omega
  · have hsavings : (HeuristicCell.of instances h).successes =
        (instances.map fun i => i.saving h).countP fun s => s == .rescued := rfl
    have hmean : (HeuristicCell.of instances h).meanRatio =
        Quantity.mean? ((instances.map fun i => i.saving h).filterMap Saving.ratio?) := rfl
    rw [hmean, Quantity.mean?_eq_none_iff, List.filterMap_eq_nil_iff, hsavings, List.countP_map,
      List.countP_eq_length, List.forall_mem_map]
    refine forall₂_congr fun i _ => ?_
    rw [Function.comp_apply]
    cases i.saving h <;> simp [Saving.ratio?]

/-- What a row says about the outcomes on the instances of its family. -/
structure FamilyRow.Accounts (r : FamilyRow) (instances : List Instance) : Prop where
  /-- It counts all of them. -/
  count : r.count = instances.length
  /-- The complete analysis failed wherever it is missing or failed. -/
  failures : r.failures = instances.countP fun i => i.lacks .complete
  /-- There is a cell for every heuristic. -/
  heuristics : r.heuristics.map HeuristicCell.heuristic = Heuristic.all
  /-- Each of the cells accounts for the instances. -/
  cells : ∀ c ∈ r.heuristics, c.Accounts instances
  /-- The mean share is that of all cells, and a cell without one counts as 1. -/
  meanRatio : r.meanRatio = Quantity.mean (r.heuristics.map fun c => c.meanRatio.getD 1)
  /-- Nothing is saved where that is nearly 1 and 1 is the greatest number of components. -/
  isHopeless_iff : r.isHopeless = true ↔ 0.999 ≤ r.meanRatio ∧
    (∃ i ∈ instances, i.ReportsComponents 1) ∧ ∀ i ∈ instances, ∀ n, i.ReportsComponents n → n ≤ 1

/-- **A row** accounts for all instances of its family. -/
theorem accounts_of (family : String) (instances : List Instance) :
    (FamilyRow.of family instances).Accounts instances where
  count := rfl
  failures := by
    rw [failures_row]
    simp only [hasFailed_complete, lacks_eq_not_isFinished]
  heuristics := rfl
  cells c hc := by
    obtain ⟨h, -, rfl⟩ := List.mem_map.1 hc
    exact accounts_cell instances h
  meanRatio := rfl
  isHopeless_iff := by
    have hmost : (FamilyRow.of family instances).mostComponents = (componentCounts instances).max? := rfl
    rw [FamilyRow.isHopeless, Bool.and_eq_true_iff, decide_eq_true_iff, beq_iff_eq, hmost,
      List.max?_eq_some_iff, mem_componentCounts_iff]
    refine and_congr_right fun _ => and_congr_right fun _ => ?_
    simp only [mem_componentCounts_iff, forall_exists_index, and_imp]
    exact ⟨fun h i hi n hn => h n i hi hn, fun h n i hi hn => h i hi n hn⟩

/-! ## The order of the rows -/

/-- Whether a row stands in front of another one: it is not hopeless while the other is, or else its mean share is
smaller, or else its family comes first. -/
def FamilyRow.Precedes (a b : FamilyRow) : Prop :=
  a.isHopeless = false ∧ b.isHopeless = true ∨
    a.isHopeless = b.isHopeless ∧
      (Decimal.orderKey a.meanRatio < Decimal.orderKey b.meanRatio ∨
        Decimal.orderKey a.meanRatio = Decimal.orderKey b.meanRatio ∧ a.family < b.family)

theorem compare_eq_lt_iff_precedes {a b : FamilyRow} : FamilyRow.compare a b = .lt ↔ a.Precedes b := by
  have hhopeless : compare a.isHopeless b.isHopeless = .lt ↔ a.isHopeless = false ∧ b.isHopeless = true := by
    cases a.isHopeless <;> cases b.isHopeless <;> decide
  have hfamily : compare a.family b.family = .lt ↔ a.family < b.family := compareOfLessAndEq_eq_lt
  rw [FamilyRow.compare, FamilyRow.Precedes, Ordering.then_eq_lt, Ordering.then_eq_lt, Ordering.then_eq_eq,
    hhopeless, hfamily, compare_eq_iff_eq, Decimal.totalOrder, Int.compare_eq_lt, Int.compare_eq_eq,
    or_assoc, and_assoc, ← and_or_left]

/-- A row in front of another one has no greater mean share, unless the other one is hopeless. -/
theorem FamilyRow.Precedes.not_meanRatio_lt {a b : FamilyRow} (h : a.Precedes b)
    (hb : a.isHopeless = b.isHopeless) : ¬ b.meanRatio < a.meanRatio := by
  intro hlt
  have hkey := Decimal.orderKey_lt_of_lt hlt
  rcases h with ⟨hfalse, htrue⟩ | ⟨-, hlt | ⟨heq, -⟩⟩
  · rw [hfalse, htrue] at hb
    cases hb
  · exact Int.lt_asymm hkey hlt
  · exact Int.lt_irrefl _ (heq ▸ hkey)

/-- Two rows that compare as equal are of the same family. -/
theorem family_eq_of_compare {a b : FamilyRow} (h : FamilyRow.compare a b = .eq) : a.family = b.family := by
  rw [FamilyRow.compare, Ordering.then_eq_eq] at h
  exact Std.LawfulEqCmp.eq_of_compare h.2

instance : Std.TransCmp FamilyRow.compare :=
  inferInstanceAs (Std.TransCmp (compareLex
    (compareLex (compareOn FamilyRow.isHopeless) (compareOn fun r => Decimal.orderKey r.meanRatio))
    (compareOn FamilyRow.family)))

/-- Rows of different families are sorted without leaving anything open. -/
theorem pairwise_precedes_sortBy {rows : List FamilyRow} (h : (rows.map FamilyRow.family).Nodup) :
    (sortBy FamilyRow.compare rows).Pairwise FamilyRow.Precedes := by
  have hlt : (sortBy FamilyRow.compare rows).Pairwise fun a b => FamilyRow.compare a b = .lt :=
    pairwise_lt_sortBy (fun _ _ => family_eq_of_compare) h
  exact hlt.imp compare_eq_lt_iff_precedes.1

/-! ## The order of the catalogue -/

/-- The name of the family that a model file belongs to in a catalogue of families. -/
def familyIn? (catalogue : List Family) (file : String) : Option String :=
  (catalogue.find? fun family => family.files.contains file).map Family.name

/-- The table of families for a catalogue of families. -/
def familyTableIn (catalogue : List Family) (d : Document) : Except FamilyError (List FamilyRow) := do
  let models ← d.entries.mapM fun (file, instances) =>
    match familyIn? catalogue file with
    | some name => .ok (name, instances)
    | none => .error (.unknownModel file)
  let rows := catalogue.map fun f => FamilyRow.of f.name (instancesOf f.name models)
  return sortBy FamilyRow.compare (rows.filter fun r => 0 < r.count)

/-- The table of families is the one for the families there are. -/
theorem familyTable_eq_familyTableIn (d : Document) : familyTable d = familyTableIn families d := rfl

/-- No file is listed twice. -/
theorem nodup_files : (families.flatMap Family.files).Nodup := by decide +kernel

/-- No file belongs to two families. -/
theorem eq_of_mem_files {f g : Family} (hf : f ∈ families) (hg : g ∈ families) {file : String}
    (hfile : file ∈ f.files) (hfile' : file ∈ g.files) : f = g := by
  by_contra hne
  have hsymm : Std.Symm (Function.onFun List.Disjoint Family.files) := ⟨fun _ _ h => h.symm⟩
  exact (List.nodup_flatMap.1 nodup_files).2.forall hf hg hne hfile hfile'

/-- **The order of the catalogue** does not matter. -/
theorem familyTableIn_eq_of_perm {catalogue : List Family} (h : catalogue.Perm families) (d : Document) :
    familyTableIn catalogue d = familyTable d := by
  have hfamily : familyIn? catalogue = familyIn? families := by
    funext file
    rw [familyIn?, familyIn?, List.find?_eq_find?_of_perm h]
    rintro f ⟨hf, hfile⟩ g ⟨hg, hfile'⟩
    exact eq_of_mem_files (h.mem_iff.1 hf) (h.mem_iff.1 hg) (List.contains_iff_mem.1 hfile)
      (List.contains_iff_mem.1 hfile')
  rw [familyTable_eq_familyTableIn, familyTableIn, familyTableIn, hfamily]
  refine congrArg _ (funext fun models => congrArg Except.ok ?_)
  -- a row is determined by the family that it is of
  refine sortBy_eq_of_perm_of_eq ((h.map _).filter _) fun a ha b hb hab => ?_
  obtain ⟨f, -, rfl⟩ := List.mem_map.1 (List.mem_of_mem_filter ha)
  obtain ⟨g, -, rfl⟩ := List.mem_map.1 (List.mem_of_mem_filter hb)
  have hname : f.name = g.name := family_eq_of_compare hab
  rw [hname]

/-! ## The whole table -/

/-- The rows of a document: they account for every instance, and they are in order. -/
structure Document.Ranks (d : Document) (rows : List FamilyRow) : Prop where
  /-- There is a row for every family with instances, and for no other one. -/
  families : ∀ name, name ∈ rows.map FamilyRow.family ↔ d.instancesIn name ≠ []
  /-- No family has two. -/
  nodup : (rows.map FamilyRow.family).Nodup
  /-- Each row accounts for the instances of its family. -/
  accounts : ∀ r ∈ rows, r.Accounts (d.instancesIn r.family)
  /-- All rows together count every instance of the document. -/
  total : (rows.map FamilyRow.count).sum = d.instances.length
  /-- Each row stands in front of all that follow. -/
  ordered : rows.Pairwise FamilyRow.Precedes
  /-- Mean shares do not become smaller until the hopeless rows begin, nor do they after that. -/
  ascending : rows.Pairwise fun a b => a.isHopeless = b.isHopeless → ¬ b.meanRatio < a.meanRatio
  /-- The rows are the same if the families are listed in another order. -/
  independent : ∀ catalogue : List Family, catalogue.Perm CheckerTrials.families →
    familyTableIn catalogue d = .ok rows

/-- A family with instances is one of the catalogue. -/
theorem mem_families_of_instancesIn {name : String} (h : d.instancesIn name ≠ []) :
    name ∈ families.map Family.name := by
  obtain ⟨i, hi⟩ := List.exists_mem_of_ne_nil _ h
  obtain ⟨p, hp, -⟩ := List.mem_flatMap.1 hi
  exact mem_families_of_familyOf? (beq_iff_eq.1 (List.mem_filter.1 hp).2)

/-- **A document whose models have families** has a table of them. -/
theorem ranks_of_catalogued (h : ∀ file ∈ d.keys, ∃ name, familyOf? file = some name) :
    ∃ rows, familyTable d = .ok rows ∧ d.Ranks rows := by
  have hfirst : d.firstUncatalogued? = none := by
    refine List.find?_eq_none.2 fun file hfile => ?_
    obtain ⟨name, hname⟩ := h file hfile
    simp [hname]
  have htable : familyTable d = .ok d.familyRows := by
    rw [familyTable_eq, Document.ofCatalogued, hfirst]
  have hordered : d.familyRows.Pairwise FamilyRow.Precedes := by
    refine pairwise_precedes_sortBy ?_
    refine (List.filter_sublist.map FamilyRow.family).nodup ?_
    rw [List.map_map]
    exact nodup_families
  refine ⟨d.familyRows, htable, ?_⟩
  exact {
    families := fun name => by
      rw [List.mem_map]
      constructor
      · rintro ⟨r, hr, rfl⟩
        exact ((mem_rows_iff htable).1 hr).2.1
      · intro hne
        exact ⟨.of name (d.instancesIn name),
          (mem_rows_iff htable).2 ⟨mem_families_of_instancesIn hne, hne, rfl⟩, rfl⟩
    nodup := nodup_family_rows htable
    accounts := fun r hr => by
      have hrow := ((mem_rows_iff htable).1 hr).2.2
      have haccounts := accounts_of r.family (d.instancesIn r.family)
      rwa [← hrow] at haccounts
    total := by rw [sum_rows htable count_row, List.countP_true]
    ordered := hordered
    ascending := hordered.imp fun hprecedes hb => hprecedes.not_meanRatio_lt hb
    independent := fun catalogue hperm => by rw [familyTableIn_eq_of_perm hperm, htable] }

/-- A document in which the family that comes first in the catalogue saves nothing. -/
def contrastedDocument : Document :=
  .ofList [
    ("brp.pm", [⟨"N=16", (Results.empty.insert .complete (.done ⟨1, some 100, none, some ⟨1, none⟩⟩))⟩]),
    ("nand.pm", [⟨"N=20", .empty⟩,
      ⟨"N=40", (Results.empty.insert .complete (.done ⟨1, some 100, none, some ⟨3, none⟩⟩)).insert
        (.unbounded .weighted) (.done ⟨1, none, some 40, none⟩)⟩])]

example : (familyTable contrastedDocument).map (fun rows => rows.map FamilyRow.family) = .ok ["nand", "brp"] := by
  decide +kernel

/-- The table of a document of two families. -/
theorem ranks_of_contrastedDocument :
    ∃ rows, familyTable contrastedDocument = .ok rows ∧ contrastedDocument.Ranks rows :=
  ranks_of_catalogued fun file hfile => Option.isSome_iff_exists.1 <|
    (by decide +kernel : ∀ file ∈ contrastedDocument.keys, (familyOf? file).isSome = true) file hfile

end CheckerTrials
