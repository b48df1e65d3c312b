import CheckerTrials.Proofs.Success
import CheckerTrials.Proofs.Summary.Groups
import CheckerTrials.Reachability.FamilyTable
import Mathlib.Algebra.BigOperators.Group.List.Basic

/-!
# Families split the instances of a document

If every model of a document belongs to a family, then each instance is in exactly one of the rows of the
family table.  So what is counted in the rows adds up to what is counted over the whole document
(`sum_rows`), and a row counts the instances of the models that the catalogue puts into its family
(`mem_rows_iff`).  If a model belongs to none, the first one in the order of the document is to blame
(`familiesOf_eq_error_iff`).
-/

set_option autoImplicit false

namespace CheckerTrials

variable {d : Document} {models : List (String × List Instance)} {rows : List FamilyRow}

/-- The first model of a document, in the order of the names, that belongs to no family. -/
def Document.firstUncatalogued? (d : Document) : Option String :=
  d.keys.find? fun file => (familyOf? file).isNone

/-- The instances of the models that belong to a family. -/
def Document.instancesIn (d : Document) (family : String) : List Instance :=
  (d.entries.filter fun p => familyOf? p.1 == some family).flatMap (·.2)

/-! ## The family of every model -/

/-- The instances of a model with the name of its family. -/
def withFamily (p : String × List Instance) : Except FamilyError (String × List Instance) :=
  match familyOf? p.1 with
  | some name => .ok (name, p.2)
  | none => .error (.unknownModel p.1)

theorem familiesOf_eq (d : Document) : familiesOf d = d.entries.mapM withFamily := rfl

theorem withFamily_eq_ok_iff {p q : String × List Instance} :
    withFamily p = .ok q ↔ familyOf? p.1 = some q.1 ∧ p.2 = q.2 := by
  rw [withFamily]
  cases h : familyOf? p.1 with
  | none => simp
  | some name => simp [Prod.ext_iff]

theorem withFamily_eq_error_iff {p : String × List Instance} {e : FamilyError} :
    withFamily p = .error e ↔ familyOf? p.1 = none ∧ e = .unknownModel p.1 := by
  rw [withFamily]
  cases h : familyOf? p.1 with
  | none => simp [eq_comm]
  | some name => simp

/-- Every model has a family if its name can be replaced by that of a family. -/
theorem familiesOf_eq_ok_iff :
    familiesOf d = .ok models ↔
      d.entries.map (fun p => (familyOf? p.1, p.2)) = models.map fun q => (some q.1, q.2) := by
  rw [familiesOf_eq, mapM_eq_ok_iff, ← List.forall₂_eq_eq_eq, ← List.forall₂_eq_eq_eq,
    List.forall₂_map_left_iff, List.forall₂_map_right_iff, List.forall₂_map_left_iff,
    List.forall₂_map_right_iff]
  simp only [withFamily_eq_ok_iff, Prod.mk.injEq]

/-- **The first model without a family** is named when there is one. -/
theorem familiesOf_eq_error_iff {e : FamilyError} :
    familiesOf d = .error e ↔ ∃ file, d.firstUncatalogued? = some file ∧ e = .unknownModel file := by
  have hfails : ∀ p : String × List Instance, (!(withFamily p).isOk) = (familyOf? p.1).isNone := by
    intro p
    rw [withFamily]
    cases familyOf? p.1 <;> rfl
  rw [familiesOf_eq, mapM_eq_error_iff, Document.firstUncatalogued?, OrderedMap.keys, List.find?_map]
  simp only [hfails, withFamily_eq_error_iff]
  constructor
  · rintro ⟨p, hfind, -, rfl⟩
    exact ⟨p.1, by rw [Function.comp_def, hfind, Option.map_some], rfl⟩
  · rintro ⟨file, hfind, rfl⟩
    obtain ⟨p, hp, rfl⟩ := Option.map_eq_some_iff.1 hfind
    exact ⟨p, hp, by simpa using List.find?_some hp, rfl⟩

/-! ## The instances of a family -/

theorem nodup_families : (families.map Family.name).Nodup := by decide

/-- Only names of families are found. -/
theorem mem_families_of_familiesOf (h : familiesOf d = .ok models) :
    ∀ q ∈ models, q.1 ∈ families.map Family.name := by
  intro q hq
  have hmem : (some q.1, q.2) ∈ d.entries.map fun p => (familyOf? p.1, p.2) := by
    rw [familiesOf_eq_ok_iff.1 h]
    exact List.mem_map_of_mem hq
  obtain ⟨p, -, hp⟩ := List.mem_map.1 hmem
  exact mem_families_of_familyOf? (congrArg Prod.fst hp)

/-- The instances stay as they are. -/
theorem flatMap_of_familiesOf (h : familiesOf d = .ok models) :
    models.flatMap (·.2) = d.instances := by
  have hvalues := congrArg (List.map Prod.snd) (familiesOf_eq_ok_iff.1 h)
  rw [List.map_map, List.map_map] at hvalues
  rw [Document.instances, OrderedMap.values, List.flatMap]
  exact congrArg List.flatten hvalues.symm

/-- The instances that come under the name of a family are those of its models. -/
theorem instancesOf_eq (h : familiesOf d = .ok models) (name : String) :
    instancesOf name models = d.instancesIn name := by
  have hsplit : ∀ es : List (Option String × List Instance), ∀ fs : List (String × List Instance),
      es = fs.map (fun q => (some q.1, q.2)) →
        (fs.filter fun q => q.1 == name).flatMap (·.2) =
          (es.filter fun p => p.1 == some name).flatMap (·.2) := by
    rintro es fs rfl
    rw [List.filter_map, List.flatMap_map]
    rfl
  rw [instancesOf, hsplit _ _ (familiesOf_eq_ok_iff.1 h), List.filter_map, List.flatMap_map]
  rfl

/-- **Every instance is in one family.**  What is counted family by family adds up to what is counted in
all of them together. -/
theorem sum_countP_instancesOf {names : List String} (hnodup : names.Nodup)
    (hnames : ∀ q ∈ models, q.1 ∈ names) (p : Instance → Bool) :
    (names.map fun name => (instancesOf name models).countP p).sum =
      (models.flatMap (·.2)).countP p := by
  induction models with
  | nil => simp [instancesOf]
  | cons q rest ih =>
    have hcons : ∀ name, (instancesOf name (q :: rest)).countP p =
        (if q.1 = name then q.2.countP p else 0) + (instancesOf name rest).countP p := by
      intro name
      rw [instancesOf, List.filter_cons]
      by_cases hname : q.1 = name
      · rw [if_pos (by simpa using hname), if_pos hname, List.flatMap_cons, List.countP_append]
        rfl
      · rw [if_neg (by simpa using hname), if_neg hname, Nat.zero_add]
        rfl
    simp only [hcons]
    rw [List.sum_map_add, sum_map_ite_eq hnodup (hnames q List.mem_cons_self),
      ih fun r hr => hnames r (List.mem_cons_of_mem q hr), List.flatMap_cons, List.countP_append]

/-! ## The rows of the table -/

theorem familyTable_eq_ok_iff :
    familyTable d = .ok rows ↔ ∃ models, familiesOf d = .ok models ∧
      rows = sortBy FamilyRow.compare
        ((families.map fun f => FamilyRow.of f.name (instancesOf f.name models)).filter
          fun r => 0 < r.count) := by
  rw [familyTable, bind_eq_ok_iff]
  refine exists_congr fun models => and_congr_right fun _ => ?_
  exact ⟨fun h => (Except.ok.inj h).symm, fun h => congrArg Except.ok h.symm⟩

/-- The table fails for want of a family only. -/
theorem familyTable_eq_error_iff {e : FamilyError} :
    familyTable d = .error e ↔ familiesOf d = .error e := by
  rw [familyTable, bind_eq_error_iff]
  exact or_iff_left fun ⟨_, _, h⟩ => nomatch h

/-- The rows of the families that have instances, in their order. -/
def Document.familyRows (d : Document) : List FamilyRow :=
  sortBy FamilyRow.compare
    ((families.map fun f => FamilyRow.of f.name (d.instancesIn f.name)).filter fun r => 0 < r.count)

/-- What is made of a document if every model has a family, or else the first model without one. -/
def Document.ofCatalogued {α : Type} (d : Document) (a : α) : Except FamilyError α :=
  match d.firstUncatalogued? with
  | some file => .error (.unknownModel file)
  | none => .ok a

/-- If there is no first model without a family, each has one. -/
theorem exists_familiesOf (h : d.firstUncatalogued? = none) : ∃ models, familiesOf d = .ok models := by
  cases hmodels : familiesOf d with
  | ok models => exact ⟨models, rfl⟩
  | error e =>
    obtain ⟨file, hfile, -⟩ := familiesOf_eq_error_iff.1 hmodels
    rw [h] at hfile
    cases hfile

/-- **The table of families** has the rows of a document whose models all have families. -/
theorem familyTable_eq (d : Document) : familyTable d = d.ofCatalogued d.familyRows := by
  rw [Document.ofCatalogued]
  cases hfirst : d.firstUncatalogued? with
  | some file => exact familyTable_eq_error_iff.2 (familiesOf_eq_error_iff.2 ⟨file, hfirst, rfl⟩)
  | none =>
    obtain ⟨models, hmodels⟩ := exists_familiesOf hfirst
    refine familyTable_eq_ok_iff.2 ⟨models, hmodels, ?_⟩
    simp only [Document.familyRows, instancesOf_eq hmodels]

/-- **The rows** are those of the families that have instances, each with all of them. -/
theorem mem_rows_iff (h : familyTable d = .ok rows) {r : FamilyRow} :
    r ∈ rows ↔ r.family ∈ families.map Family.name ∧ d.instancesIn r.family ≠ [] ∧
      r = .of r.family (d.instancesIn r.family) := by
  obtain ⟨models, hmodels, rfl⟩ := familyTable_eq_ok_iff.1 h
  rw [mem_sortBy, List.mem_filter, List.mem_map]
  simp only [instancesOf_eq hmodels]
  constructor
  · rintro ⟨⟨f, hf, rfl⟩, hcount⟩
    exact ⟨List.mem_map_of_mem hf, List.length_pos_iff.1 (decide_eq_true_iff.1 hcount), rfl⟩
  · rintro ⟨hname, hne, hr⟩
    obtain ⟨f, hf, hfamily⟩ := List.mem_map.1 hname
    refine ⟨⟨f, hf, by rw [hfamily, ← hr]⟩, ?_⟩
    have hcount : r.count = (d.instancesIn r.family).length := congrArg FamilyRow.count hr
    rw [decide_eq_true_iff, hcount]
    exact List.length_pos_iff.2 hne

/-- No family has two rows. -/
theorem nodup_family_rows (h : familyTable d = .ok rows) : (rows.map FamilyRow.family).Nodup := by
  obtain ⟨models, -, rfl⟩ := familyTable_eq_ok_iff.1 h
  refine ((perm_sortBy _ _).map _).nodup_iff.2 ?_
  refine (List.filter_sublist.map FamilyRow.family).nodup ?_
  rw [List.map_map]
  exact nodup_families

/-- **What is counted in the rows adds up** to what is counted over the document. -/
theorem sum_rows (h : familyTable d = .ok rows) {g : FamilyRow → Nat} {p : Instance → Bool}
    (hg : ∀ name instances, g (FamilyRow.of name instances) = instances.countP p) :
    (rows.map g).sum = d.instances.countP p := by
  obtain ⟨models, hmodels, rfl⟩ := familyTable_eq_ok_iff.1 h
  rw [← flatMap_of_familiesOf hmodels,
    ← sum_countP_instancesOf nodup_families (mem_families_of_familiesOf hmodels)]
  -- a row that was left out counts nothing
  have hfilter : ∀ all : List FamilyRow, (∀ r ∈ all, ∃ name instances, r = .of name instances) →
      ((all.filter fun r => 0 < r.count).map g).sum = (all.map g).sum := by
    intro all hall
    induction all with
    | nil => rfl
    | cons r rest ih =>
      have hrest := ih fun s hs => hall s (List.mem_cons_of_mem r hs)
      obtain ⟨name, instances, hr⟩ := hall r List.mem_cons_self
      rw [List.filter_cons]
      split
      · rw [List.map_cons, List.map_cons, List.sum_cons, List.sum_cons, hrest]
      · rename_i hcount
        have hnil : instances = [] := by
          rw [hr, decide_eq_true_iff] at hcount
          exact List.length_eq_zero_iff.1 (Nat.eq_zero_of_not_pos hcount)
        rw [List.map_cons, List.sum_cons, hrest, hr, hg, hnil, List.countP_nil, Nat.zero_add]
  rw [((perm_sortBy _ _).map g).sum_nat, hfilter, List.map_map, List.map_map]
  · exact congrArg List.sum (List.map_congr_left fun f _ => hg f.name _)
  · intro r hr
    obtain ⟨f, -, rfl⟩ := List.mem_map.1 hr
    exact ⟨_, _, rfl⟩

end CheckerTrials
