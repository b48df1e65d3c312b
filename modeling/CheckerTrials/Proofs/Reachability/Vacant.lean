import CheckerTrials.Proofs.Ordered.Keys
import CheckerTrials.Proofs.Reachability.Agreement
import CheckerTrials.Reachability.Comparison
import CheckerTrials.Reachability.Nontrivial

/-!
# Models without instances

A folder that holds no experiments is collected as a model without instances.  No table shows such a model, because
each of them can be made from the models with instances alone, which are `Document.occupied`: so the tables stay as
they are when a document gains models without instances.

Two of the tables look up the family of every model first, of those without instances too.  A document with a model
that belongs to no family has no table of families and no plot, and this is all that can be different
(`tables_of_paddedTo`, `not_tables_of_paddedTo`).
-/

set_option autoImplicit false

namespace CheckerTrials

variable {d d' : Document} {plotted : List String}

/-- A document that has gained models, none of them with an instance. -/
structure Document.PaddedTo (d d' : Document) : Prop where
  /-- The models that were there keep their instances. -/
  kept : ∀ file instances, d.get? file = some instances → d'.get? file = some instances
  /-- All others have none. -/
  added : ∀ file instances, d.get? file = none → d'.get? file = some instances → instances = []

/-! ## What is left without them -/

/-- The document without the models that have no instances. -/
def Document.occupied (d : Document) : Document := d.filter fun _ instances => !instances.isEmpty

/-- What is gained is left out again. -/
theorem Document.PaddedTo.occupied_eq (h : d.PaddedTo d') : d'.occupied = d.occupied := by
  refine OrderedMap.ext_get? fun file => ?_
  rw [Document.occupied, Document.occupied, OrderedMap.get?_filter, OrderedMap.get?_filter]
  cases hd : d.get? file with
  | some instances => rw [h.kept file instances hd]
  | none =>
    cases hd' : d'.get? file with
    | none => rfl
    | some instances =>
      rw [h.added file instances hd hd']
      rfl

/-- **What comes from the instances of models** comes from those that have some. -/
theorem flatMap_occupied {β : Type} (d : Document) (p : String × List Instance → Bool)
    {f : String × List Instance → List β} (hf : ∀ file, f (file, []) = []) :
    (d.occupied.entries.filter p).flatMap f = (d.entries.filter p).flatMap f := by
  rw [Document.occupied, OrderedMap.entries_filter]
  induction d.entries with
  | nil => rfl
  | cons q rest ih =>
    obtain ⟨file, instances⟩ := q
    cases instances with
    | nil =>
      rw [List.filter_cons_of_neg (by simp), ih, List.filter_cons]
      split
      · rw [List.flatMap_cons, hf, List.nil_append]
      · rfl
    | cons i more =>
      rw [List.filter_cons_of_pos (by simp), List.filter_cons, List.filter_cons]
      split
      · rw [List.flatMap_cons, List.flatMap_cons, ih]
      · exact ih

/-! ## The tables of a document -/

theorem instances_occupied (d : Document) : d.occupied.instances = d.instances := by
  have hflat := flatMap_occupied d (fun _ => true) (f := Prod.snd) fun _ => rfl
  rwa [List.filter_true, List.filter_true] at hflat

theorem instancesIn_occupied (d : Document) (family : String) :
    d.occupied.instancesIn family = d.instancesIn family :=
  flatMap_occupied d _ fun _ => rfl

theorem nontrivial_occupied (d : Document) : d.occupied.nontrivial = d.nontrivial := by
  refine OrderedMap.ext_get? fun file => ?_
  rw [Document.nontrivial, Document.nontrivial, Document.occupied]
  simp only [OrderedMap.get?_filterMapValues, OrderedMap.get?_filter]
  cases d.get? file with
  | none => rfl
  | some instances => cases instances <;> rfl

theorem methodTable_of_instances (h : d'.instances = d.instances) : MethodTable.of d' = MethodTable.of d := by
  have htally : tally d' = tally d := funext fun k => by rw [tally, tally, h]
  rw [MethodTable.of, MethodTable.of, htally, h]

theorem heuristicStats_of_instances (h : d'.instances = d.instances) : heuristicStats d' = heuristicStats d := by
  rw [heuristicStats, heuristicStats, h]

theorem familyRows_occupied (d : Document) : d.occupied.familyRows = d.familyRows := by
  simp only [Document.familyRows, instancesIn_occupied]

theorem points_occupied (d : Document) (plotted : List String) :
    d.occupied.points plotted = d.points plotted := by
  have hnil : ∀ file, familyPoints plotted (file, []) = [] := fun file => by
    rw [familyPoints]
    cases familyOf? file with
    | none => rfl
    | some name =>
      rw [Option.elim_some, pointsOf]
      cases plotted.idxOf? name <;> rfl
  have hflat := flatMap_occupied d (fun _ => true) hnil
  rwa [List.filter_true, List.filter_true] at hflat

/-! ## Models without a family -/

/-- Whether a document is rejected, and why, depends on the first model without a family. -/
theorem ofCatalogued_eq_iff {α : Type} (a : α) :
    d'.ofCatalogued a = d.ofCatalogued a ↔ d'.firstUncatalogued? = d.firstUncatalogued? := by
  rw [Document.ofCatalogued, Document.ofCatalogued]
  cases d'.firstUncatalogued? <;> cases d.firstUncatalogued? <;> simp

/-- The models of a document that belong to no family. -/
def Document.uncatalogued (d : Document) : Document := d.filter fun file _ => (familyOf? file).isNone

theorem head?_keys_uncatalogued (d : Document) : d.uncatalogued.keys.head? = d.firstUncatalogued? := by
  rw [Document.firstUncatalogued?, ← List.head?_filter, OrderedMap.keys, OrderedMap.keys, Document.uncatalogued,
    OrderedMap.entries_filter, List.filter_map]
  rfl

/-- A document that gains models of families goes on to have the same first model without one. -/
theorem Document.PaddedTo.firstUncatalogued?_eq (h : d.PaddedTo d')
    (hadded : ∀ file ∈ d'.keys, file ∉ d.keys → ∃ name, familyOf? file = some name) :
    d'.firstUncatalogued? = d.firstUncatalogued? := by
  have heq : d'.uncatalogued = d.uncatalogued := by
    refine OrderedMap.ext_get? fun file => ?_
    rw [Document.uncatalogued, Document.uncatalogued, OrderedMap.get?_filter, OrderedMap.get?_filter]
    cases hd : d.get? file with
    | some instances => rw [h.kept file instances hd]
    | none =>
      cases hd' : d'.get? file with
      | none => rfl
      | some instances =>
        have hkey : file ∈ d'.keys := List.mem_map_of_mem (OrderedMap.get?_eq_some_iff.1 hd')
        obtain ⟨name, hname⟩ := hadded file hkey (OrderedMap.get?_eq_none_iff.1 hd)
        simp [hname]
  rw [← head?_keys_uncatalogued, ← head?_keys_uncatalogued, heq]

/-! ## All tables -/

/-- What becomes of the tables of a document that has gained models without instances. -/
structure TablesKept (d d' : Document) : Prop where
  /-- The table of kinds is the same. -/
  kinds : MethodTable.of d' = MethodTable.of d
  /-- The heuristics compare in the same way. -/
  heuristics : heuristicStats d' = heuristicStats d
  /-- The instances worth comparing are the same, and so are their models. -/
  nontrivial : d'.nontrivial = d.nontrivial
  /-- The table of families is the same if the first model without a family is, and only then. -/
  families_iff : familyTable d' = familyTable d ↔ d'.firstUncatalogued? = d.firstUncatalogued?
  /-- So is the plot, whatever is plotted. -/
  pairs_iff : ∀ plotted, statePairs d' plotted = statePairs d plotted ↔
    d'.firstUncatalogued? = d.firstUncatalogued?
  /-- If there is such a model, it is named, and neither of the two is made. -/
  rejected : ∀ file, d'.firstUncatalogued? = some file →
    familyTable d' = .error (.unknownModel file) ∧ ∀ plotted, statePairs d' plotted = .error (.unknownModel file)
  /-- Models of families make no difference. -/
  catalogued : (∀ file ∈ d'.keys, file ∉ d.keys → ∃ name, familyOf? file = some name) →
    d'.firstUncatalogued? = d.firstUncatalogued?

/-- **Models without instances change no table**, unless one of them has no family. -/
theorem tables_of_paddedTo (h : d.PaddedTo d') : TablesKept d d' where
  kinds := methodTable_of_instances (by rw [← instances_occupied d', h.occupied_eq, instances_occupied])
  heuristics := heuristicStats_of_instances (by rw [← instances_occupied d', h.occupied_eq, instances_occupied])
  nontrivial := by rw [← nontrivial_occupied d', h.occupied_eq, nontrivial_occupied]
  families_iff := by
    rw [familyTable_eq, familyTable_eq, ← familyRows_occupied d', h.occupied_eq, familyRows_occupied,
      ofCatalogued_eq_iff]
  pairs_iff plotted := by
    rw [statePairs_eq, statePairs_eq, ← points_occupied d', h.occupied_eq, points_occupied, ofCatalogued_eq_iff]
  rejected file hfile := by
    have hreject : ∀ {α : Type} (a : α), d'.ofCatalogued a = .error (.unknownModel file) := fun a => by
      rw [Document.ofCatalogued, hfile]
    exact ⟨by rw [familyTable_eq, hreject], fun plotted => by rw [statePairs_eq, hreject]⟩
  catalogued hadded := h.firstUncatalogued?_eq hadded

/-- A model that is not there can be gained. -/
theorem paddedTo_insert {file : String} (h : d.get? file = none) : d.PaddedTo (d.insert file []) where
  kept other instances hother := by
    have hne : other ≠ file := fun heq => by
      rw [heq, h] at hother
      cases hother
    rwa [OrderedMap.get?_insert, if_neg hne]
  added other instances hother hinserted := by
    rw [OrderedMap.get?_insert] at hinserted
    split at hinserted
    · exact (Option.some.inj hinserted).symm
    · rw [hother] at hinserted
      cases hinserted

/-- A document with an instance of one model. -/
def brpDocument : Document := .ofList [("brp.pm", [⟨"N=16", .empty⟩])]

/-- A folder of logs beside the folder of the model was taken for that of another one. -/
def loggedDocument : Document := brpDocument.insert "logs" []

theorem get?_logs_brpDocument : brpDocument.get? "logs" = none := by decide +kernel

/-- The folder of logs changes no table that does not ask for families. -/
theorem tables_of_loggedDocument : brpDocument.PaddedTo loggedDocument ∧ TablesKept brpDocument loggedDocument :=
  ⟨paddedTo_insert get?_logs_brpDocument, tables_of_paddedTo (paddedTo_insert get?_logs_brpDocument)⟩

/-- **A model without instances can change a table**: the folder of logs belongs to no family. -/
theorem not_tables_of_paddedTo :
    ¬ ∀ d d' : Document, d.PaddedTo d' →
      MethodTable.of d' = MethodTable.of d ∧ heuristicStats d' = heuristicStats d ∧
        d'.nontrivial = d.nontrivial ∧ familyTable d' = familyTable d ∧
        ∀ plotted, statePairs d' plotted = statePairs d plotted := by
  intro h
  obtain ⟨-, -, -, htable, -⟩ := h brpDocument loggedDocument (paddedTo_insert get?_logs_brpDocument)
  have hbefore : brpDocument.firstUncatalogued? = none := by decide +kernel
  have hafter : loggedDocument.firstUncatalogued? = some "logs" := by decide +kernel
  rw [familyTable_eq, familyTable_eq, Document.ofCatalogued, Document.ofCatalogued, hbefore, hafter] at htable
  cases htable

end CheckerTrials
