import CheckerTrials.Json.Library
import CheckerTrials.Proofs.Ordered.Keys
import CheckerTrials.Proofs.Success

/-!
# Meanings that are written and read

What is known of a library is said here once.  `Written` are the values that programs write: strings, counts, finite
quantities, and arrays and objects of these.  A library that does what its documentation says is `Documented`: it reads
a text that it wrote, and it makes of written values what the description of a record, a map, a tag or a choice asks
for.  That it also reads every quantity back as it was (`ReadsBack`) is said apart, since a library that rounds more
than once does not.

Each way of writing a thing then undoes a way of reading it: lists (`list_ofList`), maps (`map_ofMap`), optional things
(`orElse_optional_map`) and records (`fields?_ofFields`).  A record is written field by field, and a field without a
value is left out; whoever reads it has to allow that.
-/

set_option autoImplicit false

namespace CheckerTrials.Json

open Library

variable {V α : Type} [Library V]

/-! ## What a library does -/

/-- **The values that are written**, with at most so many arrays and objects one inside the other. -/
inductive Written : Nat → V → Prop
  /-- A string. -/
  | string (depth : Nat) (s : String) : Written depth (ofString s)
  /-- A count within its limit. -/
  | count (depth : Nat) {n : Nat} (hn : n ≤ Decimal.wordLimit) : Written depth (ofCount n)
  /-- A finite quantity. -/
  | float (depth : Nat) {x : Float} (hx : Decimal.isFinite x = true) : Written depth (ofFloat x)
  /-- An array. -/
  | elements {depth : Nat} {vs : List V} (h : ∀ v ∈ vs, Written depth v) : Written (depth + 1) (ofElements vs)
  /-- An object. -/
  | members {depth : Nat} {ms : List (String × V)} (h : ∀ m ∈ ms, Written depth m.2) :
      Written (depth + 1) (ofMembers ms)

omit [Library V] in
/-- The value of a field of a record, if the members of an object have it. -/
def fieldOf (members : List (String × V)) (field : String × Presence) : Option (Option V) :=
  match members.lookup field.1, field.2 with
  | none, .required => none
  | v?, _ => some v?

/-- **What the documentation of a library says.** -/
structure Documented (V : Type) [Library V] : Prop where
  /-- What was written is read. -/
  read?_text : ∀ {depth : Nat} {v : V}, Written depth v → depth ≤ depthLimit → Library.read? (text v) = some v
  /-- Something that is written is there. -/
  ne_null : ∀ {depth : Nat} {v : V}, Written depth v → v ≠ null
  /-- A string is read as it is. -/
  string?_ofString : ∀ s : String, string? (ofString s : V) = some s
  /-- So is a count. -/
  count?_ofCount : ∀ {n : Nat}, n ≤ Decimal.wordLimit → count? (ofCount n : V) = some n
  /-- Something optional that is there is read with the reader for it. -/
  optional_of_ne_null : ∀ {β : Type} (read : V → Option β) {v : V}, v ≠ null → optional read v = (read v).map some
  /-- A list is read from an array, element by element. -/
  list_ofElements : ∀ {β : Type} (read : V → Option β) (vs : List V), list read (ofElements vs) = vs.mapM read
  /-- A map is read from an object, member by member. -/
  map_ofMembers : ∀ {β : Type} (read : V → Option β) (ms : List (String × V)),
    map read (ofMembers ms) = (ms.mapM fun m => (read m.2).map fun b => (m.1, b)).map OrderedMap.ofList
  /-- A record is read from an object, by the names of its fields. -/
  fields?_ofMembers : ∀ (fields : List (String × Presence)) {ms : List (String × V)}, (ms.map Prod.fst).Nodup →
    fields? fields (ofMembers ms) = fields.mapM (fieldOf ms)
  /-- A string is a tag. -/
  tag?_ofString : ∀ s : String, tag? (ofString s : V) = some s
  /-- An object is a tag only if that names its only member, for which there is nothing. -/
  eq_of_tag?_ofMembers : ∀ {ms : List (String × V)} {tag : String}, tag? (ofMembers ms) = some tag → ms = [(tag, null)]
  /-- Of several forms the first is taken in which the value can be read. -/
  firstOf_eq : ∀ {β : Type} {outside depth : Nat} (readers : List (V → Option β)) {v : V}, Written depth v →
    outside + depth ≤ depthLimit → firstOf outside readers v = readers.findSome? fun read => read v

/-- **A finite quantity that is written reads back** as the same quantity. -/
def ReadsBack (V : Type) [Library V] : Prop := ∀ x, Decimal.isFinite x = true → float? (ofFloat x : V) = some x

theorem Written.mono {depth depth' : Nat} {v : V} (h : Written depth v) (hle : depth ≤ depth') : Written depth' v := by
  induction h generalizing depth' with
  | string _ s => exact .string _ s
  | count _ hn => exact .count _ hn
  | float _ hx => exact .float _ hx
  | elements _ ih =>
    obtain ⟨k, rfl⟩ := Nat.exists_eq_add_of_le' (Nat.le_of_add_left_le hle)
    exact .elements fun v hv => ih v hv (Nat.le_of_succ_le_succ hle)
  | members _ ih =>
    obtain ⟨k, rfl⟩ := Nat.exists_eq_add_of_le' (Nat.le_of_add_left_le hle)
    exact .members fun m hm => ih m hm (Nat.le_of_succ_le_succ hle)

/-! ## Lists, maps and optional things -/

variable {read : V → Option α} {write : α → V}

section

variable (hV : Documented V)

include hV

theorem list_ofList {as : List α} (h : ∀ a ∈ as, read (write a) = some a) : list read (ofList write as) = some as := by
  rw [ofList, hV.list_ofElements, mapM_eq_some_iff, List.map_map]
  exact List.map_congr_left h

theorem map_ofMap {m : NameMap α} (h : ∀ a ∈ m.values, read (write a) = some a) :
    map read (ofMap write m) = some m := by
  have hentries : (m.entries.map fun p => (p.1, write p.2)).mapM (fun p => (read p.2).map fun a => (p.1, a)) =
      some m.entries := by
    rw [mapM_eq_some_iff, List.map_map]
    refine List.map_congr_left fun p hp => ?_
    show ((read (write p.2)).map fun a => (p.1, a)) = some p
    rw [h p.2 (List.mem_map_of_mem hp)]
    rfl
  rw [ofMap, hV.map_ofMembers, hentries, Option.map_some, OrderedMap.ofList_entries]

theorem orElse_optional_map {o : Option α} (h : ∀ a ∈ o, read (write a) = some a) {depth : Nat}
    (hwritten : ∀ a ∈ o, Written depth (write a)) : orElse none (optional read) (o.map write) = some o := by
  cases o with
  | none => rfl
  | some a =>
    rw [Option.map_some, orElse, hV.optional_of_ne_null read (hV.ne_null (hwritten a rfl)), h a rfl]
    rfl

end

theorem Written.ofList {depth : Nat} {as : List α} (h : ∀ a ∈ as, Written depth (write a)) :
    Written (depth + 1) (Library.ofList write as) := by
  refine .elements fun v hv => ?_
  obtain ⟨a, ha, rfl⟩ := List.mem_map.1 hv
  exact h a ha

theorem Written.ofMap {depth : Nat} {m : NameMap α} (h : ∀ a ∈ m.values, Written depth (write a)) :
    Written (depth + 1) (Library.ofMap write m) := by
  refine .members fun q hq => ?_
  obtain ⟨e, he, rfl⟩ := List.mem_map.1 hq
  exact h e.2 (List.mem_map_of_mem he)

/-! ## Records -/

/-- A field of a record that is written: its name, whether it has to be there, and its value if it has one. -/
structure WrittenField (V : Type) where
  /-- The name of the field. -/
  name : String
  /-- Whether it has to be there. -/
  presence : Presence
  /-- Its value. -/
  value? : Option V

section

omit [Library V]

/-- The members of an object that is written field by field. -/
def membersOf (fields : List (WrittenField V)) : List (String × V) :=
  fields.flatMap fun f => memberOf f.name id f.value?

theorem membersOf_cons (f : WrittenField V) (fields : List (WrittenField V)) :
    membersOf (f :: fields) = memberOf f.name id f.value? ++ membersOf fields := by
  rw [membersOf, List.flatMap_cons]
  rfl

theorem exists_of_mem_membersOf {fields : List (WrittenField V)} {m : String × V} (h : m ∈ membersOf fields) :
    ∃ f ∈ fields, f.name = m.1 ∧ f.value? = some m.2 := by
  obtain ⟨f, hf, hm⟩ := List.mem_flatMap.1 h
  refine ⟨f, hf, ?_⟩
  cases hvalue : f.value? with
  | none =>
    rw [hvalue] at hm
    cases hm
  | some v =>
    rw [hvalue] at hm
    rw [List.mem_singleton.1 hm]
    exact ⟨rfl, rfl⟩

/-- No member has a name that no field has. -/
theorem lookup_membersOf_of_not_mem {fields : List (WrittenField V)} {name : String}
    (h : name ∉ fields.map WrittenField.name) : (membersOf fields).lookup name = none := by
  rw [List.lookup_eq_none_iff]
  intro m hm
  obtain ⟨f, hf, hname, -⟩ := exists_of_mem_membersOf hm
  rw [bne_iff_ne]
  rintro rfl
  exact h (hname ▸ List.mem_map_of_mem hf)

theorem nodup_membersOf {fields : List (WrittenField V)} (h : (fields.map WrittenField.name).Nodup) :
    ((membersOf fields).map Prod.fst).Nodup := by
  induction fields with
  | nil => exact .nil
  | cons f rest ih =>
    rw [List.map_cons, List.nodup_cons] at h
    rw [membersOf_cons]
    cases hvalue : f.value? with
    | none => exact ih h.2
    | some v =>
      refine List.nodup_cons.2 ⟨fun hmem => ?_, ih h.2⟩
      obtain ⟨m, hm, hname⟩ := List.mem_map.1 hmem
      obtain ⟨g, hg, hname', -⟩ := exists_of_mem_membersOf hm
      have heq : g.name = f.name := hname'.trans hname
      exact h.1 (heq ▸ List.mem_map_of_mem hg)

/-- A field has its own value. -/
theorem lookup_membersOf {fields : List (WrittenField V)} (h : (fields.map WrittenField.name).Nodup)
    {f : WrittenField V} (hf : f ∈ fields) : (membersOf fields).lookup f.name = f.value? := by
  induction fields with
  | nil => cases hf
  | cons g rest ih =>
    rw [List.map_cons, List.nodup_cons] at h
    rw [membersOf_cons]
    rcases List.mem_cons.1 hf with rfl | hf
    · cases hvalue : f.value? with
      | none => exact lookup_membersOf_of_not_mem h.1
      | some v => exact List.lookup_cons_self
    · have hne : f.name ≠ g.name := fun heq => h.1 (heq ▸ List.mem_map_of_mem hf)
      cases hvalue : g.value? with
      | none => exact ih h.2 hf
      | some v =>
        show List.lookup f.name ((g.name, v) :: membersOf rest) = f.value?
        rw [List.lookup_cons, beq_eq_false_iff_ne.2 hne]
        exact ih h.2 hf

end

theorem Written.ofFields {depth : Nat} {fields : List (WrittenField V)}
    (h : ∀ f ∈ fields, ∀ v ∈ f.value?, Written depth v) : Written (depth + 1) (ofMembers (membersOf fields)) := by
  refine .members fun m hm => ?_
  obtain ⟨f, hf, -, hvalue⟩ := exists_of_mem_membersOf hm
  exact h f hf m.2 hvalue

/-- **A record is read** from what was written for its fields. -/
theorem fields?_ofFields (hV : Documented V) (fields : List (WrittenField V))
    (hnodup : (fields.map WrittenField.name).Nodup)
    (hrequired : ∀ f ∈ fields, f.presence = .required → f.value?.isSome = true) :
    fields? (fields.map fun f => (f.name, f.presence)) (ofMembers (membersOf fields)) =
      some (fields.map WrittenField.value?) := by
  rw [hV.fields?_ofMembers _ (nodup_membersOf hnodup), mapM_eq_some_iff, List.map_map, List.map_map]
  refine List.map_congr_left fun f hf => ?_
  have hpresent := hrequired f hf
  show fieldOf (membersOf fields) (f.name, f.presence) = some f.value?
  rw [fieldOf, lookup_membersOf hnodup hf]
  cases hvalue : f.value? with
  | some v => rfl
  | none =>
    rw [hvalue] at hpresent
    cases hpresence : f.presence with
    | required => cases hpresent hpresence
    | _ => rfl

/-! ## What is in a thing that was read -/

variable {P : α → Prop}

theorem of_orElse_optional (hread : ∀ v a, read v = some a → P a) {field : Option V} {o : Option α}
    (h : orElse none (optional read) field = some o) : ∀ a ∈ o, P a := by
  rintro a rfl
  cases field with
  | none => cases h
  | some v =>
    obtain ⟨w, hw⟩ := of_optional h
    exact hread w a hw

theorem of_orElse_map (hread : ∀ v a, read v = some a → P a) {field : Option V} {m : NameMap α}
    (h : orElse ∅ (map read) field = some m) : ∀ a ∈ m.values, P a := by
  intro a ha
  cases field with
  | none =>
    cases h
    cases ha
  | some v =>
    obtain ⟨w, hw⟩ := of_map h a ha
    exact hread w a hw

omit [Library V] in
theorem of_required (hread : ∀ v a, read v = some a → P a) {field : Option V} {a : α}
    (h : required read field = some a) : P a := by
  obtain ⟨v, -, hv⟩ := Option.bind_eq_some_iff.1 h
  exact hread v a hv

end CheckerTrials.Json
