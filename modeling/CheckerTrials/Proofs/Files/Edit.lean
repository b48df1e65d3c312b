import CheckerTrials.Proofs.Files.Absolute

/-!
# Edits of a disk

Writing a file and removing one are the same kind of thing: the path is followed, what stands at its
location decides whether the edit is possible, and if it is, that location changes.  `Disk.edit` is this one
operation, and `writeBytes_eq` and `removeFile_eq` say that it is what writing and removing do.  No edit
touches a folder, so that a disk only grows from edits.

* `edit_eq_ok_iff`: what an edit does.
* `Grows.set`: a disk grows from edits.
* `WellFormed.edit`: edits keep a disk well formed.
-/

set_option autoImplicit false

namespace CheckerTrials

/-- What stands at a location, but for the content of a file. -/
def Entry.shape : Entry → Entry
  | .folder => .folder
  | .file _ executable => .file ByteArray.empty executable

namespace Disk

/-! ## Changing one location -/

/-- The disk with `o` at location `l`, or with nothing there. -/
def set (d : Disk) (l : Location) : Option Entry → Disk
  | some e => d.put l e
  | none => d.erase l

@[simp] theorem home_set (d : Disk) (l : Location) (o : Option Entry) : (d.set l o).home = d.home := by
  cases o <;> rfl

theorem get?_set_self (d : Disk) {l : Location} (h : l ≠ []) (o : Option Entry) :
    (d.set l o).get? l = o := by
  cases o with
  | none => exact get?_erase_self d h
  | some e => exact get?_put_self d h e

theorem get?_set_of_ne (d : Disk) {l m : Location} (h : m ≠ l) (o : Option Entry) :
    (d.set l o).get? m = d.get? m := by
  cases o with
  | none => exact get?_erase_of_ne d h
  | some e => exact get?_put_of_ne d h e

/-- The root is a folder. -/
theorem ne_nil_of_get?_ne {d : Disk} {l : Location} (h : d.get? l ≠ some .folder) : l ≠ [] := by
  rintro rfl
  exact h rfl

/-- A disk grows when something changes that is no folder. -/
theorem Grows.set {d : Disk} {l : Location} (h : d.get? l ≠ some .folder) (o : Option Entry) :
    d.Grows (d.set l o) := by
  refine ⟨home_set d l o, fun m hm => ?_⟩
  have hne : m ≠ l := by
    rintro rfl
    exact h hm
  rw [get?_set_of_ne d hne, hm]

/-! ## Well-formed disks -/

theorem map_fst_putEntry (l : Location) (e : Entry) (es : List (Location × Entry)) :
    (putEntry l e es).map Prod.fst =
      if l ∈ es.map Prod.fst then es.map Prod.fst else es.map Prod.fst ++ [l] := by
  induction es with
  | nil => rfl
  | cons p rest ih =>
    obtain ⟨k, f⟩ := p
    rw [putEntry]
    by_cases hk : k = l
    · simp [hk]
    · rw [if_neg hk, List.map_cons, List.map_cons, ih]
      by_cases hl : l ∈ rest.map Prod.fst
      · rw [if_pos hl, if_pos (List.mem_cons_of_mem k hl)]
      · rw [if_neg hl, if_neg (by simpa [Ne.symm hk] using hl), List.cons_append]

/-- What is listed after a change was listed before, but for the location that has changed. -/
theorem mem_keys_set {d : Disk} {l m : Location} {o : Option Entry}
    (h : m ∈ (d.set l o).entries.map Prod.fst) : m = l ∨ m ∈ d.entries.map Prod.fst := by
  cases o with
  | none => exact .inr (List.Sublist.subset (List.filter_sublist.map Prod.fst) h)
  | some e =>
    rw [set, put, map_fst_putEntry] at h
    split at h
    · exact .inr h
    · rw [List.mem_append, List.mem_singleton] at h
      exact h.symm

theorem nodup_keys_set {d : Disk} (hd : (d.entries.map Prod.fst).Nodup) (l : Location)
    (o : Option Entry) : ((d.set l o).entries.map Prod.fst).Nodup := by
  cases o with
  | none => exact (List.filter_sublist.map Prod.fst).nodup hd
  | some e =>
    rw [set, put, map_fst_putEntry]
    split
    · exact hd
    · rename_i hl
      rw [List.nodup_append]
      refine ⟨hd, List.pairwise_singleton _ l, fun m hm n hn => ?_⟩
      rw [List.mem_singleton] at hn
      rintro rfl
      exact hl (hn ▸ hm)

/-- A location is in a folder, under a name that an entry can have. -/
structure IsPlace (d : Disk) (l : Location) : Prop where
  /-- The folder is there. -/
  parent : d.get? l.dropLast = some .folder
  /-- The names can be those of entries. -/
  names : ∀ name ∈ l, Path.IsName name

/-- A folder is in its place. -/
theorem WellFormed.isPlace_of_folder {d : Disk} (hd : d.WellFormed) {l : Location}
    (h : d.get? l = some .folder) : d.IsPlace l :=
  ⟨hd.folder_dropLast h, hd.names_of_get? h⟩

/-- A change inside a folder keeps a disk well formed. -/
theorem WellFormed.set {d : Disk} (hd : d.WellFormed) {l : Location} (hplace : d.IsPlace l)
    (hl : d.get? l ≠ some .folder) (o : Option Entry) : (d.set l o).WellFormed := by
  have hgrows := Grows.set hl o
  refine ⟨nodup_keys_set hd.nodup l o, fun m hm => ?_, fun m hm => ?_, ?_⟩
  · rcases mem_keys_set hm with rfl | hm
    · exact ⟨ne_nil_of_get?_ne hl, hgrows.folder _ hplace.parent⟩
    · exact ⟨(hd.parent m hm).1, hgrows.folder _ (hd.parent m hm).2⟩
  · rcases mem_keys_set hm with rfl | hm
    · exact hplace.names
    · exact hd.names m hm
  · rw [home_set]
    exact hgrows.folder _ hd.home

/-- Every step leads to a place inside a folder. -/
theorem WellFormed.isPlace_of_walk {d : Disk} (hd : d.WellFormed) {here l : Location}
    {steps : List String} (hhere : d.IsPlace here) (hsteps : ∀ step ∈ steps, Path.IsStep step.toList)
    (h : d.walk here steps = .ok l) : d.IsPlace l := by
  induction steps generalizing here with
  | nil =>
    cases h
    exact hhere
  | cons step rest ih =>
    obtain ⟨hfolder, m, hm, hrest⟩ := walk_cons_eq_ok_iff.1 h
    refine ih ?_ (fun s hs => hsteps s (List.mem_cons_of_mem step hs)) hrest
    rw [enter] at hm
    split at hm
    · cases hm
      exact hhere
    · rename_i hpoint
      split at hm
      · cases hm
        exact hd.isPlace_of_folder hhere.parent
      · rename_i habove
        split at hm
        · cases hm
        · rename_i hshort
          cases hm
          have hstep := hsteps step List.mem_cons_self
          refine ⟨by simpa using hfolder, fun name hname => ?_⟩
          rcases List.mem_append.1 hname with hname | hname
          · exact hhere.names name hname
          · rw [List.mem_singleton.1 hname]
            exact ⟨hstep.1, hstep.2, hpoint, habove, Nat.le_of_not_lt hshort⟩

theorem WellFormed.isPlace_of_locate {d : Disk} (hd : d.WellFormed) {p : Path} {l : Location}
    (h : d.locate p = .ok l) : d.IsPlace l := by
  obtain ⟨-, -, hw⟩ := locate_eq_ok_iff.1 h
  refine hd.isPlace_of_walk ?_ (fun step hstep => Path.isStep_of_mem_stepsOf hstep) hw
  rw [startOf]
  split
  · exact ⟨rfl, fun name hname => absurd hname List.not_mem_nil⟩
  · exact hd.isPlace_of_folder hd.home

/-! ## Edits -/

/-- Changes what a path leads to.  What stands there decides what will. -/
def edit (d : Disk) (p : Path) (f : Option Entry → Except Cause (Option Entry)) : Except Cause Disk := do
  let l ← d.locate p
  return d.set l (← f (d.get? l))

/-- **What an edit does.** -/
theorem edit_eq_ok_iff {d d' : Disk} {p : Path} {f : Option Entry → Except Cause (Option Entry)} :
    d.edit p f = .ok d' ↔
      ∃ l o, d.locate p = .ok l ∧ f (d.get? l) = .ok o ∧ d' = d.set l o := by
  rw [edit, bind_eq_ok_iff]
  refine exists_congr fun l => ?_
  rw [bind_eq_ok_iff]
  constructor
  · rintro ⟨hl, o, ho, he⟩
    cases he
    exact ⟨o, hl, ho, rfl⟩
  · rintro ⟨o, hl, ho, rfl⟩
    exact ⟨hl, o, ho, rfl⟩

/-- A file is written in the place of another one or of nothing. -/
def overwrite (p : Path) (content : ByteArray) : Option Entry → Except Cause (Option Entry)
  | some .folder => .error .isADirectory
  | some (.file _ executable) =>
    if p.namesFolder then .error .isADirectory else .ok (some (.file content executable))
  | none => if p.namesFolder then .error .isADirectory else .ok (some (.file content false))

/-- What is written over something is a file. -/
theorem overwrite_eq_ok {p : Path} {content : ByteArray} {o o' : Option Entry}
    (h : overwrite p content o = .ok o') : ∃ executable, o' = some (.file content executable) := by
  cases o with
  | none =>
    rw [overwrite] at h
    split at h
    · cases h
    · cases h
      exact ⟨false, rfl⟩
  | some e =>
    cases e with
    | folder => cases h
    | file before executable =>
      rw [overwrite] at h
      split at h
      · cases h
      · cases h
        exact ⟨executable, rfl⟩

/-- A file is removed. -/
def takeAway (p : Path) : Option Entry → Except Cause (Option Entry)
  | some .folder => .error .isADirectory
  | some (.file _ _) => if p.namesFolder then .error .notADirectory else .ok none
  | none => .error .notFound

theorem writeBytes_eq (d : Disk) (p : Path) (content : ByteArray) :
    d.writeBytes p content = d.edit p (overwrite p content) := by
  rw [writeBytes, edit]
  refine bind_congr fun l => ?_
  cases d.get? l with
  | none =>
    simp only [overwrite]
    split <;> rfl
  | some e =>
    cases e with
    | folder => simp only [overwrite, ite_self]; rfl
    | file before executable =>
      simp only [overwrite]
      split <;> rfl

theorem removeFile_eq (d : Disk) (p : Path) : d.removeFile p = d.edit p (takeAway p) := by
  rw [removeFile, edit, find]
  cases d.locate p with
  | error cause => rfl
  | ok l =>
    simp only [bind_ok]
    cases d.get? l with
    | none => rfl
    | some e =>
      cases e with
      | folder => rfl
      | file content executable =>
        simp only [takeAway]
        split <;> rfl

/-- Nothing that is done to a location changes a folder. -/
def SparesFolders (f : Option Entry → Except Cause (Option Entry)) : Prop :=
  ∀ o, f (some .folder) ≠ .ok o

theorem sparesFolders_overwrite (p : Path) (content : ByteArray) :
    SparesFolders (overwrite p content) := fun _ => nofun

theorem sparesFolders_takeAway (p : Path) : SparesFolders (takeAway p) := fun _ => nofun

theorem SparesFolders.ne_folder {f : Option Entry → Except Cause (Option Entry)} (hf : SparesFolders f)
    {d : Disk} {l : Location} {o : Option Entry} (h : f (d.get? l) = .ok o) :
    d.get? l ≠ some .folder := fun he => hf o (he ▸ h)

/-- A disk grows from an edit. -/
theorem grows_edit {d d' : Disk} {p : Path} {f : Option Entry → Except Cause (Option Entry)}
    (hf : SparesFolders f) (h : d.edit p f = .ok d') : d.Grows d' := by
  obtain ⟨l, o, -, ho, rfl⟩ := edit_eq_ok_iff.1 h
  exact Grows.set (hf.ne_folder ho) o

theorem WellFormed.edit {d d' : Disk} (hd : d.WellFormed) {p : Path}
    {f : Option Entry → Except Cause (Option Entry)} (hf : SparesFolders f)
    (h : d.edit p f = .ok d') : d'.WellFormed := by
  obtain ⟨l, o, hl, ho, rfl⟩ := edit_eq_ok_iff.1 h
  exact hd.set (hd.isPlace_of_locate hl) (hf.ne_folder ho) o

end Disk

end CheckerTrials
