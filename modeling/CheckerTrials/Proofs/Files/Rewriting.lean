import CheckerTrials.Proofs.Files.Beside

/-!
# Files with another content

What a folder lists and where a path leads does not depend on what files hold.  A disk that differs from another
one in the content of some files only (`Disk.Rewritten`) therefore has the same folders and the same files, and
all files but those read alike (`Rewritten.readText_eq`).

* `Rewritten.locate_eq`, `Rewritten.isFile_eq`, `Rewritten.isFolder_eq`: paths lead to the same.
* `Rewritten.list_eq`: folders list the same.
* `Rewritten.writeBytes`: writing into files is how disks become like that.
-/

set_option autoImplicit false

namespace CheckerTrials
namespace Disk

/-- The disk `e` has the folders and files of the disk `d`, and only those at the locations `own` may have another
content. -/
structure Rewritten (own : Location → Prop) (d e : Disk) : Prop where
  /-- The working folder is the same. -/
  home : e.home = d.home
  /-- So are the folders and files, and their order. -/
  shape : e.entries.map (Prod.map id Entry.shape) = d.entries.map (Prod.map id Entry.shape)
  /-- Another content is where it may be. -/
  get? : ∀ l, ¬ own l → e.get? l = d.get? l

variable {own : Location → Prop} {d e f : Disk} {p : Path} {l : Location}

namespace Rewritten

theorem refl (own : Location → Prop) (d : Disk) : d.Rewritten own d := ⟨rfl, rfl, fun _ _ => rfl⟩

theorem trans (h : d.Rewritten own e) (h' : e.Rewritten own f) : d.Rewritten own f :=
  ⟨h'.home.trans h.home, h'.shape.trans h.shape, fun l hl => (h'.get? l hl).trans (h.get? l hl)⟩

/-! ## Where paths lead -/

theorem lookup_map_shape (l : Location) (es : List (Location × Entry)) :
    (es.map (Prod.map id Entry.shape)).lookup l = (es.lookup l).map Entry.shape := by
  induction es with
  | nil => rfl
  | cons q rest ih =>
    rw [List.map_cons, List.lookup_cons, List.lookup_cons, ih, Prod.map_fst, id_eq]
    split <;> rfl

/-- What stands at a location is of the same shape. -/
theorem map_shape_get? (h : d.Rewritten own e) (l : Location) :
    (e.get? l).map Entry.shape = (d.get? l).map Entry.shape := by
  rw [Disk.get?, Disk.get?]
  split
  · rfl
  · rw [← lookup_map_shape, h.shape, lookup_map_shape]

theorem shape_eq_folder_iff {x : Entry} : x.shape = .folder ↔ x = .folder := by
  cases x <;> simp [Entry.shape]

theorem get?_eq_folder_iff (h : d.Rewritten own e) : e.get? l = some .folder ↔ d.get? l = some .folder := by
  have hshape : ∀ o : Option Entry, o = some .folder ↔ o.map Entry.shape = some .folder := fun o => by
    simp only [Option.map_eq_some_iff, shape_eq_folder_iff, exists_eq_right]
  rw [hshape (e.get? l), hshape (d.get? l), h.map_shape_get?]

theorem walk_eq (h : d.Rewritten own e) (here : Location) (steps : List String) :
    e.walk here steps = d.walk here steps := by
  induction steps generalizing here with
  | nil => rfl
  | cons step rest ih =>
    have hshape := h.map_shape_get? here
    rw [walk, walk]
    cases he : e.get? here with
    | none =>
      rw [he] at hshape
      rw [Option.map_eq_none_iff.1 hshape.symm]
    | some x =>
      cases x with
      | folder =>
        rw [h.get?_eq_folder_iff.1 he]
        simp only [ih]
      | file content executable =>
        rw [he] at hshape
        obtain ⟨y, hy, hyx⟩ := Option.map_eq_some_iff.1 hshape.symm
        cases y with
        | folder => cases hyx
        | file before executable' => rw [hy]

/-- **Paths lead to the same locations.** -/
theorem locate_eq (h : d.Rewritten own e) (p : Path) : e.locate p = d.locate p := by
  rw [locate, locate, h.home, h.walk_eq]

/-- What a path leads to is the same, or a file on both sides. -/
theorem find_eq_or (h : d.Rewritten own e) (p : Path) : e.find p = d.find p ∨
    (∃ content executable, e.find p = .ok (.file content executable)) ∧
      ∃ content executable, d.find p = .ok (.file content executable) := by
  rw [find, find, h.locate_eq]
  cases d.locate p with
  | error cause => exact .inl rfl
  | ok l =>
    have hshape := h.map_shape_get? l
    simp only [bind_ok]
    cases he : e.get? l with
    | none =>
      rw [he] at hshape
      exact .inl (by rw [Option.map_eq_none_iff.1 hshape.symm])
    | some x =>
      cases x with
      | folder => exact .inl (by rw [h.get?_eq_folder_iff.1 he])
      | file content executable =>
        rw [he] at hshape
        obtain ⟨y, hy, hyx⟩ := Option.map_eq_some_iff.1 hshape.symm
        cases y with
        | folder => cases hyx
        | file before executable' =>
          rw [hy]
          dsimp only
          split
          · exact .inl rfl
          · exact .inr ⟨⟨content, executable, rfl⟩, before, executable', rfl⟩

theorem isFile_eq (h : d.Rewritten own e) (p : Path) : e.isFile p = d.isFile p := by
  rw [isFile, isFile]
  obtain heq | ⟨⟨_, _, he⟩, _, _, hd⟩ := h.find_eq_or p
  · rw [heq]
  · rw [he, hd]

theorem isFolder_eq (h : d.Rewritten own e) (p : Path) : e.isFolder p = d.isFolder p := by
  rw [isFolder, isFolder]
  obtain heq | ⟨⟨_, _, he⟩, _, _, hd⟩ := h.find_eq_or p
  · rw [heq]
  · rw [he, hd]

/-! ## What is listed and read -/

/-- The names in a folder, and what is of each name, but for its content. -/
theorem map_shape_children (h : d.Rewritten own e) (l : Location) :
    (e.children l).map (Prod.map id Entry.shape) = (d.children l).map (Prod.map id Entry.shape) := by
  have hchildren : ∀ d : Disk, (d.children l).map (Prod.map id Entry.shape) =
      (d.entries.map (Prod.map id Entry.shape)).filterMap fun q =>
        if q.1 ≠ [] ∧ q.1.dropLast = l then q.1.getLast?.map fun name => (name, q.2) else none := fun d => by
    rw [children, List.map_filterMap, List.filterMap_map]
    refine List.filterMap_congr fun q _ => ?_
    simp only [Function.comp_apply, Prod.map_fst, Prod.map_snd, id_eq]
    split
    · rw [Option.map_map]
      rfl
    · rfl
  rw [hchildren, hchildren, h.shape]

/-- **Folders list the same**, but for the content of files. -/
theorem list_eq (h : d.Rewritten own e) (p : Path) :
    (e.list p).map (List.map (Prod.map id Entry.shape)) =
      (d.list p).map (List.map (Prod.map id Entry.shape)) := by
  rw [list, list, h.locate_eq]
  obtain heq | ⟨⟨_, _, he⟩, _, _, hd⟩ := h.find_eq_or p
  · rw [heq]
    cases d.find p with
    | error cause => rfl
    | ok x =>
      cases x with
      | file content executable => rfl
      | folder =>
        cases d.locate p with
        | error cause => rfl
        | ok l => exact congrArg Except.ok (h.map_shape_children l)
  · rw [he, hd]
    rfl

/-- What does not look at the contents of files gets the same from a listing. -/
theorem map_list_eq (h : d.Rewritten own e) (p : Path) {β : Type} {g : List (String × Entry) → β}
    (hg : ∀ es, g (es.map (Prod.map id Entry.shape)) = g es) : (e.list p).map g = (d.list p).map g := by
  have hmap : ∀ x : Except Cause (List (String × Entry)),
      x.map g = (x.map (List.map (Prod.map id Entry.shape))).map g := fun x => by
    cases x with
    | error cause => rfl
    | ok es => exact congrArg Except.ok (hg es).symm
  rw [hmap, h.list_eq, ← hmap]

/-- **Other files have the same content.** -/
theorem readBytes_eq (h : d.Rewritten own e) (hp : ∀ l, d.locate p = .ok l → ¬ own l) :
    e.readBytes p = d.readBytes p := by
  rw [readBytes, readBytes, find, find, h.locate_eq]
  cases hl : d.locate p with
  | error cause => rfl
  | ok l =>
    simp only [bind_ok]
    rw [h.get? l (hp l hl)]

theorem readText_eq (h : d.Rewritten own e) (hp : ∀ l, d.locate p = .ok l → ¬ own l) :
    e.readText p = d.readText p := by
  rw [readText, readText, h.readBytes_eq hp]

end Rewritten

/-- A file that is there can be read, unless its content is no text. -/
theorem readText_eq_error_of_isFile {cause : Cause} (hfile : d.isFile p = true)
    (h : d.readText p = .error cause) : cause = .notText := by
  obtain ⟨content, executable, hfind⟩ := isFile_iff.1 hfile
  rw [readText, readBytes, hfind, bind_ok, bind_ok] at h
  split at h
  · cases h
  · exact (Except.error.inj h).symm

/-! ## Writing into files -/

theorem map_shape_putEntry {content : ByteArray} {executable : Bool} {es : List (Location × Entry)}
    {before : ByteArray} (h : es.lookup l = some (.file before executable)) :
    (putEntry l (.file content executable) es).map (Prod.map id Entry.shape) =
      es.map (Prod.map id Entry.shape) := by
  induction es with
  | nil => cases h
  | cons q rest ih =>
    obtain ⟨k, x⟩ := q
    rw [putEntry]
    split
    · rename_i hk
      subst hk
      rw [List.lookup_cons_self, Option.some.injEq] at h
      rw [h]
      rfl
    · rename_i hk
      rw [List.lookup_cons, beq_false_of_ne (Ne.symm hk)] at h
      rw [List.map_cons, List.map_cons, ih h]

/-- **Writing into a file** gives it another content, and that is all. -/
theorem Rewritten.writeBytes (h : d.Rewritten own e) {content : ByteArray} (hfile : e.isFile p = true)
    (hown : ∀ l, e.locate p = .ok l → own l) (hwrite : e.writeBytes p content = .ok f) :
    d.Rewritten own f := by
  refine h.trans ?_
  obtain ⟨before, executable, hfind⟩ := isFile_iff.1 hfile
  obtain ⟨hname, l, hl, hget⟩ := find_eq_file_iff.1 hfind
  have hne : l ≠ [] := ne_nil_of_get?_ne (by rw [hget]; nofun)
  have hf : f = e.put l (.file content executable) := by
    rw [Disk.writeBytes, hl, bind_ok, hname, hget] at hwrite
    exact (Except.ok.inj hwrite).symm
  subst hf
  rw [Disk.get?, if_neg hne] at hget
  refine ⟨rfl, map_shape_putEntry hget, fun m hm => get?_put_of_ne e ?_ _⟩
  rintro rfl
  exact hm (hown m hl)

end Disk
end CheckerTrials
