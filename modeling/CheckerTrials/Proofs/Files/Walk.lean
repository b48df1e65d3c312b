import CheckerTrials.Files.Disk
import CheckerTrials.Proofs.Success
import Mathlib.Data.List.Induction

/-!
# Following paths on a disk that grows

`Disk.walk` goes through folders, one after the other.  What a path leads to therefore depends on the
folders on the way and on nothing else: as long as no folder is lost, a path that could be followed leads to
where it always has led (`walk_of_grows`).

* `Disk.Grows`: a disk has all the folders of another one.
* `walk_append`: steps are followed one after the other.
* `Disk.WellFormed`: what is true of the disk of a system.  Everything stands in a folder, so that every
  location can be reached by its names (`walk_of_folder`).
-/

set_option autoImplicit false

namespace CheckerTrials

/-- A step that is the name of an entry. -/
structure Path.IsName (name : String) : Prop where
  /-- It is not empty. -/
  ne_nil : name.toList ≠ []
  /-- It holds no slash. -/
  slash : '/' ∉ name.toList
  /-- It does not mean the folder itself. -/
  ne_here : name ≠ "."
  /-- It does not mean the folder above. -/
  ne_above : name ≠ ".."
  /-- It is not too long. -/
  short : name.utf8ByteSize ≤ 255

instance (name : String) : Decidable (Path.IsName name) :=
  decidable_of_iff (name.toList ≠ [] ∧ '/' ∉ name.toList ∧ name ≠ "." ∧ name ≠ ".." ∧ name.utf8ByteSize ≤ 255)
    ⟨fun ⟨hnil, hslash, hhere, habove, hshort⟩ => ⟨hnil, hslash, hhere, habove, hshort⟩,
      fun ⟨hnil, hslash, hhere, habove, hshort⟩ => ⟨hnil, hslash, hhere, habove, hshort⟩⟩

/-- The text of a path can be passed to the system. -/
structure Path.IsUsable (p : Path) : Prop where
  /-- It holds no NUL. -/
  nul : ¬ p.text.toList.contains '\x00'
  /-- It is not too long. -/
  short : ¬ 4096 ≤ p.text.utf8ByteSize

namespace Disk

/-- The disk `e` has all the folders of the disk `d`, and the same working folder. -/
structure Grows (d e : Disk) : Prop where
  /-- The working folder is the same. -/
  home : e.home = d.home
  /-- No folder is lost. -/
  folder : ∀ l, d.get? l = some .folder → e.get? l = some .folder

theorem Grows.refl (d : Disk) : d.Grows d := ⟨rfl, fun _ h => h⟩

theorem Grows.trans {d e f : Disk} (h : d.Grows e) (h' : e.Grows f) : d.Grows f :=
  ⟨h'.home.trans h.home, fun l hl => h'.folder l (h.folder l hl)⟩

/-! ## One step -/

@[simp] theorem get?_nil (d : Disk) : d.get? [] = some .folder := rfl

/-- Where one step leads from a folder. -/
def enter (here : Location) (step : String) : Except Cause Location :=
  if step = "." then .ok here
  else if step = ".." then .ok here.dropLast
  else if 255 < step.utf8ByteSize then .error .nameTooLong
  else .ok (here ++ [step])

theorem enter_name (here : Location) {name : String} (h : Path.IsName name) :
    enter here name = .ok (here ++ [name]) := by
  rw [enter, if_neg h.ne_here, if_neg h.ne_above, if_neg (Nat.not_lt.2 h.short)]

theorem walk_cons {d : Disk} {here : Location} (h : d.get? here = some .folder) (step : String)
    (rest : List String) :
    d.walk here (step :: rest) = enter here step >>= fun l => d.walk l rest := by
  simp only [walk, h, enter]
  split
  · rfl
  · split
    · rfl
    · split <;> rfl

/-- A walk that goes on starts at a folder. -/
theorem walk_cons_eq_ok_iff {d : Disk} {here l : Location} {step : String} {rest : List String} :
    d.walk here (step :: rest) = .ok l ↔
      d.get? here = some .folder ∧ ∃ m, enter here step = .ok m ∧ d.walk m rest = .ok l := by
  cases h : d.get? here with
  | none => simp [walk, h]
  | some e =>
    cases e with
    | file content executable => simp [walk, h]
    | folder => rw [walk_cons h, bind_eq_ok_iff]; simp

/-! ## Many steps -/

/-- Steps are followed one after the other. -/
theorem walk_append (d : Disk) (here : Location) (s t : List String) :
    d.walk here (s ++ t) = d.walk here s >>= fun l => d.walk l t := by
  induction s generalizing here with
  | nil => rfl
  | cons step rest ih =>
    cases h : d.get? here with
    | none => simp only [List.cons_append, walk, h]; rfl
    | some e =>
      cases e with
      | file content executable => simp only [List.cons_append, walk, h]; rfl
      | folder =>
        rw [List.cons_append, walk_cons h, walk_cons h]
        cases enter here step with
        | error cause => rfl
        | ok m => exact ih m

/-- **Paths stay.**  A walk that succeeds on a disk leads to the same location after the disk has grown. -/
theorem walk_of_grows {d e : Disk} (h : d.Grows e) {here l : Location} {steps : List String}
    (hw : d.walk here steps = .ok l) : e.walk here steps = .ok l := by
  induction steps generalizing here with
  | nil => exact hw
  | cons step rest ih =>
    obtain ⟨hd, m, hm, hrest⟩ := walk_cons_eq_ok_iff.1 hw
    exact walk_cons_eq_ok_iff.2 ⟨h.folder here hd, m, hm, ih hrest⟩

/-- Steps that stay where they are can be left out. -/
theorem walk_filter {d : Disk} {here l : Location} {steps : List String}
    (h : d.walk here steps = .ok l) : d.walk here (steps.filter (· ≠ ".")) = .ok l := by
  induction steps generalizing here with
  | nil => exact h
  | cons step rest ih =>
    obtain ⟨hd, m, hm, hrest⟩ := walk_cons_eq_ok_iff.1 h
    by_cases hs : step = "."
    · rw [enter, if_pos hs] at hm
      cases hm
      rw [List.filter_cons_of_neg (by simpa using hs)]
      exact ih hrest
    · rw [List.filter_cons_of_pos (by simpa using hs)]
      exact walk_cons_eq_ok_iff.2 ⟨hd, m, hm, ih hrest⟩

/-- One more name leads from a folder to what is in it, unless the name is too long. -/
theorem walk_concat {d : Disk} {here l : Location} {steps : List String} {name : String}
    (h : d.walk here steps = .ok l) (hl : d.get? l = some .folder) (hhere : name ≠ ".")
    (habove : name ≠ "..") :
    d.walk here (steps ++ [name]) =
      if 255 < name.utf8ByteSize then .error .nameTooLong else .ok (l ++ [name]) := by
  rw [walk_append, h, bind_ok, walk_cons hl, enter, if_neg hhere, if_neg habove]
  split
  · rfl
  · rfl

/-! ## Whole paths -/

/-- The location that a path starts from. -/
def startOf (d : Disk) (p : Path) : Location := if p.isRooted then [] else d.home

theorem startOf_grows {d e : Disk} (h : d.Grows e) (p : Path) : e.startOf p = d.startOf p := by
  rw [startOf, startOf, h.home]

/-- **Where a path leads** is found by following its steps. -/
theorem locate_eq_ok_iff {d : Disk} {p : Path} {l : Location} :
    d.locate p = .ok l ↔ p.IsUsable ∧ p.text ≠ "" ∧ d.walk (d.startOf p) p.steps = .ok l := by
  rw [locate]
  constructor
  · intro h
    split at h
    · cases h
    · rename_i hnul
      split at h
      · cases h
      · rename_i hempty
        split at h
        · cases h
        · rename_i hlong
          exact ⟨⟨hnul, hlong⟩, by simpa using hempty, h⟩
  · rintro ⟨⟨hnul, hlong⟩, hempty, hw⟩
    rw [if_neg hnul, if_neg (by simpa using hempty), if_neg hlong]
    exact hw

theorem locate_of_grows {d e : Disk} (h : d.Grows e) {p : Path} {l : Location}
    (hl : d.locate p = .ok l) : e.locate p = .ok l := by
  obtain ⟨husable, hne, hw⟩ := locate_eq_ok_iff.1 hl
  rw [← startOf_grows h] at hw
  exact locate_eq_ok_iff.2 ⟨husable, hne, walk_of_grows h hw⟩

/-! ## The disk of a system -/

/-- What is true of the disk of a system. -/
structure WellFormed (d : Disk) : Prop where
  /-- Nothing is listed twice. -/
  nodup : (d.entries.map Prod.fst).Nodup
  /-- The root is not listed, and everything else stands in a folder. -/
  parent : ∀ l ∈ d.entries.map Prod.fst, l ≠ [] ∧ d.get? l.dropLast = some .folder
  /-- Everything has a name. -/
  names : ∀ l ∈ d.entries.map Prod.fst, ∀ name ∈ l, Path.IsName name
  /-- The working folder is there. -/
  home : d.get? d.home = some .folder

instance (d : Disk) : Decidable d.WellFormed :=
  decidable_of_iff ((d.entries.map Prod.fst).Nodup ∧
      (∀ l ∈ d.entries.map Prod.fst, l ≠ [] ∧ d.get? l.dropLast = some .folder) ∧
      (∀ l ∈ d.entries.map Prod.fst, ∀ name ∈ l, Path.IsName name) ∧ d.get? d.home = some .folder)
    ⟨fun ⟨hnodup, hparent, hnames, hhome⟩ => ⟨hnodup, hparent, hnames, hhome⟩,
      fun ⟨hnodup, hparent, hnames, hhome⟩ => ⟨hnodup, hparent, hnames, hhome⟩⟩

/-- What has an entry is listed. -/
theorem mem_of_get? {d : Disk} {l : Location} {e : Entry} (hl : l ≠ []) (h : d.get? l = some e) :
    (l, e) ∈ d.entries := by
  rw [get?, if_neg hl] at h
  obtain ⟨before, after, hsplit, -⟩ := List.lookup_eq_some_iff.1 h
  simp [hsplit]

theorem WellFormed.names_of_get? {d : Disk} (hd : d.WellFormed) {l : Location} {e : Entry}
    (h : d.get? l = some e) : ∀ name ∈ l, Path.IsName name := by
  by_cases hl : l = []
  · subst hl
    exact fun name hname => absurd hname List.not_mem_nil
  · exact hd.names l (List.mem_map_of_mem (mem_of_get? hl h))

/-- The folder around a folder is a folder. -/
theorem WellFormed.folder_dropLast {d : Disk} (hd : d.WellFormed) {l : Location}
    (h : d.get? l = some .folder) : d.get? l.dropLast = some .folder := by
  by_cases hl : l = []
  · subst hl
    rfl
  · exact (hd.parent l (List.mem_map_of_mem (mem_of_get? hl h))).2

/-- A folder is reached from the root by its names. -/
theorem WellFormed.walk_of_folder {d : Disk} (hd : d.WellFormed) {l : Location}
    (h : d.get? l = some .folder) : d.walk [] l = .ok l := by
  induction l using List.reverseRecOn with
  | nil => rfl
  | append_singleton before name ih =>
    have hbefore : d.get? before = some .folder := by
      simpa using hd.folder_dropLast h
    rw [walk_append, ih hbefore, bind_ok, walk_cons hbefore,
      enter_name before (hd.names_of_get? h name (by simp))]
    rfl

end Disk

end CheckerTrials
