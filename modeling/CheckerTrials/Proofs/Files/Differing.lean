import CheckerTrials.Proofs.Files.Beside

/-!
# Disks that differ in some files

Files come and go and get another content, while the folders around them stay.  What a path leads to is then the same
on both disks (`DiffersAt`), except for the files in question.

* `DiffersAt.edit`: writing and removing files is how disks become like that.
* `DiffersAt.locate_iff`, `DiffersAt.sameFile`: paths lead to the same locations, and to the same files but
  for those that may differ.
* `DiffersAt.mem_children_folder_iff`: folders list the same folders.
-/

set_option autoImplicit false

namespace CheckerTrials
namespace Disk

/-- The disks have the same folders, and what else they have may differ at the locations `own` only. -/
structure DiffersAt (own : Location → Prop) (d e : Disk) : Prop where
  /-- The working folder is the same. -/
  home : e.home = d.home
  /-- A difference is where it may be, and there is no folder. -/
  entry : ∀ l, e.get? l = d.get? l ∨ own l ∧ d.get? l ≠ some .folder ∧ e.get? l ≠ some .folder

variable {own : Location → Prop} {d e f : Disk} {p : Path} {l : Location}

namespace DiffersAt

theorem refl (own : Location → Prop) (d : Disk) : DiffersAt own d d := ⟨rfl, fun _ => .inl rfl⟩

theorem symm (h : DiffersAt own d e) : DiffersAt own e d := by
  refine ⟨h.home.symm, fun l => ?_⟩
  rcases h.entry l with heq | ⟨hl, hd, he⟩
  · exact .inl heq.symm
  · exact .inr ⟨hl, he, hd⟩

theorem trans (h : DiffersAt own d e) (h' : DiffersAt own e f) : DiffersAt own d f := by
  refine ⟨h'.home.trans h.home, fun l => ?_⟩
  rcases h.entry l with heq | ⟨hl, hd, he⟩
  · rw [← heq]
    exact h'.entry l
  · right
    refine ⟨hl, hd, fun hf => ?_⟩
    rcases h'.entry l with heq | ⟨-, -, hne⟩
    · exact he (heq ▸ hf)
    · exact hne hf

/-- Elsewhere everything is the same. -/
theorem get?_eq (h : DiffersAt own d e) (hl : ¬ own l) : e.get? l = d.get? l :=
  (h.entry l).resolve_right fun hown => hl hown.1

/-- The folders are the same. -/
theorem get?_eq_folder_iff (h : DiffersAt own d e) : e.get? l = some .folder ↔ d.get? l = some .folder := by
  rcases h.entry l with heq | ⟨-, hd, he⟩
  · rw [heq]
  · exact ⟨fun hf => absurd hf he, fun hf => absurd hf hd⟩

theorem grows (h : DiffersAt own d e) : d.Grows e := ⟨h.home, fun _ => h.get?_eq_folder_iff.2⟩

/-- **An edit** makes a difference where its path leads to. -/
theorem edit {change : Option Entry → Except Cause (Option Entry)} (hspares : SparesFolders change)
    (hmakes : MakesNoFolder change) (hown : ∀ l, d.locate p = .ok l → own l) (h : d.edit p change = .ok e) :
    DiffersAt own d e := by
  obtain ⟨l, o, hl, ho, rfl⟩ := edit_eq_ok_iff.1 h
  have hfolder : d.get? l ≠ some .folder := hspares.ne_folder ho
  have hne : l ≠ [] := ne_nil_of_get?_ne hfolder
  refine ⟨home_set d l o, fun m => ?_⟩
  by_cases hm : m = l
  · subst hm
    refine .inr ⟨hown m hl, hfolder, ?_⟩
    rw [get?_set_self d hne]
    rintro rfl
    exact hmakes _ ho
  · exact .inl (get?_set_of_ne d hm o)

/-! ## Where paths lead -/

theorem locate_iff (h : DiffersAt own d e) : e.locate p = .ok l ↔ d.locate p = .ok l :=
  ⟨locate_of_grows h.symm.grows, locate_of_grows h.grows⟩

/-- **Other paths lead to the same files.** -/
theorem sameFile (h : DiffersAt own d e) (hp : ∀ l, d.locate p = .ok l → ¬ own l) : SameFile p d e := by
  intro content executable
  rw [find_eq_file_iff, find_eq_file_iff]
  refine and_congr_right fun _ => exists_congr fun l => ?_
  rw [h.locate_iff]
  refine and_congr_right fun hl => ?_
  rw [h.get?_eq (hp l hl)]

theorem isFolder_eq (h : DiffersAt own d e) (p : Path) : e.isFolder p = d.isFolder p := by
  rw [Bool.eq_iff_iff, isFolder_iff, isFolder_iff]
  refine exists_congr fun l => ?_
  rw [h.locate_iff, h.get?_eq_folder_iff]

/-! ## What is listed -/

/-- **The same folders are listed.** -/
theorem mem_children_folder_iff (h : DiffersAt own d e) (hd : d.WellFormed) (he : e.WellFormed)
    {name : String} : (name, Entry.folder) ∈ e.children l ↔ (name, Entry.folder) ∈ d.children l := by
  rw [hd.mem_children, he.mem_children, h.get?_eq_folder_iff]

end DiffersAt

/-! ## Reading the same file -/

theorem SameFile.symm (h : SameFile p d e) : SameFile p e d := fun content executable =>
  (h content executable).symm

theorem readBytes_eq_ok_iff {content : ByteArray} :
    d.readBytes p = .ok content ↔ ∃ executable, d.find p = .ok (.file content executable) := by
  rw [readBytes, bind_eq_ok_iff]
  constructor
  · rintro ⟨entry, hfind, hentry⟩
    cases entry with
    | folder => cases hentry
    | file before executable =>
      cases hentry
      exact ⟨executable, hfind⟩
  · rintro ⟨executable, hfind⟩
    exact ⟨_, hfind, rfl⟩

theorem SameFile.readBytes_eq_ok_iff (h : SameFile p d e) {content : ByteArray} :
    e.readBytes p = .ok content ↔ d.readBytes p = .ok content := by
  rw [Disk.readBytes_eq_ok_iff, Disk.readBytes_eq_ok_iff]
  exact exists_congr fun executable => h content executable

theorem SameFile.readText_eq_ok_iff (h : SameFile p d e) {text : String} :
    e.readText p = .ok text ↔ d.readText p = .ok text :=
  ⟨h.symm.readText_eq_ok, h.readText_eq_ok⟩

end Disk

/-! ## The texts on a disk -/

/-- The text of an entry, if it is a file that holds one. -/
def Entry.text? : Entry → Option String
  | .folder => none
  | .file content _ => String.fromUTF8? content

/-- A text that can be read is the text of an entry. -/
theorem Disk.exists_mem_of_readText {d : Disk} {p : Path} {text : String} (h : d.readText p = .ok text) :
    ∃ q ∈ d.entries, q.2.text? = some text := by
  rw [readText, bind_eq_ok_iff] at h
  obtain ⟨content, hbytes, htext⟩ := h
  obtain ⟨executable, hfind⟩ := readBytes_eq_ok_iff.1 hbytes
  obtain ⟨-, l, -, hget⟩ := find_eq_file_iff.1 hfind
  have hmem : (l, Entry.file content executable) ∈ d.entries :=
    have hne : d.get? l ≠ some .folder := by simp [hget]
    mem_of_get? (ne_nil_of_get?_ne hne) hget
  refine ⟨_, hmem, ?_⟩
  rw [Entry.text?]
  split at htext
  · rename_i s hs
    cases htext
    exact hs
  · cases htext

end CheckerTrials
