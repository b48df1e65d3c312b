import CheckerTrials.Proofs.Files.Beside
import CheckerTrials.Proofs.Plan.Perform

/-!
# Filling a folder

Reports and series are written one by one into a folder that is created first.  All that such work can do to the
rest of the disk is said here once: nothing.  A file that is written under a name of its own in a folder is an
entry of that folder (`Filled.of_writeText`), so that a disk on which several were written is the one from before
with files under these names in the folder (`Disk.Filled`), whether the work was finished or ended at a failure
(`Work.Fills`).  If the folder had to be created, the other difference is what `Disk.createFolders` adds on the
way to it (`Disk.FillsFolder`).
-/

set_option autoImplicit false

namespace CheckerTrials

/-- A name that means an entry of the folder that it is joined to: it is a single step, and neither the folder
itself nor the one above.  It may be too long for the system. -/
structure Path.NamesEntry (name : String) : Prop where
  /-- It is a single step. -/
  isStep : Path.IsStep name.toList
  /-- It does not mean the folder itself or the one above. -/
  points : name ≠ "." ∧ name ≠ ".."

namespace Disk

variable {d e f : Disk} {p : Path} {l : Location} {names : List String} {name : String}

/-! ## Files in a folder -/

/-- The disk `e` is the disk `d` with files written into the folder at `l`: whatever is different is a file
directly inside the folder, under one of the names, where no folder was. -/
structure Filled (d : Disk) (l : Location) (names : List String) (e : Disk) : Prop where
  /-- The working folder is the same. -/
  home : e.home = d.home
  /-- Nothing is changed but files in the folder. -/
  entry : ∀ m, e.get? m = d.get? m ∨
    (∃ name ∈ names, Path.IsName name ∧ m = l ++ [name]) ∧ d.get? m ≠ some .folder ∧
      ∃ content executable, e.get? m = some (.file content executable)

namespace Filled

theorem refl (d : Disk) (l : Location) (names : List String) : d.Filled l names d := ⟨rfl, fun _ => .inl rfl⟩

/-- No folder is made or lost. -/
theorem get?_eq_folder_iff (h : d.Filled l names e) (m : Location) :
    e.get? m = some .folder ↔ d.get? m = some .folder := by
  rcases h.entry m with hsame | ⟨-, hd, content, executable, he⟩
  · rw [hsame]
  · exact ⟨fun hfolder => by simp [he] at hfolder, fun hfolder => absurd hfolder hd⟩

theorem grows (h : d.Filled l names e) : d.Grows e := ⟨h.home, fun m => (h.get?_eq_folder_iff m).2⟩

theorem trans (h : d.Filled l names e) (h' : e.Filled l names f) : d.Filled l names f := by
  refine ⟨h'.home.trans h.home, fun m => ?_⟩
  rcases h'.entry m with hf | ⟨hm, he, hfile⟩
  · rw [hf]
    exact h.entry m
  · exact .inr ⟨hm, fun hd => he ((h.get?_eq_folder_iff m).2 hd), hfile⟩

theorem mono {more : List String} (h : d.Filled l names e) (hsubset : names ⊆ more) : d.Filled l more e := by
  refine ⟨h.home, fun m => (h.entry m).imp_right ?_⟩
  rintro ⟨⟨name, hname, hm⟩, hfile⟩
  exact ⟨⟨name, hsubset hname, hm⟩, hfile⟩

/-- **A file that is written into a folder** under a name of its own is all that changes. -/
theorem of_writeText {text : String} (hat : d.FolderAt p l) (hname : Path.NamesEntry name)
    (h : d.writeText (p.join name) text = .ok e) : d.Filled l [name] e := by
  rw [writeText_eq] at h
  obtain ⟨m, o, hm, ho, rfl⟩ := edit_eq_ok_iff.1 h
  obtain ⟨rfl, hshort⟩ := hat.eq_of_locate_join hname.isStep hname.points hm
  have hd := (sparesFolders_overwrite _ _).ne_folder ho
  obtain ⟨executable, rfl⟩ := overwrite_eq_ok ho
  refine ⟨home_set d _ _, fun m => ?_⟩
  by_cases hml : m = l ++ [name]
  · subst hml
    have hisName : Path.IsName name :=
      ⟨hname.isStep.1, hname.isStep.2, hname.points.1, hname.points.2, hshort⟩
    exact .inr ⟨⟨name, List.mem_singleton_self name, hisName, rfl⟩, hd, _, executable,
      get?_set_self d (ne_nil_of_get?_ne hd) _⟩
  · exact .inl (get?_set_of_ne d hml _)

/-- A file under another name is the same as before. -/
theorem sameFile (h : d.Filled l names e) (hat : d.FolderAt p l) (hname : Path.NamesEntry name)
    (hother : name ∉ names) : SameFile (p.join name) d e := by
  intro content executable
  have hback : e.Grows d := ⟨h.home.symm, fun m => (h.get?_eq_folder_iff m).1⟩
  rw [find_eq_file_iff, find_eq_file_iff]
  refine and_congr_right fun _ => exists_congr fun m => ?_
  have hlocate : e.locate (p.join name) = .ok m ↔ d.locate (p.join name) = .ok m :=
    ⟨locate_of_grows hback, locate_of_grows h.grows⟩
  rw [hlocate]
  refine and_congr_right fun hm => ?_
  obtain ⟨rfl, -⟩ := hat.eq_of_locate_join hname.isStep hname.points hm
  rcases h.entry (l ++ [name]) with hsame | ⟨⟨other, hmem, -, heq⟩, -⟩
  · rw [hsame]
  · obtain rfl : name = other := List.singleton_inj.1 (List.append_cancel_left heq)
    exact absurd hmem hother

end Filled

/-- The disk `e` is the disk `d` after a folder was created and files were written into it.  If the folder could
not be created, there is nothing but what was made on the way to it. -/
def FillsFolder (d : Disk) (p : Path) (names : List String) (e : Disk) : Prop :=
  match d.createFolders p with
  | (.ok (), made) => ∃ l, made.FolderAt p l ∧ made.Filled l names e
  | (.error _, made) => e = made

/-- A folder that has been created is there. -/
theorem exists_folderAt (h : (d.createFolders p).1 = .ok ()) : ∃ l, (d.createFolders p).2.FolderAt p l := by
  obtain ⟨-, l, hw, hl⟩ := leads_createFolders h
  rw [← startOf_grows (gains_createFolders d p).grows] at hw
  exact ⟨l, hw, hl⟩

end Disk

/-! ## Work that fills a folder -/

namespace Work

open Disk

variable {ε α β : Type} {p : Path} {names : List String}

/-- Work that writes nothing but files under the given names into a folder, even if it fails. -/
def Fills (p : Path) (names : List String) (w : Work ε α) : Prop :=
  ∀ (d : Disk) (l : Location), d.FolderAt p l → d.Filled l names (on w d).disk

namespace Fills

theorem pure (a : α) : Fills p names (Pure.pure a : Work ε α) := fun d l _ => .refl d l names

theorem note (x : Noted α) : Fills p names (Work.note x : Work ε α) := fun d l _ => by
  rw [on_note]
  exact .refl d l names

theorem bind {w : Work ε α} {f : α → Work ε β} (hw : Fills p names w) (hf : ∀ a, Fills p names (f a)) :
    Fills p names (w >>= f) := by
  intro d l hat
  have hfirst := hw d l hat
  cases hresult : (on w d).result with
  | error e =>
    rw [(on_bind_error hresult f).2]
    exact hfirst
  | ok a =>
    rw [(on_bind_ok hresult f).2]
    exact hfirst.trans (hf a _ l (hat.grows hfirst.grows))

theorem mono {more : List String} {w : Work ε α} (hw : Fills p names w) (h : names ⊆ more) : Fills p more w :=
  fun d l hat => (hw d l hat).mono h

theorem mapM {f : α → Work ε β} {xs : List α} (h : ∀ a ∈ xs, Fills p names (f a)) :
    Fills p names (xs.mapM f) := by
  induction xs with
  | nil => exact .pure []
  | cons a rest ih =>
    rw [List.mapM_cons]
    exact (h a List.mem_cons_self).bind fun b =>
      (ih fun c hc => h c (List.mem_cons_of_mem a hc)).bind fun bs => .pure (b :: bs)

theorem forM {f : α → Work ε Unit} {xs : List α} (h : ∀ a ∈ xs, Fills p names (f a)) :
    Fills p names (xs.forM f) := by
  induction xs with
  | nil => exact .pure ()
  | cons a rest ih =>
    exact (h a List.mem_cons_self).bind fun _ => ih fun c hc => h c (List.mem_cons_of_mem a hc)

/-- Writing a file, in whatever words the failure is told. -/
theorem writeText {name : String} (hname : Path.NamesEntry name) (text : String) (f : Cause → ε) :
    Fills p [name] (change fun d => (d.writeText (p.join name) text).mapError f) := by
  intro d l hat
  rw [on_change]
  cases hwrite : d.writeText (p.join name) text with
  | error cause => exact .refl d l [name]
  | ok e => exact .of_writeText hat hname hwrite

end Fills

/-- **Creating a folder and filling it** changes nothing outside. -/
theorem fillsFolder_of_fills {create : Work ε Unit} {w : Work ε α} (d : Disk)
    (hresult : (on create d).result.isOk = (d.createFolders p).1.isOk)
    (hdisk : (on create d).disk = (d.createFolders p).2) (hw : Fills p names w) :
    d.FillsFolder p names (on (create >>= fun _ => w) d).disk := by
  rw [FillsFolder]
  split
  · rename_i made hmade
    have hok : (on create d).result.isOk = true := by rw [hresult, hmade]; rfl
    obtain ⟨_, hcreated⟩ := exists_of_isOk hok
    obtain ⟨l, hat⟩ := exists_folderAt (congrArg Prod.fst hmade)
    rw [hmade] at hat hdisk
    rw [(on_bind_ok hcreated fun _ => w).2, hdisk]
    exact ⟨l, hat, hw made l hat⟩
  · rename_i cause made hmade
    have hfailed : (on create d).result.isOk = false := by rw [hresult, hmade]; rfl
    cases hcreated : (on create d).result with
    | ok u => simp [hcreated, Except.isOk, Except.toBool] at hfailed
    | error e =>
      rw [(on_bind_error hcreated fun _ => w).2, hdisk, hmade]

end Work

end CheckerTrials
