import CheckerTrials.Proofs.Files.Listing
import CheckerTrials.Proofs.Files.Beside
import CheckerTrials.Proofs.Plan.Names
import CheckerTrials.Proofs.Trial.Reading
import CheckerTrials.Reachability.Collection

/-!
# A results tree

Below the folder of results there is a folder for each model, and that one or the folders in it hold the files of
experiments.  Different models have different folders (`exists_of_locate_folder`), so have different choices of the
constants of one model (`exists_split_folders`), and experiments of different names have different files
(`name_eq_of_append`).

* `IsListed`: an experiment of a results tree.
* `HoldsContent`: where it keeps what it was and what came of it.
-/

set_option autoImplicit false

namespace CheckerTrials

open Disk CheckerTrials.Path

/-- An experiment of a results tree: its name is listed in one of the folders of a model. -/
structure IsListed (d : Disk) (root : Path) (model : String) (folders : List Path) (folder : Path)
    (name : String) : Prop where
  /-- The model is there. -/
  hasModel : ∃ models, folderNames d root = .ok models ∧ model ∈ models
  /-- It has these folders. -/
  hasFolders : experimentFolders d (root.join model) = .ok folders
  /-- The folder is one of them. -/
  isFolder : folder ∈ folders
  /-- The experiment is in it. -/
  hasName : ∃ names, experimentNames d folder = .ok names ∧ name ∈ names

/-! ## Where the files of an experiment are -/

/-- The name of a file beside a path. -/
theorem Path.isStep_beside {name suffix : String} (hname : '/' ∉ name.toList) (hs : IsSuffix suffix) :
    IsStep (name ++ suffix).toList ∧ name ++ suffix ≠ "." ∧ name ++ suffix ≠ ".." := by
  have hlong : 2 < (name ++ suffix).toList.length := by
    have := hs.long
    rw [String.toList_append, List.length_append]
    omega
  refine ⟨⟨fun hnil => ?_, ?_⟩, fun he => ?_, fun he => ?_⟩
  · rw [hnil] at hlong
    exact absurd hlong (by decide)
  · rw [String.toList_append, List.mem_append, not_or]
    exact ⟨hname, hs.slash⟩
  · rw [he] at hlong
    exact absurd hlong (by decide)
  · rw [he] at hlong
    exact absurd hlong (by decide)

/-- A suffix goes to the name at the end, also if that name is empty. -/
theorem Path.withSuffix_join_beside (p : Path) {name suffix : String} (hname : '/' ∉ name.toList)
    (hs : IsSuffix suffix) : (p.join name).withSuffix suffix = p.join (name ++ suffix) := by
  have hhead : name.toList.head? ≠ some '/' := fun h => hname (List.mem_of_mem_head? h)
  rw [join, join, if_neg hhead, if_neg (head?_ne_slash (isStep_beside hname hs).1)]
  split
  · rw [withSuffix, String.append_assoc]
  · rw [withSuffix, String.append_assoc]

/-- The suffixes of the files that hold what an experiment was and what came of it. -/
def contentSuffixes : List String := [setupSuffix, logSuffix, jsonSuffix]

/-- The locations of these files. -/
def HoldsContent (d : Disk) (base : Path) (l : Location) : Prop :=
  ∃ suffix ∈ contentSuffixes, d.locate (base.withSuffix suffix) = .ok l

theorem isSuffix_of_mem {suffix : String} (h : suffix ∈ contentSuffixes) : IsSuffix suffix := by
  rw [contentSuffixes, List.mem_cons, List.mem_cons, List.mem_singleton] at h
  obtain rfl | rfl | rfl := h <;> decide

theorem getLast?_append_suffix {suffix : String} (h : suffix ∈ contentSuffixes) (name : String) :
    (name ++ suffix).toList.getLast? = suffix.toList.getLast? := by
  have hne : ∀ s ∈ contentSuffixes, s.toList ≠ [] := by decide
  rw [String.toList_append, List.getLast?_append_of_ne_nil _ (hne suffix h)]

/-- Files of different names are different, whatever their suffixes. -/
theorem name_eq_of_append {s t name name' : String} (hs : s ∈ contentSuffixes) (ht : t ∈ contentSuffixes)
    (h : name ++ s = name' ++ t) : name = name' := by
  have hlast := congrArg (fun text => text.toList.getLast?) h
  simp only [getLast?_append_suffix hs, getLast?_append_suffix ht] at hlast
  have hsame : ∀ s ∈ contentSuffixes, ∀ t ∈ contentSuffixes, s.toList.getLast? = t.toList.getLast? → s = t := by
    decide
  rw [hsame s hs t ht hlast] at h
  exact (String.append_left_inj t).1 h

theorem isStep_constantsFile :
    IsStep constantsFile.toList ∧ constantsFile ≠ "." ∧ constantsFile ≠ ".." := by
  unfold IsStep
  decide

/-- None of them holds the constants. -/
theorem constantsFile_ne_append {suffix : String} (h : suffix ∈ contentSuffixes) (name : String) :
    constantsFile ≠ name ++ suffix := by
  intro he
  have hlast := congrArg (fun text => text.toList.getLast?) he
  simp only [getLast?_append_suffix h] at hlast
  have hne : ∀ s ∈ contentSuffixes, constantsFile.toList.getLast? ≠ s.toList.getLast? := by decide
  exact hne suffix h hlast

section

variable {d e : Disk} {marker : String} {base folder other : Path} {name : String} {l : Location}

/-- The contents of an experiment are in its folder, under its name. -/
theorem HoldsContent.exists_eq (hfolder : folder.text ≠ "") (hname : '/' ∉ name.toList)
    (h : HoldsContent d (folder.join name) l) :
    ∃ suffix ∈ contentSuffixes, ∃ m, d.locate folder = .ok m ∧ l = m ++ [name ++ suffix] := by
  obtain ⟨suffix, hmem, hl⟩ := h
  have hs := isSuffix_of_mem hmem
  rw [withSuffix_join_beside folder hname hs] at hl
  obtain ⟨hstep, hpoints⟩ := isStep_beside hname hs
  exact ⟨suffix, hmem, exists_of_locate_join hfolder hstep hpoints hl⟩

/-- No file in another folder holds any of them. -/
theorem not_holdsContent_of_folder (hfolder : folder.text ≠ "") (hother : other.text ≠ "")
    (hname : '/' ∉ name.toList) (hne : ∀ m, d.locate folder = .ok m → d.locate other ≠ .ok m) {file : String}
    (hfile : IsStep file.toList) (hpoints : file ≠ "." ∧ file ≠ "..") (hl : d.locate (other.join file) = .ok l) :
    ¬ HoldsContent d (folder.join name) l := by
  intro h
  obtain ⟨suffix, -, m, hm, rfl⟩ := h.exists_eq hfolder hname
  obtain ⟨m', hm', heq⟩ := exists_of_locate_join hother hfile hpoints hl
  obtain ⟨rfl, -⟩ := List.append_inj' heq rfl
  exact hne m hm hm'

/-- No file of another name holds any of them. -/
theorem not_holdsContent_of_ne (hfolder : folder.text ≠ "") (hname : '/' ∉ name.toList) {file : String}
    (hfile : IsStep file.toList) (hpoints : file ≠ "." ∧ file ≠ "..")
    (hne : ∀ suffix ∈ contentSuffixes, file ≠ name ++ suffix) (hl : d.locate (folder.join file) = .ok l) :
    ¬ HoldsContent d (folder.join name) l := by
  intro h
  obtain ⟨suffix, hmem, m, -, rfl⟩ := h.exists_eq hfolder hname
  obtain ⟨m', -, heq⟩ := exists_of_locate_join hfolder hfile hpoints hl
  obtain ⟨-, hnames⟩ := List.append_inj' heq rfl
  exact hne suffix hmem (List.singleton_inj.1 hnames).symm

/-! ## The names in a tree -/

theorem eq_of_experimentName? {file : String} (h : experimentName? file = some name) :
    file = name ++ setupSuffix := by
  rw [experimentName?, Option.ite_none_right_eq_some] at h
  obtain ⟨hsuffix, hname⟩ := h
  obtain ⟨front, hfront⟩ := List.isSuffixOf_iff_suffix.1 hsuffix
  rw [← hfront, List.length_append, Nat.add_sub_cancel, List.take_left] at hname
  rw [← String.toList_inj, String.toList_append, ← hfront, ← Option.some.inj hname, String.toList_ofList]

/-- So are the names of experiments. -/
theorem nodup_experimentNames (hd : d.WellFormed) {names : List String}
    (h : experimentNames d folder = .ok names) : names.Nodup ∧ ∀ name ∈ names, '/' ∉ name.toList := by
  obtain ⟨es, hes, rfl⟩ := map_eq_ok_iff.1 h
  obtain ⟨l, -, -, rfl⟩ := list_eq_ok_iff.1 hes
  refine ⟨?_, fun name hname => ?_⟩
  · rw [(perm_sortBy _ _).nodup_iff, List.Nodup, List.pairwise_filterMap]
    refine (List.pairwise_map.1 hd.nodup_children).imp fun {q r} hne x hx y hy hxy => hne ?_
    rw [eq_of_experimentName? hx, eq_of_experimentName? hy, hxy]
  · rw [mem_sortBy, List.mem_filterMap] at hname
    obtain ⟨⟨file, entry⟩, hfile, hname⟩ := hname
    have hget := hd.mem_children.1 hfile
    have hslash := (hd.names_of_get? hget file (by simp)).slash
    have hfile : file = name ++ setupSuffix := eq_of_experimentName? hname
    rw [hfile, String.toList_append, List.mem_append, not_or] at hslash
    exact hslash.1

/-- The folders of a model are its own folder or different folders in it. -/
theorem exists_of_experimentFolders (hd : d.WellFormed) {folders : List Path}
    (h : experimentFolders d base = .ok folders) :
    folders = [base] ∨
      ∃ names : List String, names.Nodup ∧ (∀ name ∈ names, IsName name) ∧ folders = names.map base.join := by
  rw [experimentFolders] at h
  split at h
  · exact .inl (Except.ok.inj h).symm
  · obtain ⟨names, hnames, rfl⟩ := map_eq_ok_iff.1 h
    obtain ⟨hnodup, hname⟩ := nodup_folderNames hd hnames
    rw [List.filter_map]
    exact .inr ⟨_, hnodup.filter _, fun n hn => hname n (List.mem_filter.1 hn).1, rfl⟩

theorem ne_empty_of_mem_experimentFolders (hd : d.WellFormed) {folders : List Path} (hbase : base.text ≠ "")
    (h : experimentFolders d base = .ok folders) (hfolder : folder ∈ folders) : folder.text ≠ "" := by
  obtain rfl | ⟨names, -, hnames, rfl⟩ := exists_of_experimentFolders hd h
  · rwa [List.mem_singleton.1 hfolder]
  · obtain ⟨n, hn, rfl⟩ := List.mem_map.1 hfolder
    exact join_ne_empty base (hnames n hn).isStep

/-- The folder of an experiment is below the folder of its model. -/
theorem exists_of_locate_folder (hd : d.WellFormed) {folders : List Path} {model : String} (hbase : base.text ≠ "")
    (hmodel : IsName model) (h : experimentFolders d (base.join model) = .ok folders) (hfolder : folder ∈ folders)
    (hl : d.locate folder = .ok l) : ∃ r below, d.locate base = .ok r ∧ l = r ++ model :: below := by
  have hpoints := And.intro hmodel.ne_here hmodel.ne_above
  obtain rfl | ⟨names, -, hnames, rfl⟩ := exists_of_experimentFolders hd h
  · rw [List.mem_singleton.1 hfolder] at hl
    obtain ⟨r, hr, rfl⟩ := exists_of_locate_join hbase hmodel.isStep hpoints hl
    exact ⟨r, [], hr, rfl⟩
  · obtain ⟨n, hn, rfl⟩ := List.mem_map.1 hfolder
    have hname := hnames n hn
    obtain ⟨m, hm, rfl⟩ := exists_of_locate_join (join_ne_empty base hmodel.isStep) hname.isStep
      hname.ne_points hl
    obtain ⟨r, hr, rfl⟩ := exists_of_locate_join hbase hmodel.isStep hpoints hm
    exact ⟨r, [n], hr, by simp⟩

/-- **A folder of a model stands once** among its folders, and the others are elsewhere. -/
theorem exists_split_folders (hd : d.WellFormed) {folders : List Path} (hbase : base.text ≠ "")
    (h : experimentFolders d base = .ok folders) (hfolder : folder ∈ folders) :
    ∃ before after, folders = before ++ folder :: after ∧ folder ∉ before ∧
      ∀ other ∈ before ++ after, ∀ l, d.locate folder = .ok l → d.locate other ≠ .ok l := by
  obtain rfl | ⟨names, hnodup, hnames, rfl⟩ := exists_of_experimentFolders hd h
  · obtain rfl := List.mem_singleton.1 hfolder
    exact ⟨[], [], rfl, List.not_mem_nil, fun other hother => absurd hother List.not_mem_nil⟩
  · obtain ⟨n, hn, rfl⟩ := List.mem_map.1 hfolder
    obtain ⟨before, after, rfl, hnot⟩ := exists_split hnodup hn
    have hne : ∀ m ∈ before ++ after, m ≠ n := fun m hm heq => hnot (heq ▸ hm)
    have hname : ∀ m ∈ before ++ after, IsName m := fun m hm => hnames m (mem_split_of_mem hm)
    refine ⟨before.map base.join, after.map base.join, by simp, fun hmem => ?_, fun other hother l hl hl' => ?_⟩
    · obtain ⟨m, hm, heq⟩ := List.mem_map.1 hmem
      have hm' := List.mem_append_left after hm
      have hsteps := congrArg steps heq
      rw [steps_join_name base (hname m hm').isStep, steps_join_name base (hnames n hn).isStep] at hsteps
      exact hne m hm' (by simpa using hsteps)
    · rw [← List.map_append] at hother
      obtain ⟨m, hm, rfl⟩ := List.mem_map.1 hother
      have hmn := hname m hm
      have hnn := hnames n hn
      exact locate_join_ne hbase hmn.isStep hmn.ne_points hnn.isStep hnn.ne_points (hne m hm).symm hl hl'

end

end CheckerTrials
