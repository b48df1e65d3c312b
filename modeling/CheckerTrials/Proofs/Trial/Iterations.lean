import CheckerTrials.Proofs.Files.Relisting
import CheckerTrials.Proofs.Ordered.Stability
import CheckerTrials.Proofs.Text.ByteOrder
import CheckerTrials.Proofs.Trial.Runs

/-!
# The numbers of iterations

Every folder below the folder of the results is taken for an iteration.  Its number is in its name, or else it is its
place among all of them (`HasNumber`).  The folders are sorted twice, first by their names and then by their numbers,
and as sorting is stable, the names still decide where the numbers leave something open.  What this leads to is said by
`NumbersFolders` without the two sorts, and there is only one list of which that is true (`NumbersFolders.unique`).

The runs are read from one folder after the other, and so they are in the order of the numbers of their folders, the
names of their folders and their own numbers (`PlacedRun.Before`).

* `exists_readsIterations`: all of it, for a folder that lists no name twice.  In which order the system lists the
  entries of any folder makes no difference.
-/

set_option autoImplicit false

namespace CheckerTrials

open Disk

variable {d e : Disk} {root : Path} {es : List (String × Entry)} {names : List String} {name : String}
  {numbered other : List (Nat × String)} {options : LoadOptions} {i : Nat}

/-! ## The number of a folder -/

/-- **The number of a folder** among folders with the given names. -/
inductive HasNumber (names : List String) (name : String) : Nat → Prop
  /-- The name is the word and a number, which may be written with zeros or a sign in front of it. -/
  | written (i : Nat) (digits : List Char) (hname : name.toList = iterationWord.toList ++ digits)
    (hdigits : Decimal.Writes i digits) (hi : i ≤ Decimal.wordLimit) : HasNumber names name i
  /-- The name is none like that, and the number is the place of the folder: how many of the names come before its
  name. -/
  | placed (hname : ∀ i digits, name.toList = iterationWord.toList ++ digits → Decimal.Writes i digits →
      Decimal.wordLimit < i) :
    HasNumber names name (names.countP fun other => Text.bytes other < Text.bytes name)

theorem iterationNumber?_eq_none_iff : iterationNumber? name = none ↔
    ∀ i digits, name.toList = iterationWord.toList ++ digits → Decimal.Writes i digits → Decimal.wordLimit < i := by
  simp only [Option.eq_none_iff_forall_ne_some, ne_eq, iterationNumber?_eq_some_iff, not_exists, not_and, Nat.not_le]

/-- The number of a folder, computed. -/
def folderNumber (names : List String) (name : String) : Nat :=
  (iterationNumber? name).getD (names.countP fun other => Text.bytes other < Text.bytes name)

/-- **Every folder has one number.** -/
theorem hasNumber_iff : HasNumber names name i ↔ i = folderNumber names name := by
  constructor
  · intro h
    cases h with
    | written i digits hname hdigits hi =>
      rw [folderNumber, iterationNumber?_eq_some_iff.2 ⟨digits, hname, hdigits, hi⟩, Option.getD_some]
    | placed hname => rw [folderNumber, iterationNumber?_eq_none_iff.2 hname, Option.getD_none]
  · rintro rfl
    cases hnumber : iterationNumber? name with
    | some i =>
      obtain ⟨digits, hname, hdigits, hi⟩ := iterationNumber?_eq_some_iff.1 hnumber
      rw [folderNumber, hnumber, Option.getD_some]
      exact .written i digits hname hdigits hi
    | none =>
      rw [folderNumber, hnumber, Option.getD_none]
      exact .placed (iterationNumber?_eq_none_iff.1 hnumber)

/-- The order of the names does not matter. -/
theorem folderNumber_congr {names' : List String} (h : names'.Perm names) :
    folderNumber names' name = folderNumber names name := by
  rw [folderNumber, folderNumber, h.countP_eq]

/-! ## Numbering folders -/

/-- One folder comes before another one: its number is less, or it is the same and the name comes before the other
one. -/
def ComesBefore (q r : Nat × String) : Prop := q.1 < r.1 ∨ q.1 = r.1 ∧ Text.bytes q.2 < Text.bytes r.2

/-- The comparison of folders by their numbers and then by their names. -/
def compareFolders : Nat × String → Nat × String → Ordering :=
  compareLex (compareOn Prod.fst) (compareOn Prod.snd)

theorem compareFolders_eq_lt_iff {q r : Nat × String} : compareFolders q r = .lt ↔ ComesBefore q r := by
  rw [compareFolders, compareLex, Ordering.then_eq_lt, compareOn, compareOn, Nat.compare_eq_lt, Nat.compare_eq_eq,
    Text.compare_eq_lt_iff]
  rfl

instance : Std.TransCmp compareFolders := inferInstanceAs (Std.TransCmp (compareLex _ _))

theorem ComesBefore.asymm {q r : Nat × String} (h : ComesBefore q r) : ¬ ComesBefore r q := fun hrq => by
  have hgt := Std.OrientedCmp.gt_of_lt (compareFolders_eq_lt_iff.2 h)
  rw [compareFolders_eq_lt_iff.2 hrq] at hgt
  cases hgt

/-- **Folders with their numbers**, in order. -/
structure NumbersFolders (names : List String) (numbered : List (Nat × String)) : Prop where
  /-- Each of the folders is there as often as it is given, and nothing else. -/
  perm : (numbered.map Prod.snd).Perm names
  /-- Each of them has its number. -/
  number : ∀ q ∈ numbered, HasNumber names q.2 q.1
  /-- They are in the order of their numbers, and those with the same number in the order of their names. -/
  sorted : numbered.Pairwise ComesBefore

namespace NumbersFolders

theorem eq_map (h : NumbersFolders names numbered) :
    numbered = (numbered.map Prod.snd).map fun name => (folderNumber names name, name) := by
  rw [List.map_map]
  conv => lhs; rw [← List.map_id numbered]
  refine List.map_congr_left fun q hq => ?_
  exact Prod.ext (hasNumber_iff.1 (h.number q hq)) rfl

/-- The order in which the names are given does not matter. -/
theorem of_perm {names' : List String} (h : NumbersFolders names numbered) (hnames : names'.Perm names) :
    NumbersFolders names' numbered where
  perm := h.perm.trans hnames.symm
  number q hq := hasNumber_iff.2 ((hasNumber_iff.1 (h.number q hq)).trans (folderNumber_congr hnames).symm)
  sorted := h.sorted

/-- **There is one such list.** -/
theorem unique (h : NumbersFolders names numbered) (hother : NumbersFolders names other) : other = numbered := by
  have hperm : other.Perm numbered := by
    rw [h.eq_map, hother.eq_map]
    exact (hother.perm.trans h.perm.symm).map _
  exact hperm.eq_of_pairwise (fun _ _ _ _ hqr hrq => absurd hrq hqr.asymm) hother.sorted h.sorted

end NumbersFolders

/-- **The place of a name** in a list in order is the number of names that come before it. -/
theorem countP_eq_of_pairwise (h : names.Pairwise fun a b => Text.bytes a < Text.bytes b) {place : Nat}
    (hplace : names[place]? = some name) : (names.countP fun other => Text.bytes other < Text.bytes name) = place := by
  obtain ⟨before, after, rfl, rfl⟩ : ∃ before after, names = before ++ name :: after ∧ before.length = place := by
    obtain ⟨hlt, rfl⟩ := List.getElem?_eq_some_iff.1 hplace
    refine ⟨names.take place, names.drop (place + 1), ?_, List.length_take_of_le hlt.le⟩
    rw [← List.drop_eq_getElem_cons hlt, List.take_append_drop]
  obtain ⟨-, hrest, hbefore⟩ := List.pairwise_append.1 h
  rw [List.countP_append, List.countP_eq_length.2, List.countP_eq_zero.2, Nat.add_zero]
  · intro other hother
    rw [decide_eq_true_iff]
    rcases List.mem_cons.1 hother with rfl | hother
    · exact List.lt_irrefl _
    · exact List.lt_asymm (List.rel_of_pairwise_cons hrest hother)
  · exact fun other hother => decide_eq_true (hbefore other hother name List.mem_cons_self)

/-- **Numbering folders** that are in the order of their names. -/
theorem numberFolders_eq (h : names.Pairwise fun a b => Text.bytes a < Text.bytes b) :
    numberFolders names = sortBy compareFolders (names.map fun name => (folderNumber names name, name)) := by
  have hfolders : numberFolders names = sortBy (compareOn Prod.fst)
      (names.zipIdx.map fun q => ((iterationNumber? q.1).getD q.2, q.1)) := rfl
  have hnumbers : (names.zipIdx.map fun q => ((iterationNumber? q.1).getD q.2, q.1)) =
      (names.zipIdx.map Prod.fst).map fun name => (folderNumber names name, name) := by
    rw [List.map_map]
    refine List.map_congr_left fun q hq => ?_
    have hplace := countP_eq_of_pairwise h (List.mem_zipIdx_iff_getElem?.1 hq)
    rw [Function.comp_apply, folderNumber, hplace]
  rw [hfolders, hnumbers, List.zipIdx_map_fst, compareFolders, sortBy_compareLex]
  -- they are in the order of their names to begin with
  refine List.pairwise_map.2 (h.imp fun {a b} hab hba => ?_)
  exact List.lt_asymm hab (Text.compare_eq_lt_iff.1 hba)

theorem numbersFolders_numberFolders (h : names.Pairwise fun a b => Text.bytes a < Text.bytes b) :
    NumbersFolders names (numberFolders names) := by
  refine ⟨(numbered_numberFolders names).perm, ?_, ?_⟩ <;> rw [numberFolders_eq h]
  · intro q hq
    obtain ⟨name, -, rfl⟩ := List.mem_map.1 (mem_sortBy.1 hq)
    exact hasNumber_iff.2 rfl
  · have hnodup : ((names.map fun name => (folderNumber names name, name)).map Prod.snd).Nodup := by
      rw [List.map_map]
      refine List.pairwise_map.2 (h.imp ?_)
      rintro a _ hlt rfl
      exact List.lt_irrefl _ hlt
    have hkey : ∀ q r, compareFolders q r = .eq → q.2 = r.2 := fun _ _ heq =>
      Std.LawfulEqCmp.eq_of_compare (Ordering.then_eq_eq.1 heq).2
    exact (pairwise_lt_sortBy hkey hnodup).imp compareFolders_eq_lt_iff.1

/-- Different names are sorted into strict order. -/
theorem pairwise_bytes_sortBy (h : names.Nodup) :
    (sortBy compare names).Pairwise fun a b => Text.bytes a < Text.bytes b := by
  have hkey : ∀ a b : String, compare a b = .eq → id a = id b := fun _ _ => Std.LawfulEqCmp.eq_of_compare
  rw [← List.map_id names] at h
  exact (pairwise_lt_sortBy hkey h).imp Text.compare_eq_lt_iff.1

/-- The folders of a listing are numbered. -/
theorem exists_iterationFolders (hlist : d.list root = .ok es) (hnames : (es.map Prod.fst).Nodup) :
    ∃ numbered, NumbersFolders (subfolders es) numbered ∧
      iterationFolders d root = .ok (numbered.map fun q => (q.1, root.join q.2)) := by
  have hsorted := pairwise_bytes_sortBy (nodup_subfolders hnames)
  refine ⟨_, (numbersFolders_numberFolders hsorted).of_perm (perm_sortBy compare _).symm, ?_⟩
  rw [iterationFolders, folderNames_eq hlist]
  rfl

/-! ## The runs of all iterations -/

/-- A run that is read, with what decides where it stands. -/
structure PlacedRun where
  /-- The number of its iteration. -/
  iteration : Nat
  /-- The name of the folder of its iteration. -/
  folder : String
  /-- Its own number. -/
  run : Nat
  /-- What is read. -/
  trial : Trial Float

/-- One run comes before another one: its folder does, or it is in the same folder and its number is less. -/
def PlacedRun.Before (r s : PlacedRun) : Prop :=
  ComesBefore (r.iteration, r.folder) (s.iteration, s.folder) ∨
    (r.iteration, r.folder) = (s.iteration, s.folder) ∧ r.run < s.run

/-- **A run is read** from one of the folders. -/
structure PlacedRun.IsRead (d : Disk) (root : Path) (numbered : List (Nat × String)) (options : LoadOptions)
    (r : PlacedRun) : Prop where
  /-- Its folder is one of them. -/
  folder : (r.iteration, r.folder) ∈ numbered
  /-- Something in its folder has its number. -/
  run : ∃ inside, d.list (root.join r.folder) = .ok inside ∧ ∃ entry ∈ inside, runNumber? entry.1 = some r.run
  /-- It is read as this trial. -/
  trial : (loadRun d ((root.join r.folder).join r.run.repr) r.iteration options).value = some r.trial

/-- What is read of a folder, each run with its place. -/
def placedRuns (d : Disk) (root : Path) (options : LoadOptions) (q : Nat × String) : Except Cause (List PlacedRun) :=
  (numberedRuns d (root.join q.2) q.1 options).map (List.map fun r => ⟨q.1, q.2, r.1, r.2⟩)

/-- The results of a folder are its runs without their places. -/
theorem value_loadResults_eq_placedRuns
    (h : iterationFolders d root = .ok (numbered.map fun q => (q.1, root.join q.2))) :
    (loadResults d root options).value =
      (numbered.mapM (placedRuns d root options)).map fun runs => runs.flatten.map PlacedRun.trial :=
  value_loadResults_eq_labelled _ PlacedRun.trial h fun q =>
    value_loadIteration_eq_labelled (fun r => PlacedRun.mk q.1 q.2 r.1 r.2) PlacedRun.trial (fun _ => rfl) d
      (root.join q.2) q.1 options

/-- What is read of a folder is read of the runs that have a number there. -/
theorem mem_placedRuns_iff {q : Nat × String} {runs : List PlacedRun} (h : placedRuns d root options q = .ok runs)
    {r : PlacedRun} : r ∈ runs ↔ (r.iteration, r.folder) = q ∧
      (∃ inside, d.list (root.join r.folder) = .ok inside ∧ ∃ entry ∈ inside, runNumber? entry.1 = some r.run) ∧
      (loadRun d ((root.join r.folder).join r.run.repr) r.iteration options).value = some r.trial := by
  obtain ⟨trials, htrials, rfl⟩ := map_eq_ok_iff.1 h
  obtain ⟨numbers, hnumbers, rfl⟩ := map_eq_ok_iff.1 htrials
  obtain ⟨inside, hinside, rfl⟩ := map_eq_ok_iff.1 hnumbers
  simp only [List.mem_map, List.mem_filterMap, Option.map_eq_some_iff, mem_distinctNumbers]
  constructor
  · rintro ⟨_, ⟨n, ⟨entry, hentry, hn⟩, t, ht, rfl⟩, rfl⟩
    exact ⟨rfl, ⟨inside, hinside, entry, hentry, hn⟩, ht⟩
  · rintro ⟨rfl, ⟨inside', hinside', entry, hentry, hn⟩, ht⟩
    rw [hinside] at hinside'
    cases hinside'
    exact ⟨_, ⟨r.run, ⟨entry, hentry, hn⟩, r.trial, ht, rfl⟩, rfl⟩

theorem pairwise_placedRuns {q : Nat × String} {runs : List PlacedRun} (h : placedRuns d root options q = .ok runs) :
    runs.Pairwise PlacedRun.Before := by
  obtain ⟨trials, htrials, rfl⟩ := map_eq_ok_iff.1 h
  exact List.pairwise_map.2 ((pairwise_numberedRuns htrials).imp fun hlt => .inr ⟨rfl, hlt⟩)

/-- **The runs that trials were read from**, in order. -/
structure ReadsRuns (d : Disk) (root : Path) (numbered : List (Nat × String)) (options : LoadOptions)
    (trials : List (Trial Float)) (runs : List PlacedRun) : Prop where
  /-- The trials are those of the runs. -/
  trials : runs.map PlacedRun.trial = trials
  /-- The runs are all that are read from the folders. -/
  mem : ∀ r, r ∈ runs ↔ r.IsRead d root numbered options
  /-- They are in the order of the numbers of their folders, the names of their folders, and their own numbers, and
  none comes twice. -/
  sorted : runs.Pairwise PlacedRun.Before

theorem exists_readsRuns {trials : List (Trial Float)} (hsorted : numbered.Pairwise ComesBefore)
    (hfolders : iterationFolders d root = .ok (numbered.map fun q => (q.1, root.join q.2)))
    (hload : (loadResults d root options).value = .ok trials) :
    ∃ runs, ReadsRuns d root numbered options trials runs := by
  rw [value_loadResults_eq_placedRuns hfolders, map_eq_ok_iff] at hload
  obtain ⟨runs, hruns, rfl⟩ := hload
  refine ⟨runs.flatten, rfl, fun r => ?_, List.pairwise_flatten.2 ⟨fun rs hrs => ?_, ?_⟩⟩
  · rw [mem_flatten_iff_of_mapM hruns]
    constructor
    · rintro ⟨q, hq, rs, hrs, hr⟩
      obtain ⟨rfl, hrun, htrial⟩ := (mem_placedRuns_iff hrs).1 hr
      exact ⟨hq, hrun, htrial⟩
    · intro hr
      obtain ⟨rs, -, hrs⟩ := exists_ok_of_mapM hruns hr.folder
      exact ⟨_, hr.folder, rs, hrs, (mem_placedRuns_iff hrs).2 ⟨rfl, hr.run, hr.trial⟩⟩
  · obtain ⟨q, -, hq⟩ := exists_mem_of_mapM hruns hrs
    exact pairwise_placedRuns hq
  · -- the runs of one folder stand to those of another one like the folders
    refine pairwise_of_mapM hruns hsorted fun {q q' rs rs'} hbefore hrs hrs' r hr s hs => .inl ?_
    obtain ⟨rfl, -⟩ := (mem_placedRuns_iff hrs).1 hr
    obtain ⟨rfl, -⟩ := (mem_placedRuns_iff hrs').1 hs
    exact hbefore

/-- Results can be read exactly if all folders can be listed. -/
theorem exists_value_loadResults_iff
    (hfolders : iterationFolders d root = .ok (numbered.map fun q => (q.1, root.join q.2))) :
    (∃ trials, (loadResults d root options).value = .ok trials) ↔
      ∀ q ∈ numbered, ∃ inside, d.list (root.join q.2) = .ok inside := by
  rw [value_loadResults_eq_placedRuns hfolders, exists_map_eq_ok_iff, exists_mapM_iff]
  refine forall₂_congr fun q _ => ?_
  rw [placedRuns, exists_map_eq_ok_iff, isOk_numberedRuns_iff, exists_list_iff]

/-! ## Other orders of listing -/

namespace Disk.Relists

theorem loadRun_eq (h : Relists d e) (base : Path) (iteration : Nat) (options : LoadOptions) :
    loadRun e base iteration options = loadRun d base iteration options :=
  loadRun_congr (fun _ _ => h.sameFile _) iteration options

theorem runNumbers_eq (h : Relists d e) (folder : Path) : runNumbers e folder = runNumbers d folder := by
  refine h.map_list_eq folder fun es es' hperm => ?_
  refine (pairwise_distinctNumbers _).eq_of_mem_iff (pairwise_distinctNumbers _) fun n => ?_
  rw [mem_distinctNumbers, mem_distinctNumbers, (hperm.filterMap _).mem_iff]

theorem loadIteration_eq (h : Relists d e) (folder : Path) (iteration : Nat) (options : LoadOptions) :
    loadIteration e folder iteration options = loadIteration d folder iteration options := by
  simp only [loadIteration, h.runNumbers_eq, h.loadRun_eq]

theorem iterationFolders_eq (h : Relists d e) (root : Path) : iterationFolders e root = iterationFolders d root := by
  have hnames : folderNames e root = folderNames d root :=
    h.map_list_eq root fun es es' hperm => sortBy_eq_of_perm (hperm.filterMap _)
  rw [iterationFolders, iterationFolders, hnames]

/-- **The results are read in the same order** in whatever order anything is listed. -/
theorem loadResults_eq (h : Relists d e) (root : Path) (options : LoadOptions) :
    loadResults e root options = loadResults d root options := by
  simp only [loadResults, h.iterationFolders_eq, h.loadIteration_eq]

end Disk.Relists

/-! ## All iterations -/

/-- **Paths in one folder** are in the order of their names. -/
theorem steps_join_lt_iff {a b : String} (ha : Path.IsStep a.toList) (hb : Path.IsStep b.toList) :
    (root.join a).steps.map Text.bytes < (root.join b).steps.map Text.bytes ↔ Text.bytes a < Text.bytes b := by
  rw [Path.steps_join_name root ha, Path.steps_join_name root hb, List.map_append, List.map_append]
  generalize root.steps.map Text.bytes = front
  induction front with
  | nil => simp [List.cons_lt_cons_iff]
  | cons step rest ih =>
    rw [List.cons_append, List.cons_append, List.cons_lt_cons_iff, ih]
    exact ⟨fun h => (h.resolve_left (List.lt_irrefl step)).2, fun h => .inr ⟨rfl, h⟩⟩

/-- **What is made of a listing** of the folder of the results. -/
structure ReadsIterations (d : Disk) (root : Path) (es : List (String × Entry)) (numbered : List (Nat × String)) :
    Prop where
  /-- These are the folders that are found. -/
  folders : iterationFolders d root = .ok (numbered.map fun q => (q.1, root.join q.2))
  /-- They are those of the listing, each once. -/
  nodup : (numbered.map Prod.snd).Nodup
  /-- They have their numbers and are in order. -/
  numbers : NumbersFolders (subfolders es) numbered
  /-- The order of their names is the order of their paths. -/
  paths : ∀ a ∈ subfolders es, ∀ b ∈ subfolders es, Path.IsStep a.toList → Path.IsStep b.toList →
    ((root.join a).steps.map Text.bytes < (root.join b).steps.map Text.bytes ↔ Text.bytes a < Text.bytes b)
  /-- No other list is like that. -/
  unique : ∀ other, NumbersFolders (subfolders es) other → other = numbered
  /-- The results can be read exactly if every one of the folders can be listed. -/
  readable : ∀ options, (∃ trials, (loadResults d root options).value = .ok trials) ↔
    ∀ name ∈ subfolders es, ∃ inside, d.list (root.join name) = .ok inside
  /-- They are in the order of the folders and the runs. -/
  runs : ∀ options trials, (loadResults d root options).value = .ok trials →
    ∃ runs, ReadsRuns d root numbered options trials runs
  /-- It does not matter in which order the system lists what is in a folder. -/
  relisted : ∀ e, Relists d e → iterationFolders e root = iterationFolders d root ∧
    ∀ options, loadResults e root options = loadResults d root options

/-- **Iterations are numbered without loss**, and their runs are read in the order of the numbers. -/
theorem exists_readsIterations (hlist : d.list root = .ok es) (hnames : (es.map Prod.fst).Nodup) :
    ∃ numbered, ReadsIterations d root es numbered := by
  obtain ⟨numbered, hnumbers, hfolders⟩ := exists_iterationFolders hlist hnames
  refine ⟨numbered, hfolders, ?_, hnumbers, fun _ _ _ _ => steps_join_lt_iff, fun other => hnumbers.unique,
    fun options => ?_, fun options trials => ?_, fun e he => ⟨he.iterationFolders_eq root, he.loadResults_eq root⟩⟩
  · exact hnumbers.perm.nodup_iff.2 (nodup_subfolders hnames)
  · rw [exists_value_loadResults_iff hfolders]
    simp only [← hnumbers.perm.mem_iff, List.forall_mem_map]
  · exact exists_readsRuns hnumbers.sorted hfolders

/-- Folders whose names hold a number with zeros or a sign in front of it, one that is too great, or none; and a file. -/
def mixedListing : List (String × Entry) := [
  ("iteration3", .folder), ("iteration007", .folder), ("base", .folder), ("iteration9", .file ⟨#[]⟩ false),
  ("iteration18446744073709551616", .folder), ("iteration+3", .folder), ("adhoc", .folder)]

/-- Results in some of these folders. -/
def mixedDisk : Disk where
  home := []
  entries := (["out"], .folder) :: mixedListing.map (fun (name, e) => (["out", name], e)) ++ [
    (["out", "iteration3", "10"], .file (resultText "0.5").toUTF8 false),
    (["out", "iteration3", "2"], .file (resultText "0.25").toUTF8 false),
    (["out", "iteration+3", "1"], .file (resultText "0.75").toUTF8 false),
    (["out", "adhoc", "5"], .file (resultText "0.125").toUTF8 false)]

/-- The same disk, listed the other way round. -/
def mixedDiskReversed : Disk := { mixedDisk with entries := mixedDisk.entries.reverse }

theorem exists_readsIterations_mixedDisk :
    mixedDisk.list ⟨"out"⟩ = .ok mixedListing ∧ (mixedListing.map Prod.fst).Nodup ∧
      (∃ numbered, ReadsIterations mixedDisk ⟨"out"⟩ mixedListing numbered) ∧
      iterationFolders mixedDiskReversed ⟨"out"⟩ = .ok [(0, ⟨"out/adhoc"⟩), (1, ⟨"out/base"⟩),
        (3, ⟨"out/iteration+3"⟩), (3, ⟨"out/iteration3"⟩), (4, ⟨"out/iteration18446744073709551616"⟩),
        (7, ⟨"out/iteration007"⟩)] ∧
      (loadResults mixedDiskReversed ⟨"out"⟩ ⟨.states, "oom"⟩).value = .ok [resultTrial 0.125,
        { resultTrial 0.75 with iteration := 3 }, { resultTrial 0.25 with iteration := 3 },
        { resultTrial 0.5 with iteration := 3 }] := by
  have hlist : mixedDisk.list ⟨"out"⟩ = .ok mixedListing := by decide +kernel
  have hnames : (mixedListing.map Prod.fst).Nodup := by decide +kernel
  obtain ⟨numbered, h⟩ := exists_readsIterations hlist hnames
  have hrelists : Relists mixedDisk mixedDiskReversed :=
    .of_perm (by decide +kernel) rfl (List.reverse_perm _)
  obtain ⟨hfolders, hresults⟩ := h.relisted _ hrelists
  refine ⟨hlist, hnames, ⟨numbered, h⟩, hfolders.trans ?_, ?_⟩
  · decide +kernel
  · rw [hresults]
    decide +kernel

end CheckerTrials
