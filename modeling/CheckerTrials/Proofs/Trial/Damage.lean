import CheckerTrials.Proofs.Trial.Runs

/-!
# Damaged runs

The files of a run may get any other content, and any of them may be lost (`Damages`).  The folders are then still
there, and all other files are what they were (`Damages.differsAt`), so that the other runs are read as before
(`loadRun_of_damages`), each in its place: among the runs of its iteration (`exists_numberedRuns_of_damages`), and
among all runs (`untouched_of_damages`).

`locatedRuns` is what is read from a folder of results, each run with its folder and number; the program forgets these
in the end (`value_loadResults_eq`).
-/

set_option autoImplicit false

namespace CheckerTrials

open Disk CheckerTrials.Path

variable {d e f : Disk} {base folder other root : Path} {k n iteration : Nat} {options : LoadOptions}

/-! ## Damage -/

/-- The files of the run with the path `base`, one after the other, get another content or are removed. -/
inductive Damages (base : Path) (d : Disk) : Disk → Prop
  /-- Nothing is damaged. -/
  | none : Damages base d d
  /-- One more file gets any content. -/
  | write {e f : Disk} (h : Damages base d e) (suffix : String) (hsuffix : suffix ∈ Run.suffixes)
      (content : ByteArray) (hwrite : e.writeBytes (base.withSuffix suffix) content = .ok f) : Damages base d f
  /-- One more file is removed. -/
  | remove {e f : Disk} (h : Damages base d e) (suffix : String) (hsuffix : suffix ∈ Run.suffixes)
      (hremove : e.removeFile (base.withSuffix suffix) = .ok f) : Damages base d f

/-- The location of a file of a run. -/
def IsFileOf (d : Disk) (base : Path) (l : Location) : Prop :=
  ∃ suffix ∈ Run.suffixes, d.locate (base.withSuffix suffix) = .ok l

/-- What one edit of a file of a run does to a disk that is damaged already. -/
theorem differsAt_edit {change : Option Entry → Except Cause (Option Entry)} (hspares : SparesFolders change)
    (hmakes : MakesNoFolder change) {suffix : String} (hsuffix : suffix ∈ Run.suffixes)
    (h : DiffersAt (IsFileOf d base) d e) (hedit : e.edit (base.withSuffix suffix) change = .ok f) :
    DiffersAt (IsFileOf d base) d f := by
  refine h.trans (.edit hspares hmakes (fun l hl => ?_) hedit)
  exact ⟨suffix, hsuffix, h.locate_iff.1 hl⟩

/-- **Damage makes no difference** but in the files of the run. -/
theorem Damages.differsAt (h : Damages base d e) : DiffersAt (IsFileOf d base) d e := by
  induction h with
  | none => exact .refl _ d
  | write _ suffix hsuffix content hwrite ih =>
    rw [writeBytes_eq] at hwrite
    exact differsAt_edit (sparesFolders_overwrite _ _) (makesNoFolder_overwrite _ _) hsuffix ih hwrite
  | remove _ suffix hsuffix hremove ih =>
    rw [removeFile_eq] at hremove
    exact differsAt_edit (sparesFolders_takeAway _) (makesNoFolder_takeAway _) hsuffix ih hremove

theorem Damages.wellFormed (h : Damages base d e) (hd : d.WellFormed) : e.WellFormed := by
  induction h with
  | none => exact hd
  | write _ suffix _ content hwrite ih =>
    rw [writeBytes_eq] at hwrite
    exact ih.edit (sparesFolders_overwrite _ _) hwrite
  | remove _ suffix _ hremove ih =>
    rw [removeFile_eq] at hremove
    exact ih.edit (sparesFolders_takeAway _) hremove

/-! ## The other runs of the iteration -/

/-- The files of a run are in its folder. -/
theorem IsFileOf.exists_eq (hfolder : folder.text ≠ "") {l : Location} (h : IsFileOf d (folder.join k.repr) l) :
    ∃ suffix ∈ Run.suffixes, ∃ m, d.locate folder = .ok m ∧ l = m ++ [k.repr ++ suffix] := by
  obtain ⟨suffix, hsuffix, hl⟩ := h
  rw [withSuffix_join folder (isStep_repr k)] at hl
  have hstep := isStep_repr_append k (suffix_spec hsuffix).1
  exact ⟨suffix, hsuffix, exists_of_locate_join hfolder hstep (repr_append_ne_points k suffix) hl⟩

/-- **Other runs are read as before**: those of other numbers, and those of other folders. -/
theorem loadRun_of_damages (hfolder : folder.text ≠ "") (hother : other.text ≠ "")
    (h : Damages (folder.join k.repr) d e)
    (hn : ∀ l, d.locate folder = .ok l → d.locate other = .ok l → n ≠ k) (iteration : Nat)
    (options : LoadOptions) :
    loadRun e (other.join n.repr) iteration options = loadRun d (other.join n.repr) iteration options := by
  refine loadRun_eq_of_differsAt h.differsAt (fun suffix hsuffix l hl hfile => ?_) iteration options
  have hread := readSuffixes_subset hsuffix
  obtain ⟨s, hs, m, hm, rfl⟩ := hfile.exists_eq hfolder
  have hstep := isStep_repr_append n (suffix_spec hread).1
  obtain ⟨m', hm', heq⟩ := exists_of_locate_join hother hstep (repr_append_ne_points n suffix) hl
  obtain ⟨rfl, hnames⟩ := List.append_inj' heq rfl
  exact hn m hm hm' (eq_of_repr_append hread hs (List.singleton_inj.1 hnames).symm)

/-- Numbered runs are those below a number, the one of the number, and those above it. -/
theorem eq_append_of_increasing {β : Type} {ps : List (Nat × β)} (h : ps.Pairwise fun p q => p.1 < q.1) (k : Nat) :
    ps = ps.filter (fun p => p.1 < k) ++ (ps.filter (fun p => p.1 = k) ++ ps.filter fun p => k < p.1) := by
  refine eq_of_mem_iff_of_increasing h ?_ fun n b => ?_
  · simp only [List.pairwise_append, List.mem_append, List.mem_filter, decide_eq_true_eq]
    refine ⟨h.filter _, ⟨h.filter _, h.filter _, ?_⟩, ?_⟩
    · rintro p ⟨-, hp⟩ q ⟨-, hq⟩
      omega
    · rintro p ⟨-, hp⟩ q (⟨-, hq⟩ | ⟨-, hq⟩)
      · omega
      · omega
  · simp only [List.mem_append, List.mem_filter, decide_eq_true_eq]
    constructor
    · intro hmem
      rcases Nat.lt_trichotomy n k with hlt | heq | hgt
      · exact .inl ⟨hmem, hlt⟩
      · exact .inr (.inl ⟨hmem, heq⟩)
      · exact .inr (.inr ⟨hmem, hgt⟩)
    · rintro (⟨hmem, -⟩ | ⟨hmem, -⟩ | ⟨hmem, -⟩) <;> exact hmem

/-- What is read of the run of a number, if runs can have the number. -/
def readRun? (d : Disk) (folder : Path) (iteration : Nat) (options : LoadOptions) (k : Nat) : Option (Trial Float) :=
  if k ≤ Decimal.wordLimit then (loadRun d (folder.join k.repr) iteration options).value else none

/-- What is read under a number is what is read of its run. -/
theorem filter_eq_readRun? {runs : List (Nat × Trial Float)} (hd : d.WellFormed)
    (h : numberedRuns d folder iteration options = .ok runs) :
    runs.filter (fun r => r.1 = k) = ((readRun? d folder iteration options k).map fun t => (k, t)).toList := by
  rw [readRun?]
  split
  · rename_i hk
    exact filter_numberedRuns hd h hk
  · rename_i hk
    rw [Option.map_none, Option.toList_none, List.filter_eq_nil_iff]
    rintro ⟨m, t⟩ hmem
    rw [decide_eq_true_iff]
    rintro rfl
    exact hk ((mem_numberedRuns_iff hd h).1 hmem).1

/-- **Damage to a run stays in its place** among the runs of the iteration. -/
theorem exists_numberedRuns_of_damages {runs : List (Nat × Trial Float)} (hd : d.WellFormed)
    (h : Damages (folder.join k.repr) d e) (hruns : numberedRuns d folder iteration options = .ok runs) :
    ∃ before after, (∀ r ∈ before ++ after, r.1 ≠ k) ∧
      runs = before ++ (((readRun? d folder iteration options k).map fun t => (k, t)).toList ++ after) ∧
      numberedRuns e folder iteration options =
        .ok (before ++ (((readRun? e folder iteration options k).map fun t => (k, t)).toList ++ after)) := by
  have he := h.wellFormed hd
  have hisFolder := (isOk_numberedRuns_iff iteration options).1 ⟨runs, hruns⟩
  have hfolder := ne_empty_of_isFolder hisFolder
  obtain ⟨runs', hruns'⟩ : ∃ runs', numberedRuns e folder iteration options = .ok runs' := by
    rwa [isOk_numberedRuns_iff, h.differsAt.isFolder_eq]
  -- off the number the two lists have the same members, and both are in the order of their numbers
  have hsame : ∀ p : Nat → Bool, p k = false → (runs'.filter fun r => p r.1) = runs.filter fun r => p r.1 := by
    intro p hp
    refine eq_of_mem_iff_of_increasing ((pairwise_numberedRuns hruns').filter _)
      ((pairwise_numberedRuns hruns).filter _) fun n t => ?_
    rw [List.mem_filter, List.mem_filter, mem_numberedRuns_iff he hruns', mem_numberedRuns_iff hd hruns]
    refine and_congr_left fun hn => ?_
    have hne : n ≠ k := by
      rintro rfl
      exact absurd hn (by simp [hp])
    rw [loadRun_of_damages hfolder hfolder h fun _ _ _ => hne]
  refine ⟨runs.filter fun r => r.1 < k, runs.filter fun r => k < r.1, ?_, ?_, ?_⟩
  · intro r hr
    simp only [List.mem_append, List.mem_filter, decide_eq_true_eq] at hr
    omega
  · rw [← filter_eq_readRun? hd hruns]
    exact eq_append_of_increasing (pairwise_numberedRuns hruns) k
  · rw [hruns', ← filter_eq_readRun? he hruns', ← hsame (fun n => n < k) (by simp), ← hsame (fun n => k < n) (by simp)]
    exact congrArg Except.ok (eq_append_of_increasing (pairwise_numberedRuns hruns') k)

/-! ## The folders of iterations -/

/-- **The same folders are listed**, in the same order. -/
theorem folderNames_of_damages {names : List String} (hd : d.WellFormed) (h : Damages base d e)
    (hnames : folderNames d root = .ok names) : folderNames e root = .ok names := by
  have he := h.wellFormed hd
  obtain ⟨es, hlist, -⟩ := map_eq_ok_iff.1 hnames
  obtain ⟨l, hl, hfolder, rfl⟩ := list_eq_ok_iff.1 hlist
  have hlist' : e.list root = .ok (e.children l) :=
    list_eq_ok_iff.2 ⟨l, h.differsAt.locate_iff.2 hl, h.differsAt.get?_eq_folder_iff.2 hfolder, rfl⟩
  obtain ⟨names₁, hnames₁, hnodup, hmem⟩ := exists_folderNames hlist hd.nodup_children
  obtain ⟨names', hnames', hnodup', hmem'⟩ := exists_folderNames hlist' he.nodup_children
  rw [hnames] at hnames₁
  cases hnames₁
  have hperm : names'.Perm names := by
    rw [List.perm_ext_iff_of_nodup hnodup' hnodup]
    intro name
    rw [hmem, hmem', h.differsAt.mem_children_folder_iff hd he]
  rw [hnames']
  obtain ⟨_, -, rfl⟩ := map_eq_ok_iff.1 hnames
  obtain ⟨_, -, rfl⟩ := map_eq_ok_iff.1 hnames'
  have hunsorted := (perm_sortBy compare _).symm.trans (hperm.trans (perm_sortBy compare _))
  exact congrArg Except.ok (sortBy_eq_of_perm hunsorted)

theorem iterationFolders_of_damages {folders : List (Nat × Path)} (hd : d.WellFormed) (h : Damages base d e)
    (hfolders : iterationFolders d root = .ok folders) : iterationFolders e root = .ok folders := by
  obtain ⟨names, hnames, rfl⟩ := map_eq_ok_iff.1 hfolders
  rw [iterationFolders, folderNames_of_damages hd h hnames]
  rfl

/-- **The folder of an iteration stands once** among the folders, and the others are elsewhere. -/
theorem exists_split_iterationFolders {folders : List (Nat × Path)} (hd : d.WellFormed)
    (h : iterationFolders d root = .ok folders) {q : Nat × Path} (hq : q ∈ folders) :
    q.2.text ≠ "" ∧ ∃ before after, folders = before ++ q :: after ∧
      ∀ r ∈ before ++ after, r.2.text ≠ "" ∧ ∀ l, d.locate q.2 = .ok l → d.locate r.2 ≠ .ok l := by
  obtain ⟨names, hnames, rfl⟩ := map_eq_ok_iff.1 h
  obtain ⟨hnodup, hname⟩ := nodup_folderNames hd hnames
  obtain ⟨es, hlist, -⟩ := map_eq_ok_iff.1 hnames
  obtain ⟨l, hl, -⟩ := list_eq_ok_iff.1 hlist
  have hroot := (locate_eq_ok_iff.1 hl).2.1
  have hperm := (numbered_numberFolders names).perm
  have hname' : ∀ r ∈ numberFolders names, IsName r.2 := fun r hr =>
    hname r.2 (hperm.mem_iff.1 (List.mem_map_of_mem hr))
  obtain ⟨p, hp, rfl⟩ := List.mem_map.1 hq
  refine ⟨join_ne_empty root (hname' p hp).isStep, ?_⟩
  obtain ⟨before, after, hsplit⟩ := List.append_of_mem hp
  have hnot : p.2 ∉ (before ++ after).map Prod.snd := by
    rw [← hperm.nodup_iff, hsplit, List.map_append, List.map_cons, List.perm_middle.nodup_iff] at hnodup
    rw [List.map_append]
    exact (List.nodup_cons.1 hnodup).1
  rw [hsplit, List.map_append, List.map_cons]
  refine ⟨_, _, rfl, fun r hr => ?_⟩
  rw [← List.map_append] at hr
  obtain ⟨p', hp', rfl⟩ := List.mem_map.1 hr
  have hmem : p' ∈ numberFolders names := by
    rw [hsplit]
    exact mem_split_of_mem hp'
  have hother := hname' p' hmem
  refine ⟨join_ne_empty root hother.isStep, fun l hl => ?_⟩
  exact locate_join_ne hroot hother.isStep hother.ne_points (hname' p hp).isStep (hname' p hp).ne_points
    (fun heq => hnot (heq ▸ List.mem_map_of_mem hp')) hl

/-! ## All runs -/

/-- What is read of the folder of an iteration, each run with its folder and number. -/
def runsIn (d : Disk) (options : LoadOptions) (q : Nat × Path) : Except Cause (List ((Path × Nat) × Trial Float)) :=
  (numberedRuns d q.2 q.1 options).map (List.map fun r => ((q.2, r.1), r.2))

/-- What is read of a folder of results, each run with its folder and number. -/
def locatedRuns (d : Disk) (root : Path) (options : LoadOptions) :
    Except Cause (List ((Path × Nat) × Trial Float)) :=
  (iterationFolders d root >>= fun folders => folders.mapM (runsIn d options)).map List.flatten

/-- The results of a folder are its runs without what tells them apart. -/
theorem value_loadResults_eq (d : Disk) (root : Path) (options : LoadOptions) :
    (loadResults d root options).value = (locatedRuns d root options).map (List.map Prod.snd) := by
  rw [locatedRuns]
  cases hfolders : iterationFolders d root with
  | error cause =>
    rw [loadResults, hfolders]
    rfl
  | ok folders =>
    rw [← List.map_id folders] at hfolders
    rw [value_loadResults_eq_labelled (runsIn d options) Prod.snd hfolders fun q =>
      value_loadIteration_eq_labelled (fun r => ((q.2, r.1), r.2)) _ (fun _ => rfl) d q.2 q.1 options,
      bind_ok]
    cases folders.mapM (runsIn d options) <;> rfl

/-- A run that is read is in one of the folders. -/
theorem exists_of_mem_runsIn {folders : List (Nat × Path)} {runs : List (List ((Path × Nat) × Trial Float))}
    (h : folders.mapM (runsIn d options) = .ok runs) {r : (Path × Nat) × Trial Float} (hr : r ∈ runs.flatten) :
    ∃ q ∈ folders, q.2 = r.1.1 := by
  obtain ⟨q, hq, rs, hruns, hmem⟩ := (mem_flatten_iff_of_mapM h).1 hr
  obtain ⟨numbered, -, rfl⟩ := map_eq_ok_iff.1 hruns
  obtain ⟨_, -, rfl⟩ := List.mem_map.1 hmem
  exact ⟨q, hq, rfl⟩

/-! ## Damage among all runs -/

variable {before after runs : List ((Path × Nat) × Trial Float)}

/-- **Other folders are read as before.** -/
theorem runsIn_of_damages_other (hd : d.WellFormed) (h : Damages (folder.join k.repr) d e)
    (hfolder : folder.text ≠ "") {q : Nat × Path} (hq : q.2.text ≠ "")
    (hapart : ∀ l, d.locate folder = .ok l → d.locate q.2 ≠ .ok l) (hruns : runsIn d options q = .ok runs) :
    runsIn e options q = .ok runs := by
  obtain ⟨numbered, hnumbered, rfl⟩ := map_eq_ok_iff.1 hruns
  have hsame : numberedRuns e q.2 q.1 options = .ok numbered := by
    refine numberedRuns_eq hd (h.wellFormed hd) (h.differsAt.isFolder_eq q.2) (fun n => ?_) hnumbered
    rw [loadRun_of_damages hfolder hq h fun l hl hl' => absurd hl' (hapart l hl)]
  rw [runsIn, hsame]
  rfl

/-- What is read of the run of a number, with its folder and number. -/
def locatedRun? (d : Disk) (folder : Path) (iteration : Nat) (options : LoadOptions) (k : Nat) :
    Option ((Path × Nat) × Trial Float) :=
  (readRun? d folder iteration options k).map fun t => ((folder, k), t)

/-- In the folder of the run the damage stays in its place. -/
theorem exists_runsIn_of_damages (hd : d.WellFormed) (h : Damages (folder.join k.repr) d e)
    (hruns : runsIn d options (iteration, folder) = .ok runs) :
    ∃ before after, (∀ r ∈ before ++ after, r.1 ≠ (folder, k)) ∧
      runs = before ++ ((locatedRun? d folder iteration options k).toList ++ after) ∧
      runsIn e options (iteration, folder) =
        .ok (before ++ ((locatedRun? e folder iteration options k).toList ++ after)) := by
  obtain ⟨numbered, hnumbered, rfl⟩ := map_eq_ok_iff.1 hruns
  obtain ⟨front, back, hne, rfl, hdamaged⟩ := exists_numberedRuns_of_damages hd h hnumbered
  let label (r : Nat × Trial Float) : (Path × Nat) × Trial Float := ((folder, r.1), r.2)
  have hlabel : ∀ f : Disk, (locatedRun? f folder iteration options k).toList =
      ((readRun? f folder iteration options k).map fun t => (k, t)).toList.map label := by
    intro f
    rw [locatedRun?]
    cases readRun? f folder iteration options k <;> rfl
  refine ⟨front.map label, back.map label, fun r hr => ?_, ?_, ?_⟩
  · rw [← List.map_append] at hr
    obtain ⟨r', hr', rfl⟩ := List.mem_map.1 hr
    exact fun heq => hne r' hr' (congrArg Prod.snd heq)
  · rw [hlabel, ← List.map_append, ← List.map_append]
  · rw [runsIn, hdamaged, hlabel, ← List.map_append, ← List.map_append]
    rfl

/-- The results of a folder are those `before` a run, the run, and those `after` it. -/
structure ReadsAround (d : Disk) (root : Path) (options : LoadOptions) (iteration : Nat) (folder : Path) (k : Nat)
    (before after : List ((Path × Nat) × Trial Float)) : Prop where
  /-- The runs with their folders and numbers. -/
  located : locatedRuns d root options =
    .ok (before ++ ((locatedRun? d folder iteration options k).toList ++ after))
  /-- What the program makes of them. -/
  value : (loadResults d root options).value =
    .ok (before.map Prod.snd ++ ((readRun? d folder iteration options k).toList ++ after.map Prod.snd))

theorem ReadsAround.of_located (h : locatedRuns d root options =
      .ok (before ++ ((locatedRun? d folder iteration options k).toList ++ after))) :
    ReadsAround d root options iteration folder k before after := by
  refine ⟨h, ?_⟩
  rw [value_loadResults_eq, h, locatedRun?]
  cases readRun? d folder iteration options k <;> simp [Except.map]

/-- **Damage to one run stays with that run.**  If results can be read, they can be read whatever becomes of the files
of a run, and all other runs are what they were and where they were. -/
theorem untouched_of_damages {folders : List (Nat × Path)} {trials : List (Trial Float)} (hd : d.WellFormed)
    (hfolders : iterationFolders d root = .ok folders) (hfolder : (iteration, folder) ∈ folders)
    (hload : (loadResults d root options).value = .ok trials) (h : Damages (folder.join k.repr) d e) :
    ∃ before after, (∀ r ∈ before ++ after, r.1 ≠ (folder, k)) ∧
      ReadsAround d root options iteration folder k before after ∧
      ReadsAround e root options iteration folder k before after := by
  obtain ⟨htext, earlier, later, rfl, hapart⟩ := exists_split_iterationFolders hd hfolders hfolder
  rw [value_loadResults_eq, map_eq_ok_iff] at hload
  obtain ⟨_, hlocated, -⟩ := hload
  rw [locatedRuns, hfolders, bind_ok, map_eq_ok_iff] at hlocated
  obtain ⟨runs, hruns, -⟩ := hlocated
  have hother : ∀ q ∈ earlier ++ later, runsIn e options q = runsIn d options q := by
    intro q hq
    obtain ⟨_, -, hq'⟩ := exists_ok_of_mapM hruns (mem_split_of_mem hq)
    rw [hq', runsIn_of_damages_other hd h htext (hapart q hq).1 (hapart q hq).2 hq']
  obtain ⟨first, own, last, rfl, hfirst, hown, hlast, hchange⟩ := mapM_change hruns hother
  obtain ⟨front, back, hne, rfl, hdamaged⟩ := exists_runsIn_of_damages hd h hown
  obtain ⟨_, hnumbered, -⟩ := map_eq_ok_iff.1 hown
  obtain ⟨l, hl, -⟩ := isFolder_iff.1 ((isOk_numberedRuns_iff iteration options).1 ⟨_, hnumbered⟩)
  have hne' : ∀ q ∈ earlier ++ later, q.2 ≠ folder := fun q hq heq => (hapart q hq).2 l hl (heq ▸ hl)
  refine ⟨first.flatten ++ front, back ++ last.flatten, fun r hr => ?_, .of_located ?_, .of_located ?_⟩
  · rw [List.append_assoc, ← List.append_assoc front, List.mem_append, List.mem_append] at hr
    rcases hr with hr | hr | hr
    · obtain ⟨q, hq, hqr⟩ := exists_of_mem_runsIn hfirst hr
      exact fun heq => hne' q (List.mem_append_left later hq) (hqr.trans (congrArg Prod.fst heq))
    · exact hne r hr
    · obtain ⟨q, hq, hqr⟩ := exists_of_mem_runsIn hlast hr
      exact fun heq => hne' q (List.mem_append_right earlier hq) (hqr.trans (congrArg Prod.fst heq))
  · rw [locatedRuns, hfolders, bind_ok, hruns]
    refine congrArg Except.ok ?_
    simp
  · rw [locatedRuns, iterationFolders_of_damages hd h hfolders, bind_ok, hchange, hdamaged]
    refine congrArg Except.ok ?_
    simp

/-- Results of two iterations, and what else is in the folder of the first one. -/
def iterationsDisk (rest : List (Location × Entry)) : Disk where
  home := []
  entries := [(["out"], .folder), (["out", "iteration0"], .folder),
    (["out", "iteration0", "1"], .file (resultText "0.25").toUTF8 false), (["out", "iteration1"], .folder),
    (["out", "iteration1", "0"], .file (resultText "0.75").toUTF8 false)] ++ rest

/-- One more result, with its command line. -/
def wholeDisk : Disk := iterationsDisk
  [(["out", "iteration0", "0"], .file (resultText "0.5").toUTF8 false),
    (["out", "iteration0", "0.setup"], .file "-m toy.prism".toUTF8 false)]

/-- The result is no text any more. -/
def textlessDisk : Disk := iterationsDisk
  [(["out", "iteration0", "0"], .file ⟨#[255]⟩ false),
    (["out", "iteration0", "0.setup"], .file "-m toy.prism".toUTF8 false)]

/-- Nor is its command line there any more. -/
def brokenDisk : Disk := iterationsDisk [(["out", "iteration0", "0"], .file ⟨#[255]⟩ false)]

theorem damages_brokenDisk : Damages (Path.join ⟨"out/iteration0"⟩ (Nat.repr 0)) wholeDisk brokenDisk := by
  have hwrite : wholeDisk.writeBytes ((Path.join ⟨"out/iteration0"⟩ (Nat.repr 0)).withSuffix "") ⟨#[255]⟩ =
      .ok textlessDisk := by decide +kernel
  have hremove : textlessDisk.removeFile ((Path.join ⟨"out/iteration0"⟩ (Nat.repr 0)).withSuffix setupSuffix) =
      .ok brokenDisk := by decide +kernel
  exact .remove (.write .none "" (by decide) ⟨#[255]⟩ hwrite) setupSuffix (by decide) hremove

theorem untouched_of_damages_brokenDisk :
    (loadResults brokenDisk ⟨"out"⟩ ⟨.states, "oom"⟩).value =
        .ok [resultTrial 0.25, { resultTrial 0.75 with iteration := 1 }] ∧
      ∃ before after, (∀ r ∈ before ++ after, r.1 ≠ (⟨"out/iteration0"⟩, 0)) ∧
        ReadsAround wholeDisk ⟨"out"⟩ ⟨.states, "oom"⟩ 0 ⟨"out/iteration0"⟩ 0 before after ∧
        ReadsAround brokenDisk ⟨"out"⟩ ⟨.states, "oom"⟩ 0 ⟨"out/iteration0"⟩ 0 before after := by
  have hfolders : iterationFolders wholeDisk ⟨"out"⟩ = .ok [(0, ⟨"out/iteration0"⟩), (1, ⟨"out/iteration1"⟩)] := by
    decide +kernel
  have hload : (loadResults wholeDisk ⟨"out"⟩ ⟨.states, "oom"⟩).value =
      .ok [resultTrial 0.5, resultTrial 0.25, { resultTrial 0.75 with iteration := 1 }] := by decide +kernel
  refine ⟨by decide +kernel, ?_⟩
  exact untouched_of_damages (by decide +kernel) hfolders (by decide) hload damages_brokenDisk

end CheckerTrials
