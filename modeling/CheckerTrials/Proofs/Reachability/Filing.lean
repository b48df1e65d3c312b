import CheckerTrials.Proofs.Reachability.Isolation
import CheckerTrials.Proofs.Reachability.Kinds
import CheckerTrials.Proofs.Reachability.SetupLines
import CheckerTrials.Proofs.Text.ByteOrder

/-!
# Where experiments are filed

An experiment is complete if none of its files is missing, and its setup line says its kind.  What the collector makes
of a folder is determined by these experiments alone (`Filed`): under each kind there is what came of the one with the
greatest name, in the order of bytes, and under a kind of no experiment there is nothing.  Other files, experiments
that miss a file and setup lines that say no kind leave no trace.

The names of the experiments are listed in increasing order (`pairwise_experimentNames`), none that is complete is
missing (`mem_experimentNames`), and what is added later replaces what was there, so the last name of a kind is what
counts (`filed_addAll`).  In a results tree, the instance of every folder of experiments is of this form
(`exists_filed`), provided that the setup lines of its complete experiments are texts; a single other one makes the
whole collection fail.
-/

set_option autoImplicit false

namespace CheckerTrials

open Disk CheckerTrials.Path

variable {d : Disk} {marker model name : String} {folder root : Path} {folders : List Path} {names : List String}
  {k : Kind}

section

variable {V : Type} [Json.Library V]

/-! ## Experiments of a kind -/

/-- An experiment of a kind in a folder: all its files are there, and its setup line says the kind. -/
structure IsExperiment (d : Disk) (folder : Path) (k : Kind) (name : String) : Prop where
  /-- The name is one of a file. -/
  slash : '/' ∉ name.toList
  /-- All files are there. -/
  complete : d.IsComplete (folder.join name)
  /-- The setup line says the kind. -/
  setup : ∃ line, d.readText ((folder.join name).withSuffix setupSuffix) = .ok line ∧ Kind.parse line = .ok k

/-- What came of an experiment of a kind. -/
def outcomeAt (d : Disk) (marker : String) (folder : Path) (k : Kind) (name : String) : Outcome :=
  (readOutcome d ⟨folder.join name, k⟩ marker).value

theorem contribution_eq_ok_some_iff {base : Path} {o : Outcome} :
    contribution d marker base = .ok (some (k, o)) ↔
      (d.IsComplete base ∧ ∃ line, d.readText (base.withSuffix setupSuffix) = .ok line ∧ Kind.parse line = .ok k) ∧
        o = (readOutcome d ⟨base, k⟩ marker).value := by
  rw [contribution, map_eq_ok_iff, value_findExperiment, ← find?_missing_eq_none_iff]
  split
  · rename_i hsome
    rw [Option.isSome_iff_ne_none] at hsome
    constructor
    · rintro ⟨found, hfound, hc⟩
      cases hfound
      cases hc
    · rintro ⟨⟨hnone, -⟩, -⟩
      exact absurd hnone hsome
  · rename_i hnone
    simp only [map_eq_ok_iff]
    constructor
    · rintro ⟨found, ⟨line, hline, rfl⟩, hc⟩
      obtain ⟨x, hx, hpair⟩ := Option.map_eq_some_iff.1 hc
      obtain ⟨l, hl, rfl⟩ := Option.map_eq_some_iff.1 hx
      cases hpair
      exact ⟨⟨by simpa using hnone, line, hline, toOption_eq_some_iff.1 hl⟩, rfl⟩
    · rintro ⟨⟨-, line, hline, hl⟩, rfl⟩
      exact ⟨_, ⟨line, hline, rfl⟩, by rw [toOption_eq_some_iff.2 hl]; rfl⟩

/-! ## The names in a folder -/

theorem experimentName?_append (name : String) : experimentName? (name ++ setupSuffix) = some name := by
  rw [experimentName?, if_pos, String.toList_append, List.length_append, Nat.add_sub_cancel, List.take_left,
    String.ofList_toList]
  rw [String.toList_append]
  exact List.isSuffixOf_iff_suffix.2 (List.suffix_append _ _)

/-- A folder that holds a file of a name can be listed. -/
theorem list_of_isFile (hd : d.WellFormed) (hfolder : folder.text ≠ "") {file : String} (hstep : IsStep file.toList)
    (hpoints : file ≠ "." ∧ file ≠ "..") (hfile : d.isFile (folder.join file) = true) :
    ∃ l e, d.locate folder = .ok l ∧ d.get? l = some .folder ∧ (file, e) ∈ d.children l := by
  obtain ⟨content, executable, hfind⟩ := isFile_iff.1 hfile
  obtain ⟨-, l, hl, hget⟩ := find_eq_file_iff.1 hfind
  obtain ⟨m, hm, rfl⟩ := exists_of_locate_join hfolder hstep hpoints hl
  refine ⟨m, _, hm, ?_, hd.mem_children.2 hget⟩
  have hparent := (hd.parent _ (List.mem_map_of_mem (mem_of_get? (by simp) hget))).2
  rwa [List.dropLast_concat] at hparent

/-- The experiments of a folder with a file of constants can be listed. -/
theorem exists_experimentNames (hd : d.WellFormed) (hfolder : folder.text ≠ "")
    (hconstants : d.isFile (folder.join constantsFile) = true) : ∃ names, experimentNames d folder = .ok names := by
  obtain ⟨l, e, hl, hget, -⟩ := list_of_isFile hd hfolder isStep_constantsFile.1 isStep_constantsFile.2 hconstants
  exact ⟨_, map_eq_ok_iff.2 ⟨_, list_eq_ok_iff.2 ⟨l, hl, hget, rfl⟩, rfl⟩⟩

/-- Every complete experiment is listed. -/
theorem mem_experimentNames (hd : d.WellFormed) (hfolder : folder.text ≠ "")
    (hnames : experimentNames d folder = .ok names) (hname : '/' ∉ name.toList)
    (hcomplete : d.IsComplete (folder.join name)) : name ∈ names := by
  have hsuffix : IsSuffix setupSuffix := isSuffix_of_mem (by decide)
  have hfile := hcomplete setupSuffix (by decide)
  rw [withSuffix_join_beside folder hname hsuffix] at hfile
  obtain ⟨hstep, hpoints⟩ := isStep_beside hname hsuffix
  obtain ⟨l, e, hl, hget, hmem⟩ := list_of_isFile hd hfolder hstep hpoints hfile
  obtain ⟨es, hes, rfl⟩ := map_eq_ok_iff.1 hnames
  obtain ⟨m, hm, -, rfl⟩ := list_eq_ok_iff.1 hes
  obtain rfl : l = m := Except.ok.inj (hl.symm.trans hm)
  exact mem_sortBy.2 (List.mem_filterMap.2 ⟨_, hmem, experimentName?_append name⟩)

/-- The names increase. -/
theorem pairwise_experimentNames (hd : d.WellFormed) (hnames : experimentNames d folder = .ok names) :
    names.Pairwise fun a b => Text.bytes a < Text.bytes b := by
  have hnodup := (nodup_experimentNames hd hnames).1
  obtain ⟨es, -, rfl⟩ := map_eq_ok_iff.1 hnames
  refine (hnodup.and (sorted_sortBy _)).imp fun {a b} ⟨hne, hle⟩ => ?_
  have hlt : compare b a = .lt ↔ b < a := compareOfLessAndEq_eq_lt
  exact Text.bytes_lt_iff.2 ((lt_or_gt_of_ne hne).resolve_right (mt hlt.2 hle))

/-- **The last one of a list that increases** is the greatest one. -/
theorem findSome?_reverse_eq_some_iff {α β : Type} {lt : α → α → Prop} (hasymm : ∀ a b, lt a b → ¬ lt b a)
    {f : α → Option β} {xs : List α} (h : xs.Pairwise lt) {b : β} :
    xs.reverse.findSome? f = some b ↔
      ∃ x ∈ xs, f x = some b ∧ ∀ y ∈ xs, (f y).isSome = true → ¬ lt x y := by
  induction xs using List.reverseRecOn with
  | nil => simp
  | append_singleton xs last ih =>
    obtain ⟨hxs, -, hlast⟩ := List.pairwise_append.1 h
    rw [List.reverse_append, List.reverse_singleton, List.singleton_append, List.findSome?_cons]
    cases hf : f last with
    | none =>
      have hmem : ∀ y ∈ xs ++ [last], (f y).isSome = true → y ∈ xs := by
        intro y hy hsome
        rcases List.mem_append.1 hy with hy | hy
        · exact hy
        · rw [List.mem_singleton.1 hy, hf] at hsome
          cases hsome
      rw [ih hxs]
      constructor
      · rintro ⟨x, hx, hxb, hmax⟩
        exact ⟨x, List.mem_append_left _ hx, hxb, fun y hy hsome => hmax y (hmem y hy hsome) hsome⟩
      · rintro ⟨x, hx, hxb, hmax⟩
        exact ⟨x, hmem x hx (by rw [hxb]; rfl), hxb, fun y hy => hmax y (List.mem_append_left _ hy)⟩
    | some c =>
      constructor
      · rintro ⟨⟩
        refine ⟨last, by simp, hf, fun y hy _ => ?_⟩
        rcases List.mem_append.1 hy with hy | hy
        · exact hasymm _ _ (hlast y hy last (List.mem_singleton_self _))
        · rw [List.mem_singleton.1 hy]
          exact fun hself => hasymm _ _ hself hself
      · rintro ⟨x, hx, hxb, hmax⟩
        rcases List.mem_append.1 hx with hx | hx
        · exact absurd (hlast x hx last (List.mem_singleton_self _)) (hmax last (by simp) (by rw [hf]; rfl))
        · rw [List.mem_singleton.1 hx, hf] at hxb
          exact hxb

/-! ## What is filed -/

/-- What an experiment adds to its instance, or nothing if it adds nothing or fails. -/
def added (d : Disk) (marker : String) (base : Path) : Option (Kind × Outcome) :=
  (contribution d marker base).toOption.join

theorem outcomeFor_added_eq_some_iff (hname : '/' ∉ name.toList) {o : Outcome} :
    Results.outcomeFor k (added d marker (folder.join name)) = some o ↔
      IsExperiment d folder k name ∧ o = outcomeAt d marker folder k name := by
  have hadded : added d marker (folder.join name) = some (k, o) ↔
      contribution d marker (folder.join name) = .ok (some (k, o)) := by
    rw [added, Option.join_eq_some_iff, toOption_eq_some_iff]
  rw [Results.outcomeFor_eq_some_iff, hadded, contribution_eq_ok_some_iff]
  exact and_congr_left fun _ => ⟨fun h => ⟨hname, h.1, h.2⟩, fun h => ⟨h.complete, h.setup⟩⟩

/-- The results of a folder: under each kind there is the last experiment of that kind, and there is nothing else. -/
structure Filed (d : Disk) (marker : String) (folder : Path) (results : Results) : Prop where
  /-- An outcome is found under the kinds of experiments. -/
  found_iff : ∀ k, (results.get? k).isSome = true ↔ ∃ name, IsExperiment d folder k name
  /-- It is that of the greatest name. -/
  greatest : ∀ k o, results.get? k = some o ↔ ∃ name, IsExperiment d folder k name ∧
    (∀ other, IsExperiment d folder k other → ¬ Text.bytes name < Text.bytes other) ∧
    o = outcomeAt d marker folder k name
  /-- Everything stands under a kind. -/
  byKind : results.ByKind

/-- The experiments of a folder determine its results. -/
theorem Filed.unique {r s : Results} (hr : Filed d marker folder r) (hs : Filed d marker folder s) : r = s :=
  hr.byKind.ext hs.byKind fun k => Option.ext fun o => (hr.greatest k o).trans (hs.greatest k o).symm

/-- A bounded experiment is found under its number of steps, whichever way its setup line writes that number. -/
theorem Filed.isSome_bounded {results : Results} (h : Filed d marker folder results) {g : Heuristic} {n : Nat}
    (hn : n ≤ Decimal.wordLimit) {line : String} (hname : '/' ∉ name.toList)
    (hcomplete : d.IsComplete (folder.join name))
    (hline : d.readText ((folder.join name).withSuffix setupSuffix) = .ok line)
    (hbounded : Kind.HoldsBounded line g n) : (results.get? (.bounded g n)).isSome = true :=
  (h.found_iff _).2 ⟨name, hname, hcomplete, line, hline, Kind.parse_of_holdsBounded hbounded hn⟩

/-- **The experiments of a folder** are filed under their kinds. -/
theorem filed_addAll (marker : String) (hd : d.WellFormed) (hfolder : folder.text ≠ "")
    (hnames : experimentNames d folder = .ok names) :
    Filed d marker folder (Results.empty.addAll (names.map fun name => added d marker (folder.join name))) := by
  have hslash := (nodup_experimentNames hd hnames).2
  have hlisted : ∀ {k name}, IsExperiment d folder k name → name ∈ names := fun h =>
    mem_experimentNames hd hfolder hnames h.slash h.complete
  have hget : ∀ k, (Results.empty.addAll (names.map fun name => added d marker (folder.join name))).get? k =
      names.reverse.findSome? fun name => Results.outcomeFor k (added d marker (folder.join name)) := by
    intro k
    rw [Results.get?_addAll, ← List.map_reverse, List.findSome?_map]
    rfl
  have hsome : ∀ k, ∀ name ∈ names, (Results.outcomeFor k (added d marker (folder.join name))).isSome = true ↔
      IsExperiment d folder k name := by
    intro k name hname
    rw [Option.isSome_iff_exists]
    simp only [outcomeFor_added_eq_some_iff (hslash name hname)]
    exact ⟨fun ⟨_, h, _⟩ => h, fun h => ⟨_, h, rfl⟩⟩
  refine ⟨fun k => ?_, fun k o => ?_, Results.byKind_addAll _⟩
  · rw [hget, List.findSome?_isSome_iff]
    simp only [List.mem_reverse]
    constructor
    · rintro ⟨name, hname, hk⟩
      exact ⟨name, (hsome k name hname).1 hk⟩
    · rintro ⟨name, hk⟩
      exact ⟨name, hlisted hk, (hsome k name (hlisted hk)).2 hk⟩
  · rw [hget, findSome?_reverse_eq_some_iff (fun _ _ => List.lt_asymm) (pairwise_experimentNames hd hnames)]
    constructor
    · rintro ⟨name, hname, ho, hmax⟩
      obtain ⟨hk, rfl⟩ := (outcomeFor_added_eq_some_iff (hslash name hname)).1 ho
      exact ⟨name, hk, fun other hother => hmax other (hlisted hother) ((hsome k other (hlisted hother)).2 hother), rfl⟩
    · rintro ⟨name, hk, hmax, rfl⟩
      exact ⟨name, hlisted hk, (outcomeFor_added_eq_some_iff hk.slash).2 ⟨hk, rfl⟩,
        fun other hother hk' => hmax other ((hsome k other hother).1 hk')⟩

/-! ## What is collected -/

/-- A folder of experiments in a results tree. -/
structure IsParameterFolder (d : Disk) (root : Path) (model : String) (folders : List Path) (folder : Path) :
    Prop where
  /-- The model is there. -/
  hasModel : ∃ models, folderNames d root = .ok models ∧ model ∈ models
  /-- It has these folders. -/
  hasFolders : experimentFolders d (root.join model) = .ok folders
  /-- The folder is one of them. -/
  isFolder : folder ∈ folders

/-- Every folder of experiments has a file of constants. -/
theorem isFile_constants {base : Path} (h : experimentFolders d base = .ok folders) (hfolder : folder ∈ folders) :
    d.isFile (folder.join constantsFile) = true := by
  rw [experimentFolders] at h
  split at h
  · rename_i hbase
    cases h
    rwa [List.mem_singleton.1 hfolder]
  · obtain ⟨_, -, rfl⟩ := map_eq_ok_iff.1 h
    exact (List.mem_filter.1 hfolder).2

/-- The setup lines of all complete experiments of a folder are texts. -/
def HasTexts (d : Disk) (folder : Path) : Prop :=
  ∀ name : String, '/' ∉ name.toList → d.IsComplete (folder.join name) →
    d.readText ((folder.join name).withSuffix setupSuffix) ≠ .error .notText

theorem contribution_eq_added (htexts : HasTexts d folder) (hname : '/' ∉ name.toList) :
    contribution d marker (folder.join name) = .ok (added d marker (folder.join name)) := by
  rw [added]
  cases h : contribution d marker (folder.join name) with
  | error cause =>
    obtain ⟨hcomplete, hread, -⟩ := contribution_eq_error_iff_notText.1 h
    exact absurd hread (htexts name hname hcomplete)
  | ok c => rfl

/-- **The instance of a folder** has what its experiments add, as soon as its constants can be read. -/
theorem instanceOf_eq_of_hasTexts (marker : String) (hd : d.WellFormed) (htexts : HasTexts d folder)
    (hnames : experimentNames d folder = .ok names) :
    instanceOf d marker folder = (d.readText (folder.join constantsFile)).map fun constants =>
      ⟨String.ofList (Text.trimEnd constants.toList),
        Results.empty.addAll (names.map fun name => added d marker (folder.join name))⟩ := by
  have hadded : (names.mapM fun name => contribution d marker (folder.join name)) =
      .ok (names.map fun name => added d marker (folder.join name)) := by
    rw [mapM_eq_ok_iff, List.map_map]
    exact List.map_congr_left fun name hname =>
      contribution_eq_added htexts ((nodup_experimentNames hd hnames).2 name hname)
  rw [instanceOf_eq, hnames]
  simp only [bind_ok, hadded]
  cases d.readText (folder.join constantsFile) <;> rfl

/-- **What is collected of a folder** stands at its place among the instances of its model. -/
theorem exists_instance_of_collect (hd : d.WellFormed) (h : IsParameterFolder d root model folders folder)
    {doc : Document} (hdoc : (collect d root marker).value = .ok doc) :
    ∃ instances i, doc.get? model = some instances ∧ instances[folders.idxOf folder]? = some i ∧
      instanceOf d marker folder = .ok i := by
  obtain ⟨models, hmodels, hmem⟩ := h.hasModel
  rw [value_collect] at hdoc
  split at hdoc
  case isFalse => cases hdoc
  case isTrue =>
    rw [hmodels, bind_ok, mapError_eq_ok_iff, map_eq_ok_iff] at hdoc
    obtain ⟨entries, hentries, rfl⟩ := hdoc
    obtain ⟨p, hp, hmodel⟩ := exists_ok_of_mapM hentries hmem
    rw [value_collectModel, h.hasFolders, bind_ok, map_eq_ok_iff] at hmodel
    obtain ⟨instances, hinstances, rfl⟩ := hmodel
    obtain ⟨before, after, rfl⟩ := List.append_of_mem hp
    have hnodup := (nodup_folderNames hd hmodels).1
    rw [← map_fst_of_collectModel hentries, List.map_append, List.map_cons] at hnodup
    have hlater : model ∉ after.map Prod.fst :=
      fun hin => (List.nodup_cons.1 (List.perm_middle.nodup_iff.1 hnodup)).1 (List.mem_append_right _ hin)
    have hplace := congrArg (fun xs => xs[folders.idxOf folder]?) (mapM_eq_ok_iff.1 hinstances)
    simp only [List.getElem?_map] at hplace
    rw [List.getElem?_idxOf h.isFolder, Option.map_some, eq_comm, Option.map_eq_some_iff] at hplace
    obtain ⟨i, hi, heq⟩ := hplace
    exact ⟨instances, i, OrderedMap.get?_ofList_of_not_mem hlater before instances, hi, heq.symm⟩

/-- **Every experiment is filed under its kind.**  If the setup lines of the complete experiments of a folder are
texts, then the outcome of the last experiment of each kind makes up the results of the folder, also if the setup line
of a bounded one writes the number of steps in some other way, and the instance that is collected of the folder has
these results. -/
theorem exists_filed (hd : d.WellFormed) (h : IsParameterFolder d root model folders folder)
    (htexts : HasTexts d folder) (marker : String) :
    ∃ results, (∀ r, Filed d marker folder r ↔ r = results) ∧
      (∀ g n, n ≤ Decimal.wordLimit → ∀ name line, '/' ∉ name.toList → d.IsComplete (folder.join name) →
        d.readText ((folder.join name).withSuffix setupSuffix) = .ok line → Kind.HoldsBounded line g n →
        (results.get? (.bounded g n)).isSome = true) ∧
      (instanceOf d marker folder = (d.readText (folder.join constantsFile)).map fun constants =>
        ⟨String.ofList (Text.trimEnd constants.toList), results⟩) ∧
      ∀ doc, (collect d root marker).value = .ok doc → ∃ instances i, doc.get? model = some instances ∧
        instances[folders.idxOf folder]? = some i ∧ i.results = results := by
  obtain ⟨models, hmodels, hmem⟩ := h.hasModel
  have hmodel := (nodup_folderNames hd hmodels).2 model hmem
  have hfolder := ne_empty_of_mem_experimentFolders hd (join_ne_empty root hmodel.isStep) h.hasFolders h.isFolder
  obtain ⟨names, hnames⟩ := exists_experimentNames hd hfolder (isFile_constants h.hasFolders h.isFolder)
  have hfiled := filed_addAll marker hd hfolder hnames
  have hinstance := instanceOf_eq_of_hasTexts marker hd htexts hnames
  refine ⟨_, fun r => ⟨fun hr => hr.unique hfiled, fun hr => hr ▸ hfiled⟩, fun g n hn name line =>
    hfiled.isSome_bounded hn, hinstance, fun doc hdoc => ?_⟩
  obtain ⟨instances, i, hget, hplace, hi⟩ := exists_instance_of_collect hd h hdoc
  rw [hinstance, map_eq_ok_iff] at hi
  obtain ⟨constants, -, rfl⟩ := hi
  exact ⟨instances, _, hget, hplace, rfl⟩

end

/-! ## A folder with several experiments -/

/-- The setup lines of some experiments: two of one kind, and one that is of no kind. -/
def filedLines : List (String × String) :=
  [("a", " bounded , PROB , 010 "), ("b", "bounded,PROB,+10"), ("c", "neither")]

/-- A tree with these experiments and one that misses a file. -/
def filedTree : Disk where
  home := []
  entries := [(["results"], .folder), (["results", "toy"], .folder),
    (["results", "toy", "constants"], .file "N=1".toUTF8 false)] ++
    (filedLines.flatMap fun x => experiment x.1 x.2) ++ (experiment "d" "complete").dropLast
where
  /-- The files of an experiment. -/
  experiment (name line : String) : List (Location × Entry) :=
    [(["results", "toy", name ++ ".setup"], .file line.toUTF8 false),
      (["results", "toy", name ++ ".out"], .file name.toUTF8 false),
      (["results", "toy", name ++ ".status"], .file "0".toUTF8 false),
      (["results", "toy", name ++ ".time"], .file "1".toUTF8 false)]

theorem wellFormed_filedTree : filedTree.WellFormed := by decide +kernel

theorem isParameterFolder_filedTree :
    IsParameterFolder filedTree ⟨"results"⟩ "toy" [sampleFolder] sampleFolder :=
  ⟨⟨["toy"], by decide +kernel, by decide⟩, by decide +kernel, by decide⟩

theorem exists_line_filedTree (hname : '/' ∉ name.toList) (hcomplete : filedTree.IsComplete (sampleFolder.join name)) :
    ∃ line, (name, line) ∈ filedLines ∧
      filedTree.readText ((sampleFolder.join name).withSuffix setupSuffix) = .ok line := by
  have hnames : experimentNames filedTree sampleFolder = .ok ["a", "b", "c", "d"] := by decide +kernel
  have hmem := mem_experimentNames wellFormed_filedTree (by decide) hnames hname hcomplete
  have hlines : ∀ x ∈ filedLines, filedTree.readText ((sampleFolder.join x.1).withSuffix setupSuffix) = .ok x.2 := by
    decide +kernel
  rcases List.mem_append.1 (show name ∈ filedLines.map Prod.fst ++ ["d"] from hmem) with hmem | hmem
  · obtain ⟨x, hx, rfl⟩ := List.mem_map.1 hmem
    exact ⟨x.2, hx, hlines x hx⟩
  · obtain rfl := List.mem_singleton.1 hmem
    exact absurd (hcomplete timeSuffix (by decide)) (by decide +kernel)

theorem hasTexts_filedTree : HasTexts filedTree sampleFolder := by
  intro name hname hcomplete
  obtain ⟨line, -, hline⟩ := exists_line_filedTree hname hcomplete
  rw [hline]
  exact nofun

theorem eq_of_isExperiment_filedTree (h : IsExperiment filedTree sampleFolder k name) :
    k = .bounded .prob 10 ∧ (name = "a" ∨ name = "b") := by
  obtain ⟨line, hmem, hline⟩ := exists_line_filedTree h.slash h.complete
  obtain ⟨line', hline', hk⟩ := h.setup
  obtain rfl : line = line' := Except.ok.inj (hline.symm.trans hline')
  have hparse : ∀ x ∈ filedLines, (Kind.parse x.2 = .ok (.bounded .prob 10) ∧ (x.1 = "a" ∨ x.1 = "b")) ∨
      Kind.parse x.2 = .error (.malformed "neither") := by decide +kernel
  rcases hparse _ hmem with ⟨hbounded, hname⟩ | hnone
  · exact ⟨Except.ok.inj (hk.symm.trans hbounded), hname⟩
  · rw [hk] at hnone
    cases hnone

theorem isExperiment_filedTree : IsExperiment filedTree sampleFolder (.bounded .prob 10) "b" := by
  refine ⟨by decide, ?_, "bounded,PROB,+10", by decide +kernel, by decide +kernel⟩
  unfold Disk.IsComplete
  decide +kernel

/-- The bounded experiments are found under 10 steps, where the second one replaces the first, and there is nothing
else. -/
theorem exists_filed_filedTree :
    ∃ doc instances i, (collect filedTree ⟨"results"⟩ "OutOfMemoryError").value = .ok doc ∧
      doc.get? "toy" = some instances ∧ instances[0]? = some i ∧
      Filed filedTree "OutOfMemoryError" sampleFolder i.results ∧
      i.results.get? (.bounded .prob 10) =
        some (outcomeAt filedTree "OutOfMemoryError" sampleFolder (.bounded .prob 10) "b") ∧
      ∀ k, k ≠ .bounded .prob 10 → i.results.get? k = none := by
  obtain ⟨results, hfiled, -, -, hcollected⟩ :=
    exists_filed wellFormed_filedTree isParameterFolder_filedTree hasTexts_filedTree "OutOfMemoryError"
  obtain ⟨doc, hdoc⟩ := exists_of_isOk (x := (collect filedTree ⟨"results"⟩ "OutOfMemoryError").value)
    (by decide +kernel)
  obtain ⟨instances, i, hget, hplace, rfl⟩ := hcollected doc hdoc
  have hi : Filed filedTree "OutOfMemoryError" sampleFolder i.results := (hfiled _).2 rfl
  refine ⟨doc, instances, i, hdoc, hget, hplace, hi, (hi.greatest _ _).2 ⟨"b", isExperiment_filedTree, ?_, rfl⟩,
    fun k hk => ?_⟩
  · intro other hother
    rcases (eq_of_isExperiment_filedTree hother).2 with rfl | rfl <;> decide
  · rw [← Option.not_isSome_iff_eq_none, hi.found_iff]
    rintro ⟨name, hname⟩
    exact hk (eq_of_isExperiment_filedTree hname).1

end CheckerTrials
