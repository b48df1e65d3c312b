import CheckerTrials.Json.Decode
import CheckerTrials.Proofs.Files.Rewriting
import CheckerTrials.Proofs.Reachability.Difference
import CheckerTrials.Proofs.Reachability.Tree

/-!
# One experiment with other files

A results tree has been collected, and then the setup line, the log and the result of a single experiment get some
other content, whatever bytes these are.  Nothing but that experiment is collected in another way
(`collect_of_rewritten`): the documents differ in its instance only, and there at most in the entries of the kinds
that the old and the new setup line say.  All the same nothing at all is collected if the experiment is complete
and the bytes of its setup line are no text, whereas any other setup line that says no kind is just skipped
(`not_collected_of_unreadable`).

The proof goes up the tree.  What an experiment adds depends on its own files (`contribution_of_rewritten`), then come
the instances of folders (`instanceOf_of_rewritten`, `instanceOf_of_rewritten_other`) and those of models
(`collectModel_of_rewritten`, `collectModel_of_rewritten_other`), and then the whole collection
(`exists_collect_of_rewritten`).
-/

set_option autoImplicit false

namespace CheckerTrials

open Disk CheckerTrials.Path

section

variable {V : Type} [Json.Library V] {d e : Disk} {marker model name : String} {base folder other root : Path}
  {folders : List Path}

/-! ## Other experiments -/

/-- **What an experiment adds depends on its own files only.** -/
theorem contribution_of_rewritten {own : Location → Prop} (h : d.Rewritten own e)
    (hbase : ∀ suffix ∈ contentSuffixes, ∀ l, d.locate (base.withSuffix suffix) = .ok l → ¬ own l) :
    contribution e marker base = contribution d marker base := by
  have hsetup := h.readText_eq (hbase setupSuffix (by decide))
  have hresult := h.readText_eq (hbase jsonSuffix (by decide))
  have hlog := h.readBytes_eq (hbase logSuffix (by decide))
  have hfound : (findExperiment e base).value = (findExperiment d base).value := by
    simp only [value_findExperiment, h.isFile_eq, hsetup]
  have hread : ∀ x : Experiment, x.base = base → readOutcome e x marker = readOutcome d x marker := by
    intro x hx
    have hclass : classify e (.json x.base) marker = classify d (.json x.base) marker := by
      rw [classify, classify, Artifact.json, h.isFile_eq, hx, hlog]
    have htext : e.readText (Artifact.json x.base).result = d.readText (Artifact.json x.base).result := by
      rw [Artifact.json, hx, hresult]
    simp only [readOutcome, hclass, htext]
  rw [contribution, contribution, hfound]
  cases hx : (findExperiment d base).value with
  | error cause => rfl
  | ok found =>
    cases found with
    | none => rfl
    | some x =>
      have hx' : x.base = base := by
        rw [value_findExperiment] at hx
        split at hx
        · cases hx
        · obtain ⟨setup, -, hsetup⟩ := map_eq_ok_iff.1 hx
          obtain ⟨kind, -, rfl⟩ := Option.map_eq_some_iff.1 hsetup
          rfl
      exact congrArg (fun o => Except.ok (some (x.kind, Noted.value o))) (hread x hx')

/-! ## Other folders -/

theorem folderNames_of_rewritten {own : Location → Prop} (h : d.Rewritten own e) (p : Path) :
    folderNames e p = folderNames d p := by
  refine h.map_list_eq p fun es => ?_
  rw [List.filterMap_map]
  refine congrArg _ (List.filterMap_congr fun q _ => ?_)
  cases q.2 with
  | _ => simp [Rewritten.shape_eq_folder_iff]

theorem experimentNames_of_rewritten {own : Location → Prop} (h : d.Rewritten own e) (p : Path) :
    experimentNames e p = experimentNames d p := by
  refine h.map_list_eq p fun es => ?_
  rw [List.filterMap_map]
  rfl

theorem experimentFolders_of_rewritten {own : Location → Prop} (h : d.Rewritten own e) (p : Path) :
    experimentFolders e p = experimentFolders d p := by
  simp only [experimentFolders, h.isFile_eq, folderNames_of_rewritten h]

/-- **Another folder holds the same instance.** -/
theorem instanceOf_of_rewritten_other (hd : d.WellFormed) (h : d.Rewritten (HoldsContent d (folder.join name)) e)
    (hfolder : folder.text ≠ "") (hname : '/' ∉ name.toList) (hother : other.text ≠ "")
    (hne : ∀ m, d.locate folder = .ok m → d.locate other ≠ .ok m) :
    instanceOf e marker other = instanceOf d marker other := by
  have hfile : ∀ file : String, IsStep file.toList → file ≠ "." ∧ file ≠ ".." →
      ∀ l, d.locate (other.join file) = .ok l → ¬ HoldsContent d (folder.join name) l :=
    fun file hstep hpoints l hl => not_holdsContent_of_folder hfolder hother hname hne hstep hpoints hl
  rw [instanceOf_eq, instanceOf_eq, experimentNames_of_rewritten h,
    h.readText_eq (hfile constantsFile isStep_constantsFile.1 isStep_constantsFile.2)]
  refine bind_congr fun constants => ?_
  cases hnames : experimentNames d other with
  | error cause => rw [bind_error, bind_error]
  | ok names =>
    rw [bind_ok, bind_ok, mapM_congr_of_mem fun n hn => contribution_of_rewritten h fun suffix hs l hl => ?_]
    have hslash := (nodup_experimentNames hd hnames).2 n hn
    have hsuffix := isSuffix_of_mem hs
    rw [withSuffix_join_beside other hslash hsuffix] at hl
    obtain ⟨hstep, hpoints⟩ := isStep_beside hslash hsuffix
    exact hfile _ hstep hpoints l hl

/-! ## The experiment itself -/

/-- The kinds that the old and the new setup line say. -/
def namedKinds (d e : Disk) (base : Path) : List Kind := (namedKind? d base).toList ++ (namedKind? e base).toList

/-- The instance of the folder depends on what the experiment adds, which is put in the place of what it added. -/
theorem exists_instanceOf_of_rewritten (hd : d.WellFormed) (h : d.Rewritten (HoldsContent d (folder.join name)) e)
    (hfolder : folder.text ≠ "") {names : List String} (hnames : experimentNames d folder = .ok names)
    (hname : name ∈ names) {i : Instance} (hi : instanceOf d marker folder = .ok i) :
    ∃ first c last, i.results = Results.empty.addAll (first ++ c :: last) ∧
      contribution d marker (folder.join name) = .ok c ∧
      instanceOf e marker folder = (contribution e marker (folder.join name)).map fun c' =>
        ⟨i.constants, Results.empty.addAll (first ++ c' :: last)⟩ := by
  obtain ⟨hnodup, hslash⟩ := nodup_experimentNames hd hnames
  obtain ⟨before, after, rfl, hnot⟩ := exists_split hnodup hname
  rw [instanceOf_eq, bind_eq_ok_iff] at hi
  obtain ⟨constants, hconstants, hi⟩ := hi
  rw [hnames, bind_ok, bind_eq_ok_iff] at hi
  obtain ⟨cs, hcs, hi⟩ := hi
  cases hi
  have hslash_name := hslash name hname
  have hconstants_eq := h.readText_eq (p := folder.join constantsFile) fun l hl =>
    not_holdsContent_of_ne hfolder hslash_name isStep_constantsFile.1 isStep_constantsFile.2
      (fun suffix hs => constantsFile_ne_append hs name) hl
  have hsame : ∀ n ∈ before ++ after,
      contribution e marker (folder.join n) = contribution d marker (folder.join n) := by
    refine fun n hn => contribution_of_rewritten h fun suffix hs l hl => ?_
    have hslash := hslash n (mem_split_of_mem hn)
    have hsuffix := isSuffix_of_mem hs
    rw [withSuffix_join_beside folder hslash hsuffix] at hl
    obtain ⟨hstep, hpoints⟩ := isStep_beside hslash hsuffix
    refine not_holdsContent_of_ne hfolder hslash_name hstep hpoints (fun t ht heq => hnot ?_) hl
    exact name_eq_of_append hs ht heq ▸ hn
  obtain ⟨first, c, last, rfl, -, hc, -, hchange⟩ := mapM_change hcs hsame
  refine ⟨first, c, last, rfl, hc, ?_⟩
  rw [instanceOf_eq, hconstants_eq, hconstants, experimentNames_of_rewritten h, hnames]
  simp only [bind_ok, hchange]
  cases contribution e marker (folder.join name) <;> rfl

/-- The folder with the experiment fails only if the experiment does, and the instance it holds differs in the
entries of the named kinds at most. -/
theorem instanceOf_of_rewritten (hd : d.WellFormed) (h : d.Rewritten (HoldsContent d (folder.join name)) e)
    (hfolder : folder.text ≠ "") {names : List String} (hnames : experimentNames d folder = .ok names)
    (hname : name ∈ names) {i : Instance} (hi : instanceOf d marker folder = .ok i) :
    (∀ cause, instanceOf e marker folder = .error cause ↔
      contribution e marker (folder.join name) = .error cause) ∧
    ∀ j, instanceOf e marker folder = .ok j → j.constants = i.constants ∧
      i.results.AgreeOff (namedKinds d e (folder.join name)) j.results := by
  obtain ⟨first, c, last, hresults, hc, hinstance⟩ :=
    exists_instanceOf_of_rewritten hd h hfolder hnames hname hi
  refine ⟨fun cause => by rw [hinstance, map_eq_error_iff], fun j hj => ?_⟩
  rw [hinstance, map_eq_ok_iff] at hj
  obtain ⟨c', hc', rfl⟩ := hj
  refine ⟨rfl, hresults ▸ .addAll_middle _ _ _ (fun k hk => ?_) fun k hk => ?_⟩
  · rw [Option.mem_def.1 hk] at hc
    rw [namedKinds, namedKind?_of_contribution hc]
    exact List.mem_append_left _ (List.mem_singleton.2 rfl)
  · rw [Option.mem_def.1 hk] at hc'
    rw [namedKinds, namedKind?_of_contribution hc']
    exact List.mem_append_right _ (List.mem_singleton.2 rfl)

/-! ## The whole tree -/

variable {doc : Document}

/-- What is collected of the model of the experiment depends on the folder of the experiment. -/
theorem collectModel_of_rewritten (hd : d.WellFormed) (hmodel : IsName model)
    (hfolders : experimentFolders d (root.join model) = .ok folders) (hfolder : folder ∈ folders)
    (hname : '/' ∉ name.toList) (h : d.Rewritten (HoldsContent d (folder.join name)) e)
    {p : String × List Instance} (hp : (collectModel d marker root model).value = .ok p) :
    ∃ before i after, p = (model, before ++ i :: after) ∧ before.length = folders.idxOf folder ∧
      instanceOf d marker folder = .ok i ∧ (collectModel e marker root model).value =
        (instanceOf e marker folder).map fun j => (model, before ++ j :: after) := by
  have hbase := join_ne_empty root hmodel.isStep
  obtain ⟨before, after, rfl, hnot, hapart⟩ := exists_split_folders hd hbase hfolders hfolder
  rw [value_collectModel, hfolders, bind_ok, map_eq_ok_iff] at hp
  obtain ⟨instances, hinstances, rfl⟩ := hp
  have hother : ∀ other ∈ before ++ after, instanceOf e marker other = instanceOf d marker other := by
    exact fun other hother => instanceOf_of_rewritten_other hd h
      (ne_empty_of_mem_experimentFolders hd hbase hfolders hfolder) hname
      (ne_empty_of_mem_experimentFolders hd hbase hfolders (mem_split_of_mem hother)) (hapart other hother)
  obtain ⟨first, i, last, rfl, hfirst, hi, -, hchange⟩ := mapM_change hinstances hother
  refine ⟨first, i, last, rfl, ?_, hi, ?_⟩
  · have hlength := congrArg List.length (mapM_eq_ok_iff.1 hfirst)
    rw [List.length_map, List.length_map] at hlength
    rw [List.idxOf_append_of_notMem hnot, List.idxOf_cons_self, Nat.add_zero, hlength]
  · rw [value_collectModel, experimentFolders_of_rewritten h, hfolders, bind_ok, hchange]
    cases instanceOf e marker folder <;> rfl

/-- What is collected is for the models that are there. -/
theorem map_fst_of_collectModel {models : List String} {entries : List (String × List Instance)}
    (h : (models.mapM fun m => (collectModel d marker root m).value) = .ok entries) :
    entries.map Prod.fst = models := by
  rw [mapM_eq_ok_iff] at h
  induction models generalizing entries with
  | nil => rw [List.map_eq_nil_iff.1 h.symm, List.map_nil]
  | cons m rest ih =>
    cases entries with
    | nil => cases h
    | cons p others =>
      obtain ⟨hp, hothers⟩ := List.cons.inj h
      simp only [value_collectModel, map_eq_ok_iff] at hp
      obtain ⟨instances, -, rfl⟩ := hp
      rw [List.map_cons, ih hothers]

/-- The other models are collected in the same way. -/
theorem collectModel_of_rewritten_other (hd : d.WellFormed) (hroot : root.text ≠ "") (hmodel : IsName model)
    (hfolders : experimentFolders d (root.join model) = .ok folders) (hfolder : folder ∈ folders)
    (hname : '/' ∉ name.toList) (h : d.Rewritten (HoldsContent d (folder.join name)) e) {m : String}
    (hm : IsName m) (hne : m ≠ model) :
    (collectModel e marker root m).value = (collectModel d marker root m).value := by
  rw [value_collectModel, value_collectModel, experimentFolders_of_rewritten h]
  cases hothers : experimentFolders d (root.join m) with
  | error cause => rw [bind_error, bind_error]
  | ok others =>
    rw [bind_ok, bind_ok, mapM_congr_of_mem fun other hother => ?_]
    refine instanceOf_of_rewritten_other hd h
      (ne_empty_of_mem_experimentFolders hd (join_ne_empty root hmodel.isStep) hfolders hfolder) hname
      (ne_empty_of_mem_experimentFolders hd (join_ne_empty root hm.isStep) hothers hother) fun l hl hl' => hne ?_
    -- the two folders are below those of their models, which are side by side
    obtain ⟨r, below, hr, rfl⟩ := exists_of_locate_folder hd hroot hmodel hfolders hfolder hl
    obtain ⟨r', below', hr', heq⟩ := exists_of_locate_folder hd hroot hm hothers hother hl'
    rw [hr] at hr'
    cases hr'
    exact (List.cons.inj (List.append_cancel_left heq)).1.symm

/-- **The collection depends on the folder of the experiment**: it is the old document with the instance that the
folder holds now in the place of the old one. -/
theorem exists_collect_of_rewritten (hd : d.WellFormed) (hlisted : IsListed d root model folders folder name)
    (hdoc : (collect d root marker).value = .ok doc) (h : d.Rewritten (HoldsContent d (folder.join name)) e) :
    ∃ first front i back last, doc = OrderedMap.ofList (first ++ (model, front ++ i :: back) :: last) ∧
      model ∉ last.map Prod.fst ∧ front.length = folders.idxOf folder ∧ instanceOf d marker folder = .ok i ∧
      (collect e root marker).value = ((instanceOf e marker folder).map fun j =>
        OrderedMap.ofList (first ++ (model, front ++ j :: back) :: last)).mapError .unreadable := by
  obtain ⟨models, hmodels, hmem⟩ := hlisted.hasModel
  obtain ⟨names, hnames, hname⟩ := hlisted.hasName
  obtain ⟨hnodup, hmodelNames⟩ := nodup_folderNames hd hmodels
  have hslash := (nodup_experimentNames hd hnames).2 name hname
  rw [value_collect] at hdoc
  split at hdoc
  case isFalse => cases hdoc
  case isTrue hisFolder =>
    obtain ⟨r, hr, -⟩ := isFolder_iff.1 hisFolder
    have hroot := (locate_eq_ok_iff.1 hr).2.1
    rw [hmodels, bind_ok, mapError_eq_ok_iff, map_eq_ok_iff] at hdoc
    obtain ⟨entries, hentries, rfl⟩ := hdoc
    obtain ⟨before, after, rfl, hnot⟩ := exists_split hnodup hmem
    have hother : ∀ m ∈ before ++ after,
        (collectModel e marker root m).value = (collectModel d marker root m).value := fun m hm =>
      collectModel_of_rewritten_other hd hroot (hmodelNames model hmem) hlisted.hasFolders hlisted.isFolder hslash h
        (hmodelNames m (mem_split_of_mem hm))
        fun heq => hnot (heq ▸ hm)
    obtain ⟨first, p, last, rfl, -, hp, hlast, hchange⟩ := mapM_change hentries hother
    obtain ⟨front, i, back, rfl, hplace, hi, hmodelValue⟩ :=
      collectModel_of_rewritten hd (hmodelNames model hmem) hlisted.hasFolders hlisted.isFolder hslash h hp
    refine ⟨first, front, i, back, last, rfl, ?_, hplace, hi, ?_⟩
    · rw [map_fst_of_collectModel hlast]
      exact fun hin => hnot (List.mem_append_right before hin)
    · rw [value_collect, h.isFolder_eq, if_pos hisFolder, folderNames_of_rewritten h, hmodels, bind_ok, hchange,
        hmodelValue]
      cases instanceOf e marker folder <;> rfl

/-- An experiment that fails has a setup line that is no text. -/
theorem contribution_eq_error_iff_notText {cause : Cause} :
    contribution d marker base = .error cause ↔
      d.IsComplete base ∧ d.readText (base.withSuffix setupSuffix) = .error .notText ∧ cause = .notText := by
  rw [contribution_eq_error_iff]
  constructor
  · rintro ⟨hcomplete, hread⟩
    obtain rfl := readText_eq_error_of_isFile (hcomplete setupSuffix (by decide)) hread
    exact ⟨hcomplete, hread, rfl⟩
  · rintro ⟨hcomplete, hread, rfl⟩
    exact ⟨hcomplete, hread⟩

/-- **One experiment with other files.**  If a results tree has been collected and the setup line, the log and the
result of one of its experiments get another content, then nothing is collected if the experiment is complete and
its setup line is no text.  In any other case the document differs in the instance of that experiment only, and there
in the entries of the kinds that its setup lines say. -/
theorem collect_of_rewritten (hd : d.WellFormed) (hlisted : IsListed d root model folders folder name)
    (hdoc : (collect d root marker).value = .ok doc)
    (h : d.Rewritten (HoldsContent d (folder.join name)) e) :
    (∀ error, (collect e root marker).value = .error error ↔
      e.IsComplete (folder.join name) ∧
        e.readText ((folder.join name).withSuffix setupSuffix) = .error .notText ∧
        error = .unreadable .notText) ∧
    ∀ doc', (collect e root marker).value = .ok doc' →
      doc.DifferAt model (folders.idxOf folder) (namedKinds d e (folder.join name)) doc' := by
  obtain ⟨models, hmodels, hmem⟩ := hlisted.hasModel
  obtain ⟨names, hnames, hname⟩ := hlisted.hasName
  have hmodel := (nodup_folderNames hd hmodels).2 model hmem
  have hfolder := ne_empty_of_mem_experimentFolders hd (join_ne_empty root hmodel.isStep) hlisted.hasFolders
    hlisted.isFolder
  obtain ⟨first, front, i, back, last, rfl, hlater, hplace, hi, hcollect⟩ :=
    exists_collect_of_rewritten hd hlisted hdoc h
  obtain ⟨hfails, hagrees⟩ := instanceOf_of_rewritten hd h hfolder hnames hname hi
  refine ⟨fun error => ?_, fun doc' hdoc' => ?_⟩
  · rw [hcollect, mapError_eq_error_iff]
    simp only [map_eq_error_iff, hfails, contribution_eq_error_iff_notText]
    constructor
    · rintro ⟨_, ⟨hcomplete, hread, rfl⟩, rfl⟩
      exact ⟨hcomplete, hread, rfl⟩
    · rintro ⟨hcomplete, hread, rfl⟩
      exact ⟨.notText, ⟨hcomplete, hread, rfl⟩, rfl⟩
  · rw [hcollect, mapError_eq_ok_iff, map_eq_ok_iff] at hdoc'
    obtain ⟨j, hj, rfl⟩ := hdoc'
    exact hplace ▸ .ofList first front back hlater (hagrees j hj).1 (hagrees j hj).2

end

/-! ## A tree with one experiment -/

/-- A tree with one experiment, whose setup line consists of the given bytes. -/
def sampleTree (setup : ByteArray) : Disk where
  home := []
  entries := [(["results"], .folder), (["results", "toy"], .folder),
    (["results", "toy", "constants"], .file "N=1".toUTF8 false), (["results", "toy", "a.setup"], .file setup false),
    (["results", "toy", "a.out"], .file "".toUTF8 false), (["results", "toy", "a.status"], .file "0".toUTF8 false),
    (["results", "toy", "a.time"], .file "1".toUTF8 false)]

/-- The folder of that experiment. -/
def sampleFolder : Path := ⟨"results/toy"⟩

/-- A setup line that is a text. -/
def completeLine : ByteArray := "complete".toUTF8

/-- Bytes that are no text. -/
def brokenLine : ByteArray := ⟨#[0xff]⟩

theorem wellFormed_sampleTree : (sampleTree completeLine).WellFormed := by decide +kernel

theorem isListed_sampleTree : IsListed (sampleTree completeLine) ⟨"results"⟩ "toy" [sampleFolder] sampleFolder "a" :=
  ⟨⟨["toy"], by decide +kernel, by decide⟩, by decide +kernel, by decide, ["a"], by decide +kernel, by decide⟩

/-- Another setup line is written. -/
theorem rewritten_sampleTree (setup : ByteArray) :
    (sampleTree completeLine).Rewritten (HoldsContent (sampleTree completeLine) (sampleFolder.join "a"))
      (sampleTree setup) := by
  have hlocate : (sampleTree completeLine).locate ((sampleFolder.join "a").withSuffix setupSuffix) =
      .ok ["results", "toy", "a.setup"] := by decide +kernel
  have hwrite : (sampleTree completeLine).writeBytes ((sampleFolder.join "a").withSuffix setupSuffix) setup =
      .ok (sampleTree setup) := by
    rw [Disk.writeBytes, hlocate, bind_ok, if_neg (by decide +kernel)]
    simp [sampleTree, put, putEntry, Disk.get?, List.lookup_cons]
  exact (Rewritten.refl _ _).writeBytes (by decide +kernel) (fun l hl => ⟨setupSuffix, by decide, hl⟩) hwrite

/-- With another setup line, the entries of both kinds may change; with one that is no text, nothing is collected. -/
theorem collect_of_rewritten_sampleTree :
    (∃ doc doc', (collect (sampleTree completeLine) ⟨"results"⟩ "OutOfMemoryError").value = .ok doc ∧
      (collect (sampleTree "unbounded,PROB".toUTF8) ⟨"results"⟩ "OutOfMemoryError").value = .ok doc' ∧
      doc.DifferAt "toy" 0 [.complete, .unbounded .prob] doc') ∧
    (collect (sampleTree brokenLine) ⟨"results"⟩ "OutOfMemoryError").value = .error (.unreadable .notText) := by
  obtain ⟨doc, hdoc⟩ := exists_of_isOk (x := (collect (sampleTree completeLine) ⟨"results"⟩ "OutOfMemoryError").value)
    (by decide +kernel)
  obtain ⟨doc', hdoc'⟩ := exists_of_isOk
    (x := (collect (sampleTree "unbounded,PROB".toUTF8) ⟨"results"⟩ "OutOfMemoryError").value) (by decide +kernel)
  have hother := collect_of_rewritten wellFormed_sampleTree isListed_sampleTree hdoc
    (rewritten_sampleTree "unbounded,PROB".toUTF8)
  have hbroken := collect_of_rewritten wellFormed_sampleTree isListed_sampleTree hdoc
    (rewritten_sampleTree brokenLine)
  have hkinds : namedKinds (sampleTree completeLine) (sampleTree "unbounded,PROB".toUTF8) (sampleFolder.join "a") =
      [.complete, .unbounded .prob] := by decide +kernel
  refine ⟨⟨doc, doc', hdoc, hdoc', ?_⟩, ?_⟩
  · rw [← hkinds]
    exact hother.2 doc' hdoc'
  · refine (hbroken.1 _).2 ⟨?_, by decide +kernel, rfl⟩
    unfold Disk.IsComplete
    decide +kernel

/-- **One broken experiment can stop a collection**: that of a tree in which one setup line is no text. -/
theorem not_collected_of_unreadable :
    ¬ ∀ (d e : Disk) (root : Path) (model : String) (folders : List Path) (folder : Path) (name marker : String)
      (doc : Document), d.WellFormed → IsListed d root model folders folder name →
      (collect d root marker).value = .ok doc → d.Rewritten (HoldsContent d (folder.join name)) e →
      ∃ doc', (collect e root marker).value = .ok doc' := by
  intro h
  obtain ⟨doc, hdoc⟩ := exists_of_isOk (x := (collect (sampleTree completeLine) ⟨"results"⟩ "OutOfMemoryError").value)
    (by decide +kernel)
  obtain ⟨doc', hdoc'⟩ := h _ _ _ _ _ _ _ _ _ wellFormed_sampleTree isListed_sampleTree hdoc
    (rewritten_sampleTree brokenLine)
  have hnone : (collect (sampleTree brokenLine) ⟨"results"⟩ "OutOfMemoryError").value.isOk = false := by
    decide +kernel
  rw [hdoc'] at hnone
  cases hnone

end CheckerTrials
