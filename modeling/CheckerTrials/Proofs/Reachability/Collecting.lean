import CheckerTrials.Proofs.Trial.Reading
import CheckerTrials.Reachability.Collection

/-!
# What collecting comes to

Collecting makes notes on its way.  Without them it is one computation that may fail, along the models, along the
folders of each model, and along the experiments of each folder (`value_collect`, `value_collectModel`,
`instanceOf_eq`).  What an experiment adds to its instance depends on nothing but its own files: it is its
`contribution`, which fails only if the setup line is there and cannot be read (`contribution_eq_error_iff`).
-/

set_option autoImplicit false

namespace CheckerTrials

variable {V : Type} [Json.Library V] {d : Disk} {marker : String} {base folder root : Path} {model : String}

/-- What comes after a chain can be done on the way. -/
theorem map_map_mapM {ε α β γ : Type} (f : α → Except ε β) (g : β → γ) (xs : List α) :
    (xs.mapM f).map (List.map g) = xs.mapM fun a => (f a).map g := by
  induction xs with
  | nil => rfl
  | cons a rest ih =>
    rw [List.mapM_cons, List.mapM_cons, ← ih]
    cases f a with
    | error e => rfl
    | ok b => cases rest.mapM f <;> rfl

/-! ## Experiments -/

/-- All files that an experiment must have left are there. -/
def Disk.IsComplete (d : Disk) (base : Path) : Prop :=
  ∀ suffix ∈ expectedSuffixes, d.isFile (base.withSuffix suffix) = true

/-- The kind that the setup line of an experiment says. -/
def namedKind? (d : Disk) (base : Path) : Option Kind :=
  (d.readText (base.withSuffix setupSuffix)).toOption.bind fun setup => (Kind.parse setup).toOption

/-- The value of finding an experiment. -/
theorem value_findExperiment (d : Disk) (base : Path) :
    (findExperiment d base).value =
      if (expectedSuffixes.find? fun suffix => !d.isFile (base.withSuffix suffix)).isSome then .ok none
      else (d.readText (base.withSuffix setupSuffix)).map fun setup =>
        (Kind.parse setup).toOption.map fun kind => ⟨base, kind⟩ := by
  rw [findExperiment]
  split
  · rename_i missing hmissing
    rw [hmissing]
    rfl
  · rename_i hnone
    rw [hnone, if_neg (by simp)]
    cases d.readText (base.withSuffix setupSuffix) with
    | error cause => rfl
    | ok setup =>
      simp only [Except.map]
      cases Kind.parse setup <;> rfl

theorem find?_missing_eq_none_iff :
    (expectedSuffixes.find? fun suffix => !d.isFile (base.withSuffix suffix)) = none ↔ d.IsComplete base := by
  rw [List.find?_eq_none]
  exact forall₂_congr fun suffix _ => by rw [Bool.not_eq_true', Bool.not_eq_false]

/-- What an experiment adds to its instance, or nothing if it is left out. -/
def contribution (d : Disk) (marker : String) (base : Path) : Except Cause (Option (Kind × Outcome)) :=
  (findExperiment d base).value.map (Option.map fun x => (x.kind, (readOutcome d x marker).value))

/-- **An experiment fails** if it is complete and its setup line cannot be read. -/
theorem contribution_eq_error_iff {cause : Cause} :
    contribution d marker base = .error cause ↔
      d.IsComplete base ∧ d.readText (base.withSuffix setupSuffix) = .error cause := by
  rw [contribution, map_eq_error_iff, value_findExperiment, ← find?_missing_eq_none_iff]
  split
  · rename_i hsome
    rw [Option.isSome_iff_ne_none] at hsome
    exact ⟨nofun, fun h => absurd h.1 hsome⟩
  · rename_i hnone
    rw [map_eq_error_iff]
    exact ⟨fun h => ⟨by simpa using hnone, h⟩, fun h => h.2⟩

/-- **What an experiment adds** is of the kind that its setup line says. -/
theorem namedKind?_of_contribution {c : Kind × Outcome} (h : contribution d marker base = .ok (some c)) :
    namedKind? d base = some c.1 := by
  obtain ⟨found, hfound, hc⟩ := map_eq_ok_iff.1 h
  obtain ⟨x, rfl, rfl⟩ := Option.map_eq_some_iff.1 hc
  rw [value_findExperiment] at hfound
  split at hfound
  · cases hfound
  · obtain ⟨setup, hsetup, hx⟩ := map_eq_ok_iff.1 hfound
    obtain ⟨kind, hkind, rfl⟩ := Option.map_eq_some_iff.1 hx
    rw [namedKind?, hsetup]
    exact hkind

/-! ## Folders and models -/

/-- Results with what experiments add, one after the other. -/
def Results.addAll (r : Results) (cs : List (Option (Kind × Outcome))) : Results :=
  (cs.filterMap id).foldl (fun r c => r.insert c.1 c.2) r

/-- The instance that a folder of experiments holds. -/
def instanceOf (d : Disk) (marker : String) (folder : Path) : Except Cause Instance :=
  (scanFolder d folder).value.map fun f => (readInstance d marker f).value

theorem value_readInstance (f : ExperimentFolder) :
    (readInstance d marker f).value =
      { constants := f.constants
        results := (f.experiments.map fun x => (x.kind, (readOutcome d x marker).value)).foldl
          (fun r c => r.insert c.1 c.2) .empty } := by
  have hzip : f.experiments.zip (f.experiments.map fun x => (readOutcome d x marker).value) =
      f.experiments.map fun x => (x, (readOutcome d x marker).value) := by
    have hmap := @List.zip_map' _ _ _ id (fun x => (readOutcome d x marker).value) f.experiments
    rwa [List.map_id] at hmap
  have houtcomes : (Noted.all (f.experiments.map fun x => readOutcome d x marker)).value =
      f.experiments.map fun x => (readOutcome d x marker).value := by
    rw [Noted.value_all, List.map_map]
    rfl
  rw [readInstance, Noted.value_bind, houtcomes, hzip, Noted.value_pure, List.foldl_map, List.foldl_map]

/-- **The instance of a folder** has its constants and what its experiments add. -/
theorem instanceOf_eq (d : Disk) (marker : String) (folder : Path) :
    instanceOf d marker folder = do
      let constants ← d.readText (folder.join constantsFile)
      let names ← experimentNames d folder
      let cs ← names.mapM fun name => contribution d marker (folder.join name)
      return ⟨String.ofList (Text.trimEnd constants.toList), Results.empty.addAll cs⟩ := by
  rw [instanceOf, scanFolder]
  cases d.readText (folder.join constantsFile) with
  | error cause => rfl
  | ok constants =>
    simp only [bind_ok]
    cases experimentNames d folder with
    | error cause => rfl
    | ok names =>
      have hcs := map_map_mapM (fun name => (findExperiment d (folder.join name)).value)
        (Option.map fun x => (x.kind, (readOutcome d x marker).value)) names
      simp only [contribution, ← hcs, bind_ok, Noted.value_bind, Noted.value_forEach_eq, Noted.value_pure]
      cases names.mapM fun name => (findExperiment d (folder.join name)).value with
      | error cause => rfl
      | ok found =>
        simp only [Except.map, bind_ok, Results.addAll]
        rw [value_readInstance, List.filterMap_map, List.map_filterMap]
        rfl

theorem value_collectModel (d : Disk) (marker : String) (root : Path) (model : String) :
    (collectModel d marker root model).value =
      (experimentFolders d (root.join model) >>= fun folders => folders.mapM (instanceOf d marker)).map
        fun instances => (model, instances) := by
  unfold collectModel
  cases experimentFolders d (root.join model) with
  | error cause => rfl
  | ok folders =>
    have hinstances := map_map_mapM (fun folder => (scanFolder d folder).value)
      (fun f => (readInstance d marker f).value) folders
    simp only [bind_ok, Noted.value_bind, Noted.value_forEach_eq]
    show _ = (folders.mapM fun folder => (scanFolder d folder).value.map fun f => _).map _
    rw [← hinstances]
    cases folders.mapM fun folder => (scanFolder d folder).value with
    | error cause => rfl
    | ok found =>
      simp only [Except.map, Noted.value_bind, Noted.value_pure, Noted.value_all, List.map_map]
      rfl

/-- **What is collected** are the instances of the models. -/
theorem value_collect (d : Disk) (root : Path) (marker : String) :
    (collect d root marker).value =
      if d.isFolder root then
        ((folderNames d root >>= fun models => models.mapM fun m => (collectModel d marker root m).value).map
          OrderedMap.ofList).mapError .unreadable
      else .error (.notAFolder root) := by
  rw [collect]
  cases d.isFolder root with
  | false => rfl
  | true =>
    cases folderNames d root with
    | error cause => rfl
    | ok models =>
      simp only [Bool.not_true, Bool.false_eq_true, if_false, if_true, bind_ok, Noted.value_bind,
        Noted.value_forEach_eq]
      cases models.mapM fun m => (collectModel d marker root m).value <;> rfl

end CheckerTrials
