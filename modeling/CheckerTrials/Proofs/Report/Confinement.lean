import CheckerTrials.Proofs.CommandLine.Configuring
import CheckerTrials.Proofs.Report.Files

/-!
# Reports and series stay in their folder

The names of reports and series are made from what the results say, and anything may stand there: paths that go
up, names that are points, slashes in configurations.  None of it leads out of the folder that was asked for.  The
name of a model has no separator in it, the slashes of a configuration are written as dashes, and the extension
keeps a name apart from the two steps with a meaning.  So whatever is read, the reports of its groups
(`ReportsInside`) and the series of its models (`SeriesInside`) are entries of their folder and nothing else is
touched.
-/

set_option autoImplicit false

namespace CheckerTrials

open CheckerTrials.Path

/-! ## Reports -/

/-- **Reports stay in their folder**, whatever comes of writing them. -/
structure ReportsInside (folder : Path) (trials : List (Trial Float)) (options : SummaryOptions Float)
    (d : Disk) : Prop where
  /-- The file of every group has the name of an entry. -/
  names : ∀ k ∈ (aggregate trials options).keys, NamesEntry (reportFileName k)
  /-- The paths that are given join these names to the path of the folder. -/
  paths : ∀ paths, ((writeReports folder trials (aggregate trials options)).on d).result = .ok paths →
    paths = (aggregate trials options).keys.map fun k => folder.join (reportFileName k)
  /-- Nothing else is changed but that the folder is created. -/
  disk : d.FillsFolder folder ((aggregate trials options).keys.map reportFileName)
    ((writeReports folder trials (aggregate trials options)).on d).disk

/-- Writing all reports is creating a folder and filling it. -/
theorem fillsFolder_writeReports {folder : Path} (trials : List (Trial Float)) {groups : Groups Float}
    (hnames : ∀ k ∈ groups.keys, NamesEntry (reportFileName k)) (d : Disk) :
    d.FillsFolder folder (groups.keys.map reportFileName) ((writeReports folder trials groups).on d).disk := by
  have hentries : ∀ p ∈ groups.entries, NamesEntry (reportFileName p.1) :=
    fun p hp => hnames p.1 (List.mem_map_of_mem hp)
  have hfills : Work.Fills folder (groups.keys.map reportFileName)
      (writeEntries folder trials groups.entries) := by
    rw [OrderedMap.keys, List.map_map]
    exact fills_writeEntries trials hentries
  exact Work.fillsFolder_of_fills d rfl rfl (hfills.bind fun _ => (Work.Fills.note _).bind fun _ => .pure _)

theorem reportsInside {trials : List (Trial Float)} (hmodels : ∀ t ∈ trials, IsModelName t.model) (folder : Path)
    (options : SummaryOptions Float) (d : Disk) : ReportsInside folder trials options d :=
  have hnames : ∀ k ∈ (aggregate trials options).keys, NamesEntry (reportFileName k) :=
    fun _ hk => namesEntry_of_mem_keys hmodels options hk
  ⟨hnames, fun _ hwrite => paths_of_writeReports hwrite, fillsFolder_writeReports trials hnames d⟩

section

variable {V : Type} [Json.Library V]

/-! ## Series -/

namespace Task

/-- **Series stay in their folder**, whatever comes of writing them: either nothing is changed, or the folder is
created and filled with the series of the models that were read. -/
def SeriesInside (results output : Path) (o : TrialOptions) (d : Disk) : Prop :=
  ((performSeries results output o).on d).disk = d ∨
    ∃ (config : Config) (trials : List (Trial Float)),
      ((loadConfig o.config).on d).result = .ok config ∧
      (loadResults d results ⟨o.trailing, config.marker⟩).value = .ok trials ∧
      (∀ model ∈ modelsOf trials, IsModelName model ∧ NamesEntry (seriesFileName model)) ∧
      d.FillsFolder output ((modelsOf trials).map seriesFileName) ((performSeries results output o).on d).disk

theorem mem_modelsOf {trials : List (Trial Float)} {model : String} :
    model ∈ modelsOf trials ↔ ∃ t ∈ trials, t.model = model := by
  rw [modelsOf, OrderedMap.mem_keys_ofKeys, List.mem_map]

/-- The models that were read have names of models, and their series have files of their own. -/
theorem isModelName_of_mem_modelsOf {d : Disk} {root : Path} {load : LoadOptions} {trials : List (Trial Float)}
    (h : (loadResults d root load).value = .ok trials) {model : String} (hmodel : model ∈ modelsOf trials) :
    IsModelName model ∧ NamesEntry (seriesFileName model) := by
  obtain ⟨t, ht, rfl⟩ := mem_modelsOf.1 hmodel
  have hname := isModelName_of_loadResults h ht
  exact ⟨hname, namesEntry_seriesFileName hname.slash⟩

/-- Loading a configuration changes nothing. -/
theorem exists_yields_loadConfig (config : Option Path) (d : Disk) :
    ∃ result, Work.Yields (loadConfig config) d result d := by
  cases config with
  | none => exact ⟨_, rfl, rfl⟩
  | some p => exact ⟨_, .of_on (on_loadConfig_some p d)⟩

/-- Loading trials changes nothing. -/
theorem yields_loadTrials (results : Path) (o : TrialOptions) (config : Config) (d : Disk) :
    Work.Yields (loadTrials results o config) d
      ((loadResults d results ⟨o.trailing, config.marker⟩).value.mapError .disk) d := by
  have hask : Work.Yields (get : Work TaskError Disk) d (.ok d) d := ⟨rfl, rfl⟩
  exact .bind_ok hask (.note_bind (.of_on (Work.on_ofExcept _ d)))

theorem fills_writeSeries (output : Path) (trials : List (Trial Float)) (config : Config) {model : String}
    (hname : NamesEntry (seriesFileName model)) :
    Work.Fills output [seriesFileName model] (writeSeries output trials config model) := by
  rw [writeSeries]
  split
  · exact .note _
  · exact (Work.Fills.writeText hname _ TaskError.disk).bind fun _ => .note _

theorem fills_allSeries (output : Path) {trials : List (Trial Float)} (config : Config)
    (hnames : ∀ model ∈ modelsOf trials, NamesEntry (seriesFileName model)) :
    Work.Fills output ((modelsOf trials).map seriesFileName)
      ((modelsOf trials).forM (writeSeries output trials config)) :=
  .forM fun model hmodel => (fills_writeSeries output trials config (hnames model hmodel)).mono <|
    List.cons_subset.2 ⟨List.mem_map_of_mem hmodel, List.nil_subset _⟩

/-- Creating the folder of series tells its failures in other words. -/
theorem yields_createFolder (output : Path) (d : Disk) :
    Work.Yields ((Work.act fun d => d.createFolders output).mapError TaskError.disk) d
      ((d.createFolders output).1.mapError TaskError.disk) (d.createFolders output).2 := by
  have hact : Work.Yields (Work.act fun d => d.createFolders output) d (d.createFolders output).1
      (d.createFolders output).2 := .of_on (Work.on_act _ d)
  exact hact.mapError TaskError.disk

theorem on_createFolder (output : Path) (d : Disk) :
    (((Work.act fun d => d.createFolders output).mapError TaskError.disk).on d).result.isOk =
        (d.createFolders output).1.isOk ∧
      (((Work.act fun d => d.createFolders output).mapError TaskError.disk).on d).disk =
        (d.createFolders output).2 := by
  obtain ⟨hresult, hdisk⟩ := yields_createFolder output d
  rw [hresult]
  refine ⟨?_, hdisk⟩
  cases (d.createFolders output).1 <;> rfl

theorem seriesInside (results output : Path) (o : TrialOptions) (d : Disk) :
    SeriesInside results output o d := by
  rw [SeriesInside]
  obtain ⟨loaded, hload⟩ := exists_yields_loadConfig o.config d
  cases loaded with
  | error e =>
    have hall : Work.Yields (performSeries results output o) d (.error e) d := .bind_error hload
    exact .inl hall.disk
  | ok config =>
    have htrials := yields_loadTrials results o config d
    cases hresults : (loadResults d results ⟨o.trailing, config.marker⟩).value with
    | error cause =>
      rw [hresults] at htrials
      have hall : Work.Yields (performSeries results output o) d (.error (.disk cause)) d :=
        .bind_ok hload (.bind_error htrials)
      exact .inl hall.disk
    | ok trials =>
      rw [hresults] at htrials
      have hmodels : ∀ model ∈ modelsOf trials, IsModelName model ∧ NamesEntry (seriesFileName model) :=
        fun _ hmodel => isModelName_of_mem_modelsOf hresults hmodel
      have hfills := fills_allSeries output config fun model hmodel => (hmodels model hmodel).2
      obtain ⟨hok, hcreated⟩ := on_createFolder output d
      have hrest : Work.Yields ((Work.act fun d => d.createFolders output).mapError TaskError.disk >>= fun _ =>
          (modelsOf trials).forM (writeSeries output trials config)) d _ _ := ⟨rfl, rfl⟩
      have hall : Work.Yields (performSeries results output o) d _ _ := .bind_ok hload (.bind_ok htrials hrest)
      refine .inr ⟨config, trials, hload.result, hresults, hmodels, ?_⟩
      rw [hall.disk]
      exact Work.fillsFolder_of_fills d hok hcreated hfills

end Task

/-! ## Whatever was read -/

/-- **Reports and series stay inside.**  Whatever a folder of results holds, the models that are read from it have
names of models, and the reports and series that are made from it are entries of the folders that were asked
for. -/
theorem inside_of_loadResults {d : Disk} {root : Path} {load : LoadOptions} {trials : List (Trial Float)}
    (h : (loadResults d root load).value = .ok trials) :
    (∀ t ∈ trials, IsModelName t.model) ∧
    (∀ folder options e, ReportsInside folder trials options e) ∧
    ∀ output o, Task.SeriesInside root output o d :=
  have hmodels : ∀ t ∈ trials, IsModelName t.model := fun _ ht => isModelName_of_loadResults h ht
  ⟨hmodels, reportsInside hmodels, fun output o => Task.seriesInside root output o d⟩

end

/-- A folder of results whose command lines try to lead out of it: with models that are named like the folder
itself and the one above, with separators of both kinds, and with a configuration that goes up. -/
def strayResults : Disk where
  home := []
  entries := [
    (["results"], .folder),
    (["results", "iteration0"], .folder),
    (["results", "iteration0", "0.setup"], .file "-m ../../..prism --informationLevel ../../up".toUTF8 false),
    (["results", "iteration0", "1.setup"], .file "run /etc\\...nm".toUTF8 false)]

theorem inside_of_strayResults :
    (loadResults strayResults ⟨"results"⟩ ⟨.states, "oom"⟩).value =
        .ok [.failed "." (some "../../up") .generic 0, .failed ".." none .generic 0] ∧
      (∀ folder options e, ReportsInside folder
        [.failed "." (some "../../up") .generic 0, .failed ".." none .generic 0] options e) ∧
      ∀ output o, Task.SeriesInside ⟨"results"⟩ output o strayResults := by
  have hload : (loadResults strayResults ⟨"results"⟩ ⟨.states, "oom"⟩).value =
      .ok [.failed "." (some "../../up") .generic 0, .failed ".." none .generic 0] := by decide +kernel
  exact ⟨hload, (inside_of_loadResults hload).2⟩

end CheckerTrials
