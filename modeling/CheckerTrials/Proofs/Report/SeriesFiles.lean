import CheckerTrials.Proofs.CommandLine.Evaluating
import CheckerTrials.Proofs.Files.Differing
import CheckerTrials.Proofs.Files.Several
import CheckerTrials.Proofs.Report.Confinement

/-!
# What stays of the series

The series of the best trial of every model with a success goes into a file that is named after the model, with dashes
for points.  Nothing checks whether two models have the same file.  If they have, the series of the first one is
overwritten by that of the second one, although the command says that both have been written.

* `allSeries`: the series that there are, in the order in which they are written.
* `comesTo_forM_writeSeries`: writing the series of several models is writing texts one after the other.
* `SeriesEnds`: the ways in which the command can end.
* `keepsSeries`: what is left, in whatever way it has ended.
-/

set_option autoImplicit false

namespace CheckerTrials.Task

open CheckerTrials.Path

section

variable {V : Type} [Json.Library V] {trials : List (Trial Float)} {config : Config} {results output : Path}
  {o : TrialOptions} {execute : Executor} {d e : Disk}

/-! ## The series that there are -/

/-- The best trial of a model. -/
def bestTrial? (trials : List (Trial Float)) (model : String) : Option (Trial Float) :=
  (leaderboard (trials.filter fun t => t.model == model)).head?

/-- The series of some models, in their order: each with the model whose best trial it is of. -/
def seriesOf (trials : List (Trial Float)) (config : Config) (models : List String) : List (String × String) :=
  models.filterMap fun model =>
    (bestTrial? trials model).map fun best => (model, seriesText best (config.trueValues.get? model))

/-- A model has a best trial if one of its trials was a success. -/
theorem isSome_bestTrial?_iff {model : String} :
    (bestTrial? trials model).isSome = true ↔ ∃ t ∈ trials, t.model = model ∧ t.isSuccess = true := by
  have hmem : ∀ t, t ∈ leaderboard (trials.filter fun t => t.model == model) ↔
      t ∈ trials ∧ t.model = model ∧ t.isSuccess = true := by
    intro t
    rw [mem_leaderboard, List.mem_filter, beq_iff_eq, and_assoc]
  rw [bestTrial?, List.isSome_head?]
  simp only [← hmem]
  exact ⟨fun h => List.exists_mem_of_ne_nil _ h, fun ⟨_, h⟩ => List.ne_nil_of_mem h⟩

theorem mem_seriesOf_iff {models : List String} {s : String × String} :
    s ∈ seriesOf trials config models ↔ s.1 ∈ models ∧
      ∃ best, bestTrial? trials s.1 = some best ∧ seriesText best (config.trueValues.get? s.1) = s.2 := by
  obtain ⟨model, text⟩ := s
  simp only [seriesOf, List.mem_filterMap, Option.map_eq_some_iff, Prod.mk.injEq]
  constructor
  · rintro ⟨_, hmodel, best, hbest, rfl, htext⟩
    exact ⟨hmodel, best, hbest, htext⟩
  · rintro ⟨hmodel, best, hbest, htext⟩
    exact ⟨model, hmodel, best, hbest, rfl, htext⟩

theorem map_fst_seriesOf (models : List String) : (seriesOf trials config models).map Prod.fst =
    models.filter fun model => (bestTrial? trials model).isSome := by
  rw [seriesOf, List.map_filterMap, ← List.filterMap_eq_filter]
  refine List.filterMap_congr fun model _ => ?_
  cases h : bestTrial? trials model <;> simp [h, Option.guard]

/-- All series of trials. -/
def allSeries (trials : List (Trial Float)) (config : Config) : List (String × String) :=
  seriesOf trials config (modelsOf trials)

theorem fst_mem_allSeries_iff {model : String} : model ∈ (allSeries trials config).map Prod.fst ↔
    ∃ t ∈ trials, t.model = model ∧ t.isSuccess = true := by
  rw [allSeries, map_fst_seriesOf, List.mem_filter, isSome_bestTrial?_iff, mem_modelsOf]
  exact ⟨And.right, fun h => ⟨h.imp fun _ ht => ⟨ht.1, ht.2.1⟩, h⟩⟩

theorem nodup_fst_allSeries (trials : List (Trial Float)) (config : Config) :
    ((allSeries trials config).map Prod.fst).Nodup := by
  rw [allSeries, map_fst_seriesOf]
  exact (OrderedMap.nodup_keys _).filter _

/-- The names of the files with the series of loaded trials are names of entries. -/
theorem namesEntry_of_mem_allSeries {load : LoadOptions}
    (htrials : (loadResults d results load).value = .ok trials) :
    ∀ s ∈ allSeries trials config, NamesEntry (seriesFileName s.1) :=
  fun _ hs => (isModelName_of_mem_modelsOf htrials (mem_seriesOf_iff.1 hs).1).2

/-! ## Writing them -/

/-- The files of some series. -/
def seriesFiles (series : List (String × String)) : List (String × String) :=
  series.map fun s => (seriesFileName s.1, s.2)

theorem map_fst_seriesFiles (series : List (String × String)) :
    (seriesFiles series).map Prod.fst = series.map fun s => seriesFileName s.1 := by
  rw [seriesFiles, List.map_map]
  rfl

theorem yields_writeSeries_of_none {model : String} (h : bestTrial? trials model = none) (d : Disk) :
    Work.Yields (writeSeries output trials config model) d (.ok ()) d := by
  rw [bestTrial?, List.head?_eq_none_iff] at h
  rw [writeSeries, h]
  exact .of_on (Work.on_note _ d)

theorem yields_writeSeries_of_some {model : String} {best : Trial Float} (h : bestTrial? trials model = some best)
    {result : Except TaskError Unit} (hwrite : Work.Yields (writeFile (output.join (seriesFileName model))
      (seriesText best (config.trueValues.get? model))) d result e) :
    Work.Yields (writeSeries output trials config model) d result e := by
  obtain ⟨rest, h⟩ := List.head?_eq_some_iff.1 h
  rw [writeSeries, h]
  cases result with
  | ok _ => exact .bind_ok hwrite (.of_on (Work.on_note _ e))
  | error failure => exact .bind_error hwrite

/-- Work comes to what the writing of texts comes to: it leaves the same disk, or it fails for the same cause. -/
def ComesTo (w : Work TaskError Unit) (d : Disk) : Except Cause Disk → Prop
  | .ok e => Work.Yields w d (.ok ()) e
  | .error cause => ∃ e, Work.Yields w d (.error (.disk cause)) e

theorem ComesTo.bind {w next : Work TaskError Unit} {made : Disk} {outcome : Except Cause Disk}
    (h : Work.Yields w d (.ok ()) made) (hnext : ComesTo next made outcome) :
    ComesTo (w >>= fun _ => next) d outcome := by
  cases outcome with
  | ok e => exact .bind_ok h hnext
  | error cause =>
    obtain ⟨e, hnext⟩ := hnext
    exact ⟨e, .bind_ok h hnext⟩

/-- **Writing the series of some models** is writing texts one after the other. -/
theorem comesTo_forM_writeSeries (trials : List (Trial Float)) (config : Config) (output : Path)
    (models : List String) (d : Disk) :
    ComesTo (models.forM (writeSeries output trials config)) d
      (d.writeAll output (seriesFiles (seriesOf trials config models))) := by
  induction models generalizing d with
  | nil => exact ⟨rfl, rfl⟩
  | cons model rest ih =>
    cases hbest : bestTrial? trials model with
    | none =>
      have hsame : seriesOf trials config (model :: rest) = seriesOf trials config rest := by simp [seriesOf, hbest]
      rw [hsame]
      exact .bind (yields_writeSeries_of_none hbest d) (ih d)
    | some best =>
      have hcons : seriesFiles (seriesOf trials config (model :: rest)) =
          (seriesFileName model, seriesText best (config.trueValues.get? model)) ::
            seriesFiles (seriesOf trials config rest) := by simp [seriesFiles, seriesOf, hbest]
      rw [hcons, Disk.writeAll]
      cases hwrite : d.writeText (output.join (seriesFileName model))
          (seriesText best (config.trueValues.get? model)) with
      | error cause => exact ⟨d, .bind_error (yields_writeSeries_of_some hbest (yields_writeFile_error hwrite))⟩
      | ok made => exact .bind (yields_writeSeries_of_some hbest (yields_writeFile_ok hwrite)) (ih made)

/-- Only the files of models with a series are written. -/
theorem fills_forM_writeSeries {models : List String} (hnames : ∀ model ∈ models, NamesEntry (seriesFileName model)) :
    Work.Fills output ((seriesFiles (seriesOf trials config models)).map Prod.fst)
      (models.forM (writeSeries output trials config)) := by
  refine .forM fun model hmodel => ?_
  cases hbest : bestTrial? trials model with
  | none =>
    intro d l _
    rw [(yields_writeSeries_of_none hbest d).disk]
    exact .refl d l _
  | some best =>
    have hone := fills_writeSeries output trials config (hnames model hmodel)
    have hseries : (model, seriesText best (config.trueValues.get? model)) ∈ seriesOf trials config models :=
      mem_seriesOf_iff.2 ⟨hmodel, best, hbest, rfl⟩
    exact hone.mono (List.cons_subset.2 ⟨List.mem_map.2 ⟨_, List.mem_map_of_mem hseries, rfl⟩, List.nil_subset _⟩)

/-! ## How the command ends -/

/-- When the configuration and the results could be loaded, the command creates the folder and writes all series. -/
theorem yields_perform_series (execute : Executor) (hconfig : ((loadConfig o.config).on d).result = .ok config)
    (htrials : (loadResults d results ⟨o.trailing, config.marker⟩).value = .ok trials)
    {result : Except TaskError Unit}
    (hrest : Work.Yields ((Work.act fun d => d.createFolders output).mapError TaskError.disk >>= fun _ =>
      (modelsOf trials).forM (writeSeries output trials config)) d result e) :
    Work.Yields ((Task.series results output o).perform execute) d (result.map fun _ => "") e := by
  obtain ⟨loaded, hload⟩ := exists_yields_loadConfig o.config d
  obtain rfl : loaded = .ok config := hload.result.symm.trans hconfig
  have hread := yields_loadTrials results o config d
  rw [htrials] at hread
  have hall : Work.Yields (performSeries results output o) d result e := .bind_ok hload (.bind_ok hread hrest)
  cases result with
  | ok u => exact .bind_ok hall ⟨rfl, rfl⟩
  | error failure => exact .bind_error hall

/-- **How the command ends**: the folder cannot be created, or one of the series cannot be written, or all are. -/
inductive SeriesEnds (d : Disk) (output : Path) (series : List (String × String)) (done : Done TaskError String) :
    Prop
  /-- The folder cannot be created. -/
  | uncreated (cause : Cause) (made : Disk) (hcreate : d.createFolders output = (.error cause, made))
      (hresult : done.result = .error (.disk cause))
  /-- One of the series cannot be written. -/
  | unwritten (cause : Cause) (made : Disk) (hcreate : d.createFolders output = (.ok (), made))
      (hwrite : made.writeAll output (seriesFiles series) = .error cause)
      (hresult : done.result = .error (.disk cause))
  /-- All series are written. -/
  | written (made : Disk) (hcreate : d.createFolders output = (.ok (), made))
      (hwrite : made.writeAll output (seriesFiles series) = .ok done.disk) (hresult : done.result = .ok "")

theorem seriesEnds (hconfig : ((loadConfig o.config).on d).result = .ok config)
    (htrials : (loadResults d results ⟨o.trailing, config.marker⟩).value = .ok trials) (output : Path)
    (execute : Executor) :
    SeriesEnds d output (allSeries trials config) (((Task.series results output o).perform execute).on d) := by
  have hcreated := yields_createFolder output d
  cases hcreate : d.createFolders output with
  | mk created made =>
    rw [hcreate] at hcreated
    cases created with
    | error cause =>
      have hall := yields_perform_series execute hconfig htrials (.bind_error hcreated)
      exact .uncreated cause made hcreate hall.result
    | ok u =>
      have hwrites := comesTo_forM_writeSeries trials config output (modelsOf trials) made
      cases hwrite : made.writeAll output (seriesFiles (allSeries trials config)) with
      | error cause =>
        rw [← allSeries, hwrite] at hwrites
        obtain ⟨e, hwrites⟩ := hwrites
        have hall := yields_perform_series execute hconfig htrials (.bind_ok hcreated hwrites)
        exact .unwritten cause made hcreate hwrite hall.result
      | ok e =>
        rw [← allSeries, hwrite] at hwrites
        have hall := yields_perform_series execute hconfig htrials (.bind_ok hcreated hwrites)
        exact .written made hcreate (hall.disk.symm ▸ hwrite) hall.result

/-- The disk with the folder for the series, which is at `l`, has a place for each of their files. -/
def HasPlaces (d : Disk) (output : Path) (l : Location) (series : List (String × String)) : Prop :=
  (d.createFolders output).1 = .ok () ∧ (d.createFolders output).2.FolderAt output l ∧
    ∀ s ∈ series, (d.createFolders output).2.Receives output l (seriesFileName s.1)

/-- **When the command succeeds**: if the folder can be created and has a place for every file. -/
theorem isOk_of_seriesEnds {series : List (String × String)} {done : Done TaskError String}
    (hnames : ∀ s ∈ series, NamesEntry (seriesFileName s.1)) (h : SeriesEnds d output series done) :
    done.result.isOk = true ↔ ∃ l, HasPlaces d output l series := by
  have hfiles : ∀ q ∈ seriesFiles series, NamesEntry q.1 := List.forall_mem_map.2 hnames
  have hwrites : ∀ {made : Disk} {l : Location}, made.FolderAt output l →
      ((∃ e, made.writeAll output (seriesFiles series) = .ok e) ↔
        ∀ s ∈ series, made.Receives output l (seriesFileName s.1)) := by
    intro made l hat
    rw [Disk.exists_writeAll_iff hat hfiles, seriesFiles, List.forall_mem_map]
  cases h with
  | uncreated cause made hcreate hresult =>
    simp [hresult, HasPlaces, hcreate, Except.isOk, Except.toBool]
  | unwritten cause made hcreate hwrite hresult =>
    refine ⟨fun hok => by simp [hresult, Except.isOk, Except.toBool] at hok, ?_⟩
    rintro ⟨l, -, hat, hplaces⟩
    rw [hcreate] at hat hplaces
    obtain ⟨e, he⟩ := (hwrites hat).2 hplaces
    rw [hwrite] at he
    cases he
  | written made hcreate hwrite hresult =>
    refine ⟨fun _ => ?_, fun _ => by rw [hresult]; rfl⟩
    obtain ⟨l, hat⟩ := Disk.exists_folderAt (congrArg Prod.fst hcreate)
    rw [hcreate] at hat
    have hplaces := (hwrites hat).1 ⟨_, hwrite⟩
    exact ⟨l, by rw [hcreate], by rwa [hcreate], by rwa [hcreate]⟩

/-- **The last series stays** of those with the same file. -/
theorem last_of_seriesEnds {series : List (String × String)} {done : Done TaskError String}
    (hnames : ∀ s ∈ series, NamesEntry (seriesFileName s.1)) (h : SeriesEnds d output series done)
    (hok : done.result.isOk = true) : ∀ s ∈ series, ∃ before last after,
      series = before ++ last :: after ∧ AlikeNames last.1 s.1 ∧ (∀ r ∈ after, ¬ AlikeNames r.1 s.1) ∧
        done.disk.readText (output.join (seriesFileName s.1)) = .ok last.2 := by
  simp only [← seriesFileName_eq_iff]
  cases h with
  | uncreated cause made hcreate hresult => simp [hresult, Except.isOk, Except.toBool] at hok
  | unwritten cause made hcreate hwrite hresult => simp [hresult, Except.isOk, Except.toBool] at hok
  | written made hcreate hwrite hresult =>
    obtain ⟨l, hat⟩ := Disk.exists_folderAt (congrArg Prod.fst hcreate)
    rw [hcreate] at hat
    exact Disk.last_of_writeAll_map hat hnames hwrite

/-! ## What it leaves -/

/-- **What the command leaves** of the series of loaded trials. -/
structure KeepsSeries (d : Disk) (output : Path) (trials : List (Trial Float)) (config : Config)
    (done : Done TaskError String) : Prop where
  /-- A model has a series if one of its trials was a success. -/
  models : ∀ model, (∃ t ∈ trials, t.model = model ∧ t.isSuccess = true) ↔
    model ∈ (allSeries trials config).map Prod.fst
  /-- No model has two series. -/
  once : ((allSeries trials config).map Prod.fst).Nodup
  /-- The command succeeds if the folder can be created and has a place for each file. -/
  isOk_iff : done.result.isOk = true ↔ ∃ l, HasPlaces d output l (allSeries trials config)
  /-- Whatever comes of it, nothing is changed but the files of the models with a series. -/
  files : d.FillsFolder output ((allSeries trials config).map fun s => seriesFileName s.1) done.disk
  /-- If it succeeds, the file of a model holds the series of the last model with a name like that. -/
  last : done.result.isOk = true → ∀ s ∈ allSeries trials config, ∃ before last after,
    allSeries trials config = before ++ last :: after ∧ AlikeNames last.1 s.1 ∧ (∀ r ∈ after, ¬ AlikeNames r.1 s.1) ∧
      done.disk.readText (output.join (seriesFileName s.1)) = .ok last.2
  /-- So it holds the series of the model itself if no other model has a name like that. -/
  own : done.result.isOk = true → ∀ s ∈ allSeries trials config,
    (∀ r ∈ allSeries trials config, AlikeNames r.1 s.1 → r = s) →
      done.disk.readText (output.join (seriesFileName s.1)) = .ok s.2
  /-- There are as many files as series exactly if no two names are alike. -/
  nodup : ((allSeries trials config).map fun s => output.join (seriesFileName s.1)).Nodup ↔
    ∀ r ∈ allSeries trials config, ∀ s ∈ allSeries trials config, AlikeNames r.1 s.1 → r = s

/-- Nothing but the files of the series is changed, even if the command fails. -/
theorem fillsFolder_perform_series (hconfig : ((loadConfig o.config).on d).result = .ok config)
    (htrials : (loadResults d results ⟨o.trailing, config.marker⟩).value = .ok trials) :
    d.FillsFolder output ((allSeries trials config).map fun s => seriesFileName s.1)
      (((Task.series results output o).perform execute).on d).disk := by
  have hmodels : ∀ model ∈ modelsOf trials, NamesEntry (seriesFileName model) :=
    fun _ hmodel => (isModelName_of_mem_modelsOf htrials hmodel).2
  have hfills : Work.Fills output ((allSeries trials config).map fun s => seriesFileName s.1)
      ((modelsOf trials).forM (writeSeries output trials config)) := by
    rw [← map_fst_seriesFiles]
    exact fills_forM_writeSeries hmodels
  obtain ⟨hok, hcreated⟩ := on_createFolder output d
  rw [(yields_perform_series execute hconfig htrials ⟨rfl, rfl⟩).disk]
  exact Work.fillsFolder_of_fills d hok hcreated hfills

/-- **What stays of the series of loaded trials.** -/
theorem keepsSeries (hconfig : ((loadConfig o.config).on d).result = .ok config)
    (htrials : (loadResults d results ⟨o.trailing, config.marker⟩).value = .ok trials) (output : Path)
    (execute : Executor) :
    KeepsSeries d output trials config (((Task.series results output o).perform execute).on d) := by
  have hends := seriesEnds hconfig htrials output execute
  have hnames : ∀ s ∈ allSeries trials config, NamesEntry (seriesFileName s.1) := namesEntry_of_mem_allSeries htrials
  have hlast := last_of_seriesEnds hnames hends
  refine ⟨fun _ => fst_mem_allSeries_iff.symm, nodup_fst_allSeries trials config,
    isOk_of_seriesEnds hnames hends, fillsFolder_perform_series hconfig htrials,
    hlast, fun hok s hs hown => ?_, ?_⟩
  · obtain ⟨before, last, after, hsplit, halike, -, hread⟩ := hlast hok s hs
    have hmem : last ∈ allSeries trials config := hsplit ▸ List.mem_append_right before List.mem_cons_self
    rwa [hown last hmem halike] at hread
  · rw [List.nodup_map_iff_inj_on (List.Nodup.of_map Prod.fst (nodup_fst_allSeries trials config))]
    refine forall₂_congr fun r hr => forall₂_congr fun s hs => ?_
    rw [join_inj (hnames r hr) (hnames s hs), seriesFileName_eq_iff]

end

/-! ## Two models with one file -/

/-- A folder of results with a success of each of two models whose names differ in a point and a dash. -/
def likeResults : Disk where
  home := []
  entries := [
    (["results"], .folder),
    (["results", "iteration0"], .folder),
    (["results", "iteration0", "0"], .file "-m a-b.prism\n0 1000\n0 0.5\n1 0.75\n".toUTF8 false),
    (["results", "iteration0", "1"], .file "-m a.b.prism\n0 2000\n0 0.25\n1 1\n".toUTF8 false)]

/-- The trials in it. -/
def likeTrials : List (Trial Float) := [
  { model := "a-b", axis := none, times := [0, 1000], lower := [0, 0.5], upper := [1, 0.75], states := none,
    missing := none, status := .success, iteration := 0 },
  { model := "a.b", axis := none, times := [0, 2000], lower := [0, 0.25], upper := [1, 1], states := none,
    missing := none, status := .success, iteration := 0 }]

/-- No options are given. -/
def noOptions : TrialOptions := ⟨none, false, false, false, false⟩

theorem loadResults_likeResults :
    (loadResults likeResults ⟨"results"⟩ ⟨.states, Config.default.marker⟩).value = .ok likeTrials := by
  decide +kernel

/-- The command succeeds, and two series were to be written. -/
theorem keepsSeries_likeResults :
    ((loadConfig none).on likeResults).result = .ok Config.default ∧
      (loadResults likeResults ⟨"results"⟩ ⟨.states, Config.default.marker⟩).value = .ok likeTrials ∧
      (((Task.series ⟨"results"⟩ ⟨"series"⟩ noOptions).perform marking).on likeResults).result = .ok "" ∧
      (allSeries likeTrials Config.default).map Prod.fst = ["a-b", "a.b"] ∧
      KeepsSeries likeResults ⟨"series"⟩ likeTrials Config.default
        (((Task.series ⟨"results"⟩ ⟨"series"⟩ noOptions).perform marking).on likeResults) :=
  ⟨rfl, loadResults_likeResults, by decide +kernel, by decide +kernel,
    keepsSeries rfl loadResults_likeResults ⟨"series"⟩ marking⟩

/-- **Not every series stays**: whatever files are looked into, that of the first model is nowhere. -/
theorem not_every_series_stays :
    ¬ ∀ (execute : Executor) (d : Disk) (results output : Path) (o : TrialOptions) (config : Config)
      (trials : List (Trial Float)), ((loadConfig o.config).on d).result = .ok config →
      (loadResults d results ⟨o.trailing, config.marker⟩).value = .ok trials →
      (((Task.series results output o).perform execute).on d).result.isOk = true →
      ∃ file : String → Path, ∀ s ∈ allSeries trials config,
        (((Task.series results output o).perform execute).on d).disk.readText (file s.1) = .ok s.2 := by
  intro h
  obtain ⟨file, hfile⟩ := h marking likeResults ⟨"results"⟩ ⟨"series"⟩ noOptions Config.default likeTrials rfl
    loadResults_likeResults (by decide +kernel)
  have hseries : ("a-b", "minutes,lower,upper,true_value\n0,0,1,\n0.016666666666666666,0.5,0.75,\n") ∈
      allSeries likeTrials Config.default := by decide +kernel
  obtain ⟨q, hq, htext⟩ := Disk.exists_mem_of_readText (hfile _ hseries)
  have hnone : ∀ q ∈ (((Task.series ⟨"results"⟩ ⟨"series"⟩ noOptions).perform marking).on likeResults).disk.entries,
      q.2.text? ≠ some "minutes,lower,upper,true_value\n0,0,1,\n0.016666666666666666,0.5,0.75,\n" := by
    decide +kernel
  exact hnone q hq htext

end CheckerTrials.Task
