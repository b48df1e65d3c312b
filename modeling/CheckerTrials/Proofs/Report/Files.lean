import CheckerTrials.Proofs.Files.Several
import CheckerTrials.Proofs.Report.FileNames
import CheckerTrials.Proofs.Report.Membership
import CheckerTrials.Proofs.Trial.ModelNames

/-!
# What stays of the reports

The reports of all groups are written one after the other, and a report that goes into a file with another report
in it takes its place.  So when all of them are written, the file of a group holds the report of the last group
with that file (`holdsLast_of_writeEntries`).  Grouped by models, every group has a file of its own.  Grouped by
configurations as well, a group keeps its report unless it meets another one, and two groups that meet are left
with one report and with one path that is given twice (`keepsReports_of_loadResults`).
-/

set_option autoImplicit false

namespace CheckerTrials

open CheckerTrials.Path

/-- The path of the file with the report of a group. -/
def reportPath (folder : Path) (k : GroupKey) : Path := folder.join (reportFileName k)

/-- What is written into the reports: the groups, each with its summary or why it has none. -/
abbrev ReportEntries := List (GroupKey × Except SummaryError (Summary Float))

/-- The file of a group holds the report of the last of several groups with the same file. -/
def HoldsLast (folder : Path) (trials : List (Trial Float)) (entries : ReportEntries) (d : Disk)
    (k : GroupKey) : Prop :=
  ∃ before last summary after, entries = before ++ (last, summary) :: after ∧
    reportFileName last = reportFileName k ∧ (∀ p ∈ after, reportFileName p.1 ≠ reportFileName k) ∧
    d.readText (reportPath folder k) = .ok (reportOf trials last summary).text

section

variable {folder : Path} {trials : List (Trial Float)}

/-! ## Writing one report -/

/-- Writing a report is writing a file. -/
theorem on_writeReport (k : GroupKey) (summary : Except SummaryError (Summary Float)) (d : Disk) :
    (writeReport folder trials k summary).on d =
      match d.writeText (reportPath folder k) (reportOf trials k summary).text with
      | .ok e => ⟨.ok (reportPath folder k), e, []⟩
      | .error cause => ⟨.error cause, d, []⟩ := by
  rw [writeReport, Work.on_bind, Work.on_change, ← reportPath]
  cases d.writeText (reportPath folder k) (reportOf trials k summary).text <;> rfl

/-- A report that was written is there. -/
theorem on_writeReport_ok {k : GroupKey} {summary : Except SummaryError (Summary Float)} {d : Disk}
    {path : Path} (h : ((writeReport folder trials k summary).on d).result = .ok path) :
    path = reportPath folder k ∧
      d.writeText (reportPath folder k) (reportOf trials k summary).text =
        .ok ((writeReport folder trials k summary).on d).disk := by
  rw [on_writeReport] at h ⊢
  cases hwrite : d.writeText (reportPath folder k) (reportOf trials k summary).text with
  | error cause =>
    rw [hwrite] at h
    cases h
  | ok e =>
    rw [hwrite] at h
    cases h
    exact ⟨rfl, rfl⟩

theorem fills_writeReport (trials : List (Trial Float)) {k : GroupKey} (hname : NamesEntry (reportFileName k))
    (summary : Except SummaryError (Summary Float)) :
    Work.Fills folder [reportFileName k] (writeReport folder trials k summary) := by
  intro d l hat
  rw [on_writeReport]
  cases hwrite : d.writeText (reportPath folder k) (reportOf trials k summary).text with
  | error cause => exact .refl d l _
  | ok e => exact .of_writeText hat hname hwrite

/-! ## Writing all reports -/

/-- Writes the reports of several groups, one after the other. -/
def writeEntries (folder : Path) (trials : List (Trial Float)) (entries : ReportEntries) :
    Work Cause (List Path) :=
  entries.mapM fun (k, summary) => writeReport folder trials k summary

theorem writeEntries_cons (k : GroupKey) (summary : Except SummaryError (Summary Float))
    (rest : ReportEntries) : writeEntries folder trials ((k, summary) :: rest) =
      writeReport folder trials k summary >>= fun path =>
        writeEntries folder trials rest >>= fun paths => pure (path :: paths) :=
  List.mapM_cons

theorem fills_writeEntries (trials : List (Trial Float)) {entries : ReportEntries}
    (hnames : ∀ p ∈ entries, NamesEntry (reportFileName p.1)) :
    Work.Fills folder (entries.map fun p => reportFileName p.1) (writeEntries folder trials entries) :=
  .mapM fun p hp => (fills_writeReport trials (hnames p hp) p.2).mono <|
    List.cons_subset.2 ⟨List.mem_map_of_mem hp, List.nil_subset _⟩

/-- A path is given for every report. -/
theorem paths_of_writeEntries {entries : ReportEntries} {d : Disk} {paths : List Path}
    (h : ((writeEntries folder trials entries).on d).result = .ok paths) :
    paths = entries.map fun p => reportPath folder p.1 := by
  induction entries generalizing d paths with
  | nil =>
    cases h
    rfl
  | cons q rest ih =>
    obtain ⟨k, summary⟩ := q
    rw [writeEntries_cons] at h
    obtain ⟨path, hfirst, hothers, -⟩ := Work.exists_of_on_bind h
    obtain ⟨more, hmore, hlast, -⟩ := Work.exists_of_on_bind hothers
    cases hlast
    rw [(on_writeReport_ok hfirst).1, ih hmore, List.map_cons]

/-- The files of some reports. -/
def reportFiles (trials : List (Trial Float)) (entries : ReportEntries) : List (String × String) :=
  entries.map fun p => (reportFileName p.1, (reportOf trials p.1 p.2).text)

/-- Writing reports is writing texts one after the other. -/
theorem writeAll_of_writeEntries {entries : ReportEntries} {d : Disk} {paths : List Path}
    (h : ((writeEntries folder trials entries).on d).result = .ok paths) :
    d.writeAll folder (reportFiles trials entries) = .ok ((writeEntries folder trials entries).on d).disk := by
  induction entries generalizing d paths with
  | nil => rfl
  | cons q rest ih =>
    obtain ⟨k, summary⟩ := q
    rw [writeEntries_cons] at h ⊢
    obtain ⟨path, hfirst, hothers, hdisk⟩ := Work.exists_of_on_bind h
    obtain ⟨more, hmore, -, hdisk'⟩ := Work.exists_of_on_bind hothers
    obtain ⟨-, hwrite⟩ := on_writeReport_ok hfirst
    rw [hdisk, hdisk', Work.on_pure]
    exact Disk.writeAll_cons_eq_ok_iff.2 ⟨_, hwrite, ih hmore⟩

/-- **The last report stays.**  After all reports have been written, the file of a group holds that of the last
group with the same file. -/
theorem holdsLast_of_writeEntries {entries : ReportEntries}
    (hnames : ∀ p ∈ entries, NamesEntry (reportFileName p.1)) {d : Disk} {l : Location}
    (hat : d.FolderAt folder l) {paths : List Path}
    (h : ((writeEntries folder trials entries).on d).result = .ok paths) :
    ∀ p ∈ entries, HoldsLast folder trials entries ((writeEntries folder trials entries).on d).disk p.1 := by
  intro p hp
  obtain ⟨before, ⟨last, summary⟩, after, hsplit, hsame, hafter, hread⟩ :=
    Disk.last_of_writeAll_map hat hnames (writeAll_of_writeEntries h) p hp
  exact ⟨before, last, summary, after, hsplit, hsame, hafter, hread⟩

end

/-! ## The folder of reports -/

/-- Creating the folder comes first, and a note is made last. -/
theorem exists_of_writeReports {folder : Path} {trials : List (Trial Float)} {groups : Groups Float} {d : Disk}
    {paths : List Path} (h : ((writeReports folder trials groups).on d).result = .ok paths) :
    (d.createFolders folder).1 = .ok () ∧
      ((writeEntries folder trials groups.entries).on (d.createFolders folder).2).result = .ok paths ∧
      ((writeReports folder trials groups).on d).disk =
        ((writeEntries folder trials groups.entries).on (d.createFolders folder).2).disk := by
  rw [writeReports] at h ⊢
  obtain ⟨⟨⟩, hcreated, hrest, hdisk⟩ := Work.exists_of_on_bind h
  rw [Work.on_act] at hcreated hrest hdisk
  obtain ⟨written, hwritten, hend, hdisk'⟩ := Work.exists_of_on_bind hrest
  obtain ⟨_, hnote, hlast, hdisk''⟩ := Work.exists_of_on_bind hend
  cases hlast
  refine ⟨hcreated, hwritten, ?_⟩
  rw [hdisk, hdisk', hdisk'', Work.on_note]
  rfl

/-- A path is given for every group, in the order of the groups. -/
theorem paths_of_writeReports {folder : Path} {trials : List (Trial Float)} {groups : Groups Float} {d : Disk}
    {paths : List Path} (h : ((writeReports folder trials groups).on d).result = .ok paths) :
    paths = groups.keys.map (reportPath folder) := by
  rw [paths_of_writeEntries (exists_of_writeReports h).2.1, OrderedMap.keys, List.map_map]
  rfl

/-- **What stays of the reports** that were written for the groups of trials. -/
structure KeepsReports (folder : Path) (trials : List (Trial Float)) (options : SummaryOptions Float)
    (paths : List Path) (d : Disk) : Prop where
  /-- A path is given for every group, in the order of the groups. -/
  paths_eq : paths = (aggregate trials options).keys.map (reportPath folder)
  /-- The file of a group holds the report of the last group that is the same or meets it. -/
  last : ∀ k ∈ (aggregate trials options).keys, ∃ before last summary after,
    (aggregate trials options).entries = before ++ (last, summary) :: after ∧ (last = k ∨ last.Meet k) ∧
    (∀ p ∈ after, p.1 ≠ k ∧ ¬ p.1.Meet k) ∧
    d.readText (reportPath folder k) = .ok (reportOf trials last summary).text
  /-- A group that meets no other one keeps its own report. -/
  own : ∀ p ∈ (aggregate trials options).entries,
    (∀ other ∈ (aggregate trials options).keys, ¬ other.Meet p.1) →
      d.readText (reportPath folder p.1) = .ok (reportOf trials p.1 p.2).text
  /-- No path is given twice exactly if no two groups meet. -/
  nodup : paths.Nodup ↔
    ∀ k ∈ (aggregate trials options).keys, ∀ other ∈ (aggregate trials options).keys, ¬ k.Meet other
  /-- Grouped by models, no two groups meet. -/
  apart : options.grouping = .model →
    ∀ k ∈ (aggregate trials options).keys, ∀ other ∈ (aggregate trials options).keys, ¬ k.Meet other

/-- Paths of groups are different if no two groups meet. -/
theorem nodup_reportPaths_iff {folder : Path} {keys : List GroupKey} (hnodup : keys.Nodup)
    (hnames : ∀ k ∈ keys, NamesEntry (reportFileName k)) :
    (keys.map (reportPath folder)).Nodup ↔ ∀ k ∈ keys, ∀ other ∈ keys, ¬ k.Meet other := by
  rw [List.nodup_map_iff_inj_on hnodup]
  refine forall₂_congr fun k hk => forall₂_congr fun other hother => ?_
  rw [reportPath, reportPath, join_inj (hnames k hk) (hnames other hother), reportFileName_eq_iff]
  exact ⟨fun h hmeet => hmeet.ne (h (.inr hmeet)), fun h hor => hor.resolve_right h⟩

/-- The groups of trials whose models have names of models have files of their own in a folder. -/
theorem namesEntry_of_mem_keys {trials : List (Trial Float)} (hmodels : ∀ t ∈ trials, IsModelName t.model)
    (options : SummaryOptions Float) {k : GroupKey} (hk : k ∈ (aggregate trials options).keys) :
    NamesEntry (reportFileName k) := by
  obtain ⟨t, ht, rfl⟩ := mem_keys_aggregate.1 hk
  exact namesEntry_reportFileName (hmodels t ht).slash

theorem not_meet_of_model {trials : List (Trial Float)} {options : SummaryOptions Float}
    (hgrouping : options.grouping = .model) {k other : GroupKey} (hk : k ∈ (aggregate trials options).keys)
    (hother : other ∈ (aggregate trials options).keys) : ¬ k.Meet other := by
  obtain ⟨t, -, rfl⟩ := mem_keys_aggregate.1 hk
  obtain ⟨u, -, rfl⟩ := mem_keys_aggregate.1 hother
  rw [hgrouping]
  exact GroupKey.not_meet_of_axis rfl rfl

/-- **What stays of the reports of loaded trials.**  Every group has a path, and the file there holds the report of
the last group with that file: its own one if it meets no other group, which is so for every group if trials are
grouped by models. -/
theorem keepsReports_of_loadResults {d : Disk} {root : Path} {load : LoadOptions} {trials : List (Trial Float)}
    (hload : (loadResults d root load).value = .ok trials) (options : SummaryOptions Float) {folder : Path}
    {e : Disk} {paths : List Path}
    (hwrite : ((writeReports folder trials (aggregate trials options)).on e).result = .ok paths) :
    KeepsReports folder trials options paths
      ((writeReports folder trials (aggregate trials options)).on e).disk := by
  have hmodels : ∀ t ∈ trials, IsModelName t.model := fun t ht => isModelName_of_loadResults hload ht
  have hkeys : ∀ k ∈ (aggregate trials options).keys, NamesEntry (reportFileName k) :=
    fun k hk => namesEntry_of_mem_keys hmodels options hk
  have hnames : ∀ p ∈ (aggregate trials options).entries, NamesEntry (reportFileName p.1) :=
    fun p hp => hkeys p.1 (List.mem_map_of_mem hp)
  obtain ⟨hcreated, hwritten, hdisk⟩ := exists_of_writeReports hwrite
  obtain ⟨l, hat⟩ := Disk.exists_folderAt hcreated
  have hholds := holdsLast_of_writeEntries hnames hat hwritten
  rw [← hdisk] at hholds
  have hpaths := paths_of_writeReports hwrite
  refine ⟨hpaths, fun k hk => ?_, fun p hp hmeet => ?_, ?_, fun hgrouping k hk other hother =>
    not_meet_of_model hgrouping hk hother⟩
  · obtain ⟨p, hp, rfl⟩ := List.mem_map.1 hk
    obtain ⟨before, last, summary, after, hsplit, hsame, hafter, hread⟩ := hholds p hp
    refine ⟨before, last, summary, after, hsplit, reportFileName_eq_iff.1 hsame, fun q hq => ?_, hread⟩
    have hne := hafter q hq
    rw [Ne, reportFileName_eq_iff, not_or] at hne
    exact hne
  · obtain ⟨before, last, summary, after, hsplit, hsame, -, hread⟩ := hholds p hp
    have hmem : (last, summary) ∈ (aggregate trials options).entries := by
      rw [hsplit]
      exact List.mem_append_right before List.mem_cons_self
    obtain rfl : last = p.1 :=
      (reportFileName_eq_iff.1 hsame).resolve_right (hmeet last (List.mem_map_of_mem hmem))
    have hvalue := (OrderedMap.get?_eq_some_iff.2 hmem).symm.trans (OrderedMap.get?_eq_some_iff.2 hp)
    obtain rfl : summary = p.2 := Option.some.inj hvalue
    exact hread
  · rw [hpaths]
    exact nodup_reportPaths_iff (OrderedMap.nodup_keys _) hkeys

/-! ## Two groups that meet -/

/-- A folder of results with two runs of which only the command lines are left.  The model of the one goes on with
the configuration of the other. -/
def meetingResults : Disk where
  home := []
  entries := [
    (["results"], .folder),
    (["results", "iteration0"], .folder),
    (["results", "iteration0", "0.setup"],
      .file "run -m toy.prism --informationLevel BLACKBOX".toUTF8 false),
    (["results", "iteration0", "1.setup"], .file "run -m toy_BLACKBOX.prism".toUTF8 false)]

/-- The trials in it. -/
def meetingTrials : List (Trial Float) := [
  .failed "toy" (some "BLACKBOX") .generic 0,
  .failed "toy_BLACKBOX" none .generic 0]

theorem loadResults_meetingResults :
    (loadResults meetingResults ⟨"results"⟩ ⟨.states, "oom"⟩).value = .ok meetingTrials := by
  decide +kernel

/-- Both reports go to the same path. -/
theorem keepsReports_of_meetingTrials :
    (loadResults meetingResults ⟨"results"⟩ ⟨.states, "oom"⟩).value = .ok meetingTrials ∧
      KeepsReports ⟨"reports"⟩ meetingTrials byConfiguration
        [⟨"reports/toy_BLACKBOX.txt"⟩, ⟨"reports/toy_BLACKBOX.txt"⟩]
        ((writeReports ⟨"reports"⟩ meetingTrials (aggregate meetingTrials byConfiguration)).on
          meetingResults).disk := by
  have hwrite : ((writeReports ⟨"reports"⟩ meetingTrials (aggregate meetingTrials byConfiguration)).on
      meetingResults).result = .ok [⟨"reports/toy_BLACKBOX.txt"⟩, ⟨"reports/toy_BLACKBOX.txt"⟩] := by
    decide +kernel
  exact ⟨loadResults_meetingResults,
    keepsReports_of_loadResults loadResults_meetingResults byConfiguration hwrite⟩

/-- Not every group has a file of its own. -/
theorem not_reportFileName_injective :
    ¬ ∀ (d : Disk) (root : Path) (load : LoadOptions) (trials : List (Trial Float)),
      (loadResults d root load).value = .ok trials → ∀ (options : SummaryOptions Float),
        ∀ k ∈ (aggregate trials options).keys, ∀ other ∈ (aggregate trials options).keys,
          reportFileName k = reportFileName other → k = other := by
  intro h
  have hfirst : (⟨"toy", some "BLACKBOX"⟩ : GroupKey) ∈ (aggregate meetingTrials byConfiguration).keys :=
    mem_keys_aggregate.2 ⟨meetingTrials[0], List.getElem_mem _, rfl⟩
  have hsecond : (⟨"toy_BLACKBOX", none⟩ : GroupKey) ∈ (aggregate meetingTrials byConfiguration).keys :=
    mem_keys_aggregate.2 ⟨meetingTrials[1], List.getElem_mem _, rfl⟩
  have hequal := h _ _ _ _ loadResults_meetingResults byConfiguration _ hfirst _ hsecond (by decide)
  exact absurd hequal (by decide)

end CheckerTrials
