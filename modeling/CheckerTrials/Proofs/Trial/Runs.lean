import CheckerTrials.Proofs.Files.Differing
import CheckerTrials.Proofs.Plan.Places
import CheckerTrials.Proofs.Trial.Reading
import Mathlib.Data.List.Sort

/-!
# The runs of an iteration by their numbers

The runs of an iteration have numbers, and what is read of a run depends on three files that are named by its
number.  `numberedRuns` is what is read of all runs, each with its number; the program forgets the numbers in the end
(`value_loadIteration_eq`).

* `mem_numberedRuns_iff`: every number for which there is something to read is in the list, and no other one.
* `loadRun_congr`, `numberedRuns_eq`: what is read depends on nothing but the files of the runs.
* `readsResults`: a file whose name is the number of a run, as it is written, and that holds a result is read as the
  one trial of that number.  The name of a run is made from its number, so that a file whose name is the number with
  zeros in front is never opened: `not_reads_zeros`.
-/

set_option autoImplicit false

namespace CheckerTrials

open Disk CheckerTrials.Path

variable {d e : Disk} {base folder root : Path} {name : String} {iteration n : Nat} {options : LoadOptions}
  {t : Trial Float} {runs : List (Nat × Trial Float)}

/-! ## What is read of a run -/

/-- The suffixes of the files that are looked at to read a run. -/
def readSuffixes : List String := ["", setupSuffix, logSuffix]

theorem readSuffixes_subset {suffix : String} (h : suffix ∈ readSuffixes) : suffix ∈ Run.suffixes := by
  have hall : ∀ s ∈ readSuffixes, s ∈ Run.suffixes := by decide
  exact hall suffix h

theorem recordedInvocation?_congr (hresult : SameFile base d e)
    (hsetup : SameFile (base.withSuffix setupSuffix) d e) :
    recordedInvocation? e base = recordedInvocation? d base := by
  have htext : ∀ p, SameFile p d e → (e.readText p).toOption = (d.readText p).toOption := by
    intro p hp
    obtain ⟨text, he, hd⟩ | ⟨_, _, he, hd⟩ := ok_or_error_of_ok_iff fun _ => hp.readText_eq_ok_iff
    · rw [he, hd]
    · rw [he, hd]
      rfl
  rw [recordedInvocation?, recordedInvocation?, invocationLines, invocationLines, htext _ hsetup, htext _ hresult]

theorem classify_congr {a : Artifact} {marker : String} (hresult : SameFile a.result d e)
    (hlog : SameFile a.log d e) : classify e a marker = classify d a marker := by
  have hfile : e.isFile a.result = d.isFile a.result := Bool.eq_iff_iff.2 hresult.isFile_iff
  rw [classify, classify, hfile]
  obtain ⟨log, he, hd⟩ | ⟨_, _, he, hd⟩ := ok_or_error_of_ok_iff fun _ => hlog.readBytes_eq_ok_iff
  · rw [he, hd]
  · rw [he, hd]

/-- **What is read of a run** depends on three files. -/
theorem loadRun_congr (h : ∀ suffix ∈ readSuffixes, SameFile (base.withSuffix suffix) d e) (iteration : Nat)
    (options : LoadOptions) : loadRun e base iteration options = loadRun d base iteration options := by
  have hbase : base.withSuffix "" = base := by rw [withSuffix, String.append_empty]
  have hresult : SameFile base d e := hbase ▸ h "" (by decide)
  have hrecorded := recordedInvocation?_congr hresult (h setupSuffix (by decide))
  have hclassify : classify e (.text base) options.marker = classify d (.text base) options.marker :=
    classify_congr hresult (h logSuffix (by decide))
  rw [loadRun, loadRun, hclassify]
  cases hd : classify d (.text base) options.marker with
  | some failure => simp only [failedTrial, hrecorded]
  | none =>
    have hfile : e.isFile base = true := (classify_eq_none_iff (a := .text base)).1 (hclassify.trans hd)
    simp only [failedTrial, hrecorded, NoNewFile.read_eq hresult.noNewFile hfile]

/-! ## The files in a folder -/

/-- A run is read the same if the files of its folder that differ have other names than its own. -/
theorem loadRun_eq_of_differsAt {own : Location → Prop} (h : DiffersAt own d e)
    (hown : ∀ suffix ∈ readSuffixes, ∀ l, d.locate (folder.join (n.repr ++ suffix)) = .ok l → ¬ own l)
    (iteration : Nat) (options : LoadOptions) :
    loadRun e (folder.join n.repr) iteration options = loadRun d (folder.join n.repr) iteration options := by
  refine loadRun_congr (fun suffix hsuffix => h.sameFile fun l hl => hown suffix hsuffix l ?_) iteration options
  rwa [← withSuffix_join folder (isStep_repr n)]

/-- What is listed has the number of a run if a file of the run is there. -/
theorem mem_runNumbers (hd : d.WellFormed) {numbers : List Nat} (hnumbers : runNumbers d folder = .ok numbers)
    (hn : n ≤ Decimal.wordLimit) (h : (loadRun d (folder.join n.repr) iteration options).value = some t) :
    n ∈ numbers := by
  obtain ⟨es, hlist, rfl⟩ := map_eq_ok_iff.1 hnumbers
  obtain ⟨l, hl, hfolder, rfl⟩ := list_eq_ok_iff.1 hlist
  have hfile : ∃ suffix ∈ ["", setupSuffix], ∃ content executable,
      d.find ((folder.join n.repr).withSuffix suffix) = .ok (.file content executable) := by
    by_contra hnone
    push Not at hnone
    rw [CheckerTrials.loadRun_eq_none iteration options hnone] at h
    cases h
  obtain ⟨suffix, hsuffix, content, executable, hfind⟩ := hfile
  have hslash : '/' ∉ suffix.toList := by
    have hall : ∀ s ∈ ["", setupSuffix], s ∈ Run.suffixes := by decide
    exact (suffix_spec (hall suffix hsuffix)).1
  obtain ⟨-, m, hm, hget⟩ := find_eq_file_iff.1 hfind
  rw [withSuffix_join folder (isStep_repr n)] at hm
  obtain rfl := eq_of_locate_join hl hfolder (isStep_repr_append n hslash) (repr_append_ne_points n suffix) hm
  rw [mem_distinctNumbers, List.mem_filterMap]
  refine ⟨(n.repr ++ suffix, _), hd.mem_children.2 hget, ?_⟩
  rcases List.mem_cons.1 hsuffix with rfl | hsetup
  · rw [String.append_empty]
    exact runNumber?_repr hn
  · rw [List.mem_singleton.1 hsetup]
    exact runNumber?_setup hn

/-! ## All runs of an iteration -/

/-- What is read of the runs of an iteration, with their numbers. -/
def numberedRuns (d : Disk) (folder : Path) (iteration : Nat) (options : LoadOptions) :
    Except Cause (List (Nat × Trial Float)) :=
  (runNumbers d folder).map fun numbers => numbers.filterMap fun n =>
    (loadRun d (folder.join n.repr) iteration options).value.map fun t => (n, t)

/-- An iteration is read as its runs without their numbers. -/
theorem value_loadIteration_eq (d : Disk) (folder : Path) (iteration : Nat) (options : LoadOptions) :
    (loadIteration d folder iteration options).value =
      (numberedRuns d folder iteration options).map (List.map Prod.snd) := by
  rw [loadIteration, numberedRuns]
  cases runNumbers d folder with
  | error cause => rfl
  | ok numbers =>
    rw [Noted.value_bind, Noted.value_pure, Noted.value_all, List.map_map, List.filterMap_map]
    refine congrArg Except.ok ?_
    rw [List.map_filterMap]
    refine List.filterMap_congr fun n _ => ?_
    cases h : (loadRun d (folder.join n.repr) iteration options).value <;> simp [h]

/-- It does not matter what else the runs are labelled with. -/
theorem value_loadIteration_eq_labelled {β : Type} (label : Nat × Trial Float → β) (trial : β → Trial Float)
    (h : ∀ r, trial (label r) = r.2) (d : Disk) (folder : Path) (iteration : Nat) (options : LoadOptions) :
    (loadIteration d folder iteration options).value =
      ((numberedRuns d folder iteration options).map (List.map label)).map (List.map trial) := by
  rw [value_loadIteration_eq]
  cases numberedRuns d folder iteration options with
  | error cause => rfl
  | ok runs =>
    show Except.ok (runs.map Prod.snd) = .ok ((runs.map label).map trial)
    rw [List.map_map]
    exact congrArg Except.ok (List.map_congr_left fun r _ => (h r).symm)

/-- The results of a folder are the runs of its iterations, one iteration after the other. -/
theorem value_loadResults_eq_labelled {β ι : Type} {places : List ι} {place : ι → Nat × Path}
    (runsAt : ι → Except Cause (List β)) (trial : β → Trial Float)
    (hfolders : iterationFolders d root = .ok (places.map place))
    (hruns : ∀ q, (loadIteration d (place q).2 (place q).1 options).value = (runsAt q).map (List.map trial)) :
    (loadResults d root options).value = (places.mapM runsAt).map fun runs => runs.flatten.map trial := by
  have hload : ((places.map place).mapM fun q => (loadIteration d q.2 q.1 options).value) =
      (places.mapM runsAt).map (List.map (List.map trial)) := by
    rw [List.mapM_map, ← mapM_then_map]
    exact mapM_congr_of_mem fun q _ => hruns q
  rw [loadResults, hfolders, Noted.value_bind, Noted.value_forEach_eq]
  refine (congrArg (Except.map List.flatten) hload).trans ?_
  cases places.mapM runsAt with
  | error cause => rfl
  | ok runs => exact congrArg Except.ok List.map_flatten.symm

/-- The runs are in the order of their numbers, and each number comes once. -/
theorem pairwise_numberedRuns (h : numberedRuns d folder iteration options = .ok runs) :
    runs.Pairwise fun p q => p.1 < q.1 := by
  obtain ⟨numbers, hnumbers, rfl⟩ := map_eq_ok_iff.1 h
  obtain ⟨es, -, rfl⟩ := map_eq_ok_iff.1 hnumbers
  rw [List.pairwise_filterMap]
  refine (pairwise_distinctNumbers _).imp fun {m n} hlt p hp q hq => ?_
  obtain ⟨_, -, rfl⟩ := Option.map_eq_some_iff.1 hp
  obtain ⟨_, -, rfl⟩ := Option.map_eq_some_iff.1 hq
  exact hlt

/-- **No run is lost and none is invented.** -/
theorem mem_numberedRuns_iff (hd : d.WellFormed) (h : numberedRuns d folder iteration options = .ok runs) :
    (n, t) ∈ runs ↔ n ≤ Decimal.wordLimit ∧
      (loadRun d (folder.join n.repr) iteration options).value = some t := by
  obtain ⟨numbers, hnumbers, rfl⟩ := map_eq_ok_iff.1 h
  rw [List.mem_filterMap]
  constructor
  · rintro ⟨m, hm, hmap⟩
    obtain ⟨u, hu, heq⟩ := Option.map_eq_some_iff.1 hmap
    obtain ⟨rfl, rfl⟩ := Prod.mk.inj heq
    obtain ⟨es, -, rfl⟩ := map_eq_ok_iff.1 hnumbers
    obtain ⟨entry, -, hnumber⟩ := List.mem_filterMap.1 (mem_distinctNumbers.1 hm)
    obtain ⟨_, -, hdigits⟩ := Option.bind_eq_some_iff.1 hnumber
    exact ⟨Decimal.le_wordLimit_of_natural? hdigits, hu⟩
  · rintro ⟨hn, ht⟩
    exact ⟨n, mem_runNumbers hd hnumbers hn ht, by rw [ht]; rfl⟩

theorem isOk_numberedRuns_iff (iteration : Nat) (options : LoadOptions) :
    (∃ runs, numberedRuns d folder iteration options = .ok runs) ↔ d.isFolder folder = true := by
  rw [numberedRuns, exists_map_eq_ok_iff, runNumbers, exists_map_eq_ok_iff, exists_list_iff]

/-- Lists in the order of their numbers are the same if they have the same members. -/
theorem eq_of_mem_iff_of_increasing {β : Type} {ps qs : List (Nat × β)} (hps : ps.Pairwise fun p q => p.1 < q.1)
    (hqs : qs.Pairwise fun p q => p.1 < q.1) (h : ∀ n b, (n, b) ∈ ps ↔ (n, b) ∈ qs) : ps = qs := by
  let below (p q : Nat × β) : Prop := p.1 < q.1
  have hirrefl : Std.Irrefl below := ⟨fun p hp => absurd hp (Nat.lt_irrefl _)⟩
  have hantisymm : Std.Antisymm below := ⟨fun p q hpq hqp => absurd hpq (Nat.lt_asymm hqp)⟩
  exact hps.eq_of_mem_iff hqs fun (n, b) => h n b

/-- **What is read of an iteration** is known when it is known what is read of each run. -/
theorem numberedRuns_eq (hd : d.WellFormed) (he : e.WellFormed) (hfolder : e.isFolder folder = d.isFolder folder)
    (hsame : ∀ n : Nat, (loadRun e (folder.join n.repr) iteration options).value =
      (loadRun d (folder.join n.repr) iteration options).value)
    (h : numberedRuns d folder iteration options = .ok runs) :
    numberedRuns e folder iteration options = .ok runs := by
  obtain ⟨runs', h'⟩ : ∃ runs', numberedRuns e folder iteration options = .ok runs' := by
    rw [isOk_numberedRuns_iff, hfolder, ← isOk_numberedRuns_iff iteration options]
    exact ⟨runs, h⟩
  have hruns : runs' = runs := by
    refine eq_of_mem_iff_of_increasing (pairwise_numberedRuns h') (pairwise_numberedRuns h) fun n t => ?_
    rw [mem_numberedRuns_iff he h', mem_numberedRuns_iff hd h, hsame]
  rw [h', hruns]

/-- What is read under a number is what is read of the run. -/
theorem filter_numberedRuns (hd : d.WellFormed) (h : numberedRuns d folder iteration options = .ok runs)
    (hn : n ≤ Decimal.wordLimit) :
    runs.filter (fun r => r.1 = n) =
      ((loadRun d (folder.join n.repr) iteration options).value.map fun t => (n, t)).toList := by
  refine eq_of_mem_iff_of_increasing ((pairwise_numberedRuns h).filter _) ?_ fun m t => ?_
  · cases (loadRun d (folder.join n.repr) iteration options).value with
    | none => exact .nil
    | some t => exact List.pairwise_singleton _ _
  · rw [List.mem_filter, mem_numberedRuns_iff hd h, Option.mem_toList, Option.map_eq_some_iff]
    simp only [decide_eq_true_eq]
    constructor
    · rintro ⟨⟨-, ht⟩, rfl⟩
      exact ⟨t, ht, rfl⟩
    · rintro ⟨u, hu, heq⟩
      cases heq
      exact ⟨⟨hn, hu⟩, rfl⟩

/-! ## Names of digits -/

/-- A file in a folder holds a result, and its name consists of digits, which have the value of a number that a run
can have. -/
structure HoldsResult (d : Disk) (folder : Path) (iteration : Nat) (options : LoadOptions) (name : String)
    (t : Trial Float) : Prop where
  /-- There is a digit. -/
  ne_empty : name ≠ ""
  /-- There is nothing else. -/
  digits : ∀ c ∈ name.toList, Decimal.isDigit c = true
  /-- The value is a number of runs. -/
  value_le : Decimal.valueOf name.toList ≤ Decimal.wordLimit
  /-- The text is that of a result. -/
  result : ∃ text, d.readText (folder.join name) = .ok text ∧
    (TextResult.parse text options.trailing iteration).value = .ok t

/-- What is read from a folder with results: these runs, by their numbers. -/
structure ReadsResults (d : Disk) (folder : Path) (iteration : Nat) (options : LoadOptions)
    (runs : List (Nat × Trial Float)) : Prop where
  /-- They are what is read. -/
  value : (loadIteration d folder iteration options).value = .ok (runs.map Prod.snd)
  /-- They are in the order of their numbers, and each number comes once. -/
  increasing : runs.Pairwise fun p q => p.1 < q.1
  /-- A result whose name is its number as it is written is the one run of that number. -/
  written : ∀ name t, HoldsResult d folder iteration options name t →
    name = (Decimal.valueOf name.toList).repr → t.status = .success ∧ t.iteration = iteration ∧
      runs.filter (fun r => r.1 = Decimal.valueOf name.toList) = [(Decimal.valueOf name.toList, t)]
  /-- Every success is such a result. -/
  success : ∀ n t, (n, t) ∈ runs → t.status = .success → HoldsResult d folder iteration options n.repr t
  /-- A result with any other name is not read: without the file, or with another one in its place, the same is
  read. -/
  unread : ∀ name t, HoldsResult d folder iteration options name t →
    name ≠ (Decimal.valueOf name.toList).repr →
      ∀ e, e.WellFormed → DiffersAt (fun l => d.locate (folder.join name) = .ok l) d e →
        (loadIteration e folder iteration options).value = (loadIteration d folder iteration options).value

/-- A result is read as the run of a number if the name is the number. -/
theorem loadRun_eq_success_iff_result (hstatus : t.status = .success) :
    (loadRun d base iteration options).value = some t ↔
      ∃ text, d.readText base = .ok text ∧ (TextResult.parse text options.trailing iteration).value = .ok t := by
  rw [loadRun_eq_success_iff hstatus, value_read_eq_ok_iff]
  refine and_iff_right_of_imp fun ⟨text, htext, _⟩ => isFile_of_readText htext

/-- A name of digits is the name of a file of a run only if it is the number of the run. -/
theorem eq_repr_of_digits {suffix : String} (hdigits : ∀ c ∈ name.toList, Decimal.isDigit c = true)
    (hsuffix : suffix ∈ readSuffixes) (h : n.repr ++ suffix = name) :
    name = (Decimal.valueOf name.toList).repr := by
  subst h
  have hcases : suffix = "" ∨ '.' ∈ suffix.toList := by
    have hall : ∀ s ∈ readSuffixes, s = "" ∨ '.' ∈ s.toList := by decide
    exact hall suffix hsuffix
  rcases hcases with rfl | hpoint
  · rw [String.append_empty, Decimal.valueOf_repr]
  · have hdigit := hdigits '.' (by
      rw [String.toList_append]
      exact List.mem_append_right _ hpoint)
    exact absurd hdigit (by decide)

/-- **Which results are read.**  A result under the number of a run is read as that run, and as nothing else; results
whose names are numbers with zeros in front are not opened at all. -/
theorem readsResults (hd : d.WellFormed) (hfolder : d.isFolder folder = true) (iteration : Nat)
    (options : LoadOptions) : ∃ runs, ReadsResults d folder iteration options runs := by
  obtain ⟨runs, h⟩ := (isOk_numberedRuns_iff iteration options).2 hfolder
  have htext := ne_empty_of_isFolder hfolder
  have hvalue : (loadIteration d folder iteration options).value = .ok (runs.map Prod.snd) := by
    rw [value_loadIteration_eq, h]
    rfl
  refine ⟨runs, hvalue, pairwise_numberedRuns h, ?_, ?_, ?_⟩
  · intro name t hresult hname
    obtain ⟨text, htext, hparse⟩ := hresult.result
    obtain ⟨hstatus, hiteration⟩ := success_of_parse hparse
    have hread : (loadRun d (folder.join (Decimal.valueOf name.toList).repr) iteration options).value = some t := by
      rw [← hname, loadRun_eq_success_iff_result hstatus]
      exact ⟨text, htext, hparse⟩
    refine ⟨hstatus, hiteration, ?_⟩
    rw [filter_numberedRuns hd h hresult.value_le, hread]
    rfl
  · intro n t hmem hstatus
    obtain ⟨hn, hread⟩ := (mem_numberedRuns_iff hd h).1 hmem
    refine ⟨fun hempty => ?_, fun _ => Decimal.isDigit_of_mem_repr, ?_, (loadRun_eq_success_iff_result hstatus).1 hread⟩
    · exact Decimal.repr_toList_ne_nil n (by rw [hempty]; rfl)
    · rwa [Decimal.valueOf_repr]
  · intro name t hresult hname e he hdiffers
    have hstep : IsStep name.toList := by
      refine ⟨fun hnil => hresult.ne_empty (String.toList_eq_nil_iff.1 hnil), fun hslash => ?_⟩
      exact absurd (hresult.digits _ hslash) (by decide)
    have hpoints : name ≠ "." ∧ name ≠ ".." := by
      refine ne_points fun hhead => ?_
      exact absurd (hresult.digits _ (List.mem_of_mem_head? hhead)) (by decide)
    have hsame : ∀ n : Nat, (loadRun e (folder.join n.repr) iteration options).value =
        (loadRun d (folder.join n.repr) iteration options).value := by
      intro n
      rw [loadRun_eq_of_differsAt hdiffers]
      intro suffix hsuffix l hl
      have hother := isStep_repr_append n (suffix_spec (readSuffixes_subset hsuffix)).1
      refine locate_join_ne htext hstep hpoints hother (repr_append_ne_points n suffix) (fun heq => ?_) hl
      exact hname (eq_repr_of_digits hresult.digits hsuffix heq)
    rw [value_loadIteration_eq, value_loadIteration_eq, h,
      numberedRuns_eq hd he (hdiffers.isFolder_eq folder) hsame h]

/-- The result of a run that ends with the given lower bound. -/
def resultText (lower : String) : String := "run -m toy.prism\n0 1000\n0 " ++ lower ++ "\n1 0.75\n"

/-- The trial of that result. -/
def resultTrial (lower : Float) : Trial Float :=
  { Trial.failed "toy" none .generic 0 with
    times := [0, 1000], lower := [0, lower], upper := [1, 0.75], status := .success }

/-- A folder with two results; the name of one of them has zeros in front. -/
def zerosDisk : Disk where
  home := []
  entries := [(["out"], .folder), (["out", "007"], .file (resultText "0.5").toUTF8 false),
    (["out", "8"], .file (resultText "0.25").toUTF8 false)]

theorem holdsResult_zerosDisk :
    HoldsResult zerosDisk ⟨"out"⟩ 0 ⟨.states, "oom"⟩ "8" (resultTrial 0.25) ∧
      HoldsResult zerosDisk ⟨"out"⟩ 0 ⟨.states, "oom"⟩ "007" (resultTrial 0.5) :=
  ⟨⟨by decide, List.all_eq_true.1 (by decide), by decide, resultText "0.25", by decide +kernel, by decide +kernel⟩,
    ⟨by decide, List.all_eq_true.1 (by decide), by decide, resultText "0.5", by decide +kernel, by decide +kernel⟩⟩

theorem readsResults_zerosDisk :
    zerosDisk.WellFormed ∧ zerosDisk.isFolder ⟨"out"⟩ = true ∧
      ∃ runs, ReadsResults zerosDisk ⟨"out"⟩ 0 ⟨.states, "oom"⟩ runs ∧
        runs.filter (fun r => r.1 = 8) = [(8, resultTrial 0.25)] := by
  have hd : zerosDisk.WellFormed := by decide +kernel
  have hfolder : zerosDisk.isFolder ⟨"out"⟩ = true := by decide +kernel
  obtain ⟨runs, h⟩ := readsResults hd hfolder 0 ⟨.states, "oom"⟩
  exact ⟨hd, hfolder, runs, h, (h.written "8" _ holdsResult_zerosDisk.1 (by decide +kernel)).2.2⟩

/-- **A result is overlooked** if its name has zeros in front. -/
theorem not_reads_zeros :
    ¬ ∀ (d : Disk) (folder : Path) (iteration : Nat) (options : LoadOptions) (name : String) (t : Trial Float)
      (trials : List (Trial Float)), d.WellFormed → HoldsResult d folder iteration options name t →
      (loadIteration d folder iteration options).value = .ok trials → t ∈ trials := by
  intro h
  have hload : (loadIteration zerosDisk ⟨"out"⟩ 0 ⟨.states, "oom"⟩).value = .ok [resultTrial 0.25] := by
    decide +kernel
  have hmem := h _ _ _ _ _ _ _ (by decide +kernel) holdsResult_zerosDisk.2 hload
  exact absurd hmem (by decide +kernel)

end CheckerTrials
