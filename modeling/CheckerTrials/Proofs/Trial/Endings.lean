import CheckerTrials.Proofs.Text.ByteOrder
import CheckerTrials.Proofs.Text.Lossy
import CheckerTrials.Proofs.Trial.Configuration
import CheckerTrials.Proofs.Trial.Reading

/-!
# How a run can end

A run is read from its result, its setup and its log, any of which may be missing, be a folder, or hold anything.  What
is read is said here from these files alone, without the order in which the program looks at them:

* `Yields`: the result is a regular file, and its text is that of a trial.
* `Records`: the setup is a command line, or else the first line of the result is one.
* `Judged`: how the run failed, by its result and its log.

The three decide what is read (`readsEnding`): every run is a success, a failure of one kind, or not known.  What counts
is whether the files are there and can be read; that a log is searched for bytes, in spite of being read as a text
first, is `Text.infix_decodeLossy_iff`.
-/

set_option autoImplicit false

namespace CheckerTrials

open Disk

variable {d : Disk} {base : Path} {iteration : Nat} {options : LoadOptions} {marker : String} {i j : Invocation}
  {failure : Failure} {t : Trial Float}

/-! ## What the files of a run tell -/

/-- **The result of a run is there**: it is a regular file, and its text is that of a trial. -/
def Yields (d : Disk) (base : Path) (mode : Trailing) (iteration : Nat) (t : Trial Float) : Prop :=
  d.isFile base = true ∧
    ∃ text, d.readText base = .ok text ∧ (TextResult.parse text mode iteration).value = .ok t

/-- **A command line is recorded** for a run. -/
inductive Records (d : Disk) (base : Path) (i : Invocation) : Prop
  /-- The setup is one. -/
  | setup (text : String) (hread : d.readText (base.withSuffix setupSuffix) = .ok text)
    (hparse : Invocation.parse text = .ok i)
  /-- There is no setup or it is none, and the first line of the result is one. -/
  | echo (hsetup : ∀ text j, d.readText (base.withSuffix setupSuffix) = .ok text → Invocation.parse text ≠ .ok j)
    (text : String) (line : List Char) (hread : d.readText base = .ok text)
    (hline : (Text.lines text.toList).head? = some line) (hparse : Invocation.parse (String.ofList line) = .ok i)

/-- **How a run failed** whose result is not that of a trial. -/
inductive Judged (d : Disk) (base : Path) (marker : String) : Failure → Prop
  /-- It left a result. -/
  | result (hfile : d.isFile base = true) : Judged d base marker .generic
  /-- It left no result, and there is no log to be read. -/
  | noLog (hfile : ¬ d.isFile base = true) (hlog : ∀ log, d.readBytes (base.withSuffix logSuffix) ≠ .ok log) :
    Judged d base marker .generic
  /-- It left no result, and the marker is in its log. -/
  | memout (hfile : ¬ d.isFile base = true) (log : ByteArray)
    (hlog : d.readBytes (base.withSuffix logSuffix) = .ok log)
    (hmarker : marker.toList <:+: Text.decodeLossy log) : Judged d base marker .memout
  /-- It left no result, and the marker is not in its log. -/
  | timeout (hfile : ¬ d.isFile base = true) (log : ByteArray)
    (hlog : d.readBytes (base.withSuffix logSuffix) = .ok log)
    (hmarker : ¬ marker.toList <:+: Text.decodeLossy log) : Judged d base marker .timeout

/-! ## The result -/

theorem yields_iff {mode : Trailing} :
    Yields d base mode iteration t ↔ (TextResult.read d base mode iteration).value = .ok t := by
  rw [Yields, value_read_eq_ok_iff]
  exact and_iff_right_of_imp fun ⟨_, hread, _⟩ => isFile_of_readText hread

/-! ## The command line -/

/-- Blanks at the ends of a line do not matter. -/
theorem parse_trim_eq_ok_iff {line : List Char} :
    Invocation.parse (String.ofList (Text.trim line)) = .ok i ↔ Invocation.parse (String.ofList line) = .ok i := by
  have hwords : Invocation.wordsOf (String.ofList (Text.trim line)) = Invocation.wordsOf (String.ofList line) := by
    have h := Invocation.wordsOf_trim (String.ofList line)
    rwa [String.toList_ofList] at h
  simp only [Invocation.parse, hwords]
  split
  · simp
  · rfl

/-- The setup of a run as a command line. -/
def setupInvocation? (d : Disk) (base : Path) : Option Invocation :=
  (d.readText (base.withSuffix setupSuffix)).toOption.bind fun text => (Invocation.parse text).toOption

/-- The first line of a result as a command line. -/
def echoedInvocation? (d : Disk) (base : Path) : Option Invocation :=
  (d.readText base).toOption.bind fun text => (Text.lines text.toList).head?.bind fun line =>
    (Invocation.parse (String.ofList line)).toOption

theorem setupInvocation?_eq_some_iff : setupInvocation? d base = some i ↔
    ∃ text, d.readText (base.withSuffix setupSuffix) = .ok text ∧ Invocation.parse text = .ok i := by
  simp only [setupInvocation?, Option.bind_eq_some_iff, toOption_eq_some_iff]

theorem echoedInvocation?_eq_some_iff : echoedInvocation? d base = some i ↔
    ∃ text, d.readText base = .ok text ∧ ∃ line, (Text.lines text.toList).head? = some line ∧
      Invocation.parse (String.ofList line) = .ok i := by
  simp only [echoedInvocation?, Option.bind_eq_some_iff, toOption_eq_some_iff]

theorem findSome?_toList {α β : Type} (f : α → Option β) (o : Option α) : o.toList.findSome? f = o.bind f := by
  cases o with
  | none => rfl
  | some a => rw [Option.toList_some, List.findSome?_singleton, Option.bind_some]

/-- The setup comes first. -/
theorem recordedInvocation?_eq (d : Disk) (base : Path) :
    recordedInvocation? d base = (setupInvocation? d base).or (echoedInvocation? d base) := by
  have htrim : (fun line => (Invocation.parse (String.ofList (Text.trim line))).toOption) =
      fun line => (Invocation.parse (String.ofList line)).toOption := by
    funext line
    exact Option.ext fun i => by simp only [toOption_eq_some_iff, parse_trim_eq_ok_iff]
  rw [recordedInvocation?, htrim, invocationLines, List.findSome?_append, findSome?_toList, findSome?_toList,
    setupInvocation?, echoedInvocation?, Option.bind_map, Option.bind_assoc]
  simp only [Function.comp_def, String.ofList_toList]

/-- **The command line of a run** is the one that its files record. -/
theorem recordedInvocation?_eq_some_iff : recordedInvocation? d base = some i ↔ Records d base i := by
  rw [recordedInvocation?_eq, Option.or_eq_some_iff, echoedInvocation?_eq_some_iff]
  constructor
  · rintro (hsetup | ⟨hnone, text, hread, line, hline, hparse⟩)
    · obtain ⟨text, hread, hparse⟩ := setupInvocation?_eq_some_iff.1 hsetup
      exact .setup text hread hparse
    · refine .echo (fun setup j hsetup hparse => ?_) text line hread hline hparse
      have hsome := setupInvocation?_eq_some_iff.2 ⟨setup, hsetup, hparse⟩
      rw [hnone] at hsome
      cases hsome
  · intro h
    cases h with
    | setup text hread hparse => exact .inl (setupInvocation?_eq_some_iff.2 ⟨text, hread, hparse⟩)
    | echo hsetup text line hread hline hparse =>
      refine .inr ⟨Option.eq_none_iff_forall_ne_some.2 fun j hj => ?_, text, hread, line, hline, hparse⟩
      obtain ⟨setup, hread', hparse'⟩ := setupInvocation?_eq_some_iff.1 hj
      exact hsetup setup j hread' hparse'

/-! ## The failure -/

/-- A run that left a result failed in no known way. -/
theorem judgement_of_isFile (h : d.isFile base = true) : judgement d base marker = .generic := by
  have hnone : classify d (.text base) marker = none := (classify_eq_none_iff (a := .text base)).2 h
  rw [judgement, hnone, Option.getD_none]

/-- A run that left none is judged by its log. -/
theorem judgement_of_not_isFile (h : ¬ d.isFile base = true) :
    judgement d base marker =
      match d.readBytes (base.withSuffix logSuffix) with
      | .error _ => .generic
      | .ok log => if Text.occurs marker.toList (Text.decodeLossy log) then .memout else .timeout := by
  have hfile : ¬ d.isFile (Artifact.text base).result = true := h
  have hlog : (Artifact.text base).log = base.withSuffix logSuffix := rfl
  rw [judgement, classify, if_neg hfile, hlog]
  cases d.readBytes (base.withSuffix logSuffix) with
  | error cause => rfl
  | ok log =>
    dsimp only
    split <;> rfl

theorem judged_judgement (d : Disk) (base : Path) (marker : String) :
    Judged d base marker (judgement d base marker) := by
  by_cases hfile : d.isFile base = true
  · rw [judgement_of_isFile hfile]
    exact .result hfile
  · rw [judgement_of_not_isFile hfile]
    cases hlog : d.readBytes (base.withSuffix logSuffix) with
    | error cause => exact .noLog hfile fun log h => by rw [hlog] at h; cases h
    | ok log =>
      dsimp only
      split
      · rename_i hmarker
        exact .memout hfile log hlog (Text.occurs_iff.1 hmarker)
      · rename_i hmarker
        exact .timeout hfile log hlog (mt Text.occurs_iff.2 hmarker)

/-- **How a run failed** is decided by its result and its log. -/
theorem judged_iff : Judged d base marker failure ↔ failure = judgement d base marker := by
  constructor
  · intro h
    cases h with
    | result hfile => rw [judgement_of_isFile hfile]
    | noLog hfile hlog =>
      rw [judgement_of_not_isFile hfile]
      cases hread : d.readBytes (base.withSuffix logSuffix) with
      | error cause => rfl
      | ok log => exact absurd hread (hlog log)
    | memout hfile log hlog hmarker =>
      rw [judgement_of_not_isFile hfile, hlog]
      exact (if_pos (Text.occurs_iff.2 hmarker)).symm
    | timeout hfile log hlog hmarker =>
      rw [judgement_of_not_isFile hfile, hlog]
      exact (if_neg (mt Text.occurs_iff.1 hmarker)).symm
  · rintro rfl
    exact judged_judgement d base marker

/-! ## Reading a run -/

/-- A run that yields a trial is read as that trial. -/
theorem value_loadRun_of_yields (h : Yields d base options.trailing iteration t) :
    (loadRun d base iteration options).value = some t := by
  rw [value_loadRun_eq, yields_iff.1 h]

/-- Any other run is read as a failure, if its command line is recorded. -/
theorem value_loadRun_of_not_yields (h : ∀ u, ¬ Yields d base options.trailing iteration u) :
    (loadRun d base iteration options).value = (recordedInvocation? d base).map fun i =>
      .failed i.model i.axis? (judgement d base options.marker) iteration := by
  rw [value_loadRun_eq]
  cases hread : (TextResult.read d base options.trailing iteration).value with
  | ok u => exact absurd (yields_iff.2 hread) (h u)
  | error e => rfl

theorem Yields.status (h : Yields d base options.trailing iteration t) :
    t.status = .success ∧ t.iteration = iteration := by
  obtain ⟨-, _, -, hparse⟩ := h
  exact success_of_parse hparse

/-- What is read is a success exactly if the result is that of a trial. -/
theorem value_loadRun_eq_success_iff : (loadRun d base iteration options).value = some t ∧ t.status = .success ↔
    Yields d base options.trailing iteration t := by
  constructor
  · rintro ⟨hvalue, hstatus⟩
    exact yields_iff.2 ((loadRun_eq_success_iff hstatus).1 hvalue).2
  · intro h
    exact ⟨value_loadRun_of_yields h, h.status.1⟩

/-- What is read is a failure exactly if it is not, and a command line is recorded. -/
theorem value_loadRun_eq_failed_iff : (loadRun d base iteration options).value = some t ∧ t.status ≠ .success ↔
    (∀ u, ¬ Yields d base options.trailing iteration u) ∧ ∃ i failure, Records d base i ∧
      Judged d base options.marker failure ∧ t = .failed i.model i.axis? failure iteration := by
  constructor
  · rintro ⟨hvalue, hstatus⟩
    have hno : ∀ u, ¬ Yields d base options.trailing iteration u := by
      intro u hu
      rw [value_loadRun_of_yields hu] at hvalue
      cases hvalue
      exact hstatus hu.status.1
    rw [value_loadRun_of_not_yields hno] at hvalue
    obtain ⟨i, hi, rfl⟩ := Option.map_eq_some_iff.1 hvalue
    exact ⟨hno, i, _, recordedInvocation?_eq_some_iff.1 hi, judged_judgement d base options.marker, rfl⟩
  · rintro ⟨hno, i, failure, hi, hfailure, rfl⟩
    rw [value_loadRun_of_not_yields hno, recordedInvocation?_eq_some_iff.2 hi, judged_iff.1 hfailure]
    exact ⟨rfl, Failure.status_ne_success _⟩

/-- Nothing is read exactly if there is neither. -/
theorem value_loadRun_eq_none_iff : (loadRun d base iteration options).value = none ↔
    (∀ u, ¬ Yields d base options.trailing iteration u) ∧ ∀ i, ¬ Records d base i := by
  simp only [← recordedInvocation?_eq_some_iff, ← Option.eq_none_iff_forall_ne_some]
  constructor
  · intro hvalue
    have hno : ∀ u, ¬ Yields d base options.trailing iteration u := by
      intro u hu
      rw [value_loadRun_of_yields hu] at hvalue
      cases hvalue
    rw [value_loadRun_of_not_yields hno, Option.map_eq_none_iff] at hvalue
    exact ⟨hno, hvalue⟩
  · rintro ⟨hno, hnone⟩
    rw [value_loadRun_of_not_yields hno, hnone, Option.map_none]

theorem iteration_of_loadRun (h : (loadRun d base iteration options).value = some t) : t.iteration = iteration := by
  by_cases hstatus : t.status = .success
  · exact (value_loadRun_eq_success_iff.1 ⟨h, hstatus⟩).status.2
  · obtain ⟨-, i, failure, -, -, rfl⟩ := value_loadRun_eq_failed_iff.1 ⟨h, hstatus⟩
    rfl

/-- **What reading a run makes of its files.** -/
structure ReadsEnding (d : Disk) (base : Path) (iteration : Nat) (options : LoadOptions) : Prop where
  /-- It reads a success if the result is that of a trial, and reads that trial. -/
  success_iff : ∀ t, (loadRun d base iteration options).value = some t ∧ t.status = .success ↔
    Yields d base options.trailing iteration t
  /-- It reads a failure if the result is not that of a trial but a command line is recorded, which gives the failure
  its name. -/
  failed_iff : ∀ t, (loadRun d base iteration options).value = some t ∧ t.status ≠ .success ↔
    (∀ u, ¬ Yields d base options.trailing iteration u) ∧ ∃ i failure, Records d base i ∧
      Judged d base options.marker failure ∧ t = .failed i.model i.axis? failure iteration
  /-- It reads nothing if there is neither. -/
  none_iff : (loadRun d base iteration options).value = none ↔
    (∀ u, ¬ Yields d base options.trailing iteration u) ∧ ∀ i, ¬ Records d base i
  /-- No two command lines are recorded. -/
  recorded : ∀ i j, Records d base i → Records d base j → i = j
  /-- Every run is judged, and in one way. -/
  judged : ∃! failure, Judged d base options.marker failure
  /-- A marker without replacement characters is in what is read of a log exactly if its bytes are in the log. -/
  marker : Text.replacement ∉ options.marker.toList → ∀ log : ByteArray,
    options.marker.toList <:+: Text.decodeLossy log ↔ Text.bytes options.marker <:+: log.toList
  /-- What is read is of the iteration that was asked for. -/
  iteration : ∀ t, (loadRun d base iteration options).value = some t → t.iteration = iteration

/-- **Every run is a success, a failure of one kind, or not known**, and its files decide which. -/
theorem readsEnding (d : Disk) (base : Path) (iteration : Nat) (options : LoadOptions) :
    ReadsEnding d base iteration options where
  success_iff _ := value_loadRun_eq_success_iff
  failed_iff _ := value_loadRun_eq_failed_iff
  none_iff := value_loadRun_eq_none_iff
  recorded i j hi hj := by
    rw [← recordedInvocation?_eq_some_iff] at hi hj
    exact Option.some.inj (hi.symm.trans hj)
  judged := ⟨_, judged_judgement d base options.marker, fun _ => judged_iff.1⟩
  marker h log := by rw [Text.infix_decodeLossy_iff h, Text.bytes_eq]
  iteration _ := iteration_of_loadRun

end CheckerTrials
