import CheckerTrials.Proofs.Files.Beside
import CheckerTrials.Proofs.Plan.Perform
import CheckerTrials.Proofs.Trial.CommandLine
import CheckerTrials.Proofs.Trial.Reading
import CheckerTrials.Proofs.Trial.Sections

/-!
# Running into the place of an earlier run

A run writes its command line, opens its log and starts the tool, but it does not touch the result: that is for
the tool to write.  So if there has been a run before in the same place and the tool of the new one writes
nothing, the result of the earlier run is read as that of the new one (`reads_earlier_result`).  If there is no
such result, a tool that wrote nothing gives no success, and a tool that could not be started gives a failed
trial of the model that the new command line names, whatever other files the earlier run has left.
-/

set_option autoImplicit false

namespace CheckerTrials

open Disk CheckerTrials.Path

namespace Run

variable {execute : Executor} {r : Run} {d e : Disk} {ending : Ending}

/-! ## The result -/

theorem sameFile_record (h : r.record d = .ok e) : SameFile r.base d e :=
  sameFile_writeText (s := setupSuffix) (by decide) h

/-- Until the tool is started nothing happens to the result. -/
theorem sameFile_opened {d₁ : Disk} (hrecord : r.record d = .ok d₁) (hlog : r.openLog d₁ = .ok e) :
    SameFile r.base d e :=
  (sameFile_record hrecord).trans (sameFile_writeText (s := logSuffix) (by decide) hlog)

/-- Taking the log back leaves the result and the command line alone. -/
theorem sameFile_withdrawal (r : Run) (d : Disk) :
    SameFile r.base d (d.outcome (d.removeFile r.artifact.log)).2 ∧
      SameFile (r.base.withSuffix setupSuffix) d (d.outcome (d.removeFile r.artifact.log)).2 := by
  rw [removeFile_eq]
  exact ⟨sameFile_edit_beside (s := logSuffix) (sparesFolders_takeAway _) (makesNoFolder_takeAway _) r.base d
      (by decide),
    sameFile_edit_other (s := setupSuffix) (t := logSuffix) (sparesFolders_takeAway _)
      (makesNoFolder_takeAway _) r.base d (by decide) (by decide) (by decide)⟩

/-- What is written after the tool has run leaves the result alone. -/
theorem sameFile_finish_status (execute : Executor) (r : Run) (exit : Option Nat) (seconds : Float)
    (d : Disk) : SameFile r.base d (r.finish execute (.status exit seconds) d).value.2 := by
  have hstatus : (next execute r d (.status exit seconds)).value =
      after d (d.writeText (r.base.withSuffix statusSuffix) (statusText exit))
        (.reached (.time exit seconds)) := rfl
  rw [value_finish, hstatus]
  cases hwrite : d.writeText (r.base.withSuffix statusSuffix) (statusText exit) with
  | error cause => exact .refl r.base d
  | ok d' =>
    have hfirst : SameFile r.base d d' := sameFile_writeText (by decide) hwrite
    have htime : (next execute r d' (.time exit seconds)).value =
        after d' (d'.writeText (r.base.withSuffix timeSuffix) (Decimal.plain seconds ++ "\n"))
          (.ended (.ok exit)) := rfl
    rw [after, conclude, value_finish, htime]
    cases hwrite' : d'.writeText (r.base.withSuffix timeSuffix) (Decimal.plain seconds ++ "\n") with
    | error cause => exact hfirst
    | ok d'' => exact hfirst.trans (sameFile_writeText (by decide) hwrite')

/-- The tool of a run writes no result: if a file is there after it has run, the file was there before. -/
def WritesNothing (execute : Executor) (r : Run) (d : Disk) : Prop :=
  ∀ d₁ d₂ done, r.record d = .ok d₁ → r.openLog d₁ = .ok d₂ →
    execute r.command r.artifact.log d₂ = .ok done → NoNewFile r.base d₂ done.disk

/-- **If the tool writes no result, none is new** after the run, however it goes. -/
theorem Course.noNewFile (h : Course execute r d ending e) (hnothing : r.WritesNothing execute d) :
    NoNewFile r.base d e := by
  cases h with
  | unrecorded hrecord => exact (SameFile.refl r.base d).noNewFile
  | unopened hrecord hlog => exact (sameFile_record hrecord).noNewFile
  | unstarted hrecord hlog htool =>
    exact ((sameFile_opened hrecord hlog).trans (sameFile_withdrawal r _).1).noNewFile
  | @ran d₁ d₂ done hrecord hlog htool =>
    have hran := (hnothing d₁ d₂ done hrecord hlog htool).trans
      (sameFile_finish_status execute r done.exit done.seconds done.disk).noNewFile
    exact (sameFile_opened hrecord hlog).noNewFile.trans hran

/-! ## Tools that cannot be started -/

/-- What is on the disk after a run whose tool was not started. -/
structure Withdrawn (r : Run) (d e : Disk) : Prop where
  /-- The result is as it was. -/
  result : SameFile r.base d e
  /-- The command line is that of the run. -/
  setup : e.readText (r.base.withSuffix setupSuffix) = .ok r.setupText
  /-- There is no log that could be read. -/
  log : ∃ cause, e.readBytes r.artifact.log = .error cause

/-- **If the tool was not started**, the new command line is there, and no log, whatever was there before. -/
theorem Course.withdrawn (h : Course execute r d ending e) (hunstarted : r.Unstarted execute d) :
    r.Withdrawn d e := by
  obtain ⟨d', hrecorded, hnone⟩ := hunstarted
  cases h with
  | unrecorded hrecord =>
    rw [hrecord] at hrecorded
    cases hrecorded
  | unopened hrecord hlog =>
    exact ⟨sameFile_record hrecord, readText_of_writeText hrecord, readBytes_eq_error hlog⟩
  | @unstarted d₁ d₂ cause hrecord hlog htool =>
    obtain ⟨hbase, hsetup⟩ := sameFile_withdrawal r d₂
    have hopened : SameFile (r.base.withSuffix setupSuffix) d₁ d₂ :=
      sameFile_writeText_other (t := logSuffix) (by decide) (by decide) (by decide) hlog
    have hread : d₁.readText (r.base.withSuffix setupSuffix) = .ok r.setupText :=
      readText_of_writeText hrecord
    refine ⟨(sameFile_opened hrecord hlog).trans hbase, (hopened.trans hsetup).readText_eq_ok hread, ?_⟩
    -- the log was opened just before, so that it can be removed
    obtain ⟨f, hremove, hgone⟩ := removeFile_of_writeText hlog
    rw [hremove]
    exact hgone
  | ran hrecord hlog htool =>
    rw [hrecord] at hrecorded
    cases hrecorded
    obtain ⟨cause, herror⟩ := hnone _ hlog
    rw [htool] at herror
    cases herror

end Run

/-! ## Reading the run -/

/-- What is read after a run whose tool wrote no result, on the disk `e` that was `d` before. -/
structure ReadsEarlier (execute : Executor) (r : Run) (descriptor : Descriptor) (d e : Disk)
    (iteration : Nat) (options : LoadOptions) : Prop where
  /-- A success is read if the result of an earlier run is still there, and it is what that result says. -/
  success : ∀ t, t.status = .success → ((loadRun e r.base iteration options).value = some t ↔
    e.isFile r.base = true ∧ (TextResult.read d r.base options.trailing iteration).value = .ok t)
  /-- If the tool was not started, the result of an earlier run still is there. -/
  stale : r.Unstarted execute d → ∀ t, (TextResult.read d r.base options.trailing iteration).value = .ok t →
    (loadRun e r.base iteration options).value = some t
  /-- If the tool was not started and there was no result that could be read, the run is a failure of an
  unknown kind, of the model that its command line names. -/
  generic : r.Unstarted execute d →
    (∀ t, (TextResult.read d r.base options.trailing iteration).value ≠ .ok t) →
    ∀ model, descriptor.model? = some model → (∀ c ∈ descriptor.path.toList, Text.isBlank c = false) →
      ∃ i, Invocation.parse (String.ofList (Text.trim r.setupText.toList)) = .ok i ∧ i.model = model ∧
        (loadRun e r.base iteration options).value = some (.failed model i.axis? .generic iteration)

/-- What is read after any course of a run. -/
theorem Run.Course.readsEarlier {execute : Executor} {launcher : Launcher} {descriptor : Descriptor}
    {flags : Flags} {base : Path} {d e : Disk} {ending : Ending}
    (h : Course execute (Run.of launcher descriptor flags base) d ending e)
    (hnothing : (Run.of launcher descriptor flags base).WritesNothing execute d) (iteration : Nat)
    (options : LoadOptions) :
    ReadsEarlier execute (Run.of launcher descriptor flags base) descriptor d e iteration options := by
  have hold := h.noNewFile hnothing
  refine ⟨fun t hstatus => ?_, fun hunstarted t hread => ?_, fun hunstarted hnone model hmodel hblank => ?_⟩
  · rw [loadRun_eq_success_iff hstatus]
    refine and_congr_right fun hfile => ?_
    rw [NoNewFile.read_eq hold hfile]
  · have hfile := (h.withdrawn hunstarted).result.isFile_iff.2 (isFile_of_read hread)
    rw [loadRun_eq_success_iff (status_of_read hread), NoNewFile.read_eq hold hfile]
    exact ⟨hfile, hread⟩
  · obtain ⟨i, hparse, rfl⟩ := model_of_setupText launcher flags base hmodel hblank
    have hgone := h.withdrawn hunstarted
    have hrecorded := recordedInvocation?_of_setup hgone.setup hparse
    refine ⟨i, hparse, rfl, loadRun_eq_generic hrecorded hgone.log fun t hread => hnone t ?_⟩
    rwa [NoNewFile.read_eq hold (isFile_of_read hread)] at hread

/-- What a run leaves on the disk. -/
theorem course_runOnce (execute : Executor) (launcher : Launcher) (descriptor : Descriptor) (flags : Flags)
    {output base : Path} {d : Disk} (hbase : output.absolute? d.home = some base) :
    (Run.of launcher descriptor flags base).Course execute d
      ((Run.of launcher descriptor flags base).alone execute d).1
      (Work.on (runOnce execute launcher descriptor flags output) d).disk := by
  rw [on_runOnce hbase, (on_perform execute _ d).2]
  exact Run.course_alone execute _ d

/-- **A run whose tool writes no result reads as an earlier one**, if that has left a result; otherwise it is no
success, and a failure of an unknown kind if the tool was not started. -/
theorem reads_earlier_result (execute : Executor) (launcher : Launcher) (descriptor : Descriptor)
    (flags : Flags) {output base : Path} {d : Disk} (hbase : output.absolute? d.home = some base)
    (hnothing : (Run.of launcher descriptor flags base).WritesNothing execute d) (iteration : Nat)
    (options : LoadOptions) :
    ReadsEarlier execute (Run.of launcher descriptor flags base) descriptor d
      (Work.on (runOnce execute launcher descriptor flags output) d).disk iteration options :=
  (course_runOnce execute launcher descriptor flags hbase).readsEarlier hnothing iteration options

/-! ## A folder that has been used before -/

/-- A tool that writes nothing, and that cannot be started under one of its names. -/
def idleTool : Executor := fun command _ d =>
  if command.program = "absent" then .error .notFound else .ok ⟨d, some 1, 0⟩

theorem writesNothing_idleTool (r : Run) (d : Disk) : r.WritesNothing idleTool d := by
  intro d₁ d₂ done hrecord hlog htool
  rw [idleTool] at htool
  split at htool
  · cases htool
  · cases htool
    exact (SameFile.refl r.base d₂).noNewFile

/-- A run of the tool that cannot be started. -/
def absentRun : Run := .of (.direct "absent") (.plain "models/toy.prism" 1 0.5) (.plain .blackbox) ⟨"/out/0"⟩

/-- A disk on which the files of an earlier run are left, with or without its result. -/
def usedDisk (result : List (Location × Entry)) : Disk where
  home := []
  entries := [(["out"], .folder), (["out", "0.out"], .file "OutOfMemoryError".toUTF8 false),
    (["out", "0.setup"], .file "meanPayoff -m other.prism".toUTF8 false)] ++ result

theorem unstarted_absentRun (d : Disk) (h : (absentRun.record d).isOk = true) :
    absentRun.Unstarted idleTool d := by
  obtain ⟨d₁, hrecord⟩ := exists_of_isOk h
  exact ⟨d₁, hrecord, fun d₂ _ => ⟨.notFound, rfl⟩⟩

/-- Without an earlier result, the run is a failure of its own model, not of the one before. -/
theorem reads_earlier_result_usedDisk :
    absentRun.WritesNothing idleTool (usedDisk []) ∧ ∃ axis,
      (loadRun (Work.on (runOnce idleTool (.direct "absent") (.plain "models/toy.prism" 1 0.5)
        (.plain .blackbox) ⟨"out/0"⟩) (usedDisk [])).disk ⟨"/out/0"⟩ 0 ⟨.states, "OutOfMemoryError"⟩).value =
      some (.failed "toy" axis .generic 0) := by
  have hbase : (⟨"out/0"⟩ : Path).absolute? (usedDisk []).home = some ⟨"/out/0"⟩ := by decide +kernel
  have hread := reads_earlier_result idleTool (.direct "absent") (.plain "models/toy.prism" 1 0.5)
    (.plain .blackbox) hbase (writesNothing_idleTool _ _) 0 ⟨.states, "OutOfMemoryError"⟩
  have hunstarted := unstarted_absentRun (usedDisk []) (by decide +kernel)
  have hnone : ∀ t, (TextResult.read (usedDisk []) ⟨"/out/0"⟩ .states 0).value ≠ .ok t := by
    intro t ht
    have hfile := isFile_of_read ht
    exact absurd hfile (by decide +kernel)
  obtain ⟨i, -, -, hgeneric⟩ := hread.generic hunstarted hnone "toy" (by decide) (by decide)
  exact ⟨writesNothing_idleTool _ _, i.axis?, hgeneric⟩

/-- The result of an earlier run. -/
def earlierResult : List (Location × Entry) :=
  [(["out", "0"], .file TextResult.sampleText.toUTF8 false)]

theorem exists_read_earlierResult :
    ∃ t, (TextResult.read (usedDisk earlierResult) ⟨"/out/0"⟩ .states 0).value = .ok t := by
  have hlocate : (usedDisk earlierResult).locate ⟨"/out/0"⟩ = .ok ["out", "0"] := by decide +kernel
  have hget : (usedDisk earlierResult).get? ["out", "0"] =
      some (.file TextResult.sampleText.toUTF8 false) := rfl
  have htext : (usedDisk earlierResult).readText ⟨"/out/0"⟩ = .ok TextResult.sampleText :=
    readText_of_get? (by decide) hlocate hget
  obtain ⟨t, hparse⟩ := TextResult.exists_parse_sampleText .states 0
  refine ⟨t, ?_⟩
  rw [TextResult.read, htext, Noted.value_map, hparse]
  rfl

/-- **An earlier result is taken for the result of a run whose tool was not even started.** -/
theorem not_generic_usedDisk :
    absentRun.Unstarted idleTool (usedDisk earlierResult) ∧ ∃ t,
      (loadRun (Work.on (runOnce idleTool (.direct "absent") (.plain "models/toy.prism" 1 0.5)
        (.plain .blackbox) ⟨"out/0"⟩) (usedDisk earlierResult)).disk ⟨"/out/0"⟩ 0
        ⟨.states, "OutOfMemoryError"⟩).value = some t ∧ t.status = .success := by
  have hbase : (⟨"out/0"⟩ : Path).absolute? (usedDisk earlierResult).home = some ⟨"/out/0"⟩ := by
    decide +kernel
  have hunstarted := unstarted_absentRun (usedDisk earlierResult) (by decide +kernel)
  obtain ⟨t, ht⟩ := exists_read_earlierResult
  have hread := (course_runOnce idleTool (.direct "absent") (.plain "models/toy.prism" 1 0.5)
    (.plain .blackbox) hbase).readsEarlier (writesNothing_idleTool _ _) 0 ⟨.states, "OutOfMemoryError"⟩
  exact ⟨hunstarted, t, hread.stale hunstarted t ht, status_of_read ht⟩

end CheckerTrials
