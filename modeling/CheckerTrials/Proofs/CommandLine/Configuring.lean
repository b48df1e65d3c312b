import CheckerTrials.CommandLine.Perform
import CheckerTrials.Json.Decode
import CheckerTrials.Proofs.Plan.Perform

/-!
# When the configuration is read

Every task but two may be given a configuration file.  If there is something wrong with that file, nothing should
have been done when this is found out, and for the tasks that read results it is so: the configuration is the first
thing they read (`on_perform_of_config_error`).  The task that makes results reads it last.  The whole plan has
been carried out by then, with all that it has written, and if the plan itself fails nothing is said about the
configuration at all (`Task.ConfiguredLate`).
-/

set_option autoImplicit false

namespace CheckerTrials

namespace Work

variable {ε ζ α β : Type}

/-- What comes after a failure is left out, with its notes. -/
theorem on_bind_of_error {w : Work ε α} {d e : Disk} {failure : ε} {notes : List Note}
    (h : on w d = ⟨.error failure, e, notes⟩) (f : α → Work ε β) :
    on (w >>= f) d = ⟨.error failure, e, notes⟩ := by
  rw [on_bind, h]

end Work

namespace Task

/-- The configuration file that a task is given. -/
def config? : Task → Option Path
  | .run o => o.trials.config
  | .summarize _ _ _ o => o.config
  | .compare _ _ _ o => o.config
  | .collect _ _ config => config
  | .series _ _ o => o.config
  | .evaluate _ _ _ => none
  | .partition _ _ => none

section

variable {V : Type} [Json.Library V]

/-! ## Reading the configuration first -/

variable {d : Disk} {p : Path} {e : Config.ConfigError}

/-- Loading a configuration changes nothing and notes nothing. -/
theorem on_loadConfig_some (p : Path) (d : Disk) :
    (loadConfig (some p)).on d = ⟨(Config.read d p).mapError .config, d, []⟩ :=
  Work.on_tryAsk _ d

theorem on_loadConfig_error (he : Config.read d p = .error e) :
    (loadConfig (some p)).on d = ⟨.error (.config e), d, []⟩ := by
  rw [on_loadConfig_some, he]
  rfl

/-- Work that begins with the configuration does nothing without one. -/
theorem on_loadConfig_bind {β : Type} (he : Config.read d p = .error e) (f : Config → Work TaskError β) :
    (loadConfig (some p) >>= f).on d = ⟨.error (.config e), d, []⟩ :=
  Work.on_bind_of_error (on_loadConfig_error he) f

/-- **A task that reads results** does nothing if its configuration cannot be read. -/
theorem on_perform_of_config_error (execute : Executor) {task : Task} (hrun : ∀ o, task ≠ .run o)
    (hconfig : task.config? = some p) (he : Config.read d p = .error e) :
    (task.perform execute).on d = ⟨.error (.config e), d, []⟩ := by
  cases task with
  | run o => exact absurd rfl (hrun o)
  | summarize results output order o =>
    refine Work.on_bind_of_error ?_ _
    rw [performSummarize, show o.config = some p from hconfig]
    exact on_loadConfig_bind he _
  | compare columns output latex o =>
    refine Work.on_bind_of_error ?_ _
    rw [performCompare, show o.config = some p from hconfig]
    exact on_loadConfig_bind he _
  | collect results output config =>
    refine Work.on_bind_of_error ?_ _
    rw [performCollect, show config = some p from hconfig]
    exact on_loadConfig_bind he _
  | series results output o =>
    refine Work.on_bind_of_error ?_ _
    rw [performSeries, show o.config = some p from hconfig]
    exact on_loadConfig_bind he _
  | evaluate document table output => cases hconfig
  | partition total workers => cases hconfig

theorem yields_loadConfig (he : Config.read d p = .error e) :
    Work.Yields (loadConfig (some p)) d (.error (.config e)) d :=
  .of_on (on_loadConfig_error he)

/-! ## Reading it last -/

/-- What has come of the plan of a run. -/
def planned (execute : Executor) (o : RunOptions) (d : Disk) : Done PlanError (List Ran) :=
  (o.plan.perform execute o.launcher o.workers).on d

/-- **A run of a benchmark set reads its configuration late**: what comes of the plan decides what is said, and all
that the plan has written stays. -/
structure ConfiguredLate (execute : Executor) (o : RunOptions) (p : Path) (d : Disk) : Prop where
  /-- If the plan fails, that is what is said. -/
  plan : ∀ failure, (planned execute o d).result = .error failure →
    (((Task.run o).perform execute).on d).result = .error (.plan failure) ∧
      (((Task.run o).perform execute).on d).disk = (planned execute o d).disk
  /-- If the plan has been carried out, the configuration is read from the disk after it. -/
  config : ∀ ran, (planned execute o d).result = .ok ran →
    ∀ e, Config.read (planned execute o d).disk p = .error e →
      (((Task.run o).perform execute).on d).result = .error (.config e) ∧
        (((Task.run o).perform execute).on d).disk = (planned execute o d).disk

/-- A run that is given a configuration file reads it late. -/
theorem configuredLate (execute : Executor) {o : RunOptions} (hconfig : o.trials.config = some p) (d : Disk) :
    ConfiguredLate execute o p d := by
  refine ⟨fun failure hfailure => ?_, fun ran hran e he => ?_⟩
  · have hplan : Work.Yields (o.plan.perform execute o.launcher o.workers) d (.error failure) _ := ⟨hfailure, rfl⟩
    have hrun : Work.Yields ((Task.run o).perform execute) d (.error (.plan failure)) _ :=
      .bind_error (.note_bind (.bind_error (hplan.mapError TaskError.plan)))
    exact ⟨hrun.result, hrun.disk⟩
  · have hplan : Work.Yields (o.plan.perform execute o.launcher o.workers) d (.ok ran) _ := ⟨hran, rfl⟩
    have hload : Work.Yields (loadConfig o.trials.config) (planned execute o d).disk (.error (.config e))
        (planned execute o d).disk := hconfig ▸ yields_loadConfig he
    have hrun : Work.Yields ((Task.run o).perform execute) d (.error (.config e)) _ :=
      .bind_error (.note_bind (.bind_ok (hplan.mapError TaskError.plan) (.note_bind (.bind_error hload))))
    exact ⟨hrun.result, hrun.disk⟩

/-- **What a bad configuration stops**: every task that reads results, before anything is done, and a run of a
benchmark set when its plan has been carried out. -/
theorem perform_of_config_error (he : Config.read d p = .error e) (execute : Executor) :
    (∀ task : Task, task.config? = some p → (∀ o, task ≠ .run o) →
      (task.perform execute).on d = ⟨.error (.config e), d, []⟩) ∧
    ∀ o : RunOptions, o.trials.config = some p → ConfiguredLate execute o p d :=
  ⟨fun _ hconfig hrun => on_perform_of_config_error execute hrun hconfig he,
    fun _ hconfig => configuredLate execute hconfig d⟩

end

/-! ## A run without its configuration -/

/-- A disk with nothing on it. -/
def bareDisk : Disk := ⟨[], []⟩

/-- What is left on a disk by a tool that clears it and puts down a mark. -/
def markedDisk : Disk := ⟨[], [(["started"], .file ByteArray.empty false)]⟩

/-- The tool that does so. -/
def marking : Executor := fun _ _ _ => .ok ⟨markedDisk, some 0, 0⟩

/-- One run of each model of a benchmark set, with a configuration file that is not there. -/
def unconfigured : RunOptions where
  benchmarks := .mdp
  flags := .plain .blackbox
  output := ⟨"out"⟩
  workers := 1
  repetitions := some 1
  launcher := .direct "checker"
  trials := ⟨some ⟨"missing.json"⟩, false, false, false, false⟩

theorem read_unconfigured : Config.read bareDisk ⟨"missing.json"⟩ = .error (.unreadable .notFound) := by
  have hread : bareDisk.readText ⟨"missing.json"⟩ = .error .notFound := by decide +kernel
  rw [Config.read, hread]

/-- The configuration is missing: a summary is not begun, and a run is stopped late. -/
theorem perform_unconfigured :
    ((Task.summarize ⟨"results"⟩ none .precision unconfigured.trials).perform marking).on bareDisk =
        ⟨.error (.config (.unreadable .notFound)), bareDisk, []⟩ ∧
      ConfiguredLate marking unconfigured ⟨"missing.json"⟩ bareDisk :=
  have hbad := perform_of_config_error read_unconfigured marking
  ⟨hbad.1 _ rfl fun _ => nofun, hbad.2 unconfigured rfl⟩

/-- Not every task leaves the disk as it is if its configuration is missing: a run has started the tool. -/
theorem not_unchanged_of_config_error :
    ¬ ∀ (execute : Executor) (task : Task) (d : Disk) (p : Path) (e : Config.ConfigError),
      Config.read d p = .error e → task.config? = some p → ((task.perform execute).on d).disk = d := by
  intro h
  have hunchanged := h marking (.run unconfigured) bareDisk _ _ read_unconfigured rfl
  have hmarked : (((Task.run unconfigured).perform marking).on bareDisk).disk = markedDisk := by decide +kernel
  exact absurd (hmarked.symm.trans hunchanged) (by decide)

end Task

end CheckerTrials
