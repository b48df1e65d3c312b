import CheckerTrials.Proofs.Plan.Places

/-!
# Tools that write their result

The least that is expected of a tool is that it writes its result, or nothing at all.  Whatever it writes and
whatever that depends on, such a tool is orderly (`WritesResult.orderly`).  If what it writes depends on its
command line alone, it is also confined to its files (`confined_writer`).
-/

set_option autoImplicit false

namespace CheckerTrials

open Disk

namespace Executor

/-- The tool of a run writes something to its result, or nothing at all. -/
def WritesResult (execute : Executor) (r : Run) : Prop :=
  ∀ d done, execute r.command r.artifact.log d = .ok done →
    done.disk = d ∨ ∃ content, d.writeBytes r.base content = .ok done.disk

/-- **A tool that writes its result** is orderly. -/
theorem WritesResult.orderly {execute : Executor} {r : Run} (h : execute.WritesResult r) :
    execute.Orderly r := by
  -- the disk is as it was, or its location of the result has changed
  have hcases : ∀ d done, execute r.command r.artifact.log d = .ok done → done.disk = d ∨
      ∃ content, d.edit r.base (overwrite r.base content) = .ok done.disk := by
    intro d done hdone
    rcases h d done hdone with hsame | ⟨content, hwrite⟩
    · exact .inl hsame
    · rw [writeBytes_eq] at hwrite
      exact .inr ⟨content, hwrite⟩
  refine ⟨fun d done hdone => ?_, fun d done hdone l hl _ => ?_, fun d done hdone hd => ?_⟩
  · rcases hcases d done hdone with hsame | ⟨content, hedit⟩
    · rw [hsame]
      exact .refl d
    · exact grows_edit (sparesFolders_overwrite _ _) hedit
  · rcases hcases d done hdone with hsame | ⟨content, hedit⟩
    · rw [hsame]
    · obtain ⟨m, o, hm, -, hset⟩ := edit_eq_ok_iff.1 hedit
      rw [hset]
      refine get?_set_of_ne d ?_ o
      rintro rfl
      exact hl hm
  · rcases hcases d done hdone with hsame | ⟨content, hedit⟩
    · rw [hsame]
      exact hd
    · exact hd.edit (sparesFolders_overwrite _ _) hedit

/-- A tool whose command line decides what it writes to the path that its last argument names, whether it
writes anything, and whether it can be started at all.  Its exit code tells whether it could write. -/
def writer (behaviour : Command → Except Cause (Option ByteArray)) : Executor := fun command _ d =>
  match behaviour command with
  | .error cause => .error cause
  | .ok none => .ok { disk := d, exit := some 0, seconds := 1 }
  | .ok (some content) =>
    match d.writeBytes ⟨command.arguments.getLastD ""⟩ content with
    | .ok e => .ok { disk := e, exit := some 0, seconds := 1 }
    | .error _ => .ok { disk := d, exit := some 1, seconds := 1 }

variable {behaviour : Command → Except Cause (Option ByteArray)} {r : Run}

theorem writesResult_writer (hlast : r.command.arguments.getLastD "" = r.base.text) :
    (writer behaviour).WritesResult r := by
  have hpath : (⟨r.command.arguments.getLastD ""⟩ : Path) = r.base := congrArg Path.mk hlast
  intro d done hdone
  rw [writer, hpath] at hdone
  split at hdone
  · cases hdone
  · cases hdone
    exact .inl rfl
  · rename_i content _
    split at hdone
    · rename_i e he
      cases hdone
      exact .inr ⟨content, he⟩
    · cases hdone
      exact .inl rfl

/-- On disks that agree about the result, the same is put there or nothing is. -/
theorem writeBytes_agree {d e : Disk} {p : Path} (h : d.AgreeAt e p) (content : ByteArray) :
    (∃ cause, d.writeBytes p content = .error cause ∧ e.writeBytes p content = .error cause) ∨
    ∃ l o, l ≠ [] ∧ d.writeBytes p content = .ok (d.set l o) ∧
      e.writeBytes p content = .ok (e.set l o) := by
  rw [writeBytes_eq, writeBytes_eq, edit, edit, h.locate]
  cases hl : d.locate p with
  | error cause => exact .inl ⟨cause, rfl, rfl⟩
  | ok l =>
    rw [bind_ok, bind_ok, ← h.get? l hl]
    cases ho : overwrite p content (d.get? l) with
    | error cause => exact .inl ⟨cause, rfl, rfl⟩
    | ok o =>
      have hne := ne_nil_of_get?_ne ((sparesFolders_overwrite p content).ne_folder ho)
      exact .inr ⟨l, o, hne, rfl, rfl⟩

/-- **A tool that writes what its command line says** is confined to its files. -/
theorem confined_writer (hlast : r.command.arguments.getLastD "" = r.base.text) :
    (writer behaviour).Confined r := by
  have hpath : (⟨r.command.arguments.getLastD ""⟩ : Path) = r.base := congrArg Path.mk hlast
  refine ⟨(writesResult_writer hlast).orderly, fun d e _ hbase _ => ?_,
    fun d e _ hbase hlog x y hx hy l hl => ?_⟩
  · rw [writer, writer, hpath]
    split
    · rfl
    · rfl
    · rename_i content _
      rcases writeBytes_agree hbase content with ⟨cause, hd, he⟩ | ⟨l, o, -, hd, he⟩
      · rw [hd, he]
        rfl
      · rw [hd, he]
        rfl
  · have hsame : d.get? l = e.get? l := hl.elim (hbase.get? l) (hlog.get? l)
    rw [writer, hpath] at hx hy
    cases hbehaviour : behaviour r.command with
    | error cause =>
      rw [hbehaviour] at hx
      cases hx
    | ok written =>
      rw [hbehaviour] at hx hy
      cases written with
      | none =>
        cases hx
        cases hy
        exact hsame
      | some content =>
        rcases writeBytes_agree hbase content with ⟨cause, hd, he⟩ | ⟨m, o, hne, hd, he⟩
        · simp only [hd] at hx
          simp only [he] at hy
          cases hx
          cases hy
          exact hsame
        · simp only [hd] at hx
          simp only [he] at hy
          cases hx
          cases hy
          by_cases hlm : l = m
          · subst hlm
            rw [get?_set_self d hne, get?_set_self e hne]
          · rw [get?_set_of_ne d hlm, get?_set_of_ne e hlm]
            exact hsame

end Executor

/-- The last argument of a run that is started directly is where its result goes. -/
theorem getLastD_command (program : String) (output : Path) (home : Location) (j : Job) :
    (j.run (.direct program) output home).command.arguments.getLastD "" =
      (j.run (.direct program) output home).base.text := by
  simp [Job.run, Run.of, Launcher.command, Launcher.direct]

/-! ## A small plan -/

/-- A disk with nothing on it. -/
def emptyDisk : Disk where
  home := []
  entries := []

theorem wellFormed_emptyDisk : emptyDisk.WellFormed := ⟨.nil, nofun, nofun, rfl⟩

/-- A plan with two jobs in each of its iterations. -/
def samplePlan (iterations : Nat) : Plan where
  descriptors := [.plain "models/toy.prism" 1 0.5]
  flags := { Flags.plain .blackbox with method := some .both }
  iterations := iterations
  output := ⟨"out"⟩

/-- A tool that is started for one of the two jobs of an iteration only, and writes no result then. -/
def sampleTool : Executor := .writer fun command =>
  if command.arguments.contains "GREYBOX" then .ok (some "0 1".toUTF8) else .error .notFound

theorem confined_sampleTool (p : Plan) (home : Location) :
    ∀ r ∈ p.jobs.map (Job.run (.direct "checker") p.output home), sampleTool.Confined r := by
  intro r hr
  obtain ⟨j, -, rfl⟩ := List.mem_map.1 hr
  exact Executor.confined_writer (getLastD_command _ _ _ j)

end CheckerTrials
