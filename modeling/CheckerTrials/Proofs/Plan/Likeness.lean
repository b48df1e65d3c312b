import CheckerTrials.Proofs.Plan.Footprint

/-!
# The same run on two disks

What a run does depends on its five files alone (`next_alike`, `finish_alike`), provided that the tool looks at
no more than its result and its log (`Executor.Confined`).  The content of one of the files, the duration, is
not looked at: it may differ from one run to the next (`next_clocked`).

* `Run.Alike`: two disks that are alike as far as a run can see.
* `Progress.Alike`: the same progress, but for how long the tool took.
-/

set_option autoImplicit false

namespace CheckerTrials

open Disk

/-! ## Tools that look at their files only -/

/-- On two disks a path leads to the same location, and the same stands there. -/
structure Disk.AgreeAt (d e : Disk) (p : Path) : Prop where
  /-- The location is the same. -/
  locate : e.locate p = d.locate p
  /-- What stands there is the same. -/
  get? : ∀ l, d.locate p = .ok l → d.get? l = e.get? l

/-- What the tool of a run does also depends on its result and its log alone: on disks that agree there, it
can be started or not for the same reason, it exits alike, and it leaves the same behind. -/
structure Executor.Confined (execute : Executor) (r : Run) : Prop extends execute.Orderly r where
  /-- It exits alike. -/
  exit : ∀ d e, e.home = d.home → d.AgreeAt e r.base → d.AgreeAt e r.artifact.log →
    (execute r.command r.artifact.log d).map Executed.exit =
      (execute r.command r.artifact.log e).map Executed.exit
  /-- It leaves the same in its files. -/
  leaves : ∀ d e, e.home = d.home → d.AgreeAt e r.base → d.AgreeAt e r.artifact.log →
    ∀ x y, execute r.command r.artifact.log d = .ok x → execute r.command r.artifact.log e = .ok y →
      ∀ l, d.locate r.base = .ok l ∨ d.locate r.artifact.log = .ok l → x.disk.get? l = y.disk.get? l

/-! ## Durations -/

/-- What has come of a program, but for how long it took. -/
def Executed.timeless (x : Executed) : Executed := { x with seconds := 0 }

/-- What an executor does, but for how long it takes. -/
def Executor.timeless (execute : Executor) : Executor :=
  fun command log d => (execute command log d).map Executed.timeless

/-- The same stage, but for how long the tool took. -/
inductive Stage.Alike : Stage → Stage → Prop
  /-- The command line is to be written. -/
  | setup : Alike .setup .setup
  /-- The log is to be opened. -/
  | log : Alike .log .log
  /-- The tool is to be started. -/
  | tool : Alike .tool .tool
  /-- The log is to be removed for the same reason. -/
  | withdrawal (cause : Cause) : Alike (.withdrawal cause) (.withdrawal cause)
  /-- The same exit code is to be written. -/
  | status (exit : Option Nat) (s t : Float) : Alike (.status exit s) (.status exit t)
  /-- A duration is to be written. -/
  | time (exit : Option Nat) (s t : Float) : Alike (.time exit s) (.time exit t)

/-- The same progress, but for how long the tool took. -/
inductive Progress.Alike : Progress → Progress → Prop
  /-- The same is next. -/
  | reached {s t : Stage} (h : s.Alike t) : Alike (.reached s) (.reached t)
  /-- The run has ended in the same way. -/
  | ended (result : Except Cause (Option Nat)) : Alike (.ended result) (.ended result)

theorem Stage.Alike.refl (s : Stage) : s.Alike s := by
  cases s <;> constructor

theorem Progress.Alike.refl (p : Progress) : p.Alike p := by
  cases p with
  | reached s => exact .reached (.refl s)
  | ended result => exact .ended result

namespace Run

/-! ## Disks that are alike -/

/-- Two disks are alike as far as a run can see. -/
structure Alike (r : Run) (d₁ d e : Disk) : Prop where
  /-- The one grew from the common disk. -/
  left : d₁.Grows d
  /-- So did the other. -/
  right : d₁.Grows e
  /-- The same files, with the same content. -/
  file : ∀ s ∈ suffixes, s ≠ timeSuffix → ∀ l, r.place d₁ s = .ok l → d.get? l = e.get? l
  /-- A duration on both of them or on none. -/
  time : ∀ l, r.place d₁ timeSuffix = .ok l →
    (d.get? l).map Entry.shape = (e.get? l).map Entry.shape

theorem Alike.refl {r : Run} {d₁ d : Disk} (h : d₁.Grows d) : r.Alike d₁ d d :=
  ⟨h, h, fun _ _ _ _ _ => rfl, fun _ _ => rfl⟩

theorem Alike.symm {r : Run} {d₁ d e : Disk} (h : r.Alike d₁ d e) : r.Alike d₁ e d :=
  ⟨h.right, h.left, fun s hs ht l hl => (h.file s hs ht l hl).symm, fun l hl => (h.time l hl).symm⟩

theorem Alike.trans {r : Run} {d₁ d e f : Disk} (h : r.Alike d₁ d e) (h' : r.Alike d₁ e f) :
    r.Alike d₁ d f :=
  ⟨h.left, h'.right, fun s hs ht l hl => (h.file s hs ht l hl).trans (h'.file s hs ht l hl),
    fun l hl => (h.time l hl).trans (h'.time l hl)⟩

/-- Disks that differ nowhere where the run has a file are alike. -/
theorem Alike.of_get?_eq {r : Run} {d₁ d e : Disk} (hd : d₁.Grows d) (he : d₁.Grows e)
    (h : ∀ l, r.Owns d₁ l → d.get? l = e.get? l) : r.Alike d₁ d e :=
  ⟨hd, he, fun s hs _ l hl => h l ⟨s, hs, hl⟩,
    fun l hl => congrArg _ (h l ⟨timeSuffix, by decide, hl⟩)⟩

/-! ## The same step on two disks -/

/-- Alike disks stay alike when the same is put into the same file of the run. -/
theorem Alike.set {r : Run} {d₁ d e : Disk} (hr : r.Sited d₁) (h : r.Alike d₁ d e) {s : String}
    (hs : s ∈ suffixes) {l : Location} (hl : r.place d₁ s = .ok l) (hd : d.get? l ≠ some .folder)
    (he : e.get? l ≠ some .folder) {o o' : Option Entry} (hfile : s ≠ timeSuffix → o = o')
    (htime : o.map Entry.shape = o'.map Entry.shape) :
    r.Alike d₁ (d.set l o) (e.set l o') := by
  have hne := ne_nil_of_get?_ne hd
  refine ⟨h.left.trans (Grows.set hd o), h.right.trans (Grows.set he o'), ?_, ?_⟩
  · intro t ht htt m hm
    by_cases hml : m = l
    · subst hml
      have hst : s ≠ timeSuffix := by
        rintro rfl
        exact hr.place_ne t ht timeSuffix (by decide) htt m hm hl
      rw [get?_set_self d hne, get?_set_self e hne, hfile hst]
    · rw [get?_set_of_ne d hml, get?_set_of_ne e hml]
      exact h.file t ht htt m hm
  · intro m hm
    by_cases hml : m = l
    · subst hml
      rw [get?_set_self d hne, get?_set_self e hne, htime]
    · rw [get?_set_of_ne d hml, get?_set_of_ne e hml]
      exact h.time m hm

/-- Alike disks stay alike in an edit that does the same to both of them. -/
theorem Alike.edit {r : Run} {d₁ d e : Disk} (hr : r.Sited d₁) (h : r.Alike d₁ d e) {s : String}
    (hs : s ∈ suffixes) {f g : Option Entry → Except Cause (Option Entry)} (hf : SparesFolders f)
    (hg : SparesFolders g)
    (hfile : s ≠ timeSuffix → ∀ l, r.place d₁ s = .ok l → f (d.get? l) = g (e.get? l))
    (htime : ∀ l, r.place d₁ s = .ok l →
      (f (d.get? l)).map (Option.map Entry.shape) = (g (e.get? l)).map (Option.map Entry.shape)) :
    (d.outcome (d.edit (r.base.withSuffix s) f)).1 = (e.outcome (e.edit (r.base.withSuffix s) g)).1 ∧
      r.Alike d₁ (d.outcome (d.edit (r.base.withSuffix s) f)).2
        (e.outcome (e.edit (r.base.withSuffix s) g)).2 := by
  have hd : d.locate (r.base.withSuffix s) = r.place d₁ s := hr.place_eq d h.left s hs
  have he : e.locate (r.base.withSuffix s) = r.place d₁ s := hr.place_eq e h.right s hs
  rw [Disk.edit, Disk.edit, hd, he]
  cases hl : r.place d₁ s with
  | error cause => exact ⟨rfl, h⟩
  | ok l =>
    rw [bind_ok, bind_ok]
    have hshape := htime l hl
    cases hfo : f (d.get? l) with
    | error cause =>
      cases hgo : g (e.get? l) with
      | error cause' =>
        rw [hfo, hgo] at hshape
        cases hshape
        exact ⟨rfl, h⟩
      | ok o' =>
        rw [hfo, hgo] at hshape
        cases hshape
    | ok o =>
      cases hgo : g (e.get? l) with
      | error cause' =>
        rw [hfo, hgo] at hshape
        cases hshape
      | ok o' =>
        rw [hfo, hgo] at hshape
        refine ⟨rfl, h.set hr hs hl (hf.ne_folder hfo) (hg.ne_folder hgo) ?_ ?_⟩
        · intro hst
          have hsame := hfile hst l hl
          rw [hfo, hgo] at hsame
          exact Except.ok.inj hsame
        · exact Except.ok.inj hshape

/-- The same edit of a file that is not the duration. -/
theorem Alike.edit_same {r : Run} {d₁ d e : Disk} (hr : r.Sited d₁) (h : r.Alike d₁ d e) {s : String}
    (hs : s ∈ suffixes) (hst : s ≠ timeSuffix) {f : Option Entry → Except Cause (Option Entry)}
    (hf : SparesFolders f) :
    (d.outcome (d.edit (r.base.withSuffix s) f)).1 = (e.outcome (e.edit (r.base.withSuffix s) f)).1 ∧
      r.Alike d₁ (d.outcome (d.edit (r.base.withSuffix s) f)).2
        (e.outcome (e.edit (r.base.withSuffix s) f)).2 := by
  have hsame : ∀ l, r.place d₁ s = .ok l → f (d.get? l) = f (e.get? l) :=
    fun l hl => congrArg f (h.file s hs hst l hl)
  exact h.edit hr hs hf hf (fun _ => hsame) fun l hl => by rw [hsame l hl]

/-- Whether a file can be written depends on the shape of what stands there. -/
theorem map_shape_overwrite {o o' : Option Entry} (h : o.map Entry.shape = o'.map Entry.shape) (p : Path)
    (content content' : ByteArray) :
    (overwrite p content o).map (Option.map Entry.shape) =
      (overwrite p content' o').map (Option.map Entry.shape) := by
  match o, o' with
  | none, none =>
    simp only [overwrite]
    split <;> rfl
  | none, some _ => cases h
  | some _, none => cases h
  | some .folder, some .folder => rfl
  | some .folder, some (.file _ _) => cases h
  | some (.file _ _), some .folder => cases h
  | some (.file _ _), some (.file _ _) =>
    cases h
    simp only [overwrite]
    split <;> rfl

/-- Progress after actions with the same outcome. -/
theorem alike_after {d e : Disk} {a b : Except Cause Disk} (h : (d.outcome a).1 = (e.outcome b).1)
    {onward onward' : Progress} (ho : onward.Alike onward') :
    (after d a onward).1.Alike (after e b onward').1 := by
  cases a with
  | error cause =>
    cases b with
    | error cause' =>
      cases h
      exact .ended _
    | ok e' => cases h
  | ok d' =>
    cases b with
    | error cause' => cases h
    | ok e' => exact ho

/-- What the tool does on alike disks. -/
theorem alike_tool {execute : Executor} {r : Run} (hc : execute.Confined r) {d₁ d e : Disk}
    (hr : r.Sited d₁) (h : r.Alike d₁ d e) :
    (next execute r d .tool).value.1.Alike (next execute r e .tool).value.1 ∧
      r.Alike d₁ (next execute r d .tool).value.2 (next execute r e .tool).value.2 := by
  have hplace : ∀ s ∈ suffixes, r.place d s = r.place d₁ s ∧ r.place e s = r.place d₁ s :=
    fun s hs => ⟨hr.place_eq d h.left s hs, hr.place_eq e h.right s hs⟩
  have hagree : ∀ s ∈ suffixes, s ≠ timeSuffix → d.AgreeAt e (r.base.withSuffix s) := by
    intro s hs hst
    obtain ⟨hd, he⟩ := hplace s hs
    exact ⟨he.trans hd.symm, fun l hl => h.file s hs hst l (hd.symm.trans hl)⟩
  have hhome : e.home = d.home := h.right.home.trans h.left.home.symm
  have hresult : d.AgreeAt e r.base := by
    have hempty := hagree "" (by decide) (by decide)
    rwa [Path.withSuffix, String.append_empty] at hempty
  have hlog : d.AgreeAt e r.artifact.log := hagree logSuffix (by decide) (by decide)
  have hexit := hc.exit d e hhome hresult hlog
  cases hd : execute r.command r.artifact.log d with
  | error cause =>
    rw [hd] at hexit
    cases he : execute r.command r.artifact.log e with
    | ok y =>
      rw [he] at hexit
      cases hexit
    | error cause' =>
      rw [he] at hexit
      cases hexit
      rw [next_tool_error hd, next_tool_error he]
      exact ⟨.reached (.withdrawal cause), h⟩
  | ok x =>
    rw [hd] at hexit
    cases he : execute r.command r.artifact.log e with
    | error cause' =>
      rw [he] at hexit
      cases hexit
    | ok y =>
      rw [he] at hexit
      have hcode : x.exit = y.exit := Except.ok.inj hexit
      have hsame := hc.leaves d e hhome hresult hlog x y hd he
      rw [next_tool_ok hd, next_tool_ok he, hcode]
      -- either a location is one of the tool's, or the tool has left it alone on both disks
      have hcases : ∀ l, x.disk.get? l = y.disk.get? l ∨
          x.disk.get? l = d.get? l ∧ y.disk.get? l = e.get? l := by
        intro l
        by_cases hl : d.locate r.base = .ok l ∨ d.locate r.artifact.log = .ok l
        · exact .inl (hsame l hl)
        · rw [not_or] at hl
          refine .inr ⟨hc.frame d x hd l hl.1 hl.2, hc.frame e y he l ?_ ?_⟩
          · rw [hresult.locate]
            exact hl.1
          · rw [hlog.locate]
            exact hl.2
      refine ⟨.reached (.status _ _ _), h.left.trans (hc.grows d x hd),
        h.right.trans (hc.grows e y he), fun s hs hst l hl => ?_, fun l hl => ?_⟩
      · rcases hcases l with heq | ⟨hx, hy⟩
        · exact heq
        · rw [hx, hy]
          exact h.file s hs hst l hl
      · rcases hcases l with heq | ⟨hx, hy⟩
        · rw [heq]
        · rw [hx, hy]
          exact h.time l hl

/-- **A step does the same on alike disks.** -/
theorem next_alike {execute : Executor} {r : Run} (hc : execute.Confined r) {d₁ d e : Disk}
    (hr : r.Sited d₁) (h : r.Alike d₁ d e) {s t : Stage} (hst : s.Alike t) :
    (next execute r d s).value.1.Alike (next execute r e t).value.1 ∧
      r.Alike d₁ (next execute r d s).value.2 (next execute r e t).value.2 := by
  cases hst with
  | setup =>
    obtain ⟨hresult, hdisk⟩ := h.edit_same hr (s := setupSuffix) (by decide) (by decide)
      (sparesFolders_overwrite (r.base.withSuffix setupSuffix) r.setupText.toUTF8)
    rw [next_setup, next_setup, snd_after, snd_after]
    exact ⟨alike_after hresult (.reached .log), hdisk⟩
  | log =>
    obtain ⟨hresult, hdisk⟩ := h.edit_same hr (s := logSuffix) (by decide) (by decide)
      (sparesFolders_overwrite (r.base.withSuffix logSuffix) "".toUTF8)
    rw [next_log, next_log, snd_after, snd_after]
    exact ⟨alike_after hresult (.reached .tool), hdisk⟩
  | tool => exact alike_tool hc hr h
  | withdrawal cause =>
    obtain ⟨-, hdisk⟩ := h.edit_same hr (s := logSuffix) (by decide) (by decide)
      (sparesFolders_takeAway (r.base.withSuffix logSuffix))
    rw [next_withdrawal, next_withdrawal]
    exact ⟨.ended _, hdisk⟩
  | status exit u v =>
    obtain ⟨hresult, hdisk⟩ := h.edit_same hr (s := statusSuffix) (by decide) (by decide)
      (sparesFolders_overwrite (r.base.withSuffix statusSuffix) (statusText exit).toUTF8)
    rw [next_status, next_status, snd_after, snd_after]
    exact ⟨alike_after hresult (.reached (.time exit u v)), hdisk⟩
  | time exit u v =>
    obtain ⟨hresult, hdisk⟩ := h.edit hr (s := timeSuffix) (by decide)
      (sparesFolders_overwrite (r.base.withSuffix timeSuffix) (Decimal.plain u ++ "\n").toUTF8)
      (sparesFolders_overwrite (r.base.withSuffix timeSuffix) (Decimal.plain v ++ "\n").toUTF8)
      (fun hne => absurd rfl hne) fun l hl => map_shape_overwrite (h.time l hl) _ _ _
    rw [next_time, next_time, snd_after, snd_after]
    exact ⟨alike_after hresult (.ended _), hdisk⟩

/-! ## The same run to its end -/

/-- **A run does the same on alike disks** from the same stage to its end. -/
theorem finish_alike {execute : Executor} {r : Run} (hc : execute.Confined r) {d₁ : Disk}
    (hr : r.Sited d₁) (n : Nat) : ∀ {d e : Disk} {s t : Stage}, s.stepsLeft ≤ n → r.Alike d₁ d e →
      s.Alike t → (finish execute r s d).value.1 = (finish execute r t e).value.1 ∧
        r.Alike d₁ (finish execute r s d).value.2 (finish execute r t e).value.2 := by
  induction n with
  | zero =>
    intro d e s t hs
    cases s <;> simp [Stage.stepsLeft] at hs
  | succ n ih =>
    intro d e s t hs h hst
    obtain ⟨hprogress, hdisk⟩ := next_alike hc hr h hst
    rw [value_finish, value_finish]
    cases hd : (next execute r d s).value with
    | mk p d' =>
      cases he : (next execute r e t).value with
      | mk q e' =>
        rw [hd, he] at hprogress hdisk
        cases hprogress with
        | ended result => exact ⟨rfl, hdisk⟩
        | @reached s' t' hst' =>
          have hless : s'.stepsLeft < s.stepsLeft :=
            stepsLeft_lt_of_next (congrArg Prod.fst hd)
          exact ih (by omega) hdisk hst'

/-- The end of a run is the same for alike progress on alike disks. -/
theorem conclude_alike {execute : Executor} {r : Run} (hc : execute.Confined r) {d₁ d e : Disk}
    (hr : r.Sited d₁) (h : r.Alike d₁ d e) {p q : Progress} (hpq : p.Alike q) :
    (conclude execute r (p, d)).1 = (conclude execute r (q, e)).1 ∧
      r.Alike d₁ (conclude execute r (p, d)).2 (conclude execute r (q, e)).2 := by
  cases hpq with
  | ended result => exact ⟨rfl, h⟩
  | reached hst => exact finish_alike hc hr _ (Nat.le_refl _) h hst

/-! ## Steps that take another time -/

/-- **What a step does** does not depend on how long the tool takes, but for the duration. -/
theorem next_clocked {execute clocked : Executor} (h : clocked.timeless = execute.timeless) (r : Run)
    (d : Disk) (stage : Stage) :
    (next clocked r d stage).value.1.Alike (next execute r d stage).value.1 ∧
      (next clocked r d stage).value.2 = (next execute r d stage).value.2 := by
  cases stage with
  | setup =>
    rw [next_setup, next_setup]
    exact ⟨.refl _, rfl⟩
  | log =>
    rw [next_log, next_log]
    exact ⟨.refl _, rfl⟩
  | withdrawal cause =>
    rw [next_withdrawal, next_withdrawal]
    exact ⟨.refl _, rfl⟩
  | status exit seconds =>
    rw [next_status, next_status]
    exact ⟨.refl _, rfl⟩
  | time exit seconds =>
    rw [next_time, next_time]
    exact ⟨.refl _, rfl⟩
  | tool =>
    have htimeless : (clocked r.command r.artifact.log d).map Executed.timeless =
        (execute r.command r.artifact.log d).map Executed.timeless :=
      congrFun (congrFun (congrFun h r.command) r.artifact.log) d
    cases hx : execute r.command r.artifact.log d with
    | error cause =>
      cases hy : clocked r.command r.artifact.log d with
      | error cause' =>
        rw [hx, hy] at htimeless
        cases htimeless
        rw [next_tool_error hx, next_tool_error hy]
        exact ⟨.refl _, rfl⟩
      | ok y =>
        rw [hx, hy] at htimeless
        cases htimeless
    | ok x =>
      cases hy : clocked r.command r.artifact.log d with
      | error cause' =>
        rw [hx, hy] at htimeless
        cases htimeless
      | ok y =>
        rw [hx, hy] at htimeless
        have hsame : y.timeless = x.timeless := Except.ok.inj htimeless
        have hexit : y.timeless.exit = x.timeless.exit := congrArg Executed.exit hsame
        have hdisk : y.timeless.disk = x.timeless.disk := congrArg Executed.disk hsame
        simp only [Executed.timeless] at hexit hdisk
        rw [next_tool_ok hx, next_tool_ok hy, hexit, hdisk]
        exact ⟨.reached (.status _ _ _), rfl⟩

end Run
end CheckerTrials
