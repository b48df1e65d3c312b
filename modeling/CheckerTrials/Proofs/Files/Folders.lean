import CheckerTrials.Proofs.Files.Edit

/-!
# Creating folders

`Disk.createFolders` goes to some length to make sure that a path leads to a folder.  Whatever it does on the
way, it adds folders where nothing was and leaves everything else alone (`gains_createFolders`), and when it
reports success the path does lead to a folder (`leads_createFolders`).
-/

set_option autoImplicit false

namespace CheckerTrials
namespace Disk

/-- The disk `e` is the disk `d` with more folders in it. -/
structure Gains (d e : Disk) : Prop where
  /-- The working folder is the same. -/
  home : e.home = d.home
  /-- Nothing is changed, but where nothing was there may be a folder. -/
  entry : ∀ l, e.get? l = d.get? l ∨ d.get? l = none ∧ e.get? l = some .folder
  /-- The new folders are in their place. -/
  wellFormed : d.WellFormed → e.WellFormed

theorem Gains.refl (d : Disk) : d.Gains d := ⟨rfl, fun _ => .inl rfl, id⟩

theorem Gains.trans {d e f : Disk} (h : d.Gains e) (h' : e.Gains f) : d.Gains f := by
  refine ⟨h'.home.trans h.home, fun l => ?_, fun hd => h'.wellFormed (h.wellFormed hd)⟩
  rcases h'.entry l with hf | ⟨he, hf⟩
  · rcases h.entry l with he | ⟨hd, he⟩
    · exact .inl (hf.trans he)
    · exact .inr ⟨hd, hf.trans he⟩
  · rcases h.entry l with hd | ⟨-, hfolder⟩
    · exact .inr ⟨hd ▸ he, hf⟩
    · rw [he] at hfolder
      cases hfolder

/-- A disk that gains folders loses none. -/
theorem Gains.grows {d e : Disk} (h : d.Gains e) : d.Grows e := by
  refine ⟨h.home, fun l hl => ?_⟩
  rcases h.entry l with he | ⟨hd, -⟩
  · exact he.trans hl
  · rw [hl] at hd
    cases hd

/-- Steps lead to a folder. -/
def Leads (d : Disk) (start : Location) (steps : List String) : Prop :=
  ∃ l, d.walk start steps = .ok l ∧ d.get? l = some .folder

theorem Leads.grows {d e : Disk} (h : d.Grows e) {start : Location} {steps : List String}
    (hs : d.Leads start steps) : e.Leads start steps := by
  obtain ⟨l, hw, hl⟩ := hs
  exact ⟨l, walk_of_grows h hw, h.folder l hl⟩

/-- The two locations that paths start at. -/
def IsStart (d : Disk) (start : Location) : Prop := start = [] ∨ start = d.home

theorem IsStart.gains {d e : Disk} (h : d.Gains e) {start : Location} (hs : d.IsStart start) :
    e.IsStart start := by
  rw [IsStart, h.home]
  exact hs

theorem WellFormed.isPlace_of_isStart {d : Disk} (hd : d.WellFormed) {start : Location}
    (hs : d.IsStart start) : d.IsPlace start := by
  rcases hs with rfl | rfl
  · exact ⟨rfl, fun name hname => absurd hname List.not_mem_nil⟩
  · exact hd.isPlace_of_folder hd.home

/-! ## One folder -/

theorem ensureFolder_ok {d e : Disk} {start : Location} {steps : List String} (hs : d.IsStart start)
    (hsteps : ∀ step ∈ steps, Path.IsStep step.toList) (h : d.ensureFolder start steps = .ok e) :
    d.Gains e ∧ e.Leads start steps := by
  rw [ensureFolder, bind_eq_ok_iff] at h
  obtain ⟨l, hw, h⟩ := h
  split at h
  · rename_i hl
    cases h
    exact ⟨.refl d, l, hw, hl⟩
  · cases h
  · rename_i hl
    cases h
    have hl' : d.get? l ≠ some .folder := by simp [hl]
    have hgrows : d.Grows (d.put l .folder) := Grows.set hl' (some .folder)
    have hself := get?_put_self d (ne_nil_of_get?_ne hl') .folder
    refine ⟨⟨rfl, fun m => ?_, fun hd => ?_⟩, l, walk_of_grows hgrows hw, hself⟩
    · by_cases hm : m = l
      · exact .inr ⟨hm ▸ hl, hm ▸ hself⟩
      · exact .inl (get?_put_of_ne d hm .folder)
    · exact hd.set (hd.isPlace_of_walk (hd.isPlace_of_isStart hs) hsteps hw) hl' (some .folder)

/-- The outcome of making one folder. -/
theorem gains_outcome {d : Disk} {start : Location} {steps : List String} (hs : d.IsStart start)
    (hsteps : ∀ step ∈ steps, Path.IsStep step.toList) :
    d.Gains (d.outcome (d.ensureFolder start steps)).2 ∧
      ((d.outcome (d.ensureFolder start steps)).1 = .ok () →
        (d.outcome (d.ensureFolder start steps)).2.Leads start steps) := by
  cases h : d.ensureFolder start steps with
  | error cause => exact ⟨.refl d, nofun⟩
  | ok e => exact ⟨(ensureFolder_ok hs hsteps h).1, fun _ => (ensureFolder_ok hs hsteps h).2⟩

/-- What is done before a second attempt may add folders, too. -/
theorem gains_ensureAfter {d : Disk} {start : Location} {steps : List String}
    {prepare : Disk → Except Cause Unit × Disk} (hs : d.IsStart start)
    (hsteps : ∀ step ∈ steps, Path.IsStep step.toList) (hprepare : d.Gains (prepare d).2) :
    d.Gains (d.ensureAfter start steps prepare).2 ∧
      ((d.ensureAfter start steps prepare).1 = .ok () →
        (d.ensureAfter start steps prepare).2.Leads start steps) := by
  rw [ensureAfter]
  split
  · split
    · rename_i e he
      rw [he] at hprepare
      obtain ⟨hgains, hleads⟩ := gains_outcome (hs.gains hprepare) hsteps
      exact ⟨hprepare.trans hgains, hleads⟩
    · rename_i hfailed
      refine ⟨hprepare, fun hok => ?_⟩
      exact (hfailed (prepare d).2 (Prod.ext hok rfl)).elim
  · exact gains_outcome hs hsteps

/-! ## All folders on the way -/

theorem gains_createSteps (d : Disk) {start : Location} {steps : List String} (hs : d.IsStart start)
    (hsteps : ∀ step ∈ steps, Path.IsStep step.toList) : d.Gains (d.createSteps start steps).2 := by
  induction steps with
  | nil => exact .refl d
  | cons last before ih =>
    have hbefore := ih fun step hstep => hsteps step (List.mem_cons_of_mem last hstep)
    exact (gains_ensureAfter hs (fun step hstep => hsteps step (List.mem_reverse.1 hstep)) hbefore).1

theorem isStart_startOf (d : Disk) (p : Path) : d.IsStart (d.startOf p) := by
  rw [startOf]
  split
  · exact .inl rfl
  · exact .inr rfl

/-- The two attempts of `createFolders`, with the folders on the way in between. -/
theorem gains_attempts (d : Disk) (p : Path) :
    let made := d.ensureAfter (d.startOf p) p.steps fun d =>
      d.createSteps (d.startOf p) ((p.steps.filter (· ≠ ".")).reverse.drop 1)
    d.Gains made.2 ∧ (made.1 = .ok () → made.2.Leads (d.startOf p) p.steps) := by
  have hstart := isStart_startOf d p
  refine gains_ensureAfter hstart (fun step hstep => Path.isStep_of_mem_stepsOf hstep)
    (gains_createSteps d hstart fun step hstep => ?_)
  have hfilter := List.mem_reverse.1 (List.mem_of_mem_drop hstep)
  exact Path.isStep_of_mem_stepsOf (List.mem_filter.1 hfilter).1

/-- **Creating folders adds folders** and changes nothing else, whether it succeeds or not. -/
theorem gains_createFolders (d : Disk) (p : Path) : d.Gains (d.createFolders p).2 := by
  rw [createFolders]
  split
  · exact .refl d
  · split
    · exact .refl d
    · exact (gains_attempts d p).1

/-- **What has been created is there**, and its path can be used. -/
theorem leads_createFolders {d : Disk} {p : Path} (h : (d.createFolders p).1 = .ok ()) :
    p.IsUsable ∧ (d.createFolders p).2.Leads (d.startOf p) p.steps := by
  rw [createFolders] at h ⊢
  split
  · rename_i hnul
    rw [if_pos hnul] at h
    cases h
  · rename_i hnul
    rw [if_neg hnul] at h
    split
    · rename_i hlong
      rw [if_pos hlong] at h
      cases h
    · rename_i hlong
      rw [if_neg hlong] at h
      exact ⟨⟨hnul, hlong⟩, (gains_attempts d p).2 h⟩

end Disk

end CheckerTrials
