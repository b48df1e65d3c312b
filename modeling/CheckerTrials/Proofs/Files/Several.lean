import CheckerTrials.Proofs.Files.Filling

/-!
# Writing several files

Texts are written into a folder one after the other, each under its name (`Disk.writeAll`).  Whether one of them can
be written depends on its name and on where folders are (`Disk.Receives`), and no file that was written before changes
that.  So all of them are written exactly if the folder receives each one (`Disk.exists_writeAll_iff`).  Then nothing
else is changed (`Disk.filled_writeAll`), and under every name is the last of the texts for it
(`Disk.last_of_writeAll`).
-/

set_option autoImplicit false

namespace CheckerTrials.Disk

variable {d e : Disk} {p : Path} {l : Location} {name : String}

/-! ## A place for a file -/

/-- The folder of a path, which is at `l`, has a place for a file of some name. -/
structure Receives (d : Disk) (p : Path) (l : Location) (name : String) : Prop where
  /-- The path can be passed to the system. -/
  usable : (p.join name).IsUsable
  /-- The name is not too long. -/
  short : name.utf8ByteSize ≤ 255
  /-- No folder has the name. -/
  free : d.get? (l ++ [name]) ≠ some .folder

/-- **A file can be written** exactly if there is a place for it. -/
theorem exists_writeText_iff (hat : d.FolderAt p l) (hname : Path.NamesEntry name) (text : String) :
    (∃ e, d.writeText (p.join name) text = .ok e) ↔ d.Receives p l name := by
  simp only [writeText_eq, edit_eq_ok_iff]
  constructor
  · rintro ⟨e, m, o, hm, ho, rfl⟩
    obtain ⟨rfl, hshort⟩ := hat.eq_of_locate_join hname.isStep hname.points hm
    exact ⟨(locate_eq_ok_iff.1 hm).1, hshort, (sparesFolders_overwrite _ _).ne_folder ho⟩
  · rintro ⟨husable, hshort, hfree⟩
    have hwalk : d.walk (d.startOf (p.join name)) (p.join name).steps = .ok (l ++ [name]) := by
      rw [startOf_join d p hname.isStep, Path.steps_join_name p hname.isStep,
        walk_concat hat.walk hat.folder hname.points.1 hname.points.2, if_neg (Nat.not_lt.2 hshort)]
    have hlocate := locate_eq_ok_iff.2 ⟨husable, Path.join_ne_empty p hname.isStep, hwalk⟩
    obtain ⟨o, ho⟩ : ∃ o, overwrite (p.join name) text.toUTF8 (d.get? (l ++ [name])) = .ok o := by
      have hfile := Path.namesFolder_join p hname.isStep
      cases hget : d.get? (l ++ [name]) with
      | none => exact ⟨_, by rw [overwrite, if_neg (by simp [hfile])]⟩
      | some entry =>
        cases entry with
        | folder => exact absurd hget hfree
        | file content executable => exact ⟨_, by rw [overwrite, if_neg (by simp [hfile])]⟩
    exact ⟨_, _, o, hlocate, ho, rfl⟩

/-- Files that are written into the folder take no place away. -/
theorem Filled.receives_iff {names : List String} (h : d.Filled l names e) :
    e.Receives p l name ↔ d.Receives p l name := by
  have hfree := not_congr (h.get?_eq_folder_iff (l ++ [name]))
  exact ⟨fun hr => ⟨hr.usable, hr.short, hfree.1 hr.free⟩, fun hr => ⟨hr.usable, hr.short, hfree.2 hr.free⟩⟩

/-! ## One after the other -/

/-- Writes texts into a folder, each under its name. -/
def writeAll (p : Path) : List (String × String) → Disk → Except Cause Disk
  | [], d => .ok d
  | (name, text) :: rest, d => d.writeText (p.join name) text >>= writeAll p rest

variable {files : List (String × String)}

theorem writeAll_cons_eq_ok_iff {text : String} {rest : List (String × String)} {f : Disk} :
    d.writeAll p ((name, text) :: rest) = .ok f ↔
      ∃ e, d.writeText (p.join name) text = .ok e ∧ e.writeAll p rest = .ok f := by
  rw [writeAll, bind_eq_ok_iff]

/-- **Nothing else is changed** when texts are written. -/
theorem filled_writeAll (hat : d.FolderAt p l) (hnames : ∀ q ∈ files, Path.NamesEntry q.1)
    (h : d.writeAll p files = .ok e) : d.Filled l (files.map Prod.fst) e := by
  induction files generalizing d with
  | nil =>
    cases h
    exact .refl e l _
  | cons q rest ih =>
    obtain ⟨name, text⟩ := q
    obtain ⟨made, hwrite, hrest⟩ := writeAll_cons_eq_ok_iff.1 h
    have hfirst : d.Filled l [name] made := .of_writeText hat (hnames _ List.mem_cons_self) hwrite
    have hothers := ih (hat.grows hfirst.grows) (fun q hq => hnames q (List.mem_cons_of_mem _ hq)) hrest
    exact (hfirst.mono (by simp)).trans (hothers.mono (by simp))

/-- **All texts are written** exactly if there is a place for each of them. -/
theorem exists_writeAll_iff (hat : d.FolderAt p l) (hnames : ∀ q ∈ files, Path.NamesEntry q.1) :
    (∃ e, d.writeAll p files = .ok e) ↔ ∀ q ∈ files, d.Receives p l q.1 := by
  induction files generalizing d with
  | nil => exact ⟨fun _ _ hq => absurd hq List.not_mem_nil, fun _ => ⟨d, rfl⟩⟩
  | cons q rest ih =>
    obtain ⟨name, text⟩ := q
    have hname := hnames _ List.mem_cons_self
    have hrestNames : ∀ q ∈ rest, Path.NamesEntry q.1 := fun q hq => hnames q (List.mem_cons_of_mem _ hq)
    rw [List.forall_mem_cons, ← exists_writeText_iff hat hname text]
    simp only [writeAll_cons_eq_ok_iff]
    constructor
    · rintro ⟨f, e, hwrite, hrest⟩
      have hfirst : d.Filled l [name] e := .of_writeText hat hname hwrite
      have hall := (ih (hat.grows hfirst.grows) hrestNames).1 ⟨f, hrest⟩
      exact ⟨⟨e, hwrite⟩, fun q hq => hfirst.receives_iff.1 (hall q hq)⟩
    · rintro ⟨⟨e, hwrite⟩, hall⟩
      have hfirst : d.Filled l [name] e := .of_writeText hat hname hwrite
      obtain ⟨f, hrest⟩ :=
        (ih (hat.grows hfirst.grows) hrestNames).2 fun q hq => hfirst.receives_iff.2 (hall q hq)
      exact ⟨f, e, hwrite, hrest⟩

/-- **The last text stays.**  Under each name is the last of the texts that were written there. -/
theorem last_of_writeAll (hat : d.FolderAt p l) (hnames : ∀ q ∈ files, Path.NamesEntry q.1)
    (h : d.writeAll p files = .ok e) : ∀ q ∈ files, ∃ before last after, files = before ++ last :: after ∧
      last.1 = q.1 ∧ (∀ r ∈ after, r.1 ≠ q.1) ∧ e.readText (p.join q.1) = .ok last.2 := by
  induction files generalizing d with
  | nil => exact fun q hq => absurd hq List.not_mem_nil
  | cons first rest ih =>
    obtain ⟨name, text⟩ := first
    obtain ⟨made, hwrite, hrest⟩ := writeAll_cons_eq_ok_iff.1 h
    have hname := hnames _ List.mem_cons_self
    have hrestNames : ∀ q ∈ rest, Path.NamesEntry q.1 := fun q hq => hnames q (List.mem_cons_of_mem _ hq)
    have hat' : made.FolderAt p l := hat.grows (Filled.of_writeText hat hname hwrite).grows
    have hlast := ih hat' hrestNames hrest
    -- the text is still there, unless another one was written under the same name
    by_cases hagain : name ∈ rest.map Prod.fst
    · obtain ⟨other, hother, hsame⟩ := List.mem_map.1 hagain
      intro q hq
      have hmem : ∃ r ∈ rest, r.1 = q.1 := by
        rcases List.mem_cons.1 hq with rfl | hq
        · exact ⟨other, hother, hsame⟩
        · exact ⟨q, hq, rfl⟩
      obtain ⟨r, hr, hrq⟩ := hmem
      obtain ⟨before, last, after, rfl, hkept⟩ := hlast r hr
      rw [hrq] at hkept
      exact ⟨(name, text) :: before, last, after, rfl, hkept⟩
    · intro q hq
      rcases List.mem_cons.1 hq with rfl | hq
      · have hkept := (filled_writeAll hat' hrestNames hrest).sameFile hat' hname hagain
        exact ⟨[], (name, text), rest, rfl, rfl, fun r hr hrn => hagain (List.mem_map.2 ⟨r, hr, hrn⟩),
          hkept.readText_eq_ok (readText_of_writeText hwrite)⟩
      · obtain ⟨before, last, after, rfl, hkept⟩ := hlast q hq
        exact ⟨(name, text) :: before, last, after, rfl, hkept⟩

/-- The same for texts that come of something else. -/
theorem last_of_writeAll_map {α : Type} {file : α → String × String} {xs : List α} (hat : d.FolderAt p l)
    (hnames : ∀ x ∈ xs, Path.NamesEntry (file x).1) (h : d.writeAll p (xs.map file) = .ok e) :
    ∀ x ∈ xs, ∃ before last after, xs = before ++ last :: after ∧ (file last).1 = (file x).1 ∧
      (∀ r ∈ after, (file r).1 ≠ (file x).1) ∧ e.readText (p.join (file x).1) = .ok (file last).2 := by
  intro x hx
  obtain ⟨before, last, after, hsplit, hsame, hafter, hread⟩ :=
    last_of_writeAll hat (List.forall_mem_map.2 hnames) h _ (List.mem_map_of_mem hx)
  obtain ⟨before, rest, rfl, rfl, hrest⟩ := List.map_eq_append_iff.1 hsplit
  obtain ⟨last, after, rfl, rfl, rfl⟩ := List.map_eq_cons_iff.1 hrest
  exact ⟨before, last, after, rfl, hsame, fun r hr => hafter _ (List.mem_map_of_mem hr), hread⟩

end CheckerTrials.Disk
