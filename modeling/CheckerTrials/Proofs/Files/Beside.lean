import CheckerTrials.Proofs.Files.Listing

/-!
# Files beside a file

A run keeps its files beside its result: their paths are that of the result with a suffix.  The path of the
result may be any text.  It may end with a slash or with a step up, and then the result is a folder while the
other files still are files in some folder.  In any case the suffix makes the last name longer, so that these
files are different from each other and from what the path itself leads to (`locate_beside_ne`,
`locate_ne_beside`).

* `Path.Ends`: the steps of a path before its last name, and that name.
* `Disk.SameFile`: a path leads to the same file on two disks, or to no file on both.
* `sameFile_edit`: an edit changes no file but its own.
-/

set_option autoImplicit false

namespace CheckerTrials

namespace Path

/-! ## The last name of a path -/

/-- A suffix makes the name of another file: it has no slash, and it is too long for the name with the suffix
to be a step with a meaning. -/
structure IsSuffix (s : String) : Prop where
  /-- It holds no slash. -/
  slash : '/' ∉ s.toList
  /-- It is longer than the steps with a meaning. -/
  long : 2 < s.toList.length

instance (s : String) : Decidable (IsSuffix s) :=
  decidable_of_iff ('/' ∉ s.toList ∧ 2 < s.toList.length)
    ⟨fun h => ⟨h.1, h.2⟩, fun h => ⟨h.slash, h.long⟩⟩

/-- What stands before the last name of a path, and that name, which is empty if the path ends with a slash. -/
structure Ends (p : Path) (before : List String) (last : String) : Prop where
  /-- A suffix goes to the last name. -/
  suffix : ∀ s, IsSuffix s → (p.withSuffix s).steps = before ++ [last ++ s]
  /-- Unless the path ends with a slash, its last name is a step. -/
  name : p.text ≠ "" → p.namesFolder = false → p.steps = before ++ [last]

/-- Steps are followed by what comes after a slash. -/
theorem stepsOf_append {front : List Char} (h : ∀ c ∈ front.getLast?, c = '/') (t : List Char) :
    stepsOf (front ++ t) = stepsOf front ++ stepsOf t := by
  cases hlast : front.getLast? with
  | none =>
    obtain rfl := List.getLast?_eq_none_iff.1 hlast
    rfl
  | some c =>
    obtain ⟨before, rfl⟩ := List.getLast?_eq_some_iff.1 hlast
    obtain rfl : c = '/' := h c hlast
    have hnil : stepsOf [] = [] := rfl
    rw [List.append_assoc, List.singleton_append, stepsOf_append_slash, stepsOf_append_slash, hnil,
      List.append_nil]

/-- **Every path has a last name**, which may be empty. -/
theorem exists_ends (p : Path) : ∃ before last, p.Ends before last := by
  have hsplit : p.text.toList = (p.text.toList.reverse.dropWhile (· != '/')).reverse ++
      (p.text.toList.reverse.takeWhile (· != '/')).reverse := by
    rw [← List.reverse_append, List.takeWhile_append_dropWhile, List.reverse_reverse]
  -- what stands before the last name is nothing or ends with a slash, and the name has none
  generalize hfront : (p.text.toList.reverse.dropWhile (· != '/')).reverse = front at hsplit
  generalize hname : (p.text.toList.reverse.takeWhile (· != '/')).reverse = name at hsplit
  have hslash : '/' ∉ name := by
    rw [← hname, List.mem_reverse]
    exact fun hmem => absurd (List.all_eq_true.1 List.all_takeWhile '/' hmem) (by decide)
  have hends : ∀ c ∈ front.getLast?, c = '/' := by
    intro c hc
    have hnot := List.head?_dropWhile_not (· != '/') p.text.toList.reverse
    rw [← hfront, List.getLast?_reverse, Option.mem_def] at hc
    simpa [hc] using hnot
  refine ⟨stepsOf front, String.ofList name, fun s hs => ?_, fun hne hfile => ?_⟩
  · have hstep : IsStep (name ++ s.toList) := by
      refine ⟨fun hnil => ?_, by simp [hslash, hs.slash]⟩
      have hlong := hs.long
      rw [(List.append_eq_nil_iff.1 hnil).2] at hlong
      exact absurd hlong (by decide)
    rw [steps, withSuffix, String.toList_append, hsplit, List.append_assoc, stepsOf_append hends,
      stepsOf_eq_singleton hstep, String.ofList_append, String.ofList_toList]
  · have hstep : IsStep name := by
      refine ⟨?_, hslash⟩
      rintro rfl
      rw [List.append_nil] at hsplit
      cases hlast : front.getLast? with
      | none =>
        rw [List.getLast?_eq_none_iff.1 hlast] at hsplit
        exact hne (String.toList_eq_nil_iff.1 hsplit)
      | some c =>
        rw [namesFolder, hsplit, hlast, hends c hlast] at hfile
        exact absurd hfile (by decide)
    rw [steps, hsplit, stepsOf_append hends, stepsOf_eq_singleton hstep]

end Path

namespace Disk

open CheckerTrials.Path

variable {d e : Disk} {p : Path} {s : String} {l : Location}

/-! ## Different files -/

theorem isRooted_withSuffix_eq (p : Path) (hs : IsSuffix s) : (p.withSuffix s).isRooted = p.isRooted := by
  rw [isRooted, withSuffix, String.toList_append, isRooted]
  cases htext : p.text.toList with
  | cons c rest => rfl
  | nil =>
    have hhead : s.toList.head? ≠ some '/' := fun h => hs.slash (List.mem_of_mem_head? h)
    simpa using hhead

/-- **Where a file beside a path is**: where the steps before the last name lead to. -/
theorem locate_withSuffix {before : List String} {last : String} (hp : p.Ends before last) (hs : IsSuffix s)
    (h : d.locate (p.withSuffix s) = .ok l) :
    ∃ m, d.walk (d.startOf p) before = .ok m ∧ l = m ++ [last ++ s] := by
  obtain ⟨-, -, hw⟩ := locate_eq_ok_iff.1 h
  rw [startOf, isRooted_withSuffix_eq p hs, ← startOf, hp.suffix s hs, walk_append, bind_eq_ok_iff] at hw
  obtain ⟨m, hm, hlast⟩ := hw
  obtain ⟨-, k, hk, hend⟩ := walk_cons_eq_ok_iff.1 hlast
  cases hend
  have hlong : 2 < (last ++ s).toList.length := by
    have := hs.long
    rw [String.toList_append, List.length_append]
    omega
  have hhere : last ++ s ≠ "." := by
    intro he
    rw [he] at hlong
    exact absurd hlong (by decide)
  have habove : last ++ s ≠ ".." := by
    intro he
    rw [he] at hlong
    exact absurd hlong (by decide)
  rw [enter, if_neg hhere, if_neg habove] at hk
  split at hk
  · cases hk
  · exact ⟨m, hm, (Except.ok.inj hk).symm⟩

/-- Files with different suffixes are in different places. -/
theorem locate_beside_ne {t : String} (hs : IsSuffix s) (ht : IsSuffix t) (hst : s ≠ t)
    (h : d.locate (p.withSuffix s) = .ok l) : d.locate (p.withSuffix t) ≠ .ok l := by
  intro h'
  obtain ⟨before, last, hp⟩ := exists_ends p
  obtain ⟨m, hm, rfl⟩ := locate_withSuffix hp hs h
  obtain ⟨m', hm', hl⟩ := locate_withSuffix hp ht h'
  rw [hm] at hm'
  cases hm'
  have hnames : last ++ s = last ++ t := by simpa using hl
  exact hst ((String.append_right_inj _).1 hnames)

/-- A file beside a path is not what the path leads to. -/
theorem locate_ne_beside (hs : IsSuffix s) (hfile : p.namesFolder = false) (h : d.locate p = .ok l) :
    d.locate (p.withSuffix s) ≠ .ok l := by
  intro h'
  obtain ⟨before, last, hp⟩ := exists_ends p
  obtain ⟨m, hm, rfl⟩ := locate_withSuffix hp hs h'
  obtain ⟨-, hne, hw⟩ := locate_eq_ok_iff.1 h
  rw [hp.name hne hfile, walk_append, hm, bind_ok] at hw
  obtain ⟨-, k, hk, hend⟩ := walk_cons_eq_ok_iff.1 hw
  cases hend
  -- the last step stays in the folder, leaves it, or goes to a shorter name
  rw [enter] at hk
  split at hk
  · simpa using congrArg List.length (Except.ok.inj hk)
  · split at hk
    · have hlength : m.length - 1 = m.length + 1 := by
        simpa using congrArg List.length (Except.ok.inj hk)
      omega
    · split at hk
      · cases hk
      · have hnames : last = last ++ s := by simpa using Except.ok.inj hk
        have hlength := congrArg (fun name => name.toList.length) hnames
        have hlong := hs.long
        simp only [String.toList_append, List.length_append] at hlength
        omega

/-! ## The same file -/

/-- A path leads to the same file on two disks, or to no file on both. -/
def SameFile (p : Path) (d e : Disk) : Prop :=
  ∀ content executable, e.find p = .ok (.file content executable) ↔
    d.find p = .ok (.file content executable)

theorem SameFile.refl (p : Path) (d : Disk) : SameFile p d d := fun _ _ => .rfl

theorem SameFile.trans {f : Disk} (h : SameFile p d e) (h' : SameFile p e f) : SameFile p d f :=
  fun content executable => (h' content executable).trans (h content executable)

/-- A file that a path leads to on the disk `e` was there on the disk `d`. -/
def NoNewFile (p : Path) (d e : Disk) : Prop :=
  ∀ content executable, e.find p = .ok (.file content executable) →
    d.find p = .ok (.file content executable)

theorem SameFile.noNewFile (h : SameFile p d e) : NoNewFile p d e :=
  fun content executable => (h content executable).1

theorem NoNewFile.trans {f : Disk} (h : NoNewFile p d e) (h' : NoNewFile p e f) : NoNewFile p d f :=
  fun content executable hf => h content executable (h' content executable hf)

theorem isFile_iff : d.isFile p = true ↔ ∃ content executable, d.find p = .ok (.file content executable) := by
  rw [isFile]
  split
  · rename_i content executable hfind
    exact ⟨fun _ => ⟨content, executable, hfind⟩, fun _ => rfl⟩
  · rename_i hnone
    exact ⟨nofun, fun ⟨content, executable, hfind⟩ => absurd hfind (hnone content executable)⟩

theorem SameFile.isFile_iff (h : SameFile p d e) : e.isFile p = true ↔ d.isFile p = true := by
  rw [Disk.isFile_iff, Disk.isFile_iff]
  exact exists_congr fun content => exists_congr fun executable => h content executable

/-- If no file is new, what is still there reads as before. -/
theorem NoNewFile.readText_eq (h : NoNewFile p d e) (hfile : e.isFile p = true) :
    e.readText p = d.readText p := by
  obtain ⟨content, executable, hfind⟩ := Disk.isFile_iff.1 hfile
  rw [readText, readBytes, readText, readBytes, hfind, h content executable hfind]

/-- A text can be read from a file only. -/
theorem isFile_of_readText {text : String} (h : d.readText p = .ok text) : d.isFile p = true := by
  rw [Disk.isFile_iff]
  by_contra hnone
  obtain ⟨cause, herror⟩ := readText_eq_error fun content executable hfind =>
    hnone ⟨content, executable, hfind⟩
  rw [herror] at h
  cases h

/-- The same file has the same text. -/
theorem SameFile.readText_eq_ok (h : SameFile p d e) {text : String} (hread : d.readText p = .ok text) :
    e.readText p = .ok text := by
  rw [h.noNewFile.readText_eq (h.isFile_iff.2 (isFile_of_readText hread)), hread]

/-- No folder comes from what is done to a location. -/
def MakesNoFolder (f : Option Entry → Except Cause (Option Entry)) : Prop :=
  ∀ o, f o ≠ .ok (some .folder)

theorem makesNoFolder_overwrite (p : Path) (content : ByteArray) :
    MakesNoFolder (overwrite p content) := by
  intro o h
  obtain ⟨executable, hfile⟩ := overwrite_eq_ok h
  cases hfile

theorem makesNoFolder_takeAway (p : Path) : MakesNoFolder (takeAway p) := by
  intro o h
  unfold takeAway at h
  split at h
  · cases h
  · split at h <;> cases h
  · cases h

section

variable {q : Path} {f : Option Entry → Except Cause (Option Entry)}

/-- No folder comes from an edit. -/
theorem grows_of_edit (hspares : SparesFolders f) (hmakes : MakesNoFolder f) (h : d.edit q f = .ok e) :
    e.Grows d := by
  obtain ⟨l, o, -, ho, rfl⟩ := edit_eq_ok_iff.1 h
  refine ⟨(home_set d l o).symm, fun m hm => ?_⟩
  have hl : l ≠ [] := ne_nil_of_get?_ne (hspares.ne_folder ho)
  by_cases hml : m = l
  · subst hml
    rw [get?_set_self d hl] at hm
    exact absurd (hm ▸ ho) (hmakes _)
  · rwa [get?_set_of_ne d hml] at hm

/-- An edit changes no path. -/
theorem locate_edit_iff (hspares : SparesFolders f) (hmakes : MakesNoFolder f) (h : d.edit q f = .ok e) :
    e.locate p = .ok l ↔ d.locate p = .ok l :=
  ⟨locate_of_grows (grows_of_edit hspares hmakes h), locate_of_grows (grows_edit hspares h)⟩

/-- **An edit changes no file but its own.** -/
theorem sameFile_edit (hspares : SparesFolders f) (hmakes : MakesNoFolder f)
    (hne : p.namesFolder = false → ∀ l, d.locate p = .ok l → d.locate q ≠ .ok l) :
    SameFile p d (d.outcome (d.edit q f)).2 := by
  cases he : d.edit q f with
  | error cause => exact .refl p d
  | ok e =>
    intro content executable
    rw [outcome, find_eq_file_iff, find_eq_file_iff]
    refine and_congr_right fun hfile => exists_congr fun l => ?_
    rw [locate_edit_iff hspares hmakes he]
    refine and_congr_right fun hl => ?_
    obtain ⟨m, o, hm, -, rfl⟩ := edit_eq_ok_iff.1 he
    have hlm : l ≠ m := by
      rintro rfl
      exact hne hfile l hl hm
    rw [get?_set_of_ne d hlm]

end

/-- Edits beside a file leave it as it is. -/
theorem sameFile_edit_beside {f : Option Entry → Except Cause (Option Entry)} (hspares : SparesFolders f)
    (hmakes : MakesNoFolder f) (p : Path) (d : Disk) (hs : IsSuffix s) :
    SameFile p d (d.outcome (d.edit (p.withSuffix s) f)).2 :=
  sameFile_edit hspares hmakes fun hfile _ hl => locate_ne_beside hs hfile hl

/-- Files beside a path are left as they are by edits under another suffix. -/
theorem sameFile_edit_other {f : Option Entry → Except Cause (Option Entry)} (hspares : SparesFolders f)
    (hmakes : MakesNoFolder f) (p : Path) (d : Disk) {t : String} (hs : IsSuffix s) (ht : IsSuffix t)
    (hst : s ≠ t) : SameFile (p.withSuffix s) d (d.outcome (d.edit (p.withSuffix t) f)).2 :=
  sameFile_edit hspares hmakes fun _ _ hl => locate_beside_ne hs ht hst hl

/-! ## Written and removed files -/

theorem writeText_eq (d : Disk) (p : Path) (text : String) :
    d.writeText p text = d.edit p (overwrite p text.toUTF8) := writeBytes_eq d p text.toUTF8

/-- What it takes to write a text. -/
theorem exists_of_writeText {text : String} (h : d.writeText p text = .ok e) :
    ∃ l executable, p.namesFolder = false ∧ l ≠ [] ∧ d.locate p = .ok l ∧ e.locate p = .ok l ∧
      e.get? l = some (.file text.toUTF8 executable) := by
  rw [writeText_eq] at h
  have hlocate := fun l => locate_edit_iff (p := p) (l := l) (sparesFolders_overwrite _ _)
    (makesNoFolder_overwrite _ _) h
  obtain ⟨l, o, hl, ho, rfl⟩ := edit_eq_ok_iff.1 h
  obtain ⟨executable, rfl⟩ := overwrite_eq_ok ho
  have hne : l ≠ [] := ne_nil_of_get?_ne ((sparesFolders_overwrite _ _).ne_folder ho)
  have hfile : p.namesFolder = false := by
    cases hp : p.namesFolder with
    | false => rfl
    | true =>
      unfold overwrite at ho
      simp only [hp, if_true] at ho
      split at ho <;> cases ho
  exact ⟨l, executable, hfile, hne, hl, (hlocate l).2 hl, get?_set_self d hne _⟩

/-- What was written is read. -/
theorem readText_of_writeText {text : String} (h : d.writeText p text = .ok e) :
    e.readText p = .ok text := by
  obtain ⟨l, executable, hfile, -, -, hl, hget⟩ := exists_of_writeText h
  exact readText_of_get? hfile hl hget

/-- **What was written can be removed**, and then it cannot be read. -/
theorem removeFile_of_writeText {text : String} (h : d.writeText p text = .ok e) :
    ∃ f, e.removeFile p = .ok f ∧ ∃ cause, f.readBytes p = .error cause := by
  obtain ⟨l, executable, hfile, hne, -, hl, hget⟩ := exists_of_writeText h
  have hremove : e.edit p (takeAway p) = .ok (e.set l none) := by
    refine edit_eq_ok_iff.2 ⟨l, none, hl, ?_, rfl⟩
    simp [hget, takeAway, hfile]
  have hlocate : (e.set l none).locate p = .ok l :=
    (locate_edit_iff (sparesFolders_takeAway p) (makesNoFolder_takeAway p) hremove).2 hl
  refine ⟨e.set l none, by rw [removeFile_eq, hremove], .notFound, ?_⟩
  rw [readBytes, find, hlocate, bind_ok, get?_set_self e hne]
  rfl

/-- A file that cannot be written cannot be read either. -/
theorem readBytes_eq_error {text : String} {cause : Cause} (h : d.writeText p text = .error cause) :
    ∃ cause, d.readBytes p = .error cause := by
  cases hread : d.readBytes p with
  | error cause => exact ⟨cause, rfl⟩
  | ok content =>
    rw [readBytes, bind_eq_ok_iff] at hread
    obtain ⟨entry, hfind, hentry⟩ := hread
    cases entry with
    | folder => cases hentry
    | file content executable =>
      obtain ⟨hfile, l, hl, hget⟩ := find_eq_file_iff.1 hfind
      have hwrite : d.writeText p text = .ok (d.set l (some (.file text.toUTF8 executable))) := by
        rw [writeText_eq]
        refine edit_eq_ok_iff.2 ⟨l, _, hl, ?_, rfl⟩
        simp [hget, overwrite, hfile]
      rw [hwrite] at h
      cases h

/-- Writing a file beside a path leaves what the path leads to alone. -/
theorem sameFile_writeText {text : String} (hs : IsSuffix s)
    (h : d.writeText (p.withSuffix s) text = .ok e) : SameFile p d e := by
  have hsame := sameFile_edit_beside (sparesFolders_overwrite _ _)
    (makesNoFolder_overwrite (p.withSuffix s) text.toUTF8) p d hs
  rwa [← writeText_eq, h] at hsame

/-- It leaves the files under other suffixes alone, too. -/
theorem sameFile_writeText_other {t text : String} (hs : IsSuffix s) (ht : IsSuffix t) (hst : s ≠ t)
    (h : d.writeText (p.withSuffix t) text = .ok e) : SameFile (p.withSuffix s) d e := by
  have hsame := sameFile_edit_other (sparesFolders_overwrite _ _)
    (makesNoFolder_overwrite (p.withSuffix t) text.toUTF8) p d hs ht hst
  rwa [← writeText_eq, h] at hsame

end Disk
end CheckerTrials
