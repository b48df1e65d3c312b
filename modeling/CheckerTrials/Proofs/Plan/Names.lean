import CheckerTrials.Plan.Job
import CheckerTrials.Proofs.Decimal.Digits
import CheckerTrials.Proofs.Files.Absolute
import Mathlib.Data.List.Basic

/-!
# The names in the folder of a plan

The folders of iterations and the files of jobs have names that are made from numbers.  None of these names
holds a slash or means a folder by itself, so that the path of a job has exactly two more steps than that of
the output folder (`steps_outputPath`), and a suffix at its end goes to the last of them.  What a name leads to in a
folder is below the folder (`Disk.exists_of_locate_join`), and different names lead to different places
(`Disk.locate_join_ne`).
-/

set_option autoImplicit false

namespace CheckerTrials

open CheckerTrials.Path

/-! ## Names -/

/-- The name of the folder of an iteration. -/
def iterationName (iteration : Nat) : String := iterationWord ++ iteration.repr

theorem slash_notMem_repr (n : Nat) : '/' ∉ n.repr.toList := fun h =>
  absurd (Decimal.isDigit_of_mem_repr h) (by decide)

theorem isStep_iterationName (iteration : Nat) : IsStep (iterationName iteration).toList := by
  rw [iterationName, String.toList_append]
  refine ⟨by simp [iterationWord], ?_⟩
  rw [List.mem_append, not_or]
  exact ⟨by decide, slash_notMem_repr iteration⟩

theorem isStep_repr_append (n : Nat) {suffix : String} (h : '/' ∉ suffix.toList) :
    IsStep (n.repr ++ suffix).toList := by
  rw [String.toList_append]
  refine ⟨fun hnil => Decimal.repr_toList_ne_nil n (List.append_eq_nil_iff.1 hnil).1, ?_⟩
  rw [List.mem_append, not_or]
  exact ⟨slash_notMem_repr n, h⟩

theorem isStep_repr (n : Nat) : IsStep n.repr.toList :=
  ⟨Decimal.repr_toList_ne_nil n, slash_notMem_repr n⟩

/-- A name whose first character is no point is neither of the steps with a meaning. -/
theorem ne_points {name : String} (h : name.toList.head? ≠ some '.') : name ≠ "." ∧ name ≠ ".." := by
  constructor
  · rintro rfl
    exact h rfl
  · rintro rfl
    exact h rfl

theorem iterationName_ne_points (iteration : Nat) :
    iterationName iteration ≠ "." ∧ iterationName iteration ≠ ".." := by
  refine ne_points ?_
  rw [iterationName, String.toList_append]
  exact nofun

theorem repr_append_ne_points (n : Nat) (suffix : String) :
    n.repr ++ suffix ≠ "." ∧ n.repr ++ suffix ≠ ".." := by
  refine ne_points fun h => ?_
  rw [String.toList_append] at h
  obtain ⟨c, rest, hc⟩ := List.exists_cons_of_ne_nil (Decimal.repr_toList_ne_nil n)
  rw [hc, List.cons_append, List.head?_cons, Option.some.injEq] at h
  have hdigit := Decimal.isDigit_of_mem_repr (hc ▸ List.mem_cons_self)
  exact absurd (h ▸ hdigit) (by decide)

/-! ## Joining names -/

namespace Path

theorem head?_ne_slash {s : List Char} (h : IsStep s) : s.head? ≠ some '/' :=
  fun hs => h.2 (List.mem_of_mem_head? hs)

/-- The text of a path with a name joined to it. -/
theorem toList_join (p : Path) {name : String} (h : IsStep name.toList) :
    ∃ between, (between = [] ∨ p.text.toList ≠ [] ∧ between = ['/']) ∧
      (p.join name).text.toList = p.text.toList ++ between ++ name.toList := by
  rw [join, if_neg (head?_ne_slash h)]
  by_cases hp : (p.text.isEmpty || p.namesFolder) = true
  · rw [if_pos hp]
    exact ⟨[], .inl rfl, by simp⟩
  · rw [if_neg hp]
    rw [Bool.or_eq_true, not_or] at hp
    exact ⟨['/'], .inr ⟨by simpa using hp.1, rfl⟩, by simp⟩

theorem join_toList_ne_nil (p : Path) {name : String} (h : IsStep name.toList) :
    (p.join name).text.toList ≠ [] := by
  obtain ⟨between, -, htext⟩ := toList_join p h
  rw [htext]
  exact List.append_ne_nil_of_right_ne_nil _ h.1

theorem join_ne_empty (p : Path) {name : String} (h : IsStep name.toList) : (p.join name).text ≠ "" :=
  fun hempty => join_toList_ne_nil p h (by rw [hempty]; rfl)

theorem namesFolder_join (p : Path) {name : String} (h : IsStep name.toList) :
    (p.join name).namesFolder = false := by
  obtain ⟨between, -, htext⟩ := toList_join p h
  rw [namesFolder, htext, List.getLast?_append_of_ne_nil _ h.1, beq_eq_false_iff_ne]
  exact fun hlast => h.2 (List.mem_of_mem_getLast? hlast)

theorem isRooted_join (p : Path) {name : String} (h : IsStep name.toList) :
    (p.join name).isRooted = p.isRooted := by
  obtain ⟨between, hbetween, htext⟩ := toList_join p h
  rw [isRooted, isRooted, htext]
  cases hp : p.text.toList with
  | cons c rest => rfl
  | nil =>
    have hnil : between = [] := hbetween.resolve_right fun hne => hne.1 hp
    have hhead := head?_ne_slash h
    simpa [hnil] using hhead

/-- A suffix goes to the name at the end. -/
theorem withSuffix_join (p : Path) {name : String} (h : IsStep name.toList) (suffix : String) :
    (p.join name).withSuffix suffix = p.join (name ++ suffix) := by
  have hhead : (name ++ suffix).toList.head? = name.toList.head? := by
    obtain ⟨c, rest, hc⟩ := List.exists_cons_of_ne_nil h.1
    rw [String.toList_append, hc]
    rfl
  rw [join, join, hhead, if_neg (head?_ne_slash h), if_neg (head?_ne_slash h)]
  split
  · rw [withSuffix, String.append_assoc]
  · rw [withSuffix, String.append_assoc]

/-- A path can be used if something longer can. -/
theorem IsUsable.of_join {p : Path} {name : String} (hname : IsStep name.toList)
    (h : (p.join name).IsUsable) : p.IsUsable := by
  obtain ⟨more, hmore⟩ : ∃ more, (p.join name).text = p.text ++ more := by
    rw [join, if_neg (head?_ne_slash hname)]
    split
    · exact ⟨name, rfl⟩
    · exact ⟨"/" ++ name, String.append_assoc⟩
  obtain ⟨hnul, hshort⟩ := h
  rw [hmore, String.toList_append, List.contains_eq_mem, decide_eq_true_iff, List.mem_append,
    not_or] at hnul
  rw [hmore, String.utf8ByteSize_append] at hshort
  exact ⟨by simpa using hnul.1, by omega⟩

theorem steps_join_name (p : Path) {name : String} (h : IsStep name.toList) :
    (p.join name).steps = p.steps ++ [name] := by
  rw [steps_join p (head?_ne_slash h), stepsOf_eq_singleton h, String.ofList_toList]

end Path

/-! ## What a joined name leads to -/

/-- A path with a name joined to it starts where the path does. -/
theorem Disk.startOf_join (d : Disk) (p : Path) {name : String} (h : IsStep name.toList) :
    d.startOf (p.join name) = d.startOf p := by
  rw [startOf, startOf, isRooted_join p h]

/-- The steps of a path lead to a folder at `l`.  The path itself may be empty. -/
structure Disk.FolderAt (d : Disk) (p : Path) (l : Location) : Prop where
  /-- The steps lead there. -/
  walk : d.walk (d.startOf p) p.steps = .ok l
  /-- It is a folder. -/
  folder : d.get? l = some .folder

theorem Disk.FolderAt.grows {d e : Disk} {p : Path} {l : Location} (h : d.FolderAt p l) (hgrows : d.Grows e) :
    e.FolderAt p l :=
  ⟨(startOf_grows hgrows p).symm ▸ walk_of_grows hgrows h.walk, hgrows.folder l h.folder⟩

/-- **A name that is joined to the path of a folder leads to the entry of that name**, if it leads anywhere. -/
theorem Disk.FolderAt.eq_of_locate_join {d : Disk} {p : Path} {l m : Location} (h : d.FolderAt p l)
    {name : String} (hname : IsStep name.toList) (hpoints : name ≠ "." ∧ name ≠ "..")
    (hm : d.locate (p.join name) = .ok m) : m = l ++ [name] ∧ name.utf8ByteSize ≤ 255 := by
  obtain ⟨-, -, hw⟩ := locate_eq_ok_iff.1 hm
  rw [startOf_join d p hname, steps_join_name p hname, walk_concat h.walk h.folder hpoints.1 hpoints.2] at hw
  split at hw
  · cases hw
  · rename_i hshort
    exact ⟨(Except.ok.inj hw).symm, Nat.le_of_not_lt hshort⟩

/-- The same for a path that leads to the folder as a whole. -/
theorem Disk.eq_of_locate_join {d : Disk} {p : Path} {l m : Location} (hl : d.locate p = .ok l)
    (hfolder : d.get? l = some .folder) {name : String} (hname : IsStep name.toList)
    (hpoints : name ≠ "." ∧ name ≠ "..") (hm : d.locate (p.join name) = .ok m) : m = l ++ [name] := by
  obtain ⟨-, -, hw⟩ := locate_eq_ok_iff.1 hl
  have hat : d.FolderAt p l := ⟨hw, hfolder⟩
  exact (hat.eq_of_locate_join hname hpoints hm).1

/-- The last step of a path is the name of what it leads to. -/
theorem Disk.exists_of_locate_join {d : Disk} {p : Path} {l : Location} {name : String} (hp : p.text ≠ "")
    (hname : IsStep name.toList) (hpoints : name ≠ "." ∧ name ≠ "..") (h : d.locate (p.join name) = .ok l) :
    ∃ m, d.locate p = .ok m ∧ l = m ++ [name] := by
  obtain ⟨husable, -, hw⟩ := locate_eq_ok_iff.1 h
  rw [startOf_join d p hname, steps_join_name p hname, walk_append, bind_eq_ok_iff] at hw
  obtain ⟨m, hm, hlast⟩ := hw
  have hl : d.locate p = .ok m := locate_eq_ok_iff.2 ⟨husable.of_join hname, hp, hm⟩
  exact ⟨m, hl, eq_of_locate_join hl (walk_cons_eq_ok_iff.1 hlast).1 hname hpoints h⟩

/-- Different names lead to different places. -/
theorem Disk.locate_join_ne {d : Disk} {p : Path} {l : Location} {name other : String} (hp : p.text ≠ "")
    (hname : IsStep name.toList) (hpoints : name ≠ "." ∧ name ≠ "..") (hother : IsStep other.toList)
    (hpoints' : other ≠ "." ∧ other ≠ "..") (hne : other ≠ name) (hl : d.locate (p.join other) = .ok l) :
    d.locate (p.join name) ≠ .ok l := by
  intro hl'
  obtain ⟨m, -, rfl⟩ := exists_of_locate_join hp hother hpoints' hl
  obtain ⟨m', -, heq⟩ := exists_of_locate_join hp hname hpoints hl'
  exact hne (List.singleton_inj.1 (List.append_inj' heq rfl).2)

theorem steps_iterationFolder (output : Path) (iteration : Nat) :
    (iterationFolder output iteration).steps = output.steps ++ [iterationName iteration] :=
  steps_join_name output (isStep_iterationName iteration)

theorem steps_outputPath (j : Job) (output : Path) : (j.outputPath output).steps =
    output.steps ++ [iterationName j.iteration] ++ [j.index.repr] := by
  rw [Job.outputPath, steps_join_name _ (isStep_repr j.index), steps_iterationFolder]

theorem isRooted_iterationFolder (output : Path) (iteration : Nat) :
    (iterationFolder output iteration).isRooted = output.isRooted :=
  isRooted_join output (isStep_iterationName iteration)

theorem isRooted_outputPath (j : Job) (output : Path) :
    (j.outputPath output).isRooted = output.isRooted := by
  rw [Job.outputPath, isRooted_join _ (isStep_repr j.index), isRooted_iterationFolder]

end CheckerTrials
