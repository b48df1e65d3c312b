import CheckerTrials.CommandLine.Perform
import CheckerTrials.Proofs.Files.Filling
import Mathlib.Data.List.Forall2

/-!
# The names of report files

The file of a group is named after its model and its configuration, with an underscore between them and without
the slashes of the configuration.  If there is no slash in the name of the model, the result is the name of an
entry of a folder (`namesEntry_reportFileName`), and so is the name of the file with a series
(`namesEntry_seriesFileName`).

Nothing in the name tells where the model ends.  Two groups have the same file exactly if they are the same or
meet (`reportFileName_eq_iff`): their configurations differ by a slash and a dash, or the model of the one goes on
with an underscore and the front of the configuration of the other (`GroupKey.Meet`).  Two models have the same file
for their series exactly if their names differ in points and dashes only (`seriesFileName_eq_iff`).
-/

set_option autoImplicit false

namespace CheckerTrials

open CheckerTrials.Path

/-! ## Entries of a folder -/

/-- A name whose last character is no point is neither of the steps with a meaning. -/
theorem ne_points_of_getLast? {name : String} (h : name.toList.getLast? ≠ some '.') :
    name ≠ "." ∧ name ≠ ".." := by
  constructor
  · rintro rfl
    exact h rfl
  · rintro rfl
    exact h rfl

/-- A name with an extension means an entry if there is no slash in it. -/
theorem Path.NamesEntry.of_extension {stem extension : String} (hstem : '/' ∉ stem.toList)
    (hne : extension.toList ≠ []) (hslash : '/' ∉ extension.toList)
    (hlast : extension.toList.getLast? ≠ some '.') : NamesEntry (stem ++ extension) := by
  refine ⟨⟨?_, ?_⟩, ne_points_of_getLast? ?_⟩
  · rw [String.toList_append]
    exact List.append_ne_nil_of_right_ne_nil _ hne
  · rw [String.toList_append, List.mem_append, not_or]
    exact ⟨hstem, hslash⟩
  · rwa [String.toList_append, List.getLast?_append_of_ne_nil _ hne]

/-- The path of an entry tells its name. -/
theorem Path.join_inj {p : Path} {name other : String} (hname : NamesEntry name) (hother : NamesEntry other) :
    p.join name = p.join other ↔ name = other := by
  refine ⟨fun h => ?_, fun h => by rw [h]⟩
  have hsteps := congrArg Path.steps h
  rw [steps_join_name p hname.isStep, steps_join_name p hother.isStep] at hsteps
  exact List.singleton_inj.1 (List.append_cancel_left hsteps)

theorem notMem_replace {old new : Char} (h : old ≠ new) (s : List Char) : old ∉ Text.replace old new s := by
  rw [Text.replace, List.mem_map]
  rintro ⟨c, -, hc⟩
  split at hc
  · exact h hc.symm
  · rename_i hne
    exact hne hc

theorem mem_of_mem_replace {old new c : Char} {s : List Char} (h : c ∈ Text.replace old new s)
    (hne : c ≠ new) : c ∈ s := by
  rw [Text.replace, List.mem_map] at h
  obtain ⟨b, hb, hc⟩ := h
  split at hc
  · exact absurd hc.symm hne
  · rwa [← hc]

/-- The file with the series of a model is an entry of the folder of all series. -/
theorem namesEntry_seriesFileName {model : String} (h : '/' ∉ model.toList) :
    NamesEntry (Task.seriesFileName model) := by
  refine .of_extension (fun hmem => h ?_) (by decide) (by decide) (by decide)
  rw [String.toList_ofList] at hmem
  exact mem_of_mem_replace hmem (by decide)

/-! ## The parts of a name -/

namespace GroupKey

/-- A configuration as it stands in a file name. -/
def dashed (axis : String) : String := String.ofList (Text.replace '/' '-' axis.toList)

theorem toList_dashed (axis : String) : (dashed axis).toList = Text.replace '/' '-' axis.toList :=
  String.toList_ofList

/-- What stands in a file name between the model and the extension. -/
def suffix (k : GroupKey) : String := k.axis.elim "" fun axis => "_" ++ dashed axis

/-- What stands in a file name before the extension. -/
def stem (k : GroupKey) : String := k.model ++ k.suffix

theorem slash_notMem_suffix (k : GroupKey) : '/' ∉ k.suffix.toList := by
  rw [suffix]
  cases k.axis with
  | none => decide
  | some axis =>
    rw [Option.elim_some, String.toList_append, List.mem_append, not_or, toList_dashed]
    have hne : '/' ≠ '-' := by decide
    exact ⟨by decide, notMem_replace hne _⟩

end GroupKey

theorem reportFileName_eq (k : GroupKey) : reportFileName k = k.stem ++ ".txt" := by
  rw [reportFileName, GroupKey.stem, GroupKey.suffix]
  split
  · rename_i axis haxis
    rw [haxis, Option.elim_some, GroupKey.dashed, ← String.append_assoc]
  · rename_i haxis
    rw [haxis, Option.elim_none, String.append_empty]

/-- The file with the report of a group is an entry of the folder of all reports. -/
theorem namesEntry_reportFileName {k : GroupKey} (h : '/' ∉ k.model.toList) :
    NamesEntry (reportFileName k) := by
  rw [reportFileName_eq]
  refine .of_extension ?_ (by decide) (by decide) (by decide)
  rw [GroupKey.stem, String.toList_append, List.mem_append, not_or]
  exact ⟨h, k.slash_notMem_suffix⟩

/-! ## Groups with the same file -/

namespace GroupKey

/-- The model of one group goes on where that of another one ends: with an underscore and the front of the
configuration of that other group, and what is left of the configuration is all that follows. -/
def Continues (k other : GroupKey) : Prop :=
  ∃ axis rest, k.axis = some axis ∧ other.model = k.model ++ "_" ++ rest ∧ dashed axis = rest ++ other.suffix

/-- **Two groups meet** in one file. -/
inductive Meet (k other : GroupKey) : Prop
  /-- Their configurations are different, but not when slashes are written as dashes. -/
  | dashes (axis axis' : String) (hmodel : k.model = other.model) (haxis : k.axis = some axis)
      (haxis' : other.axis = some axis') (hne : axis ≠ axis') (hdashed : dashed axis = dashed axis')
  /-- The model of the other one goes on where that of the first one ends. -/
  | front (h : k.Continues other)
  /-- The model of the first one goes on where that of the other one ends. -/
  | back (h : other.Continues k)

theorem Continues.ne {k other : GroupKey} (h : k.Continues other) : k ≠ other := by
  rintro rfl
  obtain ⟨axis, rest, -, hmodel, -⟩ := h
  have hlength := congrArg String.length hmodel
  rw [String.length_append, String.length_append, show "_".length = 1 from rfl] at hlength
  omega

/-- No group meets itself. -/
theorem Meet.ne {k other : GroupKey} (h : k.Meet other) : k ≠ other := by
  cases h with
  | dashes axis axis' hmodel haxis haxis' hne hdashed =>
    rintro rfl
    exact hne (Option.some.inj (haxis.symm.trans haxis'))
  | front h => exact h.ne
  | back h => exact h.ne.symm

/-- Groups without configurations do not meet. -/
theorem not_meet_of_axis {k other : GroupKey} (hk : k.axis = none) (hother : other.axis = none) :
    ¬ k.Meet other := by
  intro h
  cases h with
  | dashes axis _ _ haxis => simp [hk] at haxis
  | front h =>
    obtain ⟨axis, _, haxis, -⟩ := h
    simp [hk] at haxis
  | back h =>
    obtain ⟨axis, _, haxis, -⟩ := h
    simp [hother] at haxis

theorem stem_eq_of_continues {k other : GroupKey} (h : k.Continues other) : k.stem = other.stem := by
  obtain ⟨axis, rest, haxis, hmodel, hdashed⟩ := h
  rw [stem, stem, hmodel, suffix, haxis, Option.elim_some, hdashed]
  simp only [String.append_assoc]

/-- A suffix begins with an underscore, which the model of another group has there too if it is longer. -/
theorem continues_of_suffix {k other : GroupKey} {more : List Char} (hne : more ≠ [])
    (hmodel : other.model.toList = k.model.toList ++ more)
    (hsuffix : k.suffix.toList = more ++ other.suffix.toList) : k.Continues other := by
  cases haxis : k.axis with
  | none =>
    rw [suffix, haxis] at hsuffix
    exact absurd (List.append_eq_nil_iff.1 hsuffix.symm).1 hne
  | some axis =>
    obtain ⟨c, rest, rfl⟩ := List.exists_cons_of_ne_nil hne
    rw [suffix, haxis, Option.elim_some, String.toList_append, show "_".toList = ['_'] from rfl,
      List.singleton_append, List.cons_append, List.cons.injEq] at hsuffix
    obtain ⟨rfl, hrest⟩ := hsuffix
    refine ⟨axis, String.ofList rest, haxis, ?_, ?_⟩
    · rw [← String.toList_inj, hmodel]
      simp
    · rw [← String.toList_inj, hrest]
      simp

/-- Groups of one model with the same suffix are the same or have the same configuration but for slashes. -/
theorem eq_or_meet_of_suffix {k other : GroupKey} (hmodel : k.model = other.model)
    (hsuffix : k.suffix = other.suffix) : k = other ∨ k.Meet other := by
  obtain ⟨model, axis⟩ := k
  obtain ⟨model', axis'⟩ := other
  obtain rfl : model = model' := hmodel
  cases axis with
  | none =>
    cases axis' with
    | none => exact .inl rfl
    | some b => exact absurd (congrArg String.toList hsuffix) (by simp [suffix])
  | some a =>
    cases axis' with
    | none => exact absurd (congrArg String.toList hsuffix) (by simp [suffix])
    | some b =>
      by_cases hab : a = b
      · exact .inl (by rw [hab])
      · have hdashed : dashed a = dashed b := by
          rw [← String.toList_inj]
          simpa [suffix] using congrArg String.toList hsuffix
        exact .inr (.dashes a b rfl rfl rfl hab hdashed)

end GroupKey

/-- **When two groups have the same file**: if they are the same group, or if they meet. -/
theorem reportFileName_eq_iff {k other : GroupKey} :
    reportFileName k = reportFileName other ↔ k = other ∨ k.Meet other := by
  rw [reportFileName_eq, reportFileName_eq]
  constructor
  · intro h
    have hstem : k.model.toList ++ k.suffix.toList = other.model.toList ++ other.suffix.toList := by
      have hlist := congrArg String.toList h
      rw [String.toList_append, String.toList_append] at hlist
      simpa [GroupKey.stem] using List.append_cancel_right hlist
    -- one of the two models is the longer one, or they are the same
    rcases List.append_eq_append_iff.1 hstem with ⟨more, hmodel, hsuffix⟩ | ⟨more, hmodel, hsuffix⟩
    · by_cases hmore : more = []
      · subst hmore
        rw [List.append_nil] at hmodel
        exact GroupKey.eq_or_meet_of_suffix (String.toList_inj.1 hmodel.symm) (String.toList_inj.1 hsuffix)
      · exact .inr (.front (GroupKey.continues_of_suffix hmore hmodel hsuffix))
    · by_cases hmore : more = []
      · subst hmore
        rw [List.append_nil] at hmodel
        exact GroupKey.eq_or_meet_of_suffix (String.toList_inj.1 hmodel)
          (String.toList_inj.1 hsuffix.symm)
      · exact .inr (.back (GroupKey.continues_of_suffix hmore hmodel hsuffix))
  · rintro (rfl | h)
    · rfl
    · cases h with
      | dashes axis axis' hmodel haxis haxis' hne hdashed =>
        rw [GroupKey.stem, GroupKey.stem, GroupKey.suffix, GroupKey.suffix, haxis, haxis', hmodel,
          Option.elim_some, Option.elim_some, hdashed]
      | front h => rw [GroupKey.stem_eq_of_continues h]
      | back h => rw [GroupKey.stem_eq_of_continues h]

/-! ## Models with the same file -/

/-- Two names are the same but for points and dashes, which may stand for each other. -/
def AlikeNames (model other : String) : Prop :=
  List.Forall₂ (fun b c => b = c ∨ b ∈ ['.', '-'] ∧ c ∈ ['.', '-']) model.toList other.toList

theorem replace_eq_iff {old new : Char} {s t : List Char} : Text.replace old new s = Text.replace old new t ↔
    List.Forall₂ (fun b c => b = c ∨ b ∈ [old, new] ∧ c ∈ [old, new]) s t := by
  have hchar : ∀ b c : Char, (if b = old then new else b) = (if c = old then new else c) ↔
      b = c ∨ b ∈ [old, new] ∧ c ∈ [old, new] := by
    intro b c
    simp only [List.mem_cons, List.not_mem_nil, or_false]
    grind
  rw [Text.replace, Text.replace, ← List.forall₂_eq_eq_eq, List.forall₂_map_left_iff, List.forall₂_map_right_iff]
  simp only [hchar]

/-- **When two models have the same file** for their series. -/
theorem seriesFileName_eq_iff {model other : String} :
    Task.seriesFileName model = Task.seriesFileName other ↔ AlikeNames model other := by
  rw [Task.seriesFileName, Task.seriesFileName, AlikeNames, ← replace_eq_iff, ← String.toList_inj, String.toList_append,
    String.toList_append, List.append_left_inj, String.toList_ofList, String.toList_ofList]

example : Task.seriesFileName "a.b" = Task.seriesFileName "a-b" := by decide

end CheckerTrials
