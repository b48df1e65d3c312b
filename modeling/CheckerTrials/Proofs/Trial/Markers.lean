import CheckerTrials.Trial.ModelPath

/-!
# Where the name of a model ends

`modelName?` goes through a path character by character.  Here the rule is told by places: the file of a path is what
stands after its last separator (`IsFileOf`), and a marker is a place in the file where one of the suffixes stands and
no letter, digit or underscore goes on (`IsMarker`).  The name is what stands before the first marker, if that is not
at the front (`modelName?_eq_some_iff`).

A suffix has its only point at the front, so that it cannot begin inside a name and end behind it
(`isMarker_of_append`).  Hence every name without a marker is the name of the path that is made of a folder, the name
and any suffix, and the three together are `CutsAtFirstMarker`.
-/

set_option autoImplicit false

namespace CheckerTrials
namespace ModelPath

/-! ## The file of a path -/

/-- What can stand in front of the file of a path: nothing, or what a separator ends. -/
def IsFolder (folder : List Char) : Prop := ∀ c ∈ folder.getLast?, isSeparator c = true

/-- The file of a path is what stands after the last separator. -/
structure IsFileOf (file path : List Char) : Prop where
  /-- It is the end of the path, and a separator stands in front of it if anything does. -/
  folder : ∃ folder, IsFolder folder ∧ path = folder ++ file
  /-- There is no separator in it. -/
  noSeparator : ∀ c ∈ file, isSeparator c = false

theorem exists_isFileOf (path : List Char) : ∃ file, IsFileOf file path := by
  induction path with
  | nil => exact ⟨[], ⟨[], nofun, rfl⟩, nofun⟩
  | cons c rest ih =>
    obtain ⟨file, ⟨folder, hfolder, rfl⟩, hfile⟩ := ih
    by_cases hword : folder = [] ∧ isSeparator c = false
    · obtain ⟨rfl, hc⟩ := hword
      exact ⟨c :: file, ⟨[], hfolder, rfl⟩, List.forall_mem_cons.2 ⟨hc, hfile⟩⟩
    · refine ⟨file, ⟨c :: folder, ?_, rfl⟩, hfile⟩
      cases folder with
      | nil => simpa [IsFolder] using hword
      | cons d more => rwa [IsFolder, List.getLast?_cons_cons]

/-- **The last piece** of a path is its file. -/
theorem fileOf_eq {file path : List Char} (h : IsFileOf file path) : fileOf path = file := by
  obtain ⟨⟨folder, hfolder, rfl⟩, hfile⟩ := h
  have hpiece := Text.split_eq_singleton hfile
  rw [fileOf]
  rcases List.eq_nil_or_concat folder with rfl | ⟨front, c, rfl⟩
  · rw [List.nil_append, hpiece]
    rfl
  · have hc : isSeparator c = true := hfolder c (by simp)
    rw [List.concat_eq_append, List.append_assoc, List.singleton_append, Text.split_append_cons front file hc, hpiece]
    simp

/-! ## Markers -/

/-- A place in a file where a suffix stands as a whole word. -/
def IsMarker (file : List Char) (i : Nat) : Prop :=
  ∃ suffix ∈ modelSuffixes, suffix.toList <+: file.drop i ∧
    ∀ c ∈ file[i + suffix.toList.length]?, isWordChar c = false

theorem isMarker_iff {file : List Char} {i : Nat} : IsMarker file i ↔ startsWithMarker (file.drop i) = true := by
  rw [IsMarker, startsWithMarker, List.any_eq_true]
  refine exists_congr fun suffix => and_congr_right fun _ => ?_
  rw [startsWithSuffix, Bool.and_eq_true, List.isPrefixOf_iff_prefix, List.drop_drop, List.head?_drop,
    Bool.not_eq_true']
  cases file[i + suffix.toList.length]? <;> simp

/-- A marker that no other one precedes. -/
structure FirstMarker (file : List Char) (i : Nat) : Prop where
  /-- It is a marker. -/
  isMarker : IsMarker file i
  /-- No marker precedes it. -/
  first : ∀ j < i, ¬ IsMarker file j

theorem FirstMarker.lt_length {file : List Char} {i : Nat} (h : FirstMarker file i) : i < file.length := by
  refine Nat.lt_of_not_le fun hle => ?_
  have hmarker := isMarker_iff.1 h.isMarker
  rw [List.drop_eq_nil_of_le hle] at hmarker
  exact absurd hmarker (by decide)

theorem firstMarker_zero_iff {file : List Char} : FirstMarker file 0 ↔ startsWithMarker file = true :=
  ⟨fun h => isMarker_iff.1 h.isMarker, fun h => ⟨isMarker_iff.2 h, fun _ hj => absurd hj (Nat.not_lt_zero _)⟩⟩

/-- If the first character begins no marker, the places of the rest are those of the whole text moved by one. -/
theorem firstMarker_succ_iff {c : Char} {rest : List Char} {i : Nat} (hc : startsWithMarker (c :: rest) = false) :
    FirstMarker (c :: rest) (i + 1) ↔ FirstMarker rest i := by
  have hzero : ¬ IsMarker (c :: rest) 0 := fun h => by simp [isMarker_iff, hc] at h
  have hsucc : ∀ j, IsMarker (c :: rest) (j + 1) ↔ IsMarker rest j := fun j => by
    rw [isMarker_iff, isMarker_iff, List.drop_succ_cons]
  constructor
  · rintro ⟨hmarker, hfirst⟩
    exact ⟨(hsucc i).1 hmarker, fun j hj hj' => hfirst (j + 1) (Nat.succ_lt_succ hj) ((hsucc j).2 hj')⟩
  · rintro ⟨hmarker, hfirst⟩
    refine ⟨(hsucc i).2 hmarker, fun j hj => ?_⟩
    cases j with
    | zero => exact hzero
    | succ j => exact fun hj' => hfirst j (Nat.lt_of_succ_lt_succ hj) ((hsucc j).1 hj')

/-- **Going through a text from the left** ends at its first marker. -/
theorem beforeMarker?_eq_some_iff {s name : List Char} :
    beforeMarker? s = some name ↔ ∃ i, FirstMarker s i ∧ name = s.take i := by
  induction s generalizing name with
  | nil =>
    refine iff_of_false nofun ?_
    rintro ⟨i, hi, -⟩
    exact absurd hi.lt_length (Nat.not_lt_zero i)
  | cons c rest ih =>
    rw [beforeMarker?]
    split
    · rename_i hmarker
      have hzero := firstMarker_zero_iff.2 hmarker
      constructor
      · rintro h
        exact ⟨0, hzero, (Option.some.inj h).symm⟩
      · rintro ⟨i, hi, rfl⟩
        rcases Nat.eq_zero_or_pos i with rfl | hpos
        · rfl
        · exact absurd hzero.isMarker (hi.first 0 hpos)
    · rename_i hmarker
      rw [Bool.not_eq_true] at hmarker
      rw [Option.map_eq_some_iff]
      constructor
      · rintro ⟨front, hfront, rfl⟩
        obtain ⟨i, hi, rfl⟩ := ih.1 hfront
        exact ⟨i + 1, (firstMarker_succ_iff hmarker).2 hi, rfl⟩
      · rintro ⟨i, hi, rfl⟩
        cases i with
        | zero => rw [firstMarker_zero_iff, hmarker] at hi; cases hi
        | succ i => exact ⟨rest.take i, ih.2 ⟨i, (firstMarker_succ_iff hmarker).1 hi, rfl⟩, rfl⟩

/-- **A name ends at the first marker** of the file, which is not at the front. -/
theorem modelName?_eq_some_iff {file path name : List Char} (hfile : IsFileOf file path) :
    modelName? path = some name ↔ ∃ i, 0 < i ∧ FirstMarker file i ∧ name = file.take i := by
  rw [modelName?_eq_some, fileOf_eq hfile, beforeMarker?_eq_some_iff]
  constructor
  · rintro ⟨⟨i, hi, rfl⟩, hne⟩
    refine ⟨i, Nat.pos_of_ne_zero ?_, hi, rfl⟩
    rintro rfl
    exact hne rfl
  · rintro ⟨i, hpos, hi, rfl⟩
    refine ⟨⟨i, hi, rfl⟩, fun hnil => ?_⟩
    have hlength := congrArg List.length hnil
    rw [List.length_take_of_le (Nat.le_of_lt hi.lt_length), List.length_nil] at hlength
    omega

/-! ## Names that are put together with a suffix -/

/-- A suffix is a point and letters. -/
theorem exists_suffix_eq {suffix : String} (h : suffix ∈ modelSuffixes) :
    ∃ letters, suffix.toList = '.' :: letters ∧ '.' ∉ letters := by
  simp only [modelSuffixes, List.mem_cons, List.not_mem_nil, or_false] at h
  rcases h with rfl | rfl | rfl | rfl
  all_goals exact ⟨_, rfl, by decide⟩

theorem isSeparator_of_mem_suffix : ∀ suffix ∈ modelSuffixes, ∀ c ∈ suffix.toList, isSeparator c = false := by
  have hall : (modelSuffixes.all fun suffix => suffix.toList.all fun c => !isSeparator c) = true := by decide
  simpa only [List.all_eq_true, Bool.not_eq_true'] using hall

/-- A suffix that begins in front of a point ends there at the latest. -/
theorem prefix_of_prefix_append {suffix : String} (h : suffix ∈ modelSuffixes) {s letters : List Char} (hs : s ≠ [])
    (hstarts : suffix.toList <+: s ++ '.' :: letters) : suffix.toList <+: s := by
  obtain ⟨own, hown, hpoint⟩ := exists_suffix_eq h
  rcases Nat.le_total suffix.toList.length s.length with hle | hle
  · exact List.prefix_of_prefix_length_le hstarts (List.prefix_append s _) hle
  · -- otherwise the suffix goes on behind the point, which is not at the front of it
    obtain ⟨more, hmore⟩ := List.prefix_of_prefix_length_le (List.prefix_append s _) hstarts hle
    rw [← hmore, List.prefix_append_right_inj] at hstarts
    cases more with
    | nil =>
      have hself : suffix.toList = s := by rw [← hmore, List.append_nil]
      exact hself ▸ List.prefix_rfl
    | cons c rest =>
      obtain ⟨rfl, -⟩ := List.cons_prefix_cons.1 hstarts
      obtain ⟨d, front, rfl⟩ := List.exists_cons_of_ne_nil hs
      rw [hown, List.cons_append, List.cons.injEq] at hmore
      exact absurd (hmore.2 ▸ List.mem_append_right front List.mem_cons_self) hpoint

/-- **No marker comes from putting a suffix behind a name**, but for the one at the end of the name. -/
theorem isMarker_of_append {suffix : String} (h : suffix ∈ modelSuffixes) {name : List Char} {i : Nat}
    (hi : i < name.length) (hmarker : IsMarker (name ++ suffix.toList) i) : IsMarker name i := by
  obtain ⟨letters, hsuffix, -⟩ := exists_suffix_eq h
  obtain ⟨other, hother, hstarts, hend⟩ := hmarker
  rw [List.drop_append_of_le_length (Nat.le_of_lt hi), hsuffix] at hstarts
  have hinside := prefix_of_prefix_append hother (by simpa using hi) hstarts
  have hlength := hinside.length_le
  rw [List.length_drop] at hlength
  refine ⟨other, hother, hinside, fun c hc => hend c ?_⟩
  have hlt := (List.getElem?_eq_some_iff.1 hc).1
  rw [List.getElem?_append_left hlt]
  exact hc

theorem firstMarker_append {suffix : String} (h : suffix ∈ modelSuffixes) {name : List Char}
    (hname : ∀ i, ¬ IsMarker name i) : FirstMarker (name ++ suffix.toList) name.length where
  isMarker := ⟨suffix, h, by simp, by simp⟩
  first i hi hmarker := hname i (isMarker_of_append h hi hmarker)

end ModelPath

/-! ## The rule -/

/-- **What the name of a model is**, for the path of its file. -/
structure CutsAtFirstMarker (path : String) : Prop where
  /-- A path has one file. -/
  file : ∃ file, ModelPath.IsFileOf file path.toList ∧ ∀ other, ModelPath.IsFileOf other path.toList → other = file
  /-- The path has a name if there is a marker in the file and the first one is not at the front; the name is what
  stands before it. -/
  name_iff : ∀ file, ModelPath.IsFileOf file path.toList → ∀ name, modelName? path = some name ↔
    ∃ i, 0 < i ∧ ModelPath.FirstMarker file i ∧ name.toList = file.take i
  /-- A name is not empty, and there is no separator and no marker of the file in it. -/
  name : ∀ file, ModelPath.IsFileOf file path.toList → ∀ name, modelName? path = some name →
    name ≠ "" ∧ (∀ c ∈ name.toList, ModelPath.isSeparator c = false) ∧
      ∀ i < name.toList.length, ¬ ModelPath.IsMarker file i
  /-- A folder, a name without separators and markers, and a suffix are the path of that name. -/
  built : ∀ folder name suffix, path = folder ++ name ++ suffix → ModelPath.IsFolder folder.toList → name ≠ "" →
    (∀ c ∈ name.toList, ModelPath.isSeparator c = false) → (∀ i, ¬ ModelPath.IsMarker name.toList i) →
    suffix ∈ modelSuffixes → modelName? path = some name

theorem cutsAtFirstMarker (path : String) : CutsAtFirstMarker path := by
  have hname : ∀ file, ModelPath.IsFileOf file path.toList → ∀ name, modelName? path = some name ↔
      ∃ i, 0 < i ∧ ModelPath.FirstMarker file i ∧ name.toList = file.take i := by
    intro file hfile name
    rw [← ModelPath.modelName?_eq_some_iff hfile, modelName?, Option.map_eq_some_iff]
    constructor
    · rintro ⟨found, hfound, rfl⟩
      rwa [String.toList_ofList]
    · intro hfound
      exact ⟨name.toList, hfound, String.ofList_toList⟩
  refine ⟨?_, hname, ?_, ?_⟩
  · obtain ⟨file, hfile⟩ := ModelPath.exists_isFileOf path.toList
    exact ⟨file, hfile, fun other hother => (ModelPath.fileOf_eq hother).symm.trans (ModelPath.fileOf_eq hfile)⟩
  · intro file hfile name hfound
    obtain ⟨i, hpos, hi, htake⟩ := (hname file hfile name).1 hfound
    have hlength : name.toList.length = i := by rw [htake, List.length_take_of_le (Nat.le_of_lt hi.lt_length)]
    refine ⟨?_, fun c hc => hfile.noSeparator c (List.take_subset i file (htake ▸ hc)), hlength ▸ hi.first⟩
    rintro rfl
    exact absurd hlength (Nat.ne_of_lt hpos)
  · intro folder name suffix hpath hfolder hne hseparator hmarker hsuffix
    have hfile : ModelPath.IsFileOf (name.toList ++ suffix.toList) path.toList := {
      folder := ⟨folder.toList, hfolder, by rw [hpath, String.toList_append, String.toList_append, List.append_assoc]⟩
      noSeparator := List.forall_mem_append.2 ⟨hseparator, ModelPath.isSeparator_of_mem_suffix suffix hsuffix⟩ }
    have hpos : 0 < name.toList.length := List.length_pos_iff.2 fun hnil => hne (String.toList_inj.1 hnil)
    exact (hname _ hfile name).2 ⟨_, hpos, ModelPath.firstMarker_append hsuffix hmarker, List.take_left.symm⟩

/-- Other suffixes and those that go on are part of the name, and what follows the marker is not looked at. -/
example : modelName? "a.prism/b\\c.pmx.2.nm.old.prism" = some "c.pmx.2" := by decide

end CheckerTrials
