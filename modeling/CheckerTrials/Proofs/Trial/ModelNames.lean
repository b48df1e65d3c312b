import CheckerTrials.Proofs.Text.Words
import CheckerTrials.Proofs.Trial.Sections

/-!
# What the names of models are made of

The name of a model comes into a trial by one way only: a word of some command line is taken for the path of a
model file, and the name is cut out of its last part.  Command lines are read from files that anyone may have
written, but a word has no blank in it and the last part of a path no separator.  So whatever the files say, a
trial is about a model whose name is a single part of a path (`isModelName_of_loadResults`).
-/

set_option autoImplicit false

namespace CheckerTrials

/-- A name as a model has it: a part of a path, without blanks. -/
structure IsModelName (name : String) : Prop where
  /-- It is not empty. -/
  ne_empty : name ≠ ""
  /-- It holds no slash. -/
  slash : '/' ∉ name.toList
  /-- It holds no backslash. -/
  backslash : '\\' ∉ name.toList
  /-- It holds no blank. -/
  blank : ∀ c ∈ name.toList, Text.isBlank c = false

/-! ## Paths of models -/

/-- A name is cut out of a piece of the path. -/
theorem exists_piece_of_modelName? {path model : String} (h : modelName? path = some model) :
    ∃ piece ∈ Text.split ModelPath.isSeparator path.toList, ∃ rest, piece = model.toList ++ rest := by
  obtain ⟨name, hname, rfl⟩ := Option.map_eq_some_iff.1 h
  obtain ⟨rest, hfile, -⟩ := ModelPath.beforeMarker?_eq_some (ModelPath.modelName?_eq_some.1 hname).1
  refine ⟨_, ModelPath.fileOf_mem_split path.toList, rest, ?_⟩
  rw [hfile, String.toList_ofList]

/-- The name that is cut out of a path without blanks is the name of a model. -/
theorem isModelName_of_modelName? {path model : String}
    (hblank : ∀ c ∈ path.toList, Text.isBlank c = false) (h : modelName? path = some model) :
    IsModelName model := by
  obtain ⟨piece, hpiece, rest, rfl⟩ := exists_piece_of_modelName? h
  have hseparator : ∀ c ∈ model.toList, ModelPath.isSeparator c = false := fun c hc =>
    Text.eq_false_of_mem_split hpiece c (List.mem_append_left rest hc)
  obtain ⟨name, hname, rfl⟩ := Option.map_eq_some_iff.1 h
  refine ⟨fun hempty => (ModelPath.modelName?_eq_some.1 hname).2 ?_, fun hc => ?_, fun hc => ?_,
    fun c hc => hblank c (Text.mem_of_mem_split hpiece (List.mem_append_left rest hc))⟩
  · simpa using congrArg String.toList hempty
  · exact absurd (hseparator '/' hc) (by decide)
  · exact absurd (hseparator '\\' hc) (by decide)

/-! ## Command lines -/

namespace Invocation

/-- Every value among the items is a word. -/
theorem mem_words_of_value {words : List String} {name value : String}
    (h : Item.option name (some value) ∈ itemsOf words) : value ∈ words := by
  induction words using itemsOf.induct with
  | case1 => cases h
  | case2 word =>
    rw [itemsOf, List.mem_singleton] at h
    split at h <;> cases h
  | case3 word next rest hword hnext ih =>
    rw [itemsOf, if_pos hword, if_pos hnext, List.mem_cons] at h
    rcases h with h | h
    · cases h
    · exact List.mem_cons_of_mem word (ih h)
  | case4 word next rest hword hnext ih =>
    rw [itemsOf, if_pos hword, if_neg hnext, List.mem_cons] at h
    rcases h with h | h
    · cases h
      exact List.mem_cons_of_mem word List.mem_cons_self
    · exact List.mem_cons_of_mem word (List.mem_cons_of_mem next (ih h))
  | case5 word next rest hword ih =>
    rw [itemsOf, if_neg hword, List.mem_cons] at h
    rcases h with h | h
    · cases h
    · exact List.mem_cons_of_mem word (ih h)

/-- The value of an option is a word. -/
theorem mem_words_of_valueIn {words names : List String} {value : String}
    (h : valueIn (options ⟨"", itemsOf words⟩) names = some value) : value ∈ words := by
  obtain ⟨⟨name, found⟩, hfind, hvalue⟩ := Option.bind_eq_some_iff.1 h
  obtain ⟨item, hitem, hoption⟩ := List.mem_filterMap.1 (List.mem_of_find?_eq_some hfind)
  cases item with
  | argument word => cases hoption
  | option other there =>
    cases hoption
    obtain rfl : found = some value := hvalue
    exact mem_words_of_value hitem

/-- The model of a command line is cut out of one of its words. -/
theorem exists_word_of_parse {line : String} {i : Invocation} (h : parse line = .ok i) :
    ∃ word ∈ wordsOf line, modelName? word = some i.model := by
  simp only [parse] at h
  split at h
  · cases h
  · rename_i path hpath
    split at h
    · cases h
    · rename_i model hmodel
      cases h
      refine ⟨path, ?_, hmodel⟩
      rcases Option.or_eq_some_iff.1 hpath with hvalue | ⟨-, hfound⟩
      · exact mem_words_of_valueIn hvalue
      · exact List.mem_of_find?_eq_some hfound

/-- **The model of a command line has the name of a model**, whatever the line says. -/
theorem isModelName_of_parse {line : String} {i : Invocation} (h : parse line = .ok i) :
    IsModelName i.model := by
  obtain ⟨word, hword, hmodel⟩ := exists_word_of_parse h
  refine isModelName_of_modelName? (fun c hc => ?_) hmodel
  obtain ⟨letters, hletters, rfl⟩ := List.mem_map.1 hword
  rw [String.toList_ofList] at hc
  exact Text.eq_false_of_mem_words hletters c hc

end Invocation

/-! ## Trials -/

/-- The model of a text result is that of the command line in it. -/
theorem TextResult.isModelName_of_parse {text : String} {mode : Trailing} {iteration : Nat}
    {t : Trial Float} (h : (parse text mode iteration).value = .ok t) : IsModelName t.model := by
  obtain ⟨i, times, lower, upper, states, missing, haccepted, -, rfl⟩ := value_parse_eq_ok_iff.1 h
  obtain ⟨line, -, hline⟩ := haccepted.commandLine
  exact Invocation.isModelName_of_parse hline

/-- The model of a failed trial is that of the command line beside it or in it. -/
theorem isModelName_of_failedTrial {d : Disk} {base : Path} {failure : Failure} {iteration : Nat}
    {t : Trial Float} (h : (failedTrial d base failure iteration).value = some t) :
    IsModelName t.model := by
  rw [value_failedTrial] at h
  obtain ⟨i, hrecorded, rfl⟩ := Option.map_eq_some_iff.1 h
  obtain ⟨line, -, hline⟩ := List.exists_of_findSome?_eq_some hrecorded
  exact Invocation.isModelName_of_parse (toOption_eq_some_iff.1 hline)

/-- **Every trial is about a model with the name of one**, whatever the files hold that it was read from. -/
theorem isModelName_of_loadResults {d : Disk} {root : Path} {options : LoadOptions}
    {trials : List (Trial Float)} (h : (loadResults d root options).value = .ok trials)
    {t : Trial Float} (ht : t ∈ trials) : IsModelName t.model := by
  obtain ⟨base, iteration, hrun⟩ := exists_of_mem_loadResults h ht
  rcases cases_of_loadRun hrun with ⟨s, -, hs⟩ | ⟨failure, hf⟩
  · exact TextResult.isModelName_of_parse hs
  · exact isModelName_of_failedTrial hf

end CheckerTrials
