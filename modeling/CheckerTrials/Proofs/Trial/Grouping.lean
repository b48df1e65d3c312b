import CheckerTrials.Trial.Invocation

/-!
# The groups that the words of a command line form

Nothing on a command line is lost when it is read, and nothing is read twice.  Its words fall into groups, one after
the other: an argument, an option alone, or an option with the word behind it as its value.  Which word begins a
group of which kind is decided by the word and the one behind it (`Group.Fits`), so that there is one way to form the
groups (`eq_of_isGrouping`), and it is the one that is found (`exists_isGrouping`).

What is read from a line is then said by its groups (`exists_readsGroups`): the arguments and options are theirs in
order, an option is looked up among them by its first occurrence, and one path decides whether the line is accepted
and which model it is about (`IsModelPath`).
-/

set_option autoImplicit false

namespace CheckerTrials

namespace Invocation

/-! ## Groups -/

/-- A word that is an option: it begins with a dash, and it cannot be read as a number. -/
def IsOptionWord (word : String) : Prop :=
  word.toList.head? = some '-' ∧ Decimal.float? word.toList = none

theorem isOption_iff {word : String} : isOption word = true ↔ IsOptionWord word := by
  have hnumeral : Decimal.isNumeral word.toList = false ↔ Decimal.float? word.toList = none := by
    rw [← Bool.not_eq_true, Decimal.isNumeral_iff, Option.eq_none_iff_forall_ne_some, not_exists]
  simp [isOption, IsOptionWord, hnumeral]

/-- Words of a command line that belong together. -/
inductive Group
  /-- A word that belongs to no option. -/
  | argument (word : String)
  /-- An option without a value. -/
  | flag (word : String)
  /-- An option and its value. -/
  | setting (word value : String)
  deriving DecidableEq, Repr

namespace Group

/-- The words of a group. -/
def words : Group → List String
  | argument word => [word]
  | flag word => [word]
  | setting word value => [word, value]

/-- **A group can stand before a word**, or at the end of the line.  An option has the next word as its value exactly
if there is one and it is no option. -/
def Fits (next : Option String) : Group → Prop
  | argument word => ¬ IsOptionWord word
  | flag word => IsOptionWord word ∧ ∀ other, next = some other → IsOptionWord other
  | setting word value => IsOptionWord word ∧ ¬ IsOptionWord value

/-- The argument that a group is. -/
def argument? : Group → Option String
  | argument word => some word
  | flag _ => none
  | setting _ _ => none

/-- The option that a group is, without the dashes in front, and its value. -/
def option? : Group → Option (String × Option String)
  | argument _ => none
  | flag word => some (optionName word, none)
  | setting word value => some (optionName word, some value)

/-- The part of the line that a group is read as. -/
def item : Group → Item
  | argument word => .argument word
  | flag word => .option (optionName word) none
  | setting word value => .option (optionName word) (some value)

end Group

/-- **The words of a line form these groups.** -/
structure IsGrouping (words : List String) (groups : List Group) : Prop where
  /-- The groups hold the words, in order. -/
  joined : groups.flatMap Group.words = words
  /-- Each of them can stand before the rest. -/
  fits : ∀ before group after, groups = before ++ group :: after → group.Fits (after.flatMap Group.words).head?

variable {words rest : List String} {group : Group} {groups others : List Group}

theorem isGrouping_nil : IsGrouping [] [] := ⟨rfl, fun _ _ _ h => by simp at h⟩

theorem isGrouping_cons (hfits : group.Fits rest.head?) (h : IsGrouping rest groups) :
    IsGrouping (group.words ++ rest) (group :: groups) where
  joined := by rw [List.flatMap_cons, h.joined]
  fits before other after heq := by
    cases before with
    | nil =>
      obtain ⟨rfl, rfl⟩ := List.cons.inj heq
      rwa [h.joined]
    | cons _ before => exact h.fits before other after (List.cons.inj heq).2

theorem IsGrouping.fits_head (h : IsGrouping words (group :: groups)) :
    group.Fits (groups.flatMap Group.words).head? :=
  h.fits [] group groups rfl

theorem IsGrouping.tail (h : IsGrouping words (group :: groups)) :
    IsGrouping (groups.flatMap Group.words) groups where
  joined := rfl
  fits before other after heq := h.fits (group :: before) other after (by rw [heq, List.cons_append])

theorem fits_argument {word : String} {next : Option String} (h : ¬ isOption word = true) :
    (Group.argument word).Fits next :=
  fun hword => h (isOption_iff.2 hword)

/-- **The words of a line form groups**, and they are read as those. -/
theorem exists_isGrouping (words : List String) :
    ∃ groups, IsGrouping words groups ∧ itemsOf words = groups.map Group.item := by
  induction words using itemsOf.induct with
  | case1 => exact ⟨[], isGrouping_nil, rfl⟩
  | case2 word =>
    by_cases hword : isOption word = true
    · have hfits : (Group.flag word).Fits (List.head? []) := ⟨isOption_iff.1 hword, fun _ h => by cases h⟩
      refine ⟨[.flag word], isGrouping_cons hfits isGrouping_nil, ?_⟩
      rw [itemsOf, if_pos hword]
      rfl
    · refine ⟨[.argument word], isGrouping_cons (fits_argument hword) isGrouping_nil, ?_⟩
      rw [itemsOf, if_neg hword]
      rfl
  | case3 word next rest hword hnext ih =>
    obtain ⟨groups, hgroups, hitems⟩ := ih
    have hfits : (Group.flag word).Fits (next :: rest).head? :=
      ⟨isOption_iff.1 hword, fun other h => by cases h; exact isOption_iff.1 hnext⟩
    refine ⟨.flag word :: groups, isGrouping_cons hfits hgroups, ?_⟩
    rw [itemsOf, if_pos hword, if_pos hnext, hitems]
    rfl
  | case4 word next rest hword hnext ih =>
    obtain ⟨groups, hgroups, hitems⟩ := ih
    have hfits : (Group.setting word next).Fits rest.head? :=
      ⟨isOption_iff.1 hword, fun h => hnext (isOption_iff.2 h)⟩
    refine ⟨.setting word next :: groups, isGrouping_cons hfits hgroups, ?_⟩
    rw [itemsOf, if_pos hword, if_neg hnext, hitems]
    rfl
  | case5 word next rest hword ih =>
    obtain ⟨groups, hgroups, hitems⟩ := ih
    refine ⟨.argument word :: groups, isGrouping_cons (fits_argument hword) hgroups, ?_⟩
    rw [itemsOf, if_neg hword, hitems]
    rfl

/-- The first group is known from the words. -/
theorem eq_of_fits {g h : Group} {gs hs : List String} (hg : g.Fits gs.head?) (hh : h.Fits hs.head?)
    (heq : g.words ++ gs = h.words ++ hs) : g = h ∧ gs = hs := by
  cases g <;> cases h <;> obtain ⟨rfl, htail⟩ := List.cons.inj heq
  case argument.argument => exact ⟨rfl, htail⟩
  case argument.flag => exact absurd hh.1 hg
  case argument.setting => exact absurd hh.1 hg
  case flag.argument => exact absurd hg.1 hh
  case flag.flag => exact ⟨rfl, htail⟩
  case flag.setting value =>
    obtain rfl : gs = value :: hs := htail
    exact absurd (hg.2 value rfl) hh.2
  case setting.argument => exact absurd hg.1 hh
  case setting.flag value =>
    obtain rfl : value :: gs = hs := htail
    exact absurd (hh.2 value rfl) hg.2
  case setting.setting =>
    obtain ⟨rfl, rfl⟩ := List.cons.inj htail
    exact ⟨rfl, rfl⟩

theorem words_ne_nil (group : Group) (rest : List String) : group.words ++ rest ≠ [] := by
  cases group <;> exact List.cons_ne_nil _ _

/-- **They form no other groups.** -/
theorem eq_of_isGrouping (hgroups : IsGrouping words groups) (hothers : IsGrouping words others) :
    groups = others := by
  induction groups generalizing words others with
  | nil =>
    cases others with
    | nil => rfl
    | cons h hs => exact absurd (hothers.joined.trans hgroups.joined.symm) (words_ne_nil h _)
  | cons g gs ih =>
    cases others with
    | nil => exact absurd (hgroups.joined.trans hothers.joined.symm) (words_ne_nil g _)
    | cons h hs =>
      obtain ⟨rfl, htail⟩ := eq_of_fits hgroups.fits_head hothers.fits_head
        (hgroups.joined.trans hothers.joined.symm)
      rw [ih hgroups.tail (htail ▸ hothers.tail)]

/-! ## What is read -/

/-- The first of a list for which a condition holds. -/
def IsFirst {α : Type} (condition : α → Prop) (xs : List α) (x : α) : Prop :=
  condition x ∧ ∃ before after, xs = before ++ x :: after ∧ ∀ y ∈ before, ¬ condition y

theorem find?_eq_some_iff_isFirst {α : Type} {p : α → Bool} {condition : α → Prop}
    (hp : ∀ x, p x = true ↔ condition x) {xs : List α} {x : α} :
    xs.find? p = some x ↔ IsFirst condition xs x := by
  simp only [List.find?_eq_some_iff_append, IsFirst, hp, ← Bool.not_eq_true, Bool.not_eq_eq_eq_not, Bool.not_true]

/-- The options of a line with their values, from its groups. -/
def optionsOf (groups : List Group) : List (String × Option String) := groups.filterMap Group.option?

theorem arguments_eq (model : String) (groups : List Group) :
    arguments ⟨model, groups.map Group.item⟩ = groups.filterMap Group.argument? := by
  rw [arguments, List.filterMap_map]
  congr 1
  funext group
  cases group <;> rfl

theorem options_eq (model : String) (groups : List Group) :
    options ⟨model, groups.map Group.item⟩ = optionsOf groups := by
  rw [options, List.filterMap_map, optionsOf]
  congr 1
  funext group
  cases group <;> rfl

/-- The value of an option is that of its first occurrence. -/
theorem valueIn_eq_some_iff {options : List (String × Option String)} {names : List String} {value : String} :
    valueIn options names = some value ↔
      ∃ name, IsFirst (fun option => option.1 ∈ names) options (name, some value) := by
  have hfirst : ∀ option, (options.find? fun option => names.contains option.1) = some option ↔
      IsFirst (fun option => option.1 ∈ names) options option := fun option =>
    find?_eq_some_iff_isFirst fun _ => List.contains_iff_mem
  simp only [valueIn, Option.bind_eq_some_iff, Prod.exists, hfirst]
  constructor
  · rintro ⟨name, _, hfirst, rfl⟩
    exact ⟨name, hfirst⟩
  · rintro ⟨name, hfirst⟩
    exact ⟨name, some value, hfirst, rfl⟩

/-- **The path that says which model a line is about**: the value of the first model option, or if that option has
none or is not there, the first word that is the path of a model. -/
inductive IsModelPath (words : List String) (groups : List Group) (path : String) : Prop
  | option (name : String) (hfirst : IsFirst (fun option => option.1 ∈ modelOptions) (optionsOf groups) (name, some path))
  | word (hno : ∀ name value, ¬ IsFirst (fun option => option.1 ∈ modelOptions) (optionsOf groups) (name, some value))
    (hfirst : IsFirst (fun word => ∃ model, modelName? word = some model) words path)

theorem or_find?_eq_some_iff {path : String} :
    (valueIn (optionsOf groups) modelOptions).or (words.find? fun word => (modelName? word).isSome) = some path ↔
      IsModelPath words groups path := by
  rw [Option.or_eq_some_iff, valueIn_eq_some_iff, Option.eq_none_iff_forall_ne_some,
    find?_eq_some_iff_isFirst fun word => Option.isSome_iff_exists]
  constructor
  · rintro (⟨name, hfirst⟩ | ⟨hno, hfirst⟩)
    · exact .option name hfirst
    · exact .word (fun name value h => hno value (valueIn_eq_some_iff.2 ⟨name, h⟩)) hfirst
  · rintro (⟨name, hfirst⟩ | ⟨hno, hfirst⟩)
    · exact .inl ⟨name, hfirst⟩
    · refine .inr ⟨fun value h => ?_, hfirst⟩
      obtain ⟨name, h⟩ := valueIn_eq_some_iff.1 h
      exact hno name value h

section

variable {line path other : String} (hitems : itemsOf (wordsOf line) = groups.map Group.item)

theorem IsModelPath.unique (hpath : IsModelPath words groups path) (hother : IsModelPath words groups other) :
    path = other := by
  rw [← or_find?_eq_some_iff] at hpath hother
  exact Option.some.inj (hpath.symm.trans hother)

include hitems

/-- A line with a model path is accepted if the path names a model. -/
theorem parse_of_isModelPath (hpath : IsModelPath (wordsOf line) groups path) :
    parse line = ((modelName? path).map fun model => ⟨model, groups.map Group.item⟩).elim
      (.error (.noSuffix path)) .ok := by
  rw [parse]
  simp only [hitems, options_eq, or_find?_eq_some_iff.2 hpath]
  cases modelName? path <;> rfl

/-- A line without a model path is rejected. -/
theorem parse_of_forall_not_isModelPath (hno : ∀ path, ¬ IsModelPath (wordsOf line) groups path) :
    parse line = .error (.noModel line) := by
  have hnone : (valueIn (optionsOf groups) modelOptions).or
      ((wordsOf line).find? fun word => (modelName? word).isSome) = none :=
    Option.eq_none_iff_forall_ne_some.2 fun path h => hno path (or_find?_eq_some_iff.1 h)
  rw [parse]
  simp only [hitems, options_eq, hnone]

theorem exists_parse_eq_ok_iff {model : String} : (∃ i, parse line = .ok i ∧ i.model = model) ↔
    ∃ path, IsModelPath (wordsOf line) groups path ∧ modelName? path = some model := by
  constructor
  · rintro ⟨i, hi, rfl⟩
    by_cases hpath : ∃ path, IsModelPath (wordsOf line) groups path
    · obtain ⟨path, hpath⟩ := hpath
      rw [parse_of_isModelPath hitems hpath] at hi
      cases hmodel : modelName? path <;> rw [hmodel] at hi <;> cases hi
      exact ⟨path, hpath, hmodel⟩
    · rw [parse_of_forall_not_isModelPath hitems (not_exists.1 hpath)] at hi
      cases hi
  · rintro ⟨path, hpath, hmodel⟩
    exact ⟨_, by rw [parse_of_isModelPath hitems hpath, hmodel]; rfl, rfl⟩

theorem parse_eq_error_iff {error : InvocationError} : parse line = .error error ↔
    (error = .noModel line ∧ ∀ path, ¬ IsModelPath (wordsOf line) groups path) ∨
      ∃ path, error = .noSuffix path ∧ IsModelPath (wordsOf line) groups path ∧ modelName? path = none := by
  constructor
  · intro herror
    by_cases hpath : ∃ path, IsModelPath (wordsOf line) groups path
    · obtain ⟨path, hpath⟩ := hpath
      rw [parse_of_isModelPath hitems hpath] at herror
      cases hmodel : modelName? path <;> rw [hmodel] at herror <;> cases herror
      exact .inr ⟨path, rfl, hpath, hmodel⟩
    · rw [parse_of_forall_not_isModelPath hitems (not_exists.1 hpath)] at herror
      cases herror
      exact .inl ⟨rfl, not_exists.1 hpath⟩
  · rintro (⟨rfl, hno⟩ | ⟨path, rfl, hpath, hmodel⟩)
    · exact parse_of_forall_not_isModelPath hitems hno
    · rw [parse_of_isModelPath hitems hpath, hmodel]
      rfl

end

/-- The name of an option is what is left of its word without the dashes in front. -/
theorem exists_dashes (word : String) : ∃ dashes, (∀ c ∈ dashes, c = '-') ∧
    word.toList = dashes ++ (optionName word).toList ∧ (optionName word).toList.head? ≠ some '-' := by
  refine ⟨word.toList.takeWhile (· == '-'), fun c hc => ?_, ?_, fun h => ?_⟩
  · exact beq_iff_eq.1 (List.all_eq_true.1 List.all_takeWhile c hc)
  · rw [optionName, String.toList_ofList, List.takeWhile_append_dropWhile]
  · rw [optionName, String.toList_ofList] at h
    have := List.head?_dropWhile_not (· == '-') word.toList
    rw [h] at this
    exact absurd this (by decide)

/-- **What is read from a line whose words form these groups.** -/
structure ReadsGroups (line : String) (groups : List Group) : Prop where
  /-- The words of the line form them. -/
  grouping : IsGrouping (wordsOf line) groups
  /-- They form no others. -/
  unique : ∀ others, IsGrouping (wordsOf line) others → others = groups
  /-- The line is accepted, and is about a model, exactly if its model path names that model. -/
  accepted : ∀ model, (∃ i, parse line = .ok i ∧ i.model = model) ↔
    ∃ path, IsModelPath (wordsOf line) groups path ∧ modelName? path = some model
  /-- It is rejected exactly if it has no model path, or one that names no model. -/
  rejected : ∀ error, parse line = .error error ↔
    (error = .noModel line ∧ ∀ path, ¬ IsModelPath (wordsOf line) groups path) ∨
      ∃ path, error = .noSuffix path ∧ IsModelPath (wordsOf line) groups path ∧ modelName? path = none
  /-- The arguments are those of the groups, in order. -/
  arguments : ∀ i, parse line = .ok i → i.arguments = groups.filterMap Group.argument?
  /-- The options are those of the groups, in order. -/
  options : ∀ i, parse line = .ok i → i.options = optionsOf groups
  /-- The name of an option is the word without the dashes in front. -/
  name : ∀ word, ∃ dashes, (∀ c ∈ dashes, c = '-') ∧ word.toList = dashes ++ (optionName word).toList ∧
    (optionName word).toList.head? ≠ some '-'
  /-- The value of an option is that of its first occurrence, if it has one there. -/
  option_iff : ∀ i, parse line = .ok i → ∀ name value, i.option? name = some value ↔
    IsFirst (fun option => option.1 = name) (optionsOf groups) (name, some value)
  /-- An option is in the line exactly if it is one of those, with or without a value. -/
  hasFlag_iff : ∀ i, parse line = .ok i → ∀ name, i.hasFlag name = true ↔ ∃ value, (name, value) ∈ optionsOf groups

/-- **The words of every line form groups in one way, and the line is read as those.** -/
theorem exists_readsGroups (line : String) : ∃ groups, ReadsGroups line groups := by
  obtain ⟨groups, hgroups, hitems⟩ := exists_isGrouping (wordsOf line)
  have hread : ∀ i, parse line = .ok i → i.items = groups.map Group.item := fun i hi => by
    rw [items_of_parse hi, hitems]
  have hoptions : ∀ i, parse line = .ok i → i.options = optionsOf groups := fun i hi => by
    rw [options, hread i hi]
    exact options_eq i.model groups
  refine ⟨groups, hgroups, fun others hothers => eq_of_isGrouping hothers hgroups,
    fun _ => exists_parse_eq_ok_iff hitems, fun _ => parse_eq_error_iff hitems, fun i hi => ?_, hoptions,
    exists_dashes, fun i hi name value => ?_, fun i hi name => ?_⟩
  · rw [Invocation.arguments, hread i hi]
    exact arguments_eq i.model groups
  · rw [option?, hoptions i hi, valueIn_eq_some_iff]
    simp only [List.mem_singleton]
    exact ⟨fun ⟨found, h⟩ => (show found = name from h.1) ▸ h, fun h => ⟨name, h⟩⟩
  · rw [hasFlag, hoptions i hi, List.any_eq_true]
    simp only [beq_iff_eq, Prod.exists]
    exact ⟨fun ⟨found, value, hmem, h⟩ => ⟨value, h ▸ hmem⟩, fun ⟨value, hmem⟩ => ⟨name, value, hmem, rfl⟩⟩

end Invocation

end CheckerTrials
