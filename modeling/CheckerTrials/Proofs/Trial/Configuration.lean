import CheckerTrials.Proofs.Decimal.Digits
import CheckerTrials.Proofs.Trial.CommandLine

/-!
# Reading the configuration back

The command line of a run says the model first, then whatever the descriptor asks for, then the flags, and the
path of the result last.  Its reader does not know which options take a value and keeps the first option of a
name.  Still it finds the model of the run and its configuration (`configuration_of_setupText`): an option begins
a new item whatever stands before it (`itemsOf_append`), so that nothing in front can swallow the options of the
flags, and only a word that is itself an axis option could come before them.

Whatever stands on the line besides, an axis option can only come from the strings of the descriptor: the path
of a model has a point in it, and the text of a double has no `o` (`mem_of_axisWord`), be it negative, infinite or
`NaN`.
-/

set_option autoImplicit false

namespace CheckerTrials

/-! ## Paths of models -/

/-- A path that names a model has a point in it. -/
theorem point_mem_of_modelName? {path model : String} (h : modelName? path = some model) :
    '.' ∈ path.toList := by
  obtain ⟨name, hname, -⟩ := Option.map_eq_some_iff.1 h
  obtain ⟨rest, hfile, hmarker⟩ := ModelPath.beforeMarker?_eq_some (ModelPath.modelName?_eq_some.1 hname).1
  have hpoint : '.' ∈ rest := by
    obtain ⟨suffix, hsuffix, hstarts⟩ := List.any_eq_true.1 hmarker
    rw [ModelPath.startsWithSuffix, Bool.and_eq_true, List.isPrefixOf_iff_prefix] at hstarts
    have hall : ∀ suffix ∈ modelSuffixes, '.' ∈ suffix.toList := by decide
    exact hstarts.1.subset (hall suffix hsuffix)
  refine Text.mem_of_mem_split (ModelPath.fileOf_mem_split path.toList) ?_
  rw [hfile]
  exact List.mem_append_right name hpoint

/-! ## Words and items -/

namespace Invocation

/-- Blanks at the ends of a line add no word. -/
theorem wordsOf_trim (line : String) :
    wordsOf (String.ofList (Text.trim line.toList)) = wordsOf line := by
  rw [wordsOf, String.toList_ofList, Text.words_trim, wordsOf]

/-- **An option begins anew**: it ends whatever stands before it. -/
theorem itemsOf_append (before : List String) {option : String} (rest : List String)
    (h : isOption option = true) :
    itemsOf (before ++ option :: rest) = itemsOf before ++ itemsOf (option :: rest) := by
  -- the cases of the reader: no word, one word, two options, an option with its value, an argument
  induction before using itemsOf.induct with
  | case1 => rfl
  | case2 word => by_cases hword : isOption word = true <;> simp [itemsOf, hword, h]
  | case3 word next more hword hnext ih => simpa [itemsOf, hword, hnext] using ih
  | case4 word next more hword hnext ih => simpa [itemsOf, hword, hnext] using ih
  | case5 word next more hword ih => simpa [itemsOf, hword] using ih

/-- An option takes the next word as its value if that is no option. -/
theorem itemsOf_cons_option {option value : String} (rest : List String) (h : isOption option = true)
    (hvalue : isOption value = false) :
    itemsOf (option :: value :: rest) = .option (optionName option) (some value) :: itemsOf rest := by
  simp [itemsOf, h, hvalue]

/-- Every option among the items is a word. -/
theorem exists_word_of_mem_itemsOf {words : List String} {name : String} {value : Option String}
    (h : Item.option name value ∈ itemsOf words) :
    ∃ word ∈ words, isOption word = true ∧ optionName word = name := by
  induction words using itemsOf.induct with
  | case1 => cases h
  | case2 word =>
    rw [itemsOf, List.mem_singleton] at h
    split at h
    · cases h
      exact ⟨word, List.mem_cons_self, ‹_›, rfl⟩
    · cases h
  | case3 word next rest hword hnext ih =>
    rw [itemsOf, if_pos hword, if_pos hnext, List.mem_cons] at h
    rcases h with h | h
    · cases h
      exact ⟨word, List.mem_cons_self, hword, rfl⟩
    · obtain ⟨found, hfound, hname⟩ := ih h
      exact ⟨found, List.mem_cons_of_mem word hfound, hname⟩
  | case4 word next rest hword hnext ih =>
    rw [itemsOf, if_pos hword, if_neg hnext, List.mem_cons] at h
    rcases h with h | h
    · cases h
      exact ⟨word, List.mem_cons_self, hword, rfl⟩
    · obtain ⟨found, hfound, hname⟩ := ih h
      exact ⟨found, List.mem_cons_of_mem word (List.mem_cons_of_mem next hfound), hname⟩
  | case5 word next rest hword ih =>
    rw [itemsOf, if_neg hword, List.mem_cons] at h
    rcases h with h | h
    · cases h
    · obtain ⟨found, hfound, hname⟩ := ih h
      exact ⟨found, List.mem_cons_of_mem word hfound, hname⟩

theorem options_of_items {i : Invocation} {before after : List Item} (h : i.items = before ++ after) :
    i.options = Invocation.options ⟨"", before⟩ ++ Invocation.options ⟨"", after⟩ := by
  rw [options, h, List.filterMap_append]
  rfl

theorem find?_options_eq_none {i : Invocation} {name : String}
    (h : ∀ value, Item.option name value ∉ i.items) :
    (i.options.find? fun option => [name].contains option.1) = none := by
  rw [List.find?_eq_none]
  intro option hoption
  obtain ⟨item, hitem, hitemOption⟩ := List.mem_filterMap.1 hoption
  cases item with
  | argument word => cases hitemOption
  | option other value =>
    cases hitemOption
    have hother : other ≠ name := fun hname => h value (hname ▸ hitem)
    simpa using hother

/-- An option that is not among the items has no value. -/
theorem option?_eq_none {i : Invocation} {name : String}
    (h : ∀ value, Item.option name value ∉ i.items) : i.option? name = none := by
  rw [option?, valueIn, find?_options_eq_none h]
  rfl

/-- **The first option counts**: its value is found if no option of its name stands before it. -/
theorem option?_eq_of_items {i : Invocation} {name : String} {value : Option String}
    {before after : List Item} (hitems : i.items = before ++ .option name value :: after)
    (hbefore : ∀ value, Item.option name value ∉ before) : i.option? name = value := by
  have hnone := find?_options_eq_none (i := ⟨"", before⟩) hbefore
  rw [option?, valueIn, options_of_items hitems, List.find?_append, hnone]
  simp [options]

/-! ## Axis options -/

/-- A word is an axis option: one or more dashes and then exactly its name. -/
def AxisWord (word : String) : Prop :=
  ∃ n, ∃ name ∈ axisOptions, word.toList = List.replicate (n + 1) '-' ++ name.toList

/-- A word is an axis option if it begins with a dash and its name is that of one. -/
theorem axisWord_iff {word : String} :
    AxisWord word ↔ word.toList.head? = some '-' ∧ optionName word ∈ axisOptions := by
  constructor
  · rintro ⟨n, name, hname, hword⟩
    have hall : ∀ name ∈ axisOptions, name.toList.dropWhile (· == '-') = name.toList := by decide
    have hdashes : ∀ c ∈ List.replicate (n + 1) '-', (c == '-') = true := by
      intro c hc
      rw [List.eq_of_mem_replicate hc]
      rfl
    refine ⟨by rw [hword]; rfl, ?_⟩
    rw [optionName, hword, List.dropWhile_append_of_pos hdashes, hall name hname, String.ofList_toList]
    exact hname
  · rintro ⟨hhead, hname⟩
    obtain ⟨rest, hword⟩ := List.head?_eq_some_iff.1 hhead
    have hdashes : ∀ c ∈ rest.takeWhile (· == '-'), c = '-' := by
      intro c hc
      exact beq_iff_eq.1 (List.all_eq_true.1 List.all_takeWhile c hc)
    refine ⟨(rest.takeWhile (· == '-')).length, _, hname, ?_⟩
    rw [optionName, String.toList_ofList, hword, List.dropWhile_cons_of_pos rfl, List.replicate_succ,
      ← List.eq_replicate_of_mem hdashes, List.cons_append, List.takeWhile_append_dropWhile]

instance : DecidablePred AxisWord := fun _ => decidable_of_iff _ axisWord_iff.symm

/-- Every axis option has an `o` in it, and no point. -/
theorem mem_of_axisWord {word : String} (h : AxisWord word) : 'o' ∈ word.toList ∧ '.' ∉ word.toList := by
  obtain ⟨n, name, hname, hword⟩ := h
  have hall : ∀ name ∈ axisOptions, 'o' ∈ name.toList ∧ '.' ∉ name.toList := by decide
  rw [hword, List.mem_append, List.mem_append]
  refine ⟨.inr (hall name hname).1, ?_⟩
  rintro (hdash | hpoint)
  · exact absurd (List.eq_of_mem_replicate hdash) (by decide)
  · exact (hall name hname).2 hpoint

/-- Words without an axis option have no item that is one. -/
theorem notMem_itemsOf {words : List String} (h : ∀ word ∈ words, ¬ AxisWord word) {name : String}
    (hname : name ∈ axisOptions) (value : Option String) : Item.option name value ∉ itemsOf words := by
  intro hitem
  obtain ⟨word, hword, hoption, rfl⟩ := exists_word_of_mem_itemsOf hitem
  rw [isOption, Bool.and_eq_true, beq_iff_eq] at hoption
  exact h word hword (axisWord_iff.2 ⟨hoption.1, hname⟩)

end Invocation

/-! ## The command line of a run -/

/-- A string stays whole on a command line: no blank is in it, and it is no axis option. -/
structure StaysWhole (s : String) : Prop where
  /-- It does not fall apart into words. -/
  isBlank : ∀ c ∈ s.toList, Text.isBlank c = false
  /-- It is not taken for an option of the flags. -/
  notAxisWord : ¬ Invocation.AxisWord s

/-- The strings that a descriptor brings into a command line, but for the path of the model. -/
def Descriptor.strings (d : Descriptor) : List String :=
  d.constants.toList ++ d.rewardModule.toList ++ d.extra

theorem StaysWhole.plain (x : Float) : StaysWhole (Decimal.plain x) where
  isBlank _ hc := Decimal.isBlank_of_isPlainChar (Decimal.mem_plain hc)
  notAxisWord haxis := by
    have hplain : Decimal.IsPlainChar 'o' := Decimal.mem_plain (Invocation.mem_of_axisWord haxis).1
    rcases hplain with hdigit | hother
    · exact absurd hdigit (by decide)
    · exact absurd hother (by decide)

/-- A path that names a model stays whole, even if it looks like an option. -/
theorem StaysWhole.path {path model : String} (hmodel : modelName? path = some model)
    (hblank : ∀ c ∈ path.toList, Text.isBlank c = false) : StaysWhole path where
  isBlank := hblank
  notAxisWord haxis := (Invocation.mem_of_axisWord haxis).2 (point_mem_of_modelName? hmodel)

/-- A rooted path stays whole. -/
theorem StaysWhole.rooted {p : Path} (h : p.isRooted = true)
    (hblank : ∀ c ∈ p.text.toList, Text.isBlank c = false) : StaysWhole p.text where
  isBlank := hblank
  notAxisWord haxis := by
    have hdash := (Invocation.axisWord_iff.1 haxis).1
    rw [Path.isRooted, beq_iff_eq, hdash] at h
    exact absurd h (by decide)

instance (s : String) : Decidable (StaysWhole s) :=
  decidable_of_iff ((∀ c ∈ s.toList, Text.isBlank c = false) ∧ ¬ Invocation.AxisWord s)
    ⟨fun h => ⟨h.1, h.2⟩, fun h => ⟨h.1, h.2⟩⟩

/-- The arguments that describe the model stay whole. -/
theorem Descriptor.staysWhole_of_mem_arguments {d : Descriptor} {model : String}
    (hmodel : d.model? = some model) (hpath : ∀ c ∈ d.path.toList, Text.isBlank c = false)
    (hstrings : ∀ s ∈ d.strings, StaysWhole s) : ∀ a ∈ d.arguments, StaysWhole a := by
  have hoption : ∀ (name : String) (value : Option String), StaysWhole name →
      (∀ s ∈ value.toList, StaysWhole s) → ∀ a ∈ optionArguments name value, StaysWhole a := by
    intro name value hname hvalue a ha
    cases value with
    | none => cases ha
    | some s =>
      rcases List.mem_cons.1 ha with rfl | ha
      · exact hname
      · exact hvalue a ha
  simp only [strings, List.forall_mem_append] at hstrings
  simp only [arguments, List.forall_mem_append]
  refine ⟨⟨⟨?_, hoption _ _ (by decide) hstrings.1.1⟩, hoption _ _ (by decide) hstrings.1.2⟩, hstrings.2⟩
  simp only [List.forall_mem_cons]
  exact ⟨by decide, by decide, .path hmodel hpath, by decide, .plain _, by decide, .plain _,
    List.forall_mem_nil _⟩

namespace Flags

/-- The arguments for the axis options. -/
def axisArguments (f : Flags) : List String :=
  ["--informationLevel", f.level.name] ++ f.method.elim [] fun m => ["--updateMethod", m.name]

/-- The arguments for the other flags. -/
def otherArguments (f : Flags) : List String :=
  (if f.errorProbability then ["--getErrorProbability"] else [])
    ++ (f.endComponents.elim [] fun e => ["--simulateMec", e.name])
    ++ (f.tolerance.elim [] fun t => ["--deltaTMethod", t.name])
    ++ (if f.ctmdp then ["--ctmdp"] else [])

theorem arguments_eq (f : Flags) : f.arguments = f.axisArguments ++ f.otherArguments := by
  simp only [arguments, axisArguments, otherArguments, List.append_assoc]

/-- The arguments for the axis options are words. -/
theorem isWord_of_mem_axisArguments (f : Flags) :
    ∀ a ∈ f.axisArguments, a.toList ≠ [] ∧ ∀ c ∈ a.toList, Text.isBlank c = false := by
  rw [axisArguments, List.forall_mem_append]
  refine ⟨by cases f.level <;> decide, ?_⟩
  cases f.method with
  | none => decide
  | some m => cases m <;> decide

/-- The configuration that flags stand for. -/
def axis (f : Flags) : String := f.level.name ++ f.method.elim "" fun m => "/" ++ m.name

theorem staysWhole_of_mem_otherArguments (f : Flags) : ∀ a ∈ f.otherArguments, StaysWhole a := by
  simp only [otherArguments, List.forall_mem_append]
  refine ⟨⟨⟨?_, ?_⟩, ?_⟩, ?_⟩
  · cases f.errorProbability <;> decide
  · cases f.endComponents with
    | none => decide
    | some e => cases e <;> decide
  · cases f.tolerance with
    | none => decide
    | some t => cases t <;> decide
  · cases f.ctmdp <;> decide

/-- The items of the axis options. -/
def axisItems (f : Flags) : List Item :=
  .option "informationLevel" (some f.level.name) ::
    f.method.elim [] fun m => [.option "updateMethod" (some m.name)]

theorem isOption_levelName (level : InformationLevel) : Invocation.isOption level.name = false := by
  cases level <;> decide

theorem isOption_methodName (method : UpdateMethod) : Invocation.isOption method.name = false := by
  cases method <;> decide

/-- **The axis options are read as they are written**, whatever stands before and after them. -/
theorem itemsOf_axisArguments (f : Flags) (before after : List String) :
    Invocation.itemsOf (before ++ (f.axisArguments ++ after)) =
      Invocation.itemsOf before ++ (f.axisItems ++ Invocation.itemsOf after) := by
  have hlevel : Invocation.isOption "--informationLevel" = true := by decide +kernel
  have hmethod : Invocation.isOption "--updateMethod" = true := by decide +kernel
  have hlevelName : Invocation.optionName "--informationLevel" = "informationLevel" := by decide
  have hmethodName : Invocation.optionName "--updateMethod" = "updateMethod" := by decide
  rw [axisArguments, List.append_assoc, List.cons_append, Invocation.itemsOf_append _ _ hlevel,
    List.singleton_append, Invocation.itemsOf_cons_option _ hlevel (isOption_levelName _), hlevelName, axisItems]
  cases f.method with
  | none => rfl
  | some m =>
    simp only [Option.elim_some, List.cons_append, List.nil_append]
    rw [Invocation.itemsOf_cons_option _ hmethod (isOption_methodName m), hmethodName]

/-- **The configuration is read** from the axis options if there are no others. -/
theorem axis?_of_items {i : Invocation} (f : Flags) {before after : List String}
    (hitems : i.items = Invocation.itemsOf before ++ (f.axisItems ++ Invocation.itemsOf after))
    (hbefore : ∀ word ∈ before, ¬ Invocation.AxisWord word)
    (hafter : ∀ word ∈ after, ¬ Invocation.AxisWord word) : i.axis? = some f.axis := by
  have hnoLevel : ∀ value, Item.option "informationLevel" value ∉ Invocation.itemsOf before :=
    Invocation.notMem_itemsOf hbefore (by decide)
  have hnoMethod : ∀ value, Item.option "updateMethod" value ∉ Invocation.itemsOf before :=
    Invocation.notMem_itemsOf hbefore (by decide)
  have hnoneAfter : ∀ value, Item.option "updateMethod" value ∉ Invocation.itemsOf after :=
    Invocation.notMem_itemsOf hafter (by decide)
  rw [axisItems, List.cons_append] at hitems
  have hlevel : i.option? "informationLevel" = some f.level.name :=
    Invocation.option?_eq_of_items hitems hnoLevel
  have hmethod : i.option? "updateMethod" = f.method.map UpdateMethod.name := by
    cases hf : f.method with
    | none =>
      refine Invocation.option?_eq_none fun value hmem => ?_
      rw [hitems, hf, List.mem_append, List.mem_cons] at hmem
      rcases hmem with hmem | hmem | hmem
      · exact hnoMethod value hmem
      · simp at hmem
      · exact hnoneAfter value hmem
    | some m =>
      rw [hf, Option.elim_some, List.singleton_append, List.append_cons] at hitems
      refine Invocation.option?_eq_of_items hitems fun value hmem => ?_
      rcases List.mem_append.1 hmem with hmem | hmem
      · exact hnoMethod value hmem
      · simp at hmem
  rw [Invocation.axis?, Invocation.axisOptions, List.filterMap_cons_some hlevel]
  cases hf : f.method with
  | none =>
    rw [hf] at hmethod
    simp [axis, hf, hmethod]
  | some m =>
    rw [hf] at hmethod
    simp [axis, hf, hmethod, String.append_assoc]

end Flags

theorem arguments_of (launcher : Launcher) (descriptor : Descriptor) (flags : Flags) (base : Path) :
    (Run.of launcher descriptor flags base).arguments =
      descriptor.arguments ++ (flags.axisArguments ++ (flags.otherArguments ++ ["--outputPath", base.text])) := by
  rw [Run.of, flags.arguments_eq]
  simp only [List.append_assoc]

/-- An argument shows on a command line unless it is empty. -/
def isShown (argument : String) : Bool := !argument.toList.isEmpty

/-- The words of a command line whose arguments have no blanks in them are those arguments, but for the empty
ones. -/
theorem Run.wordsOf_setupText {r : Run} (h : ∀ a ∈ r.arguments, ∀ c ∈ a.toList, Text.isBlank c = false) :
    Invocation.wordsOf r.setupText = r.arguments.filter isShown := by
  have hblank : ∀ piece ∈ r.arguments.map String.toList, ∀ c ∈ piece, Text.isBlank c = false := by
    intro piece hpiece
    obtain ⟨a, ha, rfl⟩ := List.mem_map.1 hpiece
    exact h a ha
  have hline : ∀ c ∈ "\n".toList, Text.isBlank c = true := List.forall_mem_singleton.2 rfl
  have hspace : " ".toList = [' '] := rfl
  rw [Invocation.wordsOf, setupText, String.toList_append, Text.words_append_of_blank _ hline,
    String.toList_intercalate, hspace, Text.words_intercalate hblank, List.filter_map, List.map_map]
  have hback : String.ofList ∘ String.toList = id := by
    funext s
    exact String.ofList_toList
  rw [hback, List.map_id]
  rfl

/-- A line is read as the command line of a model and a configuration. -/
def ReadsAs (line model axis : String) : Prop :=
  ∃ i, Invocation.parse line = .ok i ∧ i.model = model ∧ i.axis? = some axis

/-- Nothing that a descriptor and a base path bring into a command line falls apart, and none of the strings
that follow the path of the model is an axis option. -/
structure Readable (descriptor : Descriptor) (base : Path) : Prop where
  /-- The path of the model has no blanks. -/
  path : ∀ c ∈ descriptor.path.toList, Text.isBlank c = false
  /-- The other strings have no blanks, and none of them is an axis option. -/
  strings : ∀ s ∈ descriptor.strings, StaysWhole s
  /-- The base path starts at the root. -/
  rooted : base.isRooted = true
  /-- The base path has no blanks. -/
  base : ∀ c ∈ base.text.toList, Text.isBlank c = false

namespace Readable

variable {descriptor : Descriptor} {base : Path} {model : String}

/-- The words of the command line of a run: those of the descriptor, the axis options, and the rest. -/
theorem wordsOf_setupText (h : Readable descriptor base) (hmodel : descriptor.model? = some model)
    (launcher : Launcher) (flags : Flags) :
    ∃ before after, Invocation.wordsOf (Run.of launcher descriptor flags base).setupText =
        Descriptor.mode :: "-m" :: descriptor.path :: before ++ (flags.axisArguments ++ after) ∧
      (∀ word ∈ Descriptor.mode :: "-m" :: descriptor.path :: before, StaysWhole word) ∧
      ∀ word ∈ after, StaysWhole word := by
  have hdescriptor := Descriptor.staysWhole_of_mem_arguments hmodel h.path h.strings
  have hother : ∀ a ∈ flags.otherArguments ++ ["--outputPath", base.text], StaysWhole a := by
    rw [List.forall_mem_append]
    refine ⟨flags.staysWhole_of_mem_otherArguments, ?_⟩
    simp only [List.forall_mem_cons]
    exact ⟨by decide, .rooted h.rooted h.base, List.forall_mem_nil _⟩
  have hblank : ∀ a ∈ (Run.of launcher descriptor flags base).arguments, ∀ c ∈ a.toList,
      Text.isBlank c = false := by
    rw [arguments_of, List.forall_mem_append, List.forall_mem_append]
    exact ⟨fun a ha => (hdescriptor a ha).isBlank, fun a ha => (flags.isWord_of_mem_axisArguments a ha).2,
      fun a ha => (hother a ha).isBlank⟩
  obtain ⟨more, hmore⟩ : ∃ more,
    descriptor.arguments = Descriptor.mode :: "-m" :: descriptor.path :: more := ⟨_, rfl⟩
  have hfront : descriptor.arguments.filter isShown =
      Descriptor.mode :: "-m" :: descriptor.path :: more.filter isShown := by
    rw [hmore, List.filter_cons_of_pos (by decide), List.filter_cons_of_pos (by decide),
      List.filter_cons_of_pos (by simpa [isShown] using ne_nil_of_modelName? hmodel)]
  have haxis : flags.axisArguments.filter isShown = flags.axisArguments :=
    List.filter_eq_self.2 fun a ha => by simpa [isShown] using (flags.isWord_of_mem_axisArguments a ha).1
  have hwords : Invocation.wordsOf (Run.of launcher descriptor flags base).setupText =
      Descriptor.mode :: "-m" :: descriptor.path :: more.filter isShown ++
        (flags.axisArguments ++ (flags.otherArguments ++ ["--outputPath", base.text]).filter isShown) := by
    rw [Run.wordsOf_setupText hblank, arguments_of, List.filter_append, List.filter_append, hfront, haxis]
  refine ⟨_, _, hwords, fun word hword => ?_, fun word hword => ?_⟩
  · rw [← hfront] at hword
    exact hdescriptor word (List.mem_filter.1 hword).1
  · exact hother word (List.mem_filter.1 hword).1

/-- **A line with the words of the command line is read back.** -/
theorem readsAs (h : Readable descriptor base) (hmodel : descriptor.model? = some model)
    (launcher : Launcher) (flags : Flags) {line : String}
    (hline : Invocation.wordsOf line =
      Invocation.wordsOf (Run.of launcher descriptor flags base).setupText) :
    ReadsAs line model flags.axis := by
  obtain ⟨before, after, hwords, hbefore, hafter⟩ := h.wordsOf_setupText hmodel launcher flags
  rw [← hline] at hwords
  obtain ⟨i, hparse, hname⟩ := Invocation.parse_of_words hwords hmodel
  refine ⟨i, hparse, hname, flags.axis?_of_items ?_ (fun word hword => (hbefore word hword).notAxisWord)
    fun word hword => (hafter word hword).notAxisWord⟩
  rw [Invocation.items_of_parse hparse, hwords, flags.itemsOf_axisArguments]

end Readable

/-- **The command line of a run is read back**: it names the model of the descriptor, and the configuration of
the flags.  This is so for the line as it was written and for the line without the blanks at its ends. -/
theorem configuration_of_setupText (launcher : Launcher) {descriptor : Descriptor} (flags : Flags)
    {base : Path} {model : String} (hmodel : descriptor.model? = some model)
    (hreadable : Readable descriptor base) :
    ReadsAs (Run.of launcher descriptor flags base).setupText model flags.axis ∧
      ReadsAs (String.ofList (Text.trim (Run.of launcher descriptor flags base).setupText.toList))
        model flags.axis :=
  ⟨hreadable.readsAs hmodel launcher flags rfl,
    hreadable.readsAs hmodel launcher flags (Invocation.wordsOf_trim _)⟩

/-! ## A command line that is hard to read -/

/-- A descriptor whose strings look like options or like models, and whose numbers are not finite. -/
def oddDescriptor : Descriptor where
  path := "-models/toy.prism"
  maxReward := -1 / 0
  pMin := 0 / 0
  constants := some "--model"
  rewardModule := some "-informationLevels"
  extra := ["", "other.nm", "--m", "-updateMethod=GREYBOX", "--quiet"]

/-- It is read back. -/
theorem configuration_of_oddDescriptor :
    oddDescriptor.model? = some "toy" ∧ Readable oddDescriptor ⟨"/out/iteration0/0"⟩ ∧
    ReadsAs (Run.of (.direct "checker") oddDescriptor
      { Flags.plain .blackbox with method := some .greybox } ⟨"/out/iteration0/0"⟩).setupText
      "toy" "BLACKBOX/GREYBOX" := by
  have hmodel : oddDescriptor.model? = some "toy" := by decide
  have hreadable : Readable oddDescriptor ⟨"/out/iteration0/0"⟩ :=
    ⟨by decide, by decide, by decide, by decide⟩
  have hread := configuration_of_setupText (.direct "checker")
    { Flags.plain .blackbox with method := some .greybox } hmodel hreadable
  exact ⟨hmodel, hreadable, hread.1⟩

end CheckerTrials
