import CheckerTrials.Plan.Run
import CheckerTrials.Proofs.Text.Words
import CheckerTrials.Trial.Invocation

/-!
# Reading a command line back

The command line that a run writes is read back when the run has failed, to find out which model it was
about.  The words of the line are not the arguments of the tool: an argument with a blank in it falls apart.
The mode and the model option stand in front of all that can fall apart, though, and if the path of the model
has no blank in it, the model is the one that the descriptor names (`model_of_setupText`).

This is so even if the path looks like an option itself.  Then the model option has no value, but the path is
the first word that names a model.
-/

set_option autoImplicit false

namespace CheckerTrials

/-! ## The model of a command line -/

namespace Invocation

/-- **The model is found** in a line that begins like the command line of a run. -/
theorem parse_of_words {line path model : String} {rest : List String}
    (hwords : wordsOf line = Descriptor.mode :: "-m" :: path :: rest)
    (hmodel : modelName? path = some model) : ∃ i, parse line = .ok i ∧ i.model = model := by
  have hmode : isOption Descriptor.mode = false := by decide
  have hoption : isOption "-m" = true := by decide +kernel
  -- the value of the model option is the path, unless the path is an option itself
  have hvalue : (valueIn (Invocation.options ⟨"", itemsOf (wordsOf line)⟩) modelOptions).or
      ((wordsOf line).find? fun word => (modelName? word).isSome) = some path := by
    rw [hwords, itemsOf_cons_argument _ hmode, itemsOf, if_pos hoption]
    split
    · have hfind : (Descriptor.mode :: "-m" :: path :: rest).find?
          (fun word => (modelName? word).isSome) = some path := by
        rw [List.find?_cons_of_neg (by decide), List.find?_cons_of_neg (by decide),
          List.find?_cons_of_pos (by simp [hmodel])]
      rw [hfind]
      rfl
    · rfl
  refine ⟨⟨model, itemsOf (wordsOf line)⟩, ?_, rfl⟩
  simp only [parse, hvalue, hmodel]

end Invocation

/-- The words of the command line of a run: the mode, the model option and the path come first. -/
theorem wordsOf_setupText (launcher : Launcher) (descriptor : Descriptor) (flags : Flags) (base : Path)
    (hne : descriptor.path.toList ≠ [])
    (hblank : ∀ c ∈ descriptor.path.toList, Text.isBlank c = false) :
    ∃ rest, Invocation.wordsOf
        (String.ofList (Text.trim (Run.of launcher descriptor flags base).setupText.toList)) =
      Descriptor.mode :: "-m" :: descriptor.path :: rest := by
  obtain ⟨word, more, harguments⟩ : ∃ word more, (Run.of launcher descriptor flags base).arguments =
      Descriptor.mode :: "-m" :: descriptor.path :: word :: more := ⟨_, _, rfl⟩
  have hblanks : " ".toList = [' '] := rfl
  have htext : (Run.of launcher descriptor flags base).setupText.toList =
      Descriptor.mode.toList ++ ' ' :: ("-m".toList ++ ' ' :: (descriptor.path.toList ++
        ' ' :: (" ".intercalate (word :: more) ++ "\n").toList)) := by
    rw [Run.setupText, harguments]
    simp only [String.intercalate_cons_cons, String.toList_append, hblanks, List.append_assoc,
      List.cons_append, List.nil_append]
  have hmode : Text.words Descriptor.mode.toList = [Descriptor.mode.toList] := by decide
  have hoption : Text.words "-m".toList = ["-m".toList] := by decide
  have hpath := Text.words_eq_singleton hne hblank
  refine ⟨(Text.words (" ".intercalate (word :: more) ++ "\n").toList).map String.ofList, ?_⟩
  rw [Invocation.wordsOf, String.toList_ofList, Text.words_trim, htext,
    Text.words_append_cons _ _ rfl, Text.words_append_cons _ _ rfl, Text.words_append_cons _ _ rfl,
    hmode, hoption, hpath]
  simp only [List.singleton_append, List.map_cons, String.ofList_toList]

/-- A path that names a model is not empty. -/
theorem ne_nil_of_modelName? {path model : String} (h : modelName? path = some model) :
    path.toList ≠ [] := by
  intro hnil
  rw [modelName?, hnil] at h
  cases h

/-- **The model of a run can be read back** from its command line. -/
theorem model_of_setupText (launcher : Launcher) {descriptor : Descriptor} (flags : Flags) (base : Path)
    {model : String} (hmodel : descriptor.model? = some model)
    (hblank : ∀ c ∈ descriptor.path.toList, Text.isBlank c = false) :
    ∃ i, Invocation.parse
        (String.ofList (Text.trim (Run.of launcher descriptor flags base).setupText.toList)) = .ok i ∧
      i.model = model := by
  obtain ⟨rest, hwords⟩ := wordsOf_setupText launcher descriptor flags base
    (ne_nil_of_modelName? hmodel) hblank
  exact Invocation.parse_of_words hwords hmodel

end CheckerTrials
