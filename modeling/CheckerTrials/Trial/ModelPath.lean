import CheckerTrials.Text.Split

/-!
# Names of models

A model is known by the name of its file without the folders in front and without the suffix at the
end.  The suffix is looked for from the left: the name ends at the first place where one of the
`modelSuffixes` stands as a whole word, so that `consensus.2.prism` is the model `consensus.2` and
whatever follows the suffix is ignored.

* `modelName?_eq_some`: a name is not empty, and it is what stands before the first marker.
-/

set_option autoImplicit false

namespace CheckerTrials

/-- The suffixes of model files. -/
def modelSuffixes : List String := [".prism", ".nm", ".pm", ".sm"]

namespace ModelPath

/-- Whether a character stands between folders. -/
def isSeparator (c : Char) : Bool := c == '/' || c == '\\'

/-- Whether a character would go on a word. -/
def isWordChar (c : Char) : Bool := c.isAlphanum || c == '_'

/-- The part of a path after its last separator. -/
def fileOf (path : List Char) : List Char :=
  (Text.split isSeparator path).getLastD []

/-- Whether a suffix stands at the front of a text and its last letter ends a word. -/
def startsWithSuffix (s : List Char) (suffix : List Char) : Bool :=
  suffix.isPrefixOf s && !((s.drop suffix.length).head?.any isWordChar)

/-- Whether a text begins with a marker: one of the suffixes as a whole word. -/
def startsWithMarker (s : List Char) : Bool :=
  modelSuffixes.any fun suffix => startsWithSuffix s suffix.toList

/-- What stands before the first marker. -/
def beforeMarker? : List Char → Option (List Char)
  | [] => none
  | c :: rest => if startsWithMarker (c :: rest) then some [] else (beforeMarker? rest).map (c :: ·)

/-- The name of a model from the path of its file: what stands in the file name before the first
marker, unless that is nothing. -/
def modelName? (path : List Char) : Option (List Char) :=
  (beforeMarker? (fileOf path)).filter fun name => !name.isEmpty

/-- What stands before the first marker is followed by a marker, and no marker begins inside it. -/
theorem beforeMarker?_eq_some {s name : List Char} (h : beforeMarker? s = some name) :
    ∃ rest, s = name ++ rest ∧ startsWithMarker rest = true := by
  induction s generalizing name with
  | nil => simp [beforeMarker?] at h
  | cons c rest ih =>
    rw [beforeMarker?] at h
    split at h
    · rename_i hm
      obtain rfl : [] = name := by simpa using h
      exact ⟨c :: rest, rfl, hm⟩
    · obtain ⟨n, hn, rfl⟩ := Option.map_eq_some_iff.1 h
      obtain ⟨r, rfl, hr⟩ := ih hn
      exact ⟨r, rfl, hr⟩

/-- The last part of a path is a piece between separators. -/
theorem fileOf_mem_split (path : List Char) : fileOf path ∈ Text.split isSeparator path := by
  rw [fileOf, List.getLastD_eq_getLast?, List.getLast?_eq_some_getLast (Text.split_ne_nil _ path)]
  exact List.getLast_mem _

/-- A name is the nonempty text before the first marker of the file name. -/
theorem modelName?_eq_some {path name : List Char} :
    modelName? path = some name ↔ beforeMarker? (fileOf path) = some name ∧ name ≠ [] := by
  cases h : beforeMarker? (fileOf path) with
  | none => simp [modelName?, h]
  | some n =>
    by_cases hn : n = []
    · subst hn
      simp [modelName?, h]
    · simp only [modelName?, h, Option.filter_some, List.isEmpty_eq_false_iff.2 hn, Bool.not_false,
        if_true, Option.some.injEq]
      exact ⟨fun e => ⟨e, e ▸ hn⟩, fun e => e.1⟩

end ModelPath

/-- The name of a model from the path of its file. -/
def modelName? (path : String) : Option String :=
  (ModelPath.modelName? path.toList).map String.ofList

end CheckerTrials
