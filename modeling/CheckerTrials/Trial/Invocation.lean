import CheckerTrials.Decimal.Numeral
import CheckerTrials.Text.Blank
import CheckerTrials.Trial.ModelPath

/-!
# Command lines of the checker

The checker repeats its command line in the first line of a result, and the runner writes it beside
the result.  Reading it back is guesswork, because the line does not say which options take a value:
the word after an option is its value unless it is an option itself, and a word is an option when it
begins with a dash and is not a number.

* `Invocation.itemsOf` sorts the words of a line into arguments and options with their values; the
  dashes of an option are not kept.
* `itemsOf_cons_argument`: an argument at the front stands for itself.
* `items_of_parse`: what is read from a line are the items of its words.
-/

set_option autoImplicit false

namespace CheckerTrials

/-- One part of a command line. -/
inductive Item
  /-- A word that belongs to no option. -/
  | argument (word : String)
  /-- An option, without the dashes in front, and its value. -/
  | option (name : String) (value : Option String)
  deriving DecidableEq, Repr

/-- A command line of the checker. -/
structure Invocation where
  /-- The name of the model that the line is about. -/
  model : String
  /-- The parts of the line, in order. -/
  items : List Item
  deriving DecidableEq, Repr

/-- Why a line is no command line of the checker. -/
inductive InvocationError
  /-- No option and no word names a model. -/
  | noModel (line : String)
  /-- The model option has a value that is no model file. -/
  | noSuffix (path : String)
  deriving DecidableEq, Repr

/-- The suffixes of model files as a list in a message. -/
def modelSuffixesText : String :=
  "[" ++ ", ".intercalate (modelSuffixes.map fun suffix => "\"" ++ suffix ++ "\"") ++ "]"

/-- What is said about a line that is no command line of the checker. -/
def InvocationError.message : InvocationError → String
  | .noModel line => "No model file in invocation `" ++ line ++ "`."
  | .noSuffix path => "Model path `" ++ path ++ "` has none of the suffixes " ++ modelSuffixesText ++ "."

namespace Invocation

/-- Whether a word is an option: it begins with a dash and is not a number. -/
def isOption (word : String) : Bool :=
  word.toList.head? == some '-' && !Decimal.isNumeral word.toList

/-- The name of an option: the word without the dashes in front. -/
def optionName (word : String) : String :=
  String.ofList (word.toList.dropWhile (· == '-'))

/-- The parts of a command line, from its words. -/
def itemsOf : List String → List Item
  | [] => []
  | [word] => [if isOption word then .option (optionName word) none else .argument word]
  | word :: next :: rest =>
    if isOption word then
      if isOption next then .option (optionName word) none :: itemsOf (next :: rest)
      else .option (optionName word) (some next) :: itemsOf rest
    else .argument word :: itemsOf (next :: rest)

/-- A word that is no option is an argument when it comes first. -/
theorem itemsOf_cons_argument {word : String} (rest : List String) (h : isOption word = false) :
    itemsOf (word :: rest) = .argument word :: itemsOf rest := by
  cases rest <;> simp [itemsOf, h]

/-- The arguments that belong to no option. -/
def arguments (i : Invocation) : List String :=
  i.items.filterMap fun
    | .argument word => some word
    | .option _ _ => none

/-- The options with their values. -/
def options (i : Invocation) : List (String × Option String) :=
  i.items.filterMap fun
    | .argument _ => none
    | .option name value => some (name, value)

/-- The value of the first option of that name among the options of a line. -/
def valueIn (options : List (String × Option String)) (names : List String) : Option String :=
  (options.find? fun option => names.contains option.1).bind (·.2)

/-- The value of an option, given without dashes. -/
def option? (i : Invocation) (name : String) : Option String := valueIn i.options [name]

/-- Whether an option is in the line, with or without a value. -/
def hasFlag (i : Invocation) (name : String) : Bool := i.options.any fun option => option.1 == name

/-- The options whose values make up the configuration, in the order in which they are shown. -/
def axisOptions : List String := ["informationLevel", "updateMethod"]

/-- The configuration that a line names: the values of the axis options, with slashes between. -/
def axis? (i : Invocation) : Option String :=
  match axisOptions.filterMap i.option? with
  | [] => none
  | values => some ("/".intercalate values)

/-- The options that name the model file. -/
def modelOptions : List String := ["m", "model"]

/-- The words of a line. -/
def wordsOf (line : String) : List String := (Text.words line.toList).map String.ofList

/-- Reads a command line.  The model is the value of the first model option, or if that has none the
first word that is the path of a model. -/
def parse (line : String) : Except InvocationError Invocation :=
  let words := wordsOf line
  let read : Invocation := ⟨"", itemsOf words⟩
  let path := (valueIn read.options modelOptions).or (words.find? fun word => (modelName? word).isSome)
  match path with
  | none => .error (.noModel line)
  | some path =>
    match modelName? path with
    | none => .error (.noSuffix path)
    | some model => .ok { read with model := model }

/-- A line that was read has the parts of its words. -/
theorem items_of_parse {line : String} {i : Invocation} (h : parse line = .ok i) :
    i.items = itemsOf (wordsOf line) := by
  simp only [parse] at h
  split at h
  · cases h
  · split at h
    · cases h
    · cases h
      rfl

end Invocation

end CheckerTrials
