import CheckerTrials.Ordered.Sort
import CheckerTrials.Shell.Arithmetic
import CheckerTrials.Shell.Pattern
import CheckerTrials.Shell.Session

/-!
# From words to fields

A word is replaced in steps: its parameters, scripts and expressions by their values, giving a row of
glyphs that remember what was quoted (`glyphs`); then the row is cut into fields where an unquoted value
holds a separator (`splitFields`); then a field that is a pattern is replaced by the names of the files
that it matches (`fileNames`).

How a script in a word is carried out is a parameter, because that is what words are needed for.
-/

set_option autoImplicit false

namespace CheckerTrials.Shell

/-- A part of a word after its parameters have been replaced. -/
inductive Glyph
  /-- A character: whether it was quoted, and whether a field may end at it. -/
  | character (c : Char) (quoted splits : Bool)
  /-- A quotation mark. -/
  | quote
  /-- The end of an argument: always the end of a field, or only as a blank is. -/
  | argumentEnd (always : Bool)
  deriving DecidableEq, Repr

/-! ## Fields -/

/-- Whether the end of a field has just been passed, and whether a separator that is no blank still
belongs to it. -/
inductive Passing
  | no
  | separator (takesMark : Bool)
  deriving DecidableEq, Repr

/-- What a glyph does to the field before it. -/
inductive Separation
  /-- It belongs to the field. -/
  | none
  /-- It ends the field, if there is one. -/
  | blank
  /-- It ends the field, even an empty one, together with the blanks around it. -/
  | mark
  /-- It ends the field, even an empty one. -/
  | always
  deriving DecidableEq, Repr

/-- What a glyph does to the field before it, by the separators. -/
def Glyph.separation (separators : List Char) : Glyph → Separation
  | .quote => .none
  | .argumentEnd always => if always then .always else .blank
  | .character c _ splits =>
    if !splits || !separators.contains c then .none
    else if " \t\n".toList.contains c then .blank
    else .mark

/-- Cuts a row of glyphs into fields.  Blanks among the separators surround fields; every other separator
ends one, even an empty one.  `current` is the field that has begun, from its end to its front. -/
def splitFrom (separators : List Char) (current : List Glyph) :
    Passing → List Glyph → List (List Glyph)
  | _, [] => if current.isEmpty then [] else [current.reverse]
  | passing, g :: rest =>
    match g.separation separators, current, passing with
    | .none, _, _ => splitFrom separators (g :: current) .no rest
    | .blank, [], _ => splitFrom separators [] passing rest
    | .blank, _, _ => current.reverse :: splitFrom separators [] (.separator true) rest
    | .mark, _, .separator true => splitFrom separators [] (.separator false) rest
    | .mark, _, _ => current.reverse :: splitFrom separators [] (.separator false) rest
    | .always, _, _ => current.reverse :: splitFrom separators [] .no rest

/-- Cuts a row of glyphs into fields. -/
def splitFields (separators : List Char) (gs : List Glyph) : List (List Glyph) :=
  splitFrom separators [] .no gs

/-- The characters of glyphs, each with whether it was quoted. -/
def quotable (gs : List Glyph) : Quotable :=
  gs.filterMap fun g =>
    match g with
    | .character c quoted _ => some (c, quoted)
    | _ => none

/-- The text of glyphs. -/
def textOf (gs : List Glyph) : String := String.ofList ((quotable gs).map Prod.fst)

/-! ## Names of files -/

/-- The parts of a pattern between its slashes. -/
def pathParts : Quotable → List Quotable
  | [] => [[]]
  | (c, quoted) :: rest =>
    if c = '/' then [] :: pathParts rest
    else
      match pathParts rest with
      | part :: more => ((c, quoted) :: part) :: more
      | [] => [[(c, quoted)]]

/-- The names in a folder that a part of a pattern matches.  A name with a dot in front must be asked
for. -/
def namesMatching (d : Disk) (folder : String) (part : Quotable) : List String :=
  let asksForDots := part.head?.any fun (c, _) => c == '.'
  let path : Path := ⟨if folder.isEmpty then "." else textOfRaw folder⟩
  match d.list path with
  | .error _ => []
  | .ok entries =>
    let names := (if asksForDots then [".", ".."] else []) ++ entries.map (rawOfText ·.1)
    names.filter fun name =>
      (asksForDots || !name.startsWith ".") && (Pattern.of part).matches name.toList

/-- Whether something stands at a path. -/
def isThere (d : Disk) (path : String) : Bool := (d.find ⟨textOfRaw path⟩).isOk

/-- The paths that the parts of a pattern match, after the path that has been found so far. -/
def pathsFrom (d : Disk) : (found : String) → List Quotable → List String
  | found, [] => [found]
  | found, [part] =>
    if isSpecialPattern part then (namesMatching d found part).map (found ++ ·)
    else
      let path := found ++ String.ofList (part.map Prod.fst)
      if isThere d path then [path] else []
  | found, part :: rest =>
    if isSpecialPattern part then
      (namesMatching d found part).flatMap fun name => pathsFrom d (found ++ name ++ "/") rest
    else pathsFrom d (found ++ String.ofList (part.map Prod.fst) ++ "/") rest

/-- The names of the files that a field matches, or the field itself if there are none. -/
def fileNames (d : Disk) (field : List Glyph) : List String :=
  let pattern := unescapedQuotable (quotable field)
  if isSpecialPattern pattern then
    match sortBy compare (pathsFrom d "" (pathParts pattern)) with
    | [] => [textOf field]
    | names => names
  else [textOf field]

/-! ## Parameters -/

/-- The options as `$-` shows them. -/
def shownOptions (s : Session) : String :=
  String.ofList ("ubaCEVvxsnmiIfe".toList.filter s.options.contains)

/-- The value of a parameter, except the list of all arguments. -/
def Session.value? (s : Session) (name : String) : Option String :=
  match name with
  | "#" => some s.arguments.length.repr
  | "?" => some s.status.repr
  | "$" => some s.process.repr
  | "!" => s.jobs.head?.map fun j => j.1.repr
  | "-" => some (shownOptions s)
  | "0" => some s.name
  | _ =>
    if name.toList.all Decimal.isDigit then
      match Decimal.valueOf name.toList with
      | 0 => some s.name
      | n + 1 => s.arguments[n]?
    else s.lookup? name

/-- All arguments as one text: with the first separator between them. -/
def Session.joinedArguments (s : Session) : String :=
  let between := String.ofList (s.separators.take 1)
  between.intercalate s.arguments

/-- The glyphs of a value. -/
def valueGlyphs (quoted : Bool) (value : String) : List Glyph :=
  value.toList.map fun c => .character c quoted !quoted

/-- The glyphs of all arguments, each of which is a field of its own. -/
def argumentGlyphs (quoted : Bool) (arguments : List String) : List Glyph :=
  let glyphs (a : String) : List Glyph := (if quoted then [.quote] else []) ++ valueGlyphs quoted a
  [Glyph.argumentEnd quoted].intercalate (arguments.map glyphs)

/-- A word whose tilde in front stands for the folder of the user. -/
def withTilde (s : Session) (w : Word) : Word :=
  let home : List Piece := ((s.lookup? "HOME").getD "~").toList.map (Piece.character · true)
  match w with
  | [.character '~' false] => home
  | .character '~' false :: .character '/' false :: rest => home ++ .character '/' false :: rest
  | _ => w

/-- How words are replaced. -/
structure Expanding where
  /-- What a script prints. -/
  output : Script → Act (List Char)
  /-- The glyphs of a word, one level deeper: whether it will be cut into fields, and whether its own
  unquoted characters may be separators. -/
  inner : (fields splits : Bool) → Word → Act (List Glyph)

namespace Expanding

/-- The text of a word that is not cut into fields. -/
def text (e : Expanding) (w : Word) : Act String := do return textOf (← e.inner false false w)

/-- The glyphs of a parameter. -/
def parameter (e : Expanding) (fields : Bool) (name : String) (use : Use) (quoted : Bool) :
    Act (List Glyph) := do
  let s ← get
  let isList := name = "@" ∨ name = "*"
  let value := if isList then some s.joinedArguments else s.value? name
  let missing (whenEmpty : Bool) : Bool := value.isNone || (whenEmpty && value == some "")
  let own (w : Word) : Word := if quoted then w else withTilde s w
  let here : Act (List Glyph) := do
    if isList && fields && (!quoted || name == "@") then return argumentGlyphs quoted s.arguments
    else return valueGlyphs quoted (value.getD "")
  let required : Act String := do
    match value with
    | some v => return v
    | none => if s.has 'u' then Act.fail (name ++ ": parameter not set") else return ""
  match use with
  | .value =>
    let _ ← required
    here
  | .length => return valueGlyphs quoted (← required).length.repr
  | .orElse whenEmpty w => if missing whenEmpty then e.inner fields (!quoted) (own w) else here
  | .ifSet whenEmpty w =>
    if missing whenEmpty then return [] else e.inner fields (!quoted) (own w)
  | .orAssign whenEmpty w =>
    if missing whenEmpty then
      let v ← e.text (own w)
      if isName name.toList then
        Act.assign name v false
        return valueGlyphs quoted v
      else Act.fail (name ++ ": bad variable name")
    else here
  | .orFail whenEmpty w =>
    if missing whenEmpty then
      let told ←
        if w.isEmpty then pure ("parameter not set" ++ if whenEmpty then " or null" else "")
        else e.text (own w)
      Act.fail (name ++ ": " ++ told)
    else here
  | .cut atEnd longest w =>
    let v ← required
    let p := Pattern.of (quotable (← e.inner false false (own w)))
    return valueGlyphs quoted (String.ofList (p.cutFrom atEnd longest v.toList))
  | .unknown _ => Act.fail "Bad substitution"

/-- The value of an arithmetic expression. -/
def number (e : Expanding) (w : Word) : Act String := do
  let expression := (← e.text w)
  let s ← get
  match evaluateArithmetic ⟨s.lookup?, s.isFixed⟩ expression.toList with
  | .ok (n, assigned) =>
    assigned.forM fun (name, value) => Act.assign name value false
    return toString n.toInt
  | .error (.malformed reason) =>
    Act.fail (s!"arithmetic expression: {reason}: " ++ "\"" ++ expression ++ "\"")
  | .error (.illegal value) => Act.fail ("Illegal number: " ++ value)
  | .error (.fixed name) => Act.fail (name ++ ": is read only")

/-- The glyphs of a piece. -/
def piece (e : Expanding) (fields splits : Bool) : Piece → Act (List Glyph)
  | .character c quoted => return [.character c quoted (splits && !quoted)]
  | .quote => return [.quote]
  | .parameter name use quoted => e.parameter fields name use quoted
  | .output s quoted => do
    let printed := (← e.output s).filter (· != '\x00')
    let kept := (printed.reverse.dropWhile (· == '\n')).reverse
    return valueGlyphs quoted (String.ofList kept)
  | .number w quoted => do return valueGlyphs quoted (← e.number w)

/-- The glyphs of a row of pieces.  All arguments in quotes of their own are no field if there are
none. -/
def pieces (e : Expanding) (fields splits : Bool) : List Piece → Act (List Glyph)
  | .quote :: .parameter "@" .value true :: .quote :: rest => do
    let own ← e.parameter fields "@" .value true
    return own ++ (← pieces e fields splits rest)
  | p :: rest => do
    let own ← e.piece fields splits p
    return own ++ (← pieces e fields splits rest)
  | [] => return []

end Expanding

/-- The glyphs of a word; the number bounds how deeply words stand inside of each other. -/
def glyphs (output : Script → Act (List Char)) :
    Nat → (fields splits : Bool) → Word → Act (List Glyph)
  | 0, _, _, _ => return []
  | depth + 1, fields, splits, w =>
    Expanding.pieces ⟨output, glyphs output depth⟩ fields splits w

/-- The fields of a word. -/
def fieldsOf (output : Script → Act (List Char)) (w : Word) : Act (List String) := do
  let gs ← glyphs output nestingLimit true false (withTilde (← get) w)
  let s ← get
  let fields := splitFields s.separators gs
  return if s.has 'f' then fields.map textOf else fields.flatMap (fileNames s.disk)

/-- The text of a word that is not cut into fields. -/
def textOfWord (output : Script → Act (List Char)) (w : Word) : Act String := do
  return textOf (← glyphs output nestingLimit false false (withTilde (← get) w))

/-- The pattern that a word is. -/
def patternOfWord (output : Script → Act (List Char)) (w : Word) : Act Pattern := do
  return Pattern.of (quotable (← glyphs output nestingLimit false false (withTilde (← get) w)))

end CheckerTrials.Shell
