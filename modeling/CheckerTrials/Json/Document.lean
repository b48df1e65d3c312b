import CheckerTrials.Json.Token

/-!
# Reading and writing JSON documents

A document is one value.  `Value.tokens` lists the tokens of a value, and writing a value is writing
these one after the other without spaces between them.  Reading goes through the tokens of a document
with a stack: `Frame` is an array or object that has been opened and not yet closed, together with what
is in it so far.
-/

set_option autoImplicit false

namespace CheckerTrials.Json

/-! ## Writing -/

namespace Value

mutual

/-- The tokens of a value. -/
def tokens : Value → List Token
  | .null => [.null]
  | .bool b => [.bool b]
  | .number literal => [.number literal]
  | .string s => [.string s]
  | .array elements => .openArray :: elementTokens elements
  | .object members => .openObject :: memberTokens members

/-- The tokens of the elements of an array and of its end. -/
def elementTokens : List Value → List Token
  | [] => [.closeArray]
  | [v] => v.tokens ++ [.closeArray]
  | v :: w :: rest => v.tokens ++ .comma :: elementTokens (w :: rest)

/-- The tokens of the members of an object and of its end. -/
def memberTokens : List (Text × Value) → List Token
  | [] => [.closeObject]
  | [(name, v)] => .string name :: .colon :: (v.tokens ++ [.closeObject])
  | (name, v) :: p :: rest =>
    .string name :: .colon :: (v.tokens ++ .comma :: memberTokens (p :: rest))

end

/-- The text of a value. -/
def text (v : Value) : List Char := v.tokens.flatMap Token.text

end Value

/-! ## Reading -/

/-- An array or object that has been opened, with what is in it in reverse order. -/
inductive Frame
  /-- An array. -/
  | array (elements : List Value)
  /-- An object, and the name of the member whose value is next. -/
  | object (members : List (Text × Value)) (name : Text)
  deriving Repr

/-- What may come next in a document. -/
inductive Expecting
  /-- A value. -/
  | value
  /-- A value, or the end of an array without elements. -/
  | valueOrEnd
  /-- The name of a member. -/
  | name
  /-- The name of a member, or the end of an object without members. -/
  | nameOrEnd
  /-- The colon after a name. -/
  | colon
  /-- A comma, or the end of what was opened last. -/
  | commaOrEnd
  /-- Nothing: the value of the document is complete. -/
  | nothing (v : Value)
  deriving Repr

/-- A document that was read up to some token. -/
structure Reading where
  /-- What has been opened, the last opened first. -/
  frames : List Frame
  /-- What may come next. -/
  expecting : Expecting

namespace Reading

/-- Puts a complete value into the frame that was opened last. -/
def put (v : Value) : List Frame → Reading
  | [] => ⟨[], .nothing v⟩
  | .array elements :: frames => ⟨.array (v :: elements) :: frames, .commaOrEnd⟩
  | .object members name :: frames => ⟨.object ((name, v) :: members) none :: frames, .commaOrEnd⟩

/-- Reads the first token of a value. -/
def beginValue (frames : List Frame) : Token → Option Reading
  | .null => some (put .null frames)
  | .bool b => some (put (.bool b) frames)
  | .number literal => some (put (.number literal) frames)
  | .string s => some (put (.string s) frames)
  | .openArray => some ⟨.array [] :: frames, .valueOrEnd⟩
  | .openObject => some ⟨.object [] none :: frames, .nameOrEnd⟩
  | _ => none

/-- Closes the frame that was opened last. -/
def close (frames : List Frame) (token : Token) : Option Reading :=
  match frames, token with
  | .array elements :: frames, .closeArray => some (put (.array elements.reverse) frames)
  | .object members _ :: frames, .closeObject => some (put (.object members.reverse) frames)
  | _, _ => none

/-- Reads the name of a member. -/
def beginMember (frames : List Frame) (token : Token) : Option Reading :=
  match frames, token with
  | .object members _ :: frames, .string name => some ⟨.object members name :: frames, .colon⟩
  | _, _ => none

/-- Reads one token. -/
def next (r : Reading) (token : Token) : Option Reading :=
  match r.expecting with
  | .value => beginValue r.frames token
  | .valueOrEnd => if token = .closeArray then close r.frames token else beginValue r.frames token
  | .name => beginMember r.frames token
  | .nameOrEnd => if token = .closeObject then close r.frames token else beginMember r.frames token
  | .colon => if token = .colon then some { r with expecting := .value } else none
  | .commaOrEnd =>
    if token = .comma then
      match r.frames with
      | .array _ :: _ => some { r with expecting := .value }
      | .object _ _ :: _ => some { r with expecting := .name }
      | [] => none
    else close r.frames token
  | .nothing _ => none

/-- Reads tokens to their end, which must be the end of the document. -/
def finish (r : Reading) : List Token → Option Value
  | [] =>
    match r.expecting with
    | .nothing v => some v
    | _ => none
  | token :: rest =>
    match r.next token with
    | some r => finish r rest
    | none => none

end Reading

/-- The value that tokens say. -/
def Value.ofTokens? (ts : List Token) : Option Value := Reading.finish ⟨[], .value⟩ ts

/-- Reads a document. -/
def read? (s : List Char) : Option Value := (tokens s).bind Value.ofTokens?

end CheckerTrials.Json
