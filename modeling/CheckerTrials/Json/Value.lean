/-!
# JSON values

A `Json.Value` is a document as it is read by the library that programs run with (`Json.Value.library`).  Nothing in
it has been given a meaning yet: a number is still the text it was written as, and an object is its members in order,
so that whoever reads it can tell a count from a fraction and can see that a member is there twice.

A text may contain halves of surrogate pairs as escapes.  Two halves in a row are one character; a half
alone is none, and a string with such a half in it is read as `none`.  It is harmless in a part of a
document that nobody looks at.
-/

set_option autoImplicit false

namespace CheckerTrials.Json

/-- A string of a document, unless some escape in it is half a character. -/
abbrev Text := Option String

/-- A JSON value. -/
inductive Value
  /-- The value `null`. -/
  | null
  /-- A truth value. -/
  | bool (b : Bool)
  /-- A number, as it is written. -/
  | number (literal : String)
  /-- A string. -/
  | string (s : Text)
  /-- An array with its elements. -/
  | array (elements : List Value)
  /-- An object with its members, in the order of the document. -/
  | object (members : List (Text × Value))
  deriving Repr, Inhabited

namespace Value

mutual

/-- How many arrays and objects stand one inside the other. -/
def depth : Value → Nat
  | .array elements => depthOfAll elements + 1
  | .object members => depthOfMembers members + 1
  | _ => 0

/-- The greatest depth of a list of values. -/
def depthOfAll : List Value → Nat
  | [] => 0
  | v :: rest => max v.depth (depthOfAll rest)

/-- The greatest depth of the values of members. -/
def depthOfMembers : List (Text × Value) → Nat
  | [] => 0
  | (_, v) :: rest => max v.depth (depthOfMembers rest)

end

mutual

/-- Whether every number in a value satisfies `p` and every string in it is made of characters. -/
def isSound (p : String → Bool) : Value → Bool
  | .number literal => p literal
  | .string s => s.isSome
  | .array elements => allSound p elements
  | .object members => membersSound p members
  | _ => true

/-- Whether all values of a list are sound. -/
def allSound (p : String → Bool) : List Value → Bool
  | [] => true
  | v :: rest => v.isSound p && allSound p rest

/-- Whether all members are sound. -/
def membersSound (p : String → Bool) : List (Text × Value) → Bool
  | [] => true
  | (name, v) :: rest => name.isSome && v.isSound p && membersSound p rest

end

/-- The string that says `s`. -/
def ofString (s : String) : Value := .string (some s)

/-- The number that says `n`. -/
def ofCount (n : Nat) : Value := .number n.repr

/-- An object with names that are made of characters. -/
def ofMembers (members : List (String × Value)) : Value :=
  .object (members.map fun (name, v) => (some name, v))

end Value

end CheckerTrials.Json
