import CheckerTrials.Decimal.Binary64
import CheckerTrials.Decimal.Natural
import CheckerTrials.Ordered.Map

/-!
# JSON through a library

Documents are read and written by a library, which is not part of this development.  What is part of it is how the
records look: the names of their fields, which of them may be left out, and which forms a value may have.

`Json.Library` is what such a library offers.  It makes values of a text and a text of a value, and it knows which
number, string, list, map or record a value says.  The functions below it put these together and are the same for every
library.  What the definitions of records rely on, beyond the types of what is read, is said where it is used
(`Json.Documented`).

* A count is a number without a sign, a point or a power; a quantity is any number within the range of doubles.
* A record knows its fields; whether one has to be there is its `Presence`.
* A tag is the name of one of several things that have nothing but a name.
-/

set_option autoImplicit false

namespace CheckerTrials.Json

/-- Why a document is refused. -/
inductive Error
  /-- The text is no JSON document. -/
  | malformed
  /-- The value means nothing here. -/
  | unexpected
  deriving DecidableEq, Repr

/-- What is said about a document that is refused.  A library has words of its own for it. -/
def Error.message : Error → String
  | .malformed => "the text is no JSON document"
  | .unexpected => "the JSON document has another form"

/-- Whether a field of a record has to be there. -/
inductive Presence
  /-- The field has to be there. -/
  | required
  /-- The field may be left out of an object, but not of an array. -/
  | optional
  /-- The field may be left out. -/
  | defaulted
  deriving DecidableEq, Repr

/-- How many arrays and objects may stand one inside the other in what is read. -/
def depthLimit : Nat := 127

/-- **A library that reads and writes JSON.**  Its operations are not known, but what they read is of the type that they
read, and a list, a map or something optional is made of what the reader for its parts gives. -/
class Library (Value : outParam Type) where
  /-- The value of a document, if the text is one. -/
  read? : String → Option Value
  /-- The text of a value. -/
  text : Value → String
  /-- The string that a value says. -/
  string? : Value → Option String
  /-- The count that a value says. -/
  count? : Value → Option Nat
  /-- The quantity that a value says. -/
  float? : Value → Option Float
  /-- What a reader makes of a value, or nothing if the value says that there is nothing. -/
  optional {α : Type} (read : Value → Option α) : Value → Option (Option α)
  /-- What a reader makes of the elements of an array. -/
  list {α : Type} (read : Value → Option α) : Value → Option (List α)
  /-- What a reader makes of the members of an object. -/
  map {α : Type} (read : Value → Option α) : Value → Option (NameMap α)
  /-- The fields of a record, in the order in which the record is described. -/
  fields? (fields : List (String × Presence)) : Value → Option (List (Option Value))
  /-- The tag that a value is. -/
  tag? : Value → Option String
  /-- What the first reader makes of a value that takes it.  The value stands inside `outside` arrays and objects. -/
  firstOf {α : Type} (outside : Nat) (readers : List (Value → Option α)) : Value → Option α
  /-- A value that is kept as it is, without a meaning. -/
  whole? : Value → Option Value
  /-- The member of an object that is kept. -/
  member? (name : String) : Value → Option Value
  /-- The value that says that there is nothing. -/
  null : Value
  /-- The value that says a string. -/
  ofString : String → Value
  /-- The value that says a count. -/
  ofCount : Nat → Value
  /-- The value that says a quantity. -/
  ofFloat : Float → Value
  /-- The array of some elements. -/
  ofElements : List Value → Value
  /-- The object of some members. -/
  ofMembers : List (String × Value) → Value
  /-- Counts have their limit. -/
  le_of_count? {v : Value} {n : Nat} : count? v = some n → n ≤ Decimal.wordLimit
  /-- Quantities are finite. -/
  isFinite_of_float? {v : Value} {x : Float} : float? v = some x → Decimal.isFinite x = true
  /-- Something optional was read with the reader for it. -/
  of_optional {α : Type} {read : Value → Option α} {v : Value} {a : α} :
    optional read v = some (some a) → ∃ w, read w = some a
  /-- So was whatever is in a list. -/
  of_list {α : Type} {read : Value → Option α} {v : Value} {as : List α} :
    list read v = some as → ∀ a ∈ as, ∃ w, read w = some a
  /-- So was whatever is in a map. -/
  of_map {α : Type} {read : Value → Option α} {v : Value} {m : NameMap α} :
    map read v = some m → ∀ a ∈ m.values, ∃ w, read w = some a
  /-- What has one of several forms was read in one of them. -/
  of_firstOf {α : Type} {outside : Nat} {readers : List (Value → Option α)} {v : Value} {a : α} :
    firstOf outside readers v = some a → ∃ read ∈ readers, ∃ w, read w = some a

/-- Reads a document and gives it a meaning with `read`. -/
def decode {α V : Type} [Library V] (read : V → Option α) (s : String) : Except Error α :=
  match Library.read? s with
  | none => .error .malformed
  | some v =>
    match read v with
    | none => .error .unexpected
    | some a => .ok a

namespace Library

variable {α V : Type}

/-! ## Reading -/

/-- A field that has to be there. -/
def required (read : V → Option α) (field : Option V) : Option α := field.bind read

/-- A field that stands for `default` when it is left out. -/
def orElse (default : α) (read : V → Option α) : Option V → Option α
  | none => some default
  | some v => read v

variable [Library V]

/-- What has the tag that a value is, among things whose tags `name` gives. -/
def named (all : List α) (name : α → String) (v : V) : Option α :=
  (tag? v).bind fun tag => all.find? fun a => name a == tag

/-! ## Writing -/

/-- The array of what `write` makes of the elements of a list. -/
def ofList (write : α → V) (as : List α) : V := ofElements (as.map write)

/-- The value of something optional. -/
def ofOption (write : α → V) : Option α → V
  | some a => write a
  | none => null

/-- The object of a map. -/
def ofMap (write : α → V) (m : NameMap α) : V := ofMembers (m.entries.map fun (name, a) => (name, write a))

omit [Library V] in
/-- The member with a name, if there is a value for it. -/
def memberOf (name : String) (write : α → V) (a : Option α) : List (String × V) :=
  match a with
  | some a => [(name, write a)]
  | none => []

end Library

end CheckerTrials.Json
