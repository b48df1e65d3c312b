import CheckerTrials.Decimal.Numeral
import CheckerTrials.Decimal.Written
import CheckerTrials.Json.Document
import CheckerTrials.Json.Library

/-!
# A library that rounds once

Each function here reads one kind of thing from a value, or refuses the value.  Together they are a library
(`Value.library`), with which programs run and examples are evaluated; what is said of programs in general holds with
every library.  This one reads a number as the double nearest to it.  A library that multiplies and divides by powers
of ten instead rounds more than once, and may read a neighbour of that double.

* A count is a number that is written with digits alone; a quantity is any number within the range of
  doubles.
* A map takes the last of several members with the same name.  A record (`Value.fields?`) knows its
  fields: it ignores members of other names and refuses a field that is there twice.  A record may also
  be written as the array of its fields.
* A tag is a string, or an object whose only member has that string as its name and is `null`.
* What may have several forms is looked at more than once, and therefore it has to be a value that can be kept whole.
-/

set_option autoImplicit false

namespace CheckerTrials.Json

/-- The double that a number is written as, if it is within the range of doubles. -/
def finite? (literal : String) : Option Float :=
  (Decimal.float? literal.toList).filter Decimal.isFinite

theorem isFinite_of_finite? {literal : String} {x : Float} (h : finite? literal = some x) :
    Decimal.isFinite x = true := by
  rw [finite?, Option.filter_eq_some_iff] at h
  exact h.2

namespace Value

variable {α : Type}

/-! ## Reading -/

/-- The characters of a string. -/
def string? : Value → Option String
  | .string s => s
  | _ => none

/-- The value of a count. -/
def count? : Value → Option Nat
  | .number literal => Decimal.natural? literal.toList
  | _ => none

/-- The value of a quantity. -/
def float? : Value → Option Float
  | .number literal => finite? literal
  | _ => none

/-- What `read` makes of a value, or nothing of `null`. -/
def optional (read : Value → Option α) : Value → Option (Option α)
  | .null => some none
  | v => (read v).map some

/-- What `read` makes of the elements of an array. -/
def list (read : Value → Option α) : Value → Option (List α)
  | .array elements => elements.mapM read
  | _ => none

/-- What `read` makes of the members of an object. -/
def map (read : Value → Option α) : Value → Option (NameMap α)
  | .object members =>
    (members.mapM fun ((name : Text), (v : Value)) =>
      name.bind fun name => (read v).map fun a => (name, a)).map OrderedMap.ofList
  | _ => none

/-- The value of a tag. -/
def tag? : Value → Option String
  | .string s => s
  | .object [(name, .null)] => name
  | _ => none

/-- The values of the members with a name. -/
def valuesOf (members : List (Text × Value)) (name : String) : List Value :=
  (members.filter fun p => p.1 == some name).map (·.2)

/-- The fields of a record, in the order in which the record is described. -/
def fields? (fields : List (String × Presence)) : Value → Option (List (Option Value))
  | .object members =>
    if members.any fun p => p.1.isNone then none
    else fields.mapM fun (name, presence) =>
      match valuesOf members name, presence with
      | [v], _ => some (some v)
      | [], .required => none
      | [], _ => some none
      | _, _ => none
  | .array elements =>
    let missing := fields.drop elements.length
    if elements.length ≤ fields.length && missing.all fun p => p.2 == .defaulted then
      some (elements.map some ++ missing.map fun _ => none)
    else none
  | _ => none

/-! ## Values that are kept whole -/

/-- Whether a value that stands inside `outside` arrays and objects can be kept whole: it is not nested
too deeply, and it holds no number beyond the doubles and no half of a character. -/
def canBeKept (outside : Nat) (v : Value) : Bool :=
  v.isSound (fun literal => (finite? literal).isSome) && decide (outside + v.depth ≤ depthLimit)

/-- What the first of some readers makes of a value that takes it. -/
def firstOf (outside : Nat) (readers : List (Value → Option α)) (v : Value) : Option α :=
  if v.canBeKept outside then readers.findSome? fun read => read v else none

/-- The members without those that have a later member of the same name. -/
def lastMembers : List (Text × Value) → List (Text × Value)
  | [] => []
  | p :: rest => if rest.any fun q => q.1 == p.1 then lastMembers rest else p :: lastMembers rest

mutual

/-- The value with the last of several members of one name, in every object in it. -/
def settled : Value → Value
  | .array elements => .array (settledAll elements)
  | .object members => .object (lastMembers (settledMembers members))
  | v => v

/-- The values of a list, settled. -/
def settledAll : List Value → List Value
  | [] => []
  | v :: rest => v.settled :: settledAll rest

/-- The members of a list, settled. -/
def settledMembers : List (Text × Value) → List (Text × Value)
  | [] => []
  | (name, v) :: rest => (name, v.settled) :: settledMembers rest

end

/-- The last member of an object with a name. -/
def member? (name : String) : Value → Option Value
  | .object members => (valuesOf members name).getLast?
  | _ => none

/-! ## Writing -/

/-- The number that says `x`; what is no number is `null`. -/
def ofFloat (x : Float) : Value :=
  if Decimal.isFinite x then .number (String.ofList (Decimal.written .document x)) else .null

/-- The value of something optional, `null` if it is not there. -/
def ofOption (write : α → Value) : Option α → Value
  | some a => write a
  | none => .null

/-! ## The library -/

variable {read : Value → Option α} {v : Value}

theorem le_wordLimit_of_count? {n : Nat} (h : v.count? = some n) : n ≤ Decimal.wordLimit := by
  cases v with
  | number literal => exact Decimal.le_wordLimit_of_natural? h
  | _ => cases h

theorem isFinite_of_float? {x : Float} (h : v.float? = some x) : Decimal.isFinite x = true := by
  cases v with
  | number literal => exact isFinite_of_finite? h
  | _ => cases h

theorem exists_of_optional {a : α} (h : optional read v = some (some a)) : ∃ w, read w = some a := by
  unfold optional at h
  split at h
  · cases h
  · obtain ⟨b, hb, heq⟩ := Option.map_eq_some_iff.1 h
    cases heq
    exact ⟨v, hb⟩

/-- What is read from a list is read from its elements. -/
theorem exists_of_mem_mapM {β γ : Type} {f : β → Option γ} {bs : List β} {cs : List γ} (h : bs.mapM f = some cs) :
    ∀ c ∈ cs, ∃ b, f b = some c := by
  induction bs generalizing cs with
  | nil =>
    rw [List.mapM_nil] at h
    cases h
    nofun
  | cons b rest ih =>
    simp only [List.mapM_cons, Option.bind_eq_bind, Option.bind_eq_some_iff, Option.pure_def, Option.some.injEq] at h
    obtain ⟨c, hc, cs, hcs, rfl⟩ := h
    intro d hd
    rcases List.mem_cons.1 hd with rfl | hd
    · exact ⟨b, hc⟩
    · exact ih hcs d hd

theorem exists_of_list {as : List α} (h : list read v = some as) : ∀ a ∈ as, ∃ w, read w = some a := by
  cases v with
  | array elements => exact exists_of_mem_mapM h
  | _ => cases h

theorem exists_of_map {m : NameMap α} (h : map read v = some m) : ∀ a ∈ m.values, ∃ w, read w = some a := by
  cases v with
  | object members =>
    obtain ⟨es, hes, rfl⟩ := Option.map_eq_some_iff.1 h
    intro a ha
    obtain ⟨p, hp, rfl⟩ := List.mem_map.1 ha
    obtain ⟨q, hq⟩ := exists_of_mem_mapM hes p (OrderedMap.mem_of_mem_ofList hp)
    obtain ⟨name, -, hname⟩ := Option.bind_eq_some_iff.1 hq
    obtain ⟨b, hb, rfl⟩ := Option.map_eq_some_iff.1 hname
    exact ⟨q.2, hb⟩
  | _ => cases h

theorem exists_of_firstOf {outside : Nat} {readers : List (Value → Option α)} {a : α}
    (h : firstOf outside readers v = some a) : ∃ read ∈ readers, ∃ w, read w = some a := by
  rw [firstOf, Option.ite_none_right_eq_some] at h
  obtain ⟨read, hmem, hread⟩ := List.exists_of_findSome?_eq_some h.2
  exact ⟨read, hmem, v, hread⟩

/-- **The library that rounds once.** -/
instance library : Library Value where
  read? s := Json.read? s.toList
  text v := String.ofList v.text
  string? := string?
  count? := count?
  float? := float?
  optional := optional
  list := list
  map := map
  fields? := fields?
  tag? := tag?
  firstOf := firstOf
  whole? v := if v.canBeKept 0 then some v.settled else none
  member? := member?
  null := null
  ofString := ofString
  ofCount := ofCount
  ofFloat := ofFloat
  ofElements := array
  ofMembers := ofMembers
  le_of_count? := le_wordLimit_of_count?
  isFinite_of_float? := isFinite_of_float?
  of_optional := exists_of_optional
  of_list := exists_of_list
  of_map := exists_of_map
  of_firstOf := exists_of_firstOf

end Value

end CheckerTrials.Json
