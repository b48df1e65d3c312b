import CheckerTrials.Json.Document
import CheckerTrials.Proofs.Json.Tokens

/-!
# What is written is read

Writing a value and reading the text gives the value back (`read?_text`), if its numbers have the form of numbers and
its strings are made of characters.  There are two halves to it, and both go through a value, the elements of an array
and the members of an object together:

* The text of a value is cut into its tokens: after a number comes a comma or the end of what it stands in, and these
  are no characters of numbers (`canBeCut_tokens`).
* The tokens of a value put that value into what was opened last, whatever that is and whatever follows
  (`finish_tokens`).  In an array or object that is open, what has been read so far stands in reverse order.
-/

set_option autoImplicit false

namespace CheckerTrials.Json

/-! ## Cutting the text -/

/-- Whether every token of a list can be cut off from those after it and from the text that follows the list. -/
def CanBeCut : List Token → List Char → Prop
  | [], _ => True
  | t :: ts, rest => t.isWritable = true ∧ t.MayPrecede (ts.flatMap Token.text ++ rest) ∧ CanBeCut ts rest

theorem canBeCut_append {ts us : List Token} {rest : List Char} :
    CanBeCut (ts ++ us) rest ↔ CanBeCut ts (us.flatMap Token.text ++ rest) ∧ CanBeCut us rest := by
  induction ts with
  | nil => simp [CanBeCut]
  | cons t ts ih => simp [CanBeCut, ih, and_assoc]

/-- **Tokens that were joined** are found again. -/
theorem tokens_flatMap_append {ts : List Token} {rest : List Char} (h : CanBeCut ts rest) :
    tokens (ts.flatMap Token.text ++ rest) = (tokens rest).map (ts ++ ·) := by
  induction ts with
  | nil =>
    rw [List.flatMap_nil, List.nil_append]
    cases tokens rest <;> rfl
  | cons t ts ih =>
    rw [List.flatMap_cons, List.append_assoc, tokens_text_append h.1 h.2.1, ih h.2.2, Option.map_map]
    rfl

/-- Whether a text has the form of a number. -/
def isLiteral (literal : String) : Bool := isNumber literal.toList

namespace Value

mutual

/-- **A value can be cut** from what does not begin with a character of numbers. -/
theorem canBeCut_tokens : ∀ (v : Value), v.isSound isLiteral = true → ∀ rest : List Char,
    (∀ c ∈ rest.head?, isNumberChar c = false) → CanBeCut v.tokens rest
  | .null, _, _, _ => ⟨rfl, trivial, trivial⟩
  | .bool _, _, _, _ => ⟨rfl, trivial, trivial⟩
  | .number _, h, _, hrest => ⟨h, hrest, trivial⟩
  | .string _, h, _, _ => ⟨h, trivial, trivial⟩
  | .array elements, h, rest, _ => ⟨rfl, trivial, canBeCut_elementTokens elements h rest⟩
  | .object members, h, rest, _ => ⟨rfl, trivial, canBeCut_memberTokens members h rest⟩

/-- The elements of an array and its end can be cut from anything. -/
theorem canBeCut_elementTokens : ∀ (vs : List Value), allSound isLiteral vs = true → ∀ rest : List Char,
    CanBeCut (elementTokens vs) rest
  | [], _, _ => ⟨rfl, trivial, trivial⟩
  | [v], h, rest => by
    rw [allSound, Bool.and_eq_true] at h
    rw [elementTokens, canBeCut_append]
    exact ⟨canBeCut_tokens v h.1 _ (by rintro c ⟨⟩; decide), rfl, trivial, trivial⟩
  | v :: w :: vs, h, rest => by
    rw [allSound, Bool.and_eq_true] at h
    rw [elementTokens, canBeCut_append]
    exact ⟨canBeCut_tokens v h.1 _ (by rintro c ⟨⟩; decide), rfl, trivial,
      canBeCut_elementTokens (w :: vs) h.2 rest⟩

/-- The members of an object and its end can be cut from anything. -/
theorem canBeCut_memberTokens : ∀ (ps : List (Text × Value)), membersSound isLiteral ps = true →
    ∀ rest : List Char, CanBeCut (memberTokens ps) rest
  | [], _, _ => ⟨rfl, trivial, trivial⟩
  | [(name, v)], h, rest => by
    rw [membersSound, Bool.and_eq_true, Bool.and_eq_true] at h
    rw [memberTokens]
    refine ⟨h.1.1, trivial, rfl, trivial, canBeCut_append.2 ⟨?_, rfl, trivial, trivial⟩⟩
    exact canBeCut_tokens v h.1.2 _ (by rintro c ⟨⟩; decide)
  | (name, v) :: p :: ps, h, rest => by
    rw [membersSound, Bool.and_eq_true, Bool.and_eq_true] at h
    rw [memberTokens]
    refine ⟨h.1.1, trivial, rfl, trivial, canBeCut_append.2 ⟨?_, rfl, trivial, ?_⟩⟩
    · exact canBeCut_tokens v h.1.2 _ (by rintro c ⟨⟩; decide)
    · exact canBeCut_memberTokens (p :: ps) h.2 rest

end

end Value

/-! ## Reading the tokens -/

namespace Reading

/-- Where a value may begin, it does not matter that an array may end there as well. -/
theorem finish_valueOrEnd (frames : List Frame) (v : Value) (rest : List Token) :
    finish ⟨frames, .valueOrEnd⟩ (v.tokens ++ rest) = finish ⟨frames, .value⟩ (v.tokens ++ rest) := by
  cases v <;> rfl

mutual

/-- **The tokens of a value** put it into what was opened last. -/
theorem finish_tokens : ∀ (v : Value) (frames : List Frame) (rest : List Token),
    finish ⟨frames, .value⟩ (v.tokens ++ rest) = finish (put v frames) rest
  | .null, _, _ => rfl
  | .bool _, _, _ => rfl
  | .number _, _, _ => rfl
  | .string _, _, _ => rfl
  | .array [], _, _ => rfl
  | .array (v :: vs), frames, rest => by
    rw [Value.tokens, List.cons_append]
    show finish ⟨.array [] :: frames, .valueOrEnd⟩ (Value.elementTokens (v :: vs) ++ rest) = _
    have hbegin : finish ⟨.array [] :: frames, .valueOrEnd⟩ (Value.elementTokens (v :: vs) ++ rest) =
        finish ⟨.array [] :: frames, .value⟩ (Value.elementTokens (v :: vs) ++ rest) := by
      cases vs <;> rw [Value.elementTokens, List.append_assoc, finish_valueOrEnd]
    rw [hbegin, finish_elementTokens (v :: vs) (List.cons_ne_nil _ _) [] frames rest, List.reverse_nil,
      List.nil_append]
  | .object [], _, _ => rfl
  | .object ((name, v) :: ps), frames, rest => by
    rw [Value.tokens, List.cons_append]
    show finish ⟨.object [] none :: frames, .nameOrEnd⟩ (Value.memberTokens ((name, v) :: ps) ++ rest) = _
    have hbegin : finish ⟨.object [] none :: frames, .nameOrEnd⟩ (Value.memberTokens ((name, v) :: ps) ++ rest) =
        finish ⟨.object [] none :: frames, .name⟩ (Value.memberTokens ((name, v) :: ps) ++ rest) := by
      cases ps <;> rfl
    rw [hbegin, finish_memberTokens ((name, v) :: ps) (List.cons_ne_nil _ _) [] none frames rest, List.reverse_nil,
      List.nil_append]

/-- The elements of an array that has been opened. -/
theorem finish_elementTokens : ∀ (vs : List Value), vs ≠ [] → ∀ (before : List Value) (frames : List Frame)
    (rest : List Token), finish ⟨.array before :: frames, .value⟩ (Value.elementTokens vs ++ rest) =
      finish (put (.array (before.reverse ++ vs)) frames) rest
  | [], hne, _, _, _ => absurd rfl hne
  | [v], _, before, frames, rest => by
    rw [Value.elementTokens, List.append_assoc, finish_tokens v]
    show finish (put (.array (v :: before).reverse) frames) rest = _
    rw [List.reverse_cons]
  | v :: w :: vs, _, before, frames, rest => by
    rw [Value.elementTokens, List.append_assoc, finish_tokens v]
    show finish ⟨.array (v :: before) :: frames, .value⟩ (Value.elementTokens (w :: vs) ++ rest) = _
    rw [finish_elementTokens (w :: vs) (List.cons_ne_nil _ _), List.reverse_cons, List.append_assoc,
      List.singleton_append]

/-- The members of an object that has been opened. -/
theorem finish_memberTokens : ∀ (ps : List (Text × Value)), ps ≠ [] → ∀ (before : List (Text × Value))
    (name : Text) (frames : List Frame) (rest : List Token),
    finish ⟨.object before name :: frames, .name⟩ (Value.memberTokens ps ++ rest) =
      finish (put (.object (before.reverse ++ ps)) frames) rest
  | [], hne, _, _, _, _ => absurd rfl hne
  | [(name, v)], _, before, _, frames, rest => by
    rw [Value.memberTokens]
    show finish ⟨.object before name :: frames, .value⟩ ((v.tokens ++ [.closeObject]) ++ rest) = _
    rw [List.append_assoc, finish_tokens v]
    show finish (put (.object ((name, v) :: before).reverse) frames) rest = _
    rw [List.reverse_cons]
  | (name, v) :: p :: ps, _, before, _, frames, rest => by
    rw [Value.memberTokens]
    show finish ⟨.object before name :: frames, .value⟩
      ((v.tokens ++ .comma :: Value.memberTokens (p :: ps)) ++ rest) = _
    rw [List.append_assoc, finish_tokens v]
    show finish ⟨.object ((name, v) :: before) none :: frames, .name⟩ (Value.memberTokens (p :: ps) ++ rest) = _
    rw [finish_memberTokens (p :: ps) (List.cons_ne_nil _ _), List.reverse_cons, List.append_assoc,
      List.singleton_append]

end

end Reading

/-- **What is written is read.** -/
theorem read?_text {v : Value} (h : v.isSound isLiteral = true) : read? v.text = some v := by
  have hcut := tokens_flatMap_append (Value.canBeCut_tokens v h [] (by rintro c ⟨⟩))
  have hread := Reading.finish_tokens v [] []
  have hnil : tokens [] = some [] := by rw [tokens]
  rw [List.append_nil, hnil, Option.map_some, List.append_nil] at hcut
  rw [List.append_nil] at hread
  rw [read?, Value.text, hcut, Option.bind_some, Value.ofTokens?, hread]
  rfl

end CheckerTrials.Json
