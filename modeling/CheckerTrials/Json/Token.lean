import CheckerTrials.Decimal.Natural
import CheckerTrials.Json.Value

/-!
# JSON tokens

A document is first cut into tokens: punctuation, the three words, numbers and strings.  `Json.tokens`
cuts and `Token.text` writes one token.

* A number is the longest stretch of the characters that numbers are made of, and that stretch must
  have the form of a number (`isNumber`): no leading zeros, digits on both sides of a point.
* A string ends at the first quote that is not escaped.  It must not hold control characters, and
  writing escapes exactly these, the quote and the backslash.
-/

set_option autoImplicit false

namespace CheckerTrials.Json

/-- The smallest parts of a document. -/
inductive Token
  /-- `[` -/
  | openArray
  /-- `]` -/
  | closeArray
  /-- `{` -/
  | openObject
  /-- `}` -/
  | closeObject
  /-- `,` -/
  | comma
  /-- `:` -/
  | colon
  /-- The word `null`. -/
  | null
  /-- The word `true` or `false`. -/
  | bool (b : Bool)
  /-- A number as it is written. -/
  | number (literal : String)
  /-- A string. -/
  | string (s : Text)
  deriving DecidableEq, Repr

/-! ## Numbers -/

/-- The characters that numbers are made of. -/
def isNumberChar (c : Char) : Bool :=
  Decimal.isDigit c || c == '-' || c == '+' || c == '.' || c == 'e' || c == 'E'

/-- Whether a text is empty or a power of ten. -/
def isPower (s : List Char) : Bool :=
  match s with
  | [] => true
  | c :: rest =>
    let digits :=
      match rest with
      | '+' :: rest => rest
      | '-' :: rest => rest
      | _ => rest
    (c == 'e' || c == 'E') && !digits.isEmpty && digits.all Decimal.isDigit

/-- Whether a text is what may follow the digits before the point of a number. -/
def isFraction (s : List Char) : Bool :=
  match s with
  | '.' :: rest =>
    !(rest.takeWhile Decimal.isDigit).isEmpty && isPower (rest.dropWhile Decimal.isDigit)
  | _ => isPower s

/-- Whether a text is a number without a sign. -/
def isMagnitude (s : List Char) : Bool :=
  match s.takeWhile Decimal.isDigit with
  | [] => false
  | d :: more => (d != '0' || more.isEmpty) && isFraction (s.dropWhile Decimal.isDigit)

/-- Whether a text has the form of a number. -/
def isNumber (s : List Char) : Bool :=
  match s with
  | '-' :: rest => isMagnitude rest
  | _ => isMagnitude s

/-! ## Strings -/

/-- The value of a hexadecimal digit. -/
def hexDigit? (c : Char) : Option Nat :=
  if '0' ≤ c ∧ c ≤ '9' then some (c.toNat - '0'.toNat)
  else if 'a' ≤ c ∧ c ≤ 'f' then some (c.toNat - 'a'.toNat + 10)
  else if 'A' ≤ c ∧ c ≤ 'F' then some (c.toNat - 'A'.toNat + 10)
  else none

/-- The value of four hexadecimal digits. -/
def hexValue? (a b c d : Char) : Option Nat := do
  return (((← hexDigit? a) * 16 + (← hexDigit? b)) * 16 + (← hexDigit? c)) * 16 + (← hexDigit? d)

/-- The character that stands for itself or for another one after a backslash. -/
def escaped? (c : Char) : Option Char :=
  if c = '"' ∨ c = '\\' ∨ c = '/' then some c
  else if c = 'b' then some '\x08'
  else if c = 'f' then some '\x0c'
  else if c = 'n' then some '\n'
  else if c = 'r' then some '\r'
  else if c = 't' then some '\t'
  else none

/-- Cuts the inside of a string at the quote that ends it: the code units it says and the rest of the
document. -/
def scanString : List Char → Option (List Nat × List Char)
  | [] => none
  | c :: rest =>
    if c = '"' then some ([], rest)
    else if c = '\\' then
      match rest with
      | [] => none
      | e :: rest =>
        if e = 'u' then
          match rest with
          | a :: b :: c :: d :: rest => do
            let n ← hexValue? a b c d
            let (units, rest) ← scanString rest
            some (n :: units, rest)
          | _ => none
        else do
          let c ← escaped? e
          let (units, rest) ← scanString rest
          some (c.toNat :: units, rest)
    else if c < ' ' then none
    else do
      let (units, rest) ← scanString rest
      some (c.toNat :: units, rest)

/-- Whether a code unit is the first half of a character. -/
def isFirstHalf (n : Nat) : Bool := 0xD800 ≤ n && n < 0xDC00

/-- Whether a code unit is the second half of a character. -/
def isSecondHalf (n : Nat) : Bool := 0xDC00 ≤ n && n < 0xE000

/-- The characters of code units, if each half has its other half. -/
def charactersOf : List Nat → Option (List Char)
  | [] => some []
  | [n] => if isFirstHalf n || isSecondHalf n then none else some [Char.ofNat n]
  | n :: m :: rest =>
    if isFirstHalf n then
      if isSecondHalf m then
        (charactersOf rest).map (Char.ofNat (0x10000 + (n - 0xD800) * 0x400 + (m - 0xDC00)) :: ·)
      else none
    else if isSecondHalf n then none
    else (charactersOf (m :: rest)).map (Char.ofNat n :: ·)

/-- The text of code units. -/
def textOf (units : List Nat) : Text := (charactersOf units).map String.ofList

/-- The digit of a value below 16. -/
def hexDigit (n : Nat) : Char := Nat.digitChar n

/-- A character as it is written inside a string. -/
def escape (c : Char) : List Char :=
  if c = '"' then ['\\', '"']
  else if c = '\\' then ['\\', '\\']
  else if c = '\x08' then ['\\', 'b']
  else if c = '\x0c' then ['\\', 'f']
  else if c = '\n' then ['\\', 'n']
  else if c = '\r' then ['\\', 'r']
  else if c = '\t' then ['\\', 't']
  else if c < ' ' then ['\\', 'u', '0', '0', hexDigit (c.toNat / 16), hexDigit (c.toNat % 16)]
  else [c]

/-- A string between quotes. -/
def quoted (s : List Char) : List Char := '"' :: s.flatMap escape ++ ['"']

/-! ## Cutting a document -/

/-- Whether a character may stand between tokens. -/
def isSpace (c : Char) : Bool := c == ' ' || c == '\t' || c == '\n' || c == '\r'

/-- The token that a character is alone. -/
def punctuation? (c : Char) : Option Token :=
  if c = '[' then some .openArray
  else if c = ']' then some .closeArray
  else if c = '\x7b' then some .openObject
  else if c = '\x7d' then some .closeObject
  else if c = ',' then some .comma
  else if c = ':' then some .colon
  else none

/-- The words among the tokens. -/
def wordTokens : List (List Char × Token) :=
  [("null".toList, .null), ("true".toList, .bool true), ("false".toList, .bool false)]

/-- The first token of a document that does not begin with a space, and what follows it. -/
def firstToken? (s : List Char) : Option (Token × List Char) :=
  match s with
  | [] => none
  | c :: rest =>
    match punctuation? c with
    | some token => some (token, rest)
    | none =>
      if c = '"' then (scanString rest).map fun (units, rest) => (.string (textOf units), rest)
      else if Decimal.isDigit c || c == '-' then
        let literal := s.takeWhile isNumberChar
        if isNumber literal then some (.number (String.ofList literal), s.dropWhile isNumberChar)
        else none
      else
        (wordTokens.find? fun (word, _) => word.isPrefixOf s).map fun (word, token) =>
          (token, s.drop word.length)

theorem length_lt_of_scanString : ∀ {s : List Char} {units : List Nat} {rest : List Char},
    scanString s = some (units, rest) → rest.length < s.length
  | [], units, rest, h => by simp [scanString] at h
  | c :: s, units, rest, h => by
    rw [scanString.eq_def] at h
    simp only at h
    split at h
    · simp only [Option.some.injEq, Prod.mk.injEq] at h
      simp [h.2]
    · split at h
      · match s, h with
        | [], h => simp at h
        | e :: s, h =>
          simp only at h
          split at h
          · match s, h with
            | a :: b :: c :: d :: s, h =>
              simp only [Option.bind_eq_bind, Option.bind_eq_some_iff, Option.some.injEq,
                Prod.mk.injEq] at h
              obtain ⟨_, _, ⟨_, r⟩, hs, _, rfl⟩ := h
              have := length_lt_of_scanString hs
              simp only [List.length_cons]
              omega
            | [], h => simp at h
            | [_], h => simp at h
            | [_, _], h => simp at h
            | [_, _, _], h => simp at h
          · simp only [Option.bind_eq_bind, Option.bind_eq_some_iff, Option.some.injEq,
              Prod.mk.injEq] at h
            obtain ⟨_, _, ⟨_, r⟩, hs, _, rfl⟩ := h
            have := length_lt_of_scanString hs
            simp only [List.length_cons]
            omega
      · split at h
        · simp at h
        · simp only [Option.bind_eq_bind, Option.bind_eq_some_iff, Option.some.injEq,
            Prod.mk.injEq] at h
          obtain ⟨⟨_, r⟩, hs, _, rfl⟩ := h
          have := length_lt_of_scanString hs
          simp only [List.length_cons]
          omega

/-- A token is not empty. -/
theorem length_lt_of_firstToken? {s rest : List Char} {token : Token}
    (h : firstToken? s = some (token, rest)) : rest.length < s.length := by
  match s, h with
  | [], h => simp [firstToken?] at h
  | c :: s, h =>
    rw [firstToken?] at h
    split at h
    · simp only [Option.some.injEq, Prod.mk.injEq] at h
      simp [h.2]
    · split at h
      · simp only [Option.map_eq_some_iff, Prod.mk.injEq, Prod.exists] at h
        obtain ⟨_, r, hs, _, rfl⟩ := h
        have := length_lt_of_scanString hs
        simp only [List.length_cons]
        omega
      · split at h
        · rename_i hc
          simp only at h
          split at h
          · simp only [Option.some.injEq, Prod.mk.injEq] at h
            have hn : isNumberChar c = true := by
              simp only [isNumberChar, Bool.or_eq_true] at hc ⊢
              rcases hc with hc | hc <;> simp [hc]
            have := (List.dropWhile_suffix isNumberChar (l := s)).length_le
            rw [← h.2, List.dropWhile_cons, if_pos hn, List.length_cons]
            omega
          · simp at h
        · simp only [Option.map_eq_some_iff, Prod.mk.injEq, Prod.exists] at h
          obtain ⟨word, _, hw, _, rfl⟩ := h
          have hm := List.mem_of_find?_eq_some hw
          have hpos : 0 < word.length := by
            simp only [wordTokens, List.mem_cons, Prod.mk.injEq, List.not_mem_nil, or_false] at hm
            rcases hm with ⟨rfl, _⟩ | ⟨rfl, _⟩ | ⟨rfl, _⟩ <;> decide
          rw [List.length_drop, List.length_cons]
          omega

/-- Cuts a document into tokens. -/
def tokens (s : List Char) : Option (List Token) :=
  match s with
  | [] => some []
  | c :: rest =>
    if isSpace c then tokens rest
    else
      match h : firstToken? (c :: rest) with
      | none => none
      | some (token, after) => (tokens after).map (token :: ·)
termination_by s.length
decreasing_by
  · simp
  · simpa using length_lt_of_firstToken? h

/-- A token as it is written.  A string that is not made of characters is written as if it were
empty. -/
def Token.text : Token → List Char
  | .openArray => ['[']
  | .closeArray => [']']
  | .openObject => ['\x7b']
  | .closeObject => ['\x7d']
  | .comma => [',']
  | .colon => [':']
  | .null => "null".toList
  | .bool true => "true".toList
  | .bool false => "false".toList
  | .number literal => literal.toList
  | .string s => quoted (s.getD "").toList

end CheckerTrials.Json
