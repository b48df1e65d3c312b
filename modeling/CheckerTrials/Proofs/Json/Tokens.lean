import CheckerTrials.Json.Token
import CheckerTrials.Proofs.Decimal.Layout

/-!
# Tokens are cut where they were joined

A token that is written can be cut off again from whatever follows it (`firstToken?_text`).  For punctuation and
words this needs nothing, for a string that it is made of characters, and for a number that it has the form of a
number and that no character of a number comes next.

Inside a string the quote, the backslash and control characters are escaped, so that the first quote that is not
escaped is the end (`scanString_escaped`).  No character is half of one, so that the code units of a string are
its characters (`charactersOf_toNat`).
-/

set_option autoImplicit false

namespace CheckerTrials.Json

/-! ## Strings -/

/-- The escape of a control character says that character. -/
theorem hexValue?_control : ∀ n < 32, hexValue? '0' '0' (hexDigit (n / 16)) (hexDigit (n % 16)) = some n := by
  decide

/-- A code unit in front of what is said by the inside of a string. -/
def withUnit (n : Nat) : List Nat × List Char → List Nat × List Char
  | (units, rest) => (n :: units, rest)

theorem scanString_quote (rest : List Char) : scanString ('"' :: rest) = some ([], rest) := by
  rw [scanString.eq_def]
  rfl

theorem scanString_backslash {e c : Char} (he : e ≠ 'u') (h : escaped? e = some c) (rest : List Char) :
    scanString ('\\' :: e :: rest) = (scanString rest).map (withUnit c.toNat) := by
  rw [scanString.eq_def]
  simp only [if_neg (show '\\' ≠ '"' by decide), if_pos, if_neg he, h, Option.bind_eq_bind, Option.bind_some]
  cases scanString rest <;> rfl

theorem scanString_hex {a b c d : Char} {n : Nat} (h : hexValue? a b c d = some n) (rest : List Char) :
    scanString ('\\' :: 'u' :: a :: b :: c :: d :: rest) = (scanString rest).map (withUnit n) := by
  rw [scanString.eq_def]
  simp only [if_neg (show '\\' ≠ '"' by decide), if_pos, h, Option.bind_eq_bind, Option.bind_some]
  cases scanString rest <;> rfl

theorem scanString_plain {c : Char} (hquote : c ≠ '"') (hbackslash : c ≠ '\\') (hcontrol : ¬ c < ' ')
    (rest : List Char) : scanString (c :: rest) = (scanString rest).map (withUnit c.toNat) := by
  rw [scanString.eq_def]
  simp only [if_neg hquote, if_neg hbackslash, if_neg hcontrol, Option.bind_eq_bind]
  cases scanString rest <;> rfl

/-- **One escaped character** says one code unit. -/
theorem scanString_escape (c : Char) (rest : List Char) :
    scanString (escape c ++ rest) = (scanString rest).map (withUnit c.toNat) := by
  rw [escape]
  -- first the seven characters that have an escape of their own
  iterate 7
    split
    · subst c
      exact scanString_backslash (by decide) rfl rest
  split
  · rename_i hcontrol
    exact scanString_hex (hexValue?_control c.toNat hcontrol) rest
  · rename_i hquote hbackslash _ _ _ _ _ hcontrol
    exact scanString_plain hquote hbackslash hcontrol rest

/-- **The end of a string** is found. -/
theorem scanString_escaped (s rest : List Char) :
    scanString (s.flatMap escape ++ '"' :: rest) = some (s.map Char.toNat, rest) := by
  induction s with
  | nil => exact scanString_quote rest
  | cons c s ih =>
    rw [List.flatMap_cons, List.append_assoc, scanString_escape, ih]
    rfl

/-- No character is the first half of one. -/
theorem isFirstHalf_toNat (c : Char) : isFirstHalf c.toNat = false := by
  have hvalid : c.toNat < 0xD800 ∨ 0xDFFF < c.toNat ∧ c.toNat < 0x110000 := c.valid
  rw [isFirstHalf, Bool.and_eq_false_iff, decide_eq_false_iff_not, decide_eq_false_iff_not]
  omega

/-- No character is the second half of one. -/
theorem isSecondHalf_toNat (c : Char) : isSecondHalf c.toNat = false := by
  have hvalid : c.toNat < 0xD800 ∨ 0xDFFF < c.toNat ∧ c.toNat < 0x110000 := c.valid
  rw [isSecondHalf, Bool.and_eq_false_iff, decide_eq_false_iff_not, decide_eq_false_iff_not]
  omega

/-- **Characters are whole.** -/
theorem charactersOf_toNat (s : List Char) : charactersOf (s.map Char.toNat) = some s := by
  induction s with
  | nil => rfl
  | cons c s ih =>
    cases s with
    | nil => simp [charactersOf, isFirstHalf_toNat, isSecondHalf_toNat]
    | cons d s =>
      rw [List.map_cons] at ih
      simp [charactersOf, isFirstHalf_toNat, isSecondHalf_toNat, ih]

/-- **A string is found again** between its quotes. -/
theorem textOf_toNat (s : String) : textOf (s.toList.map Char.toNat) = some s := by
  rw [textOf, charactersOf_toNat, Option.map_some, String.ofList_toList]

/-! ## Numbers -/

theorem isNumberChar_of_isDigit {c : Char} (h : Decimal.isDigit c = true) : isNumberChar c = true := by
  simp [isNumberChar, h]

theorem isNumberChar_of_digits_append {s : List Char}
    (h : ∀ c ∈ s.dropWhile Decimal.isDigit, isNumberChar c = true) : ∀ c ∈ s, isNumberChar c = true := by
  intro c hc
  rw [← List.takeWhile_append_dropWhile (p := Decimal.isDigit) (l := s)] at hc
  rcases List.mem_append.1 hc with hc | hc
  · exact isNumberChar_of_isDigit (List.all_eq_true.1 List.all_takeWhile c hc)
  · exact h c hc

theorem isNumberChar_of_isPower {s : List Char} (h : isPower s = true) :
    ∀ c ∈ s, isNumberChar c = true := by
  intro c hc
  cases s with
  | nil => cases hc
  | cons e rest =>
    unfold isPower at h
    simp only [Bool.and_eq_true, Bool.or_eq_true, beq_iff_eq] at h
    obtain ⟨⟨he, -⟩, hall⟩ := h
    have hdigits : ∀ {t : List Char}, t.all Decimal.isDigit = true → ∀ c ∈ t, isNumberChar c = true :=
      fun ht c hc => isNumberChar_of_isDigit (List.all_eq_true.1 ht c hc)
    rcases List.mem_cons.1 hc with rfl | hc
    · rcases he with rfl | rfl <;> decide
    · split at hall
      · rcases List.mem_cons.1 hc with rfl | hc
        · decide
        · exact hdigits hall c hc
      · rcases List.mem_cons.1 hc with rfl | hc
        · decide
        · exact hdigits hall c hc
      · exact hdigits hall c hc

theorem isNumberChar_of_isFraction {s : List Char} (h : isFraction s = true) :
    ∀ c ∈ s, isNumberChar c = true := by
  unfold isFraction at h
  split at h
  · rename_i rest
    rw [Bool.and_eq_true] at h
    intro c hc
    rcases List.mem_cons.1 hc with rfl | hc
    · decide
    · exact isNumberChar_of_digits_append (isNumberChar_of_isPower h.2) c hc
  · exact isNumberChar_of_isPower h

theorem isNumberChar_of_isMagnitude {s : List Char} (h : isMagnitude s = true) :
    ∀ c ∈ s, isNumberChar c = true := by
  unfold isMagnitude at h
  split at h
  · cases h
  · rw [Bool.and_eq_true] at h
    exact isNumberChar_of_digits_append (isNumberChar_of_isFraction h.2)

/-- **What has the form of a number** consists of characters of numbers. -/
theorem isNumberChar_of_isNumber {s : List Char} (h : isNumber s = true) : ∀ c ∈ s, isNumberChar c = true := by
  unfold isNumber at h
  split at h
  · rename_i rest
    intro c hc
    rcases List.mem_cons.1 hc with rfl | hc
    · decide
    · exact isNumberChar_of_isMagnitude h c hc
  · exact isNumberChar_of_isMagnitude h

/-- A number begins with a digit or a minus. -/
theorem exists_cons_of_isNumber {s : List Char} (h : isNumber s = true) :
    ∃ c rest, s = c :: rest ∧ (Decimal.isDigit c || c == '-') = true := by
  unfold isNumber at h
  split at h
  · rename_i rest
    exact ⟨'-', rest, rfl, rfl⟩
  · cases s with
    | nil => cases h
    | cons c rest =>
      refine ⟨c, rest, rfl, ?_⟩
      unfold isMagnitude at h
      split at h
      · cases h
      · rename_i d more heq
        rw [List.takeWhile_cons] at heq
        split at heq
        · rename_i hc
          rw [hc, Bool.true_or]
        · cases heq

/-! ## Cutting -/

namespace Token

/-- Whether a token can be written: a number has the form of one, and a string is made of characters. -/
def isWritable : Token → Bool
  | .number literal => isNumber literal.toList
  | .string s => s.isSome
  | _ => true

/-- Whether a text may follow a token: after a number no character of a number may come. -/
def MayPrecede : Token → List Char → Prop
  | .number _, s => ∀ c ∈ s.head?, isNumberChar c = false
  | _, _ => True

end Token

/-- What begins a number begins nothing else. -/
theorem ne_of_begins_number {c d : Char} (hc : (Decimal.isDigit c || c == '-') = true)
    (hd : (Decimal.isDigit d || d == '-') = false) : c ≠ d := by
  rintro rfl
  rw [hc] at hd
  cases hd

theorem firstToken?_number {s : List Char} (hs : isNumber s = true) {rest : List Char}
    (hrest : ∀ c ∈ rest.head?, isNumberChar c = false) :
    firstToken? (s ++ rest) = some (.number (String.ofList s), rest) := by
  have hchars := isNumberChar_of_isNumber hs
  obtain ⟨c, t, rfl, hc⟩ := exists_cons_of_isNumber hs
  have hne : ∀ d, (Decimal.isDigit d || d == '-') = false → c ≠ d := fun d hd => ne_of_begins_number hc hd
  have hpunctuation : punctuation? c = none := by
    rw [punctuation?, if_neg (hne _ (by decide)), if_neg (hne _ (by decide)), if_neg (hne _ (by decide)),
      if_neg (hne _ (by decide)), if_neg (hne _ (by decide)), if_neg (hne _ (by decide))]
  rw [List.cons_append, firstToken?, hpunctuation]
  dsimp only
  rw [if_neg (hne '"' (by decide)), if_pos hc, ← List.cons_append, Text.takeWhile_append_of_stop hchars hrest,
    Text.dropWhile_append_of_stop hchars hrest, if_pos hs]

theorem firstToken?_quoted (s : String) (rest : List Char) :
    firstToken? (quoted s.toList ++ rest) = some (.string (some s), rest) := by
  rw [quoted, List.append_assoc, List.singleton_append, List.cons_append, firstToken?,
    show punctuation? '"' = none from rfl]
  dsimp only
  rw [if_pos rfl, scanString_escaped, Option.map_some, textOf_toNat]

/-- **A token is cut off** from what follows it. -/
theorem firstToken?_text {t : Token} (ht : t.isWritable = true) {rest : List Char} (hrest : t.MayPrecede rest) :
    firstToken? (t.text ++ rest) = some (t, rest) := by
  cases t with
  | openArray => rfl
  | closeArray => rfl
  | openObject => rfl
  | closeObject => rfl
  | comma => rfl
  | colon => rfl
  | null => rfl
  | bool b => cases b <;> rfl
  | number literal =>
    rw [Token.text, firstToken?_number ht hrest, String.ofList_toList]
  | string s =>
    obtain ⟨s, rfl⟩ := Option.isSome_iff_exists.1 ht
    exact firstToken?_quoted s rest

/-- No token begins with a space. -/
theorem exists_text_eq_cons {t : Token} (ht : t.isWritable = true) :
    ∃ c rest, t.text = c :: rest ∧ isSpace c = false := by
  cases t with
  | bool b => cases b <;> exact ⟨_, _, rfl, rfl⟩
  | number literal =>
    obtain ⟨c, rest, heq, hc⟩ := exists_cons_of_isNumber ht
    have hne : ∀ d, (Decimal.isDigit d || d == '-') = false → c ≠ d := fun d hd => ne_of_begins_number hc hd
    refine ⟨c, rest, heq, ?_⟩
    simp only [isSpace, Bool.or_eq_false_iff, beq_eq_false_iff_ne]
    exact ⟨⟨⟨hne _ (by decide), hne _ (by decide)⟩, hne _ (by decide)⟩, hne _ (by decide)⟩
  | string s => exact ⟨'"', _, rfl, rfl⟩
  | _ => exact ⟨_, _, rfl, rfl⟩

/-- **Tokens are cut off** one by one. -/
theorem tokens_text_append {t : Token} (ht : t.isWritable = true) {rest : List Char} (hrest : t.MayPrecede rest) :
    tokens (t.text ++ rest) = (tokens rest).map (t :: ·) := by
  have hfirst := firstToken?_text ht hrest
  obtain ⟨c, more, heq, hc⟩ := exists_text_eq_cons ht
  rw [heq, List.cons_append] at hfirst ⊢
  rw [tokens, if_neg (by rw [hc]; decide)]
  split
  · rename_i hnone
    rw [hfirst] at hnone
    cases hnone
  · rename_i token after hsome
    rw [hfirst] at hsome
    cases hsome
    rfl

end CheckerTrials.Json
