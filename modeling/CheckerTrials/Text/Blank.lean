import CheckerTrials.Text.Split

/-!
# Blanks

The blanks of this library are the characters with the Unicode property White_Space: 25 characters,
among them the no-break spaces and the line and paragraph separators.  Command lines are cut at
blanks, and every field that is read from a file is trimmed of them.

* `isBlank_of_isWhitespace`: the blanks of ASCII that Lean itself calls whitespace are blanks.
* `eq_false_of_mem_words`: a word holds no blank, and no word is empty (`ne_nil_of_mem_words`).
-/

set_option autoImplicit false

namespace CheckerTrials.Text

/-- The characters with the Unicode property White_Space. -/
def isBlank (c : Char) : Bool :=
  let n := c.toNat
  (0x09 ≤ n && n ≤ 0x0D) || n == 0x20 || n == 0x85 || n == 0xA0 || n == 0x1680
    || (0x2000 ≤ n && n ≤ 0x200A) || n == 0x2028 || n == 0x2029 || n == 0x202F || n == 0x205F
    || n == 0x3000

theorem isBlank_of_isWhitespace {c : Char} (h : c.isWhitespace = true) : isBlank c = true := by
  simp only [Char.isWhitespace, Bool.or_eq_true, decide_eq_true_eq] at h
  rcases h with ((rfl | rfl) | rfl) | rfl <;> decide

/-! ## Trimming -/

/-- The text from its first character that is no blank. -/
def trimStart (s : List Char) : List Char :=
  s.dropWhile isBlank

/-- The text up to its last character that is no blank. -/
def trimEnd (s : List Char) : List Char :=
  (s.reverse.dropWhile isBlank).reverse

/-- The text without the blanks at both of its ends. -/
def trim (s : List Char) : List Char :=
  trimEnd (trimStart s)

/-- Whether a text holds nothing but blanks. -/
def isBlankText (s : List Char) : Bool :=
  s.all isBlank

/-- Whether a text has no blank is decided along the text, and not by a search through all characters. -/
instance (priority := high) decidableNoBlank (s : List Char) : Decidable (∀ c ∈ s, isBlank c = false) :=
  List.decidableBAll _ s

theorem trimStart_cons_of_neg {c : Char} {rest : List Char} (h : isBlank c = false) :
    trimStart (c :: rest) = c :: rest := by
  simp [trimStart, h]

theorem trimStart_cons_of_pos {c : Char} {rest : List Char} (h : isBlank c = true) :
    trimStart (c :: rest) = trimStart rest := by
  simp [trimStart, h]

theorem trimStart_eq_nil_iff {s : List Char} : trimStart s = [] ↔ isBlankText s = true := by
  induction s with
  | nil => simp [trimStart, isBlankText]
  | cons c rest ih =>
    cases h : isBlank c with
    | true => rw [trimStart_cons_of_pos h, ih]; simp [isBlankText, h]
    | false => simp [trimStart_cons_of_neg h, isBlankText, h]

/-! ## Words -/

/-- The words of a text: its longest stretches without a blank, in order. -/
def words (s : List Char) : List (List Char) :=
  (split isBlank s).filter fun piece => !piece.isEmpty

theorem ne_nil_of_mem_words {s word : List Char} (h : word ∈ words s) : word ≠ [] := by
  have := (List.mem_filter.1 h).2
  rintro rfl
  simp at this

theorem eq_false_of_mem_words {s word : List Char} (h : word ∈ words s) :
    ∀ c ∈ word, isBlank c = false :=
  eq_false_of_mem_split (List.mem_filter.1 h).1

/-- Two texts with a blank between them have the words of the one and then those of the other. -/
theorem words_append_cons (s : List Char) {c : Char} (t : List Char) (h : isBlank c = true) :
    words (s ++ c :: t) = words s ++ words t := by
  simp [words, split_append_cons s t h]

/-- A text without blanks is one word, unless it is empty. -/
theorem words_eq_singleton {s : List Char} (hne : s ≠ []) (h : ∀ c ∈ s, isBlank c = false) :
    words s = [s] := by
  simp [words, split_eq_singleton h, hne]

end CheckerTrials.Text
