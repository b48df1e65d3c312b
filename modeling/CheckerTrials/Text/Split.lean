/-!
# Cutting a text into pieces

`Text.split p s` cuts `s` at every character that satisfies `p`; the characters it cuts at belong to
no piece.  Everything else here that takes a text apart is made from it: the fields of a setup
line, the steps of a path, the words of a command line and the lines of a file.

A text is a list of characters in this part of the library, because every fact about it is proved
by going through it character by character.

* `split_append_cons`: a separator between two texts separates their pieces, so what was joined
  can be taken apart again.
* `split_eq_singleton`: a text without separators is one piece.
* `lines`: the lines of a file, whose ends are a line feed or a carriage return before one.
-/

set_option autoImplicit false

namespace CheckerTrials.Text

/-! ## Pieces between separators -/

/-- The pieces of a text between the characters that satisfy `p`, in order.  There is always at
least one piece, and a piece may be empty. -/
def split (p : Char → Bool) : List Char → List (List Char)
  | [] => [[]]
  | c :: rest =>
    if p c then [] :: split p rest
    else
      match split p rest with
      | [] => [[c]]
      | piece :: pieces => (c :: piece) :: pieces

theorem split_ne_nil (p : Char → Bool) (s : List Char) : split p s ≠ [] := by
  cases s with
  | nil => simp [split]
  | cons c rest =>
    rw [split]
    split
    · simp
    · split <;> simp

/-- A separator at the front ends an empty piece. -/
theorem split_cons_of_pos {p : Char → Bool} {c : Char} (rest : List Char) (h : p c = true) :
    split p (c :: rest) = [] :: split p rest := by
  simp [split, h]

/-- Any other character at the front belongs to the first piece. -/
theorem split_cons_of_neg {p : Char → Bool} {c : Char} {rest piece : List Char}
    {pieces : List (List Char)} (h : p c = false) (hs : split p rest = piece :: pieces) :
    split p (c :: rest) = (c :: piece) :: pieces := by
  simp [split, h, hs]

/-- A text without separators is one piece. -/
theorem split_eq_singleton {p : Char → Bool} {s : List Char} (h : ∀ c ∈ s, p c = false) :
    split p s = [s] := by
  induction s with
  | nil => rfl
  | cons c rest ih =>
    exact split_cons_of_neg (h c List.mem_cons_self) (ih fun d hd => h d (List.mem_cons_of_mem c hd))

/-- **A separator separates.**  The pieces of two texts with a separator between them are the
pieces of the one and then the pieces of the other. -/
theorem split_append_cons {p : Char → Bool} (s : List Char) {c : Char} (t : List Char)
    (h : p c = true) : split p (s ++ c :: t) = split p s ++ split p t := by
  induction s with
  | nil => simp [split, h]
  | cons d rest ih =>
    cases hd : p d with
    | true => simp [split, hd, ih]
    | false =>
      cases hs : split p rest with
      | nil => exact absurd hs (split_ne_nil p rest)
      | cons piece pieces =>
        have : split p (rest ++ c :: t) = piece :: (pieces ++ split p t) := by
          rw [ih, hs, List.cons_append]
        rw [List.cons_append, split_cons_of_neg hd this, split_cons_of_neg hd hs, List.cons_append]

/-- No piece holds a separator. -/
theorem eq_false_of_mem_split {p : Char → Bool} {s piece : List Char} (h : piece ∈ split p s) :
    ∀ c ∈ piece, p c = false := by
  induction s generalizing piece with
  | nil =>
    simp only [split, List.mem_singleton] at h
    simp [h]
  | cons d rest ih =>
    cases hd : p d with
    | true =>
      rw [split_cons_of_pos rest hd, List.mem_cons] at h
      rcases h with rfl | h
      · simp
      · exact ih h
    | false =>
      cases hs : split p rest with
      | nil => exact absurd hs (split_ne_nil p rest)
      | cons first pieces =>
        rw [split_cons_of_neg hd hs, List.mem_cons] at h
        rcases h with rfl | h
        · intro c hc
          rcases List.mem_cons.1 hc with rfl | hc
          · exact hd
          · exact ih (hs ▸ List.mem_cons_self) c hc
        · exact ih (hs ▸ List.mem_cons_of_mem first h)

/-- The pieces between the places where the character `c` stands. -/
def splitOn (c : Char) (s : List Char) : List (List Char) :=
  split (· == c) s

/-! ## Lines -/

/-- A line without the carriage return at its end, if it has one. -/
def dropReturn (line : List Char) : List Char :=
  if line.getLast? = some '\r' then line.dropLast else line

/-- The lines among the pieces between line feeds: only what a line feed ended loses a carriage
return, and nothing after the last line feed is no line. -/
def linesOfPieces : List (List Char) → List (List Char)
  | [] => []
  | [last] => if last.isEmpty then [] else [last]
  | line :: rest => dropReturn line :: linesOfPieces rest

/-- The lines of a text.  A line feed ends a line, together with a carriage return directly before
it; the last line needs no line feed. -/
def lines (s : List Char) : List (List Char) :=
  linesOfPieces (splitOn '\n' s)

@[simp] theorem lines_nil : lines [] = [] := rfl

/-! ## Looking for a text inside another -/

/-- Whether `needle` stands somewhere in the text. -/
def occurs (needle : List Char) : List Char → Bool
  | [] => needle.isEmpty
  | c :: rest => needle.isPrefixOf (c :: rest) || occurs needle rest

/-- The text with every character `old` replaced by `new`. -/
def replace (old new : Char) (s : List Char) : List Char :=
  s.map fun c => if c = old then new else c

end CheckerTrials.Text
