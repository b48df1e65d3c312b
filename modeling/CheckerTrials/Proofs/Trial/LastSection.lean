import CheckerTrials.Proofs.Trial.Sections

/-!
# The last section of a text result

The series are read to the end of their lines, but the last section is read up to the first number in it and no
further.  So a result is read whatever follows that number, be it glued to it or a word of its own
(`reads_first_number`), and the whole line is what has been read only if nothing but blanks follows.  A line such
as `7 x` is read as 7, although in a series the word `x` would be a fault (`not_whole_last_section`).
-/

set_option autoImplicit false

namespace CheckerTrials
namespace TextResult

/-! ## The number at the front -/

/-- What a number says in the last section: explored states or missing probability. -/
def lastValue : Trailing → List Char → Except NumberError (Option Nat × Option Float)
  | .states, number => (Series.readCount number).map fun n => (some n, none)
  | .missing, number => (Series.readFloat number).map fun x => (none, some x)

/-- The last section is a single number, and that is what a trial has of it. -/
def WholeLastSection (line : List Char) (mode : Trailing) (t : Trial Float) : Prop :=
  (∀ c ∈ Text.trim line, Series.isNumberChar c = true) ∧
    lastValue mode (Text.trim line) = .ok (t.states, t.missing)

theorem readFront_eq_ok_iff {α : Type} {read : List Char → Except NumberError α} {s : List Char} {a : α} :
    Series.readFront read s = .ok a ↔ Series.front s ≠ [] ∧ read (Series.front s) = .ok a := by
  rw [Series.readFront]
  split
  · rename_i h
    simp_all
  · rename_i h
    simp_all

/-- **The last section is read** up to the end of the number that it begins with. -/
theorem trailingValue_eq_ok_iff {mode : Trailing} {line : List Char} {v : Option Nat × Option Float} :
    trailingValue mode (some line) = .ok v ↔
      Series.front (Text.trimStart line) ≠ [] ∧
        lastValue mode (Series.front (Text.trimStart line)) = .ok v := by
  cases mode with
  | states =>
    rw [trailingValue, mapError_eq_ok_iff, map_eq_ok_iff, lastValue, map_eq_ok_iff]
    simp only [readFront_eq_ok_iff, and_assoc, exists_and_left]
  | missing =>
    rw [trailingValue, mapError_eq_ok_iff, map_eq_ok_iff, lastValue, map_eq_ok_iff]
    simp only [readFront_eq_ok_iff, and_assoc, exists_and_left]

/-! ## What follows the number -/

/-- If nothing but blanks follows the number that a line begins with, trimming leaves that number. -/
theorem trim_eq_front {line : List Char}
    (h : Text.isBlankText ((Text.trimStart line).dropWhile Series.isNumberChar) = true) :
    Text.trim line = Series.front (Text.trimStart line) := by
  have hsplit : Text.trimStart line = Series.front (Text.trimStart line) ++
      (Text.trimStart line).dropWhile Series.isNumberChar := List.takeWhile_append_dropWhile.symm
  rw [Text.trim]
  conv => lhs; rw [hsplit]
  exact Text.trimEnd_append_of_blank
    (fun c hc => Series.isBlank_of_isNumberChar (Series.isNumberChar_of_mem_front hc))
    (List.all_eq_true.1 h)

/-- A line whose trimmed text consists of number characters has nothing but blanks after them. -/
theorem isBlankText_of_trim {line : List Char}
    (h : ∀ c ∈ Text.trim line, Series.isNumberChar c = true) :
    Text.isBlankText ((Text.trimStart line).dropWhile Series.isNumberChar) = true := by
  obtain ⟨t, hsplit, hblank⟩ := Text.exists_eq_trimEnd_append (Text.trimStart line)
  rw [Text.trim] at h
  rw [hsplit, List.dropWhile_append_of_pos h, Text.isBlankText, List.all_eq_true]
  exact fun c hc => hblank c ((List.dropWhile_suffix _).subset hc)

/-! ## The whole text -/

/-- What is read from a text with a last section, and when that is the whole section. -/
structure ReadsFirstNumber (text : String) (line : List Char) (mode : Trailing) (iteration : Nat) :
    Prop where
  /-- The text is read if its required sections say something and its last line begins with a number of the
  right kind; that number is what is read from it. -/
  accepted : ∀ t, (parse text mode iteration).value = .ok t ↔
    ∃ i times lower upper states missing, Accepted (Text.lines text.toList) i times lower upper ∧
      Series.front (Text.trimStart line) ≠ [] ∧
      lastValue mode (Series.front (Text.trimStart line)) = .ok (states, missing) ∧
      t = { trialOf i times lower upper iteration with states, missing }
  /-- The section is a single number if nothing but blanks follows, and only then. -/
  whole : ∀ t, (parse text mode iteration).value = .ok t →
    (WholeLastSection line mode t ↔
      Text.isBlankText ((Text.trimStart line).dropWhile Series.isNumberChar) = true)

/-- **The last section is read up to its first number.** -/
theorem reads_first_number {text : String} {line : List Char}
    (hline : Section.trailing.line? (Text.lines text.toList) = some line) (mode : Trailing)
    (iteration : Nat) : ReadsFirstNumber text line mode iteration := by
  have haccepted : ∀ t, (parse text mode iteration).value = .ok t ↔
      ∃ i times lower upper states missing, Accepted (Text.lines text.toList) i times lower upper ∧
        Series.front (Text.trimStart line) ≠ [] ∧
        lastValue mode (Series.front (Text.trimStart line)) = .ok (states, missing) ∧
        t = { trialOf i times lower upper iteration with states, missing } := by
    intro t
    rw [value_parse_eq_ok_iff, hline]
    simp only [trailingValue_eq_ok_iff, and_assoc]
  refine ⟨haccepted, fun t ht => ⟨fun hwhole => isBlankText_of_trim hwhole.1, fun hblank => ?_⟩⟩
  obtain ⟨i, times, lower, upper, states, missing, -, -, hvalue, rfl⟩ := (haccepted t).1 ht
  rw [WholeLastSection, trim_eq_front hblank]
  exact ⟨fun c hc => Series.isNumberChar_of_mem_front hc, hvalue⟩

/-! ## A number and more -/

/-- A text whose last line goes on after the number. -/
def strayText : String := "-m toy.prism\n0 1000\n0 0.5\n1 0.75\n7 x\n"

theorem line?_strayText :
    Section.trailing.line? (Text.lines strayText.toList) = some "7 x".toList := by decide

theorem exists_accepted_strayText :
    ∃ i times lower upper, Accepted (Text.lines strayText.toList) i times lower upper := by
  have hcommand : Section.invocation.line? (Text.lines strayText.toList) =
      some "-m toy.prism".toList := by decide
  exact exists_accepted hcommand (by decide) (by decide) (by decide)

/-- Seven states are read from it. -/
theorem reads_first_number_strayText :
    Section.trailing.line? (Text.lines strayText.toList) = some "7 x".toList ∧
    ∃ t, (parse strayText .states 0).value = .ok t ∧ t.states = some 7 := by
  obtain ⟨i, times, lower, upper, hsections⟩ := exists_accepted_strayText
  have hread := ((reads_first_number line?_strayText .states 0).accepted _).2
    ⟨i, times, lower, upper, some 7, none, hsections, by decide, rfl, rfl⟩
  exact ⟨line?_strayText, _, hread, rfl⟩

/-- **The last section need not be a single number**: what follows the number is ignored. -/
theorem not_whole_last_section :
    Section.trailing.line? (Text.lines strayText.toList) = some "7 x".toList ∧
    ∃ t, (parse strayText .states 0).value = .ok t ∧ ¬ WholeLastSection "7 x".toList .states t := by
  obtain ⟨i, times, lower, upper, hsections⟩ := exists_accepted_strayText
  have htrailing : trailingValue .states (Section.trailing.line? (Text.lines strayText.toList)) =
      .ok (some 7, none) := by
    rw [line?_strayText]
    exact trailingValue_eq_ok_iff.2 ⟨by decide, rfl⟩
  refine ⟨line?_strayText, _, value_parse_eq_ok_iff.2
    ⟨i, times, lower, upper, some 7, none, hsections, htrailing, rfl⟩, fun hwhole => ?_⟩
  have hx : Series.isNumberChar 'x' = true := hwhole.1 'x' (by decide)
  exact absurd hx (by decide)

end TextResult
end CheckerTrials
