import CheckerTrials.Proofs.Decimal.Digits
import CheckerTrials.Proofs.Success
import CheckerTrials.Proofs.Text.Words
import CheckerTrials.Trial.TextResult

/-!
# Lines of numbers, word by word

`Series.read` reads a line of numbers from the left: the longest stretch of number characters, the blanks after
it, and so on.  `Series.values?` says the same about the words of the line: every word has to consist of number
characters and to be the text of a number.  The two agree on every line (`read_eq_ok_iff`), because a stretch of
number characters that stops inside a word leaves something that no number begins with.
-/

set_option autoImplicit false

namespace CheckerTrials
namespace Series

/-! ## Values of words -/

/-- The double that a word says, if it consists of number characters and is the text of a number. -/
def value? (word : List Char) : Option Float :=
  if word.all isNumberChar then Decimal.float? word else none

/-- The doubles that words say, if each of them says one. -/
def valuesOf? : List (List Char) → Option (List Float)
  | [] => some []
  | word :: rest => (value? word).bind fun x => (valuesOf? rest).map (x :: ·)

/-- The doubles that the words of a line say, if each of them says one. -/
def values? (line : List Char) : Option (List Float) := valuesOf? (Text.words line)

theorem valuesOf?_cons_eq_some_iff {word : List Char} {rest : List (List Char)} {ys : List Float} :
    valuesOf? (word :: rest) = some ys ↔
      ∃ x xs, value? word = some x ∧ valuesOf? rest = some xs ∧ ys = x :: xs := by
  rw [valuesOf?, Option.bind_eq_some_iff]
  refine exists_congr fun x => ?_
  rw [Option.map_eq_some_iff]
  constructor
  · rintro ⟨hx, xs, hxs, rfl⟩
    exact ⟨xs, hx, hxs, rfl⟩
  · rintro ⟨xs, hx, hxs, rfl⟩
    exact ⟨hx, xs, hxs, rfl⟩

/-- There is one value for each word. -/
theorem length_of_valuesOf? {words : List (List Char)} {xs : List Float}
    (h : valuesOf? words = some xs) : xs.length = words.length := by
  induction words generalizing xs with
  | nil => cases h; rfl
  | cons word rest ih =>
    obtain ⟨x, ys, -, hys, rfl⟩ := valuesOf?_cons_eq_some_iff.1 h
    rw [List.length_cons, List.length_cons, ih hys]

/-- Words that have values consist of number characters. -/
theorem isNumberChar_of_valuesOf? {words : List (List Char)} {xs : List Float}
    (h : valuesOf? words = some xs) {word : List Char} (hword : word ∈ words) :
    ∀ c ∈ word, isNumberChar c = true := by
  induction words generalizing xs with
  | nil => cases hword
  | cons first rest ih =>
    obtain ⟨x, ys, hx, hys, -⟩ := valuesOf?_cons_eq_some_iff.1 h
    rcases List.mem_cons.1 hword with rfl | hword
    · rw [value?, Option.ite_none_right_eq_some] at hx
      exact List.all_eq_true.1 hx.1
    · exact ih hys hword

/-- In a line whose words have values, every character is a blank or one of a number. -/
theorem isNumberChar_of_values? {line : List Char} {xs : List Float} (h : values? line = some xs)
    {c : Char} (hc : c ∈ line) (hblank : Text.isBlank c = false) : isNumberChar c = true := by
  obtain ⟨word, hword, hmem⟩ := Text.exists_mem_words hc hblank
  exact isNumberChar_of_valuesOf? h hword c hmem

/-! ## Numbers at the front -/

theorem isBlank_of_isNumberChar {c : Char} (h : isNumberChar c = true) : Text.isBlank c = false := by
  simp only [isNumberChar, Bool.or_eq_true, beq_iff_eq] at h
  rcases h with ((((h | rfl) | rfl) | rfl) | rfl) | rfl
  · exact Decimal.isBlank_of_isDigit h
  all_goals decide

theorem isNumberChar_of_mem_front {s : List Char} {c : Char} (h : c ∈ front s) :
    isNumberChar c = true :=
  List.all_eq_true.1 List.all_takeWhile c h

theorem value?_front (s : List Char) : value? (front s) = Decimal.float? (front s) :=
  if_pos List.all_takeWhile

theorem readFloat_eq_ok_iff {number : List Char} {x : Float} :
    readFloat number = .ok x ↔ Decimal.float? number = some x := by
  rw [readFloat]
  cases Decimal.float? number <;> simp

/-- If a number stops at a blank or at the end, it is the first word. -/
theorem values?_of_front {s : List Char} (hne : front s ≠ [])
    (hrest : ∀ c ∈ (s.dropWhile isNumberChar).head?, Text.isBlank c = true) :
    values? s = (Decimal.float? (front s)).bind fun x => (values? (afterFront s)).map (x :: ·) := by
  have hwords : Text.words s = front s :: Text.words (afterFront s) := by
    have hsplit : s = front s ++ s.dropWhile isNumberChar := List.takeWhile_append_dropWhile.symm
    rw [afterFront, Text.words_trimStart]
    conv => lhs; rw [hsplit]
    exact Text.words_append hne (fun c hc => isBlank_of_isNumberChar (isNumberChar_of_mem_front hc)) hrest
  rw [values?, hwords, valuesOf?, value?_front, values?]

/-! ## The whole line -/

/-- No number can be read where none begins. -/
theorem readFrom_of_not_isNumberChar {c : Char} (rest : List Char) (h : isNumberChar c = false) :
    readFrom (c :: rest) = .error (.expected (String.ofList (c :: rest))) := by
  rw [readFrom, if_neg (by simp), dif_pos (by simp [front, h])]

/-- What is read from a text that begins with a number. -/
theorem readFrom_eq_ok_of_front {s : List Char} (hne : front s ≠ []) {xs : List Float} :
    readFrom s = .ok xs ↔ ∃ x ys, Decimal.float? (front s) = some x ∧
      readFrom (afterFront s) = .ok ys ∧ xs = x :: ys := by
  have hs : s ≠ [] := by
    rintro rfl
    exact hne rfl
  rw [readFrom, if_neg (by simpa using hs), dif_neg (by simpa using hne)]
  cases hfloat : readFloat (front s) with
  | error e =>
    refine iff_of_false nofun ?_
    rintro ⟨x, ys, hx, -⟩
    rw [readFloat_eq_ok_iff.2 hx] at hfloat
    cases hfloat
  | ok x =>
    rw [readFloat_eq_ok_iff] at hfloat
    cases hrest : readFrom (afterFront s) with
    | error e => simp
    | ok ys => simp [hfloat, eq_comm]

/-- **From the left and word by word** the same is read. -/
theorem readFrom_eq_ok_iff {s : List Char} (hs : ∀ c ∈ s.head?, Text.isBlank c = false)
    {xs : List Float} : readFrom s = .ok xs ↔ values? s = some xs := by
  induction hn : s.length using Nat.strongRecOn generalizing s xs with
  | ind n ih =>
    by_cases hne : front s = []
    · cases s with
      | nil => simp [readFrom, values?, Text.words, Text.split, valuesOf?]
      | cons c rest =>
        have hnumber : isNumberChar c = false := by simpa [front, List.takeWhile_cons] using hne
        rw [readFrom_of_not_isNumberChar rest hnumber]
        refine iff_of_false (fun hread => ?_) fun hvalues => ?_
        · cases hread
        · rw [isNumberChar_of_values? hvalues List.mem_cons_self (hs c rfl)] at hnumber
          cases hnumber
    · have hless : (afterFront s).length < n := hn ▸ length_afterFront_lt (by simpa using hne)
      rw [readFrom_eq_ok_of_front hne]
      by_cases hrest : ∀ c ∈ (s.dropWhile isNumberChar).head?, Text.isBlank c = true
      · have hafter : ∀ ys, readFrom (afterFront s) = .ok ys ↔ values? (afterFront s) = some ys :=
          fun ys => ih _ hless (fun c => Text.isBlank_of_mem_head?_trimStart) rfl
        rw [values?_of_front hne hrest, Option.bind_eq_some_iff]
        refine exists_congr fun x => ?_
        rw [Option.map_eq_some_iff]
        constructor
        · rintro ⟨ys, hx, hys, rfl⟩
          exact ⟨hx, ys, (hafter ys).1 hys, rfl⟩
        · rintro ⟨hx, ys, hys, rfl⟩
          exact ⟨ys, hx, (hafter ys).2 hys, rfl⟩
      · -- the number is only part of a word: what follows it is no blank and begins no number
        obtain ⟨c, rest, hdrop, hc⟩ : ∃ c rest, s.dropWhile isNumberChar = c :: rest ∧
            Text.isBlank c = false := by
          cases hdrop : s.dropWhile isNumberChar with
          | nil => simp [hdrop] at hrest
          | cons c rest => exact ⟨c, rest, rfl, by simpa [hdrop] using hrest⟩
        have hnumber : isNumberChar c = false := by
          have hhead := List.head?_dropWhile_not isNumberChar s
          rwa [hdrop] at hhead
        have hmem : c ∈ s := (List.dropWhile_suffix _).subset (hdrop ▸ List.mem_cons_self)
        refine iff_of_false ?_ fun hvalues => ?_
        · rintro ⟨x, ys, -, hys, -⟩
          rw [afterFront, hdrop, Text.trimStart_cons_of_neg hc,
            readFrom_of_not_isNumberChar rest hnumber] at hys
          cases hys
        · rw [isNumberChar_of_values? hvalues hmem hc] at hnumber
          cases hnumber

/-- **A line of numbers is read exactly**: every word of it has to be a number, and the values are theirs. -/
theorem read_eq_ok_iff {line : List Char} {xs : List Float} :
    read line = .ok xs ↔ values? line = some xs := by
  rw [read, readFrom_eq_ok_iff fun c => Text.isBlank_of_mem_head?_trimStart, values?,
    Text.words_trimStart, values?]

end Series
end CheckerTrials
