import CheckerTrials.Text.Blank

/-!
# Words between blanks

Command lines and lines of numbers are made of words.  Their readers go through a text from the left, and these
lemmas say what that does to its words: blanks at the ends add no word (`words_trim`), a word that a blank
follows is the first one (`words_append`), every other character is in some word (`exists_mem_words`), and texts
without blanks that were joined with spaces can be taken apart again (`words_intercalate`), and so can texts that were
joined with another separator or written line by line (`splitOn_intercalate`, `splitOn_lines`).  A single text comes
out as it is from the blanks around it (`trim_padded`), and so do pieces that a separator ends, whether or not the text
was trimmed before it was cut (`map_trim_splitOn_trim`).
-/

set_option autoImplicit false

namespace CheckerTrials.Text

/-! ## The longest stretch at the front -/

/-- A stretch of characters ends at the first one of another kind. -/
theorem takeWhile_append_of_stop {p : Char → Bool} {s t : List Char} (hs : ∀ c ∈ s, p c = true)
    (ht : ∀ c ∈ t.head?, p c = false) : (s ++ t).takeWhile p = s := by
  rw [List.takeWhile_append_of_pos hs]
  cases t with
  | nil => rw [List.takeWhile_nil, List.append_nil]
  | cons c rest =>
    have hc : ¬ p c = true := by simp [ht c rfl]
    rw [List.takeWhile_cons_of_neg hc, List.append_nil]

theorem dropWhile_append_of_stop {p : Char → Bool} {s t : List Char} (hs : ∀ c ∈ s, p c = true)
    (ht : ∀ c ∈ t.head?, p c = false) : (s ++ t).dropWhile p = t := by
  rw [List.dropWhile_append_of_pos hs]
  cases t with
  | nil => rfl
  | cons c rest =>
    have hc : ¬ p c = true := by simp [ht c rfl]
    rw [List.dropWhile_cons_of_neg hc]

/-! ## Blanks at the ends -/

theorem words_cons_of_pos {c : Char} (rest : List Char) (h : isBlank c = true) :
    words (c :: rest) = words rest :=
  words_append_cons [] rest h

/-- There are no words among blanks. -/
theorem words_append_of_blank (s : List Char) {t : List Char} (ht : ∀ c ∈ t, isBlank c = true) :
    words (s ++ t) = words s := by
  induction t generalizing s with
  | nil => rw [List.append_nil]
  | cons c rest ih =>
    have hrest := ih [] fun b hb => ht b (List.mem_cons_of_mem c hb)
    rw [words_append_cons s rest (ht c List.mem_cons_self)]
    rw [List.nil_append] at hrest
    rw [hrest]
    exact List.append_nil _

theorem words_trimStart (s : List Char) : words (trimStart s) = words s := by
  induction s with
  | nil => rfl
  | cons c rest ih =>
    cases h : isBlank c with
    | true => rw [trimStart_cons_of_pos h, words_cons_of_pos rest h, ih]
    | false => rw [trimStart_cons_of_neg h]

/-- What is trimmed at the end are blanks. -/
theorem exists_eq_trimEnd_append (s : List Char) :
    ∃ t, s = trimEnd s ++ t ∧ ∀ c ∈ t, isBlank c = true := by
  refine ⟨(s.reverse.takeWhile isBlank).reverse, ?_, fun c hc => ?_⟩
  · rw [trimEnd, ← List.reverse_append, List.takeWhile_append_dropWhile, List.reverse_reverse]
  · exact List.all_eq_true.1 List.all_takeWhile c (List.mem_reverse.1 hc)

/-- Blanks behind a text are trimmed, and nothing else is if it does not end with one itself. -/
theorem trimEnd_append_of_stop {s t : List Char} (hs : ∀ c ∈ s.getLast?, isBlank c = false)
    (ht : ∀ c ∈ t, isBlank c = true) : trimEnd (s ++ t) = s := by
  rw [trimEnd, List.reverse_append, dropWhile_append_of_stop (by simpa using ht) (by simpa using hs),
    List.reverse_reverse]

/-- A text without blanks is what stays of it when blanks at its end are trimmed. -/
theorem trimEnd_append_of_blank {s t : List Char} (hs : ∀ c ∈ s, isBlank c = false)
    (ht : ∀ c ∈ t, isBlank c = true) : trimEnd (s ++ t) = s :=
  trimEnd_append_of_stop (fun c hc => hs c (List.mem_of_mem_getLast? hc)) ht

/-- **Blanks around a text** are what is trimmed of it, if it has none at its ends itself. -/
theorem trim_padded {before s after : List Char} (hs : s ≠ []) (hbefore : ∀ c ∈ before, isBlank c = true)
    (hafter : ∀ c ∈ after, isBlank c = true) (hhead : ∀ c ∈ s.head?, isBlank c = false)
    (hlast : ∀ c ∈ s.getLast?, isBlank c = false) : trim (before ++ s ++ after) = s := by
  have hstart : trimStart (before ++ s ++ after) = s ++ after := by
    rw [trimStart, List.append_assoc]
    refine dropWhile_append_of_stop hbefore fun c hc => hhead c ?_
    rwa [List.head?_append, Option.or_of_isSome (List.isSome_head?.2 hs)] at hc
  rw [trim, hstart, trimEnd_append_of_stop hlast hafter]

theorem words_trimEnd (s : List Char) : words (trimEnd s) = words s := by
  obtain ⟨t, hsplit, hblank⟩ := exists_eq_trimEnd_append s
  conv => rhs; rw [hsplit]
  exact (words_append_of_blank _ hblank).symm

/-- Trimming a text loses no word. -/
theorem words_trim (s : List Char) : words (trim s) = words s := by
  rw [trim, words_trimEnd, words_trimStart]

/-- A trimmed text does not begin with a blank. -/
theorem isBlank_of_mem_head?_trimStart {s : List Char} {c : Char} (h : c ∈ (trimStart s).head?) :
    isBlank c = false := by
  have hhead := List.head?_dropWhile_not isBlank s
  rw [trimStart, Option.mem_def] at h
  rwa [h] at hhead

/-! ## Words from the left -/

/-- A stretch without blanks is the first word if a blank follows it or nothing does. -/
theorem words_append {w rest : List Char} (hne : w ≠ []) (hw : ∀ c ∈ w, isBlank c = false)
    (hrest : ∀ c ∈ rest.head?, isBlank c = true) : words (w ++ rest) = w :: words rest := by
  cases rest with
  | nil => rw [List.append_nil, words_eq_singleton hne hw]; rfl
  | cons c rest =>
    have hc : isBlank c = true := hrest c rfl
    rw [words_append_cons w rest hc, words_eq_singleton hne hw, words_cons_of_pos rest hc]
    rfl

/-- The pieces of a text are made of its characters. -/
theorem mem_of_mem_split {p : Char → Bool} {s piece : List Char} (h : piece ∈ split p s) {c : Char}
    (hc : c ∈ piece) : c ∈ s := by
  induction s generalizing piece with
  | nil =>
    obtain rfl : piece = [] := List.mem_singleton.1 h
    exact hc
  | cons d rest ih =>
    cases hd : p d with
    | true =>
      rw [split_cons_of_pos rest hd, List.mem_cons] at h
      rcases h with rfl | h
      · cases hc
      · exact List.mem_cons_of_mem d (ih h hc)
    | false =>
      cases hs : split p rest with
      | nil => exact absurd hs (split_ne_nil p rest)
      | cons first pieces =>
        rw [split_cons_of_neg hd hs, List.mem_cons] at h
        rcases h with rfl | h
        · rcases List.mem_cons.1 hc with rfl | hc
          · exact List.mem_cons_self
          · exact List.mem_cons_of_mem d (ih (hs ▸ List.mem_cons_self) hc)
        · exact List.mem_cons_of_mem d (ih (hs ▸ List.mem_cons_of_mem first h) hc)

/-- No character but a blank is outside of the words. -/
theorem exists_mem_words {s : List Char} {c : Char} (hc : c ∈ s) (h : isBlank c = false) :
    ∃ w ∈ words s, c ∈ w := by
  have hpiece : ∃ piece ∈ split isBlank s, c ∈ piece := by
    induction s with
    | nil => cases hc
    | cons b rest ih =>
      cases hb : isBlank b with
      | true =>
        have hrest : c ∈ rest := (List.mem_cons.1 hc).resolve_left (by rintro rfl; simp [hb] at h)
        obtain ⟨piece, hpiece, hmem⟩ := ih hrest
        rw [split_cons_of_pos rest hb]
        exact ⟨piece, List.mem_cons_of_mem _ hpiece, hmem⟩
      | false =>
        cases hs : split isBlank rest with
        | nil => exact absurd hs (split_ne_nil _ _)
        | cons first pieces =>
          rw [split_cons_of_neg hb hs]
          rcases List.mem_cons.1 hc with rfl | hrest
          · exact ⟨c :: first, List.mem_cons_self, List.mem_cons_self⟩
          · obtain ⟨piece, hpiece, hmem⟩ := ih hrest
            rw [hs] at hpiece
            rcases List.mem_cons.1 hpiece with rfl | hpiece
            · exact ⟨b :: piece, List.mem_cons_self, List.mem_cons_of_mem b hmem⟩
            · exact ⟨piece, List.mem_cons_of_mem _ hpiece, hmem⟩
  obtain ⟨piece, hpiece, hmem⟩ := hpiece
  refine ⟨piece, List.mem_filter.2 ⟨hpiece, ?_⟩, hmem⟩
  have hne : piece ≠ [] := List.ne_nil_of_mem hmem
  simpa using hne

/-! ## Joined texts -/

/-- **Joined texts are taken apart**: if there is no blank in them, they are the words, but for the empty ones. -/
theorem words_intercalate {pieces : List (List Char)}
    (h : ∀ piece ∈ pieces, ∀ c ∈ piece, isBlank c = false) :
    words ([' '].intercalate pieces) = pieces.filter fun piece => !piece.isEmpty := by
  induction pieces with
  | nil => rfl
  | cons piece rest ih =>
    have hpiece : words piece = [piece].filter fun piece => !piece.isEmpty := by
      rw [words, split_eq_singleton (h piece List.mem_cons_self)]
    have hrest := ih fun q hq => h q (List.mem_cons_of_mem piece hq)
    cases rest with
    | nil => rw [List.intercalate_singleton, hpiece]
    | cons next more =>
      rw [List.intercalate_cons_cons, List.append_assoc, List.singleton_append,
        words_append_cons piece _ (by decide), hpiece, hrest, ← List.filter_append, List.singleton_append]

theorem splitOn_eq_singleton {c : Char} {s : List Char} (h : c ∉ s) : splitOn c s = [s] :=
  split_eq_singleton fun _ hb => beq_false_of_ne fun heq => h (heq ▸ hb)

theorem splitOn_append_cons {c : Char} {s : List Char} (h : c ∉ s) (t : List Char) :
    splitOn c (s ++ c :: t) = s :: splitOn c t := by
  have hcut := split_append_cons (p := (· == c)) s t (beq_self_eq_true c)
  rw [splitOn, hcut, ← splitOn, ← splitOn, splitOn_eq_singleton h, List.singleton_append]

/-- **A text that was joined with a separator** is cut into the pieces it was made of, if none of them holds it. -/
theorem splitOn_intercalate {c : Char} {pieces : List (List Char)} (hne : pieces ≠ [])
    (h : ∀ piece ∈ pieces, c ∉ piece) : splitOn c ([c].intercalate pieces) = pieces := by
  induction pieces with
  | nil => exact absurd rfl hne
  | cons piece rest ih =>
    have hpiece := h piece List.mem_cons_self
    cases rest with
    | nil => rw [List.intercalate_singleton, splitOn_eq_singleton hpiece]
    | cons next more =>
      rw [List.intercalate_cons_cons, List.append_assoc, List.singleton_append, splitOn_append_cons hpiece,
        ih (List.cons_ne_nil next more) fun q hq => h q (List.mem_cons_of_mem piece hq)]

theorem not_mem_intercalate {b c : Char} {pieces : List (List Char)} (hne : b ≠ c)
    (h : ∀ piece ∈ pieces, b ∉ piece) : b ∉ [c].intercalate pieces := by
  induction pieces with
  | nil => exact List.not_mem_nil
  | cons piece rest ih =>
    have hpiece := h piece List.mem_cons_self
    have hrest := ih fun q hq => h q (List.mem_cons_of_mem piece hq)
    cases rest with
    | nil => rwa [List.intercalate_singleton]
    | cons next more =>
      rw [List.intercalate_cons_cons]
      simp [hne, hpiece, hrest]

/-- **Lines that were written** each with a line feed behind it are cut out again; nothing is behind the last one. -/
theorem splitOn_lines {lines : List (List Char)} (h : ∀ line ∈ lines, '\n' ∉ line) :
    splitOn '\n' (lines.flatMap fun line => line ++ ['\n']) = lines ++ [[]] := by
  induction lines with
  | nil => rfl
  | cons line rest ih =>
    rw [List.flatMap_cons, List.append_assoc, List.singleton_append, splitOn_append_cons (h line List.mem_cons_self),
      ih fun q hq => h q (List.mem_cons_of_mem line hq), List.cons_append]

/-! ## Trimmed pieces -/

/-- Blanks at the end of a text are trimmed as those of what follows its first character, unless nothing but blanks
follows. -/
theorem trimEnd_cons (c : Char) (rest : List Char) :
    trimEnd (c :: rest) = if trimEnd rest = [] then trimEnd [c] else c :: trimEnd rest := by
  rw [trimEnd, List.reverse_cons, List.dropWhile_append]
  by_cases h : List.dropWhile isBlank rest.reverse = []
  · simp [trimEnd, h]
  · simp [trimEnd, h]

/-- It does not matter which end of a text is trimmed first. -/
theorem trim_eq (s : List Char) : trim s = trimStart (trimEnd s) := by
  rw [trim]
  induction s with
  | nil => rfl
  | cons c rest ih =>
    cases hc : isBlank c with
    | true =>
      have hsingle : trimEnd [c] = [] := by simp [trimEnd, hc]
      rw [trimStart_cons_of_pos hc, ih, trimEnd_cons, hsingle]
      split
      · rename_i hrest
        rw [hrest]
      · rw [trimStart_cons_of_pos hc]
    | false =>
      have hsingle : trimEnd [c] = [c] := by simp [trimEnd, hc]
      rw [trimStart_cons_of_neg hc, trimEnd_cons, hsingle]
      split
      · rw [trimStart_cons_of_neg hc]
      · rw [trimStart_cons_of_neg hc]

/-- Blanks behind a text belong to its last piece. -/
theorem map_trimEnd_splitOn_append {c : Char} (hc : isBlank c = false) (s : List Char) {after : List Char}
    (hafter : ∀ b ∈ after, isBlank b = true) :
    (splitOn c (s ++ after)).map trimEnd = (splitOn c s).map trimEnd := by
  induction s with
  | nil =>
    have hnot : c ∉ after := fun h => by simp [hafter c h] at hc
    have hnil : trimEnd after = [] := trimEnd_append_of_blank (s := []) nofun hafter
    rw [List.nil_append, splitOn_eq_singleton hnot, List.map_singleton, hnil]
    rfl
  | cons b rest ih =>
    rw [splitOn, splitOn] at ih ⊢
    cases hb : b == c with
    | true =>
      rw [List.cons_append, split_cons_of_pos (p := (· == c)) _ hb, split_cons_of_pos (p := (· == c)) _ hb,
        List.map_cons, ih, List.map_cons]
    | false =>
      obtain ⟨first, pieces, hs⟩ := List.exists_cons_of_ne_nil (split_ne_nil (· == c) rest)
      obtain ⟨first', pieces', hs'⟩ := List.exists_cons_of_ne_nil (split_ne_nil (· == c) (rest ++ after))
      rw [hs, hs', List.map_cons, List.map_cons, List.cons.injEq] at ih
      rw [List.cons_append, split_cons_of_neg (p := (· == c)) hb hs, split_cons_of_neg (p := (· == c)) hb hs',
        List.map_cons, List.map_cons, ih.2, trimEnd_cons, ih.1, ← trimEnd_cons]

/-- Blanks in front of a text belong to its first piece. -/
theorem map_trim_splitOn_trimStart {c : Char} (hc : isBlank c = false) (s : List Char) :
    (splitOn c (trimStart s)).map trim = (splitOn c s).map trim := by
  induction s with
  | nil => rfl
  | cons b rest ih =>
    cases hb : isBlank b with
    | false => rw [trimStart_cons_of_neg hb]
    | true =>
      have hne : (b == c) = false := beq_false_of_ne fun heq => by simp [heq, hc] at hb
      rw [trimStart_cons_of_pos hb, ih, splitOn, splitOn]
      obtain ⟨first, pieces, hs⟩ := List.exists_cons_of_ne_nil (split_ne_nil (· == c) rest)
      rw [split_cons_of_neg (p := (· == c)) hne hs, hs, List.map_cons, List.map_cons, trim, trim,
        trimStart_cons_of_pos hb]

/-- **Trimmed pieces** are the same whether or not the whole text was trimmed first. -/
theorem map_trim_splitOn_trim {c : Char} (hc : isBlank c = false) (s : List Char) :
    (splitOn c (trim s)).map trim = (splitOn c s).map trim := by
  obtain ⟨after, hsplit, hafter⟩ := exists_eq_trimEnd_append (trimStart s)
  have htrim : trim = trimStart ∘ trimEnd := funext trim_eq
  rw [← map_trim_splitOn_trimStart hc s, trim, htrim, ← List.map_map, ← List.map_map]
  conv => rhs; rw [hsplit, map_trimEnd_splitOn_append hc _ hafter]

end CheckerTrials.Text
