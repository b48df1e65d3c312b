import CheckerTrials.Plan.Launcher
import Mathlib.Algebra.Ring.Parity

/-!
# Taking joined arguments apart

Arguments that are joined into one value can be told from it again, though a space may stand between two of them as
well as inside of one.  What tells the spaces apart are the quotes in front of them: behind an odd number of quotes one
is open.  A text can be cut in one way only such that all the spaces where it is cut stand outside of quotes and all
others inside (`IsCutting.unique`), and `split` cuts there (`IsCutting.split_eq`).

Joined arguments are cut into the arguments as they stand among joined ones (`isCutting_join`), as long as there are
no quotes in them but those that `quoted` puts around them.  So the option that a launcher passes them in says which
they are (`Launcher.TakesApart`).
-/

set_option autoImplicit false

namespace CheckerTrials

namespace Joined

/-! ## Cutting at the spaces outside of quotes -/

/-- A quote is open behind a text. -/
def IsOpen (s : List Char) : Prop := Odd (s.count '"')

/-- A text that is not cut: every space in it stands in quotes. -/
def IsPiece (s : List Char) : Prop := ∀ front back, s = front ++ ' ' :: back → IsOpen front

/-- **A text is cut into pieces** at the spaces outside of quotes.  No quote is open where it is cut, so that the quotes
in front of a space are counted from the beginning of its piece. -/
inductive IsCutting : List Char → List (List Char) → Prop
  /-- There is no such space. -/
  | piece {s : List Char} (hs : IsPiece s) : IsCutting s [s]
  /-- The first of them ends the first piece. -/
  | cut {s rest : List Char} {pieces : List (List Char)} (hs : IsPiece s) (hclosed : ¬ IsOpen s)
      (hrest : IsCutting rest pieces) : IsCutting (s ++ ' ' :: rest) (s :: pieces)

variable {s rest text argument : List Char} {pieces others arguments : List (List Char)}

/-- No piece goes on behind a space outside of quotes. -/
theorem IsPiece.isOpen (h : IsPiece (s ++ ' ' :: rest)) : IsOpen s := h s rest rfl

/-- Two first pieces of a text are the same. -/
theorem eq_of_append_space {t more : List Char} (hs : IsPiece s) (hs' : ¬ IsOpen s) (ht : IsPiece t)
    (ht' : ¬ IsOpen t) (h : s ++ ' ' :: rest = t ++ ' ' :: more) : s = t ∧ rest = more := by
  rcases List.append_eq_append_iff.1 h with ⟨middle, rfl, hmiddle⟩ | ⟨middle, rfl, hmiddle⟩
  · cases middle with
    | nil => exact ⟨(List.append_nil s).symm, (List.cons.inj hmiddle).2⟩
    | cons c middle =>
      obtain ⟨rfl, -⟩ := List.cons.inj hmiddle
      exact absurd ht.isOpen hs'
  · cases middle with
    | nil => exact ⟨List.append_nil t, (List.cons.inj hmiddle).2.symm⟩
    | cons c middle =>
      obtain ⟨rfl, -⟩ := List.cons.inj hmiddle
      exact absurd hs.isOpen ht'

/-- **There is one way** to cut a text. -/
theorem IsCutting.unique (h : IsCutting text pieces) (hothers : IsCutting text others) : pieces = others := by
  induction h generalizing others with
  | piece hs =>
    cases hothers with
    | piece _ => rfl
    | cut _ hclosed _ => exact absurd hs.isOpen hclosed
  | @cut s rest pieces hs hclosed hrest ih =>
    generalize htext : s ++ ' ' :: rest = text at hothers
    cases hothers with
    | piece hs' => exact absurd (htext ▸ hs' : IsPiece (s ++ ' ' :: rest)).isOpen hclosed
    | cut hs' hclosed' hothers =>
      obtain ⟨rfl, rfl⟩ := eq_of_append_space hs hclosed hs' hclosed' htext
      rw [ih hothers]

/-! ## What is cut character by character -/

/-- A text without its quotes. -/
def withoutQuotes (s : List Char) : List Char := s.filter (· != '"')

theorem pieces_ne_nil (inQuotes : Bool) (s : List Char) : Joined.pieces inQuotes s ≠ [] := by
  induction s generalizing inQuotes with
  | nil => simp [Joined.pieces]
  | cons c rest ih =>
    rw [Joined.pieces]
    split
    · exact ih _
    · split
      · simp
      · split <;> simp

/-- A character that is neither a quote nor a space to cut at belongs to the first piece. -/
theorem pieces_cons {inQuotes : Bool} {c : Char} (rest : List Char) (hquote : c ≠ '"')
    (hspace : c = ' ' → inQuotes = true) :
    Joined.pieces inQuotes (c :: rest) = (Joined.pieces inQuotes rest).modifyHead (c :: ·) := by
  have hcut : ¬ (c = ' ' && !inQuotes) = true := by
    simpa using hspace
  rw [Joined.pieces, if_neg hquote, if_neg hcut]
  cases hpieces : Joined.pieces inQuotes rest with
  | nil => exact absurd hpieces (pieces_ne_nil inQuotes rest)
  | cons piece more => rfl

/-- Whether a quote is open behind a text, if it is known whether one is open in front of it. -/
def openBehind (inQuotes : Bool) : List Char → Bool
  | [] => inQuotes
  | c :: rest => openBehind (if c = '"' then !inQuotes else inQuotes) rest

theorem openBehind_eq_true_iff {inQuotes : Bool} {s : List Char} :
    openBehind inQuotes s = true ↔ (inQuotes = true ↔ ¬ IsOpen s) := by
  induction s generalizing inQuotes with
  | nil => simp [openBehind, IsOpen]
  | cons c rest ih =>
    rw [openBehind, ih]
    by_cases hc : c = '"'
    · subst hc
      cases inQuotes <;> simp [IsOpen, Nat.odd_add_one]
    · have hcount : (c :: rest).count '"' = rest.count '"' := List.count_cons_of_ne hc
      rw [if_neg hc, IsOpen, IsOpen, hcount]

/-- **Going through a text** in which all spaces stand in quotes cuts nothing and drops its quotes. -/
theorem pieces_append {inQuotes : Bool} {s : List Char}
    (h : ∀ front back, s = front ++ ' ' :: back → openBehind inQuotes front = true) (rest : List Char) :
    Joined.pieces inQuotes (s ++ rest) =
      (Joined.pieces (openBehind inQuotes s) rest).modifyHead (withoutQuotes s ++ ·) := by
  induction s generalizing inQuotes with
  | nil =>
    have hself : (withoutQuotes [] ++ · : List Char → List Char) = id := rfl
    rw [hself, List.modifyHead_id, openBehind]
    rfl
  | cons c s ih =>
    -- behind the first character a quote is open or not as `openBehind` goes on, in the hypothesis and in the result
    have hrest := ih fun front back hs => h (c :: front) back (by rw [hs, List.cons_append])
    by_cases hc : c = '"'
    · subst hc
      rw [if_pos rfl] at hrest
      rw [List.cons_append, Joined.pieces, if_pos rfl, hrest, openBehind, if_pos rfl]
      rfl
    · have hspace : c = ' ' → inQuotes = true := by
        rintro rfl
        exact h [] s rfl
      rw [if_neg hc] at hrest
      rw [List.cons_append, pieces_cons _ hc hspace, hrest, List.modifyHead_modifyHead, openBehind, if_neg hc]
      simp [withoutQuotes, hc, Function.comp_def]

theorem IsPiece.openBehind (hs : IsPiece s) (front back : List Char) (h : s = front ++ ' ' :: back) :
    openBehind false front = true :=
  openBehind_eq_true_iff.2 (by simpa using hs front back h)

/-- **Pieces are cut at the spaces outside of quotes**, and no quote of theirs is left. -/
theorem IsCutting.pieces_eq (h : IsCutting text pieces) : Joined.pieces false text = pieces.map withoutQuotes := by
  induction h with
  | @piece s hs =>
    have hcut := pieces_append hs.openBehind []
    rw [List.append_nil] at hcut
    rw [hcut]
    simp [Joined.pieces]
  | @cut s rest pieces hs hclosed hrest ih =>
    have hbehind : openBehind false s = false := by
      rw [← Bool.not_eq_true, openBehind_eq_true_iff]
      simpa using hclosed
    rw [pieces_append hs.openBehind, hbehind, Joined.pieces, if_neg (by decide), if_pos (by decide), ih]
    simp

theorem IsCutting.split_eq (h : IsCutting text pieces) (htext : text ≠ []) :
    Joined.split text = pieces.map withoutQuotes := by
  rw [Joined.split, if_neg (by simpa using htext), h.pieces_eq]

/-! ## Joined arguments -/

/-- A piece without the quotes that enclose it, if there are any. -/
def unquoted (piece : List Char) : List Char :=
  if piece.head? = some '"' ∧ piece.tail.getLast? = some '"' then piece.tail.dropLast else piece

theorem quoted_eq_or (argument : List Char) :
    quoted argument = '"' :: (argument ++ ['"']) ∨ quoted argument = argument ∧ argument ≠ [] ∧ ' ' ∉ argument := by
  rw [quoted]
  split
  · exact .inl (List.cons_append ..)
  · rename_i hbare
    rw [needsQuotes, Bool.or_eq_true, not_or, List.any_eq_true, List.isEmpty_iff] at hbare
    exact .inr ⟨rfl, hbare.1, fun hspace => hbare.2 ⟨' ', hspace, by decide⟩⟩

theorem unquoted_quoted (h : '"' ∉ argument) : unquoted (quoted argument) = argument := by
  rcases quoted_eq_or argument with hquoted | ⟨hquoted, -, -⟩
  · rw [hquoted, unquoted, if_pos (by simp), List.tail_cons, List.dropLast_concat]
  · rw [hquoted, unquoted, if_neg fun henclosed => h (List.mem_of_mem_head? henclosed.1)]

theorem withoutQuotes_quoted (h : '"' ∉ argument) : withoutQuotes (quoted argument) = argument := by
  have hself : withoutQuotes argument = argument :=
    List.filter_eq_self.2 fun c hc => by simpa using ne_of_mem_of_not_mem hc h
  rcases quoted_eq_or argument with hquoted | ⟨hquoted, -, -⟩
  · rw [hquoted]
    simpa [withoutQuotes] using hself
  · rw [hquoted, hself]

/-- No quote is open behind an argument. -/
theorem not_isOpen_quoted (h : '"' ∉ argument) : ¬ IsOpen (quoted argument) := by
  rcases quoted_eq_or argument with hquoted | ⟨hquoted, -, -⟩
  · rw [hquoted, IsOpen]
    simp [List.count_eq_zero_of_not_mem h, Nat.odd_iff]
  · rw [hquoted, IsOpen, List.count_eq_zero_of_not_mem h]
    decide

/-- Each space in an argument stands in the quotes around it. -/
theorem isPiece_quoted (h : '"' ∉ argument) : IsPiece (quoted argument) := by
  intro front back hsplit
  rcases quoted_eq_or argument with hquoted | ⟨hquoted, -, hspace⟩
  · rw [hquoted] at hsplit
    -- the space stands behind the first quote and in front of the last one, so that the first is the only one before it
    cases front with
    | nil => simp at hsplit
    | cons c front =>
      obtain ⟨rfl, htail⟩ := List.cons.inj hsplit
      have hfront : '"' ∉ front := by
        rcases List.append_eq_append_iff.1 htail with ⟨middle, -, hmiddle⟩ | ⟨middle, rfl, -⟩
        · cases middle <;> simp at hmiddle
        · exact fun hmem => h (List.mem_append_left _ hmem)
      rw [IsOpen, List.count_cons_self, List.count_eq_zero_of_not_mem hfront]
      decide
  · rw [hquoted] at hsplit
    exact absurd (by rw [hsplit]; simp) hspace

theorem quoted_ne_nil (argument : List Char) : quoted argument ≠ [] := by
  rcases quoted_eq_or argument with hquoted | ⟨hquoted, hne, -⟩
  · rw [hquoted]
    exact List.cons_ne_nil _ _
  · rwa [hquoted]

theorem join_singleton (a : List Char) : join [a] = quoted a := by
  rw [join, List.map_singleton, List.intercalate_singleton]

theorem join_cons_cons (a b : List Char) (more : List (List Char)) :
    join (a :: b :: more) = quoted a ++ ' ' :: join (b :: more) := by
  rw [join, List.map_cons, List.map_cons, List.intercalate_cons_cons, List.append_assoc]
  rfl

/-- Only no arguments leave nothing when they are joined. -/
theorem join_eq_nil_iff : join arguments = [] ↔ arguments = [] := by
  cases arguments with
  | nil => exact iff_of_true rfl rfl
  | cons a rest =>
    refine iff_of_false ?_ (List.cons_ne_nil a rest)
    cases rest with
    | nil =>
      rw [join_singleton]
      exact quoted_ne_nil a
    | cons b more => simp [join_cons_cons]

/-- **Joined arguments** are cut into the arguments as they stand among joined ones. -/
theorem isCutting_join (hne : arguments ≠ []) (h : ∀ a ∈ arguments, '"' ∉ a) :
    IsCutting (join arguments) (arguments.map quoted) := by
  induction arguments with
  | nil => exact absurd rfl hne
  | cons a rest ih =>
    obtain ⟨ha, hrest⟩ := List.forall_mem_cons.1 h
    cases rest with
    | nil =>
      rw [join_singleton]
      exact .piece (isPiece_quoted ha)
    | cons b more =>
      rw [join_cons_cons]
      exact .cut (isPiece_quoted ha) (not_isOpen_quoted ha) (ih (List.cons_ne_nil b more) hrest)

/-- **A text says arguments**: it is cut into them at the spaces outside of quotes, and the quotes around them go. -/
structure Says (text : List Char) (arguments : List (List Char)) : Prop where
  /-- An empty text says none. -/
  nil_iff : text = [] ↔ arguments = []
  /-- Any other text is cut in one way, and the arguments are its pieces without the quotes that enclose them. -/
  cut : text ≠ [] → ∃ pieces, IsCutting text pieces ∧ (∀ others, IsCutting text others → others = pieces) ∧
    pieces.map unquoted = arguments
  /-- Going through the text character by character gives the same. -/
  split : Joined.split text = arguments

/-- **Joining can be undone.** -/
theorem says_join (h : ∀ a ∈ arguments, '"' ∉ a) : Says (join arguments) arguments := by
  have hundone : ∀ f : List Char → List Char, (∀ a ∈ arguments, f (quoted a) = a) →
      (arguments.map quoted).map f = arguments := fun f hf => by
    rw [List.map_map]
    exact (List.map_congr_left hf).trans (List.map_id arguments)
  refine ⟨join_eq_nil_iff, fun hne => ?_, ?_⟩
  · have hcut := isCutting_join (mt join_eq_nil_iff.2 hne) h
    exact ⟨_, hcut, fun others hothers => hothers.unique hcut, hundone unquoted fun a ha => unquoted_quoted (h a ha)⟩
  · by_cases hne : arguments = []
    · rw [hne]
      rfl
    · rw [(isCutting_join hne h).split_eq (mt join_eq_nil_iff.1 hne)]
      exact hundone withoutQuotes fun a ha => withoutQuotes_quoted (h a ha)

end Joined

namespace Launcher

variable {l : Launcher} {option : String} {arguments : List String}

/-- **A launcher passes joined arguments** in one value, which says them. -/
theorem exists_says_of_command (hpassing : l.passing = .joined option) (h : ∀ a ∈ arguments, '"' ∉ a.toList) :
    ∃ value : String, (l.command arguments).arguments = l.arguments ++ [option, value] ∧
      Joined.Says value.toList (arguments.map String.toList) := by
  refine ⟨_, by rw [command, hpassing], ?_⟩
  rw [String.toList_ofList]
  exact Joined.says_join (List.forall_mem_map.2 h)

/-- **What a launcher tells of the arguments** that it passes joined as the value of an option. -/
structure TakesApart (l : Launcher) (option : String) (arguments : List String) : Prop where
  /-- The value stands behind the option, and it says the arguments. -/
  value : ∃ value : String, (l.command arguments).arguments = l.arguments ++ [option, value] ∧
    Joined.Says value.toList (arguments.map String.toList)
  /-- No other arguments without quotes have the same value. -/
  unique : ∀ others : List String, (∀ a ∈ others, '"' ∉ a.toList) → ∀ value,
    (l.command arguments).arguments = l.arguments ++ [option, value] →
    (l.command others).arguments = l.arguments ++ [option, value] → others = arguments

/-- **Arguments without quotes can be told from the option** that they are passed in. -/
theorem takesApart (hpassing : l.passing = .joined option) (h : ∀ a ∈ arguments, '"' ∉ a.toList) :
    l.TakesApart option arguments := by
  refine ⟨exists_says_of_command hpassing h, fun others hothers value hvalue hvalue' => ?_⟩
  obtain ⟨_, heq, hsaid⟩ := exists_says_of_command hpassing h
  obtain ⟨_, heq', hsaid'⟩ := exists_says_of_command hpassing hothers
  rw [heq, List.append_cancel_left_eq] at hvalue
  rw [heq', List.append_cancel_left_eq] at hvalue'
  cases hvalue
  cases hvalue'
  have hlists : others.map String.toList = arguments.map String.toList := hsaid'.split.symm.trans hsaid.split
  exact (List.map_inj_right fun _ _ => String.toList_inj.1).1 hlists

/-- Arguments with blanks of several kinds, one of them empty. -/
def blankArguments : List String := ["meanPayoff", "", " a  b ", "-m", "\u00a0", "c\u2003d\n", "/"]

theorem takesApart_blankArguments :
    (gradle "..").passing = .joined "--args" ∧ (∀ a ∈ blankArguments, '"' ∉ a.toList) ∧
      ((gradle "..").command blankArguments).arguments =
        ["-p", "..", "run", "--args", "meanPayoff \"\" \" a  b \" -m \"\u00a0\" \"c\u2003d\n\" /"] ∧
      (gradle "..").TakesApart "--args" blankArguments :=
  ⟨rfl, by decide, by decide, takesApart rfl (by decide)⟩

/-- With quotes of their own, other arguments can have the same value. -/
example : (gradle "..").command ["a b"] = (gradle "..").command ["\"a", "b\""] := by decide

end Launcher

end CheckerTrials
