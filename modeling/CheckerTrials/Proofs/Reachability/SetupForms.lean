import CheckerTrials.Proofs.Reachability.SetupLines
import Mathlib.Data.List.Forall2

/-!
# What setup lines say

A setup line says a kind by a word for it and the fields that it needs (`Kind.Says`).  What is wrong with any other
line is told in an order: a line of a form with a heuristic that names none is refused for that (`Kind.NamesNone`),
whatever stands in the field behind it, and every other one as a whole.  Each line is of one of these three classes
(`Kind.says_or`), and the reader tells which one it is (`Kind.ofFields_eq_iff`).

`Kind.setup` writes a line that says a kind.  Blanks around its fields and more fields behind them change nothing
(`Kind.Shows`, `Kind.parse_of_shows`), so that every kind is read back.  All of this together is `Kind.ReadsSetup`.
-/

set_option autoImplicit false

namespace CheckerTrials

namespace Kind

/-! ## Classes of lines -/

/-- **The fields of a line say a kind.**  More fields may follow. -/
inductive Says : Kind → List (List Char) → Prop
  /-- One word for the whole model. -/
  | complete (more : List (List Char)) : Says .complete ("complete".toList :: more)
  /-- A word and a heuristic. -/
  | unbounded (h : Heuristic) (more : List (List Char)) :
      Says (.unbounded h) ("unbounded".toList :: h.name.toList :: more)
  /-- A word, a heuristic and a number of steps. -/
  | bounded (h : Heuristic) {n : Nat} {digits : List Char} (hdigits : Decimal.Writes n digits)
      (hn : n ≤ Decimal.wordLimit) (more : List (List Char)) :
      Says (.bounded h n) ("bounded".toList :: h.name.toList :: digits :: more)

/-- **The fields have the form of a kind**: a word for it, and behind it as many fields as it needs. -/
inductive HasForm : List (List Char) → Prop
  /-- The form of a complete analysis. -/
  | complete (more : List (List Char)) : HasForm ("complete".toList :: more)
  /-- The form of an analysis without a bound. -/
  | unbounded (heuristic : List Char) (more : List (List Char)) : HasForm ("unbounded".toList :: heuristic :: more)
  /-- The form of an analysis with a bound. -/
  | bounded (heuristic steps : List Char) (more : List (List Char)) :
      HasForm ("bounded".toList :: heuristic :: steps :: more)

/-- **The field of the heuristic** holds a name that no heuristic has. -/
inductive NamesNone (name : String) : List (List Char) → Prop
  /-- In a line without a bound. -/
  | unbounded (hname : ∀ h : Heuristic, h.name ≠ name) (more : List (List Char)) :
      NamesNone name ("unbounded".toList :: name.toList :: more)
  /-- In a line with a bound, whatever that is. -/
  | bounded (hname : ∀ h : Heuristic, h.name ≠ name) (steps : List Char) (more : List (List Char)) :
      NamesNone name ("bounded".toList :: name.toList :: steps :: more)

/-- **The field of the steps** holds no number that a count can be. -/
inductive CountsNone : List (List Char) → Prop
  /-- Whatever stands in front of it. -/
  | bounded (heuristic : List Char) {steps : List Char}
      (hsteps : ∀ n ≤ Decimal.wordLimit, ¬ Decimal.Writes n steps) (more : List (List Char)) :
      CountsNone ("bounded".toList :: heuristic :: steps :: more)

variable {k : Kind} {name : String} {words : List (List Char)} {line : List Char}

/-! ## What the reader does with them -/

theorem heuristicField_of_forall_ne (h : ∀ h : Heuristic, h.name ≠ name) :
    heuristicField name.toList = .error (.unknownHeuristic name) := by
  have hnone : Heuristic.ofName? name = none :=
    Option.eq_none_iff_forall_ne_some.2 fun g hg => h g (Heuristic.name_of_ofName? hg)
  rw [heuristicField, String.ofList_toList, hnone]

/-- A field that holds no other name holds that of a heuristic. -/
theorem exists_eq_name (field : List Char)
    (h : ∀ name : String, (∀ h : Heuristic, h.name ≠ name) → field ≠ name.toList) :
    ∃ h : Heuristic, field = h.name.toList := by
  by_contra hnone
  refine h (String.ofList field) (fun g hg => hnone ⟨g, ?_⟩) String.toList_ofList.symm
  rw [hg, String.toList_ofList]

/-- A line that says a kind is read as it. -/
theorem ofFields_eq_ok (h : Says k words) : ofFields line words = .ok k := by
  cases h with
  | complete more => simp [ofFields]
  | unbounded h more => simp [ofFields, heuristicField_name, Except.map]
  | bounded h hdigits hn more => simp [ofFields, heuristicField_name, Decimal.natural?_of_writes hdigits hn]

/-- A line without the name of a heuristic is refused for that, before its number of steps is read. -/
theorem ofFields_eq_unknownHeuristic (h : NamesNone name words) :
    ofFields line words = .error (.unknownHeuristic name) := by
  cases h with
  | unbounded hname more => simp [ofFields, heuristicField_of_forall_ne hname, Except.map]
  | bounded hname steps more => simp [ofFields, heuristicField_of_forall_ne hname]

/-- A line of no form is refused as a whole. -/
theorem ofFields_of_not_hasForm (h : ¬ HasForm words) :
    ofFields line words = .error (.malformed (String.ofList line)) := by
  unfold ofFields
  split
  · rfl
  · rename_i first rest
    have hword : ∀ {word : String}, String.ofList first = word → first = word.toList := fun heq =>
      heq ▸ String.toList_ofList.symm
    split
    · rename_i hfirst
      rw [hword hfirst] at h
      exact absurd (.complete _) h
    · rename_i heuristic more hfirst
      rw [hword hfirst] at h
      exact absurd (.unbounded _ _) h
    · rename_i heuristic steps more hfirst
      rw [hword hfirst] at h
      exact absurd (.bounded _ _ _) h
    · rfl

/-- So is one whose number of steps cannot be read, if there is a heuristic in front of it. -/
theorem ofFields_of_countsNone (h : CountsNone words) (hname : ∀ name, ¬ NamesNone name words) :
    ofFields line words = .error (.malformed (String.ofList line)) := by
  cases h with
  | @bounded heuristic steps hsteps more =>
    have hnumber : Decimal.natural? steps = none := Option.eq_none_iff_forall_ne_some.2 fun n hn =>
      hsteps n (Decimal.natural?_eq_some_iff.1 hn).2 (Decimal.natural?_eq_some_iff.1 hn).1
    obtain ⟨h, rfl⟩ := exists_eq_name heuristic fun name hnone heq => hname name (heq ▸ .bounded hnone steps more)
    simp [ofFields, heuristicField_name, hnumber]

theorem ofFields_eq_malformed (hname : ∀ name, ¬ NamesNone name words) (h : ¬ HasForm words ∨ CountsNone words) :
    ofFields line words = .error (.malformed (String.ofList line)) :=
  h.elim ofFields_of_not_hasForm fun hcount => ofFields_of_countsNone hcount hname

/-- **Every line is of one of three classes.** -/
theorem says_or (words : List (List Char)) :
    (∃ k, Says k words) ∨ (∃ name, NamesNone name words) ∨
      (∀ name, ¬ NamesNone name words) ∧ (¬ HasForm words ∨ CountsNone words) := by
  by_cases hname : ∃ name, NamesNone name words
  · exact .inr (.inl hname)
  rw [not_exists] at hname
  by_cases hform : HasForm words
  · cases hform with
    | complete more => exact .inl ⟨_, .complete more⟩
    | unbounded heuristic more =>
      obtain ⟨h, rfl⟩ := exists_eq_name heuristic fun name hnone heq => hname name (heq ▸ .unbounded hnone more)
      exact .inl ⟨_, .unbounded h more⟩
    | bounded heuristic steps more =>
      obtain ⟨h, rfl⟩ := exists_eq_name heuristic fun name hnone heq => hname name (heq ▸ .bounded hnone steps more)
      by_cases hsteps : ∃ n ≤ Decimal.wordLimit, Decimal.Writes n steps
      · obtain ⟨n, hn, hdigits⟩ := hsteps
        exact .inl ⟨_, .bounded h hdigits hn more⟩
      · exact .inr (.inr ⟨hname, .inr (.bounded _ (fun n hn hdigits => hsteps ⟨n, hn, hdigits⟩) more)⟩)
  · exact .inr (.inr ⟨hname, .inl hform⟩)

/-- **What comes of a line**, by the class of its fields. -/
inductive Verdict (line : List Char) (words : List (List Char)) : Except SetupError Kind → Prop
  /-- It is read as the kind that it says. -/
  | ok {k : Kind} (h : Says k words) : Verdict line words (.ok k)
  /-- It is refused for its heuristic. -/
  | unknownHeuristic {name : String} (h : NamesNone name words) : Verdict line words (.error (.unknownHeuristic name))
  /-- It is refused for anything else, and shown then. -/
  | malformed (hname : ∀ name, ¬ NamesNone name words) (h : ¬ HasForm words ∨ CountsNone words) :
      Verdict line words (.error (.malformed (String.ofList line)))

/-- **The reader tells the classes apart.** -/
theorem ofFields_eq_iff {verdict : Except SetupError Kind} :
    ofFields line words = verdict ↔ Verdict line words verdict := by
  constructor
  · rintro rfl
    rcases says_or words with ⟨k, hk⟩ | ⟨name, hname⟩ | ⟨hname, h⟩
    · rw [ofFields_eq_ok hk]
      exact .ok hk
    · rw [ofFields_eq_unknownHeuristic hname]
      exact .unknownHeuristic hname
    · rw [ofFields_eq_malformed hname h]
      exact .malformed hname h
  · intro h
    cases h with
    | ok h => exact ofFields_eq_ok h
    | unknownHeuristic h => exact ofFields_eq_unknownHeuristic h
    | malformed hname h => exact ofFields_eq_malformed hname h

theorem parse_eq_iff {line : String} {verdict : Except SetupError Kind} : parse line = verdict ↔
    Verdict (Text.trim line.toList) ((Text.splitOn ',' line.toList).map Text.trim) verdict := by
  rw [parse, fields_eq, ofFields_eq_iff]

/-! ## Lines that show a kind -/

/-- The words of a setup line. -/
def setupWords : Kind → List (List Char)
  | .complete => ["complete".toList]
  | .unbounded h => ["unbounded".toList, h.name.toList]
  | .bounded h n => ["bounded".toList, h.name.toList, n.repr.toList]

theorem isField_of_mem_setupWords (k : Kind) : ∀ word ∈ k.setupWords, IsField word := by
  have hcomplete : IsField "complete".toList := ⟨by decide, by decide, by decide⟩
  have hunbounded : IsField "unbounded".toList := ⟨by decide, by decide, by decide⟩
  cases k with
  | complete => exact List.forall_mem_cons.2 ⟨hcomplete, nofun⟩
  | unbounded h => exact List.forall_mem_cons.2 ⟨hunbounded, List.forall_mem_cons.2 ⟨isField_name h, nofun⟩⟩
  | bounded h n =>
    have hsteps : IsField n.repr.toList := isField_of_writes (.unsigned 0)
    exact List.forall_mem_cons.2 ⟨isField_bounded, List.forall_mem_cons.2 ⟨isField_name h,
      List.forall_mem_cons.2 ⟨hsteps, nofun⟩⟩⟩

theorem setupWords_ne_nil (k : Kind) : k.setupWords ≠ [] := by
  cases k <;> exact List.cons_ne_nil _ _

/-- **A setup line** has commas between its words. -/
theorem toList_setup (k : Kind) : k.setup.toList = [','].intercalate k.setupWords := by
  cases k with
  | complete => rfl
  | unbounded h => simp [setup, setupWords, List.intercalate_cons_cons]
  | bounded h n => simp [setup, setupWords, List.intercalate_cons_cons]

theorem splitOn_setup (k : Kind) : Text.splitOn ',' k.setup.toList = k.setupWords := by
  rw [toList_setup]
  exact Text.splitOn_intercalate k.setupWords_ne_nil fun word hword => (k.isField_of_mem_setupWords word hword).comma

/-- The number of steps of a kind, if it has one, is a count. -/
def Fits (k : Kind) : Prop := ∀ h n, k = .bounded h n → n ≤ Decimal.wordLimit

theorem says_setupWords (hk : k.Fits) (more : List (List Char)) : Says k (k.setupWords ++ more) := by
  cases k with
  | complete => exact .complete more
  | unbounded h => exact .unbounded h more
  | bounded h n => exact .bounded h (.unsigned 0) (hk h n rfl) more

theorem Says.fits (h : Says k words) : k.Fits := by
  cases h with
  | complete => exact nofun
  | unbounded => exact nofun
  | bounded h hdigits hn more =>
    rintro _ _ ⟨⟩
    exact hn

/-- **A line shows a kind**: it is the setup line of the kind, but for blanks around its fields and further fields. -/
structure Shows (k : Kind) (line : String) : Prop where
  /-- Each field of the setup line stands in one of the line, and a comma follows them if anything does. -/
  fields : ∃ padded rest, List.Forall₂ Holds padded (Text.splitOn ',' k.setup.toList) ∧ (∀ c ∈ rest.head?, c = ',') ∧
    line.toList = [','].intercalate padded ++ rest

theorem shows_setup (k : Kind) : k.Shows k.setup := by
  refine ⟨k.setupWords, [], ?_, nofun, by rw [List.append_nil, toList_setup]⟩
  rw [splitOn_setup, List.forall₂_same]
  exact fun word _ => ⟨[], [], by simp, nofun, nofun⟩

/-- **A line says the kind that it shows.** -/
theorem parse_of_shows {line : String} (hk : k.Fits) (h : k.Shows line) : parse line = .ok k := by
  obtain ⟨padded, rest, hpadded, hrest, hline⟩ := h.fields
  rw [splitOn_setup] at hpadded
  obtain ⟨more, hfields⟩ := exists_fields_of_holds hpadded k.isField_of_mem_setupWords k.setupWords_ne_nil hrest
  rw [parse, hline, hfields]
  exact ofFields_eq_ok (says_setupWords hk more)

/-! ## The rule -/

/-- **How kinds and setup lines belong together**, for a kind and a line with these fields. -/
structure ReadsSetup (k : Kind) (line : String) (words : List (List Char)) : Prop where
  /-- The setup line of a kind is read as that kind. -/
  setup : k.Fits → parse k.setup = .ok k
  /-- So is any line that shows it. -/
  shown : k.Fits → k.Shows line → parse line = .ok k
  /-- Nothing but what says a kind is read as it. -/
  ok_iff : parse line = .ok k ↔ Says k words
  /-- The setup line of what was read is read as the same. -/
  again : parse line = .ok k → parse k.setup = .ok k
  /-- A line is refused for its heuristic exactly if it has a form with one and none has the name. -/
  unknownHeuristic_iff : ∀ name, parse line = .error (.unknownHeuristic name) ↔ NamesNone name words
  /-- Any other line is refused exactly if it has no form or its number of steps is no count. -/
  malformed_iff : ∀ shown, parse line = .error (.malformed shown) ↔ shown = String.ofList (Text.trim line.toList) ∧
    (∀ name, ¬ NamesNone name words) ∧ (¬ HasForm words ∨ CountsNone words)

theorem readsSetup (k : Kind) (line : String) :
    ReadsSetup k line ((Text.splitOn ',' line.toList).map Text.trim) where
  setup hk := parse_of_shows hk k.shows_setup
  shown := parse_of_shows
  ok_iff := by
    rw [parse_eq_iff]
    constructor
    · intro h
      cases h with
      | ok h => exact h
    · exact .ok
  again h := by
    cases parse_eq_iff.1 h with
    | ok h => exact parse_of_shows h.fits k.shows_setup
  unknownHeuristic_iff name := by
    rw [parse_eq_iff]
    constructor
    · intro h
      cases h with
      | unknownHeuristic h => exact h
    · exact .unknownHeuristic
  malformed_iff shown := by
    rw [parse_eq_iff]
    constructor
    · intro h
      cases h with
      | malformed hname h => exact ⟨rfl, hname, h⟩
    · rintro ⟨rfl, hname, h⟩
      exact .malformed hname h

/-- Blanks of any kind, a sign, zeros and further fields change nothing. -/
example : parse "\u3000bounded , GRAPH_WEIGHTED,\t+0200\u00a0,, more\n" = .ok (.bounded .graphWeighted 200) := by decide

/-- The heuristic is looked at before the steps, but only in a line with all the fields of its form. -/
example : parse "bounded,RANDOM,many" = .error (.unknownHeuristic "RANDOM") ∧
    parse "bounded,RANDOM" = .error (.malformed "bounded,RANDOM") := by decide

end Kind

end CheckerTrials
