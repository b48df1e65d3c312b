import CheckerTrials.Proofs.Decimal.Digits
import CheckerTrials.Proofs.Text.Words
import CheckerTrials.Reachability.Kind

/-!
# Setup lines

Setup lines may be written by hand.  Blanks around their fields do not count (`Kind.exists_fields_of_holds`), and the
number of steps of a bounded experiment may have zeros or a sign in front of it: all such lines say the same kind
(`Kind.parse_of_holdsBounded`).
-/

set_option autoImplicit false

namespace CheckerTrials

open Text (isBlank)

/-! ## Fields -/

/-- A text that can be a field as it stands: a word without a comma. -/
structure IsField (word : List Char) : Prop where
  /-- It is not empty. -/
  ne_nil : word ≠ []
  /-- It holds no blanks. -/
  blank : ∀ c ∈ word, isBlank c = false
  /-- It holds no comma. -/
  comma : ',' ∉ word

theorem isField_bounded : IsField "bounded".toList := ⟨by decide, by decide, by decide⟩

theorem isField_name (h : Heuristic) : IsField h.name.toList := by
  cases h <;> exact ⟨by decide, by decide, by decide⟩

theorem isField_of_writes {n : Nat} {s : List Char} (h : Decimal.Writes n s) : IsField s := by
  have hdigit : ∀ c : Char, Decimal.isDigit c = true → isBlank c = false ∧ c ≠ ',' := fun c hc =>
    ⟨Decimal.isBlank_of_isDigit hc, by rintro rfl; exact absurd hc (by decide)⟩
  have hzeros : ∀ zeros : Nat, IsField (List.replicate zeros '0' ++ n.repr.toList) := fun zeros =>
    ⟨by simp, fun c hc => (hdigit c (Decimal.isDigit_of_mem_zeros_append hc)).1,
      fun hc => (hdigit _ (Decimal.isDigit_of_mem_zeros_append hc)).2 rfl⟩
  cases h with
  | unsigned zeros => exact hzeros zeros
  | signed zeros =>
    refine ⟨by simp, List.forall_mem_cons.2 ⟨by decide, (hzeros zeros).blank⟩, ?_⟩
    rw [List.mem_cons, not_or]
    exact ⟨by decide, (hzeros zeros).comma⟩

/-- A field that holds a word: there may be blanks around it. -/
def Holds (field word : List Char) : Prop :=
  ∃ before after, field = before ++ word ++ after ∧ (∀ c ∈ before, isBlank c = true) ∧
    ∀ c ∈ after, isBlank c = true

theorem trim_of_holds {field word : List Char} (h : Holds field word) (hword : IsField word) :
    Text.trim field = word := by
  obtain ⟨before, after, rfl, hbefore, hafter⟩ := h
  exact Text.trim_padded hword.ne_nil hbefore hafter (fun c hc => hword.blank c (List.mem_of_mem_head? hc))
    fun c hc => hword.blank c (List.mem_of_mem_getLast? hc)

/-- A field holds no comma. -/
theorem comma_notMem_of_holds {field word : List Char} (h : Holds field word) (hword : IsField word) : ',' ∉ field := by
  obtain ⟨before, after, rfl, hbefore, hafter⟩ := h
  have hblank : isBlank ',' = false := by decide
  simp only [List.mem_append, not_or]
  exact ⟨⟨fun h => by simp [hbefore ',' h] at hblank, hword.comma⟩, fun h => by simp [hafter ',' h] at hblank⟩

theorem map_trim_of_holds {padded words : List (List Char)} (h : List.Forall₂ Holds padded words)
    (hwords : ∀ word ∈ words, IsField word) : (∀ field ∈ padded, ',' ∉ field) ∧ padded.map Text.trim = words := by
  induction h with
  | nil => exact ⟨nofun, rfl⟩
  | @cons field word padded words hfield _ ih =>
    obtain ⟨hword, hwords⟩ := List.forall_mem_cons.1 hwords
    obtain ⟨hcommas, htrim⟩ := ih hwords
    exact ⟨List.forall_mem_cons.2 ⟨comma_notMem_of_holds hfield hword, hcommas⟩,
      by rw [List.map_cons, trim_of_holds hfield hword, htrim]⟩

namespace Kind

/-- Blanks at the ends of a line do not count for its fields: they would be trimmed of the first and the last one. -/
theorem fields_eq (line : List Char) : fields line = (Text.splitOn ',' line).map Text.trim :=
  Text.map_trim_splitOn_trim (by decide) line

/-- **The fields of a line** are the words that they hold, and then those behind the next comma if there is one. -/
theorem exists_fields_of_holds {padded words : List (List Char)} {rest : List Char}
    (h : List.Forall₂ Holds padded words) (hwords : ∀ word ∈ words, IsField word) (hne : words ≠ [])
    (hrest : ∀ c ∈ rest.head?, c = ',') : ∃ more, fields ([','].intercalate padded ++ rest) = words ++ more := by
  obtain ⟨hcommas, htrim⟩ := map_trim_of_holds h hwords
  have hpadded : padded ≠ [] := by
    rintro rfl
    exact hne htrim.symm
  have hcut := Text.splitOn_intercalate hpadded hcommas
  rw [fields_eq]
  cases rest with
  | nil => exact ⟨[], by rw [List.append_nil, hcut, htrim, List.append_nil]⟩
  | cons c rest =>
    obtain rfl : c = ',' := hrest c rfl
    have hsplit := Text.split_append_cons (p := (· == ',')) ([','].intercalate padded) rest
      (beq_self_eq_true ',')
    rw [← Text.splitOn, ← Text.splitOn, ← Text.splitOn, hcut] at hsplit
    exact ⟨(Text.splitOn ',' rest).map Text.trim, by rw [hsplit, List.map_append, htrim]⟩

theorem heuristicField_name (h : Heuristic) : heuristicField h.name.toList = .ok h := by
  rw [heuristicField, String.ofList_toList, Heuristic.ofName?_name]

/-- A setup line that says an experiment within `n` steps. -/
structure HoldsBounded (line : String) (h : Heuristic) (n : Nat) : Prop where
  /-- There are three fields, and the last one holds the number of steps. -/
  fields : ∃ first second third digits, line.toList = first ++ ',' :: (second ++ ',' :: third) ∧
    Holds first "bounded".toList ∧ Holds second h.name.toList ∧ Holds third digits ∧ Decimal.Writes n digits

/-- **A bounded experiment is read** whichever way its number of steps is written. -/
theorem parse_of_holdsBounded {line : String} {h : Heuristic} {n : Nat} (hline : HoldsBounded line h n)
    (hn : n ≤ Decimal.wordLimit) : parse line = .ok (.bounded h n) := by
  obtain ⟨first, second, third, digits, hsplit, hfirst, hsecond, hthird, hdigits⟩ := hline.fields
  have hwords : ∀ word ∈ ["bounded".toList, h.name.toList, digits], IsField word := by
    simp only [List.forall_mem_cons, List.not_mem_nil, false_imp_iff, implies_true, and_true]
    exact ⟨isField_bounded, isField_name h, isField_of_writes hdigits⟩
  have hholds : List.Forall₂ Holds [first, second, third] ["bounded".toList, h.name.toList, digits] :=
    .cons hfirst (.cons hsecond (.cons hthird .nil))
  have hnothing : ∀ c ∈ ([] : List Char).head?, c = ',' := nofun
  obtain ⟨more, hfields⟩ := exists_fields_of_holds hholds hwords (List.cons_ne_nil _ _) hnothing
  have hline : [','].intercalate [first, second, third] ++ [] = line.toList := by
    rw [hsplit]
    simp [List.intercalate_cons_cons]
  rw [hline] at hfields
  have hnumber := Decimal.natural?_of_writes hdigits hn
  rw [parse, hfields]
  simp [ofFields, heuristicField_name, hnumber]

end Kind

end CheckerTrials
