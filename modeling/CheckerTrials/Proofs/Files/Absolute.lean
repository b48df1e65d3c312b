import CheckerTrials.Proofs.Files.Walk

/-!
# Paths written from the root

The runner writes the paths of its files from the root before it uses them.  The text of such a path is
slashes and names, so that its steps can be read off (`steps_withSuffix`), and a suffix at its end goes to
the last name.

* `stepsOf_ofSteps`: names that were put together to a path are found again.
* `absolute?_eq_some`: the absolute form of a path that names no folder.
-/

set_option autoImplicit false

namespace CheckerTrials
namespace Path

/-! ## Names between slashes -/

/-- What stands between slashes: something, and no slash. -/
def IsStep (s : List Char) : Prop := s ≠ [] ∧ '/' ∉ s

theorem IsName.isStep {name : String} (h : IsName name) : IsStep name.toList := ⟨h.ne_nil, h.slash⟩

theorem IsName.ne_points {name : String} (h : IsName name) : name ≠ "." ∧ name ≠ ".." := ⟨h.ne_here, h.ne_above⟩

theorem stepsOf_eq_singleton {s : List Char} (h : IsStep s) : stepsOf s = [String.ofList s] := by
  have hsplit : Text.splitOn '/' s = [s] := by
    refine Text.split_eq_singleton fun c hc => ?_
    rw [beq_eq_false_iff_ne]
    rintro rfl
    exact h.2 hc
  rw [stepsOf, hsplit, List.filter_cons_of_pos (by simpa using h.1)]
  rfl

/-- A slash in front adds no step. -/
theorem stepsOf_cons_slash (s : List Char) : stepsOf ('/' :: s) = stepsOf s := by
  have h := stepsOf_append_slash [] s
  rwa [List.nil_append] at h

/-- The steps of a path are what stands between slashes. -/
theorem isStep_of_mem_stepsOf {s : List Char} {step : String} (h : step ∈ stepsOf s) :
    IsStep step.toList := by
  rw [stepsOf, List.mem_map] at h
  obtain ⟨piece, hpiece, rfl⟩ := h
  rw [List.mem_filter] at hpiece
  rw [String.toList_ofList]
  refine ⟨by simpa using hpiece.2, fun hslash => ?_⟩
  simpa using Text.eq_false_of_mem_split hpiece.1 '/' hslash

/-! ## Names put together -/

theorem toList_ofSteps (steps : List String) :
    (ofSteps steps).toList = steps.flatMap fun step => '/' :: step.toList := by
  rw [ofSteps]
  induction steps with
  | nil => rfl
  | cons step rest ih =>
    rw [List.map_cons, String.join_cons, String.toList_append, ih, List.flatMap_cons,
      String.toList_append]
    rfl

theorem toList_ofSteps_concat (steps : List String) (name : String) :
    (ofSteps (steps ++ [name])).toList = (ofSteps steps).toList ++ '/' :: name.toList := by
  simp [toList_ofSteps]

/-- A path of names is rooted, whatever is added to it. -/
theorem isRooted_withSuffix {front : String} (hfront : front = "" ∨ front = "/") (steps : List String)
    (name suffix : String) :
    ((⟨front ++ ofSteps (steps ++ [name])⟩ : Path).withSuffix suffix).isRooted = true := by
  have hhead : (ofSteps (steps ++ [name])).toList.head? = some '/' := by
    rw [toList_ofSteps]
    cases steps <;> rfl
  rcases hfront with rfl | rfl
  · simp [withSuffix, isRooted, hhead]
  · simp [withSuffix, isRooted]

/-- **Names that were put together to a path are found again.** -/
theorem stepsOf_ofSteps {steps : List String} (h : ∀ step ∈ steps, IsStep step.toList) :
    stepsOf (ofSteps steps).toList = steps := by
  induction steps using List.reverseRecOn with
  | nil => rfl
  | append_singleton before name ih =>
    have hname := stepsOf_eq_singleton (h name (by simp))
    rw [toList_ofSteps_concat, stepsOf_append_slash, ih fun s hs => h s (by simp [hs]), hname,
      String.ofList_toList]

/-- A path of names, perhaps with two slashes in front, with a suffix at its end. -/
theorem steps_withSuffix {front : String} (hfront : front = "" ∨ front = "/") {steps : List String}
    (hsteps : ∀ step ∈ steps, IsStep step.toList) {name suffix : String}
    (hname : IsStep (name ++ suffix).toList) :
    ((⟨front ++ ofSteps (steps ++ [name])⟩ : Path).withSuffix suffix).steps
      = steps ++ [name ++ suffix] := by
  have hrest : stepsOf ((ofSteps (steps ++ [name])).toList ++ suffix.toList)
      = steps ++ [name ++ suffix] := by
    rw [toList_ofSteps_concat, List.append_assoc, List.cons_append, stepsOf_append_slash,
      stepsOf_ofSteps hsteps, ← String.toList_append, stepsOf_eq_singleton hname,
      String.ofList_toList]
  rcases hfront with rfl | rfl
  · simpa [withSuffix, Path.steps] using hrest
  · simpa [withSuffix, Path.steps, stepsOf_cons_slash] using hrest

/-! ## Absolute forms -/

theorem ofSteps_ne_empty (before : List String) {steps : List String} (h : steps ≠ []) :
    ofSteps (before ++ steps) ≠ "" := by
  intro hempty
  have hnil := congrArg String.toList hempty
  rw [toList_ofSteps, List.flatMap_append, String.toList_empty] at hnil
  obtain ⟨step, hstep⟩ := List.exists_mem_of_ne_nil _ h
  have hslash : '/' ∈ steps.flatMap fun step => '/' :: step.toList :=
    List.mem_flatMap.2 ⟨step, hstep, List.mem_cons_self⟩
  rw [(List.append_eq_nil_iff.1 hnil).2] at hslash
  cases hslash

/-- **The absolute form of a path** that names no folder: its steps from the root, perhaps with one more
slash in front. -/
theorem absolute?_eq_some {p : Path} (htext : p.text.toList ≠ []) (hfile : p.namesFolder = false)
    (home : List String) (hsteps : p.steps.filter (· ≠ ".") ≠ []) :
    ∃ front, (front = "" ∨ front = "/") ∧ p.absolute? home = some
      ⟨front ++ ofSteps ((if p.isRooted then [] else home) ++ p.steps.filter (· ≠ "."))⟩ := by
  simp only [absolute?, hfile]
  rw [if_neg (by simpa using htext)]
  generalize p.steps.filter (· ≠ ".") = steps at hsteps
  cases p.isRooted with
  | false => exact ⟨"", .inl rfl, by simp [ofSteps_ne_empty home hsteps]⟩
  | true =>
    by_cases hslashes : p.text.toList.take 2 = ['/', '/'] ∧ p.text.toList.take 3 ≠ ['/', '/', '/']
    · exact ⟨"/", .inr rfl, by simp [hslashes]⟩
    · have hne : ofSteps steps ≠ "" := ofSteps_ne_empty [] hsteps
      exact ⟨"", .inl rfl, by simp [hslashes, hne]⟩

end Path
end CheckerTrials
