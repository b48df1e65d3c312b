import CheckerTrials.Proofs.Success
import CheckerTrials.Trial.Folder

/-!
# What is read is well formed

A trial can be made with any series in it, so nothing about the type says that a successful trial has
samples.  It is reading that makes sure of it: `wellFormed_of_parse` for one text, `wellFormed_of_loadRun`
for one run, whatever is left of it on the disk, and `wellFormed_of_loadResults` for a whole folder of
results.

Reading goes through two loops over lists, one that gathers values and one that stops at the first
failure; `exists_of_mem_forEach` traces what the second one gives back to where it comes from.
-/

set_option autoImplicit false

namespace CheckerTrials

/-! ## One text -/

namespace Series

/-- A text that is not empty is no series without numbers. -/
theorem ne_nil_of_readFrom {s : List Char} (hs : s ≠ []) {xs : List Float}
    (h : readFrom s = .ok xs) : xs ≠ [] := by
  rw [readFrom, if_neg (by simpa using hs)] at h
  split at h
  · cases h
  · split at h
    · cases h
    · split at h
      · cases h
      · cases h
        exact List.cons_ne_nil _ _

/-- A line that is more than blanks has a number, or it cannot be read. -/
theorem ne_nil_of_read {line : List Char} (hline : Text.isBlankText line = false) {xs : List Float}
    (h : read line = .ok xs) : xs ≠ [] :=
  ne_nil_of_readFrom (fun he => by simp [Text.trimStart_eq_nil_iff.1 he] at hline) h

end Series

namespace TextResult

/-- If no required section is missing, the line of each is more than blanks. -/
theorem isBlankText_line {lines : List (List Char)}
    (h : (Section.required.find? fun s => (s.line? lines).isNone) = none) {s : Section}
    (hs : s ∈ Section.required) : Text.isBlankText (lines[s.index]?.getD []) = false := by
  have hline := List.find?_eq_none.1 h s hs
  rw [Section.line?] at hline
  cases hl : lines[s.index]? with
  | none => simp [hl] at hline
  | some line => simpa [hl, Option.filter] using hline

/-- The three series of a result have the same length, which is not 0. -/
theorem lengths_of_parseSections {lines : List (List Char)} {i : Invocation}
    {times lower upper : List Float} (h : parseSections lines = .ok (i, times, lower, upper)) :
    times ≠ [] ∧ lower.length = times.length ∧ upper.length = times.length := by
  rw [parseSections] at h
  split at h
  · cases h
  · rename_i hrequired
    obtain ⟨_, -, h⟩ := bind_eq_ok_iff.1 h
    obtain ⟨ts, hts, h⟩ := bind_eq_ok_iff.1 h
    obtain ⟨ls, -, h⟩ := bind_eq_ok_iff.1 h
    obtain ⟨us, -, h⟩ := bind_eq_ok_iff.1 h
    split at h
    · cases h
    · rename_i hlengths
      cases h
      simp only [ne_eq, not_or, Decidable.not_not] at hlengths
      have hline := isBlankText_line hrequired (s := .times) (by decide)
      exact ⟨Series.ne_nil_of_read hline (mapError_eq_ok_iff.1 hts), hlengths.1.symm,
        hlengths.2.symm⟩

/-- A warning before something does not change what that gives. -/
theorem value_ite_warn {α : Type} (c : Prop) [Decidable c] (text : String) (x : Noted α) :
    (if c then Noted.warn text >>= fun _ => x else x).value = x.value := by
  split <;> rfl

/-- The trial of a text, without the notes about it. -/
theorem value_parse (text : String) (mode : Trailing) (iteration : Nat) :
    (parse text mode iteration).value =
      match parseSections (Text.lines text.toList) with
      | .error e => .error e
      | .ok (i, times, lower, upper) =>
        (trailingValue mode (Section.trailing.line? (Text.lines text.toList))).map
          fun (states, missing) => {
            model := i.model, axis := i.axis?, times, lower, upper, states, missing,
            status := .success, iteration } := by
  rw [parse]
  cases parseSections (Text.lines text.toList) with
  | error e => rfl
  | ok sections =>
    obtain ⟨i, times, lower, upper⟩ := sections
    simp only [value_ite_warn]
    cases trailingValue mode (Section.trailing.line? (Text.lines text.toList)) with
    | error e => rfl
    | ok trailing =>
      simp only [value_ite_warn]
      rfl

/-- **A trial that is read from a text is well formed.** -/
theorem wellFormed_of_parse {text : String} {mode : Trailing} {iteration : Nat} {t : Trial Float}
    (h : (parse text mode iteration).value = .ok t) : t.WellFormed := by
  rw [value_parse] at h
  split at h
  · cases h
  · rename_i hsections
    obtain ⟨_, -, rfl⟩ := map_eq_ok_iff.1 h
    exact ⟨fun _ => lengths_of_parseSections hsections, fun hfail => absurd rfl hfail⟩

end TextResult

/-! ## One run -/

/-- A failed trial is named by the command line of the run. -/
theorem value_failedTrial (d : Disk) (base : Path) (failure : Failure) (iteration : Nat) :
    (failedTrial d base failure iteration).value =
      (recordedInvocation? d base).map fun i => .failed i.model i.axis? failure iteration := by
  rw [failedTrial]
  cases recordedInvocation? d base <;> rfl

theorem wellFormed_of_failedTrial {d : Disk} {base : Path} {failure : Failure} {iteration : Nat}
    {t : Trial Float} (h : (failedTrial d base failure iteration).value = some t) :
    t.WellFormed := by
  rw [value_failedTrial] at h
  obtain ⟨i, -, rfl⟩ := Option.map_eq_some_iff.1 h
  exact Trial.wellFormed_failed _ _ _ _

/-- What `loadRun` reads is the trial of the text that the run left, or else a failed trial. -/
theorem cases_of_loadRun {d : Disk} {base : Path} {iteration : Nat} {options : LoadOptions}
    {t : Trial Float} (h : (loadRun d base iteration options).value = some t) :
    (∃ s, d.readText base = .ok s ∧
      (TextResult.parse s options.trailing iteration).value = .ok t) ∨
    ∃ failure, (failedTrial d base failure iteration).value = some t := by
  rw [loadRun] at h
  split at h
  · exact .inr ⟨_, h⟩
  · rw [Noted.value_bind] at h
    cases hread : (TextResult.read d base options.trailing iteration).value with
    | error e =>
      rw [hread] at h
      exact .inr ⟨.generic, h⟩
    | ok u =>
      rw [hread] at h
      cases h
      rw [TextResult.read] at hread
      split at hread
      · cases hread
      · rename_i s hs
        rw [Noted.value_map, mapError_eq_ok_iff] at hread
        exact .inl ⟨s, hs, hread⟩

theorem wellFormed_of_loadRun {d : Disk} {base : Path} {iteration : Nat} {options : LoadOptions}
    {t : Trial Float} (h : (loadRun d base iteration options).value = some t) : t.WellFormed := by
  rcases cases_of_loadRun h with ⟨s, -, hs⟩ | ⟨failure, hf⟩
  · exact TextResult.wellFormed_of_parse hs
  · exact wellFormed_of_failedTrial hf

/-! ## All runs -/

theorem Noted.exists_of_mem_forEach {ε α β : Type} {f : α → Noted (Except ε β)} {as : List α}
    {bs : List β} (h : (Noted.forEach f as).value = .ok bs) {b : β} (hb : b ∈ bs) :
    ∃ a ∈ as, (f a).value = .ok b := by
  induction as generalizing bs with
  | nil =>
    cases h
    cases hb
  | cons a rest ih =>
    rw [Noted.forEach, Noted.value_bind] at h
    cases ha : (f a).value with
    | error e => rw [ha] at h; cases h
    | ok c =>
      simp only [ha, Noted.value_bind, Noted.value_pure] at h
      cases hrest : (Noted.forEach f rest).value with
      | error e => rw [hrest] at h; cases h
      | ok cs =>
        rw [hrest] at h
        cases h
        rcases List.mem_cons.1 hb with rfl | hb
        · exact ⟨a, List.mem_cons_self, ha⟩
        · obtain ⟨x, hx, hfx⟩ := ih hrest hb
          exact ⟨x, List.mem_cons_of_mem a hx, hfx⟩

theorem exists_of_mem_loadIteration {d : Disk} {folder : Path} {iteration : Nat}
    {options : LoadOptions} {trials : List (Trial Float)}
    (h : (loadIteration d folder iteration options).value = .ok trials) {t : Trial Float}
    (ht : t ∈ trials) : ∃ n : Nat, (loadRun d (folder.join n.repr) iteration options).value = some t := by
  rw [loadIteration] at h
  split at h
  · cases h
  · rw [Noted.value_bind, Noted.value_pure, Noted.value_all, List.map_map] at h
    cases h
    obtain ⟨u, hu, hut⟩ := List.mem_filterMap.1 ht
    obtain ⟨n, -, hn⟩ := List.mem_map.1 hu
    exact ⟨n, by rw [← hut, ← hn]; rfl⟩

/-- Every trial of a folder of results was read as a run. -/
theorem exists_of_mem_loadResults {d : Disk} {root : Path} {options : LoadOptions}
    {trials : List (Trial Float)} (h : (loadResults d root options).value = .ok trials)
    {t : Trial Float} (ht : t ∈ trials) :
    ∃ base iteration, (loadRun d base iteration options).value = some t := by
  rw [loadResults] at h
  split at h
  · cases h
  · rw [Noted.value_bind, Noted.value_pure] at h
    obtain ⟨loaded, hloaded, rfl⟩ := map_eq_ok_iff.1 h
    obtain ⟨ts, hts, htin⟩ := List.mem_flatten.1 ht
    obtain ⟨⟨number, folder⟩, -, hfolder⟩ := Noted.exists_of_mem_forEach hloaded hts
    obtain ⟨n, hn⟩ := exists_of_mem_loadIteration hfolder htin
    exact ⟨_, number, hn⟩

/-- **What is read is well formed.** -/
theorem wellFormed_of_loadResults {d : Disk} {root : Path} {options : LoadOptions}
    {trials : List (Trial Float)} (h : (loadResults d root options).value = .ok trials)
    {t : Trial Float} (ht : t ∈ trials) : t.WellFormed := by
  obtain ⟨base, iteration, hrun⟩ := exists_of_mem_loadResults h ht
  exact wellFormed_of_loadRun hrun

end CheckerTrials
