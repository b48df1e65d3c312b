import CheckerTrials.Proofs.Summary.Groups
import CheckerTrials.Proofs.Trial.ExactQuantities

/-!
# Scaling is a change of unit

With a scale, `summarize` divides the bounds of each trial by the greatest reward of the model before it takes their
mean, divides the known value in another place, and counts inverted trials by the bounds that are not divided.  For
exact quantities all this comes to one thing.

* `Summary.inUnit`: the summary in a unit `m` times as large.  Its bounds and its known value are divided by `m`; its
  width is too (`Summary.precision_inUnit`), and nothing else changes.
* `summarize_scaledBy`: a group is summarised with a scale exactly if it is without, and then in the other unit.
* `changesUnit`: both, and where the mean bounds lie among the bounds of the single trials.
-/

set_option autoImplicit false

namespace CheckerTrials

/-! ## Summaries in another unit -/

namespace Summary

/-- The summary in a unit `m` times as large. -/
def inUnit (s : Summary ℚ) (m : ℚ) : Summary ℚ :=
  { s with lower := s.lower / m, upper := s.upper / m, knownValue := s.knownValue.map (· / m) }

theorem precision_inUnit (s : Summary ℚ) (m : ℚ) : (s.inUnit m).precision = s.precision / m :=
  (sub_div s.upper s.lower m).symm

/-- A change of unit can be undone. -/
theorem inUnit_inUnit_inv (s : Summary ℚ) {m : ℚ} (hm : m ≠ 0) : (s.inUnit m).inUnit m⁻¹ = s := by
  have hback : ∀ x : ℚ, x / m / m⁻¹ = x := fun x => by rw [div_inv_eq_mul, div_mul_cancel₀ x hm]
  simp only [inUnit, Option.map_map, Function.comp_def, hback, Option.map_id']

/-- Dividing every bound before the mean is dividing the mean. -/
theorem ofFinished_div (key : GroupKey) (samples : Nat) (failures : FailureCounts) (m : ℚ) (value : Option ℚ)
    (ceiling : ℚ) (finished : List (Finished ℚ)) :
    ofFinished key samples failures m (value.map (· / m)) ceiling finished =
      (ofFinished key samples failures 1 value ceiling finished).inUnit m := by
  simp only [ofFinished, inUnit, div_one, Quantity.mean_map_div]

end Summary

/-! ## Options with a scale -/

variable {k : GroupKey} {group : List (Trial ℚ)} {options : SummaryOptions ℚ} {rewards : NameMap ℚ} {m : ℚ}

theorem SummaryOptions.knownValueOf_div (options : SummaryOptions ℚ) (model : String) (m : ℚ) :
    options.knownValueOf model m = (options.knownValueOf model 1).map (Option.map (· / m)) := by
  rw [knownValueOf, knownValueOf]
  cases options.knownValues with
  | none => rfl
  | some values =>
    cases h : values.get? model with
    | none => simp only [h, Except.map]
    | some value => simp only [h, Except.map, Option.map_some, div_one]

/-- The same options with a scale. -/
def SummaryOptions.scaledBy (options : SummaryOptions ℚ) (rewards : NameMap ℚ) : SummaryOptions ℚ :=
  { options with scaling := some rewards }

theorem scaleOf_scaledBy (hreward : rewards.get? k.model = some m) :
    (options.scaledBy rewards).scaleOf k.model = .ok m := by
  simp only [SummaryOptions.scaledBy, SummaryOptions.scaleOf, hreward]

/-- **A scaled summary** is the summary without a scale in another unit. -/
theorem summarize_scaledBy (hscaling : options.scaling = none) (hreward : rewards.get? k.model = some m) :
    summarize k group (options.scaledBy rewards) = (summarize k group options).map (·.inUnit m) := by
  have hscale : options.scaleOf k.model = .ok 1 := by
    rw [SummaryOptions.scaleOf, hscaling]
    rfl
  have hvalue : (options.scaledBy rewards).knownValueOf k.model m =
      (options.knownValueOf k.model 1).map (Option.map (· / m)) := options.knownValueOf_div k.model m
  rw [summarize, summarize, hscale, scaleOf_scaledBy hreward, bind_ok, bind_ok, hvalue]
  cases options.knownValueOf k.model 1 with
  | error e => rfl
  | ok value =>
    simp only [Except.map, bind_ok]
    split
    · rfl
    · exact congrArg Except.ok (Summary.ofFinished_div ..)

/-! ## Where the means lie -/

/-- Every successful trial ends with its bounds in order. -/
def EndsOrdered (group : List (Trial ℚ)) : Prop :=
  ∀ t ∈ group, t.isSuccess = true → ∀ lower upper, t.finalBounds? = some (lower, upper) → lower ≤ upper

theorem EndsOrdered.le_of_mem (h : EndsOrdered group) {f : Finished ℚ} (hf : f ∈ finishedOf group) :
    f.lower ≤ f.upper := by
  obtain ⟨t, ht, hof⟩ := List.mem_filterMap.1 hf
  obtain ⟨hsuccess, hbounds, -⟩ := Finished.of?_eq_some hof
  exact h t ht hsuccess _ _ hbounds

/-- A summary averages the scaled final bounds of the finished trials, of which there are some. -/
theorem means_of_summarize (hreward : rewards.get? k.model = some m) {s : Summary ℚ}
    (h : summarize k group (options.scaledBy rewards) = .ok s) :
    finishedOf group ≠ [] ∧ s.lower = Quantity.mean ((finishedOf group).map (·.lower / m)) ∧
      s.upper = Quantity.mean ((finishedOf group).map (·.upper / m)) := by
  obtain ⟨scale, value, hok, -, hne, rfl⟩ := summarize_eq_ok_iff.1 h
  rw [scaleOf_scaledBy hreward] at hok
  cases hok
  exact ⟨hne, rfl, rfl⟩

/-! ## All of it -/

/-- What a scale by `m` does to the summary of a group. -/
structure ChangesUnit (k : GroupKey) (group : List (Trial ℚ)) (options : SummaryOptions ℚ) (rewards : NameMap ℚ)
    (m : ℚ) : Prop where
  /-- The same groups fail, with the same errors, and the summaries of the others are those in the other unit. -/
  summarize_eq :
    summarize k group (options.scaledBy rewards) = (summarize k group options).map (·.inUnit m)
  /-- The width of a summary is in the other unit, too. -/
  precision_eq : ∀ s : Summary ℚ, (s.inUnit m).precision = s.precision / m
  /-- The summary without a scale can be told from the one with it. -/
  restored : ∀ s : Summary ℚ, (s.inUnit m).inUnit m⁻¹ = s
  /-- Each mean bound lies among the scaled final bounds of its side. -/
  among : ∀ s, summarize k group (options.scaledBy rewards) = .ok s →
    Quantity.LiesAmong s.lower ((finishedOf group).map (·.lower / m)) ∧
      Quantity.LiesAmong s.upper ((finishedOf group).map (·.upper / m))
  /-- With a positive scale, trials that end in order have means in order. -/
  ordered : 0 < m → EndsOrdered group → ∀ s,
    summarize k group (options.scaledBy rewards) = .ok s → 0 ≤ s.precision

/-- **Scaling is a change of unit.**  Whatever group of trials is summarised, and whatever else is asked for, a
greatest reward that is registered and is not zero changes the unit of the summary and nothing else. -/
theorem changesUnit (hscaling : options.scaling = none) (hreward : rewards.get? k.model = some m) (hm : m ≠ 0) :
    ChangesUnit k group options rewards m where
  summarize_eq := summarize_scaledBy hscaling hreward
  precision_eq s := s.precision_inUnit m
  restored s := s.inUnit_inUnit_inv hm
  among s hs := by
    obtain ⟨hne, hlower, hupper⟩ := means_of_summarize hreward hs
    rw [hlower, hupper]
    exact ⟨Quantity.liesAmong_mean (by simpa using hne), Quantity.liesAmong_mean (by simpa using hne)⟩
  ordered hpos hordered s hs := by
    obtain ⟨-, hlower, hupper⟩ := means_of_summarize hreward hs
    have hmean : s.lower ≤ s.upper := by
      rw [hlower, hupper]
      exact Quantity.mean_map_le fun f hf => div_le_div_of_nonneg_right (hordered.le_of_mem hf) hpos.le
    exact sub_nonneg.2 hmean

/-- Two successful trials of a model, and one between them that ran out of time. -/
def unevenTrials : List (Trial ℚ) := [
  { Trial.failed "toy" none .generic 0 with
    times := [0, 1000], lower := [0, 1], upper := [4, 3], states := some 5, status := .success },
  .failed "toy" none .timeout 1,
  { Trial.failed "toy" none .generic 2 with
    times := [0, 3000], lower := [0, 2], upper := [4, 4], status := .success }]

/-- Known values, but no scale. -/
def unscaled : SummaryOptions ℚ where
  grouping := .model
  scaling := none
  knownValues := some (.insert {} "toy" 3)
  ceiling := 1800

theorem changesUnit_unevenTrials :
    (summarize ⟨"toy", none⟩ unevenTrials (unscaled.scaledBy (.insert {} "toy" 4))).map
        (fun s => (s.lower, s.upper, s.precision, s.knownValue, s.meanRuntime, s.successes)) =
      .ok (3 / 8, 7 / 8, 1 / 2, some (3 / 4), 2, 2) ∧
      EndsOrdered unevenTrials ∧ ChangesUnit ⟨"toy", none⟩ unevenTrials unscaled (.insert {} "toy" 4) 4 := by
  refine ⟨by decide +kernel, ?_, changesUnit rfl (by decide +kernel) (by decide +kernel)⟩
  have hlast : (2 : ℚ) ≤ 4 := by decide +kernel
  simp [EndsOrdered, unevenTrials, Trial.failed, Trial.isSuccess, Trial.finalBounds?, hlast]

end CheckerTrials
