import CheckerTrials.Proofs.Decimal.Digits
import CheckerTrials.Proofs.Decimal.Exact
import CheckerTrials.Proofs.Report.Csv
import CheckerTrials.Proofs.Trial.ExactQuantities
import CheckerTrials.Proofs.Trial.Reading
import CheckerTrials.Report.Series

/-!
# Two clocks

The series of a trial counts minutes, and its runtime counts seconds.  The first clock starts at the earliest sample and
the second one at the first sample, which need not be the same one: the samples of a text may stand in any order.

* A trial that was read has a record in its series for each sample (`Trial.WellFormed.exists_samples`), and the file is
  read back as these records (`read?_seriesText`).
* `Trial.Clocks` says what both clocks show if no time is rounded.  `Trial.SharesClock` says that they are one, which
  comes to the first sample being the earliest (`Trial.Clocks.sharesClock_iff`).
* `keepsTime_of_parse`: all this for every trial that can be read.  Samples in the order of their times share the clock.
-/

set_option autoImplicit false

namespace CheckerTrials

/-! ## The records of a series -/

/-- Some quantities have a least one. -/
theorem Quantity.least?_eq_none_iff {α : Type} [Quantity α] {xs : List α} : least? xs = none ↔ xs = [] := by
  rw [least?]
  cases hfilter : xs.filter fun x => x ≤ x with
  | nil => exact List.head?_eq_none_iff
  | cons x rest =>
    refine iff_of_false (Option.some_ne_none _) ?_
    rintro rfl
    cases hfilter

/-- **A record for each sample**, in the order of the samples, with its bounds and the minutes since the least time. -/
theorem Trial.WellFormed.exists_samples {α : Type} [Quantity α] {t : Trial α} (h : t.WellFormed)
    (hstatus : t.status = .success) :
    ∃ start, Quantity.least? t.times = some start ∧
      t.samples.map Sample.minutes = t.times.map (fun time => (time - start) / Quantity.ofCount 60000) ∧
      t.samples.map Sample.lower = t.lower ∧ t.samples.map Sample.upper = t.upper := by
  obtain ⟨hne, hlower, hupper⟩ := h.of_success hstatus
  obtain ⟨start, hstart⟩ := Option.ne_none_iff_exists'.1 (mt Quantity.least?_eq_none_iff.1 hne)
  have hbounds : (t.lower.zip t.upper).length = t.times.length := by
    rw [List.length_zip, hlower, hupper, Nat.min_self]
  let rows := t.times.zip (t.lower.zip t.upper)
  have htimes : rows.map Prod.fst = t.times := List.map_fst_zip hbounds.ge
  have hpairs : rows.map Prod.snd = t.lower.zip t.upper := List.map_snd_zip hbounds.le
  have hsamples : t.samples = rows.map fun row =>
      ⟨(row.1 - start) / Quantity.ofCount 60000, row.2.1, row.2.2⟩ := by
    rw [Trial.samples, hstart]
  refine ⟨start, hstart, ?_, ?_, ?_⟩
  · calc t.samples.map Sample.minutes
        = (rows.map Prod.fst).map fun time => (time - start) / Quantity.ofCount 60000 := by
          rw [hsamples, List.map_map, List.map_map]
          rfl
      _ = _ := by rw [htimes]
  · calc t.samples.map Sample.lower
        = (rows.map Prod.snd).map Prod.fst := by
          rw [hsamples, List.map_map, List.map_map]
          rfl
      _ = t.lower := by rw [hpairs, List.map_fst_zip (hlower.trans hupper.symm).le]
  · calc t.samples.map Sample.upper
        = (rows.map Prod.snd).map Prod.snd := by
          rw [hsamples, List.map_map, List.map_map]
          rfl
      _ = t.upper := by rw [hpairs, List.map_snd_zip (hupper.trans hlower.symm).le]

/-- The fields of a sample in a series. -/
def Sample.fields (knownValue : Option Float) (s : Sample Float) : List String :=
  [Decimal.plain s.minutes, Decimal.plain s.lower, Decimal.plain s.upper, knownValue.elim "" Decimal.plain]

theorem isBare_of_mem_plain {x : Float} : ∀ c ∈ (Decimal.plain x).toList, Csv.Progress.IsBare c := by
  intro c hc
  have hplain := Decimal.mem_plain hc
  refine ⟨?_, ?_, ?_⟩ <;> rintro rfl <;> revert hplain <;> simp [Decimal.IsPlainChar, Decimal.isDigit]

theorem isBare_of_mem_fields {knownValue : Option Float} {s : Sample Float} :
    ∀ field ∈ s.fields knownValue, ∀ c ∈ field.toList, Csv.Progress.IsBare c := by
  intro field hfield
  simp only [Sample.fields, List.mem_cons, List.not_mem_nil, or_false] at hfield
  rcases hfield with rfl | rfl | rfl | rfl
  · exact isBare_of_mem_plain
  · exact isBare_of_mem_plain
  · exact isBare_of_mem_plain
  · cases knownValue with
    | none => nofun
    | some x => exact isBare_of_mem_plain

/-- The fields of the header. -/
def seriesFields : List String := ["minutes", "lower", "upper", "true_value"]

theorem toList_seriesHeader : seriesHeader.toList = [','].intercalate (seriesFields.map String.toList) ++ ['\n'] := by
  decide +kernel

theorem toList_line (knownValue : Option Float) (s : Sample Float) :
    (s.line knownValue).toList = [','].intercalate ((s.fields knownValue).map String.toList) ++ ['\n'] := by
  simp [Sample.line, Sample.fields, String.toList_append]

/-- **A series is read back** as its header and a record for each of its samples. -/
theorem read?_seriesText (t : Trial Float) (knownValue : Option Float) : Csv.read? (seriesText t knownValue) =
    some (seriesFields :: t.samples.map (Sample.fields knownValue)) := by
  have htext : seriesText t knownValue = String.ofList
      ((seriesFields :: t.samples.map (Sample.fields knownValue)).flatMap fun row =>
        [','].intercalate (row.map String.toList) ++ ['\n']) := by
    rw [← String.toList_inj, String.toList_ofList, seriesText, String.toList_append, String.toList_join,
      List.flatMap_map, List.flatMap_cons, List.flatMap_map, toList_seriesHeader]
    simp only [toList_line]
  rw [htext]
  refine Csv.read?_written (fun row hrow field hfield => Csv.Progress.fills_bare ?_) fun row hrow => ?_
  · rcases List.mem_cons.1 hrow with rfl | hrow
    · have hbare : ∀ field ∈ seriesFields, ∀ c ∈ field.toList, Csv.Progress.IsBare c := by
        simp [seriesFields, Csv.Progress.IsBare]
      exact hbare field hfield
    · obtain ⟨s, -, rfl⟩ := List.mem_map.1 hrow
      exact isBare_of_mem_fields field hfield
  · rcases List.mem_cons.1 hrow with rfl | hrow
    · exact List.cons_ne_nil _ _
    · obtain ⟨s, -, rfl⟩ := List.mem_map.1 hrow
      exact List.cons_ne_nil _ _

/-! ## Exact times -/

namespace Trial

/-- The two clocks of a trial are one: minutes are measured from the first sample, so that they begin with 0 and end
with the runtime. -/
structure SharesClock (t : Trial ℚ) : Prop where
  /-- Minutes are measured from the first sample. -/
  measured : ∀ first, t.times.head? = some first →
    t.samples.map Sample.minutes = t.times.map fun time => (time - first) / 60000
  /-- They begin with 0. -/
  begins : t.samples.head?.map Sample.minutes = some 0
  /-- They end with the runtime. -/
  ends : t.samples.getLast?.map (fun row => row.minutes * 60) = t.runtimeSeconds?

/-- **What the two clocks show**, given the times of the first sample, the last one and the earliest one. -/
structure Clocks (t : Trial ℚ) (first last start : ℚ) : Prop where
  /-- The first sample. -/
  head : t.times.head? = some first
  /-- The last sample. -/
  getLast : t.times.getLast? = some last
  /-- The earliest sample. -/
  isLeast : IsLeast {time | time ∈ t.times} start
  /-- Minutes are measured from the earliest sample. -/
  minutes : t.samples.map Sample.minutes = t.times.map fun time => (time - start) / 60000
  /-- Seconds are measured from the first one. -/
  runtime : t.runtimeSeconds? = some ((last - first) / 1000)

namespace Clocks

variable {t : Trial ℚ} {first last start : ℚ}

/-- The first record shows how long the first sample was after the earliest one. -/
theorem head_minutes (h : t.Clocks first last start) :
    t.samples.head?.map Sample.minutes = some ((first - start) / 60000) := by
  rw [← List.head?_map, h.minutes, List.head?_map, h.head, Option.map_some]

/-- **The last record** shows that and the runtime. -/
theorem getLast_seconds (h : t.Clocks first last start) :
    t.samples.getLast?.map (fun row => row.minutes * 60) = some ((last - first) / 1000 + (first - start) / 1000) := by
  have hlast : t.samples.getLast?.map Sample.minutes = some ((last - start) / 60000) := by
    rw [← List.getLast?_map, h.minutes, List.getLast?_map, h.getLast, Option.map_some]
  obtain ⟨row, hrow, hminutes⟩ := Option.map_eq_some_iff.1 hlast
  rw [hrow, Option.map_some, hminutes]
  congr 1
  ring

/-- **The two clocks are one** if the first sample is the earliest one, and only then. -/
theorem sharesClock_iff (h : t.Clocks first last start) : t.SharesClock ↔ first = start := by
  constructor
  · intro hshares
    have hzero := hshares.begins
    rw [h.head_minutes, Option.some.injEq, div_eq_zero_iff] at hzero
    exact sub_eq_zero.1 (hzero.resolve_right (by norm_num))
  · rintro rfl
    refine ⟨fun first' hfirst => ?_, ?_, ?_⟩
    · rw [h.head, Option.some.injEq] at hfirst
      rw [← hfirst, h.minutes]
    · rw [h.head_minutes, sub_self, zero_div]
    · rw [h.getLast_seconds, h.runtime, sub_self, zero_div, add_zero]

end Clocks

/-- A successful trial with samples has both clocks. -/
theorem WellFormed.exists_clocks {t : Trial ℚ} (h : t.WellFormed) (hstatus : t.status = .success) :
    ∃ first last start, t.Clocks first last start := by
  obtain ⟨start, hstart, hminutes, -, -⟩ := h.exists_samples hstatus
  have hne := (h.of_success hstatus).1
  have hhead := List.head?_eq_some_head hne
  have hlast := List.getLast?_eq_some_getLast hne
  have hruntime : t.runtimeSeconds? = some ((t.times.getLast hne - t.times.head hne) / 1000) := by
    rw [runtimeSeconds?, hhead, hlast]
    rfl
  exact ⟨_, _, start, hhead, hlast, Quantity.least?_eq_some_iff.1 hstart, hminutes, hruntime⟩

/-! ## Samples in the order of their times -/

/-- No sample was taken before the one that precedes it. -/
theorem isChronological_iff {α : Type} [Quantity α] {t : Trial α} :
    t.isChronological = true ↔ t.times.IsChain fun earlier later => ¬ later < earlier := by
  rw [isChronological]
  generalize t.times = times
  induction times with
  | nil => simp
  | cons first rest ih =>
    cases rest with
    | nil => simp
    | cons second rest =>
      simp only [List.tail_cons, List.zip_cons_cons, List.all_cons, Bool.and_eq_true, List.isChain_cons_cons] at ih ⊢
      rw [ih]
      simp

/-- The first one of samples in the order of their times is the earliest one. -/
theorem isLeast_of_isChronological {t : Trial ℚ} (h : t.isChronological = true) {first : ℚ}
    (hfirst : t.times.head? = some first) : IsLeast {time | time ∈ t.times} first := by
  have hsorted : t.times.Pairwise (· ≤ ·) := by
    rw [← List.isChain_iff_pairwise]
    exact (isChronological_iff.1 h).imp fun _ _ => not_lt.1
  obtain ⟨rest, htimes⟩ := List.head?_eq_some_iff.1 hfirst
  rw [htimes] at hsorted ⊢
  refine ⟨List.mem_cons_self, fun time htime => ?_⟩
  rcases List.mem_cons.1 htime with rfl | htime
  · exact le_rfl
  · exact (List.pairwise_cons.1 hsorted).1 time htime

/-- Finite times are in the order of the numbers that they are. -/
theorem isChronological_map_exact {t : Trial Float} (hfinite : ∀ time ∈ t.times, Decimal.isFinite time = true)
    (h : t.isChronological = true) : (t.map Decimal.exact).isChronological = true := by
  rw [isChronological_iff] at h ⊢
  rw [Trial.map, List.isChain_map]
  refine h.imp_of_mem_imp fun earlier later hearlier hlater hle => ?_
  rwa [← Decimal.lt_iff_exact_lt (hfinite later hlater) (hfinite earlier hearlier)]

/-- Other numbers in the series leave a trial well formed. -/
theorem WellFormed.map {α β : Type} {t : Trial α} (h : t.WellFormed) (f : α → β) : (t.map f).WellFormed := by
  constructor
  · intro hstatus
    simpa [Trial.map] using h.of_success hstatus
  · intro hstatus
    simpa [Trial.map] using h.of_failure hstatus

end Trial

/-! ## What is read from a text -/

/-- What the series and the runtime of a trial say about time. -/
structure KeepsTime (t : Trial Float) : Prop where
  /-- The series as a file has a record for each sample behind its header. -/
  records : ∀ knownValue, Csv.read? (seriesText t knownValue) =
    some (seriesFields :: t.samples.map (Sample.fields knownValue))
  /-- The samples are those of the trial, in order. -/
  samples : t.samples.length = t.times.length ∧ t.samples.map Sample.lower = t.lower ∧
    t.samples.map Sample.upper = t.upper
  /-- Minutes are measured from the earliest sample and the runtime from the first one.  The first record and the last
  one show the time between the two, and without such a time the clocks are one. -/
  clocks : ∃ first last start, (t.map Decimal.exact).Clocks first last start ∧
    (t.map Decimal.exact).samples.head?.map Sample.minutes = some ((first - start) / 60000) ∧
    (t.map Decimal.exact).samples.getLast?.map (fun row => row.minutes * 60) =
      some ((last - first) / 1000 + (first - start) / 1000) ∧
    ((t.map Decimal.exact).SharesClock ↔ first = start)
  /-- Samples in the order of their times share a clock. -/
  shared : (∀ time ∈ t.times, Decimal.isFinite time = true) → t.isChronological = true →
    (t.map Decimal.exact).SharesClock

/-- **Time in a trial that was read.** -/
theorem keepsTime_of_parse {text : String} {mode : Trailing} {iteration : Nat} {t : Trial Float}
    (h : (TextResult.parse text mode iteration).value = .ok t) : KeepsTime t := by
  have hwell := TextResult.wellFormed_of_parse h
  have hstatus := (success_of_parse h).1
  obtain ⟨_, -, hminutes, hlower, hupper⟩ := hwell.exists_samples hstatus
  obtain ⟨first, last, start, hclocks⟩ := (hwell.map Decimal.exact).exists_clocks hstatus
  refine ⟨read?_seriesText t, ⟨?_, hlower, hupper⟩, ?_, ?_⟩
  · simpa using congrArg List.length hminutes
  · exact ⟨first, last, start, hclocks, hclocks.head_minutes, hclocks.getLast_seconds, hclocks.sharesClock_iff⟩
  · intro hfinite hchronological
    have hordered := Trial.isChronological_map_exact hfinite hchronological
    have hleast := Trial.isLeast_of_isChronological hordered hclocks.head
    exact hclocks.sharesClock_iff.2 (hleast.unique hclocks.isLeast)

/-- A text whose first sample is later than its last one. -/
def crossedText : String := "-m toy.prism\n1000 0\n0 0.5\n1 0.75\n"

/-- The trial in it. -/
def crossedTrial : Trial Float :=
  { Trial.failed "toy" none .generic 0 with
    times := [1000, 0], lower := [0, 0.5], upper := [1, 0.75], status := .success }

theorem keepsTime_crossedTrial :
    (TextResult.parse crossedText .states 0).value = .ok crossedTrial ∧ KeepsTime crossedTrial := by
  have hparse : (TextResult.parse crossedText .states 0).value = .ok crossedTrial := by decide +kernel
  exact ⟨hparse, keepsTime_of_parse hparse⟩

/-- **Two clocks** in a trial that can be read: its series does not begin with 0. -/
theorem not_sharesClock_crossedTrial :
    (TextResult.parse crossedText .states 0).value = .ok crossedTrial ∧
      ¬ (crossedTrial.map Decimal.exact).SharesClock := by
  have hparse : (TextResult.parse crossedText .states 0).value = .ok crossedTrial := by decide +kernel
  refine ⟨hparse, fun hshares => ?_⟩
  obtain ⟨first, last, start, hclocks⟩ :=
    ((TextResult.wellFormed_of_parse hparse).map Decimal.exact).exists_clocks rfl
  have hfirst : Decimal.exact 1000 = first := Option.some.inj hclocks.head
  have hle : start ≤ Decimal.exact 0 := hclocks.isLeast.2 (by simp [crossedTrial, Trial.map])
  have hlt : Decimal.exact 0 < Decimal.exact 1000 :=
    (Decimal.lt_iff_exact_lt (by decide +kernel) (by decide +kernel)).1 (by decide +kernel)
  rw [← hclocks.sharesClock_iff.1 hshares, ← hfirst] at hle
  exact hlt.not_ge hle

end CheckerTrials
