import CheckerTrials.Proofs.Decimal.Means
import CheckerTrials.Proofs.Reachability.Counts
import CheckerTrials.Proofs.Reachability.Families
import CheckerTrials.Proofs.Reachability.Storage

/-!
# Shares of all states

Two tables compare the states that an experiment explored with all states of the model, and a complete analysis may
tell that there are none.  Such an instance is divided by (`Instance.IsDividedByZero`), so that the share is an
infinity or no number, and so are all means that it goes into: those of its kind, those of its family, and the one
that gives the family its place in the table.

Nothing else can go wrong.  Counts in a document are below a limit, so a share is too, and a mean of such shares
does not overflow, however many there are (`Document.Storable.reportsShares`).
-/

set_option autoImplicit false

namespace CheckerTrials

open Decimal (AtMost isFinite)

variable {d : Document} {i : Instance} {instances : List Instance} {h : Heuristic} {k : Kind} {e : Exploration}

/-! ## One share -/

/-- **An experiment is compared with nothing**: it finished, and the complete analysis tells that there are no
states. -/
def Instance.IsDividedByZero (i : Instance) (k : Kind) : Prop :=
  i.isFinished k = true ∧ i.results.completeStates? = some 0

/-- The share of all states that an experiment explored. -/
def Exploration.share (e : Exploration) (states : Nat) : Float :=
  Float.ofNat (e.coreStates.getD 0) / Float.ofNat states

/-- The share of an instance, if its experiment finished and the number of all states is known. -/
def Instance.share? (i : Instance) (k : Kind) : Option Float :=
  ((i.results.get? k).bind Outcome.exploration?).bind fun e => i.results.completeStates?.map e.share

theorem share?_eq_some_iff {x : Float} : i.share? k = some x ↔
    ∃ e states, (i.results.get? k).bind Outcome.exploration? = some e ∧
      i.results.completeStates? = some states ∧ x = e.share states := by
  simp only [Instance.share?, Option.bind_eq_some_iff, Option.map_eq_some_iff, eq_comm (a := x)]
  exact exists_congr fun e => ⟨fun ⟨he, states, hstates, hx⟩ => ⟨states, he, hstates, hx⟩,
    fun ⟨states, he, hstates, hx⟩ => ⟨he, states, hstates, hx⟩⟩

/-- What is found in results that can be stored can be stored. -/
theorem Results.Storable.exploration {r : Results} (hr : r.Storable)
    (he : (r.get? k).bind Outcome.exploration? = some e) : e.Storable := by
  obtain ⟨o, ho, hoe⟩ := Option.bind_eq_some_iff.1 he
  suffices hstorable : o.Storable from hstorable e hoe
  cases k with
  | complete => exact hr.complete o ho
  | unbounded h => exact hr.unbounded o (OrderedMap.mem_values_of_get? ho)
  | bounded h steps =>
    obtain ⟨m, hm, ho⟩ := Option.bind_eq_some_iff.1 ho
    exact hr.bounded m (OrderedMap.mem_values_of_get? hm) o (OrderedMap.mem_values_of_get? ho)

theorem Exploration.Storable.coreStates_le (he : e.Storable) : e.coreStates.getD 0 ≤ 2 ^ 64 := by
  rw [Exploration.coreStates]
  cases hexplored : e.exploredStates with
  | some n => exact (he.exploredStates n hexplored).trans (by decide)
  | none =>
    cases hstates : e.states with
    | some n => exact (he.states n hstates).trans (by decide)
    | none => exact Nat.zero_le _

/-- A share of something is small. -/
theorem Exploration.Storable.atMost_share (he : e.Storable) {states : Nat} (h : 0 < states) :
    AtMost 64 (e.share states) :=
  (Decimal.atMost_ofNat he.coreStates_le).div_ofNat (by decide) h

/-- **A share is finite** exactly if it is not one of nothing. -/
theorem Exploration.Storable.isFinite_share_iff (he : e.Storable) {states : Nat} :
    isFinite (e.share states) = true ↔ states ≠ 0 := by
  refine ⟨fun hfinite hzero => ?_, fun h => (he.atMost_share (Nat.pos_of_ne_zero h)).isFinite (by decide)⟩
  rw [hzero] at hfinite
  exact Decimal.not_isFinite_div_zero _ hfinite

section Storable

variable (hi : i.Storable) {x : Float} (hx : i.share? k = some x)

include hi hx

theorem Instance.Storable.isFinite_iff : isFinite x = true ↔ ¬ i.IsDividedByZero k := by
  obtain ⟨e, states, he, hstates, rfl⟩ := share?_eq_some_iff.1 hx
  rw [(Results.Storable.exploration hi he).isFinite_share_iff, Instance.IsDividedByZero, Instance.isFinished, he,
    hstates]
  simp

theorem Instance.Storable.atMost (hfinite : isFinite x = true) : AtMost 64 x := by
  obtain ⟨e, states, he, -, rfl⟩ := share?_eq_some_iff.1 hx
  have hstorable := Results.Storable.exploration hi he
  exact hstorable.atMost_share (Nat.pos_of_ne_zero (hstorable.isFinite_share_iff.1 hfinite))

end Storable

/-- An experiment that is compared with nothing has a share. -/
theorem Instance.IsDividedByZero.exists_share (h : i.IsDividedByZero k) : ∃ x, i.share? k = some x := by
  obtain ⟨e, he⟩ := Option.isSome_iff_exists.1 h.1
  exact ⟨_, share?_eq_some_iff.2 ⟨e, 0, he, h.2, rfl⟩⟩

/-! ## Means of shares -/

/-- The shares of a kind. -/
theorem fractions_tally (d : Document) (k : Kind) :
    (tally d k).finished.filterMap Finish.fraction = d.instances.filterMap fun i => i.share? k := by
  rw [tally, List.filterMap_filterMap]
  congr 1
  funext i
  rw [finish?_eq, Instance.share?]
  cases (i.results.get? k).bind Outcome.exploration? <;> rfl

/-- What an instance counts as for a heuristic: one that failed needed all states. -/
theorem ratio?_saving (i : Instance) (h : Heuristic) : (i.saving h).ratio? =
    if i.isFinished (.unbounded h) then i.share? (.unbounded h) else some 1 := by
  have hunbounded : i.results.unbounded? h = (i.results.get? (.unbounded h)).bind Outcome.exploration? := rfl
  rw [isFinished_unbounded, Instance.saving, Instance.share?, ← hunbounded]
  cases i.results.unbounded? h with
  | none => rfl
  | some e => cases i.results.completeStates? <;> rfl

theorem isFinite_one : isFinite (1 : Float) = true := by decide +kernel

theorem isFinite_getD_one_iff {o : Option Float} :
    isFinite (o.getD 1) = true ↔ ∀ x, o = some x → isFinite x = true := by
  cases o with
  | none => simp [isFinite_one]
  | some x => simp

section Means

variable (hstorable : ∀ i ∈ instances, i.Storable)

include hstorable

/-- **The mean share of a kind is finite** exactly if no instance is divided by zero. -/
theorem forall_isFinite_fraction_iff :
    (∀ x, Quantity.mean? (instances.filterMap fun i => i.share? k) = some x → isFinite x = true) ↔
      ∀ i ∈ instances, ¬ i.IsDividedByZero k := by
  rw [Decimal.forall_isFinite_mean?_iff Decimal.absorbs_counts]
  · simp only [List.mem_filterMap]
    constructor
    · intro hall i hi hzero
      obtain ⟨x, hx⟩ := hzero.exists_share
      exact ((hstorable i hi).isFinite_iff hx).1 (hall x ⟨i, hi, hx⟩) hzero
    · rintro hall x ⟨i, hi, hx⟩
      exact ((hstorable i hi).isFinite_iff hx).2 (hall i hi)
  · intro x hx hfinite
    obtain ⟨i, hi, hx⟩ := List.mem_filterMap.1 hx
    exact (hstorable i hi).atMost hx hfinite

/-- What counts in the mean of a heuristic is small, if it is finite. -/
theorem atMost_of_mem_ratios {x : Float} (hx : x ∈ (instances.map fun i => i.saving h).filterMap Saving.ratio?)
    (hfinite : isFinite x = true) : AtMost 64 x := by
  obtain ⟨s, hs, hratio⟩ := List.mem_filterMap.1 hx
  obtain ⟨i, hi, rfl⟩ := List.mem_map.1 hs
  rw [ratio?_saving] at hratio
  split at hratio
  · exact (hstorable i hi).atMost hratio hfinite
  · cases hratio
    exact Decimal.atMost_ofNat Nat.one_le_two_pow

/-- **The mean share of a heuristic is finite** exactly if no instance is divided by zero. -/
theorem forall_isFinite_ratio_iff :
    (∀ x, (HeuristicCell.of instances h).meanRatio = some x → isFinite x = true) ↔
      ∀ i ∈ instances, ¬ i.IsDividedByZero (.unbounded h) := by
  have hmean : (HeuristicCell.of instances h).meanRatio =
      Quantity.mean? ((instances.map fun i => i.saving h).filterMap Saving.ratio?) := rfl
  rw [hmean, Decimal.forall_isFinite_mean?_iff Decimal.absorbs_counts fun x => atMost_of_mem_ratios hstorable]
  simp only [List.mem_filterMap, List.mem_map]
  constructor
  · intro hall i hi hzero
    obtain ⟨x, hx⟩ := hzero.exists_share
    refine ((hstorable i hi).isFinite_iff hx).1 (hall x ⟨_, ⟨i, hi, rfl⟩, ?_⟩) hzero
    rw [ratio?_saving, if_pos hzero.1, hx]
  · rintro hall x ⟨_, ⟨i, hi, rfl⟩, hratio⟩
    rw [ratio?_saving] at hratio
    split at hratio
    · exact ((hstorable i hi).isFinite_iff hratio).2 (hall i hi)
    · cases hratio
      exact isFinite_one

/-- The mean share of a heuristic is small, if it is finite. -/
theorem atMost_meanRatio {x : Float} (hx : (HeuristicCell.of instances h).meanRatio = some x)
    (hfinite : isFinite x = true) : AtMost 118 x := by
  have hratios := fun y => atMost_of_mem_ratios hstorable (h := h) (x := y)
  have hall := (Decimal.isFinite_mean?_iff Decimal.absorbs_counts hratios hx).1 hfinite
  exact AtMost.mean? Decimal.absorbs_counts (fun y hy => hratios y hy (hall y hy)) hx

/-- **The mean share by which a family is ranked is finite** exactly if no instance is divided by zero. -/
theorem isFinite_meanRatio_iff (family : String) :
    isFinite (FamilyRow.of family instances).meanRatio = true ↔
      ∀ h, ∀ i ∈ instances, ¬ i.IsDividedByZero (.unbounded h) := by
  have hcells : (FamilyRow.of family instances).heuristics.map (fun c => c.meanRatio.getD 1) =
      Heuristic.all.map fun h => (HeuristicCell.of instances h).meanRatio.getD 1 := rfl
  rw [FamilyRow.meanRatio, hcells, isFinite_getD_one_iff, Decimal.forall_isFinite_mean?_iff Decimal.absorbs_sums]
  · rw [List.forall_mem_map]
    simp only [isFinite_getD_one_iff, forall_isFinite_ratio_iff hstorable, Heuristic.mem_all, forall_const]
  · intro x hx hfinite
    obtain ⟨h, -, rfl⟩ := List.mem_map.1 hx
    cases hratio : (HeuristicCell.of instances h).meanRatio with
    | none => exact Decimal.atMost_ofNat Nat.one_le_two_pow
    | some x =>
      rw [hratio] at hfinite
      exact atMost_meanRatio hstorable hratio hfinite

end Means

/-! ## The tables of a document -/

/-- **What the tables of a document tell about shares.** -/
structure Document.ReportsShares (d : Document) : Prop where
  /-- No count is a zero to divide by but the count of nothing. -/
  divisor : ∀ n, (Float.ofNat n == 0) = true ↔ n = 0
  /-- The mean share of a kind, if there is one, is finite exactly if no instance is divided by zero. -/
  fraction_iff : ∀ row ∈ (MethodTable.of d).rows, (∀ x, row.meanFraction = some x → isFinite x = true) ↔
    ∀ i ∈ d.instances, ¬ i.IsDividedByZero row.kind
  /-- So is that of a heuristic in a family. -/
  ratio_iff : ∀ rows, familyTable d = .ok rows → ∀ row ∈ rows, ∀ cell ∈ row.heuristics,
    (∀ x, cell.meanRatio = some x → isFinite x = true) ↔
      ∀ i ∈ d.instancesIn row.family, ¬ i.IsDividedByZero (.unbounded cell.heuristic)
  /-- What a family is ranked by is finite exactly if no instance is divided by zero for any heuristic. -/
  rank_iff : ∀ rows, familyTable d = .ok rows → ∀ row ∈ rows, isFinite row.meanRatio = true ↔
    ∀ h, ∀ i ∈ d.instancesIn row.family, ¬ i.IsDividedByZero (.unbounded h)

/-- Instances that can be stored are those of a document that can be. -/
theorem storable_of_mem_instances (hd : d.Storable) : ∀ i ∈ d.instances, i.Storable := fun i hi => by
  obtain ⟨instances, hinstances, hi⟩ := List.mem_flatten.1 hi
  exact hd instances hinstances i hi

theorem storable_of_mem_instancesIn (hd : d.Storable) (family : String) : ∀ i ∈ d.instancesIn family, i.Storable :=
  fun i hi => by
    obtain ⟨p, hp, hi⟩ := List.mem_flatMap.1 hi
    exact hd p.2 (List.mem_map_of_mem (List.mem_filter.1 hp).1) i hi

/-- **The shares of a document that can be stored** are finite exactly where nothing is divided by zero. -/
theorem Document.Storable.reportsShares (hd : d.Storable) : d.ReportsShares where
  divisor := Decimal.ofNat_beq_zero_iff
  fraction_iff row hrow := by
    obtain ⟨k, -, rfl⟩ := List.mem_map.1 hrow
    have hmean : (MethodRow.of d.instances.length k (tally d k)).meanFraction =
        Quantity.mean? (d.instances.filterMap fun i => i.share? k) := congrArg Quantity.mean? (fractions_tally d k)
    rw [hmean]
    exact forall_isFinite_fraction_iff (storable_of_mem_instances hd)
  ratio_iff rows hrows row hrow cell hcell := by
    obtain ⟨-, -, hrow⟩ := (mem_rows_iff hrows).1 hrow
    rw [hrow] at hcell
    obtain ⟨h, -, rfl⟩ := List.mem_map.1 hcell
    exact forall_isFinite_ratio_iff (storable_of_mem_instancesIn hd row.family)
  rank_iff rows hrows row hrow := by
    obtain ⟨-, -, hrow⟩ := (mem_rows_iff hrows).1 hrow
    have hrank := isFinite_meanRatio_iff (storable_of_mem_instancesIn hd row.family) row.family
    rwa [← hrow] at hrank

/-- **The shares of every document that is read**, with whatever library, are finite exactly where nothing is divided
by zero. -/
theorem reportsShares_of_parse {V : Type} [Json.Library V] {s : String} (hparse : Document.parse s = .ok d) :
    d.ReportsShares :=
  (Document.storable_of_parse hparse).reportsShares

/-- The text of a document with an instance that has no states, although five were explored. -/
def noStatesText : String :=
  "\x7b\"brp.pm\":[\x7b\"constants\":\"\",\"results\":\x7b\"complete\":\x7b\"time\":1.0,\"states\":0\x7d," ++
    "\"unbounded\":\x7b\"WEIGHTED\":\x7b\"time\":1.0,\"explored-states\":5\x7d\x7d\x7d\x7d]\x7d"

/-- The document of that text. -/
def noStatesDocument : Document :=
  .ofList [("brp.pm", [⟨"", (Results.empty.insert .complete (.done ⟨1, some 0, none, none⟩)).insert
    (.unbounded .weighted) (.done ⟨1, none, some 5, none⟩)⟩])]

theorem parse_noStatesText : Document.parse noStatesText = .ok noStatesDocument := by decide +kernel

theorem reportsShares_noStates : Document.parse noStatesText = .ok noStatesDocument ∧ noStatesDocument.ReportsShares :=
  ⟨parse_noStatesText, reportsShares_of_parse parse_noStatesText⟩

/-- **Not every share is finite**: five states of none are infinitely many times as many. -/
theorem not_finite_of_noStates : ¬ ∀ (s : String) (d : Document), Document.parse s = .ok d →
    (∀ row ∈ (MethodTable.of d).rows, ∀ x, row.meanFraction = some x → isFinite x = true) ∧
      ∀ rows, familyTable d = .ok rows → ∀ row ∈ rows, isFinite row.meanRatio = true ∧
        ∀ cell ∈ row.heuristics, ∀ x, cell.meanRatio = some x → isFinite x = true := by
  intro hfinite
  obtain ⟨hfractions, -⟩ := hfinite noStatesText noStatesDocument parse_noStatesText
  have hcell : ∃ row ∈ (MethodTable.of noStatesDocument).rows, ∃ x ∈ row.meanFraction, isFinite x = false := by
    decide +kernel
  obtain ⟨row, hrow, x, hx, hinfinite⟩ := hcell
  rw [hfractions row hrow x hx] at hinfinite
  cases hinfinite

end CheckerTrials
