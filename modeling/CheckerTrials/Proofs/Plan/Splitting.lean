import CheckerTrials.Plan.Partition
import Mathlib.Data.List.Basic
import Mathlib.Order.Monotone.Basic

/-!
# How work is split

The slices of the workers lie end to end, from 0 to the amount of work, and their lengths differ by one at most.
`SplitsEvenly` says what that means.

The boundaries are given in closed form, but on a machine they are found by adding up: each slice starts where the one
before has ended, and its length is added to that (`sweep`).  The numbers are words of a fixed width then, and an
addition of words may go wrong.  It never does, because no two words are added whose sum is greater than the amount of
work: an `Adder` that gives these sums finds the same slices, whatever it makes of greater ones.

* `boundary_mono`, `boundary_le`: boundaries increase up to the amount of work.
* `flatten_slices`: the slices of the workers are the whole list.
* `add_share`, `add_boundary`: the two additions for a worker.
* `sweep_eq`: the slices of any workers in a row, from the boundary where the first of them starts.
* `splitsEvenly_partition`: work is split evenly, and the same slices are found by adding up.
-/

set_option autoImplicit false

namespace CheckerTrials

/-! ## Boundaries -/

section

variable {total workers : Nat}

theorem boundary_le_succ (total workers k : Nat) :
    boundary total workers k ≤ boundary total workers (k + 1) := by
  have h := length_slice total workers k
  simp only [boundary, Nat.add_mul, Nat.one_mul]
  generalize total / workers = share
  generalize total % workers = more
  generalize k * share = before
  omega

theorem boundary_mono (total workers : Nat) : Monotone (boundary total workers) :=
  monotone_nat_of_le_succ (boundary_le_succ total workers)

/-- No worker goes beyond the work. -/
theorem boundary_le {k : Nat} (hk : k < workers) : boundary total workers (k + 1) ≤ total := by
  have hmono := boundary_mono total workers (show k + 1 ≤ workers from hk)
  rwa [boundary_last total (Nat.zero_lt_of_lt hk)] at hmono

/-- The end of a slice is its start and its length. -/
theorem boundary_add_length (total workers k : Nat) :
    boundary total workers k + (slice total workers k).length = boundary total workers (k + 1) := by
  rw [Slice.length, slice]
  exact Nat.add_sub_cancel' (boundary_le_succ total workers k)

/-- What is below a boundary is in the slice of a worker before it. -/
theorem exists_boundary_le {i k : Nat} (h : i < boundary total workers k) :
    ∃ j, j < k ∧ boundary total workers j ≤ i ∧ i < boundary total workers (j + 1) := by
  induction k with
  | zero =>
    rw [boundary_zero] at h
    exact absurd h (Nat.not_lt_zero i)
  | succ k ih =>
    by_cases hk : i < boundary total workers k
    · obtain ⟨j, hj, hi⟩ := ih hk
      exact ⟨j, Nat.lt_succ_of_lt hj, hi⟩
    · exact ⟨k, Nat.lt_succ_self k, Nat.le_of_not_lt hk, h⟩

/-- No number is in two slices. -/
theorem eq_of_boundary_le {i j k : Nat} (hj : boundary total workers j ≤ i) (hj' : i < boundary total workers (j + 1))
    (hk : boundary total workers k ≤ i) (hk' : i < boundary total workers (k + 1)) : j = k := by
  rcases Nat.lt_trichotomy j k with hlt | heq | hlt
  · have hmono := boundary_mono total workers (show j + 1 ≤ k from hlt)
    omega
  · exact heq
  · have hmono := boundary_mono total workers (show k + 1 ≤ j from hlt)
    omega

end

/-! ## Slices of a list -/

/-- The first slices are the first part of the list. -/
theorem flatten_slices_eq_take {α : Type} (xs : List α) (workers k : Nat) :
    ((List.range k).map fun w => (slice xs.length workers w).of xs).flatten =
      xs.take (boundary xs.length workers k) := by
  induction k with
  | zero => simp [boundary_zero]
  | succ k ih =>
    rw [List.range_succ, List.map_append, List.flatten_append, ih, ← boundary_add_length, List.take_add]
    simp [Slice.of, slice]

/-- **Every job is in one slice**, and the slices are in order. -/
theorem flatten_slices {α : Type} (xs : List α) {workers : Nat} (h : 0 < workers) :
    ((List.range workers).map fun w => (slice xs.length workers w).of xs).flatten = xs := by
  rw [flatten_slices_eq_take, boundary_last xs.length h, List.take_length]

/-- A slice that ends within a list has as many members as it is long. -/
theorem length_of {α : Type} {s : Slice} {xs : List α} (h : s.stop ≤ xs.length) : (s.of xs).length = s.length := by
  rw [Slice.of, List.length_take, List.length_drop, Slice.length]
  exact Nat.min_eq_left (Nat.sub_le_sub_right h s.start)

/-! ## The slices of all workers -/

theorem partition_zero (total : Nat) : partition total 0 = .error .noWorkers := rfl

theorem partition_of_pos (total : Nat) {workers : Nat} (h : 0 < workers) :
    partition total workers = .ok ((List.range workers).map (slice total workers)) :=
  if_neg (Nat.ne_of_gt h)

/-- **The slices split the numbers below `total` evenly** among workers. -/
structure SplitsEvenly (total workers : Nat) (slices : List Slice) : Prop where
  /-- Every worker has a slice. -/
  length : slices.length = workers
  /-- The first one starts at 0. -/
  first : ∀ s, slices[0]? = some s → s.start = 0
  /-- Each of the others starts where the one before ends. -/
  next : ∀ k s t, slices[k]? = some s → slices[k + 1]? = some t → t.start = s.stop
  /-- The last one ends at the total. -/
  last : ∀ s, slices.getLast? = some s → s.stop = total
  /-- None of them goes beyond. -/
  within : ∀ s ∈ slices, s.start ≤ s.stop ∧ s.stop ≤ total
  /-- Every number is in exactly one of them. -/
  covers : ∀ i, i < total → ∃! k : Nat, ∃ s : Slice, slices[k]? = some s ∧ s.start ≤ i ∧ i < s.stop
  /-- No slice is longer than one that comes before it. -/
  descending : slices.Pairwise fun s t => t.length ≤ s.length
  /-- No slice is longer than another one by more than 1. -/
  balanced : ∀ s ∈ slices, ∀ t ∈ slices, s.length ≤ t.length + 1
  /-- A list of that many members is cut into them without a loss. -/
  cuts : ∀ {α : Type} (xs : List α), xs.length = total →
    (∀ s ∈ slices, (s.of xs).length = s.length) ∧ (slices.map fun s => s.of xs).flatten = xs

section

variable {total workers : Nat}

theorem getElem?_slices_iff {k : Nat} {s : Slice} :
    ((List.range workers).map (slice total workers))[k]? = some s ↔ k < workers ∧ slice total workers k = s := by
  by_cases hk : k < workers <;> simp [hk]

theorem splitsEvenly_slices (total : Nat) {workers : Nat} (h : 0 < workers) :
    SplitsEvenly total workers ((List.range workers).map (slice total workers)) where
  length := by rw [List.length_map, List.length_range]
  first s hs := by
    obtain ⟨-, rfl⟩ := getElem?_slices_iff.1 hs
    exact boundary_zero total workers
  next k s t hs ht := by
    obtain ⟨-, rfl⟩ := getElem?_slices_iff.1 hs
    obtain ⟨-, rfl⟩ := getElem?_slices_iff.1 ht
    rfl
  last s hs := by
    rw [List.getLast?_eq_getElem?, List.length_map, List.length_range] at hs
    obtain ⟨-, rfl⟩ := getElem?_slices_iff.1 hs
    rw [slice, Nat.sub_add_cancel h]
    exact boundary_last total h
  within s hs := by
    obtain ⟨k, hk, rfl⟩ := List.mem_map.1 hs
    exact ⟨boundary_le_succ total workers k, boundary_le (List.mem_range.1 hk)⟩
  covers i hi := by
    obtain ⟨k, hk, hstart, hstop⟩ := exists_boundary_le (k := workers) (by rwa [boundary_last total h])
    refine ⟨k, ⟨_, getElem?_slices_iff.2 ⟨hk, rfl⟩, hstart, hstop⟩, ?_⟩
    rintro j ⟨s, hs, hstart', hstop'⟩
    obtain ⟨-, rfl⟩ := getElem?_slices_iff.1 hs
    exact eq_of_boundary_le hstart' hstop' hstart hstop
  descending := by
    rw [List.pairwise_map]
    refine List.pairwise_lt_range.imp fun {j k} hjk => ?_
    rw [length_slice, length_slice]
    split <;> split <;> omega
  balanced s hs t ht := by
    obtain ⟨j, -, rfl⟩ := List.mem_map.1 hs
    obtain ⟨k, -, rfl⟩ := List.mem_map.1 ht
    rw [length_slice, length_slice]
    split <;> split <;> omega
  cuts xs hxs := by
    subst hxs
    refine ⟨fun s hs => ?_, ?_⟩
    · obtain ⟨k, hk, rfl⟩ := List.mem_map.1 hs
      exact length_of (boundary_le (List.mem_range.1 hk))
    · rw [List.map_map]
      exact flatten_slices xs h

end

/-! ## Adding up words -/

section

variable {w : Nat}

/-- Adds two words, or refuses to. -/
abbrev Adder (w : Nat) := BitVec w → BitVec w → Option (BitVec w)

/-- The addition gives every sum up to a bound.  Nothing is said about greater sums: they may be too great for a word,
and then one addition goes on with what is left of them, and another one stops. -/
def Adder.Reaches (add : Adder w) (bound : BitVec w) : Prop :=
  ∀ a b, a.toNat + b.toNat ≤ bound.toNat → add a b = some (a + b)

/-- Goes on with what is left of a sum that is too great for a word. -/
def Adder.wrapping : Adder w := fun a b => some (a + b)

/-- Stops at a sum that is greater than the bound. -/
def Adder.upTo (bound : BitVec w) : Adder w := fun a b => if a.toNat + b.toNat ≤ bound.toNat then some (a + b) else none

theorem Adder.reaches_wrapping (bound : BitVec w) : Adder.wrapping.Reaches bound := fun _ _ _ => rfl

theorem Adder.reaches_upTo (bound : BitVec w) : (Adder.upTo bound).Reaches bound := fun _ _ h => if_pos h

/-- Where a slice starts and ends, as words. -/
structure WordSlice (w : Nat) where
  /-- The first number. -/
  start : BitVec w
  /-- The number after the last one. -/
  stop : BitVec w
  deriving DecidableEq

/-- The slice that words say. -/
def WordSlice.slice (s : WordSlice w) : Slice := ⟨s.start.toNat, s.stop.toNat⟩

/-- The words that say a slice. -/
def Slice.words (w : Nat) (s : Slice) : WordSlice w := ⟨BitVec.ofNat w s.start, BitVec.ofNat w s.stop⟩

/-- Goes from worker to worker, and begins at `start`. -/
def sweep (add : Adder w) (total workers start : BitVec w) : List (BitVec w) → Option (List (WordSlice w))
  | [] => some []
  | worker :: rest => do
    let length ← add (total / workers) (if worker < total % workers then 1#w else 0#w)
    let stop ← add start length
    let later ← sweep add total workers stop rest
    return ⟨start, stop⟩ :: later

/-- Splits work as it is done with words.  If an addition refuses, there are no slices. -/
def partitionWords (add : Adder w) (total workers : BitVec w) : Except PartitionError (Option (List (WordSlice w))) :=
  if workers = 0#w then .error .noWorkers
  else .ok (sweep add total workers 0#w ((List.range workers.toNat).map (BitVec.ofNat w)))

variable {add : Adder w} {total workers : BitVec w}

/-- Words that say numbers are added like these. -/
theorem Adder.Reaches.add_ofNat {bound : BitVec w} (h : add.Reaches bound) {m n : Nat} (hsum : m + n ≤ bound.toNat) :
    add (BitVec.ofNat w m) (BitVec.ofNat w n) = some (BitVec.ofNat w (m + n)) := by
  have hbound := bound.isLt
  rw [BitVec.ofNat_add]
  refine h _ _ ?_
  rwa [BitVec.toNat_ofNat, BitVec.toNat_ofNat, Nat.mod_eq_of_lt (by omega), Nat.mod_eq_of_lt (by omega)]

theorem udiv_eq_ofNat (total workers : BitVec w) : total / workers = BitVec.ofNat w (total.toNat / workers.toNat) := by
  refine BitVec.eq_of_toNat_eq ?_
  rw [BitVec.toNat_udiv, BitVec.toNat_ofNat, Nat.mod_eq_of_lt]
  exact Nat.lt_of_le_of_lt (Nat.div_le_self _ _) total.isLt

/-- One of the first workers takes one more. -/
theorem more_eq_ofNat (total : BitVec w) {k : Nat} (hk : k < workers.toNat) :
    (if BitVec.ofNat w k < total % workers then 1#w else 0#w) =
      BitVec.ofNat w (if k < total.toNat % workers.toNat then 1 else 0) := by
  have hless : BitVec.ofNat w k < total % workers ↔ k < total.toNat % workers.toNat := by
    rw [BitVec.lt_def, BitVec.toNat_umod, BitVec.toNat_ofNat, Nat.mod_eq_of_lt (Nat.lt_trans hk workers.isLt)]
  by_cases hmore : k < total.toNat % workers.toNat
  · rw [if_pos (hless.2 hmore), if_pos hmore]
  · rw [if_neg (mt hless.1 hmore), if_neg hmore]

/-- **The length of a slice** is found by an addition up to the total. -/
theorem add_share (hadd : add.Reaches total) {k : Nat} (hk : k < workers.toNat) :
    add (total / workers) (if BitVec.ofNat w k < total % workers then 1#w else 0#w) =
      some (BitVec.ofNat w (slice total.toNat workers.toNat k).length) := by
  have hend : boundary total.toNat workers.toNat (k + 1) ≤ total.toNat := boundary_le hk
  rw [← boundary_add_length, length_slice] at hend
  rw [udiv_eq_ofNat, more_eq_ofNat total hk, length_slice]
  exact hadd.add_ofNat (by omega)

/-- **The end of a slice** is found by another one. -/
theorem add_boundary (hadd : add.Reaches total) {k : Nat} (hk : k < workers.toNat) :
    add (BitVec.ofNat w (boundary total.toNat workers.toNat k))
        (BitVec.ofNat w (slice total.toNat workers.toNat k).length) =
      some (BitVec.ofNat w (boundary total.toNat workers.toNat (k + 1))) := by
  rw [← boundary_add_length]
  refine hadd.add_ofNat ?_
  rw [boundary_add_length]
  exact boundary_le hk

/-- **What has been added up so far** is the boundary where the next slice starts. -/
theorem sweep_eq (hadd : add.Reaches total) {k n : Nat} (hk : k + n ≤ workers.toNat) :
    sweep add total workers (BitVec.ofNat w (boundary total.toNat workers.toNat k))
        ((List.range' k n).map (BitVec.ofNat w)) =
      some ((List.range' k n).map fun j => (slice total.toNat workers.toNat j).words w) := by
  induction n generalizing k with
  | zero => rfl
  | succ n ih =>
    have hworker : k < workers.toNat := by omega
    rw [List.range'_succ, List.map_cons, List.map_cons, sweep, add_share hadd hworker]
    simp only [Option.bind_eq_bind, Option.bind_some]
    rw [add_boundary hadd hworker, Option.bind_some, ih (by omega)]
    rfl

/-- A slice that ends within the words is what its words say. -/
theorem slice_words {s : Slice} (h : s.start ≤ s.stop ∧ s.stop ≤ total.toNat) : (s.words w).slice = s := by
  have htotal := total.isLt
  rw [Slice.words, WordSlice.slice, BitVec.toNat_ofNat, BitVec.toNat_ofNat, Nat.mod_eq_of_lt (by omega),
    Nat.mod_eq_of_lt (by omega)]

/-- **Work is split evenly**, and with words as well: whichever way it is that words are added, if only the sums up to
the total come out right. -/
theorem splitsEvenly_partition (total : BitVec w) {workers : BitVec w} (h : workers ≠ 0#w) :
    ∃ slices words, partition total.toNat workers.toNat = .ok slices ∧
      SplitsEvenly total.toNat workers.toNat slices ∧ words.map WordSlice.slice = slices ∧
      ∀ add : Adder w, add.Reaches total → partitionWords add total workers = .ok (some words) := by
  have hpos : 0 < workers.toNat := Nat.pos_of_ne_zero fun hzero => h (BitVec.eq_of_toNat_eq hzero)
  have heven := splitsEvenly_slices total.toNat hpos
  refine ⟨_, (List.range workers.toNat).map fun j => (slice total.toNat workers.toNat j).words w,
    partition_of_pos _ hpos, heven, ?_, fun add hadd => ?_⟩
  · rw [List.map_map]
    refine List.map_congr_left fun k hk => ?_
    exact slice_words (heven.within _ (List.mem_map_of_mem hk))
  · have hall : 0 + workers.toNat ≤ workers.toNat := by omega
    have hsweep := sweep_eq hadd hall
    rw [boundary_zero, ← List.range_eq_range'] at hsweep
    rw [partitionWords, if_neg h, hsweep]

theorem splitsEvenly_partition_allOnes :
    4#64 ≠ 0#64 ∧ ∃ slices words, partition 0xFFFFFFFFFFFFFFFF 4 = .ok slices ∧
      SplitsEvenly 0xFFFFFFFFFFFFFFFF 4 slices ∧ words.map WordSlice.slice = slices ∧
      partitionWords .wrapping (BitVec.allOnes 64) 4#64 = .ok (some words) ∧
      partitionWords (.upTo (BitVec.allOnes 64)) (BitVec.allOnes 64) 4#64 = .ok (some words) := by
  have hpos : 4#64 ≠ 0#64 := by decide
  obtain ⟨slices, words, hslices, heven, hwords, hadd⟩ := splitsEvenly_partition (BitVec.allOnes 64) hpos
  exact ⟨hpos, slices, words, hslices, heven, hwords, hadd _ (Adder.reaches_wrapping _), hadd _ (Adder.reaches_upTo _)⟩

example : partition 10 4 = .ok [⟨0, 3⟩, ⟨3, 6⟩, ⟨6, 8⟩, ⟨8, 10⟩] := by decide

-- no addition may be refused whose sum is the total
example : partitionWords (.upTo 9#8) 10#8 4#8 = .ok none := by decide

end

end CheckerTrials
