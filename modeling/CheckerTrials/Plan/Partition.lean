/-!
# Splitting work among workers

`partition total workers` splits the numbers below `total` into one slice per worker.  Each worker
takes `total / workers` of them, and the first `total % workers` workers take one more.  The
boundaries are given in closed form (`boundary`), so that the end of one slice is the beginning of
the next by definition.

* `boundary_zero` and `boundary_last`: the slices begin at 0 and end at `total`.
* `length_slice`: the length of each slice.
-/

set_option autoImplicit false

namespace CheckerTrials

/-- Why work cannot be split. -/
inductive PartitionError
  /-- There is nobody to do it. -/
  | noWorkers
  deriving DecidableEq, Repr

/-- What is said about work that cannot be split. -/
def PartitionError.message : PartitionError → String
  | .noWorkers => "Cannot split work among zero workers."

/-- The numbers from `start` up to but not including `stop`. -/
structure Slice where
  /-- The first number. -/
  start : Nat
  /-- The number after the last one. -/
  stop : Nat
  deriving DecidableEq, Repr

namespace Slice

/-- How many numbers a slice has. -/
def length (s : Slice) : Nat := s.stop - s.start

/-- The members of a list at the numbers of a slice. -/
def of {α : Type} (s : Slice) (xs : List α) : List α := (xs.drop s.start).take s.length

end Slice

/-- Where the slice of a worker begins, which is where the slice of the one before ends. -/
def boundary (total workers worker : Nat) : Nat :=
  worker * (total / workers) + min worker (total % workers)

/-- The slice of a worker. -/
def slice (total workers worker : Nat) : Slice :=
  ⟨boundary total workers worker, boundary total workers (worker + 1)⟩

theorem boundary_zero (total workers : Nat) : boundary total workers 0 = 0 := by
  simp [boundary]

theorem boundary_last (total : Nat) {workers : Nat} (h : 0 < workers) :
    boundary total workers workers = total := by
  have := Nat.mod_lt total h
  rw [boundary, Nat.min_eq_right (Nat.le_of_lt this)]
  exact Nat.div_add_mod total workers

/-- A worker takes its share, and one more if it is among the first. -/
theorem length_slice (total workers worker : Nat) :
    (slice total workers worker).length
      = total / workers + if worker < total % workers then 1 else 0 := by
  simp only [slice, Slice.length, boundary, Nat.add_mul, Nat.one_mul]
  generalize total / workers = share
  generalize total % workers = more
  generalize worker * share = before
  split <;> omega

/-- Splits the numbers below `total` into contiguous slices, one for each worker. -/
def partition (total workers : Nat) : Except PartitionError (List Slice) :=
  if workers = 0 then .error .noWorkers
  else .ok ((List.range workers).map (slice total workers))

end CheckerTrials
