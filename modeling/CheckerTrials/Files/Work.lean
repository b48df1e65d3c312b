import CheckerTrials.Files.Disk
import CheckerTrials.Note

/-!
# Work on a disk

Work changes a disk, makes notes, and may fail.  What it has done and noted by then stays: a failure
takes nothing back.  `Work.on` shows all of it.
-/

set_option autoImplicit false

namespace CheckerTrials

/-- Work on a disk that may fail with an `ε`. -/
abbrev Work (ε α : Type) := ExceptT ε (StateT Disk Noted) α

/-- What has come of work on a disk. -/
structure Done (ε α : Type) where
  /-- What the work gave, or why it failed. -/
  result : Except ε α
  /-- The disk after it. -/
  disk : Disk
  /-- The notes that were made. -/
  notes : List Note

namespace Work

variable {ε ζ α : Type}

/-- Does the work on a disk. -/
def on (w : Work ε α) (d : Disk) : Done ε α :=
  let out := StateT.run (ExceptT.run w) d
  ⟨out.value.1, out.value.2, out.notes⟩

/-- What a question about the disk gives. -/
def ask (question : Disk → α) : Work ε α := do return question (← get)

/-- What a result gives, or the failure that it is. -/
def ofExcept : Except ε α → Work ε α
  | .ok a => pure a
  | .error e => throw e

/-- What a question about the disk gives, if it can be answered. -/
def tryAsk (question : Disk → Except ε α) : Work ε α := do ofExcept (question (← get))

/-- Changes the disk, or fails and leaves it as it is. -/
def change (action : Disk → Except ε Disk) : Work ε Unit :=
  ExceptT.mk fun d =>
    match action d with
    | .ok d' => pure (.ok (), d')
    | .error e => pure (.error e, d)

/-- Does something to the disk.  What it has done stays, even if it fails. -/
def act (action : Disk → Except ε Unit × Disk) : Work ε Unit :=
  ExceptT.mk fun d => pure (action d)

/-- A noted value as work that leaves the disk as it is. -/
def note (x : Noted α) : Work ε α := ExceptT.lift (StateT.lift x)

/-- What has come of work, as a value: the work itself cannot fail any more. -/
def attempt (w : Work ε α) : Work ζ (Except ε α) := ExceptT.lift (ExceptT.run w)

/-- Work that tells its failures in other words. -/
def mapError (f : ε → ζ) (w : Work ε α) : Work ζ α := ExceptT.adapt f w

@[simp] theorem on_pure (a : α) (d : Disk) : on (pure a : Work ε α) d = ⟨.ok a, d, []⟩ := rfl

/-- Failing changes nothing. -/
@[simp] theorem on_throw (e : ε) (d : Disk) : on (throw e : Work ε α) d = ⟨.error e, d, []⟩ := rfl

theorem on_bind {β : Type} (w : Work ε α) (f : α → Work ε β) (d : Disk) :
    on (w >>= f) d =
      match on w d with
      | ⟨.ok a, d', notes⟩ =>
        let after := on (f a) d'
        ⟨after.result, after.disk, notes ++ after.notes⟩
      | ⟨.error e, d', notes⟩ => ⟨.error e, d', notes⟩ := by
  simp only [on, bind, ExceptT.bind, ExceptT.mk, ExceptT.run, StateT.bind, StateT.run,
    ExceptT.bindCont]
  split
  · rename_i h
    injection h with hr hd hn
    simp only [hr, hd, hn]
  · rename_i h
    injection h with hr hd hn
    simp only [hr, hd, hn]
    exact congrArg (Done.mk (.error _) _) (List.append_nil _)

theorem on_change (action : Disk → Except ε Disk) (d : Disk) :
    on (change action) d =
      match action d with
      | .ok d' => ⟨.ok (), d', []⟩
      | .error e => ⟨.error e, d, []⟩ := by
  simp only [on, change, ExceptT.mk, ExceptT.run, StateT.run]
  cases action d <;> rfl

theorem on_act (action : Disk → Except ε Unit × Disk) (d : Disk) :
    on (act action) d = ⟨(action d).1, (action d).2, []⟩ := rfl

end Work

end CheckerTrials
