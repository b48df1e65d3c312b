/-!
# Notes beside a result

Reading a results tree rarely fails, but much of what is found is worth a remark: a run that names
no model, a series that is not chronological.  `Noted α` is a value together with such remarks, in
the order in which they were made.  It is a monad; `value_bind` and `notes_bind` say how it threads
them, and nothing about a value ever depends on the notes made before it.
-/

set_option autoImplicit false

namespace CheckerTrials

/-- How serious a note is. -/
inductive Level
  /-- Progress. -/
  | info
  /-- Something was skipped or looks wrong. -/
  | warning
  /-- Something could not be done. -/
  | error
  deriving DecidableEq, Repr

/-- A remark made while working. -/
structure Note where
  /-- How serious it is. -/
  level : Level
  /-- What it says. -/
  text : String
  deriving DecidableEq, Repr

/-- A value and the notes made on the way to it. -/
structure Noted (α : Type) where
  /-- The value. -/
  value : α
  /-- The notes, in the order they were made. -/
  notes : List Note
  deriving DecidableEq, Repr

namespace Noted

instance : Monad Noted where
  pure a := ⟨a, []⟩
  bind x f := ⟨(f x.value).value, x.notes ++ (f x.value).notes⟩

@[simp] theorem value_pure {α : Type} (a : α) : (pure a : Noted α).value = a := rfl

@[simp] theorem notes_pure {α : Type} (a : α) : (pure a : Noted α).notes = [] := rfl

@[simp] theorem value_bind {α β : Type} (x : Noted α) (f : α → Noted β) :
    (x >>= f).value = (f x.value).value := rfl

@[simp] theorem notes_bind {α β : Type} (x : Noted α) (f : α → Noted β) :
    (x >>= f).notes = x.notes ++ (f x.value).notes := rfl

theorem map_eq {α β : Type} (f : α → β) (x : Noted α) : f <$> x = ⟨f x.value, x.notes⟩ := by
  simp [Functor.map]

@[simp] theorem value_map {α β : Type} (f : α → β) (x : Noted α) :
    (f <$> x).value = f x.value := rfl

instance : LawfulMonad Noted :=
  LawfulMonad.mk' Noted (fun x => by rw [map_eq]; rfl) (fun x f => by simp [bind, pure])
    (fun x f g => by simp [bind])

/-- Notes progress. -/
def info (text : String) : Noted Unit := ⟨(), [⟨.info, text⟩]⟩

/-- Notes something that was skipped or looks wrong. -/
def warn (text : String) : Noted Unit := ⟨(), [⟨.warning, text⟩]⟩

/-- Notes something that could not be done. -/
def error (text : String) : Noted Unit := ⟨(), [⟨.error, text⟩]⟩

@[simp] theorem value_warn (text : String) : (warn text).value = () := rfl

/-- The values of a list of noted values, with all of their notes. -/
def all {α : Type} : List (Noted α) → Noted (List α)
  | [] => pure []
  | x :: rest => do
    let first ← x
    let others ← all rest
    pure (first :: others)

@[simp] theorem value_all {α : Type} (xs : List (Noted α)) :
    (all xs).value = xs.map Noted.value := by
  induction xs with
  | nil => rfl
  | cons x rest ih => simp [all, ih]

/-- Does something for every member of a list, up to the first failure. -/
def forEach {ε α β : Type} (f : α → Noted (Except ε β)) : List α → Noted (Except ε (List β))
  | [] => pure (.ok [])
  | a :: rest => do
    match ← f a with
    | .error e => return .error e
    | .ok b => return (← forEach f rest).map (b :: ·)

end Noted

end CheckerTrials
