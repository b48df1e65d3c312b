import CheckerTrials.Text.Split

/-!
# Paths

A path is kept as it was written, because messages show it so.  What it means is read from its text
when a disk follows it: `Path.steps` are the names between its slashes.  A path that begins with a
slash starts at the root, any other one at the working folder, and one that ends with a slash can only
name a folder.

* `steps_join`: joining a name to a path appends the steps of that name.
-/

set_option autoImplicit false

namespace CheckerTrials

/-- A path as it was written. -/
structure Path where
  /-- The text of the path. -/
  text : String
  deriving DecidableEq, Repr

namespace Path

/-- Whether a path starts at the root. -/
def isRooted (p : Path) : Bool := p.text.toList.head? == some '/'

/-- Whether a path ends with a slash, so that it can only name a folder. -/
def namesFolder (p : Path) : Bool := p.text.toList.getLast? == some '/'

/-- The steps between the slashes of a text. -/
def stepsOf (s : List Char) : List String :=
  ((Text.splitOn '/' s).filter fun step => !step.isEmpty).map String.ofList

/-- The names that a path goes through, `.` and `..` among them. -/
def steps (p : Path) : List String := stepsOf p.text.toList

/-- The path of `name` inside the folder `p`.  A name that begins with a slash is a path of its own. -/
def join (p : Path) (name : String) : Path :=
  if name.toList.head? = some '/' then ⟨name⟩
  else if p.text.isEmpty || p.namesFolder then ⟨p.text ++ name⟩
  else ⟨p.text ++ "/" ++ name⟩

/-- The path with a suffix at its end; an extension that is already there stays. -/
def withSuffix (p : Path) (suffix : String) : Path := ⟨p.text ++ suffix⟩

theorem stepsOf_append_slash (s t : List Char) :
    stepsOf (s ++ '/' :: t) = stepsOf s ++ stepsOf t := by
  simp [stepsOf, Text.splitOn, Text.split_append_cons]

/-- **Joining appends.**  The steps of a name inside a folder are those of the folder and then those
of the name. -/
theorem steps_join (p : Path) {name : String} (h : name.toList.head? ≠ some '/') :
    (p.join name).steps = p.steps ++ stepsOf name.toList := by
  unfold join
  rw [if_neg h]
  split
  · rename_i hp
    simp only [Bool.or_eq_true] at hp
    rcases hp with hp | hp
    · have : p.text = "" := by simpa using hp
      simp [steps, this, stepsOf, Text.splitOn, Text.split]
    · simp only [namesFolder, beq_iff_eq] at hp
      obtain ⟨s, hs⟩ : ∃ s, p.text.toList = s ++ ['/'] := by
        obtain ⟨s, hs⟩ := List.getLast?_eq_some_iff.1 hp
        exact ⟨s, hs⟩
      have hend : stepsOf (s ++ ['/']) = stepsOf s := by
        rw [stepsOf_append_slash]
        simp [stepsOf, Text.splitOn, Text.split]
      simp [steps, hs, hend, stepsOf_append_slash]
  · simp [steps, stepsOf_append_slash]

/-! ## Absolute paths -/

/-- The text of a rooted path through the given steps. -/
def ofSteps (steps : List String) : String :=
  String.join (steps.map ("/" ++ ·))

/-- The path written from the root, where `home` are the steps of the working folder.  Steps `.` and
doubled slashes are dropped; steps `..` stay, and so does a slash at the end.  Exactly two slashes at
the front are kept, because systems may give them a meaning.  An empty path has no absolute form. -/
def absolute? (p : Path) (home : List String) : Option Path :=
  let s := p.text.toList
  if s.isEmpty then none
  else
    let steps := p.steps.filter (· ≠ ".")
    let front :=
      if p.isRooted then
        (if s.take 2 = ['/', '/'] ∧ s.take 3 ≠ ['/', '/', '/'] then "/" else "") ++ ofSteps steps
      else ofSteps (home ++ steps)
    some ⟨if front.isEmpty then "/" else if p.namesFolder then front ++ "/" else front⟩

end Path

end CheckerTrials
