import CheckerTrials.Files.Path

/-!
# The disk

A `Disk` is a tree of folders and files, kept as a list of what stands at each location.  A location
is the list of names from the root.  Paths are followed step by step (`Disk.locate`), so that `..`
goes up from where the path has come to, and a path through a file or through nothing fails the way
the system makes it fail.

Every operation that can fail gives a `Cause`.  Every operation that changes the disk returns the
changed disk, and none changes anything that it does not name:

* `get?_put_self`, `get?_put_of_ne`: writing at a location changes that location only;
* `get?_erase_self`, `get?_erase_of_ne`: so does removing.

The order of the entries is the order in which the system lists them.  It has no meaning, and
everything that reads a listing sorts it.
-/

set_option autoImplicit false

namespace CheckerTrials

/-- Why the system refuses an operation on files. -/
inductive Cause
  /-- Nothing stands there. -/
  | notFound
  /-- A step of the path goes through a file. -/
  | notADirectory
  /-- A folder stands where a file is needed. -/
  | isADirectory
  /-- Something already stands there. -/
  | alreadyExists
  /-- The file may not be executed. -/
  | permissionDenied
  /-- The file does not say what reads it. -/
  | notExecutable
  /-- The way to what reads the file does not end. -/
  | tooManyLinks
  /-- The content is no text. -/
  | notText
  /-- The path holds the character NUL. -/
  | nulInPath
  /-- A program or an argument holds the character NUL. -/
  | nulInArgument
  /-- A name of the path, or all of it, is too long. -/
  | nameTooLong
  /-- An empty path has no absolute form. -/
  | emptyPath
  deriving DecidableEq, Repr

/-- What the system says about a cause. -/
def Cause.message : Cause → String
  | .notFound => "No such file or directory (os error 2)"
  | .notADirectory => "Not a directory (os error 20)"
  | .isADirectory => "Is a directory (os error 21)"
  | .alreadyExists => "File exists (os error 17)"
  | .permissionDenied => "Permission denied (os error 13)"
  | .notExecutable => "Exec format error (os error 8)"
  | .tooManyLinks => "Too many levels of symbolic links (os error 40)"
  | .notText => "stream did not contain valid UTF-8"
  | .nulInPath => "file name contained an unexpected NUL byte"
  | .nulInArgument => "nul byte found in provided data"
  | .nameTooLong => "File name too long (os error 36)"
  | .emptyPath => "cannot make an empty path absolute"

/-- The names from the root to a place on the disk.

Names are texts here, though a system allows other bytes in them.  A program that lists a folder skips an entry whose
name is no text, and where it does so there is nothing to skip here. -/
abbrev Location := List String

/-- What stands at a location. -/
inductive Entry
  /-- A folder. -/
  | folder
  /-- A file with its content. -/
  | file (content : ByteArray) (executable : Bool)

instance : DecidableEq Entry
  | .folder, .folder => isTrue rfl
  | .folder, .file _ _ => isFalse nofun
  | .file _ _, .folder => isFalse nofun
  | .file c x, .file d y =>
    if h : c.data = d.data ∧ x = y then isTrue (by rw [ByteArray.ext h.1, h.2])
    else isFalse fun e => h (by injection e with hc hx; rw [hc]; exact ⟨rfl, hx⟩)

/-- A tree of folders and files. -/
structure Disk where
  /-- The working folder, where paths without a slash in front start. -/
  home : Location
  /-- What stands where.  The root itself is always a folder and has no entry. -/
  entries : List (Location × Entry)
  deriving DecidableEq

namespace Disk

/-! ## Entries -/

/-- What stands at a location. -/
def get? (d : Disk) (l : Location) : Option Entry :=
  if l = [] then some .folder else d.entries.lookup l

/-- Puts an entry into a list of entries, in the place of the one at the same location. -/
def putEntry (l : Location) (e : Entry) : List (Location × Entry) → List (Location × Entry)
  | [] => [(l, e)]
  | (k, f) :: rest => if k = l then (l, e) :: rest else (k, f) :: putEntry l e rest

/-- The disk with `e` at location `l`. -/
def put (d : Disk) (l : Location) (e : Entry) : Disk :=
  { d with entries := putEntry l e d.entries }

/-- The disk with nothing at location `l`. -/
def erase (d : Disk) (l : Location) : Disk :=
  { d with entries := d.entries.filter fun p => p.1 ≠ l }

theorem lookup_putEntry_self (l : Location) (e : Entry) (es : List (Location × Entry)) :
    (putEntry l e es).lookup l = some e := by
  induction es with
  | nil => simp [putEntry]
  | cons p rest ih =>
    obtain ⟨k, f⟩ := p
    rw [putEntry]
    split
    · simp
    · rename_i h
      simp [List.lookup_cons, beq_false_of_ne (Ne.symm h), ih]

theorem lookup_putEntry_of_ne {l m : Location} (h : m ≠ l) (e : Entry)
    (es : List (Location × Entry)) : (putEntry l e es).lookup m = es.lookup m := by
  induction es with
  | nil => simp [putEntry, List.lookup_cons, beq_false_of_ne h]
  | cons p rest ih =>
    obtain ⟨k, f⟩ := p
    rw [putEntry]
    split
    · rename_i hk
      subst hk
      simp [List.lookup_cons, beq_false_of_ne h]
    · simp [List.lookup_cons, ih]

@[simp] theorem home_put (d : Disk) (l : Location) (e : Entry) : (d.put l e).home = d.home := rfl

theorem get?_put_self (d : Disk) {l : Location} (h : l ≠ []) (e : Entry) :
    (d.put l e).get? l = some e := by
  simp [get?, put, h, lookup_putEntry_self]

theorem get?_put_of_ne (d : Disk) {l m : Location} (h : m ≠ l) (e : Entry) :
    (d.put l e).get? m = d.get? m := by
  simp [get?, put, lookup_putEntry_of_ne h]

theorem lookup_filter_self (l : Location) (es : List (Location × Entry)) :
    (es.filter fun p => p.1 ≠ l).lookup l = none := by
  induction es with
  | nil => rfl
  | cons p rest ih =>
    obtain ⟨k, f⟩ := p
    by_cases hk : k = l
    · simpa [hk] using ih
    · rw [List.filter_cons_of_pos (by simpa using hk), List.lookup_cons,
        beq_false_of_ne (Ne.symm hk)]
      exact ih

theorem lookup_filter_of_ne {l m : Location} (h : m ≠ l) (es : List (Location × Entry)) :
    (es.filter fun p => p.1 ≠ l).lookup m = es.lookup m := by
  induction es with
  | nil => rfl
  | cons p rest ih =>
    obtain ⟨k, f⟩ := p
    by_cases hk : k = l
    · subst hk
      simpa [List.lookup_cons, beq_false_of_ne h] using ih
    · simp only [ne_eq, decide_not] at ih
      simp [hk, List.lookup_cons, ih]

theorem get?_erase_self (d : Disk) {l : Location} (h : l ≠ []) : (d.erase l).get? l = none := by
  simpa [get?, erase, h] using lookup_filter_self l d.entries

theorem get?_erase_of_ne (d : Disk) {l m : Location} (h : m ≠ l) :
    (d.erase l).get? m = d.get? m := by
  simpa [get?, erase] using congrArg (if m = [] then some .folder else ·) (lookup_filter_of_ne h d.entries)

/-- The entries directly inside a folder, with their names, in the order of the listing. -/
def children (d : Disk) (l : Location) : List (String × Entry) :=
  d.entries.filterMap fun (k, e) =>
    if k ≠ [] ∧ k.dropLast = l then k.getLast?.map fun name => (name, e) else none

/-! ## Following a path -/

/-- Follows steps from a location.  Each step starts from a folder; the last one may lead to where
nothing stands. -/
def walk (d : Disk) : Location → List String → Except Cause Location
  | here, [] => .ok here
  | here, step :: rest =>
    match d.get? here with
    | none => .error .notFound
    | some (.file _ _) => .error .notADirectory
    | some .folder =>
      if step = "." then walk d here rest
      else if step = ".." then walk d here.dropLast rest
      else if 255 < step.utf8ByteSize then .error .nameTooLong
      else walk d (here ++ [step]) rest

/-- The location that a path leads to.  Its folder exists, but nothing need stand there. -/
def locate (d : Disk) (p : Path) : Except Cause Location :=
  if p.text.toList.contains '\x00' then .error .nulInPath
  else if p.text.isEmpty then .error .notFound
  else if 4096 ≤ p.text.utf8ByteSize then .error .nameTooLong
  else d.walk (if p.isRooted then [] else d.home) p.steps

/-- The entry that a path leads to. -/
def find (d : Disk) (p : Path) : Except Cause Entry := do
  let l ← d.locate p
  match d.get? l with
  | none => .error .notFound
  | some (.file content executable) =>
    if p.namesFolder then .error .notADirectory else .ok (.file content executable)
  | some .folder => .ok .folder

/-- Whether a path leads to a file. -/
def isFile (d : Disk) (p : Path) : Bool :=
  match d.find p with
  | .ok (.file _ _) => true
  | _ => false

/-- Whether a path leads to a folder. -/
def isFolder (d : Disk) (p : Path) : Bool :=
  match d.find p with
  | .ok .folder => true
  | _ => false

/-! ## Reading -/

/-- The content of a file. -/
def readBytes (d : Disk) (p : Path) : Except Cause ByteArray := do
  match ← d.find p with
  | .folder => .error .isADirectory
  | .file content _ => .ok content

/-- The text of a file. -/
def readText (d : Disk) (p : Path) : Except Cause String := do
  match String.fromUTF8? (← d.readBytes p) with
  | some s => .ok s
  | none => .error .notText

/-- The entries of a folder with their names, in the order in which the system lists them. -/
def list (d : Disk) (p : Path) : Except Cause (List (String × Entry)) := do
  match ← d.find p with
  | .file _ _ => .error .notADirectory
  | .folder => return d.children (← d.locate p)

/-! ## Writing -/

/-- Writes a file, in the place of one that is there already; that one keeps its permission to be
executed. -/
def writeBytes (d : Disk) (p : Path) (content : ByteArray) : Except Cause Disk := do
  let l ← d.locate p
  if p.namesFolder then .error .isADirectory
  else
    match d.get? l with
    | some .folder => .error .isADirectory
    | some (.file _ executable) => .ok (d.put l (.file content executable))
    | none => .ok (d.put l (.file content false))

/-- Writes a file that holds a text. -/
def writeText (d : Disk) (p : Path) (s : String) : Except Cause Disk :=
  d.writeBytes p s.toUTF8

/-- Adds to the end of a file, which is created if need be. -/
def appendBytes (d : Disk) (p : Path) (content : ByteArray) : Except Cause Disk := do
  match d.readBytes p with
  | .ok before => d.writeBytes p (before ++ content)
  | .error _ => d.writeBytes p content

/-- Removes a file. -/
def removeFile (d : Disk) (p : Path) : Except Cause Disk := do
  match ← d.find p with
  | .folder => .error .isADirectory
  | .file _ _ => return d.erase (← d.locate p)

/-- Creates one folder in a folder that exists. -/
def createFolder (d : Disk) (p : Path) : Except Cause Disk := do
  let l ← d.locate p
  match d.get? l with
  | some _ => .error .alreadyExists
  | none => .ok (d.put l .folder)

/-- The disk after a change; if the change fails, the disk as it was and the failure. -/
def outcome (d : Disk) : Except Cause Disk → Except Cause Unit × Disk
  | .ok after => (.ok (), after)
  | .error cause => (.error cause, d)

/-- Makes sure that there is a folder where steps lead to. -/
def ensureFolder (d : Disk) (start : Location) (steps : List String) : Except Cause Disk := do
  let l ← d.walk start steps
  match d.get? l with
  | some .folder => .ok d
  | some (.file _ _) => .error .alreadyExists
  | none => .ok (d.put l .folder)

/-- Makes sure that there is a folder where steps lead to.  If something on the way is missing,
`prepare` is done before, and what it has done stays. -/
def ensureAfter (d : Disk) (start : Location) (steps : List String)
    (prepare : Disk → Except Cause Unit × Disk) : Except Cause Unit × Disk :=
  match d.ensureFolder start steps with
  | .error .notFound =>
    match prepare d with
    | (.ok (), d) => d.outcome (d.ensureFolder start steps)
    | failed => failed
  | result => d.outcome result

/-- Makes sure that there is a folder where steps lead to, and at every place on the way.  The steps
are given from the last one to the first. -/
def createSteps (d : Disk) (start : Location) : List String → Except Cause Unit × Disk
  | [] => (.ok (), d)
  | last :: before =>
    d.ensureAfter start (last :: before).reverse fun d => createSteps d start before

/-- Creates a folder together with the folders on the way to it; a folder that exists is left as it
is, and what was created before a failure stays.  A step `.` names no folder of its own: at the end of
a path, the folder before it is taken for the one to create and must be there. -/
def createFolders (d : Disk) (p : Path) : Except Cause Unit × Disk :=
  let start := if p.isRooted then [] else d.home
  if p.text.toList.contains '\x00' then (.error .nulInPath, d)
  else if 4096 ≤ p.text.utf8ByteSize then (.error .nameTooLong, d)
  else
    d.ensureAfter start p.steps fun d =>
      d.createSteps start ((p.steps.filter (· ≠ ".")).reverse.drop 1)

/-- Sets whether a file may be executed. -/
def setExecutable (d : Disk) (p : Path) (executable : Bool) : Except Cause Disk := do
  match ← d.find p with
  | .folder => .error .isADirectory
  | .file content _ => return d.put (← d.locate p) (.file content executable)

/-- Removes a file, or a folder with all that is below it. -/
def removeAll (d : Disk) (p : Path) : Except Cause Disk := do
  let _ ← d.find p
  let l ← d.locate p
  return { d with entries := d.entries.filter fun e => !l.isPrefixOf e.1 }

end Disk

end CheckerTrials
