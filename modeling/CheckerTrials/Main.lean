import CheckerTrials.CommandLine.Perform
import CheckerTrials.Json.Decode
import CheckerTrials.Shell.Programs

/-!
# The program

The program does one task, and reads and writes JSON with the library that rounds once.  It reads the working
folder, and the folders and files outside of it that the command line names, does the task on what it has read, and
writes what has changed.  Notes go to the error output.
-/

set_option autoImplicit false

namespace CheckerTrials.Program

/-- The entries of a folder and of everything below it. -/
partial def readFolder (folder : Location) (listing : Array IO.FS.DirEntry) :
    IO (List (Location × Entry)) := do
  let mut found : List (Location × Entry) := []
  for e in listing do
    let location := folder ++ [e.fileName]
    if ← e.path.isDir then
      found := found ++ (location, .folder) :: (← readFolder location (← e.path.readDir))
    else
      let content ← IO.FS.readBinFile e.path
      found := found ++ [(location, .file content (Shell.namesInterpreter content))]
  return found

/-- What stands at a path of the system, and below it, and on the way to it. -/
def readPath (path : String) : IO (List (Location × Entry)) := do
  try
    let real ← IO.FS.realPath path
    let location := Path.steps ⟨real.toString⟩
    let way := (List.range location.length).map fun n => (location.take n, Entry.folder)
    if ← real.isDir then
      return way ++ (location, .folder) :: (← readFolder location (← real.readDir))
    else
      let content ← IO.FS.readBinFile real
      return way ++ [(location, .file content (Shell.namesInterpreter content))]
  catch _ => return []

/-- The paths that a task reads or writes. -/
def pathsOf : Task → List Path
  | .run o => o.output :: o.trials.config.toList
  | .summarize results output _ o => results :: output.toList ++ o.config.toList
  | .compare columns output _ o => output :: columns.map (·.2) ++ o.config.toList
  | .collect results output config => results :: output :: config.toList
  | .evaluate document _ output => document :: output.toList
  | .series results output o => results :: output :: o.config.toList
  | .partition _ _ => []

/-- The disk that a task works on. -/
def readDisk (task : Task) : IO Disk := do
  let here := (← IO.currentDir).toString
  let outside := (pathsOf task).filter fun p => p.isRooted || p.steps.contains ".."
  let mut entries ← readPath here
  for p in outside do
    for (location, e) in ← readPath p.text do
      unless entries.any fun known => known.1 == location do entries := entries ++ [(location, e)]
  return { home := Path.steps ⟨here⟩, entries := entries.filter fun e => e.1 ≠ [] }

/-- Writes what has changed. -/
def writeChanges (before after : Disk) : IO Unit := do
  for (location, e) in after.entries do
    unless before.get? location = some e do
      match e with
      | .folder => IO.FS.createDirAll (Path.ofSteps location)
      | .file content _ => IO.FS.writeBinFile (Path.ofSteps location) content
  for (location, e) in before.entries do
    if (after.get? location).isNone then
      match e with
      | .folder => pure ()
      | .file _ _ => IO.FS.removeFile (Path.ofSteps location)

/-- A note as it is shown. -/
def noteLine (n : Note) : String :=
  match n.level with
  | .info => "INFO " ++ n.text
  | .warning => "WARN " ++ n.text
  | .error => "ERROR " ++ n.text

/-- Does a task and tells the exit code. -/
def perform (task : Task) : IO UInt32 := do
  let before ← readDisk task
  let done := (task.perform Shell.execute).on before
  writeChanges before done.disk
  for n in done.notes do IO.eprintln (noteLine n)
  match done.result with
  | .ok shown =>
    IO.print shown
    return 0
  | .error e =>
    IO.eprintln ("ERROR " ++ e.message)
    return 1

end CheckerTrials.Program

/-- Does what the command line asks for. -/
def main (arguments : List String) : IO UInt32 :=
  match CheckerTrials.Task.read arguments with
  | .ok task => CheckerTrials.Program.perform task
  | .error e => do
    IO.eprintln e.message
    return 2
