import CloudRoster.Command.Program

/-!
# The program

The thin layer around `Command.run`: it reads the files that a run looks at, makes the directories
of its stores, shows what the run shows, and waits for the end of its input where the run waits. The
run takes place on a machine without a network, so peers are never reached.
-/

namespace CloudRoster.Command

open Storage (FileTree)

/-- Adds a file to a tree, if it can be read. -/
def readFile (files : FileTree) (path : String) : IO FileTree := do
  let .ok bytes ← (IO.FS.readBinFile path).toBaseIO | return files
  return files.addFile path bytes

/-- Adds a directory to a tree with what stands directly in it, if it is there. -/
def readDirectory (files : FileTree) (path : String) : IO FileTree := do
  let .ok place ← (IO.FS.realPath path).toBaseIO | return files
  let .ok entries ← place.readDir.toBaseIO | return files
  let mut files := (files.makeDirectory path).1
  for entry in entries do
    let under := Storage.joinPath path entry.fileName
    files ← if ← entry.path.isDir then pure (files.makeDirectory under).1
      else readFile files under
  return files

/-- The files that a run with these arguments looks at. -/
def readFiles (args : List String) : IO FileTree := do
  let .ok arguments := Arguments.ofList args | return .empty
  let files ← match arguments.config with
    | none => pure .empty
    | some path => readFile .empty path
  let .ok config := configOf arguments files | return files
  let some root := config.storeRoot? | return files
  let files ← readDirectory files (Storage.joinPath root "groups")
  readDirectory files (Storage.joinPath root "templates")

/-- Makes the directories of the stores, if the run has any and nothing is in the way. -/
def makeDirectories (args : List String) (files : FileTree) : IO Unit := do
  let .ok arguments := Arguments.ofList args | return
  let .ok config := configOf arguments files | return
  let some root := config.storeRoot? | return
  for name in ["groups", "templates"] do
    let _ ← (IO.FS.createDirAll (Storage.joinPath root name)).toBaseIO

/-- Shows a run, and gives its exit code. -/
def display (r : Run) : IO UInt32 := do
  for line in r.output do IO.println line
  for line in r.log do line.shown.forM (IO.println ·)
  for complaint in r.complaints do IO.eprintln complaint
  if r.waited then
    let _ ← (← IO.getStdin).readToEnd
    for line in r.closing do line.shown.forM (IO.println ·)
  return .ofNat r.exitCode

end CloudRoster.Command

/-- Runs the program. -/
def main (args : List String) : IO UInt32 := do
  let files ← CloudRoster.Command.readFiles args
  CloudRoster.Command.makeDirectories args files
  CloudRoster.Command.display (CloudRoster.Command.run args (← IO.getEnv "RUST_LOG") .alone files)
