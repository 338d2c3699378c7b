import ComponentBuild.CommandLine.Reach
import ComponentBuild.CommandLine.Run

/-!
The command.

It reads the part of the disk that the command may reach, runs the command on
it, writes back what changed, and prints.
-/

namespace ComponentBuild

namespace Disk

def namesIn (place : Place) : IO (List String) := do
  let dir ← IO.FS.realPath (placeText place)
  let found ← dir.readDir
  pure (found.toList.map (·.fileName))

def readEntry (d : Disk) (place : Place) : IO Disk := do
  try
    let _ ← namesIn place
    pure (d.put place .dir)
  catch _ =>
    try
      let content ← IO.FS.readFile (placeText place)
      pure (d.put place (.file content))
    catch _ => pure d

partial def readBelow (d : Disk) (place : Place) : IO Disk := do
  let found ← try namesIn place catch _ => pure []
  found.foldlM (fun d name => do
    let inner := place ++ [name]
    readBelow (← d.readEntry inner) inner) d

def readTo (d : Disk) (path : Path) : IO Disk :=
  (placesTo path).foldlM (fun d place => do
    let d ← searchMarks.foldlM
        (fun d mark => d.readEntry (place.dropLast ++ mark)) d
    d.readEntry place) d

def Edit.perform : Edit → IO Unit
  | makeDir place => IO.FS.createDirAll (placeText place)
  | writeFile place content => IO.FS.writeFile (placeText place) content
  | removeFile place => IO.FS.removeFile (placeText place)
  | removeDir place => IO.FS.removeDir (placeText place)

end Disk

def readReach (cwd : Path) (env : Environment) (args : List String) :
    IO Disk := do
  match CommandLine.read args with
  | .error _ => pure .empty
  | .ok i =>
      let d ← (i.project.configFiles cwd).foldlM Disk.readTo .empty
      match Config.locate d cwd env i.project with
      | .error _ => pure d
      | .ok (config, _) =>
          config.reach.foldlM (fun d path => do
            (← d.readTo path).readBelow (Disk.names path.normalize)) d

def readEnvironment : IO Environment :=
  ["TERM", "HOBBES_JSON", "HOBBES_SRC_DIR",
    "HOBBES_WATCH_TIMEOUT_MS"].filterMapM fun name => do
    pure ((← IO.getEnv name).map (name, ·))

end ComponentBuild

open ComponentBuild in
def main (args : List String) : IO UInt32 := do
  let cwd : Path := ⟨(← IO.currentDir).toString⟩
  let env ← readEnvironment
  let before ← readReach cwd env args
  let outcome := CommandLine.run before cwd env args
  (before.edits outcome.disk).forM Disk.Edit.perform
  (← IO.getStdout).putStr outcome.output
  (← IO.getStderr).putStr outcome.errors
  pure outcome.code.toUInt32
