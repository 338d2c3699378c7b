import ComponentBuild.CommandLine.Arguments

/-!
Which part of a disk a command reaches, and how two disks differ.
-/

namespace ComponentBuild

def Config.reach (c : Config) : List Path :=
  [c.projectPath, c.sourceDir] ++ c.outputDir.toList ++ c.typeDestinations

def ProjectChoice.configFiles (p : ProjectChoice) (cwd : Path) : List Path :=
  let root := cwd.resolve (p.root.getD ⟨"."⟩)
  [(p.configFile.map cwd.resolve).getD (root.child Config.fileName)]

namespace Disk

inductive Edit where
  | makeDir (place : Place)
  | writeFile (place : Place) (content : String)
  | removeFile (place : Place)
  | removeDir (place : Place)
  deriving DecidableEq, Repr

def put? (old : Disk) (place : Place) (entry : DiskEntry) : Option Edit :=
  if old.entries.get? place = some entry then none
  else
    match entry with
    | .dir => some (.makeDir place)
    | .file content => some (.writeFile place content)

def remove? (new : Disk) (place : Place) (entry : DiskEntry) : Option Edit :=
  if new.entries.contains place then none
  else
    match entry with
    | .dir => some (.removeDir place)
    | .file _ => some (.removeFile place)

/-- The edits that lead from one disk to another: what is new from the root on,
then what is gone from the leaves on. -/
def edits (old new : Disk) : List Edit :=
  (new.entries.entries.filterMap fun (place, entry) => old.put? place entry)
    ++ (old.entries.entries.reverse.filterMap fun (place,
      entry) => new.remove? place entry)

def placesTo (path : Path) : List Place :=
  let place := names path.normalize
  (List.range place.length).map fun k => place.take (k + 1)

end Disk

end ComponentBuild
