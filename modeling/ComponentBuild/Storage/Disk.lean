import ComponentBuild.Storage.Disk.Search

/-!
Storage on a disk.

Changes of a disk take effect one entry at a time and refuse in the words of the
operating system.
-/

namespace ComponentBuild

namespace Disk

/-! ## Changes -/

def put (d : Disk) (place : Place) (entry : DiskEntry) : Disk :=
  { d with entries := d.entries.insert place entry }

def drop (d : Disk) (place : Place) : Disk :=
  { d with entries := d.entries.erase place }

def createDir (d : Disk) (path : Path) : Except DiskError Disk := do
  let place ← d.findTarget path .alreadyThere
  match d.entry? place with
  | some _ => .error .alreadyThere
  | none => pure (d.put place .dir)

def createLevels : List Path → Disk → Except DiskError Unit × Disk
  | [], d => (.error .noWholeTree, d)
  | path :: above, d =>
      let settle (d : Disk) : Except DiskError Unit × Disk :=
        match d.createDir path with
        | .ok d => (.ok (), d)
        | .error e => if d.isDir path then (.ok (), d) else (.error e, d)
      if path.isEmpty then (.ok (), d)
      else
        match d.createDir path with
        | .error .missing =>
            match createLevels above d with
            | (.ok (), d) => settle d
            | (.error e, d) => (.error e, d)
        | _ => settle d

def createDirs (d : Disk) (path : Path) : Except DiskError Unit × Disk :=
  createLevels path.ancestors d

def moveInto (d : Disk) (path : Path) (content : String) :
    Except DiskError Disk := do
  if hasNul path then .error .invalid
  let place ← d.findTarget path .busy
  if endsInSlash path then .error .notDir
  match d.entry? place with
  | some .dir => .error .isDir
  | _ => pure (d.put place (.file content))

/-- Writes a file beside its place and moves it there, so that no reader sees a
part of it. -/
def write (d : Disk) (path : Path) (content : String) :
    Except StorageError Unit × Disk :=
  let parent := match path.parent with
    | some dir => if dir.isEmpty then ⟨"."⟩ else dir
    | none => ⟨"."⟩
  match d.createDirs parent with
  | (.error e, d) => (.error (e.onPath parent), d)
  | (.ok (), d) =>
      match d.moveInto path content with
      | .ok d => (.ok (), d)
      | .error e => (.error (e.onPath path), d)

def unlink (d : Disk) (path : Path) : Except DiskError Disk := do
  let place ← d.findTarget path .isDir
  match d.entry? place with
  | none => .error .missing
  | some .dir => .error .isDir
  | some (.file _) =>
      if endsInSlash path then .error .notDir else pure (d.drop place)

def removeEmptyDir (d : Disk) (path : Path) : Except DiskError Disk := do
  let (parent, name?) ← d.findParent path
  match name? with
  | none => .error .busy
  | some "." => .error .invalid
  | some ".." => .error .notEmpty
  | some name =>
      let place := parent ++ [name]
      match d.entry? place with
      | none => .error .missing
      | some (.file _) => .error .notDir
      | some .dir =>
          if d.hasEntries place then .error .notEmpty else pure (d.drop place)

def outcome (d : Disk) (path : Path) (changed : Except DiskError Disk) :
    Except StorageError Unit × Disk :=
  match changed with
  | .ok d => (.ok (), d)
  | .error e => (.error (e.onPath path), d)

def isDirEmpty (d : Disk) (path : Path) : Except StorageError Bool :=
  ((d.findDir path).map fun place => !d.hasEntries place).mapError (·.onPath path)

def removeDir (d : Disk) (path : Path) : Except StorageError Unit × Disk :=
  match d.isDirEmpty path with
  | .error e => (.error e, d)
  | .ok false => (.error (.notEmpty path), d)
  | .ok true => d.outcome path (d.removeEmptyDir path)

instance : Storage Disk where
  read d path := (d.readText path).mapError (·.onPath path)
  isPresent := isPresent
  isDir := isDir
  isDirEmpty := isDirEmpty
  findFiles := findFiles
  write := write
  removeFile d path := d.outcome path (d.unlink path)
  createDirs d path :=
    let (result, d) := d.createDirs path
    (result.mapError (·.onPath path), d)
  removeDir := removeDir

end Disk

end ComponentBuild
