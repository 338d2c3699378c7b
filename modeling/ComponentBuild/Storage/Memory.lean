import ComponentBuild.Storage.Basic

/-!
Storage in memory.

It holds files by path and the directories known so far: all ancestors of what
was ever written. Paths may be marked as failing; reading or changing such a
path is denied.  The writes that reached a file are counted.
-/

namespace ComponentBuild

structure MemoryStore where
  files : SortedMap Path String := ∅
  dirs : SortedSet Path := ∅
  failing : SortedSet Path := ∅
  writes : Nat := 0
  deriving DecidableEq, Repr

namespace MemoryStore

def empty : MemoryStore := {}

def levels (dir : Path) : List Path :=
  dir.ancestors.takeWhile fun p => !p.isEmpty

def addLevels (s : MemoryStore) (dir : Path) : MemoryStore :=
  { s with dirs := s.dirs.addAll (levels dir) }

def addParents (s : MemoryStore) (path : Path) : MemoryStore :=
  match path.parent with
  | some dir => s.addLevels dir
  | none => s

/-- Puts a file in place without counting a write. -/
def insert (s : MemoryStore) (path : Path) (content : String) : MemoryStore :=
  let s := s.addParents path
  { s with files := s.files.insert path content }

def failOn (s : MemoryStore) (path : Path) : MemoryStore :=
  { s with failing := s.failing.add path }

def get? (s : MemoryStore) (path : Path) : Option String :=
  s.files.get? path

def guarded {α : Type} (s : MemoryStore) (path : Path)
    (run : Except StorageError α) :
    Except StorageError α :=
  if s.failing.contains path then .error (.denied path) else run

def read (s : MemoryStore) (path : Path) : Except StorageError String :=
  s.guarded path <|
    match s.files.get? path with
    | some content => .ok content
    | none => .error (.missing path)

def isPresent (s : MemoryStore) (path : Path) : Bool :=
  s.files.contains path || s.dirs.contains path

def isRoot (path : Path) : Bool :=
  path.isAbsolute && path.parent.isNone

def isDir (s : MemoryStore) (path : Path) : Bool :=
  isRoot path || s.dirs.contains path

def isChild (dir p : Path) : Bool :=
  match p.parent with
  | some parent => parent.same dir
  | none => false

def isDirEmpty (s : MemoryStore) (path : Path) : Except StorageError Bool :=
  if s.dirs.contains path then
    .ok (!(s.files.keys.any (isChild path) || s.dirs.toList.any (isChild path)))
  else .error (.missing path)

def findFiles (s : MemoryStore) (dir : Path) (ending : String) :
    Except StorageError (List Path) :=
  if s.dirs.contains dir then
    .ok (s.files.keys.filter fun p => p.isWithin dir && p.endsWith ending)
  else .error (.missing dir)

def changed (s : MemoryStore) (path : Path)
    (run : Except StorageError MemoryStore) :
    Except StorageError Unit × MemoryStore :=
  match s.guarded path run with
  | .ok s' => (.ok (), s')
  | .error e => (.error e, s)

def write (s : MemoryStore) (path : Path) (content : String) :
    Except StorageError Unit × MemoryStore :=
  s.changed path (.ok { s.insert path content with writes := s.writes + 1 })

def removeFile (s : MemoryStore) (path : Path) :
    Except StorageError Unit × MemoryStore :=
  s.changed path <|
    if s.files.contains path then .ok { s with files := s.files.erase path }
    else .error (.missing path)

def createDirs (s : MemoryStore) (path : Path) :
    Except StorageError Unit × MemoryStore :=
  s.changed path (.ok (s.addLevels path))

def removeDir (s : MemoryStore) (path : Path) :
    Except StorageError Unit × MemoryStore :=
  match s.isDirEmpty path with
  | .error e => (.error e, s)
  | .ok false => (.error (.notEmpty path), s)
  | .ok true => s.changed path (.ok { s with dirs := s.dirs.erase path })

instance : Storage MemoryStore where
  read := read
  isPresent := isPresent
  isDir := isDir
  isDirEmpty := isDirEmpty
  findFiles := findFiles
  write := write
  removeFile := removeFile
  createDirs := createDirs
  removeDir := removeDir

end MemoryStore

end ComponentBuild
