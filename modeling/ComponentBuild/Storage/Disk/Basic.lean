import ComponentBuild.Storage.Basic

/-!
A disk with the semantics of POSIX paths.

A disk holds files and directories by place, that is by the names on the way
from the root.  A path is followed name by name; `..` leaves the directory that
was reached, and every place that is passed has to be a directory.  Queries
refuse in the words of the operating system.
-/

namespace ComponentBuild

inductive DiskError where
  | missing
  | busy
  | alreadyThere
  | notDir
  | isDir
  | invalid
  | nameTooLong
  | notEmpty
  /-- A path that holds the character with number zero. -/
  | nulInPath
  | noWholeTree
  deriving DecidableEq, Repr

namespace DiskError

def text : DiskError → String
  | missing => "No such file or directory (os error 2)"
  | busy => "Device or resource busy (os error 16)"
  | alreadyThere => "File exists (os error 17)"
  | notDir => "Not a directory (os error 20)"
  | isDir => "Is a directory (os error 21)"
  | invalid => "Invalid argument (os error 22)"
  | nameTooLong => "File name too long (os error 36)"
  | notEmpty => "Directory not empty (os error 39)"
  | nulInPath => "file name contained an unexpected NUL byte"
  | noWholeTree => "failed to create whole tree"

def toFailure : DiskError → SystemFailure
  | missing => .missing
  | e => .other e.text

def onPath (e : DiskError) (path : Path) : StorageError :=
  .ofFailure path e.toFailure

end DiskError

abbrev Place := List String

def placeText (place : Place) : String :=
  "/" ++ "/".intercalate place

inductive DiskEntry where
  | file (content : String)
  | dir
  deriving DecidableEq, Repr

structure Disk where
  entries : SortedMap Place DiskEntry := ∅
  here : Place := []
  deriving DecidableEq, Repr

namespace Disk

def empty : Disk := {}

def entry? (d : Disk) (place : Place) : Option DiskEntry :=
  if place.isEmpty then some .dir else d.entries.get? place

def isDirAt (d : Disk) (place : Place) : Bool :=
  d.entry? place == some .dir

/-! ## Following a path -/

/-- A name may have 255 bytes, and a path 4095. -/
def nameLimit : Nat := 255
def pathLimit : Nat := 4095

def names (path : Path) : List String :=
  path.segments.filter (· != "")

def step (d : Disk) (place : Place) (name : String) : Except DiskError Place :=
  match d.entry? place with
  | none => .error .missing
  | some (.file _) => .error .notDir
  | some .dir =>
      if name = "." then .ok place
      else if name = ".." then .ok place.dropLast
      else if nameLimit < name.utf8ByteSize then .error .nameTooLong
      else .ok (place ++ [name])

def start (d : Disk) (path : Path) : Place :=
  if path.isAbsolute then [] else d.here

def hasNul (path : Path) : Bool :=
  path.text.toList.contains '\x00'

/-- Paths that cannot be followed at all are refused first. -/
def checked (path : Path) : Except DiskError Unit :=
  if hasNul path then .error .nulInPath
  else if path.isEmpty then .error .missing
  else if pathLimit < path.text.utf8ByteSize then .error .nameTooLong
  else .ok ()

def endsInSlash (path : Path) : Bool :=
  path.text.toList.getLast? == some '/'

def find (d : Disk) (path : Path) : Except DiskError (Place × DiskEntry) := do
  checked path
  let place ← (names path).foldlM d.step (d.start path)
  match d.entry? place with
  | none => .error .missing
  | some .dir => pure (place, .dir)
  | some (.file content) =>
      if endsInSlash path then .error .notDir else pure (place, .file content)

/-- The directory in which a path names its last entry, and the last name;
without a name for the root. -/
def findParent (d : Disk) (path : Path) :
    Except DiskError (Place × Option String) := do
  checked path
  let parent ← (names path).dropLast.foldlM d.step (d.start path)
  match d.entry? parent with
  | none => .error .missing
  | some (.file _) => .error .notDir
  | some .dir => pure (parent, (names path).getLast?)

/-- The place of the last entry in its directory.  The root, `.` and `..` are
refused with `refused`. -/
def findTarget (d : Disk) (path : Path) (refused : DiskError) :
    Except DiskError Place := do
  let (parent, name?) ← d.findParent path
  match name? with
  | none => .error refused
  | some name =>
      if name = "." ∨ name = ".." then .error refused
      else if nameLimit < name.utf8ByteSize then .error .nameTooLong
      else pure (parent ++ [name])

/-! ## Queries -/

def readText (d : Disk) (path : Path) : Except DiskError String := do
  match ← d.find path with
  | (_, .file content) => pure content
  | (_, .dir) => .error .isDir

def isPresent (d : Disk) (path : Path) : Bool :=
  match d.find path with
  | .ok _ => true
  | .error _ => false

def isDir (d : Disk) (path : Path) : Bool :=
  match d.find path with
  | .ok (_, .dir) => true
  | _ => false

def isFile (d : Disk) (path : Path) : Bool :=
  match d.find path with
  | .ok (_, .file _) => true
  | _ => false

def below (d : Disk) (place : Place) : List (Place × DiskEntry) :=
  d.entries.entries.filter fun (p, _) => place.isPrefixOf p && place != p

def hasEntries (d : Disk) (place : Place) : Bool :=
  !(d.below place).isEmpty

def findDir (d : Disk) (path : Path) : Except DiskError Place := do
  match ← d.find path with
  | (place, .dir) => pure place
  | (_, .file _) => .error .notDir

end Disk

end ComponentBuild
