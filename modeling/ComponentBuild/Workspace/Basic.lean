import ComponentBuild.Path.Normal
import ComponentBuild.Storage.Basic

/-!
A workspace: storage together with changes that wait for a commit and contents
that were read.

All paths are normalized.  A staged change hides what storage holds at its path
until it is committed; a later change of the same path replaces it.
-/

namespace ComponentBuild

inductive Change where
  | write (content : String)
  | removeFile
  | addDir
  | removeDir
  deriving DecidableEq, Repr

structure Workspace (σ : Type) where
  storage : σ
  cache : SortedMap Path String := ∅
  pending : SortedMap Path Change := ∅

structure WriteOutcome where
  /-- The content differs from what was there to read before. -/
  changed : Bool
  queued : Bool
  deriving DecidableEq, Repr

structure MemoryUse where
  cachedFiles : Nat
  cachedBytes : Nat
  stagedChanges : Nat
  stagedBytes : Nat
  deriving DecidableEq, Repr

def MemoryUse.display (m : MemoryUse) : String :=
  "cached " ++ toString m.cachedFiles ++ " files (" ++ toString m.cachedBytes ++
    " bytes), staged "
    ++ toString m.stagedChanges ++ " ops (" ++ toString m.stagedBytes ++ " bytes)"

def MemoryUse.debug (m : MemoryUse) : String :=
  "MemoryStats \x7b cached_files: " ++ toString m.cachedFiles ++
    ", cached_bytes: "
    ++ toString m.cachedBytes ++ ", staged_ops: " ++ toString m.stagedChanges
    ++ ", staged_bytes: " ++ toString m.stagedBytes ++ " \x7d"

namespace Workspace

variable {σ : Type}

def ofStorage (storage : σ) : Workspace σ := { storage }

/-! ## Staging -/

/-- Stages a change of a normal path and forgets what was read there. -/
def stageAt (w : Workspace σ) (path : Path) (change : Change) : Workspace σ :=
  { w with cache := w.cache.erase path, pending := w.pending.insert path change }

def stage (w : Workspace σ) (path : Path) (change : Change) : Workspace σ :=
  w.stageAt path.normalize change

def stageWrite (w : Workspace σ) (path : Path) (content : String) : Workspace σ :=
  w.stage path (.write content)

def stageRemove (w : Workspace σ) (path : Path) : Workspace σ :=
  w.stage path .removeFile

def stageAddDir (w : Workspace σ) (path : Path) : Workspace σ :=
  w.stage path .addDir

def stageRemoveDir (w : Workspace σ) (path : Path) : Workspace σ :=
  w.stage path .removeDir

def pending? (w : Workspace σ) (path : Path) : Option Change :=
  w.pending.get? path.normalize

def hasPending (w : Workspace σ) : Bool :=
  !w.pending.isEmpty

def clearFileCache (w : Workspace σ) (path : Path) : Workspace σ :=
  { w with cache := w.cache.erase path.normalize }

def clearCache (w : Workspace σ) : Workspace σ :=
  { w with cache := ∅ }

def memoryUse (w : Workspace σ) : MemoryUse where
  cachedFiles := w.cache.size
  cachedBytes := (w.cache.values.map (·.utf8ByteSize)).foldr (· + ·) 0
  stagedChanges := w.pending.size
  stagedBytes := (w.pending.values.map fun
    | .write content => content.utf8ByteSize
    | _ => 0).foldr (· + ·) 0

def debug (w : Workspace σ) : String :=
  "VirtualFs \x7b stats: " ++ w.memoryUse.debug ++ " \x7d"

/-! ## Reading -/

variable [Storage σ]

/-- What can be known of a file's content without asking storage. -/
def known? (w : Workspace σ) (path : Path) :
    Option (Except StorageError String) :=
  match w.pending.get? path with
  | some (.write content) => some (.ok content)
  | some .removeFile => some (.error (.missing path))
  | _ => (w.cache.get? path).map .ok

/-- The content that the workspace shows at a normal path.  What storage answers
is kept. -/
def readAt (w : Workspace σ) (path : Path) :
    Except StorageError String × Workspace σ :=
  match w.known? path with
  | some result => (result, w)
  | none =>
      match Storage.read w.storage path with
      | .ok content =>
          (.ok content, { w with cache := w.cache.insert path content })
      | .error e => (.error e, w)

def fetch (w : Workspace σ) (path : Path) :
    Except StorageError String × Workspace σ :=
  w.readAt path.normalize

/-! ## Writing -/

/-- An immediate write reaches storage if the content differs from the one shown
or nothing is there, and replaces any staged change of the path. -/
def writeThrough (w : Workspace σ) (path : Path) (content : String)
    (changed : Bool) :
    Except StorageError WriteOutcome × Workspace σ :=
  let done (storage : σ) : Workspace σ :=
    { storage, cache := w.cache.insert path content,
      pending := w.pending.erase path }
  if changed || !Storage.isPresent w.storage path then
    match Storage.write w.storage path content with
    | (.ok (), storage) => (.ok ⟨changed, false⟩, done storage)
    | (.error e, storage) => (.error e, { w with storage })
  else (.ok ⟨changed, false⟩, done w.storage)

def writeFile (w : Workspace σ) (path : Path) (content : String)
    (immediate : Bool) :
    Except StorageError WriteOutcome × Workspace σ :=
  let path := path.normalize
  let (existing, w) := w.readAt path
  let changed := match existing with
    | .ok text => text != content
    | .error _ => true
  if immediate then w.writeThrough path content changed
  else (.ok ⟨changed, true⟩, w.stageAt path (.write content))

/-! ## The view of the tree with staged changes in place -/

def isPresent (w : Workspace σ) (path : Path) : Bool :=
  match w.pending? path with
  | some (.write _) | some .addDir => true
  | some .removeFile | some .removeDir => false
  | none => Storage.isPresent w.storage path.normalize

def isDir (w : Workspace σ) (path : Path) : Bool :=
  match w.pending? path with
  | some .addDir => true
  | some _ => false
  | none => Storage.isDir w.storage path.normalize

def isDirEmpty (w : Workspace σ) (path : Path) : Except StorageError Bool :=
  Storage.isDirEmpty w.storage path.normalize

def findFiles (w : Workspace σ) (dir : Path) (ending : String) :
    Except StorageError (List Path) :=
  let dir := dir.normalize
  let stored : Except StorageError (List Path) :=
    match Storage.findFiles w.storage dir ending with
    | .ok found => .ok found
    | .error e => if e.isMissing then .ok [] else .error e
  stored.map fun found =>
    let kept := found.filter fun p => w.pending.get? p != some .removeFile
    let staged := w.pending.entries.filterMap fun
      | (p, .write _) =>
          if p.isWithin dir && p.endsWith ending && !kept.any p.same then some p
            else none
      | _ => none
    Path.sorted (kept ++ staged)

end Workspace

end ComponentBuild
