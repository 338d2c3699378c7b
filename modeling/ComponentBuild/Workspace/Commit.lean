import ComponentBuild.Text.Diff
import ComponentBuild.Workspace.Basic

/-!
Committing the staged changes of a workspace.

Changes reach storage in four rounds: missing directories are created, files are
written, files are removed, and directories are removed from the deepest up.  An
operation that fails is reported and the rest goes on; in every case nothing
stays staged.  What does not change storage is not reported.
-/

namespace ComponentBuild

inductive CommitOp where
  | createDir
  | write
  | removeFile
  | removeDir
  deriving DecidableEq, Repr

def CommitOp.label : CommitOp → String
  | createDir => "create dir"
  | write => "write"
  | removeFile => "remove file"
  | removeDir => "remove dir"

structure CommitError where
  path : Path
  op : CommitOp
  message : String
  deriving DecidableEq, Repr

def CommitError.display (e : CommitError) : String :=
  e.op.label ++ " " ++ e.path.text ++ ": " ++ e.message

structure FileChange where
  path : Path
  /-- There was no such file before. -/
  created : Bool
  diff : LineDiff
  deriving DecidableEq, Repr

structure CommitReport where
  written : List Path := []
  deleted : List Path := []
  dirsAdded : List Path := []
  dirsDeleted : List Path := []
  errors : List CommitError := []
  changes : List FileChange := []
  deriving DecidableEq, Repr

namespace CommitReport

def isEmpty (r : CommitReport) : Bool :=
  r.written.isEmpty && r.deleted.isEmpty && r.dirsAdded.isEmpty &&
  r.dirsDeleted.isEmpty
    && r.errors.isEmpty

def hasErrors (r : CommitReport) : Bool :=
  !r.errors.isEmpty

def wasWritten (r : CommitReport) (path : Path) : Bool :=
  r.written.any path.same

def fail (r : CommitReport) (path : Path) (op : CommitOp) (e : StorageError) :
    CommitReport :=
  { r with errors := r.errors ++ [⟨path, op, e.message⟩] }

def sorted (r : CommitReport) : CommitReport :=
  { r with
    written := Path.sorted r.written
    deleted := Path.sorted r.deleted
    dirsAdded := Path.sorted r.dirsAdded
    dirsDeleted := Path.sorted r.dirsDeleted }

end CommitReport

structure Commit (σ : Type) where
  storage : σ
  cache : SortedMap Path String
  report : CommitReport := {}

namespace Commit

variable {σ : Type} [Storage σ]

/-! ## The four kinds of operations -/

/-- The directories missing at and above `dir`, the outermost first. -/
def missingLevels (storage : σ) (dir : Path) : List Path :=
  (dir.ancestors.takeWhile fun p => !p.isEmpty &&
    !Storage.isDir storage p).reverse

def createLevels (c : Commit σ) : List Path → Commit σ
  | [] => c
  | level :: rest =>
      match Storage.createDirs c.storage level with
      | (.ok (), storage) =>
          createLevels
            { c with storage, report.dirsAdded := c.report.dirsAdded ++
              [level] } rest
      | (.error e, storage) =>
          { c with storage, report := c.report.fail level .createDir e }

def ensureDir (c : Commit σ) (dir : Path) : Commit σ :=
  c.createLevels (missingLevels c.storage dir)

def writeFile (c : Commit σ) (path : Path) (content : String) : Commit σ :=
  let existing := (Storage.read c.storage path).toOption
  if existing = some content then
    { c with cache := c.cache.insert path content }
  else
    match Storage.write c.storage path content with
    | (.ok (), storage) =>
        let change :=
          ⟨path, existing.isNone, LineDiff.between (existing.getD "") content⟩
        { storage
          cache := c.cache.insert path content
          report := { c.report with
            written := c.report.written ++ [path]
            changes := c.report.changes ++ [change] } }
    | (.error e, storage) =>
        { c with storage, report := c.report.fail path .write e }

def removeFile (c : Commit σ) (path : Path) : Commit σ :=
  let c := { c with cache := c.cache.erase path }
  if Storage.isPresent c.storage path then
    match Storage.removeFile c.storage path with
    | (.ok (), storage) =>
        { c with storage, report.deleted := c.report.deleted ++ [path] }
    | (.error e, storage) =>
        if e.isMissing then { c with storage }
        else { c with storage, report := c.report.fail path .removeFile e }
  else c

def removeDir (c : Commit σ) (dir : Path) : Commit σ :=
  if Storage.isDir c.storage dir then
    match Storage.isDirEmpty c.storage dir with
    | .error e => { c with report := c.report.fail dir .removeDir e }
    | .ok false => c
    | .ok true =>
        match Storage.removeDir c.storage dir with
        | (.ok (), storage) =>
            { c with storage, report.dirsDeleted := c.report.dirsDeleted ++
              [dir] }
        | (.error (.notEmpty _), storage) => { c with storage }
        | (.error e, storage) =>
            { c with storage, report := c.report.fail dir .removeDir e }
  else c

/-! ## The staged changes by kind -/

def writesOf (pending : SortedMap Path Change) : List (Path × String) :=
  pending.entries.filterMap fun
    | (p, .write content) => some (p, content)
    | _ => none

def pathsOf (pending : SortedMap Path Change) (kind : Change) : List Path :=
  pending.entries.filterMap fun (p, change) => if change = kind then some p
  else none

/-- The directories to be there: those staged, and those of the files to be
written. -/
def dirsNeeded (pending : SortedMap Path Change) : List Path :=
  SortedSet.toList <| SortedSet.ofKeys <| pending.entries.filterMap fun
    | (p, .write _) => p.parent.filter (!·.isEmpty)
    | (p, .addDir) => some p
    | _ => none

def deeperFirst (p q : Path) : Bool :=
  q.parts.length < p.parts.length
    || (p.parts.length == q.parts.length && !KeyOrder.before p q)

end Commit

namespace Workspace

variable {σ : Type} [Storage σ]

def commit (w : Workspace σ) : CommitReport × Workspace σ :=
  if w.pending.isEmpty then ({}, w)
  else
    let c : Commit σ := { storage := w.storage, cache := w.cache }
    let c := (Commit.dirsNeeded w.pending).foldl Commit.ensureDir c
    let c :=
      (Commit.writesOf w.pending).foldl (fun c (p,
        content) => c.writeFile p content) c
    let c := (Commit.pathsOf w.pending .removeFile).foldl Commit.removeFile c
    let c :=
      ((Commit.pathsOf w.pending .removeDir).mergeSort Commit.deeperFirst).foldl
      Commit.removeDir c
    (c.report.sorted, { storage := c.storage, cache := c.cache })

end Workspace

end ComponentBuild
