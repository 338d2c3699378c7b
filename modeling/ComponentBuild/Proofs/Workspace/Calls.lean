import ComponentBuild.Workspace.Commit

/-!
# Calls of a workspace

A run of a workspace is a list of calls.  What a call stages is read off the
call alone, so the plain execution of a run needs neither cache nor pending
changes: every staged change of a file is carried out on a map of files at once.
-/

namespace ComponentBuild

inductive Call where
  | stageWrite (path : Path) (content : String)
  | stageRemove (path : Path)
  | stageAddDir (path : Path)
  | stageRemoveDir (path : Path)
  | writeFile (path : Path) (content : String) (immediate : Bool)
  | fetch (path : Path)
  | clearFileCache (path : Path)
  | clearCache
  | commit
  deriving DecidableEq, Repr

namespace Call

def isImmediate : Call → Bool
  | writeFile _ _ immediate => immediate
  | _ => false

def staged? : Call → Option (Path × Change)
  | stageWrite path content => some (path.normalize, .write content)
  | stageRemove path => some (path.normalize, .removeFile)
  | stageAddDir path => some (path.normalize, .addDir)
  | stageRemoveDir path => some (path.normalize, .removeDir)
  | writeFile path content false => some (path.normalize, .write content)
  | _ => none

end Call

namespace Workspace

variable {σ : Type} [Storage σ]

def perform (w : Workspace σ) : Call → Workspace σ
  | .stageWrite path content => w.stageWrite path content
  | .stageRemove path => w.stageRemove path
  | .stageAddDir path => w.stageAddDir path
  | .stageRemoveDir path => w.stageRemoveDir path
  | .writeFile path content immediate => (w.writeFile path content immediate).2
  | .fetch path => (w.fetch path).2
  | .clearFileCache path => w.clearFileCache path
  | .clearCache => w.clearCache
  | .commit => w.commit.2

def run (w : Workspace σ) (calls : List Call) : Workspace σ :=
  calls.foldl perform w

theorem run_append_singleton (w : Workspace σ) (calls : List Call) (call : Call) :
    w.run (calls ++ [call]) = (w.run calls).perform call := by
  simp [run]

end Workspace

/-! ## Plain execution -/

abbrev FileMap := SortedMap Path String

namespace FileMap

def change (files : FileMap) (path : Path) : Change → FileMap
  | .write content => files.insert path content
  | .removeFile => files.erase path
  | _ => files

def perform (files : FileMap) (call : Call) : FileMap :=
  match call.staged? with
  | some (path, change) => files.change path change
  | none => files

def run (files : FileMap) (calls : List Call) : FileMap :=
  calls.foldl perform files

theorem run_append_singleton (files : FileMap) (calls : List Call) (call : Call) :
    files.run (calls ++ [call]) = (files.run calls).perform call := by
  simp [run]

def readAt (files : FileMap) (path : Path) : Except StorageError String :=
  match files.get? path with
  | some content => .ok content
  | none => .error (.missing path)

def read (files : FileMap) (path : Path) : Except StorageError String :=
  files.readAt path.normalize

end FileMap

end ComponentBuild
