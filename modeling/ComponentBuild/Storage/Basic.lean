import ComponentBuild.Path.Basic

/-!
Durable storage for files and directories.

A storage is a value.  Queries read it; operations give a result and the storage
afterwards, which may differ from the one before even when the operation fails.
-/

namespace ComponentBuild

inductive StorageError where
  | missing (path : Path)
  | denied (path : Path)
  | notEmpty (path : Path)
  | system (text : String)
  | other (text : String)
  deriving DecidableEq, Repr

inductive SystemFailure where
  | missing
  | denied
  | other (text : String)
  deriving DecidableEq, Repr

namespace StorageError

def message : StorageError → String
  | missing path => "File not found: " ++ path.text
  | denied path => "Permission denied: " ++ path.text
  | notEmpty path => "Directory not empty: " ++ path.text
  | system text => "I/O error: " ++ text
  | other text => text

def isMissing : StorageError → Bool
  | missing _ => true
  | _ => false

def ofFailure (path : Path) : SystemFailure → StorageError
  | .missing => missing path
  | .denied => denied path
  | .other text => system text

end StorageError

class Storage (σ : Type) where
  read : σ → Path → Except StorageError String
  isPresent : σ → Path → Bool
  isDir : σ → Path → Bool
  isDirEmpty : σ → Path → Except StorageError Bool
  /-- The files below a directory whose name ends as given, in path order. -/
  findFiles : σ → Path → String → Except StorageError (List Path)
  write : σ → Path → String → Except StorageError Unit × σ
  removeFile : σ → Path → Except StorageError Unit × σ
  createDirs : σ → Path → Except StorageError Unit × σ
  removeDir : σ → Path → Except StorageError Unit × σ

end ComponentBuild
