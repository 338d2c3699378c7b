import ComponentBuild.Workspace.Basic

/-!
Access to files, whether straight to a storage or through a workspace that
stages changes.

Reading through a workspace leaves a trace in its cache, so every reading gives
the state afterwards.
-/

namespace ComponentBuild

class FileAccess (τ : Type) where
  fetch : τ → Path → Except StorageError String × τ
  isPresent : τ → Path → Bool
  isDir : τ → Path → Bool
  isDirEmpty : τ → Path → Except StorageError Bool
  findFiles : τ → Path → String → Except StorageError (List Path)
  write : τ → Path → String → Except StorageError Unit × τ
  removeFile : τ → Path → Except StorageError Unit × τ
  createDirs : τ → Path → Except StorageError Unit × τ
  removeDir : τ → Path → Except StorageError Unit × τ

variable {σ : Type} [Storage σ]

instance : FileAccess σ where
  fetch s path := (Storage.read s path, s)
  isPresent := Storage.isPresent
  isDir := Storage.isDir
  isDirEmpty := Storage.isDirEmpty
  findFiles := Storage.findFiles
  write := Storage.write
  removeFile := Storage.removeFile
  createDirs := Storage.createDirs
  removeDir := Storage.removeDir

/-- Changes are staged, and so they always succeed. -/
instance : FileAccess (Workspace σ) where
  fetch := Workspace.fetch
  isPresent := Workspace.isPresent
  isDir := Workspace.isDir
  isDirEmpty := Workspace.isDirEmpty
  findFiles := Workspace.findFiles
  write w path content := (.ok (), w.stageWrite path content)
  removeFile w path := (.ok (), w.stageRemove path)
  createDirs w path := (.ok (), w.stageAddDir path)
  removeDir w path := (.ok (), w.stageRemoveDir path)

end ComponentBuild
