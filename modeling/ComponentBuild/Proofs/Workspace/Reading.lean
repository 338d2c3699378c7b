import ComponentBuild.Proofs.Storage.Memory
import ComponentBuild.Workspace.Basic

/-!
# Reading through a workspace

A staged change of a file answers a reading; without one the cache does, and
storage only if the cache knows nothing.  A reading leaves storage and the
staged changes alone.
-/

namespace ComponentBuild

def Change.onFile : Change → Bool
  | write _ | removeFile => true
  | addDir | removeDir => false

namespace Workspace

section

variable {σ : Type} {w : Workspace σ} {p : Path} {content : String}

theorem known?_write (h : w.pending.get? p = some (.write content)) :
    w.known? p = some (.ok content) := by
  simp [known?, h]

theorem known?_removeFile (h : w.pending.get? p = some .removeFile) :
    w.known? p = some (.error (.missing p)) := by
  simp [known?, h]

theorem known?_unstaged (h : (w.pending.get? p).any Change.onFile = false) :
    w.known? p = (w.cache.get? p).map .ok := by
  cases hp : w.pending.get? p with
  | none => simp [known?, hp]
  | some change => cases change <;> simp_all [known?, Change.onFile]

theorem known?_eq_ok_iff : w.known? p = some (.ok content) ↔
    w.pending.get? p = some (.write content) ∨
      (w.pending.get? p).any Change.onFile = false ∧
      w.cache.get? p = some content := by
  cases hp : w.pending.get? p with
  | none => simp [known?, hp]
  | some change => cases change <;> simp [known?, hp, Change.onFile]

variable [Storage σ]

theorem pending_readAt (w : Workspace σ) (p : Path) :
    (w.readAt p).2.pending = w.pending := by
  unfold readAt
  split
  · rfl
  · split <;> rfl

theorem storage_readAt (w : Workspace σ) (p : Path) :
    (w.readAt p).2.storage = w.storage := by
  unfold readAt
  split
  · rfl
  · split <;> rfl

theorem readAt_eq_ok_iff : (w.readAt p).1 = .ok content ↔
    w.known? p = some (.ok content) ∨
      w.known? p = none ∧ Storage.read w.storage p = .ok content := by
  unfold readAt
  split
  · simp_all
  · split <;> simp_all

end

end Workspace

end ComponentBuild
