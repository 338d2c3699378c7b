import ComponentBuild.Proofs.Storage.Edits
import ComponentBuild.Proofs.Workspace.Cache
import ComponentBuild.Proofs.Workspace.Calls
import ComponentBuild.Proofs.Workspace.Reading

/-!
# What calls of a workspace leave behind

A call that writes nothing immediately leaves the cache and the file at each
path as they were, or in agreement.  Storage changes by its own operations only,
so what none of these breaks holds after any calls.
-/

namespace ComponentBuild

/-! ## Properties of storage -/

namespace Commit

variable {σ : Type} [Storage σ] {P : σ → Prop} {c : Commit σ}

theorem keeps_createLevels (hP : Storage.Keeps P) (levels : List Path)
    (hc : P c.storage) :
    P (c.createLevels levels).storage := by
  induction levels generalizing c with
  | nil => exact hc
  | cons level rest ih =>
      have hcreated := hP.createDirs hc level
      simp only [createLevels]
      split
      · rename_i storage hs
        rw [hs] at hcreated
        exact ih hcreated
      · rename_i e storage hs
        rw [hs] at hcreated
        exact hcreated

theorem keeps_writeFile (hP : Storage.Keeps P) (p : Path) (content : String)
    (hc : P c.storage) :
    P (c.writeFile p content).storage := by
  have hwritten := hP.write hc p content
  simp only [writeFile]
  split
  · exact hc
  · split
    · rename_i storage hs
      rw [hs] at hwritten
      exact hwritten
    · rename_i e storage hs
      rw [hs] at hwritten
      exact hwritten

private theorem keeps_removeFile (hP : Storage.Keeps P) (p : Path)
    (hc : P c.storage) :
    P (c.removeFile p).storage := by
  have hremoved := hP.removeFile hc p
  simp only [removeFile]
  split
  · split
    · rename_i storage hs
      rw [hs] at hremoved
      exact hremoved
    · rename_i e storage hs
      rw [hs] at hremoved
      split <;> exact hremoved
  · exact hc

theorem keeps_removeDir (hP : Storage.Keeps P) (dir : Path) (hc : P c.storage) :
    P (c.removeDir dir).storage := by
  have hremoved := hP.removeDir hc dir
  simp only [removeDir]
  split
  · split
    · exact hc
    · exact hc
    · split
      · rename_i storage hs
        rw [hs] at hremoved
        exact hremoved
      · rename_i storage hs
        rw [hs] at hremoved
        exact hremoved
      · rename_i e storage _ hs
        rw [hs] at hremoved
        exact hremoved
  · exact hc

theorem keeps_removalsDone {w : Workspace σ} (hP : Storage.Keeps P)
    (hw : P w.storage) :
    P (removalsDone w).storage := by
  have hdirs : P (dirsDone w).storage :=
    List.foldlRecOn (motive := fun c : Commit σ => P c.storage) _ _ hw
      fun c hc dir _ =>
      keeps_createLevels hP (missingLevels c.storage dir) hc
  have hwrites : P (writesDone w).storage :=
    List.foldlRecOn (motive := fun c : Commit σ => P c.storage) _ _ hdirs
      fun c hc e _ =>
      keeps_writeFile hP e.1 e.2 hc
  exact List.foldlRecOn (motive := fun c : Commit σ => P c.storage) _ _ hwrites
    fun c hc p _ =>
    keeps_removeFile hP p hc

theorem keeps_finished {w : Workspace σ} (hP : Storage.Keeps P)
    (hw : P w.storage) :
    P (finished w).storage :=
  List.foldlRecOn (motive := fun c : Commit σ => P c.storage) _ _
    (keeps_removalsDone hP hw)
    fun _ hc dir _ => keeps_removeDir hP dir hc

end Commit

namespace Workspace

section

variable {σ : Type} [Storage σ] {w : Workspace σ}

theorem keeps_perform {P : σ → Prop} (hP : Storage.Keeps P) {call : Call}
    (h : call.isImmediate = false) (hw : P w.storage) :
    P (w.perform call).storage := by
  have hread (p : Path) : P (w.readAt p).2.storage := by rwa [storage_readAt]
  cases call with
  | stageWrite p content => exact hw
  | stageRemove p => exact hw
  | stageAddDir p => exact hw
  | stageRemoveDir p => exact hw
  | writeFile p content immediate =>
      cases immediate with
      | true => cases h
      | false => exact hread p.normalize
  | fetch p => exact hread p.normalize
  | clearFileCache p => exact hw
  | clearCache => exact hw
  | commit =>
      rw [perform, Commit.commit_eq]
      exact Commit.keeps_finished hP hw

end

/-! ## Over a memory store -/

/-- The two workspaces have the same cache entry and file at a path, or the
second one's agree. -/
def SettledAt (w v : Workspace MemoryStore) (p : Path) : Prop :=
  Settled w.cache w.storage.files v.cache v.storage.files p

theorem SettledAt.trans {u v w : Workspace MemoryStore} {p : Path}
    (h : SettledAt u v p) (h' : SettledAt v w p) : SettledAt u w p :=
  Settled.trans h h'

theorem settledAt_readAt (w : Workspace MemoryStore) (q p : Path) :
    SettledAt w (w.readAt q).2 p := by
  unfold readAt
  split
  · exact .refl _ _ p
  · split
    · rename_i content hread
      exact .insert_cache _ (MemoryStore.files_get?_of_read hread) p
    · exact .refl _ _ p

theorem settledAt_perform (w : Workspace MemoryStore) {call : Call}
    (h : call.isImmediate = false) (p : Path) :
    SettledAt w (w.perform call) p := by
  have hstage (w : Workspace MemoryStore) (q : Path) (change : Change) :
      SettledAt w (w.stageAt q change) p := .erase_cache _ _ q p
  cases call with
  | stageWrite q content => exact hstage w q.normalize _
  | stageRemove q => exact hstage w q.normalize _
  | stageAddDir q => exact hstage w q.normalize _
  | stageRemoveDir q => exact hstage w q.normalize _
  | writeFile q content immediate =>
      cases immediate with
      | true => cases h
      | false =>
          exact (settledAt_readAt w q.normalize p).trans (hstage _ q.normalize _)
  | fetch q => exact settledAt_readAt w q.normalize p
  | clearFileCache q => exact .erase_cache _ _ q.normalize p
  | clearCache => exact .inr (.of_none rfl)
  | commit =>
      rw [perform, Commit.commit_eq]
      exact Commit.settled_finished w p

end Workspace

end ComponentBuild
