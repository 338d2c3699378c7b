import ComponentBuild.Proofs.Workspace.InPlace
import ComponentBuild.Proofs.Workspace.Pruning

/-!
# A batch that is committed again

After a commit every change of its batch is in place: what was added or written
stays, and a directory that was to be removed is gone or has something in it.
So the same batch once more has nothing to do.
-/

namespace ComponentBuild

open KeyOrder SortedMap

theorem Commit.inPlace_of_staged {w : Workspace MemoryStore}
    (hrooted : w.storage.Rooted) (hclosed : w.storage.Closed)
    (hnamed : w.storage.Named) (hfree : w.storage.failing = ∅) {p : Path}
    {change : Change} (hp : w.pending.get? p = some change)
    (hroot : change = .removeDir → MemoryStore.isRoot p = false) :
    change.InPlace (finished w).storage p := by
  by_cases hkind : change = .removeDir
  · subst hkind
    cases hthere : (finished w).storage.dirs.contains p with
    | true =>
        exact .inr (isDirEmpty_finished hrooted hclosed hnamed hfree hp hthere)
    | false =>
        exact .inl (by rw [MemoryStore.isDir, hroot rfl, hthere, Bool.or_false])
  · obtain ⟨q, hq, hsame⟩ := get?_eq_some_iff.1 hp
    exact (inPlace_finished hfree hq hkind).congr hsame

namespace Workspace

section

variable {σ : Type} (w : Workspace σ) (batch : List (Path × Change))

def stageAll : Workspace σ :=
  batch.foldl (fun w e => w.stage e.1 e.2) w

private theorem storage_stageAll : (w.stageAll batch).storage = w.storage :=
  List.foldlRecOn (motive := fun v : Workspace σ => v.storage = w.storage) _ _
    rfl fun _ h _ _ => h

theorem get?_pending_stageAll (p : Path) :
    (w.stageAll batch).pending.get? p =
      ((batch.reverse.find? fun e => same e.1.normalize p).map (·.2)).or
        (w.pending.get? p) := by
  have hpending : (w.stageAll batch).pending =
      (batch.map fun e => (e.1.normalize, e.2)).foldl
        (fun m e => m.insert e.1 e.2) w.pending := by
    rw [stageAll, List.foldl_map]
    exact (List.foldl_hom Workspace.pending fun _ _ => rfl).symm
  rw [hpending, get?_foldl_insert_eq, ← List.map_reverse, List.find?_map,
    Option.map_map]
  simp only [Function.comp_def]

end

/-- Committing the same batch again, with storage as the first commit left it,
reports nothing and leaves storage alone.  What the workspaces have cached does
not matter, nor what else was staged the first time. -/
theorem commit_again (w v : Workspace MemoryStore) {edits : List Edit}
    (batch : List (Path × Change))
    (hstorage : w.storage = MemoryStore.empty.editAll edits)
    (hfree : w.storage.failing = ∅)
    (hroot : ∀ e ∈ batch, e.2 = .removeDir →
      MemoryStore.isRoot e.1.normalize = false)
    (hkept : v.storage = (w.stageAll batch).commit.2.storage)
    (hnone : v.pending = ∅) :
    (v.stageAll batch).commit.1 = {} ∧ (v.stageAll batch).commit.2.storage =
      v.storage := by
  let first := w.stageAll batch
  have hfirst : first.storage = w.storage := storage_stageAll w batch
  have hrooted : first.storage.Rooted :=
    hfirst ▸ hstorage ▸ MemoryStore.rooted_editAll edits
  have hclosed : first.storage.Closed :=
    hfirst ▸ hstorage ▸ MemoryStore.closed_editAll edits
  have hnamed : first.storage.Named :=
    hfirst ▸ hstorage ▸ MemoryStore.named_editAll edits
  have hfree' : first.storage.failing = ∅ := hfirst ▸ hfree
  have hsecond :
      (v.stageAll batch).storage = (Commit.finished first).storage := by
    rw [storage_stageAll, hkept, Commit.commit_eq]
  have hplaced : ∀ p change, (p, change) ∈ (v.stageAll batch).pending.entries →
      change.InPlace (v.stageAll batch).storage p := by
    intro p change h
    have hstaged := get?_eq_some_of_mem h
    rw [get?_pending_stageAll, hnone, get?_empty, Option.or_none] at hstaged
    have hbefore : first.pending.get? p = some change := by
      rw [get?_pending_stageAll, hstaged]
      rfl
    obtain ⟨e, he, rfl⟩ := Option.map_eq_some_iff.1 hstaged
    have hmem : e ∈ batch := List.mem_reverse.1 (List.mem_of_find?_eq_some he)
    have hsame : same e.1.normalize p = true := by simpa using List.find?_some he
    rw [hsecond]
    refine Commit.inPlace_of_staged hrooted hclosed hnamed hfree' hbefore
      fun hkind => ?_
    rw [← hroot e hmem hkind, Bool.eq_iff_iff, MemoryStore.isRoot_iff,
      MemoryStore.isRoot_iff, Path.same_key_iff.1 hsame]
  have hunfailing : (v.stageAll batch).storage.failing = ∅ := by
    rw [hsecond, Commit.failing_finished, hfree']
  obtain ⟨hreport, hstays⟩ := Commit.commit_of_inPlace hunfailing hplaced
  exact ⟨hreport, hstays.trans (storage_stageAll v batch)⟩

end Workspace

/-! ## A directory that is gone the second time -/

def mixedEdits : List Edit :=
  [.insert ⟨"/a/old"⟩ "text", .insert ⟨"/d/f"⟩ "text"]

def mixedBatch : List (Path × Change) :=
  [(⟨"/a/b"⟩, .write "new"), (⟨"/x/../c"⟩, .addDir), (⟨"/d/f"⟩, .removeFile),
    (⟨"/d"⟩, .removeDir)]

def mixedWorkspace : Workspace MemoryStore :=
  Workspace.ofStorage (MemoryStore.empty.editAll mixedEdits)

theorem commit_again_mixed :
    let first := (mixedWorkspace.stageAll mixedBatch).commit
    let second := (first.2.stageAll mixedBatch).commit
    mixedWorkspace.storage = MemoryStore.empty.editAll mixedEdits ∧
      mixedWorkspace.storage.failing = ∅ ∧
      (∀ e ∈ mixedBatch, e.2 = .removeDir →
        MemoryStore.isRoot e.1.normalize = false) ∧
      first.2.pending = ∅ ∧ first.1.written = [⟨"/a/b"⟩] ∧
      first.1.dirsDeleted = [⟨"/d"⟩] ∧
      second.1 = {} ∧ second.2.storage = first.2.storage := by
  intro first second
  have hroot : ∀ e ∈ mixedBatch,
      e.2 = .removeDir → MemoryStore.isRoot e.1.normalize = false := by
    decide +kernel
  have hnone : first.2.pending = ∅ := Workspace.pending_commit _
  have hagain :=
    Workspace.commit_again mixedWorkspace first.2 mixedBatch rfl rfl
      hroot rfl hnone
  refine ⟨rfl, rfl, hroot, hnone, ?_, ?_, hagain⟩
  · decide +kernel
  · decide +kernel

end ComponentBuild
