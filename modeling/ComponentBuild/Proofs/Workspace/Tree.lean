import ComponentBuild.Proofs.Workspace.Clearing
import ComponentBuild.Proofs.Workspace.Levels

/-!
# The tree that a commit leaves

Before directories are removed the tree has, beside what it had, the directories
made for the staged changes and those above every file that was written.  From
then on the files stay as they are.
-/

namespace ComponentBuild.Commit

open KeyOrder SortedMap

section Rounds

variable {c : Commit MemoryStore} {q : Path}

/-- A write makes the directories above its file known, unless the file fails;
one that changes nothing finds them known. -/
theorem contains_writeFile (hclosed : c.storage.Closed) (e : Path × String) :
    (c.writeFile e.1 e.2).storage.dirs.contains q = true ↔
      c.storage.dirs.contains q = true ∨
        c.storage.failing.contains e.1 = false ∧ q.parts ≠ [] ∧ Below e.1 q := by
  cases hf : c.storage.failing.contains e.1 with
  | true =>
      rw [writeFile_failing e.2 hf]
      simp
  | false =>
      by_cases hp : c.storage.files.get? e.1 = some e.2
      · rw [writeFile_unchanged hf hp]
        refine ⟨.inl, fun h => h.elim id fun ⟨_, hlong, habove⟩ => ?_⟩
        have hfile : c.storage.files.contains e.1 = true := by
          rw [contains_eq_isSome, hp]; rfl
        exact hclosed e.1 q hfile hlong habove.1 habove.2
      · rw [writeFile_changed hf hp, MemoryStore.contains_written_iff]
        refine or_congr_right ⟨fun h => ⟨rfl, h.1,
          (below_iff_dropLast h.1).2 h.2⟩, fun h => ?_⟩
        exact ⟨h.2.1, (below_iff_dropLast h.2.1).1 h.2.2⟩

private theorem contains_foldl_writeFile (hclosed : c.storage.Closed)
    (batch : List (Path × String)) :
    (batch.foldl (fun c e => c.writeFile e.1 e.2) c).storage.dirs.contains q =
      true ↔
      c.storage.dirs.contains q = true ∨ ∃ e ∈ batch,
        c.storage.failing.contains e.1 = false ∧ q.parts ≠ [] ∧ Below e.1 q := by
  induction batch generalizing c with
  | nil => simp
  | cons e batch ih =>
      have hclosed' : (c.writeFile e.1 e.2).storage.Closed :=
        keeps_writeFile MemoryStore.keeps_closed _ _ hclosed
      rw [List.foldl_cons, ih hclosed', contains_writeFile hclosed,
        (written_writeFile c e).failing, or_assoc]
      simp only [List.mem_cons, exists_eq_or_imp]

private theorem dirs_removeFile (c : Commit MemoryStore) (p : Path) :
    (c.removeFile p).storage.dirs = c.storage.dirs := by
  cases hf : c.storage.failing.contains p with
  | true => rcases removeFile_failing c hf with hr | hr <;> rw [hr]
  | false =>
      cases hp : c.storage.files.contains p with
      | false => rw [removeFile_missing c hf hp]
      | true => rw [removeFile_present c hf hp]

end Rounds

/-! ## Before directories are removed -/

section

variable {w : Workspace MemoryStore} {p q : Path}

def Made (w : Workspace MemoryStore) (q : Path) : Prop :=
  Reached w.storage (dirsNeeded w.pending) q

theorem contains_removalsDone (hrooted : w.storage.Rooted)
    (hclosed : w.storage.Closed) :
    (removalsDone w).storage.dirs.contains q = true ↔
      w.storage.dirs.contains q = true ∨
        (∃ r, Made w r ∧ q.parts ≠ [] ∧ q.parts <+: r.parts) ∨
        ∃ p content, (p, .write content) ∈ w.pending.entries ∧
          w.storage.failing.contains p = false ∧ q.parts ≠ [] ∧ Below p q := by
  have hensured := ensured_dirsDone (w := w) hrooted
  have hclosed' : (dirsDone w).storage.Closed :=
    List.foldlRecOn (motive := fun c : Commit MemoryStore => c.storage.Closed) _
      _ hclosed
      fun c hc dir _ => keeps_createLevels MemoryStore.keeps_closed _ hc
  have hdirs : (removalsDone w).storage.dirs = (writesDone w).storage.dirs :=
    List.foldlRecOn (motive := fun c : Commit MemoryStore =>
      c.storage.dirs = (writesDone w).storage.dirs) _ _ rfl
      fun c hc p _ => (dirs_removeFile c p).trans hc
  rw [hdirs, writesDone, contains_foldl_writeFile hclosed', hensured.contains,
    hensured.failing, or_assoc]
  refine or_congr_right (or_congr_right ⟨?_, ?_⟩)
  · rintro ⟨⟨p, content⟩, he, h⟩
    exact ⟨p, content, mem_writesOf.1 he, h⟩
  · rintro ⟨p, content, he, h⟩
    exact ⟨(p, content), mem_writesOf.2 he, h⟩

theorem failing_removalsDone :
    (removalsDone w).storage.failing = w.storage.failing := by
  rw [← (filesKept_finished w).storage.failing, failing_finished]

theorem files_removalsDone :
    (removalsDone w).storage.files = (finished w).storage.files :=
  (filesKept_finished w).storage.files.symm

/-- A file is there if it was written, or was there before and was not removed. -/
theorem contains_files_finished : (finished w).storage.files.contains p = true ↔
    (∃ content, w.pending.get? p = some (.write content)) ∧
      w.storage.failing.contains p = false ∨
      w.storage.files.contains p = true ∧
        (w.pending.get? p = some .removeFile →
          w.storage.failing.contains p = true) := by
  rw [contains_eq_isSome (finished w).storage.files,
    contains_eq_isSome w.storage.files]
  cases hf : w.storage.failing.contains p with
  | true => simp [content_denied w hf]
  | false =>
      rw [content_applied w hf]
      cases hp : w.pending.get? p with
      | none => simp [Change.applied]
      | some change => cases change <;> simp [Change.applied]

/-! ## Directories that are removed -/

theorem exists_dirRemovals_iff : (∃ p ∈ dirRemovals w.pending, same p q = true) ↔
    w.pending.get? q = some .removeDir := by
  rw [get?_eq_some_iff]
  simp only [mem_dirRemovals]

private theorem dirRemovals_deepest (pending : SortedMap Path Change) :
    (dirRemovals pending).Pairwise fun p q =>
      q.parts.length ≤ p.parts.length := by
  have hsorted : (dirRemovals pending).Pairwise fun p q =>
      deeperFirst p q = true :=
    List.pairwise_mergeSort deeperFirst_trans deeperFirst_total _
  refine hsorted.imp fun {p q} h => ?_
  rcases deeperFirst_iff.1 h with hlength | ⟨hlength, -⟩
  · exact hlength.le
  · exact hlength.ge

/-- What goes when the directories staged for removal are removed. -/
def Cleared (w : Workspace MemoryStore) (q : Path) : Prop :=
  Clearable (removalsDone w).storage (dirRemovals w.pending) q

theorem contains_finished (hrooted : w.storage.Rooted)
    (hclosed : w.storage.Closed) (hlong : q.parts ≠ []) :
    (finished w).storage.dirs.contains q = true ↔
      (removalsDone w).storage.dirs.contains q = true ∧ ¬ Cleared w q := by
  rw [finished_eq]
  exact contains_foldl_removeDir
    (keeps_removalsDone MemoryStore.keeps_rooted hrooted)
    (keeps_removalsDone MemoryStore.keeps_closed hclosed)
      (dirRemovals_deepest _) hlong

end

end ComponentBuild.Commit
