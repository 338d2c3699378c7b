import ComponentBuild.Proofs.Path.Parts
import ComponentBuild.Proofs.Workspace.Rounds

/-!
# What a commit does to files

A commit sorts the staged changes by kind and carries out one round for each
kind.  The staged paths are distinct, so no round sees what another one did to
its files: the files afterwards, and the report on them, depend on the store
before and on the staged change of each path alone.
-/

namespace ComponentBuild

def Change.applied : Option Change → Option String → Option String
  | some (.write content), _ => some content
  | some .removeFile, _ => none
  | _, stored => stored

namespace Commit

open KeyOrder SortedMap

/-! ## The batches of a commit -/

section Batches

variable {pending : SortedMap Path Change}

theorem mem_writesOf {p : Path} {content : String} :
    (p, content) ∈ writesOf pending ↔ (p, .write content) ∈ pending.entries := by
  unfold writesOf
  rw [List.mem_filterMap]
  constructor
  · rintro ⟨⟨q, change⟩, hq, h⟩
    cases change <;> simp_all
  · intro h
    exact ⟨_, h, rfl⟩

theorem mem_pathsOf {p : Path} {kind : Change} :
    p ∈ pathsOf pending kind ↔ (p, kind) ∈ pending.entries := by
  unfold pathsOf
  rw [List.mem_filterMap]
  constructor
  · rintro ⟨⟨q, change⟩, hq, h⟩
    by_cases hk : change = kind <;> simp_all
  · intro h
    exact ⟨_, h, by simp⟩

theorem writesOf_sorted (pending : SortedMap Path Change) :
    (writesOf pending).Pairwise fun a b => before a.1 b.1 = true := by
  refine List.Pairwise.filterMap _ ?_ pending.sorted
  rintro ⟨p, change⟩ ⟨p', change'⟩ h e he e' he'
  cases change <;> cases change' <;> simp_all
  rw [← he, ← he']
  exact h

theorem pathsOf_sorted (pending : SortedMap Path Change) (kind : Change) :
    (pathsOf pending kind).Pairwise fun p q => before p q = true := by
  refine List.Pairwise.filterMap _ ?_ pending.sorted
  rintro ⟨p, change⟩ ⟨p', change'⟩ h q hq q' hq'
  simp only [Option.ite_none_right_eq_some, Option.some.injEq] at hq hq'
  rw [← hq.2, ← hq'.2]
  exact h

theorem not_same_of_kinds {p q : Path} {k₁ k₂ : Change}
    (hp : (p, k₁) ∈ pending.entries) (hq : (q, k₂) ∈ pending.entries)
    (hk : k₁ ≠ k₂) : same p q = false := by
  cases hs : same p q with
  | false => rfl
  | true =>
      have hget := get?_congr pending hs
      rw [get?_eq_some_of_mem hp, get?_eq_some_of_mem hq] at hget
      exact absurd (Option.some.inj hget) hk

end Batches

/-! ## The rounds one after another -/

section Rounds

variable {σ : Type} [Storage σ] (w : Workspace σ)

def dirsDone : Commit σ :=
  (dirsNeeded w.pending).foldl ensureDir
    { storage := w.storage, cache := w.cache }

def writesDone : Commit σ :=
  (writesOf w.pending).foldl (fun c e => c.writeFile e.1 e.2) (dirsDone w)

def removalsDone : Commit σ :=
  (pathsOf w.pending .removeFile).foldl removeFile (writesDone w)

def finished : Commit σ :=
  ((pathsOf w.pending .removeDir).mergeSort deeperFirst).foldl removeDir
    (removalsDone w)

/-- With nothing staged no round has anything to do, so the early exit needs no
case of its own. -/
theorem commit_eq : w.commit = ((finished w).report.sorted,
    { storage := (finished w).storage, cache := (finished w).cache }) := by
  unfold Workspace.commit
  split
  · rename_i hempty
    obtain ⟨storage, cache, pending⟩ := w
    obtain rfl : pending = ∅ := SortedMap.ext (List.isEmpty_iff.1 hempty)
    have hnothing :
        finished { storage, cache, pending := ∅ } = { storage, cache } := by
      simp [finished, removalsDone, writesDone, dirsDone, pathsOf, writesOf,
        dirsNeeded, SortedSet.ofKeys, SortedSet.addAll, SortedSet.toList,
        SortedMap.keys, SortedMap.empty]
    rw [hnothing]
    simp [CommitReport.sorted, Path.sorted]
  · rfl

end Rounds

/-! ## The commit as a whole -/

variable (w : Workspace MemoryStore)

theorem filesKept_dirsDone :
    FilesKept { storage := w.storage, cache := w.cache } (dirsDone w) :=
  filesKept_foldl filesKept_ensureDir _ _

theorem written_writesDone :
    Written (dirsDone w) (writesDone w) (writesOf w.pending) :=
  written_foldl ((writesOf_sorted w.pending).imp not_same_of_before) _

private theorem removed_removalsDone :
    Removed (writesDone w) (removalsDone w) (pathsOf w.pending .removeFile) :=
  removed_foldl ((pathsOf_sorted w.pending .removeFile).imp not_same_of_before) _

theorem filesKept_finished : FilesKept (removalsDone w) (finished w) :=
  filesKept_foldl filesKept_removeDir _ _

theorem failing_finished : (finished w).storage.failing = w.storage.failing := by
  rw [(filesKept_finished w).storage.failing, (removed_removalsDone w).failing,
    (written_writesDone w).failing, (filesKept_dirsDone w).storage.failing]

private theorem content_kept {p : Path}
    (hw : ∀ e ∈ writesOf w.pending,
      same e.1 p = true → w.storage.failing.contains p = true)
    (hr : ∀ q ∈ pathsOf w.pending .removeFile,
      same q p = true → w.storage.failing.contains p = true) :
    (finished w).storage.files.get? p = w.storage.files.get? p := by
  have hdirs := (filesKept_dirsDone w).storage
  rw [(filesKept_finished w).storage.files, (removed_removalsDone w).others p,
    (written_writesDone w).others p, hdirs.files]
  · intro e he hs
    rw [hdirs.failing]
    exact hw e he hs
  · intro q hq hs
    rw [(written_writesDone w).failing, hdirs.failing]
    exact hr q hq hs

private theorem content_writesDone {p : Path} (h : ∀ e ∈ writesOf w.pending,
    same e.1 p = false) :
    (writesDone w).storage.files.get? p = w.storage.files.get? p := by
  rw [(written_writesDone w).kept h, (filesKept_dirsDone w).storage.files]

theorem content_denied {p : Path} (h : w.storage.failing.contains p = true) :
    (finished w).storage.files.get? p = w.storage.files.get? p :=
  content_kept w (fun _ _ _ => h) (fun _ _ _ => h)

theorem content_applied {p : Path} (h : w.storage.failing.contains p = false) :
    (finished w).storage.files.get? p =
      Change.applied (w.pending.get? p) (w.storage.files.get? p) := by
  have hdirs := (filesKept_dirsDone w).storage
  have hfailing : (writesDone w).storage.failing = w.storage.failing := by
    rw [(written_writesDone w).failing, hdirs.failing]
  have hunstaged (hchange : ∀ content, w.pending.get? p ≠ some (.write content))
      (hremove : w.pending.get? p ≠ some .removeFile) :
      (finished w).storage.files.get? p = w.storage.files.get? p :=
    content_kept w
      (fun e he hs => absurd (get?_eq_some_iff.2 ⟨e.1, mem_writesOf.1 he, hs⟩)
        (hchange e.2))
      (fun q hq hs => absurd (get?_eq_some_iff.2 ⟨q, mem_pathsOf.1 hq, hs⟩)
        hremove)
  cases hp : w.pending.get? p with
  | none => exact hunstaged (by simp [hp]) (by simp [hp])
  | some change =>
      obtain ⟨q, hq, hs⟩ := get?_eq_some_iff.1 hp
      have hqf : w.storage.failing.contains q = false := by
        rw [contains_congr _ hs, h]
      cases change with
      | write content =>
          have hwritten : (writesDone w).storage.files.get? q = some content :=
            (written_writesDone w).content (q, content) (mem_writesOf.2 hq)
              (by rw [hdirs.failing, hqf])
          have hkept : ∀ r ∈ pathsOf w.pending .removeFile, same r q = false :=
            fun r hr => not_same_of_kinds (mem_pathsOf.1 hr) hq (by simp)
          rw [(filesKept_finished w).storage.files, ← get?_congr _ hs,
            (removed_removalsDone w).kept hkept, hwritten]
          rfl
      | removeFile =>
          have hremoved : (removalsDone w).storage.files.get? q = none :=
            (removed_removalsDone w).content q (mem_pathsOf.2
              hq) (by rw [hfailing, hqf])
          rw [(filesKept_finished w).storage.files, ← get?_congr _ hs, hremoved]
          rfl
      | addDir => exact hunstaged (by simp [hp]) (by simp [hp])
      | removeDir => exact hunstaged (by simp [hp]) (by simp [hp])

/-! ## The report on files -/

private theorem changesFile_congr {s t : MemoryStore}
    (h : MemoryStore.SameFiles s t) :
    changesFile t = changesFile s := by
  funext e
  simp only [changesFile, h.files, h.failing]

private theorem fileChange_congr {s t : MemoryStore}
    (h : MemoryStore.SameFiles s t) :
    fileChange t = fileChange s := by
  funext e
  simp only [fileChange, h.files]

theorem written_finished : (finished w).report.written =
    ((writesOf w.pending).filter (changesFile w.storage)).map (·.1) := by
  have hdirs := filesKept_dirsDone w
  rw [(filesKept_finished w).written, (removed_removalsDone w).written,
    (written_writesDone w).written, hdirs.written,
    changesFile_congr hdirs.storage]
  rfl

theorem changes_finished : (finished w).report.changes =
    ((writesOf w.pending).filter (changesFile w.storage)).map (fileChange
      w.storage) := by
  have hdirs := filesKept_dirsDone w
  rw [(filesKept_finished w).changes, (removed_removalsDone w).changes,
    (written_writesDone w).changes, hdirs.changes,
    changesFile_congr hdirs.storage,
    fileChange_congr hdirs.storage]
  rfl

theorem writes_finished : (finished w).storage.writes =
    w.storage.writes + (finished w).report.written.length := by
  have hdirs := filesKept_dirsDone w
  rw [written_finished, (filesKept_finished w).storage.writes,
    (removed_removalsDone w).writes,
    (written_writesDone w).writes, hdirs.storage.writes,
    changesFile_congr hdirs.storage,
    List.length_map]

theorem deleted_finished : (finished w).report.deleted =
    (pathsOf w.pending .removeFile).filter (removesFile w.storage) := by
  have hdirs := filesKept_dirsDone w
  rw [(filesKept_finished w).deleted, (removed_removalsDone w).deleted,
    (written_writesDone w).deleted, hdirs.deleted]
  refine List.filter_congr fun q hq => ?_
  have hother (e : Path × String) (he :
      e ∈ writesOf w.pending) : same e.1 q = false :=
    not_same_of_kinds (mem_writesOf.1 he) (mem_pathsOf.1 hq) (by simp)
  simp only [removesFile, (written_writesDone w).failing, hdirs.storage.failing,
    contains_eq_isSome, content_writesDone w hother]

theorem writeErrors_finished : writeErrors (finished w).report =
    ((writesOf w.pending).filter fun e =>
      w.storage.failing.contains e.1).map writeError := by
  have hdirs := filesKept_dirsDone w
  rw [(filesKept_finished w).errors, (removed_removalsDone w).errors,
    (written_writesDone w).errors, hdirs.errors, hdirs.storage.failing]
  rfl

theorem written_sorted :
    (finished w).report.written.Pairwise fun p q => before p q = true := by
  rw [written_finished]
  exact List.pairwise_map.2 ((writesOf_sorted w.pending).filter _)

theorem deleted_sorted :
    (finished w).report.deleted.Pairwise fun p q => before p q = true := by
  rw [deleted_finished]
  exact (pathsOf_sorted w.pending .removeFile).filter _

end Commit

theorem Workspace.pending_commit {σ : Type} [Storage σ] (w : Workspace σ) :
    w.commit.2.pending = ∅ := by
  rw [Commit.commit_eq]

end ComponentBuild
