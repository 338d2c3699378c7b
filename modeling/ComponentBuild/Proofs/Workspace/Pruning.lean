import ComponentBuild.Proofs.Workspace.WellFormed

/-!
# One pass takes away all directories that can go

A commit looks at each directory that is staged for removal once.  Going from
the deepest up that is enough: a directory that stays has a file below it, or a
directory that is not to be removed, and so it is not empty afterwards either.
-/

namespace ComponentBuild

open KeyOrder SortedMap

/-- There is no file below the path, and every directory below it is staged for
removal too. -/
structure Vacated (s : MemoryStore) (pending : SortedMap Path Change) (q : Path) :
    Prop where
  files : ∀ file, s.files.contains file = true → ¬ Commit.Below file q
  dirs : ∀ r, s.dirs.contains r = true → Commit.Below r q →
    pending.get? r = some .removeDir

private theorem vacated_iff {s : MemoryStore} {pending : SortedMap Path Change}
    {q : Path} :
    Vacated s pending q ↔ (∀ file ∈ s.files.keys, ¬ Commit.Below file q) ∧
      ∀ r ∈ s.dirs.toList, Commit.Below r q →
      pending.get? r = some .removeDir := by
  constructor
  · rintro ⟨hfiles, hdirs⟩
    exact ⟨fun file hfile => hfiles file (contains_of_mem_keys hfile),
      fun r hr => hdirs r (contains_of_mem_keys hr)⟩
  · rintro ⟨hfiles, hdirs⟩
    refine ⟨fun file hfile hbelow => ?_, fun r hr hbelow => ?_⟩
    · obtain ⟨k, hk, hsame⟩ := exists_mem_keys_of_contains hfile
      rw [Commit.Below, ← Path.same_key_iff.1 hsame] at hbelow
      exact hfiles k hk hbelow
    · obtain ⟨k, hk, hsame⟩ := exists_mem_keys_of_contains hr
      rw [Commit.Below, ← Path.same_key_iff.1 hsame] at hbelow
      rw [← get?_congr _ hsame]
      exact hdirs k hk hbelow

instance (q p : Path) : Decidable (Commit.Below q p) :=
  inferInstanceAs (Decidable (_ ∧ _))

instance (s : MemoryStore) (pending : SortedMap Path Change) (q : Path) :
    Decidable (Vacated s pending q) :=
  decidable_of_iff _ vacated_iff.symm

namespace Commit

section

variable {w : Workspace MemoryStore} {q : Path}

theorem Cleared.staged (h : Cleared w q)
    (hq : (removalsDone w).storage.dirs.contains q = true) :
    w.pending.get? q = some .removeDir :=
  exists_dirRemovals_iff.1 (h.dirs q hq (List.prefix_refl _)).1

private theorem cleared_iff_vacated (hfree : w.storage.failing = ∅)
    (hq : w.pending.get? q = some .removeDir) :
    Cleared w q ↔ Vacated (removalsDone w).storage w.pending q := by
  constructor
  · rintro ⟨hfiles, hdirs⟩
    exact ⟨hfiles, fun r hr hbelow =>
      exists_dirRemovals_iff.1 (hdirs r hr hbelow.1).1⟩
  · rintro ⟨hfiles, hdirs⟩
    refine ⟨hfiles, fun r hr hbegin => ⟨exists_dirRemovals_iff.2 ?_, ?_⟩⟩
    · by_cases hparts : q.parts = r.parts
      · rw [← get?_congr _ (Path.same_key_iff.2 hparts), hq]
      · exact hdirs r hr ⟨hbegin, hparts⟩
    · rw [failing_removalsDone]
      exact MemoryStore.not_failing hfree r

theorem isDirEmpty_finished (hrooted : w.storage.Rooted)
    (hclosed : w.storage.Closed) (hnamed : w.storage.Named)
    (hfree : w.storage.failing = ∅) (hq : w.pending.get? q = some .removeDir)
    (hstays : (finished w).storage.dirs.contains q = true) :
    (finished w).storage.isDirEmpty q = .ok false := by
  have hrooted' : (finished w).storage.Rooted :=
    keeps_finished MemoryStore.keeps_rooted hrooted
  have hclosed' : (finished w).storage.Closed :=
    keeps_finished MemoryStore.keeps_closed hclosed
  have hlong : q.parts ≠ [] :=
    keeps_finished MemoryStore.keeps_named hnamed q hstays
  obtain ⟨-, hkept⟩ := (contains_finished hrooted hclosed hlong).1 hstays
  rw [cleared_iff_vacated hfree hq] at hkept
  by_contra hempty
  refine hkept ⟨fun file hfile hbelow => ?_, fun r hr hbelow => ?_⟩
  · rw [files_removalsDone] at hfile
    exact hempty (hclosed'.not_empty hfile hlong hbelow.1 hbelow.2)
  · by_contra hunstaged
    have hstays' : (finished w).storage.dirs.contains r = true :=
      (contains_finished hrooted hclosed (hbelow.1.ne_nil hlong)).2
        ⟨hr, fun hcleared => hunstaged (hcleared.staged hr)⟩
    exact hempty (hrooted'.not_empty hstays' hlong hbelow.1 hbelow.2)

end

end Commit

/-- Of the directories that are there once files are written and removed, a
commit without failing paths removes exactly those staged for removal that are
vacated, and reports them.  So no staged directory is left standing empty. -/
theorem Workspace.commit_prunes (w : Workspace MemoryStore) {edits : List Edit}
    (hstorage : w.storage = MemoryStore.empty.editAll edits)
    (hfree : w.storage.failing = ∅) :
    let before := (Commit.removalsDone w).storage
    let after := w.commit.2.storage
    (∀ d, w.pending.get? d = some .removeDir → before.dirs.contains d = true →
        (after.dirs.contains d = false ↔ Vacated before w.pending d)) ∧
      (∀ d, w.pending.get? d ≠ some .removeDir →
        after.dirs.contains d = before.dirs.contains d) ∧
      (∀ d, (∃ p ∈ w.commit.1.dirsDeleted, same p d = true) ↔
        before.dirs.contains d = true ∧ after.dirs.contains d = false) ∧
      ∀ d, w.pending.get? d = some .removeDir →
      after.isDirEmpty d ≠ .ok true := by
  have hrooted : w.storage.Rooted := hstorage ▸ MemoryStore.rooted_editAll edits
  have hclosed : w.storage.Closed := hstorage ▸ MemoryStore.closed_editAll edits
  have hnamed : w.storage.Named := hstorage ▸ MemoryStore.named_editAll edits
  obtain ⟨hremoved, -⟩ := Commit.dirsRemoved_finished (w := w) hrooted
  rw [Commit.commit_eq]
  intro before after
  have hlong (d : Path) (hd : before.dirs.contains d = true) : d.parts ≠ [] :=
    Commit.keeps_removalsDone MemoryStore.keeps_named hnamed d hd
  have hgone (d : Path) (hd : before.dirs.contains d = true) :
      after.dirs.contains d = false ↔ Commit.Cleared w d := by
    rw [Bool.eq_false_iff, Ne,
      Commit.contains_finished hrooted hclosed (hlong d hd)]
    simp [before, hd]
  refine ⟨fun d hstaged hd => ?_, fun d hunstaged => ?_, fun d => ?_,
    fun d hstaged hempty => ?_⟩
  · rw [hgone d hd, Commit.cleared_iff_vacated hfree hstaged]
  · cases hd : before.dirs.contains d with
    | true =>
        rw [← Bool.not_eq_false, hgone d hd]
        exact fun hcleared => hunstaged (hcleared.staged hd)
    | false =>
        rw [Bool.eq_false_iff, Ne, hremoved.contains]
        exact fun ⟨hthere, _⟩ => Bool.eq_false_iff.1 hd hthere
  · simp only [CommitReport.sorted, Path.mem_sorted]
    exact hremoved.removed_iff d
  · have hthere := MemoryStore.contains_of_isDirEmpty hempty
    have hheld :=
      Commit.isDirEmpty_finished hrooted hclosed hnamed hfree hstaged hthere
    rw [hheld] at hempty
    cases hempty

/-! ## A tree that is emptied in part -/

def branchingEdits : List Edit :=
  [.insert ⟨"/a/b/f"⟩ "text", .createDirs ⟨"/a/b/c"⟩, .insert ⟨"/a/d/g"⟩ "text"]

def pruningWorkspace : Workspace MemoryStore :=
  (((((Workspace.ofStorage (MemoryStore.empty.editAll branchingEdits)).stageRemove
    ⟨"/a/b/f"⟩).stageRemoveDir ⟨"/a"⟩).stageRemoveDir ⟨"/a/b"⟩).stageRemoveDir
    ⟨"/a/b/c"⟩).stageRemoveDir ⟨"/a/d"⟩

theorem commit_prunes_branch :
    let before := (Commit.removalsDone pruningWorkspace).storage
    let after := pruningWorkspace.commit.2.storage
    pruningWorkspace.storage = MemoryStore.empty.editAll branchingEdits ∧
      pruningWorkspace.storage.failing = ∅ ∧
      (Vacated before pruningWorkspace.pending ⟨"/a/b"⟩ ∧
        after.dirs.contains ⟨"/a/b"⟩ = false) ∧
      ¬ Vacated before pruningWorkspace.pending ⟨"/a"⟩ ∧
      after.dirs.contains ⟨"/a"⟩ = true ∧
      after.isDirEmpty ⟨"/a"⟩ ≠ .ok true := by
  intro before after
  obtain ⟨hgone, -, -, hstanding⟩ :=
    Workspace.commit_prunes pruningWorkspace rfl rfl
  have hvacated : Vacated before pruningWorkspace.pending ⟨"/a/b"⟩ := by
    decide +kernel
  have hheld : ¬ Vacated before pruningWorkspace.pending ⟨"/a"⟩ := by
    decide +kernel
  have hinner := hgone ⟨"/a/b"⟩ (by decide +kernel) (by decide +kernel)
  have houter := hgone ⟨"/a"⟩ (by decide +kernel) (by decide +kernel)
  refine ⟨rfl, rfl, ⟨hvacated, hinner.2 hvacated⟩, hheld, ?_,
    hstanding _ (by decide +kernel)⟩
  rw [← Bool.not_eq_false, houter]
  exact hheld

end ComponentBuild
