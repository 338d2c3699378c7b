import ComponentBuild.Proofs.Workspace.Directories
import ComponentBuild.Proofs.Workspace.Report

/-!
# Every staged change is accounted for

A commit leaves nothing staged.  Whatever was staged is in place afterwards, or
the report has an error for it; the one thing that is passed over in silence is
a directory that still has something in it.
-/

namespace ComponentBuild

open KeyOrder SortedMap

/-- The report has an error of this operation at this very path. -/
def CommitReport.Failed (r : CommitReport) (op : CommitOp) (p : Path) : Prop :=
  ∃ error ∈ r.errors, error.op = op ∧ error.path = p

/-- What is left of a change of the path `p`, given the report `r` on a commit
and the store `s` after it. -/
def Change.Accounted (r : CommitReport) (s : MemoryStore) (p : Path) :
    Change → Prop
  | .write content => s.files.get? p = some content ∨ r.Failed .write p
  | .removeFile => s.files.contains p = false ∨ r.Failed .removeFile p
  | .addDir => s.isDir p = true ∨ ∃ above : Path,
      p.isWithin above = true ∧ r.Failed .createDir above
  | .removeDir =>
      s.isDir p = false ∨ r.Failed .removeDir p ∨ s.isDir p = true ∧ ∃ q,
      s.Holds p q

theorem CommitReport.Failed.mono {r r' : CommitReport} {op : CommitOp} {p : Path}
    (h : r.Failed op p) (herrors : r.errors <+: r'.errors) : r'.Failed op p := by
  obtain ⟨error, hmem, hop⟩ := h
  exact ⟨error, herrors.subset hmem, hop⟩

namespace Commit

variable {w : Workspace MemoryStore} {p : Path}

private theorem errors_finished_of_removalsDone (w : Workspace MemoryStore) :
    (removalsDone w).report.errors <+: (finished w).report.errors := by
  obtain ⟨removed, -, hremoved⟩ :=
    exists_dirsRemoved_foldl (dirRemovals w.pending) (removalsDone w)
  exact hremoved.errors

/-! ## Files -/

private theorem accounted_write {content : String}
    (h : (p, .write content) ∈ w.pending.entries) :
    (finished w).storage.files.get? p = some content ∨
      (finished w).report.Failed .write p := by
  cases hf : w.storage.failing.contains p with
  | true =>
      have herror := errors_finished w h hf
      have hmem : (⟨p, .write, (StorageError.denied p).message⟩ : CommitError) ∈
          (finished w).report.errors := by
        refine List.mem_of_mem_filter (p := fun e => e.op = .write &&
          e.path.same p) ?_
        rw [herror]
        exact List.mem_cons_self
      exact .inr ⟨_, hmem, rfl, rfl⟩
  | false =>
      refine .inl ?_
      rw [content_applied w hf, get?_eq_some_of_mem h]
      rfl

private theorem removeFile_denied {c : Commit MemoryStore}
    (h : c.storage.failing.contains p = true)
    (hp : c.storage.files.contains p = true) :
    c.removeFile p =
      { c with
        cache := c.cache.erase p
        report := c.report.fail p .removeFile (.denied p) } := by
  have hpresent : c.storage.isPresent p = true := by
    simp [MemoryStore.isPresent, hp]
  simp [removeFile, hpresent, MemoryStore.removeFile_failing h,
    StorageError.isMissing]

private theorem failed_foldl_removeFile {batch : List Path}
    {c : Commit MemoryStore} (hf : c.storage.failing.contains p = true)
    (hfile : c.storage.files.contains p = true) (hp : p ∈ batch) :
    (batch.foldl removeFile c).report.Failed .removeFile p := by
  induction batch generalizing c with
  | nil => cases hp
  | cons q rest ih =>
      rcases List.mem_cons.1 hp with rfl | hp
      · have hstep : (c.removeFile p).report.Failed .removeFile p := by
          rw [removeFile_denied hf hfile]
          exact ⟨_, List.mem_append_right _ List.mem_cons_self, rfl, rfl⟩
        exact hstep.mono (grows_foldl grows_removeFile rest _).errors
      · have hq := removed_removeFile c q
        refine ih ?_ ?_ hp
        · rw [hq.failing, hf]
        · rwa [contains_eq_isSome, hq.others p fun _ _ _ => hf,
            ← contains_eq_isSome]

private theorem accounted_removeFile (h : (p, .removeFile) ∈ w.pending.entries) :
    (finished w).storage.files.contains p = false ∨
      (finished w).report.Failed .removeFile p := by
  cases hf : w.storage.failing.contains p with
  | false =>
      refine .inl ?_
      rw [contains_eq_isSome, content_applied w hf, get?_eq_some_of_mem h]
      rfl
  | true =>
      cases hfile : w.storage.files.contains p with
      | false =>
          exact .inl (by rw [contains_eq_isSome, content_denied w hf,
            ← contains_eq_isSome, hfile])
      | true =>
          have hdirs := (filesKept_dirsDone w).storage
          have hwrites := written_writesDone w
          have hf' : (dirsDone w).storage.failing.contains p = true := by
            rw [hdirs.failing, hf]
          have hfailed : (removalsDone w).report.Failed .removeFile p := by
            refine failed_foldl_removeFile ?_ ?_ (mem_pathsOf.2 h)
            · rw [hwrites.failing, hf']
            · rwa [contains_eq_isSome, hwrites.others p fun _ _ _ => hf',
                hdirs.files, ← contains_eq_isSome]
          exact .inr (hfailed.mono (errors_finished_of_removalsDone w))

/-! ## Directories -/

private theorem isDir_finished_of_addDir (h : (p, .addDir) ∈ w.pending.entries)
    (hdir : (removalsDone w).storage.isDir p = true) :
    (finished w).storage.isDir p = true := by
  refine isDir_foldl_removeDir (fun q => q = p) (fun q hq => hq ▸ hdir)
    (fun q hq => ?_) p rfl
  exact .inl fun r hr => hq ▸ not_same_of_kinds (mem_dirRemovals.1 hr) h (by simp)

private theorem accounted_addDir (h : (p, .addDir) ∈ w.pending.entries)
    (hne : p.isEmpty = false) :
    (finished w).storage.isDir p = true ∨
      ∃ above : Path, p.isWithin above = true ∧ (finished
        w).report.Failed .createDir above := by
  obtain ⟨needed, hneeded, hsame⟩ := exists_dirsNeeded_of_addDir h
  have hparts := Path.same_key_iff.1 hsame
  have hne' : needed.isEmpty = false := by
    rwa [Path.isEmpty_congr hparts]
  rcases isDir_or_error_foldl { storage := w.storage, cache := w.cache } hneeded
    hne' with
    hmade | ⟨error, hmem, hop, habove⟩
  · rw [MemoryStore.isDir_congr _ hsame] at hmade
    exact .inl (isDir_finished_of_addDir h ((grows_removalsDone w).isDir hmade))
  · have hfailed : (dirsDone w).report.Failed .createDir error.path :=
      ⟨error, hmem, hop, rfl⟩
    refine .inr ⟨error.path, ?_, (hfailed.mono (grows_removalsDone w).errors).mono
      (errors_finished_of_removalsDone w)⟩
    rw [Path.isWithin, List.isPrefixOf_iff_prefix, ← hparts]
    exact habove

section Behind

variable {c d : Commit MemoryStore} {removed : List Path}

private theorem not_isDir_behind (h : DirsRemoved c d removed)
    (hdir : c.storage.isDir p = false) :
    d.storage.isDir p = false := by
  rw [MemoryStore.isDir, Bool.or_eq_false_iff,
    Bool.eq_false_iff (b := SortedMap.contains _ _)]
    at hdir ⊢
  exact ⟨hdir.1, fun hknown => hdir.2 ((h.contains p).1 hknown).1⟩

theorem held_behind (h : DirsRemoved c d removed)
    (hbehind : ∀ r ∈ removed, r.parts.length ≤ p.parts.length ∧ same p r = false)
    (hempty : c.storage.isDirEmpty p = .ok false) :
    d.storage.isDir p = true ∧ ∃ q, d.storage.Holds p q := by
  obtain ⟨hknown, q, hchild, hq⟩ := MemoryStore.isDirEmpty_eq_false_iff.1 hempty
  have hspared (r : Path) (hr : r ∈ removed) : same r q = false := by
    have hdeep := MemoryStore.length_of_isChild hchild
    have hshort := (hbehind r hr).1
    rw [Bool.eq_false_iff, Ne, Path.same_key_iff]
    intro hparts
    rw [hparts] at hshort
    omega
  refine ⟨MemoryStore.isDir_iff.2
    (.inr ((h.contains p).2 ⟨hknown, fun r hr => ?_⟩)), q, hchild, ?_⟩
  · rw [same_comm, (hbehind r hr).2]
  · rw [h.files]
    exact hq.imp_right fun hq => (h.contains q).2 ⟨hq, hspared⟩

end Behind

/-- What is decided when the turn of a directory comes is not changed by those
behind it. -/
theorem accounted_removeDir (h : (p, .removeDir) ∈ w.pending.entries)
    (hroot : MemoryStore.isRoot p = false) :
    (finished w).storage.isDir p = false ∨
      (finished w).report.Failed .removeDir p ∨
      (finished w).storage.isDir p = true ∧ ∃ q,
      (finished w).storage.Holds p q := by
  obtain ⟨earlier, later, hsplit⟩ := List.mem_iff_append.1 (mem_dirRemovals.2 h)
  let c := earlier.foldl removeDir (removalsDone w)
  obtain ⟨removed, hremoved, hrest⟩ :=
    exists_dirsRemoved_foldl later (c.removeDir p)
  have hfinished : finished w = later.foldl removeDir (c.removeDir p) := by
    rw [finished_eq, hsplit, List.foldl_append, List.foldl_cons]
  rw [← hfinished] at hrest
  generalize hd : c.removeDir p = d at hrest
  have houtcome := dirRemoval c p
  rw [hd] at houtcome
  cases houtcome with
  | absent hdir => exact .inl (not_isDir_behind hrest hdir)
  | failed e _ =>
      exact .inr (.inl
        ⟨_, hrest.errors.subset (List.mem_append_right _ List.mem_cons_self),
          rfl, rfl⟩)
  | removed hempty =>
      refine .inl (not_isDir_behind hrest ?_)
      rw [MemoryStore.isDir, hroot, Bool.false_or, Bool.eq_false_iff]
      intro hknown
      have hother := (MemoryStore.contains_erase.1 hknown).2
      rw [same_refl] at hother
      cases hother
  | occupied hempty =>
      have hbehind := not_deeper_of_dirRemovals hsplit
      exact .inr (.inr (held_behind hrest
        (fun r hr => hbehind r (hremoved.subset hr)) hempty))

end Commit

/-- Every staged change ends in its effect or in an error of its own, except
that a directory which is not empty stays.  The root is a directory whatever is
removed, and an empty path is none whatever is added. -/
theorem Workspace.commit_accounts (w : Workspace MemoryStore)
    (hempty : ∀ p, (p, .addDir) ∈ w.pending.entries → p.isEmpty = false)
    (hroot : ∀ p, (p, .removeDir) ∈ w.pending.entries →
      MemoryStore.isRoot p = false) :
    w.commit.2.pending = ∅ ∧ ∀ p change, (p, change) ∈ w.pending.entries →
      change.Accounted w.commit.1 w.commit.2.storage p := by
  refine ⟨pending_commit w, fun p change h => ?_⟩
  rw [Commit.commit_eq]
  cases change with
  | write content => exact Commit.accounted_write h
  | removeFile => exact Commit.accounted_removeFile h
  | addDir => exact Commit.accounted_addDir h (hempty p h)
  | removeDir => exact Commit.accounted_removeDir h (hroot p h)

/-! ## A directory that cannot be created and one that is not empty -/

def barredStore : MemoryStore :=
  MemoryStore.empty.editAll [.insert ⟨"/c/d/f"⟩ "kept", .failOn ⟨"/b"⟩]

def barredWorkspace : Workspace MemoryStore :=
  (((Workspace.ofStorage barredStore).stageAddDir ⟨"/b/e"⟩).stageWrite ⟨"/b/x"⟩
    "new").stageRemoveDir
    ⟨"/c"⟩

private theorem entries_barredWorkspace : barredWorkspace.pending.entries =
    [(⟨"/b/e"⟩, .addDir), (⟨"/b/x"⟩, .write "new"), (⟨"/c"⟩, .removeDir)] := by
  decide +kernel

theorem commit_accounts_barred :
    let r := barredWorkspace.commit.1
    let s := barredWorkspace.commit.2.storage
    (∀ p, (p, .addDir) ∈ barredWorkspace.pending.entries → p.isEmpty = false) ∧
      (∀ p, (p, .removeDir) ∈ barredWorkspace.pending.entries →
        MemoryStore.isRoot p = false) ∧
      s.isDir ⟨"/b/e"⟩ = false ∧
      (∃ above : Path, (⟨"/b/e"⟩ : Path).isWithin above = true ∧
        r.Failed .createDir above) ∧
      s.files.get? ⟨"/b/x"⟩ = some "new" ∧ r.dirsDeleted = [] ∧ ∃ q,
      s.Holds ⟨"/c"⟩ q := by
  intro r s
  have hempty : ∀ p, (p, .addDir) ∈ barredWorkspace.pending.entries →
      p.isEmpty = false := by
    intro p hp
    rw [entries_barredWorkspace] at hp
    obtain rfl : p = ⟨"/b/e"⟩ := by simpa using hp
    decide
  have hroot : ∀ p, (p, .removeDir) ∈ barredWorkspace.pending.entries →
      MemoryStore.isRoot p = false := by
    intro p hp
    rw [entries_barredWorkspace] at hp
    obtain rfl : p = ⟨"/c"⟩ := by simpa using hp
    decide +kernel
  obtain ⟨-, hall⟩ := Workspace.commit_accounts barredWorkspace hempty hroot
  have hadd : Change.Accounted r s ⟨"/b/e"⟩ .addDir :=
    hall ⟨"/b/e"⟩ .addDir (by rw [entries_barredWorkspace]; simp)
  have hremove : Change.Accounted r s ⟨"/c"⟩ .removeDir :=
    hall ⟨"/c"⟩ .removeDir (by rw [entries_barredWorkspace]; simp)
  have hmissing : s.isDir ⟨"/b/e"⟩ = false := by decide +kernel
  have hstays : s.isDir ⟨"/c"⟩ = true := by decide +kernel
  have hunfailed : ¬ r.Failed .removeDir ⟨"/c"⟩ := by
    rintro ⟨error, hmem, hop, -⟩
    have hops : ∀ error ∈ r.errors, error.op = .createDir := by decide +kernel
    rw [hops error hmem] at hop
    cases hop
  refine ⟨hempty, hroot, hmissing, hadd.resolve_left (by simp [hmissing]), ?_,
    ?_, ?_⟩
  · decide +kernel
  · decide +kernel
  · exact ((hremove.resolve_left (by simp [hstays])).resolve_left hunfailed).2

end ComponentBuild
