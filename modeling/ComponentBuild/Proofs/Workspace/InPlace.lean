import ComponentBuild.Proofs.Workspace.DirectoryReport

/-!
# Changes that are in place

A staged change that finds everything as it would leave it is passed over.  A
commit puts the changes that add something, and the removals of files, in place
and keeps them there.
-/

namespace ComponentBuild

open KeyOrder SortedMap

/-- What the change of the path `p` would bring about holds of the store
already. -/
def Change.InPlace (s : MemoryStore) (p : Path) : Change → Prop
  | .write content =>
      s.files.get? p = some content ∧
        ∀ dir, p.parent = some dir → dir.isEmpty = true ∨ s.isDir dir = true
  | .removeFile => s.files.contains p = false
  | .addDir => p.isEmpty = true ∨ s.isDir p = true
  | .removeDir => s.isDir p = false ∨ s.isDirEmpty p = .ok false

namespace Commit

/-! ## Passing changes over -/

section

variable {c : Commit MemoryStore} {p : Path}

private theorem ensureDir_of_there
    (h : p.isEmpty = true ∨ c.storage.isDir p = true) : c.ensureDir p = c := by
  rw [ensureDir, missingLevels_of_there h, createLevels]

private theorem removeDir_of_inPlace (h : Change.removeDir.InPlace c.storage p) :
    c.removeDir p = c := by
  rcases h with h | h
  · simp [removeDir, h]
  · simp [removeDir, h]

end

/-- The rounds so far have changed nothing and report nothing. -/
structure Untouched (w : Workspace MemoryStore) (c : Commit MemoryStore) :
    Prop where
  storage : c.storage = w.storage
  report : c.report = {}

section Rounds

variable {w : Workspace MemoryStore} (hfailing : w.storage.failing = ∅)
  (hplaced : ∀ p change, (p, change) ∈ w.pending.entries →
    change.InPlace w.storage p)

include hplaced

private theorem untouched_dirsDone : Untouched w (dirsDone w) := by
  refine List.foldlRecOn (motive := Untouched w) _ _ ⟨rfl,
    rfl⟩ fun c hc dir hdir => ?_
  have hthere : dir.isEmpty = true ∨ c.storage.isDir dir = true := by
    rw [hc.storage]
    rcases mem_dirsNeeded hdir with hadd | ⟨p, content, hwrite, hparent⟩
    · exact hplaced dir .addDir hadd
    · exact (hplaced p (.write content) hwrite).2 dir hparent
  rwa [ensureDir_of_there hthere]

include hfailing

private theorem untouched_writesDone : Untouched w (writesDone w) := by
  refine List.foldlRecOn (motive := Untouched w) _ _
    (untouched_dirsDone hplaced) fun c hc e he => ?_
  have hcontent := (hplaced e.1 (.write e.2) (mem_writesOf.1 he)).1
  rw [← hc.storage] at hcontent hfailing
  rw [writeFile_unchanged (MemoryStore.not_failing hfailing e.1) hcontent]
  exact ⟨hc.storage, hc.report⟩

private theorem untouched_removalsDone : Untouched w (removalsDone w) := by
  refine List.foldlRecOn (motive := Untouched w) _ _
    (untouched_writesDone hfailing hplaced)
    fun c hc p hp => ?_
  have hmissing : w.storage.files.contains p = false :=
    hplaced p .removeFile (mem_pathsOf.1 hp)
  rw [← hc.storage] at hmissing hfailing
  rw [removeFile_missing c (MemoryStore.not_failing hfailing p) hmissing]
  exact ⟨hc.storage, hc.report⟩

private theorem untouched_finished : Untouched w (finished w) := by
  refine List.foldlRecOn (motive := Untouched w) _ _
    (untouched_removalsDone hfailing hplaced)
    fun c hc p hp => ?_
  have hspared := hplaced p .removeDir (mem_dirRemovals.1 hp)
  rw [← hc.storage] at hspared
  rwa [removeDir_of_inPlace hspared]

/-- What is in place leaves storage and the report alone. -/
theorem commit_of_inPlace : w.commit.1 = {} ∧ w.commit.2.storage = w.storage := by
  have hfinished := untouched_finished hfailing hplaced
  rw [commit_eq]
  exact ⟨by simp [hfinished.report, CommitReport.sorted, Path.sorted],
    hfinished.storage⟩

end Rounds

/-! ## What a commit puts in place -/

variable {w : Workspace MemoryStore}

private theorem isDir_finished_of_dirsNeeded (hfailing : w.storage.failing = ∅)
    {dir : Path}
    (hdir : ∃ needed ∈ dirsNeeded w.pending, same needed dir = true)
    (hne : dir.isEmpty = false) :
    (finished w).storage.isDir dir = true := by
  obtain ⟨needed, hneeded, hsame⟩ := hdir
  rw [← Path.isEmpty_congr (Path.same_key_iff.1 hsame)] at hne
  rw [← MemoryStore.isDir_congr _ hsame]
  have hthere :=
    (grows_removalsDone w).isDir (isDir_dirsDone hfailing hneeded hne)
  refine isDir_foldl_removeDir (fun q => q = needed) (fun q hq => hq ▸ hthere)
    (fun q hq => ?_)
    needed rfl
  refine (held_of_dirsNeeded hfailing hneeded (hq ▸ same_refl needed)).imp_right
    ?_
  exact fun ⟨r, hchild, hr⟩ => ⟨r, hchild, .inl hr⟩

theorem inPlace_finished (hfailing : w.storage.failing = ∅) {p : Path}
    {change : Change} (h : (p, change) ∈ w.pending.entries)
    (hkind : change ≠ .removeDir) :
    change.InPlace (finished w).storage p := by
  have hcontent := content_applied w (MemoryStore.not_failing hfailing p)
  rw [get?_eq_some_of_mem h] at hcontent
  have hdirs (dir : Path) (hdir : dir.isEmpty = false →
      ∃ needed ∈ dirsNeeded w.pending,
      same needed dir = true) :
      dir.isEmpty = true ∨ (finished w).storage.isDir dir = true := by
    cases hempty : dir.isEmpty with
    | true => exact .inl rfl
    | false =>
        exact .inr (isDir_finished_of_dirsNeeded hfailing (hdir hempty) hempty)
  cases change with
  | write content =>
      exact ⟨hcontent, fun dir hparent =>
        hdirs dir (exists_dirsNeeded_of_write h hparent)⟩
  | removeFile =>
      rw [Change.InPlace, contains_eq_isSome, hcontent]
      rfl
  | addDir => exact hdirs p fun _ => exists_dirsNeeded_of_addDir h
  | removeDir => exact absurd rfl hkind

end Commit

theorem Change.InPlace.congr {s : MemoryStore} {p q : Path} {change : Change}
    (h : change.InPlace s p) (hsame : same p q = true) : change.InPlace s q := by
  have hparts := Path.same_key_iff.1 hsame
  cases change with
  | write content =>
      refine ⟨by rw [← get?_congr _ hsame, h.1], fun dir hparent => ?_⟩
      have hdir := Path.parts_parent hparent
      cases hempty : dir.isEmpty with
      | true => exact .inl rfl
      | false =>
          have habove : p.parts.dropLast ≠ [] := by
            rwa [hparts, ← hdir, ← Path.isEmpty_eq_false_iff]
          obtain ⟨above, hparent', habove'⟩ := Path.exists_parent habove
          have hsame' : same above dir = true := by
            rw [Path.same_key_iff, habove', hdir, hparts]
          rcases h.2 above hparent' with hnone | hthere
          · rw [Path.isEmpty_iff, habove'] at hnone
            exact absurd hnone habove
          · exact .inr (by rwa [← MemoryStore.isDir_congr _ hsame'])
  | removeFile =>
      rw [Change.InPlace, ← contains_congr _ hsame]
      exact h
  | addDir =>
      refine h.imp (fun hempty => ?_) fun hthere => ?_
      · rwa [← Path.isEmpty_congr hparts]
      · rwa [← MemoryStore.isDir_congr _ hsame]
  | removeDir =>
      refine h.imp (fun hmissing => ?_) fun hheld => ?_
      · rwa [← MemoryStore.isDir_congr _ hsame]
      · rw [MemoryStore.isDirEmpty_eq_false_iff] at hheld ⊢
        obtain ⟨hknown, r, hr⟩ := hheld
        exact ⟨by rwa [← contains_congr _ hsame], r,
          by rwa [← MemoryStore.holds_congr hsame]⟩

end ComponentBuild
