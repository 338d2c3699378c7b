import ComponentBuild.Proofs.Workspace.Tree

/-!
# What a workspace tells about a path before and after a commit

Before the commit a staged change alone decides what is told about its path.
The commit carries a change out only where it fits: it removes no directory that
has something left in it, and a file that is written or removed takes away no
directory.  What it makes beside, the directories above a staged change, is not
told before.
-/

namespace ComponentBuild

open KeyOrder SortedMap

namespace Commit

/-! ## Directories after a commit without failing paths -/

/-- A directory that is made for a staged change: it is above a file, or it is
to be added or above one that is. -/
inductive Arises (pending : SortedMap Path Change) (q : Path) : Prop
  | above {p : Path} {content : String}
      (hp : (p, .write content) ∈ pending.entries)
      (hlong : q.parts ≠ []) (hbelow : Below p q)
  | added {p : Path} (hp : (p, .addDir) ∈ pending.entries)
      (hroot : p.parts ≠ [.root])
      (hlong : q.parts ≠ []) (hbelow : q.parts <+: p.parts)

/-- What is stored below the directory is staged for removal, and so is the
directory. -/
structure Emptied (w : Workspace MemoryStore) (q : Path) : Prop where
  files : ∀ file, w.storage.files.contains file = true → Below file q →
    w.pending.get? file = some .removeFile
  dirs : ∀ r, w.storage.dirs.contains r = true → q.parts <+: r.parts →
    w.pending.get? r = some .removeDir

section

variable {w : Workspace MemoryStore} {p q r : Path}

theorem Arises.long (h : Arises w.pending q) : q.parts ≠ [] := by
  cases h with
  | above _ hlong _ => exact hlong
  | added _ _ hlong _ => exact hlong

theorem Arises.mono (h : Arises w.pending r) (hlong : q.parts ≠ [])
    (habove : q.parts <+: r.parts) :
    Arises w.pending q := by
  cases h with
  | above hp _ hbelow => exact .above hp hlong (hbelow.above habove)
  | added hp hroot _ hbelow => exact .added hp hroot hlong (habove.trans hbelow)

theorem Made.arises (h : Made w r) : Arises w.pending r := by
  obtain ⟨dir, hdir, hbelow⟩ := h.needed
  rcases mem_dirsNeeded hdir with hadd | ⟨p, content, hp, hparent⟩
  · refine .added hadd (fun hroot => ?_) h.long hbelow
    rw [hroot, List.prefix_cons_iff] at hbelow
    obtain ⟨rest, hparts, hrest⟩ := hbelow.resolve_left h.long
    rw [List.prefix_nil.1 hrest] at hparts
    have hthere := h.missing
    rw [MemoryStore.isDir_iff.2 (.inl hparts)] at hthere
    cases hthere
  · rw [Path.parts_parent hparent] at hbelow
    exact .above hp h.long ((below_iff_dropLast h.long).2 hbelow)

private theorem contains_removalsDone_iff (hrooted : w.storage.Rooted)
    (hclosed : w.storage.Closed) (hfree : w.storage.failing = ∅) :
    (removalsDone w).storage.dirs.contains q = true ↔
      w.storage.dirs.contains q = true ∨ Arises w.pending q := by
  rw [contains_removalsDone hrooted hclosed]
  constructor
  · rintro (hthere | ⟨r, hr, hlong, habove⟩ | ⟨p, content, hp, -, hlong, hbelow⟩)
    · exact .inl hthere
    · exact .inr (hr.arises.mono hlong habove)
    · exact .inr (.above hp hlong hbelow)
  · rintro (hthere | hq)
    · exact .inl hthere
    · cases hq with
      | above hp hlong hbelow =>
          exact .inr (.inr ⟨_, _, hp, MemoryStore.not_failing hfree _,
            hlong, hbelow⟩)
      | @added p hp hroot hlong hbelow =>
          cases hdir : w.storage.isDir p with
          | true =>
              have hknown := (MemoryStore.isDir_iff.1 hdir).resolve_left hroot
              exact .inl (hrooted p q hknown hlong hbelow)
          | false =>
              obtain ⟨needed, hneeded, hsame⟩ := exists_dirsNeeded_of_addDir hp
              have hparts := Path.same_key_iff.1 hsame
              have hmade : Made w p :=
                ⟨hdir, hbelow.ne_nil hlong,
                  ⟨needed, hneeded, hparts ▸ List.prefix_refl _⟩,
                  fun r _ _ _ => MemoryStore.not_failing hfree r⟩
              exact .inr (.inl ⟨p, hmade, hlong, hbelow⟩)

theorem Arises.not_cleared (h : Arises w.pending q) (hrooted : w.storage.Rooted)
    (hclosed : w.storage.Closed) (hfree : w.storage.failing = ∅) :
    ¬ Cleared w q := by
  rintro ⟨hfiles, hdirs⟩
  cases h with
  | above hp _ hbelow =>
      refine hfiles _ ?_ hbelow
      rw [files_removalsDone, contains_files_finished]
      exact .inl ⟨⟨_, get?_eq_some_of_mem hp⟩, MemoryStore.not_failing hfree _⟩
  | added hp hroot hlong hbelow =>
      have hadded := (contains_removalsDone_iff hrooted hclosed hfree).2
        (.inr (.added hp hroot (hbelow.ne_nil hlong) (List.prefix_refl _)))
      have hstaged := exists_dirRemovals_iff.1 (hdirs _ hadded hbelow).1
      rw [get?_eq_some_of_mem hp] at hstaged
      cases hstaged

private theorem cleared_iff_emptied (hrooted : w.storage.Rooted)
    (hclosed : w.storage.Closed) (hfree : w.storage.failing = ∅)
    (hlong : q.parts ≠ []) :
    Cleared w q ↔ Emptied w q ∧ ¬ Arises w.pending q := by
  have hdone (r : Path) :=
    contains_removalsDone_iff (q := r) hrooted hclosed hfree
  constructor
  · intro hcleared
    refine ⟨⟨fun file hfile hbelow => ?_, fun r hr hbelow => ?_⟩,
      fun harises => harises.not_cleared hrooted hclosed hfree hcleared⟩
    · by_contra hkept
      refine hcleared.files file ?_ hbelow
      rw [files_removalsDone, contains_files_finished]
      exact .inr ⟨hfile, fun hstaged => absurd hstaged hkept⟩
    · exact exists_dirRemovals_iff.1
        (hcleared.dirs r ((hdone r).2 (.inl hr)) hbelow).1
  · rintro ⟨⟨hfiles, hdirs⟩, hnone⟩
    constructor
    · intro file hfile hbelow
      rw [files_removalsDone, contains_files_finished] at hfile
      rcases hfile with ⟨⟨content, hstaged⟩, -⟩ | ⟨hfile, hkept⟩
      · obtain ⟨p, hp, hsame⟩ := get?_eq_some_iff.1 hstaged
        refine hnone (.above hp hlong ?_)
        rwa [Below, Path.same_key_iff.1 hsame]
      · have hfailing := hkept (hfiles file hfile hbelow)
        rw [MemoryStore.not_failing hfree file] at hfailing
        cases hfailing
    · intro r hr hbelow
      rw [failing_removalsDone]
      refine ⟨exists_dirRemovals_iff.2 ?_, MemoryStore.not_failing hfree r⟩
      rcases (hdone r).1 hr with hold | harises
      · exact hdirs r hold hbelow
      · exact absurd (harises.mono hlong hbelow) hnone

/-- The directories after a commit: those that arise, and those from before that
are not emptied. -/
theorem contains_finished_iff (hrooted : w.storage.Rooted)
    (hclosed : w.storage.Closed) (hnamed : w.storage.Named)
    (hfree : w.storage.failing = ∅) :
    (finished w).storage.dirs.contains q = true ↔
      Arises w.pending q ∨ w.storage.dirs.contains q = true ∧ ¬ Emptied w q := by
  by_cases hlong : q.parts = []
  · refine iff_of_false (fun hthere => ?_) ?_
    · exact keeps_finished MemoryStore.keeps_named hnamed q hthere hlong
    · rintro (harises | ⟨hthere, -⟩)
      · exact harises.long hlong
      · exact hnamed q hthere hlong
  · rw [contains_finished hrooted hclosed hlong,
      contains_removalsDone_iff hrooted hclosed hfree,
      cleared_iff_emptied hrooted hclosed hfree hlong]
    tauto

private theorem isDir_finished_iff (hrooted : w.storage.Rooted)
    (hclosed : w.storage.Closed) (hnamed : w.storage.Named)
    (hfree : w.storage.failing = ∅) :
    (finished w).storage.isDir q = true ↔ q.parts = [.root] ∨ Arises w.pending q ∨
      w.storage.dirs.contains q = true ∧ ¬ Emptied w q := by
  rw [MemoryStore.isDir_iff, contains_finished_iff hrooted hclosed hnamed hfree]

private theorem isPresent_finished_iff (hrooted : w.storage.Rooted)
    (hclosed : w.storage.Closed) (hnamed : w.storage.Named)
    (hfree : w.storage.failing = ∅) :
    (finished w).storage.isPresent q = true ↔
      ((∃ content, w.pending.get? q = some (.write content)) ∨
        w.storage.files.contains q = true ∧ w.pending.get? q ≠ some .removeFile) ∨
      Arises w.pending q ∨ w.storage.dirs.contains q = true ∧ ¬ Emptied w q := by
  rw [MemoryStore.isPresent_iff,
    contains_finished_iff hrooted hclosed hnamed hfree,
    contains_files_finished, MemoryStore.not_failing hfree q]
  simp

/-! ## What a commit does to what is told, for each kind of change -/

theorem isDir_kept (hrooted : w.storage.Rooted) (hclosed : w.storage.Closed)
    (hnamed : w.storage.Named) (hfree : w.storage.failing = ∅)
    (hkept : w.pending.get? q ≠ some .removeDir)
    (hmade : Arises w.pending q → w.storage.dirs.contains q = true) :
    (finished w).storage.dirs.contains q = w.storage.dirs.contains q ∧
      (finished w).storage.isDir q = w.storage.isDir q := by
  have hdirs :
      (finished w).storage.dirs.contains q = w.storage.dirs.contains q := by
    rw [Bool.eq_iff_iff, contains_finished_iff hrooted hclosed hnamed hfree]
    constructor
    · rintro (harises | ⟨hthere, -⟩)
      · exact hmade harises
      · exact hthere
    · intro hthere
      refine .inr ⟨hthere, fun hemptied => ?_⟩
      exact hkept (hemptied.dirs q hthere (List.prefix_refl _))
  refine ⟨hdirs, ?_⟩
  rw [Bool.eq_iff_iff, MemoryStore.isDir_iff, MemoryStore.isDir_iff, hdirs]

private theorem isPresent_unstaged (hfree : w.storage.failing = ∅)
    (hp : w.pending.get? q = none)
    (hdirs : (finished w).storage.dirs.contains q = w.storage.dirs.contains q) :
    (finished w).storage.isPresent q = w.storage.isPresent q := by
  have hfiles : (finished w).storage.files.contains q = true ↔
      w.storage.files.contains q = true := by
    rw [contains_files_finished, hp, MemoryStore.not_failing hfree q]
    simp
  rw [Bool.eq_iff_iff, MemoryStore.isPresent_iff, MemoryStore.isPresent_iff,
    hfiles, hdirs]

private theorem isPresent_written (hfree : w.storage.failing = ∅)
    {content : String} (hp : w.pending.get? q = some (.write content)) :
    (finished w).storage.isPresent q = true := by
  rw [MemoryStore.isPresent_iff, contains_files_finished]
  exact .inl (.inl ⟨⟨content, hp⟩, MemoryStore.not_failing hfree q⟩)

theorem isPresent_removed (hfree : w.storage.failing = ∅)
    (hp : w.pending.get? q = some .removeFile)
    (hdirs : (finished w).storage.dirs.contains q = w.storage.dirs.contains q)
    (hdir : w.storage.isDir q = false) :
    (finished w).storage.isPresent q = false := by
  rw [Bool.eq_false_iff, ne_eq, MemoryStore.isPresent_iff, hdirs,
    contains_files_finished]
  rintro (hfile | hthere)
  · rw [hp, MemoryStore.not_failing hfree q] at hfile
    simp at hfile
  · rw [MemoryStore.isDir_iff.2 (.inr hthere)] at hdir
    cases hdir

private theorem told_added_iff (hrooted : w.storage.Rooted)
    (hclosed : w.storage.Closed) (hnamed : w.storage.Named)
    (hfree : w.storage.failing = ∅) (hp : w.pending.get? q = some .addDir) :
    ((finished w).storage.isPresent q = true ∧
      (finished w).storage.isDir q = true) ↔
      Arises w.pending q ∨ w.storage.isPresent q = true ∧
      w.storage.isDir q = true := by
  have hstays (hthere : w.storage.dirs.contains q = true) : ¬ Emptied w q := by
    intro hemptied
    have hremoved := hemptied.dirs q hthere (List.prefix_refl _)
    rw [hp] at hremoved
    cases hremoved
  have hpresent := isPresent_finished_iff (q := q) hrooted hclosed hnamed hfree
  have hdir := isDir_finished_iff (q := q) hrooted hclosed hnamed hfree
  rw [hpresent, hdir, MemoryStore.isPresent_iff, MemoryStore.isDir_iff]
  constructor
  · rintro ⟨(⟨content, hwrite⟩ | ⟨hfile, -⟩) | harises | ⟨hthere, -⟩, hplace⟩
    · rw [hp] at hwrite
      cases hwrite
    · rcases hplace with hroot | harises | ⟨hthere, -⟩
      · exact .inr ⟨.inl hfile, .inl hroot⟩
      · exact .inl harises
      · exact .inr ⟨.inr hthere, .inr hthere⟩
    · exact .inl harises
    · exact .inr ⟨.inr hthere, .inr hthere⟩
  · rintro (harises | ⟨hfile | hthere, hplace⟩)
    · exact ⟨.inr (.inl harises), .inr (.inl harises)⟩
    · have hkept : w.pending.get? q ≠ some .removeFile := by simp [hp]
      exact ⟨.inl (.inr ⟨hfile, hkept⟩),
        hplace.imp_right fun h => .inr ⟨h, hstays h⟩⟩
    · have hdirs := And.intro hthere (hstays hthere)
      exact ⟨.inr (.inr hdirs), .inr (.inr hdirs)⟩

private theorem told_removed_iff (hrooted : w.storage.Rooted)
    (hclosed : w.storage.Closed) (hnamed : w.storage.Named)
    (hfree : w.storage.failing = ∅) (hp : w.pending.get? q = some .removeDir)
    (hmade : Arises w.pending q → w.storage.dirs.contains q = true) :
    ((finished w).storage.isPresent q = false ∧
      (finished w).storage.isDir q = false) ↔
      w.storage.files.contains q = false ∧ MemoryStore.isRoot q = false ∧
        (w.storage.dirs.contains q = true →
          Emptied w q ∧ ¬ Arises w.pending q) := by
  have hpresent := isPresent_finished_iff (q := q) hrooted hclosed hnamed hfree
  have hdir := isDir_finished_iff (q := q) hrooted hclosed hnamed hfree
  simp only [Bool.eq_false_iff, ne_eq, hpresent, hdir, MemoryStore.isRoot_iff]
  constructor
  · rintro ⟨habsent, hnone⟩
    refine ⟨fun hfile => habsent (.inl (.inr ⟨hfile, by simp [hp]⟩)),
      fun hroot => hnone (.inl hroot),
      fun hthere => ⟨?_, fun harises => hnone (.inr (.inl harises))⟩⟩
    by_contra hfilled
    exact hnone (.inr (.inr ⟨hthere, hfilled⟩))
  · rintro ⟨hfile, hroot, hemptied⟩
    have harises (h : Arises w.pending q) : False := (hemptied (hmade h)).2 h
    constructor
    · rintro ((⟨content, hwrite⟩ | ⟨hthere, -⟩) | h | ⟨hthere, hfilled⟩)
      · rw [hp] at hwrite
        cases hwrite
      · exact hfile hthere
      · exact harises h
      · exact hfilled (hemptied hthere).1
    · rintro (h | h | ⟨hthere, hfilled⟩)
      · exact hroot h
      · exact harises h
      · exact hfilled (hemptied hthere).1

end

end Commit

namespace Workspace

/-- What is staged at the path fits the tree: the commit carries it out and
brings nothing else about. A file is written or removed where there is no
directory; a directory is added under a path that can be made or is there; one
that is removed is emptied and stays so. -/
def Fits (w : Workspace MemoryStore) (q : Path) : Prop :=
  match w.pending.get? q with
  | none => True
  | some (.write _) | some .removeFile => w.storage.isDir q = false
  | some .addDir =>
      Commit.Arises w.pending q ∨ w.storage.isPresent q = true ∧
      w.storage.isDir q = true
  | some .removeDir =>
      w.storage.files.contains q = false ∧ MemoryStore.isRoot q = false ∧
        (w.storage.dirs.contains q = true →
          Commit.Emptied w q ∧ ¬ Commit.Arises w.pending q)

private theorem isPresent_commit (w : Workspace MemoryStore) (p : Path) :
    w.commit.2.isPresent p = (Commit.finished w).storage.isPresent
      p.normalize := by
  rw [Commit.commit_eq]
  rfl

private theorem isDir_commit (w : Workspace MemoryStore) (p : Path) :
    w.commit.2.isDir p = (Commit.finished w).storage.isDir p.normalize := by
  rw [Commit.commit_eq]
  rfl

/-- Leaving aside directories that are made for changes staged elsewhere, a
workspace tells the same of a path before and after a commit exactly if what is
staged there fits. -/
theorem tells_same_iff (w : Workspace MemoryStore) {edits : List Edit}
    (hstorage : w.storage = MemoryStore.empty.editAll edits)
    (hfree : w.storage.failing = ∅) (p : Path)
    (hmade : Commit.Arises w.pending p.normalize →
      w.storage.dirs.contains p.normalize = true ∨
      w.pending.get? p.normalize = some .addDir) :
    (w.commit.2.isPresent p = w.isPresent p ∧ w.commit.2.isDir p = w.isDir p) ↔
      w.Fits p.normalize := by
  have hrooted : w.storage.Rooted := hstorage ▸ MemoryStore.rooted_editAll edits
  have hclosed : w.storage.Closed := hstorage ▸ MemoryStore.closed_editAll edits
  have hnamed : w.storage.Named := hstorage ▸ MemoryStore.named_editAll edits
  rw [isPresent_commit, isDir_commit, isPresent, isDir, pending?, Fits]
  generalize p.normalize = q at *
  have hsame (hremoval : w.pending.get? q ≠ some .removeDir)
      (haddition : w.pending.get? q ≠ some .addDir) :=
    Commit.isDir_kept hrooted hclosed hnamed hfree hremoval fun harises =>
      (hmade harises).resolve_right haddition
  -- What is staged at the path alone decides what is told before; its kind
  -- decides what comes after.
  cases hp : w.pending.get? q with
  | none =>
      obtain ⟨hdirs, hdir⟩ := hsame (by simp [hp]) (by simp [hp])
      exact iff_of_true ⟨Commit.isPresent_unstaged hfree hp hdirs, hdir⟩ trivial
  | some change =>
      cases change with
      | write content =>
          obtain ⟨-, hdir⟩ := hsame (by simp [hp]) (by simp [hp])
          dsimp only
          rw [hdir]
          exact ⟨And.right, fun hfits => ⟨Commit.isPresent_written hfree hp,
            hfits⟩⟩
      | removeFile =>
          obtain ⟨hdirs, hdir⟩ := hsame (by simp [hp]) (by simp [hp])
          dsimp only
          rw [hdir]
          exact ⟨And.right, fun hfits =>
            ⟨Commit.isPresent_removed hfree hp hdirs hfits, hfits⟩⟩
      | addDir => exact Commit.told_added_iff hrooted hclosed hnamed hfree hp
      | removeDir =>
          exact Commit.told_removed_iff hrooted hclosed hnamed hfree hp
            fun harises =>
            (hmade harises).resolve_right (by simp [hp])

end Workspace

/-! ## A directory that is emptied and one that is not -/

def filledEdits : List Edit :=
  [.insert ⟨"/d/f"⟩ "text"]

def emptyingWorkspace : Workspace MemoryStore :=
  ((Workspace.ofStorage (MemoryStore.empty.editAll filledEdits)).stageRemove
    ⟨"/d/f"⟩).stageRemoveDir
    ⟨"/d"⟩

theorem tells_same_emptying :
    emptyingWorkspace.storage = MemoryStore.empty.editAll filledEdits ∧
      emptyingWorkspace.storage.failing = ∅ ∧
      (Commit.Arises emptyingWorkspace.pending (⟨"/d"⟩ : Path).normalize →
        emptyingWorkspace.storage.dirs.contains (⟨"/d"⟩ : Path).normalize = true ∨
          emptyingWorkspace.pending.get? (⟨"/d"⟩ : Path).normalize =
            some .addDir) ∧
      emptyingWorkspace.storage.isDir ⟨"/d"⟩ = true ∧
      emptyingWorkspace.isDir ⟨"/d"⟩ = false ∧
      emptyingWorkspace.commit.2.isDir ⟨"/d"⟩ = false ∧
      emptyingWorkspace.Fits (⟨"/d"⟩ : Path).normalize := by
  have hstorage :
      emptyingWorkspace.storage = MemoryStore.empty.editAll filledEdits := rfl
  have hmade : Commit.Arises emptyingWorkspace.pending (⟨"/d"⟩ : Path).normalize →
      emptyingWorkspace.storage.dirs.contains (⟨"/d"⟩ : Path).normalize = true ∨
        emptyingWorkspace.pending.get? (⟨"/d"⟩ : Path).normalize = some .addDir :=
    fun _ => .inl (by decide +kernel)
  have hpresent :
      emptyingWorkspace.commit.2.isPresent ⟨"/d"⟩ =
        emptyingWorkspace.isPresent ⟨"/d"⟩ := by
    decide +kernel
  have hdir :
      emptyingWorkspace.commit.2.isDir ⟨"/d"⟩ =
        emptyingWorkspace.isDir ⟨"/d"⟩ := by
    decide +kernel
  have hfits :=
    (Workspace.tells_same_iff emptyingWorkspace hstorage rfl ⟨"/d"⟩ hmade).1
    ⟨hpresent, hdir⟩
  have hgone : emptyingWorkspace.isDir ⟨"/d"⟩ = false := by decide +kernel
  exact ⟨hstorage, rfl, hmade, by decide +kernel, hgone, hdir.trans hgone, hfits⟩

/-- The file in the directory stays, and so does the directory; the one above
the new file is made. -/
def keepingWorkspace : Workspace MemoryStore :=
  ((Workspace.ofStorage (MemoryStore.empty.editAll filledEdits)).stageRemoveDir
    ⟨"/d"⟩).stageWrite
    ⟨"/a/b"⟩ "new"

theorem tells_other_keeping :
    keepingWorkspace.storage = MemoryStore.empty.editAll filledEdits ∧
      keepingWorkspace.storage.failing = ∅ ∧
      (keepingWorkspace.isPresent ⟨"/d"⟩ = false ∧
        keepingWorkspace.isDir ⟨"/d"⟩ = false) ∧
      (keepingWorkspace.commit.2.isPresent ⟨"/d"⟩ = true ∧
        keepingWorkspace.commit.2.isDir ⟨"/d"⟩ = true) ∧
      (keepingWorkspace.isPresent ⟨"/a"⟩ = false ∧
        keepingWorkspace.isDir ⟨"/a"⟩ = false) ∧
      keepingWorkspace.commit.2.isPresent ⟨"/a"⟩ = true ∧
      keepingWorkspace.commit.2.isDir ⟨"/a"⟩ = true := by
  refine ⟨rfl, rfl, ?_, ?_, ?_, ?_, ?_⟩
  all_goals decide +kernel

end ComponentBuild
