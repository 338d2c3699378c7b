import ComponentBuild.Proofs.Storage.Edits
import ComponentBuild.Proofs.Workspace.Directories
import ComponentBuild.Proofs.Workspace.Settling

/-!
# Which directories a commit takes away

Directories are removed from the deepest up.  So one goes exactly if there is no
file below it and every directory at or below it is to be removed and can be: by
the time its turn comes, it is empty.
-/

namespace ComponentBuild.Commit

open KeyOrder SortedMap

def Below (q p : Path) : Prop :=
  p.parts <+: q.parts ∧ p.parts ≠ q.parts

private theorem below_congr {p p' q : Path} (h : same p p' = true) :
    Below q p ↔ Below q p' := by
  rw [Below, Below, Path.same_key_iff.1 h]

theorem Below.above {p q r : Path} (h : Below p q)
    (habove : r.parts <+: q.parts) : Below p r := by
  refine ⟨habove.trans h.1, fun heq => h.2 (h.1.eq_of_length ?_)⟩
  exact le_antisymm h.1.length_le (heq ▸ habove.length_le)

theorem below_iff_dropLast {p q : Path} (hlong : q.parts ≠ []) :
    Below p q ↔ q.parts <+: p.parts.dropLast := by
  refine ⟨fun h => Path.prefix_dropLast h.1 h.2,
    fun h => ⟨h.trans (List.dropLast_prefix _), ?_⟩⟩
  intro heq
  have hle := h.length_le
  have hpos : 0 < q.parts.length := List.length_pos_iff.2 hlong
  rw [List.length_dropLast, ← heq] at hle
  omega

/-- Removing the directories of the batch, the deepest first, leaves nothing at
or below the path. -/
structure Clearable (s : MemoryStore) (batch : List Path) (q : Path) : Prop where
  files : ∀ file, s.files.contains file = true → ¬ Below file q
  dirs : ∀ r, s.dirs.contains r = true → q.parts <+: r.parts →
    (∃ p ∈ batch, same p r = true) ∧ s.failing.contains r = false

theorem Clearable.congr {s : MemoryStore} {batch : List Path} {p q : Path}
    (h : Clearable s batch p) (hsame : same p q = true) :
    Clearable s batch q := by
  obtain ⟨hfiles, hdirs⟩ := h
  rw [Path.same_key_iff.1 hsame] at hdirs
  exact ⟨fun file hfile hbelow =>
    hfiles file hfile ((below_congr hsame).2 hbelow), hdirs⟩

theorem clearable_erase {s : MemoryStore} {batch : List Path} {dir q : Path}
    (hf : s.failing.contains dir = false) :
    Clearable { s with dirs := s.dirs.erase dir } batch q ↔
      Clearable s (dir :: batch) q := by
  constructor
  · rintro ⟨hfiles, hdirs⟩
    refine ⟨hfiles, fun r hr hbegin => ?_⟩
    cases hsame : same dir r with
    | true =>
        exact ⟨⟨dir, List.mem_cons_self, hsame⟩,
          by rw [← contains_congr _ hsame, hf]⟩
    | false =>
        obtain ⟨⟨p, hp, hp'⟩, hf'⟩ :=
          hdirs r (MemoryStore.contains_erase.2 ⟨hr, hsame⟩) hbegin
        exact ⟨⟨p, List.mem_cons_of_mem _ hp, hp'⟩, hf'⟩
  · rintro ⟨hfiles, hdirs⟩
    refine ⟨hfiles, fun r hr hbegin => ?_⟩
    obtain ⟨hr, hother⟩ := MemoryStore.contains_erase.1 hr
    obtain ⟨⟨p, hp, hsame⟩, hf'⟩ := hdirs r hr hbegin
    refine ⟨?_, hf'⟩
    rcases List.mem_cons.1 hp with rfl | hp
    · rw [hother] at hsame
      cases hsame
    · exact ⟨p, hp, hsame⟩

section

variable {c : Commit MemoryStore} {batch : List Path} {dir q : Path}

private theorem storage_removeDir (c : Commit MemoryStore) (dir : Path) :
    (c.removeDir dir).storage =
      if c.storage.isDirEmpty dir = .ok true ∧
        c.storage.failing.contains dir = false then
        { c.storage with dirs := c.storage.dirs.erase dir }
      else c.storage := by
  simp only [removeDir, MemoryStore.storage_isDir, MemoryStore.storage_isDirEmpty,
    MemoryStore.storage_removeDir]
  cases hempty : c.storage.isDirEmpty dir with
  | error e => split <;> simp
  | ok empty =>
      have hdir : c.storage.isDir dir = true :=
        MemoryStore.isDir_iff.2 (.inr (MemoryStore.contains_of_isDirEmpty hempty))
      cases empty with
      | false => simp [hdir]
      | true =>
          cases hf : c.storage.failing.contains dir with
          | true => simp [hdir, MemoryStore.removeDir_failing hf hempty]
          | false => simp [hdir, MemoryStore.removeDir_eq hf hempty]

theorem isDirEmpty_of_childless (hdir : c.storage.dirs.contains dir = true)
    (h : ∀ r, ¬ c.storage.Holds dir r) : c.storage.isDirEmpty dir = .ok true := by
  cases hempty : c.storage.isDirEmpty dir with
  | error e =>
      rw [MemoryStore.isDirEmpty_eq hdir] at hempty
      cases hempty
  | ok empty =>
      cases empty with
      | true => rfl
      | false =>
          obtain ⟨-, r, hr⟩ := MemoryStore.isDirEmpty_eq_false_iff.1 hempty
          exact absurd hr (h r)

private theorem clearable_removed (hrooted : c.storage.Rooted)
    (hclosed : c.storage.Closed) (hempty : c.storage.isDirEmpty dir = .ok true)
    (hf : c.storage.failing.contains dir = false) (hlong : dir.parts ≠ [])
    (batch : List Path) : Clearable c.storage (dir :: batch) dir := by
  constructor
  · rintro file hfile ⟨hbegin, hproper⟩
    rw [hclosed.not_empty hfile hlong hbegin hproper] at hempty
    cases hempty
  · intro r hr hbegin
    by_cases hparts : dir.parts = r.parts
    · have hsame : same dir r = true := Path.same_key_iff.2 hparts
      exact ⟨⟨dir, List.mem_cons_self, hsame⟩,
        by rw [← contains_congr _ hsame, hf]⟩
    · rw [hrooted.not_empty hr hlong hbegin hparts] at hempty
      cases hempty

/-- What is cleared without a directory that is not removed is cleared with it. -/
theorem clearable_kept
    (hkept : ¬ (c.storage.isDirEmpty dir = .ok true ∧
      c.storage.failing.contains dir = false))
    (hdeep : ∀ p ∈ batch, p.parts.length ≤ dir.parts.length) :
    Clearable c.storage (dir :: batch) q ↔ Clearable c.storage batch q := by
  constructor
  · rintro ⟨hfiles, hdirs⟩
    refine ⟨hfiles, fun r hr hbegin => ?_⟩
    obtain ⟨⟨p, hp, hsame⟩, hf⟩ := hdirs r hr hbegin
    refine ⟨?_, hf⟩
    rcases List.mem_cons.1 hp with rfl | hp
    · -- The directory has a child, which is too deep for the rest of the batch.
      have hparts := Path.same_key_iff.1 hsame
      have hknown : c.storage.dirs.contains p = true := by
        rwa [contains_congr _ hsame]
      have hfree : c.storage.failing.contains p = false := by
        rwa [contains_congr _ hsame]
      refine absurd ⟨isDirEmpty_of_childless hknown fun child hchild => ?_,
        hfree⟩ hkept
      obtain ⟨hchild, hthere⟩ := hchild
      have hbelow : q.parts <+: child.parts := by
        rw [← hparts, ← (MemoryStore.isChild_iff.1 hchild).1] at hbegin
        exact hbegin.trans (List.dropLast_prefix _)
      have hlength := MemoryStore.length_of_isChild hchild
      rcases hthere with hfile | hdir
      · refine hfiles child hfile ⟨hbelow, fun heq => ?_⟩
        have hle := hbegin.length_le
        rw [heq, ← hparts] at hle
        omega
      · obtain ⟨⟨p', hp', hsame'⟩, -⟩ := hdirs child hdir hbelow
        have hlength' := congrArg List.length (Path.same_key_iff.1 hsame')
        rcases List.mem_cons.1 hp' with rfl | hp'
        · omega
        · have hle := hdeep p' hp'
          omega
    · exact ⟨p, hp, hsame⟩
  · rintro ⟨hfiles, hdirs⟩
    refine ⟨hfiles, fun r hr hbegin => ?_⟩
    obtain ⟨⟨p, hp, hsame⟩, hf⟩ := hdirs r hr hbegin
    exact ⟨⟨p, List.mem_cons_of_mem _ hp, hsame⟩, hf⟩

/-- Removing directories, the deepest first, takes away those that can be
cleared. -/
theorem contains_foldl_removeDir (hrooted : c.storage.Rooted)
    (hclosed : c.storage.Closed)
    (hdeep : batch.Pairwise fun p q => q.parts.length ≤ p.parts.length)
    (hlong : q.parts ≠ []) :
    (batch.foldl removeDir c).storage.dirs.contains q = true ↔
      c.storage.dirs.contains q = true ∧ ¬ Clearable c.storage batch q := by
  induction batch generalizing c with
  | nil =>
      refine ⟨fun hq => ⟨hq, fun hclear => ?_⟩, And.left⟩
      obtain ⟨⟨p, hp, -⟩, -⟩ := hclear.dirs q hq (List.prefix_refl _)
      cases hp
  | cons dir batch ih =>
      obtain ⟨hfirst, hrest⟩ := List.pairwise_cons.1 hdeep
      have hrooted' : (c.removeDir dir).storage.Rooted :=
        keeps_removeDir MemoryStore.keeps_rooted _ hrooted
      have hclosed' : (c.removeDir dir).storage.Closed :=
        keeps_removeDir MemoryStore.keeps_closed _ hclosed
      rw [List.foldl_cons, ih hrooted' hclosed' hrest, storage_removeDir]
      split
      · rename_i hgone
        obtain ⟨hempty, hf⟩ := hgone
        rw [MemoryStore.contains_erase, clearable_erase hf, and_assoc]
        refine and_congr_right fun hq => and_iff_right_of_imp fun hstays => ?_
        rw [Bool.eq_false_iff]
        intro hsame
        have hlong' : dir.parts ≠ [] := Path.same_key_iff.1 hsame ▸ hlong
        exact hstays ((clearable_removed hrooted hclosed hempty hf hlong'
          batch).congr hsame)
      · rename_i hkept
        rw [clearable_kept hkept hfirst]

end

end ComponentBuild.Commit
