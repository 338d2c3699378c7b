import ComponentBuild.Proofs.Path.Parent
import ComponentBuild.Proofs.Storage.Memory
import Mathlib.Data.List.TakeWhile

/-!
# The directories of a memory store

Which directories a store knows depends on the parts of their paths alone.
Creating one makes the directories above it known as well, and so does writing a
file.
-/

namespace ComponentBuild.MemoryStore

open KeyOrder SortedMap

variable {s t : MemoryStore} {p q dir : Path}

/-! ## Directories by their parts -/

theorem isRoot_iff : isRoot p = true ↔ p.parts = [.root] := by
  have hparent := Path.isParentOf_parent p
  rw [isRoot, Bool.and_eq_true, Path.isAbsolute, beq_iff_eq,
    Option.isNone_iff_eq_none]
  constructor
  · rintro ⟨hroot, hnone⟩
    rw [hnone] at hparent
    rcases hparent with hparts | hparts
    · simp [hparts] at hroot
    · exact hparts
  · intro hparts
    refine ⟨by simp [hparts], ?_⟩
    cases hp : p.parent with
    | none => rfl
    | some parent =>
        rw [hp] at hparent
        exact absurd hparts hparent.2.2

theorem isDir_iff :
    s.isDir p = true ↔ p.parts = [.root] ∨ s.dirs.contains p = true := by
  rw [isDir, Bool.or_eq_true, isRoot_iff]

theorem isPresent_iff :
    s.isPresent p = true ↔ s.files.contains p = true ∨
      s.dirs.contains p = true := by
  rw [isPresent, Bool.or_eq_true]

theorem isDir_congr (s : MemoryStore) (h : same p q = true) :
    s.isDir p = s.isDir q := by
  rw [Bool.eq_iff_iff, isDir_iff, isDir_iff, contains_congr _ h,
    Path.same_key_iff.1 h]

theorem isDir_mono (h : ∀ q, s.dirs.contains q = true → t.dirs.contains q = true)
    (hp : s.isDir p = true) : t.isDir p = true :=
  isDir_iff.2 ((isDir_iff.1 hp).imp_right (h p))

private theorem parts_of_mem_levels (h : q ∈ levels dir) :
    q.parts ≠ [] ∧ q.parts <+: dir.parts := by
  have hlong := List.mem_takeWhile_imp h
  rw [Bool.not_eq_true', Path.isEmpty_eq_false_iff] at hlong
  exact ⟨hlong, Path.parts_of_mem_ancestors ((List.takeWhile_prefix _).subset h)⟩

theorem contains_addLevels_iff : (s.addLevels dir).dirs.contains q = true ↔
    s.dirs.contains q = true ∨ q.parts ≠ [] ∧ q.parts <+: dir.parts := by
  have hadd : (s.addLevels dir).dirs.contains q = true ↔
      s.dirs.contains q = true ∨ ∃ level ∈ levels dir, same level q = true :=
    SortedSet.contains_addAll s.dirs (levels dir) q
  rw [hadd]
  refine or_congr_right ⟨?_, ?_⟩
  · rintro ⟨level, hlevel, hsame⟩
    have hparts := parts_of_mem_levels hlevel
    rwa [Path.same_key_iff.1 hsame] at hparts
  · rintro ⟨hne, hbegin⟩
    obtain ⟨level, hlevel, hparts⟩ := Path.exists_mem_ancestors hne hbegin
    exact ⟨level, hlevel, Path.same_key_iff.2 hparts⟩

theorem contains_addParents_iff : (s.addParents p).dirs.contains q = true ↔
    s.dirs.contains q = true ∨ q.parts ≠ [] ∧ q.parts <+: p.parts.dropLast := by
  unfold addParents
  have hparent := Path.isParentOf_parent p
  cases hp : p.parent with
  | some parent => rw [contains_addLevels_iff, Path.parts_parent hp]
  | none =>
      have hshort : p.parts.dropLast = [] := by
        rw [hp] at hparent
        rcases hparent with hparts | hparts <;> rw [hparts] <;> rfl
      simp [hshort]

theorem contains_written_iff {content : String} :
    (s.written p content).dirs.contains q = true ↔
      s.dirs.contains q = true ∨ q.parts ≠ [] ∧ q.parts <+: p.parts.dropLast :=
  contains_addParents_iff

theorem contains_erase {dirs : SortedSet Path} :
    SortedMap.contains (dirs.erase p) q = true ↔
      dirs.contains q = true ∧ same p q = false := by
  rw [contains_eq_isSome, contains_eq_isSome, get?_erase]
  cases same p q <;> simp

/-! ## What a directory holds -/

theorem isChild_iff : isChild dir q = true ↔
    q.parts.dropLast = dir.parts ∧ q.parts ≠ [] ∧ q.parts ≠ [.root] := by
  have hparent := Path.isParentOf_parent q
  unfold isChild
  cases hp : q.parent with
  | none =>
      rw [hp] at hparent
      simp only [Bool.false_eq_true, false_iff]
      rintro ⟨-, hne, hroot⟩
      exact hparent.elim hne hroot
  | some parent =>
      rw [hp] at hparent
      simp only [Path.same, beq_iff_eq, hparent.1]
      exact ⟨fun h => ⟨h, hparent.2⟩, And.left⟩

theorem length_of_isChild (h : isChild dir q = true) :
    q.parts.length = dir.parts.length + 1 := by
  obtain ⟨hparts, hne, -⟩ := isChild_iff.1 h
  have hpos : 0 < q.parts.length := List.length_pos_iff.2 hne
  rw [← hparts, List.length_dropLast]
  omega

private theorem isChild_of_parts {part : PathPart String} (hdir : dir.parts ≠ [])
    (h : q.parts = dir.parts ++ [part]) : isChild dir q = true := by
  refine isChild_iff.2 ⟨by rw [h, List.dropLast_concat], by simp [h],
    fun hroot => ?_⟩
  rw [h, List.append_eq_singleton_iff] at hroot
  simp [hdir] at hroot

theorem exists_child (hne : dir.parts ≠ []) (hbegin : dir.parts <+: q.parts)
    (hproper : dir.parts ≠ q.parts) :
    ∃ child : Path, isChild dir child = true ∧ child.parts ≠ [] ∧
      child.parts <+: q.parts := by
  obtain ⟨rest, hrest⟩ := hbegin
  cases rest with
  | nil => exact absurd (by rw [← hrest, List.append_nil]) hproper
  | cons part rest =>
      have hlong : dir.parts ++ [part] <+: q.parts :=
        ⟨rest, by rw [← hrest]; simp⟩
      obtain ⟨child, -, hchild⟩ := Path.exists_mem_ancestors (by simp) hlong
      exact ⟨child, isChild_of_parts hne hchild, by simp [hchild], hchild ▸ hlong⟩

private theorem isChild_congr (dir : Path) (h : same p q = true) :
    isChild dir p = isChild dir q := by
  rw [Bool.eq_iff_iff, isChild_iff, isChild_iff, Path.same_key_iff.1 h]

/-- Something in a directory: a file or a directory whose parent it is. -/
def Holds (s : MemoryStore) (dir q : Path) : Prop :=
  isChild dir q = true ∧ (s.files.contains q = true ∨ s.dirs.contains q = true)

theorem holds_congr {dir' : Path} (h : same dir dir' = true) :
    s.Holds dir q ↔ s.Holds dir' q := by
  simp only [Holds, isChild_iff, Path.same_key_iff.1 h]

theorem isDirEmpty_eq (h : s.dirs.contains dir = true) :
    s.isDirEmpty dir =
      .ok !(s.files.keys.any (isChild dir) ||
        s.dirs.toList.any (isChild dir)) := by
  rw [isDirEmpty, if_pos h]

theorem contains_of_isDirEmpty {empty : Bool} (h : s.isDirEmpty dir = .ok empty) :
    s.dirs.contains dir = true := by
  by_contra hdir
  rw [isDirEmpty, if_neg hdir] at h
  cases h

theorem isDirEmpty_eq_false_iff :
    s.isDirEmpty dir = .ok false ↔ s.dirs.contains dir = true ∧ ∃ q,
      s.Holds dir q := by
  have hany {α : Type} (m : SortedMap Path α) :
      m.keys.any (isChild dir) = true ↔ ∃ q,
      isChild dir q = true ∧ m.contains q = true := by
    rw [List.any_eq_true]
    constructor
    · rintro ⟨q, hq, hchild⟩
      exact ⟨q, hchild, contains_of_mem_keys hq⟩
    · rintro ⟨q, hchild, hq⟩
      obtain ⟨k, hk, hsame⟩ := exists_mem_keys_of_contains hq
      exact ⟨k, hk, (isChild_congr dir hsame).trans hchild⟩
  constructor
  · intro h
    have hdir := contains_of_isDirEmpty h
    rw [isDirEmpty_eq hdir, Except.ok.injEq, Bool.not_eq_false',
      Bool.or_eq_true] at h
    refine ⟨hdir, ?_⟩
    rcases h with h | h
    · obtain ⟨q, hchild, hq⟩ := (hany s.files).1 h
      exact ⟨q, hchild, .inl hq⟩
    · obtain ⟨q, hchild, hq⟩ := (hany s.dirs).1 h
      exact ⟨q, hchild, .inr hq⟩
  · rintro ⟨hdir, q, hchild, hq⟩
    rw [isDirEmpty_eq hdir, Except.ok.injEq, Bool.not_eq_false', Bool.or_eq_true]
    rcases hq with hq | hq
    · exact .inl ((hany s.files).2 ⟨q, hchild, hq⟩)
    · exact .inr ((hany s.dirs).2 ⟨q, hchild, hq⟩)

theorem not_holds_of_isDirEmpty (h : s.isDirEmpty dir = .ok true) (q : Path) :
    ¬ s.Holds dir q := by
  intro hq
  rw [isDirEmpty_eq_false_iff.2 ⟨contains_of_isDirEmpty h, q, hq⟩] at h
  cases h

/-! ## Operations on directories -/

theorem createDirs_failing (h : s.failing.contains p = true) :
    s.createDirs p = (.error (.denied p), s) := by
  simp [createDirs, changed, guarded, h]

theorem createDirs_eq (h : s.failing.contains p = false) :
    s.createDirs p = (.ok (), s.addLevels p) := by
  simp [createDirs, changed, guarded, h]

theorem removeDir_failing (h : s.failing.contains p = true)
    (hempty : s.isDirEmpty p = .ok true) :
    s.removeDir p = (.error (.denied p), s) := by
  simp [removeDir, changed, guarded, h, hempty]

theorem removeDir_eq (h : s.failing.contains p = false)
    (hempty : s.isDirEmpty p = .ok true) :
    s.removeDir p = (.ok (), { s with dirs := s.dirs.erase p }) := by
  simp [removeDir, changed, guarded, h, hempty]

theorem changed_induction {P : MemoryStore → Prop}
    {run : Except StorageError MemoryStore} (hs : P s)
    (hrun : ∀ t, run = .ok t → P t) : P (s.changed p run).2 := by
  unfold changed guarded
  split
  · rename_i t hguarded
    split at hguarded
    · cases hguarded
    · exact hrun t hguarded
  · exact hs

end ComponentBuild.MemoryStore
