import ComponentBuild.Proofs.Storage.Edits

/-!
# Directories above directories

In every store that edits lead to, the directories above a known directory are
known: creating one makes all of them known, and one with a directory in it is
not removed.  The empty path never becomes known.
-/

namespace ComponentBuild.MemoryStore

open KeyOrder SortedMap

variable {s t : MemoryStore} {p q dir : Path}

def Rooted (s : MemoryStore) : Prop :=
  ∀ q dir : Path, s.dirs.contains q = true → dir.parts ≠ [] →
  dir.parts <+: q.parts →
    s.dirs.contains dir = true

theorem Rooted.isDir (h : s.Rooted) (hq : s.isDir q = true) (hne : dir.parts ≠ [])
    (hbegin : dir.parts <+: q.parts) : s.isDir dir = true := by
  rcases isDir_iff.1 hq with hroot | hknown
  · rw [hroot, List.prefix_cons_iff] at hbegin
    obtain ⟨rest, hparts, hrest⟩ := hbegin.resolve_left hne
    rw [List.prefix_nil.1 hrest] at hparts
    exact isDir_iff.2 (.inl hparts)
  · exact isDir_iff.2 (.inr (h q dir hknown hne hbegin))

theorem Rooted.of_dirs (h : s.Rooted) (hdirs : t.dirs = s.dirs) : t.Rooted := by
  intro q dir hq
  rw [hdirs] at hq ⊢
  exact h q dir hq

theorem Rooted.of_added (h : s.Rooted) {parts : List (PathPart String)}
    (hdirs : ∀ q, t.dirs.contains q = true ↔
      s.dirs.contains q = true ∨ q.parts ≠ [] ∧ q.parts <+: parts) :
    t.Rooted := by
  intro q dir hq hne hbegin
  rw [hdirs] at hq ⊢
  rcases hq with hq | ⟨-, hq⟩
  · exact .inl (h q dir hq hne hbegin)
  · exact .inr ⟨hne, hbegin.trans hq⟩

private theorem rooted_empty : MemoryStore.empty.Rooted := by
  intro q dir hq
  cases hq

theorem Rooted.addLevels (h : s.Rooted) (dir : Path) : (s.addLevels dir).Rooted :=
  h.of_added fun _ => contains_addLevels_iff

theorem Rooted.insert (h : s.Rooted) (p : Path) (content : String) :
    (s.insert p content).Rooted :=
  h.of_added fun _ => contains_addParents_iff

/-- A directory with a known directory below it is not empty. -/
theorem Rooted.not_empty (h : s.Rooted) (hq : s.dirs.contains q = true)
    (hne : dir.parts ≠ []) (hbegin : dir.parts <+: q.parts)
    (hproper : dir.parts ≠ q.parts) :
    s.isDirEmpty dir = .ok false := by
  obtain ⟨child, hchild, hlong, hbelow⟩ := exists_child hne hbegin hproper
  exact isDirEmpty_eq_false_iff.2 ⟨h q dir hq hne hbegin, child, hchild,
    .inr (h q child hq hlong hbelow)⟩

theorem Rooted.written (h : s.Rooted) (p : Path) (content : String) :
    (s.written p content).Rooted :=
  (h.insert p content).of_dirs rfl

theorem Rooted.removed (h : s.Rooted) (p : Path)
    (hempty : s.isDirEmpty p = .ok true) :
    Rooted { s with dirs := s.dirs.erase p } := by
  intro q dir hq hne hbegin
  obtain ⟨hknown, hother⟩ := contains_erase.1 hq
  refine contains_erase.2 ⟨h q dir hknown hne hbegin, ?_⟩
  rw [Bool.eq_false_iff]
  intro hsame
  have hparts : p.parts = dir.parts := Path.same_key_iff.1 hsame
  rw [← hparts] at hne hbegin
  have hproper : p.parts ≠ q.parts := by
    rw [Ne, ← Path.same_key_iff, hother]
    exact Bool.false_ne_true
  rw [h.not_empty hknown hne hbegin hproper] at hempty
  cases hempty

theorem keeps_rooted : Storage.Keeps Rooted :=
  keeps_of_changes Rooted.written (fun h _ => h.of_dirs rfl) Rooted.addLevels
    Rooted.removed

theorem rooted_editAll (edits : List Edit) :
    (MemoryStore.empty.editAll edits).Rooted :=
  keeps_editAll keeps_rooted (fun _ h => h.insert) (fun _ h _ => h.of_dirs rfl)
    rooted_empty edits

/-! ## The empty path -/

def Named (s : MemoryStore) : Prop :=
  ∀ q : Path, s.dirs.contains q = true → q.parts ≠ []

theorem Named.of_grown (h : s.Named)
    (hdirs : ∀ q : Path, t.dirs.contains q = true → s.dirs.contains q = true ∨
      q.parts ≠ []) :
    t.Named :=
  fun q hq => (hdirs q hq).elim (h q) id

private theorem named_empty : MemoryStore.empty.Named := by
  intro q hq
  cases hq

theorem Named.insert (h : s.Named) (p : Path) (content : String) :
    (s.insert p content).Named :=
  h.of_grown fun _ hq => (contains_addParents_iff.1 hq).imp_right And.left

theorem Named.written (h : s.Named) (p : Path) (content : String) :
    (s.written p content).Named :=
  (h.insert p content).of_grown fun _ => .inl

theorem Named.addLevels (h : s.Named) (dir : Path) : (s.addLevels dir).Named :=
  h.of_grown fun _ hq => (contains_addLevels_iff.1 hq).imp_right And.left

theorem Named.removed (h : s.Named) (p : Path) :
    Named { s with dirs := s.dirs.erase p } :=
  h.of_grown fun _ hq => .inl (contains_erase.1 hq).1

theorem keeps_named : Storage.Keeps Named :=
  keeps_of_changes Named.written (fun h _ => h.of_grown fun _ => .inl)
    Named.addLevels
    fun h p _ => h.removed p

theorem named_editAll (edits : List Edit) :
    (MemoryStore.empty.editAll edits).Named :=
  keeps_editAll keeps_named (fun _ h => h.insert)
    (fun _ h _ => h.of_grown fun _ => .inl) named_empty
    edits

end ComponentBuild.MemoryStore
