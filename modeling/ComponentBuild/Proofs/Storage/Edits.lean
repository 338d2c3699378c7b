import ComponentBuild.Proofs.SortedMap.Entries
import ComponentBuild.Proofs.Storage.Directories

/-!
# Stores that edits lead to

Whatever is done to a memory store that starts out empty, the directories above
every file are known: creating a file makes them known, and a directory is not
removed while something is in it.
-/

namespace ComponentBuild

/-- No operation of the storage breaks the property, whether it succeeds or
fails. -/
structure Storage.Keeps {σ : Type} [Storage σ] (P : σ → Prop) : Prop where
  write : ∀ {s}, P s → ∀ p content, P (Storage.write s p content).2
  removeFile : ∀ {s}, P s → ∀ p, P (Storage.removeFile s p).2
  createDirs : ∀ {s}, P s → ∀ p, P (Storage.createDirs s p).2
  removeDir : ∀ {s}, P s → ∀ p, P (Storage.removeDir s p).2

inductive Edit where
  | insert (path : Path) (content : String)
  | failOn (path : Path)
  | write (path : Path) (content : String)
  | removeFile (path : Path)
  | createDirs (path : Path)
  | removeDir (path : Path)
  deriving DecidableEq, Repr

namespace MemoryStore

open KeyOrder SortedMap

def edit (s : MemoryStore) : Edit → MemoryStore
  | .insert path content => s.insert path content
  | .failOn path => s.failOn path
  | .write path content => (s.write path content).2
  | .removeFile path => (s.removeFile path).2
  | .createDirs path => (s.createDirs path).2
  | .removeDir path => (s.removeDir path).2

def editAll (s : MemoryStore) (edits : List Edit) : MemoryStore :=
  edits.foldl edit s

/-! ## What succeeds -/

/-- A property that the changes themselves keep is kept by the operations, which
make them or fail. -/
theorem keeps_of_changes {P : MemoryStore → Prop}
    (hwritten : ∀ {s}, P s → ∀ p content, P (s.written p content))
    (herased : ∀ {s}, P s → ∀ p, P { s with files := s.files.erase p })
    (hgrown : ∀ {s}, P s → ∀ dir, P (s.addLevels dir))
    (hremoved : ∀ {s}, P s → ∀ dir, s.isDirEmpty dir = .ok true →
      P { s with dirs := s.dirs.erase dir }) :
    Storage.Keeps P where
  write h p content := by
    refine changed_induction h fun t ht => ?_
    cases ht
    exact hwritten h p content
  removeFile h p := by
    refine changed_induction h fun t ht => ?_
    split at ht
    · cases ht
      exact herased h p
    · cases ht
  createDirs h p := by
    refine changed_induction h fun t ht => ?_
    cases ht
    exact hgrown h p
  removeDir {s} h p := by
    change P (s.removeDir p).2
    unfold MemoryStore.removeDir
    split
    · exact h
    · exact h
    · rename_i hempty
      refine changed_induction h fun t ht => ?_
      cases ht
      exact hremoved h p hempty

/-! ## Known directories -/

/-- Every directory above a file is known. -/
def Closed (s : MemoryStore) : Prop :=
  ∀ file dir : Path, s.files.contains file = true → dir.parts ≠ [] →
  dir.parts <+: file.parts →
    dir.parts ≠ file.parts → s.dirs.contains dir = true

variable {s t : MemoryStore} {p : Path}

theorem Closed.of_files (h : s.Closed) (hfiles : t.files = s.files)
    (hdirs : ∀ q, s.dirs.contains q = true → t.dirs.contains q = true) :
    t.Closed := by
  intro file dir hfile hne hbegin hproper
  rw [hfiles] at hfile
  exact hdirs dir (h file dir hfile hne hbegin hproper)

private theorem closed_empty : MemoryStore.empty.Closed := by
  intro file dir hfile
  cases hfile

theorem Closed.addLevels (h : s.Closed) (dir : Path) : (s.addLevels dir).Closed :=
  h.of_files rfl fun _ hq => contains_addLevels_iff.2 (.inl hq)

theorem Closed.addParents (h : s.Closed) (p : Path) :
    (s.addParents p).Closed := by
  unfold MemoryStore.addParents
  split
  · exact h.addLevels _
  · exact h

theorem Closed.insert (h : s.Closed) (p : Path) (content : String) :
    (s.insert p content).Closed := by
  intro file dir hfile hne hbegin hproper
  rw [files_insert, contains_insert, Bool.or_eq_true] at hfile
  rcases hfile with hsame | hfile
  · rw [Path.same_key_iff] at hsame
    rw [← hsame] at hbegin hproper
    exact contains_addParents_iff.2 (.inr ⟨hne,
      Path.prefix_dropLast hbegin hproper⟩)
  · refine h.addParents p file dir ?_ hne hbegin hproper
    rwa [files_addParents]

theorem Closed.erase (h : s.Closed) (p : Path) :
    Closed { s with files := s.files.erase p } := by
  intro file dir hfile
  rw [contains_eq_isSome, get?_erase] at hfile
  split at hfile
  · cases hfile
  · rw [← contains_eq_isSome] at hfile
    exact h file dir hfile

theorem Closed.not_empty (h : s.Closed) {file dir : Path}
    (hfile : s.files.contains file = true) (hne : dir.parts ≠ [])
    (hbegin : dir.parts <+: file.parts) (hproper : dir.parts ≠ file.parts) :
    s.isDirEmpty dir = .ok false := by
  obtain ⟨child, hchild, hlong, hbelow⟩ := exists_child hne hbegin hproper
  refine isDirEmpty_eq_false_iff.2 ⟨h file dir hfile hne hbegin hproper,
    child, hchild, ?_⟩
  by_cases heq : child.parts = file.parts
  · exact .inl (by rwa [contains_congr s.files (Path.same_key_iff.2 heq)])
  · exact .inr (h file child hfile hlong hbelow heq)

def listed (s : MemoryStore) (dir : Path) (ending : String) : List Path :=
  s.files.keys.filter fun p => p.isWithin dir && p.endsWith ending

/-- A directory that is not known has nothing in it. -/
theorem Closed.findFiles (h : s.Closed) {dir : Path} (hne : dir.parts ≠ [])
    (hfile : s.files.contains dir = false) (ending : String) :
    s.findFiles dir ending = .ok (s.listed dir ending) ∨
      s.findFiles dir ending = .error (.missing dir) ∧
      s.listed dir ending = [] := by
  unfold MemoryStore.findFiles
  cases hknown : s.dirs.contains dir with
  | true => exact .inl rfl
  | false =>
      refine .inr ⟨rfl, List.filter_eq_nil_iff.2 fun p hp hwithin => ?_⟩
      rw [Bool.and_eq_true, Path.isWithin, List.isPrefixOf_iff_prefix] at hwithin
      have hp := contains_of_mem_keys hp
      have hproper : dir.parts ≠ p.parts := by
        intro heq
        rw [contains_congr s.files (Path.same_key_iff.2 heq), hp] at hfile
        cases hfile
      rw [h p dir hp hne hwithin.1 hproper] at hknown
      cases hknown

/-! ## Every operation -/

theorem Closed.written (h : s.Closed) (p : Path) (content : String) :
    (s.written p content).Closed :=
  (h.insert p content).of_files rfl fun _ => id

theorem Closed.removed (h : s.Closed) (p : Path)
    (hempty : s.isDirEmpty p = .ok true) :
    Closed { s with dirs := s.dirs.erase p } := by
  intro file dir hfile hne hbegin hproper
  have hknown := h file dir hfile hne hbegin hproper
  have hother : same p dir = false := by
    rw [Bool.eq_false_iff]
    intro hsame
    rw [Path.same_key_iff] at hsame
    rw [← hsame] at hne hbegin hproper
    rw [h.not_empty hfile hne hbegin hproper] at hempty
    cases hempty
  exact contains_erase.2 ⟨hknown, hother⟩

theorem keeps_closed : Storage.Keeps Closed :=
  keeps_of_changes Closed.written Closed.erase Closed.addLevels Closed.removed

section

variable {P : MemoryStore → Prop} (hP : Storage.Keeps P)
  (hinsert : ∀ s, P s → ∀ p content, P (s.insert p content)) (hfail : ∀ s,
    P s → ∀ p, P (s.failOn p))

include hP hinsert hfail

private theorem keeps_edit (h : P s) (e : Edit) : P (s.edit e) := by
  cases e with
  | insert p content => exact hinsert s h p content
  | failOn p => exact hfail s h p
  | write p content => exact hP.write h p content
  | removeFile p => exact hP.removeFile h p
  | createDirs p => exact hP.createDirs h p
  | removeDir p => exact hP.removeDir h p

theorem keeps_editAll (h : P s) (edits : List Edit) : P (s.editAll edits) :=
  List.foldlRecOn (motive := P) _ _ h fun _ h e _ =>
  keeps_edit hP hinsert hfail h e

end

theorem Closed.edit (h : s.Closed) (e : Edit) : (s.edit e).Closed :=
  keeps_edit keeps_closed (fun _ h => h.insert)
    (fun _ h _ => h.of_files rfl fun _ => id) h e

theorem closed_editAll (edits : List Edit) :
    (MemoryStore.empty.editAll edits).Closed :=
  List.foldlRecOn (motive := Closed) _ _ closed_empty fun _ h e _ => h.edit e

end MemoryStore

end ComponentBuild
