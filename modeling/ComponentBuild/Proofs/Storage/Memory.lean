import ComponentBuild.Proofs.SortedMap.Lookup
import ComponentBuild.Storage.Memory

/-!
# What the operations of a memory store do

Every operation on a failing path is denied and changes nothing.  Directories
come and go without touching the files, the marks or the count of writes.
-/

namespace ComponentBuild.MemoryStore

open KeyOrder SortedMap

/-! ## The storage interface -/

@[simp] theorem storage_read (s : MemoryStore) (p : Path) :
    Storage.read s p = s.read p := rfl

@[simp] theorem storage_isPresent (s : MemoryStore) (p : Path) :
    Storage.isPresent s p = s.isPresent p := rfl

@[simp] theorem storage_isDir (s : MemoryStore) (p : Path) :
    Storage.isDir s p = s.isDir p := rfl

@[simp] theorem storage_isDirEmpty (s : MemoryStore) (p : Path) :
    Storage.isDirEmpty s p = s.isDirEmpty p := rfl

@[simp] theorem storage_write (s : MemoryStore) (p : Path) (content : String) :
    Storage.write s p content = s.write p content := rfl

@[simp] theorem storage_removeFile (s : MemoryStore) (p : Path) :
    Storage.removeFile s p = s.removeFile p := rfl

@[simp] theorem storage_createDirs (s : MemoryStore) (p : Path) :
    Storage.createDirs s p = s.createDirs p := rfl

@[simp] theorem storage_removeDir (s : MemoryStore) (p : Path) :
    Storage.removeDir s p = s.removeDir p := rfl

/-! ## Directories and files apart -/

@[simp] theorem files_addParents (s : MemoryStore) (p : Path) :
    (s.addParents p).files = s.files := by
  unfold addParents
  split <;> rfl

@[simp] theorem failing_addParents (s : MemoryStore) (p : Path) :
    (s.addParents p).failing = s.failing := by
  unfold addParents
  split <;> rfl

@[simp] theorem writes_addParents (s : MemoryStore) (p : Path) :
    (s.addParents p).writes = s.writes := by
  unfold addParents
  split <;> rfl

@[simp] theorem files_insert (s : MemoryStore) (p : Path) (content : String) :
    (s.insert p content).files = s.files.insert p content := by
  simp [insert]

@[simp] theorem failing_insert (s : MemoryStore) (p : Path) (content : String) :
    (s.insert p content).failing = s.failing := by
  simp [insert]

def written (s : MemoryStore) (p : Path) (content : String) : MemoryStore :=
  { s.insert p content with writes := s.writes + 1 }

@[simp] theorem files_written (s : MemoryStore) (p : Path) (content : String) :
    (s.written p content).files = s.files.insert p content :=
  files_insert s p content

@[simp] theorem failing_written (s : MemoryStore) (p : Path) (content : String) :
    (s.written p content).failing = s.failing :=
  failing_insert s p content

@[simp] theorem writes_written (s : MemoryStore) (p : Path) (content : String) :
    (s.written p content).writes = s.writes + 1 := rfl

/-! ## Outcomes -/

theorem not_failing {s : MemoryStore} (h : s.failing = ∅) (p : Path) :
    s.failing.contains p = false := by
  rw [h]
  rfl

theorem read_failing {s : MemoryStore} {p : Path}
    (h : s.failing.contains p = true) :
    s.read p = .error (.denied p) := by
  simp [read, guarded, h]

theorem read_eq {s : MemoryStore} {p : Path} (h : s.failing.contains p = false) :
    s.read p = match s.files.get? p with
      | some content => .ok content
      | none => .error (.missing p) := by
  cases hg : s.files.get? p <;> simp [read, guarded, h, hg]

theorem files_get?_of_read {s : MemoryStore} {p : Path} {content : String}
    (h : s.read p = .ok content) : s.files.get? p = some content := by
  cases hf : s.failing.contains p with
  | true => simp [read_failing hf] at h
  | false =>
      rw [read_eq hf] at h
      cases hg : s.files.get? p with
      | none => simp [hg] at h
      | some stored => simpa [hg] using h

theorem toOption_read {s : MemoryStore} {p : Path}
    (h : s.failing.contains p = false) :
    (s.read p).toOption = s.files.get? p := by
  rw [read_eq h]
  cases s.files.get? p <;> rfl

theorem write_failing {s : MemoryStore} {p : Path} (content : String)
    (h : s.failing.contains p = true) :
    s.write p content = (.error (.denied p), s) := by
  simp [write, changed, guarded, h]

theorem write_eq {s : MemoryStore} {p : Path} (content : String)
    (h : s.failing.contains p = false) :
    s.write p content = (.ok (), s.written p content) := by
  simp [write, changed, guarded, h, written]

theorem removeFile_failing {s : MemoryStore} {p : Path}
    (h : s.failing.contains p = true) :
    s.removeFile p = (.error (.denied p), s) := by
  simp [removeFile, changed, guarded, h]

theorem removeFile_missing {s : MemoryStore} {p : Path}
    (h : s.failing.contains p = false) (hp : s.files.contains p = false) :
    s.removeFile p = (.error (.missing p), s) := by
  simp [removeFile, changed, guarded, h, hp]

theorem removeFile_eq {s : MemoryStore} {p : Path}
    (h : s.failing.contains p = false) (hp : s.files.contains p = true) :
    s.removeFile p = (.ok (), { s with files := s.files.erase p }) := by
  simp [removeFile, changed, guarded, h, hp]

/-! ## Operations on directories -/

structure SameFiles (s t : MemoryStore) : Prop where
  files : t.files = s.files
  failing : t.failing = s.failing
  writes : t.writes = s.writes

theorem SameFiles.refl (s : MemoryStore) : SameFiles s s :=
  ⟨rfl, rfl, rfl⟩

theorem SameFiles.trans {s t u : MemoryStore} (h : SameFiles s t)
    (h' : SameFiles t u) :
    SameFiles s u :=
  ⟨h'.files.trans h.files, h'.failing.trans h.failing, h'.writes.trans h.writes⟩

theorem sameFiles_createDirs (s : MemoryStore) (p : Path) :
    SameFiles s (s.createDirs p).2 := by
  unfold createDirs changed guarded
  split
  · rename_i h
    split at h
    · simp at h
    · cases h
      exact ⟨rfl, rfl, rfl⟩
  · exact .refl s

theorem sameFiles_removeDir (s : MemoryStore) (p : Path) :
    SameFiles s (s.removeDir p).2 := by
  unfold removeDir
  split
  · exact .refl s
  · exact .refl s
  · unfold changed guarded
    split
    · rename_i h
      split at h
      · simp at h
      · cases h
        exact ⟨rfl, rfl, rfl⟩
    · exact .refl s

end ComponentBuild.MemoryStore
