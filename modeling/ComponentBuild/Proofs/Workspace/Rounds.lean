import ComponentBuild.Proofs.Storage.Memory
import ComponentBuild.Workspace.Commit

/-!
# The rounds of a commit over a memory store

Rounds on directories leave everything alone that concerns files.  A round of
writes and a round of removals are described by what they make of a whole batch
of distinct paths: a path whose operation fails costs an error and nothing else.
-/

namespace ComponentBuild.Commit

open KeyOrder SortedMap

def writeErrors (r : CommitReport) : List CommitError :=
  r.errors.filter fun e => e.op = .write

/-! ## Rounds on directories -/

structure FilesKept (c d : Commit MemoryStore) : Prop where
  storage : MemoryStore.SameFiles c.storage d.storage
  cache : d.cache = c.cache
  written : d.report.written = c.report.written
  deleted : d.report.deleted = c.report.deleted
  changes : d.report.changes = c.report.changes
  errors : writeErrors d.report = writeErrors c.report

theorem FilesKept.refl (c : Commit MemoryStore) : FilesKept c c :=
  ⟨.refl _, rfl, rfl, rfl, rfl, rfl⟩

theorem FilesKept.trans {c d e : Commit MemoryStore} (h : FilesKept c d)
    (h' : FilesKept d e) :
    FilesKept c e where
  storage := h.storage.trans h'.storage
  cache := h'.cache.trans h.cache
  written := h'.written.trans h.written
  deleted := h'.deleted.trans h.deleted
  changes := h'.changes.trans h.changes
  errors := h'.errors.trans h.errors

private theorem writeErrors_fail (r : CommitReport) (p : Path) {op : CommitOp}
    (h : op ≠ .write) (e : StorageError) :
    writeErrors (r.fail p op e) = writeErrors r := by
  simp [writeErrors, CommitReport.fail, List.filter_append, h]

theorem filesKept_foldl {α : Type}
    {f : Commit MemoryStore → α → Commit MemoryStore}
    (h : ∀ c a, FilesKept c (f c a)) (l : List α) (c : Commit MemoryStore) :
    FilesKept c (l.foldl f c) := by
  induction l generalizing c with
  | nil => exact .refl c
  | cons a l ih => exact (h c a).trans (ih (f c a))

private theorem filesKept_createLevels (levels : List Path)
    (c : Commit MemoryStore) :
    FilesKept c (c.createLevels levels) := by
  induction levels generalizing c with
  | nil => exact .refl c
  | cons level rest ih =>
      have hkept := MemoryStore.sameFiles_createDirs c.storage level
      simp only [createLevels, MemoryStore.storage_createDirs]
      split
      · rename_i storage hs
        rw [hs] at hkept
        have hstep : FilesKept c
            { c with storage, report.dirsAdded := c.report.dirsAdded ++
              [level] } :=
          ⟨hkept, rfl, rfl, rfl, rfl, rfl⟩
        exact hstep.trans (ih _)
      · rename_i e storage hs
        rw [hs] at hkept
        exact ⟨hkept, rfl, rfl, rfl, rfl, writeErrors_fail _ _ (by decide) _⟩

theorem filesKept_ensureDir (c : Commit MemoryStore) (dir : Path) :
    FilesKept c (c.ensureDir dir) :=
  filesKept_createLevels _ c

theorem filesKept_removeDir (c : Commit MemoryStore) (dir : Path) :
    FilesKept c (c.removeDir dir) := by
  have hkept := MemoryStore.sameFiles_removeDir c.storage dir
  simp only [removeDir, MemoryStore.storage_isDir, MemoryStore.storage_isDirEmpty,
    MemoryStore.storage_removeDir]
  split
  · split
    · exact ⟨.refl _, rfl, rfl, rfl, rfl, writeErrors_fail _ _ (by decide) _⟩
    · exact .refl c
    · split
      · rename_i storage hs
        rw [hs] at hkept
        exact ⟨hkept, rfl, rfl, rfl, rfl, rfl⟩
      · rename_i storage hs
        rw [hs] at hkept
        exact ⟨hkept, rfl, rfl, rfl, rfl, rfl⟩
      · rename_i e storage _ hs
        rw [hs] at hkept
        exact ⟨hkept, rfl, rfl, rfl, rfl, writeErrors_fail _ _ (by decide) _⟩
  · exact .refl c

/-! ## Files replaced one by one -/

private theorem not_same_of_failing {s : MemoryStore} {p q : Path}
    (hp : s.failing.contains p = false)
    (h : same p q = true → s.failing.contains q = true) :
    same p q = false := by
  cases hs : same p q with
  | false => rfl
  | true =>
      rw [contains_congr _ hs, h hs] at hp
      cases hp

section Replaced

variable {α : Type} {key : α → Path} {left : α → Option String}

/-- Each path of a batch has the content that its operation leaves, unless the
path fails. -/
structure Replaced (key : α → Path) (left : α → Option String) (s t : MemoryStore)
    (batch : List α) : Prop where
  failing : t.failing = s.failing
  content : ∀ a ∈ batch, s.failing.contains (key a) = false →
    t.files.get? (key a) = left a
  others :
    ∀ p, (∀ a ∈ batch, same (key a) p = true → s.failing.contains p = true) →
    t.files.get? p = s.files.get? p

variable {s t u : MemoryStore} {xs ys : List α}

theorem Replaced.nil (key : α → Path) (left : α → Option String)
    (s : MemoryStore) :
    Replaced key left s s [] := by
  constructor <;> simp

theorem Replaced.unchanged {a : α}
    (h : s.failing.contains (key a) = false → s.files.get? (key a) = left a) :
    Replaced key left s s [a] where
  failing := rfl
  content b hb hf := by
    rw [List.mem_singleton.1 hb] at hf ⊢
    exact h hf
  others p _ := rfl

theorem Replaced.single {a : α} (hfailing : t.failing = s.failing)
    (ha : s.failing.contains (key a) = false)
    (hfiles : ∀ p, t.files.get? p = if same (key a) p then left a
      else s.files.get? p) :
    Replaced key left s t [a] where
  failing := hfailing
  content b hb _ := by
    rw [List.mem_singleton.1 hb, hfiles, if_pos (same_refl _)]
  others p hp := by
    have hne : same (key a) p = false :=
      not_same_of_failing ha (hp a List.mem_cons_self)
    rw [hfiles, hne]
    rfl

theorem Replaced.kept (h : Replaced key left s t xs) {p : Path}
    (hp : ∀ a ∈ xs, same (key a) p = false) : t.files.get? p = s.files.get? p :=
  h.others p fun a ha hs => by simp [hp a ha] at hs

theorem Replaced.append (h : Replaced key left s t xs)
    (h' : Replaced key left t u ys)
    (hdistinct : ∀ x ∈ xs, ∀ y ∈ ys, same (key x) (key y) = false) :
    Replaced key left s u (xs ++ ys) where
  failing := h'.failing.trans h.failing
  content a ha hf := by
    rcases List.mem_append.1 ha with hx | hy
    · have hne (y : α) (hy : y ∈ ys) : same (key y) (key a) = false := by
        rw [same_comm, hdistinct a hx y hy]
      rw [h'.kept hne, h.content a hx hf]
    · exact h'.content a hy (by rw [h.failing, hf])
  others p hp := by
    rw [h'.others p fun y hy hs => by rw [h.failing,
      hp y (List.mem_append_right xs hy) hs],
      h.others p fun x hx hs => hp x (List.mem_append_left ys hx) hs]

end Replaced

/-! ## A round of writes -/

section Writes

variable (s : MemoryStore)

def changesFile (e : Path × String) : Bool :=
  !s.failing.contains e.1 && s.files.get? e.1 != some e.2

def fileChange (e : Path × String) : FileChange :=
  ⟨e.1, (s.files.get? e.1).isNone,
    LineDiff.between ((s.files.get? e.1).getD "") e.2⟩

def writeError (e : Path × String) : CommitError :=
  ⟨e.1, .write, (StorageError.denied e.1).message⟩

end Writes

theorem writeFile_failing {c : Commit MemoryStore} {p : Path} (content : String)
    (h : c.storage.failing.contains p = true) :
    c.writeFile p content = { c
      with report := c.report.fail p .write (.denied p) } := by
  simp [writeFile, MemoryStore.read_failing h,
    MemoryStore.write_failing content h, Except.toOption]

theorem writeFile_unchanged {c : Commit MemoryStore} {p : Path}
    {content : String} (h : c.storage.failing.contains p = false)
    (hp : c.storage.files.get? p = some content) :
    c.writeFile p content = { c with cache := c.cache.insert p content } := by
  simp [writeFile, MemoryStore.toOption_read h, hp]

theorem writeFile_changed {c : Commit MemoryStore} {p : Path} {content : String}
    (h : c.storage.failing.contains p = false)
    (hp : c.storage.files.get? p ≠ some content) :
    c.writeFile p content =
      { storage := c.storage.written p content
        cache := c.cache.insert p content
        report := { c.report with
          written := c.report.written ++ [p]
          changes :=
  c.report.changes ++ [fileChange c.storage (p, content)] } } := by
  simp [writeFile, MemoryStore.toOption_read h, hp,
    MemoryStore.write_eq content h, fileChange]

/-- What writing a batch of files makes of a commit. -/
structure Written (c d : Commit MemoryStore) (batch : List (Path × String)) :
    Prop extends
    Replaced (·.1) (fun e => some e.2) c.storage d.storage batch where
  writes :
    d.storage.writes = c.storage.writes +
      (batch.filter (changesFile c.storage)).length
  written :
    d.report.written = c.report.written ++
      (batch.filter (changesFile c.storage)).map (·.1)
  changes : d.report.changes =
    c.report.changes ++ (batch.filter (changesFile c.storage)).map
      (fileChange c.storage)
  deleted : d.report.deleted = c.report.deleted
  errors : writeErrors d.report = writeErrors c.report ++
    (batch.filter fun e => c.storage.failing.contains e.1).map writeError

theorem written_writeFile (c : Commit MemoryStore) (e : Path × String) :
    Written c (c.writeFile e.1 e.2) [e] := by
  cases hf : c.storage.failing.contains e.1 with
  | true =>
      rw [writeFile_failing e.2 hf]
      constructor
      case toReplaced => exact .unchanged (by simp [hf])
      all_goals
        simp_all [changesFile, writeErrors, CommitReport.fail, writeError,
          List.filter_append]
  | false =>
      by_cases hp : c.storage.files.get? e.1 = some e.2
      · rw [writeFile_unchanged hf hp]
        constructor
        case toReplaced => exact .unchanged fun _ => hp
        all_goals simp_all [changesFile]
      · rw [writeFile_changed hf hp]
        constructor
        case toReplaced => exact .single (by simp) hf (by simp [get?_insert])
        all_goals simp_all [changesFile, writeErrors]

theorem Written.append {c d e : Commit MemoryStore}
    {xs ys : List (Path × String)} (h : Written c d xs) (h' : Written d e ys)
    (hdistinct : ∀ x ∈ xs, ∀ y ∈ ys, same x.1 y.1 = false) :
    Written c e (xs ++ ys) := by
  have hkept (y : Path × String) (hy : y ∈ ys) :
      d.storage.files.get? y.1 = c.storage.files.get? y.1 :=
    h.kept fun x hx => hdistinct x hx y hy
  have hchanges :
      ys.filter (changesFile d.storage) = ys.filter (changesFile c.storage) :=
    List.filter_congr fun y hy => by
      simp only [changesFile, h.failing, hkept y hy]
  have hfileChange :
      (ys.filter (changesFile c.storage)).map (fileChange d.storage) =
      (ys.filter (changesFile c.storage)).map (fileChange c.storage) :=
    List.map_congr_left fun y hy => by
      simp only [fileChange, hkept y (List.mem_filter.1 hy).1]
  constructor
  case toReplaced => exact h.toReplaced.append h'.toReplaced hdistinct
  case writes =>
    rw [h'.writes, h.writes, hchanges, List.filter_append, List.length_append,
      Nat.add_assoc]
  case written =>
    rw [h'.written, h.written, hchanges, List.filter_append, List.map_append,
      List.append_assoc]
  case changes =>
    rw [h'.changes, h.changes, hchanges, hfileChange, List.filter_append,
      List.map_append, List.append_assoc]
  case deleted => rw [h'.deleted, h.deleted]
  case errors =>
    rw [h'.errors, h.errors, h.failing, List.filter_append, List.map_append,
      List.append_assoc]

theorem Written.nil (c : Commit MemoryStore) : Written c c [] := by
  refine ⟨.nil _ _ _, ?_, ?_, ?_, ?_, ?_⟩ <;> simp

theorem written_foldl {batch : List (Path × String)}
    (hdistinct : batch.Pairwise fun a b => same a.1 b.1 = false)
    (c : Commit MemoryStore) :
    Written c (batch.foldl (fun c e => c.writeFile e.1 e.2) c) batch := by
  induction batch generalizing c with
  | nil => exact .nil c
  | cons e rest ih =>
      obtain ⟨he, hrest⟩ := List.pairwise_cons.1 hdistinct
      refine (written_writeFile c e).append (ih hrest _) fun x hx y hy => ?_
      rw [List.mem_singleton.1 hx]
      exact he y hy

/-! ## A round of removals -/

def removesFile (s : MemoryStore) (p : Path) : Bool :=
  !s.failing.contains p && s.files.contains p

/-- What removing a batch of files makes of a commit. -/
structure Removed (c d : Commit MemoryStore) (batch : List Path) : Prop extends
    Replaced (fun q => q) (fun _ => none) c.storage d.storage batch where
  writes : d.storage.writes = c.storage.writes
  written : d.report.written = c.report.written
  changes : d.report.changes = c.report.changes
  deleted :
    d.report.deleted = c.report.deleted ++ batch.filter (removesFile c.storage)
  errors : writeErrors d.report = writeErrors c.report

theorem removeFile_failing (c : Commit MemoryStore) {p : Path}
    (h : c.storage.failing.contains p = true) :
    c.removeFile p = { c with cache := c.cache.erase p } ∨
      c.removeFile p =
        { c with
          cache := c.cache.erase p
          report := c.report.fail p .removeFile (.denied p) } := by
  simp only [removeFile, MemoryStore.storage_isPresent,
    MemoryStore.storage_removeFile, MemoryStore.removeFile_failing h]
  split
  · exact .inr rfl
  · exact .inl rfl

theorem removeFile_missing (c : Commit MemoryStore) {p : Path}
    (h : c.storage.failing.contains p = false)
    (hp : c.storage.files.contains p = false) :
    c.removeFile p = { c with cache := c.cache.erase p } := by
  simp only [removeFile, MemoryStore.storage_isPresent,
    MemoryStore.storage_removeFile, MemoryStore.removeFile_missing h hp]
  split <;> rfl

theorem removeFile_present (c : Commit MemoryStore) {p : Path}
    (h : c.storage.failing.contains p = false)
    (hp : c.storage.files.contains p = true) :
    c.removeFile p =
      { storage := { c.storage with files := c.storage.files.erase p }
        cache := c.cache.erase p
        report := { c.report with deleted := c.report.deleted ++ [p] } } := by
  have hpresent : c.storage.isPresent p = true := by
    simp [MemoryStore.isPresent, hp]
  simp [removeFile, hpresent, MemoryStore.removeFile_eq h hp]

theorem removed_removeFile (c : Commit MemoryStore) (p : Path) :
    Removed c (c.removeFile p) [p] := by
  cases hf : c.storage.failing.contains p with
  | true =>
      rcases removeFile_failing c hf with hr | hr <;> rw [hr] <;> constructor
      case inl.toReplaced => exact .unchanged (by simp [hf])
      case inr.toReplaced => exact .unchanged (by simp [hf])
      all_goals simp_all [removesFile, writeErrors, CommitReport.fail,
        List.filter_append]
  | false =>
      cases hp : c.storage.files.contains p with
      | false =>
          have hnone : c.storage.files.get? p = none := by
            simpa [contains_eq_isSome] using hp
          rw [removeFile_missing c hf hp]
          constructor
          case toReplaced => exact .unchanged fun _ => hnone
          all_goals simp_all [removesFile]
      | true =>
          rw [removeFile_present c hf hp]
          constructor
          case toReplaced => exact .single rfl hf (get?_erase _ _)
          all_goals simp_all [removesFile, writeErrors]

theorem Removed.append {c d e : Commit MemoryStore} {xs ys : List Path}
    (h : Removed c d xs) (h' : Removed d e ys)
    (hdistinct : ∀ x ∈ xs, ∀ y ∈ ys, same x y = false) :
    Removed c e (xs ++ ys) := by
  have hkept (y : Path) (hy : y ∈ ys) :
      d.storage.files.get? y = c.storage.files.get? y :=
    h.kept fun x hx => hdistinct x hx y hy
  have hremoves :
      ys.filter (removesFile d.storage) = ys.filter (removesFile c.storage) :=
    List.filter_congr fun y hy => by
      simp only [removesFile, h.failing, contains_eq_isSome, hkept y hy]
  constructor
  case toReplaced => exact h.toReplaced.append h'.toReplaced hdistinct
  case writes => rw [h'.writes, h.writes]
  case written => rw [h'.written, h.written]
  case changes => rw [h'.changes, h.changes]
  case deleted =>
    rw [h'.deleted, h.deleted, hremoves, List.filter_append, List.append_assoc]
  case errors => rw [h'.errors, h.errors]

theorem Removed.nil (c : Commit MemoryStore) : Removed c c [] := by
  refine ⟨.nil _ _ _, ?_, ?_, ?_, ?_, ?_⟩ <;> simp

theorem removed_foldl {batch : List Path}
    (hdistinct : batch.Pairwise fun a b => same a b = false)
    (c : Commit MemoryStore) :
    Removed c (batch.foldl removeFile c) batch := by
  induction batch generalizing c with
  | nil => exact .nil c
  | cons p rest ih =>
      obtain ⟨hp, hrest⟩ := List.pairwise_cons.1 hdistinct
      refine (removed_removeFile c p).append (ih hrest _) fun x hx y hy => ?_
      rw [List.mem_singleton.1 hx]
      exact hp y hy

end ComponentBuild.Commit
