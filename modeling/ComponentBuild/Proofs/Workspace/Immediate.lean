import ComponentBuild.Proofs.Workspace.Reading

/-!
# Immediate writes

An immediate write compares its content with the content that the workspace
shows, which may be a staged one or one read before.  Storage is written only if
these differ or it has nothing at the path. So the write reaches storage except
where the workspace already shows the content and storage does not hold it:
there the staged write is dropped and the old file stays.
-/

namespace ComponentBuild

open KeyOrder SortedMap

namespace Workspace

variable {w : Workspace MemoryStore} {p : Path} {content : String}

/-- Storage has something else at a path than the content that is staged or kept
in the cache. -/
def Hides (w : Workspace MemoryStore) (p : Path) (content : String) : Prop :=
  (w.pending.get? p = some (.write content) ∨
      (w.pending.get? p).any Change.onFile = false ∧
      w.cache.get? p = some content) ∧
    w.storage.isPresent p = true ∧ w.storage.files.get? p ≠ some content

instance : Decidable (w.Hides p content) :=
  inferInstanceAs (Decidable (_ ∧ _))

private theorem hides_iff : w.Hides p content ↔ w.known? p = some (.ok content) ∧
    w.storage.isPresent p = true ∧ w.storage.files.get? p ≠ some content := by
  rw [known?_eq_ok_iff, Hides]

/-! ## Writing through -/

/-- What writing through leaves, apart from the content at the path itself. -/
structure WrittenThrough (w v : Workspace MemoryStore) (p : Path) : Prop where
  staged : v.pending.get? p = none
  pending : ∀ q, same p q = false → v.pending.get? q = w.pending.get? q
  files : ∀ q, same p q = false → v.storage.files.get? q = w.storage.files.get? q

private theorem writeThrough_unchanged (hpresent : w.storage.isPresent p = true) :
    w.writeThrough p content false =
      (.ok ⟨false, false⟩,
        { w with
          cache := w.cache.insert p content
          pending := w.pending.erase p }) := by
  simp [writeThrough, hpresent]

private theorem writeThrough_stored {changed : Bool} (hw : w.storage.failing = ∅)
    (h : changed = true ∨ w.storage.isPresent p = false) :
    w.writeThrough p content changed =
      (.ok ⟨changed, false⟩,
        { storage := w.storage.written p content
          cache := w.cache.insert p content
          pending := w.pending.erase p }) := by
  have hfailing := MemoryStore.not_failing hw p
  have htest : (changed || !w.storage.isPresent p) = true := by
    rcases h with h | h <;> simp [h]
  simp [writeThrough, htest, MemoryStore.write_eq content hfailing]

private theorem writtenThrough (hw : w.storage.failing = ∅) (p : Path)
    (content : String) (changed : Bool) :
    (w.writeThrough p content changed).1 = .ok ⟨changed, false⟩ ∧
      WrittenThrough w (w.writeThrough p content changed).2 p := by
  by_cases h : changed = true ∨ w.storage.isPresent p = false
  · rw [writeThrough_stored hw h]
    refine ⟨rfl, ?_, fun q hq => ?_, fun q hq => ?_⟩
    · simp [get?_erase, same_refl]
    · simp [get?_erase, hq]
    · simp [get?_insert, hq]
  · simp only [not_or, Bool.not_eq_true, Bool.not_eq_false] at h
    obtain ⟨rfl, hpresent⟩ := h
    rw [writeThrough_unchanged hpresent]
    refine ⟨rfl, ?_, fun q hq => ?_, fun q hq => rfl⟩
    · simp [get?_erase, same_refl]
    · simp [get?_erase, hq]

private theorem writeThrough_content (hw : w.storage.failing = ∅)
    (changed : Bool) :
    (w.writeThrough p content changed).2.storage.files.get? p = some content ↔
      changed = true ∨ w.storage.isPresent p = false ∨
      w.storage.files.get? p = some content := by
  by_cases h : changed = true ∨ w.storage.isPresent p = false
  · rw [writeThrough_stored hw h]
    rcases h with h | h <;> simp [get?_insert, same_refl, h]
  · simp only [not_or, Bool.not_eq_true, Bool.not_eq_false] at h
    obtain ⟨rfl, hpresent⟩ := h
    simp [writeThrough_unchanged hpresent, hpresent]

/-! ## An immediate write as a whole -/

def differs (existing : Except StorageError String) (content : String) : Bool :=
  match existing with
  | .ok text => text != content
  | .error _ => true

private theorem differs_eq_false_iff {existing : Except StorageError String} :
    differs existing content = false ↔ existing = .ok content := by
  cases existing <;> simp [differs]

private theorem writeFile_immediate (w : Workspace MemoryStore) (path : Path)
    (content : String) :
    w.writeFile path content true =
      (w.readAt path.normalize).2.writeThrough path.normalize content
        (differs (w.readAt path.normalize).1 content) := by
  simp only [writeFile, if_true]
  rfl

private theorem not_hides_iff : ¬ w.Hides p content ↔
    differs (w.readAt p).1 content = true ∨ w.storage.isPresent p = false ∨
      w.storage.files.get? p = some content := by
  have hdiffers : differs (w.readAt p).1 content = false ↔
      w.known? p = some (.ok content) ∨ w.known? p = none ∧
      w.storage.read p = .ok content := by
    rw [differs_eq_false_iff, readAt_eq_ok_iff, MemoryStore.storage_read]
  rw [hides_iff]
  constructor
  · intro h
    cases hd : differs (w.readAt p).1 content with
    | true => exact .inl rfl
    | false =>
        right
        rcases hdiffers.1 hd with hknown | ⟨_, hread⟩
        · cases hpresent : w.storage.isPresent p with
          | false => exact .inl rfl
          | true =>
              exact .inr (Decidable.byContradiction fun hne => h ⟨hknown,
                hpresent, hne⟩)
        · exact .inr (MemoryStore.files_get?_of_read hread)
  · rintro h ⟨hknown, hpresent, hne⟩
    rcases h with h | h | h
    · rw [hdiffers.2 (.inl hknown)] at h
      cases h
    · rw [hpresent] at h
      cases h
    · exact hne h

/-- An immediate write always succeeds, unstages its path and touches no other
one.  Its content is on storage afterwards exactly if the workspace did not hide
a different state of storage behind the same content. -/
theorem immediate_write_stored_iff (w : Workspace MemoryStore)
    (hw : w.storage.failing = ∅) (path : Path) (content : String) :
    (∃ outcome, (w.writeFile path content true).1 = .ok outcome) ∧
      WrittenThrough w (w.writeFile path content true).2 path.normalize ∧
      ((w.writeFile path content true).2.storage.files.get? path.normalize =
        some content ↔
        ¬ w.Hides path.normalize content) := by
  have hstorage := storage_readAt w path.normalize
  have hv : (w.readAt path.normalize).2.storage.failing = ∅ := by
    rw [hstorage, hw]
  obtain ⟨hok, hthrough⟩ := writtenThrough hv path.normalize content
    (differs (w.readAt path.normalize).1 content)
  rw [writeFile_immediate]
  refine ⟨⟨_, hok⟩, ⟨hthrough.staged, fun q hq => ?_, fun q hq => ?_⟩, ?_⟩
  · rw [hthrough.pending q hq, pending_readAt]
  · rw [hthrough.files q hq, hstorage]
  · rw [writeThrough_content hv, hstorage, not_hides_iff]

/-! ## A staged write that is lost -/

def rewriteStaged : Workspace MemoryStore :=
  (ofStorage (MemoryStore.empty.insert ⟨"/a"⟩ "old")).stageWrite ⟨"/a"⟩ "new"

/-- Writing what is staged at once reports success, drops the staged write and
leaves the old file. -/
theorem immediate_write_lost :
    (rewriteStaged.writeFile ⟨"/a"⟩ "new" true).1 = .ok ⟨false, false⟩ ∧
      (rewriteStaged.writeFile ⟨"/a"⟩ "new" true).2.pending = ∅ ∧
      (rewriteStaged.writeFile ⟨"/a"⟩ "new" true).2.storage.files.get? ⟨"/a"⟩ =
        some "old" :=
  ⟨rfl, by decide, by decide⟩

theorem immediate_write_stored_fresh : rewriteStaged.storage.failing = ∅ ∧
    (rewriteStaged.writeFile ⟨"/a"⟩ "fresh" true).2.storage.files.get?
      (Path.normalize ⟨"/a"⟩) =
      some "fresh" :=
  ⟨rfl, (immediate_write_stored_iff rewriteStaged rfl ⟨"/a"⟩ "fresh").2.2.2
    (by decide)⟩

end Workspace

end ComponentBuild
