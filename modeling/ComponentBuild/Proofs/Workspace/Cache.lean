import ComponentBuild.Proofs.Workspace.Commit

/-!
# The cache of a workspace agrees with its storage

What was read and kept is what storage holds.  Reading, staging and committing
keep it so, also when paths fail: whatever round of a commit changes a file, it
changes the cache along with it.  It is so path by path, since storage may have
been edited under some entries of the cache and not under others.
-/

namespace ComponentBuild

open KeyOrder SortedMap

def AgreesAt (cache files : SortedMap Path String) (p : Path) : Prop :=
  ∀ content, cache.get? p = some content → files.get? p = some content

def CacheAgrees (cache files : SortedMap Path String) : Prop :=
  ∀ p, AgreesAt cache files p

/-- Afterwards cache and file are as they were at a path, or they agree there. -/
def Settled (cache files cache' files' : SortedMap Path String) (p : Path) :
    Prop :=
  cache'.get? p = cache.get? p ∧ files'.get? p = files.get? p ∨
  AgreesAt cache' files' p

variable {cache files cache' files' cache'' files'' : SortedMap Path String}
    {p : Path}

theorem AgreesAt.of_none (h : cache.get? p = none) : AgreesAt cache files p := by
  intro content hcontent
  rw [h] at hcontent
  cases hcontent

namespace Settled

theorem refl (cache files : SortedMap Path String) (p : Path) :
    Settled cache files cache files p :=
  .inl ⟨rfl, rfl⟩

theorem agrees (h : Settled cache files cache' files' p)
    (ha : AgreesAt cache files p) :
    AgreesAt cache' files' p := by
  rcases h with ⟨hcache, hfiles⟩ | h
  · intro content
    rw [hcache, hfiles]
    exact ha content
  · exact h

theorem trans (h : Settled cache files cache' files' p)
    (h' : Settled cache' files' cache'' files'' p) :
    Settled cache files cache'' files'' p := by
  rcases h' with ⟨hcache, hfiles⟩ | h'
  · rcases h with ⟨hcache', hfiles'⟩ | h
    · exact .inl ⟨hcache.trans hcache', hfiles.trans hfiles'⟩
    · refine .inr fun content hcontent => ?_
      rw [hcache] at hcontent
      rw [hfiles]
      exact h content hcontent
  · exact .inr h'

theorem erase_cache (cache files : SortedMap Path String) (q p : Path) :
    Settled cache files (cache.erase q) files p := by
  cases hs : same q p with
  | true => exact .inr (.of_none (by rw [get?_erase, if_pos hs]))
  | false => exact .inl ⟨by rw [get?_erase, hs]; rfl, rfl⟩

theorem insert_cache (cache : SortedMap Path String) {q : Path} {content : String}
    (hq : files.get? q = some content) (p : Path) :
    Settled cache files (cache.insert q content) files p := by
  cases hs : same q p with
  | true =>
      refine .inr fun text htext => ?_
      rw [get?_insert, if_pos hs] at htext
      rw [← get?_congr files hs, hq]
      exact htext
  | false => exact .inl ⟨by rw [get?_insert, hs]; rfl, rfl⟩

private theorem insert (cache files : SortedMap Path String) (q : Path)
    (content : String) (p : Path) :
    Settled cache files (cache.insert q content) (files.insert q content) p := by
  cases hs : same q p with
  | true =>
      refine .inr fun text htext => ?_
      rw [get?_insert, if_pos hs] at htext ⊢
      exact htext
  | false =>
      exact .inl ⟨by rw [get?_insert, hs]; rfl, by rw [get?_insert, hs]; rfl⟩

private theorem erase (cache files : SortedMap Path String) (q p : Path) :
    Settled cache files (cache.erase q) (files.erase q) p := by
  cases hs : same q p with
  | true => exact .inr (.of_none (by rw [get?_erase, if_pos hs]))
  | false => exact .inl ⟨by rw [get?_erase, hs]; rfl, by rw [get?_erase, hs]; rfl⟩

end Settled

namespace CacheAgrees

theorem empty (files : SortedMap Path String) : CacheAgrees ∅ files :=
  fun _ => .of_none rfl

theorem settled (h : CacheAgrees cache files)
    (hs : ∀ p, Settled cache files cache' files' p) :
    CacheAgrees cache' files' :=
  fun p => (hs p).agrees (h p)

theorem erase_cache (h : CacheAgrees cache files) (p : Path) :
    CacheAgrees (cache.erase p) files :=
  h.settled (Settled.erase_cache cache files p)

theorem insert_cache (h : CacheAgrees cache files) {p : Path} {content : String}
    (hp : files.get? p = some content) :
    CacheAgrees (cache.insert p content) files :=
  h.settled (Settled.insert_cache cache hp)

end CacheAgrees

namespace Commit

def SettledAt (c d : Commit MemoryStore) (p : Path) : Prop :=
  Settled c.cache c.storage.files d.cache d.storage.files p

theorem FilesKept.settledAt {c d : Commit MemoryStore} (h : FilesKept c d)
    (p : Path) :
    SettledAt c d p := by
  rw [SettledAt, h.cache, h.storage.files]
  exact .refl _ _ p

private theorem settledAt_writeFile (c : Commit MemoryStore) (e : Path × String)
    (p : Path) :
    SettledAt c (c.writeFile e.1 e.2) p := by
  cases hf : c.storage.failing.contains e.1 with
  | true =>
      rw [writeFile_failing e.2 hf]
      exact .refl _ _ p
  | false =>
      by_cases hp : c.storage.files.get? e.1 = some e.2
      · rw [writeFile_unchanged hf hp]
        exact .insert_cache _ hp p
      · rw [writeFile_changed hf hp, SettledAt, MemoryStore.files_written]
        exact .insert _ _ e.1 e.2 p

private theorem settledAt_removeFile (c : Commit MemoryStore) (q p : Path) :
    SettledAt c (c.removeFile q) p := by
  cases hf : c.storage.failing.contains q with
  | true =>
      rcases removeFile_failing c hf with hr | hr
      · rw [hr]
        exact .erase_cache _ _ q p
      · rw [hr]
        exact .erase_cache _ _ q p
  | false =>
      cases hp : c.storage.files.contains q with
      | false =>
          rw [removeFile_missing c hf hp]
          exact .erase_cache _ _ q p
      | true =>
          rw [removeFile_present c hf hp]
          exact .erase _ _ q p

private theorem settledAt_foldl {α : Type}
    {f : Commit MemoryStore → α → Commit MemoryStore} {p : Path}
    (h : ∀ c a, SettledAt c (f c a) p) (l : List α) (c : Commit MemoryStore) :
    SettledAt c (l.foldl f c) p := by
  induction l generalizing c with
  | nil => exact .refl _ _ p
  | cons a l ih => exact (h c a).trans (ih (f c a))

theorem settled_finished (w : Workspace MemoryStore) (p : Path) :
    Settled w.cache w.storage.files (finished w).cache
      (finished w).storage.files p := by
  have hdirs := (filesKept_dirsDone w).settledAt p
  have hwrites : SettledAt (dirsDone w) (writesDone w) p :=
    settledAt_foldl (fun c e => settledAt_writeFile c e p) _ _
  have hremovals : SettledAt (writesDone w) (removalsDone w) p :=
    settledAt_foldl (fun c q => settledAt_removeFile c q p) _ _
  have hrest := (filesKept_finished w).settledAt p
  exact (hdirs.trans hwrites).trans (hremovals.trans hrest)

theorem agrees_finished {w : Workspace MemoryStore}
    (h : CacheAgrees w.cache w.storage.files) :
    CacheAgrees (finished w).cache (finished w).storage.files :=
  h.settled (settled_finished w)

end Commit

end ComponentBuild
