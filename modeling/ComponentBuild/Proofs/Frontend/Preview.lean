import ComponentBuild.Proofs.Frontend.Updates

/-!
# A unit that reads storage and one that reads a workspace

A workspace in which nothing is staged and whose cache is up to date answers
every reading as its storage does.  So a new unit comes to the same components
through either of them, whatever there is in the source directory; only a
directory that is not known is no error for the workspace.
-/

namespace ComponentBuild

open KeyOrder SortedMap

namespace Workspace

structure Shows (s : MemoryStore) (w : Workspace MemoryStore) : Prop where
  storage : w.storage = s
  pending : w.pending = ∅
  agrees : CacheAgrees w.cache s.files

variable {s : MemoryStore} {v w : Workspace MemoryStore}

theorem shows_ofStorage (s : MemoryStore) : (Workspace.ofStorage s).Shows s :=
  ⟨rfl, rfl, .empty _⟩

theorem ReadFrom.shows (h : ReadFrom w v) (hw : w.Shows s) : v.Shows s where
  storage := h.storage.trans hw.storage
  pending := h.pending.trans hw.pending
  agrees p := by
    have hsettled := h.settled p
    rw [SettledAt, h.storage, hw.storage] at hsettled
    exact hsettled.agrees (hw.agrees p)

theorem Shows.clearFileCache (h : w.Shows s) (p : Path) :
    (w.clearFileCache p).Shows s :=
  ⟨h.storage, h.pending, h.agrees.erase_cache p.normalize⟩

theorem Shows.readAt (h : w.Shows s) (hs : s.failing = ∅) (p : Path) :
    (w.readAt p).1 = s.read p := by
  have hknown : w.known? p = (w.cache.get? p).map .ok := by
    apply known?_unstaged
    rw [h.pending]
    rfl
  have hread := MemoryStore.read_eq (s := s) (p := p) (by rw [hs]; rfl)
  unfold Workspace.readAt
  cases hcache : w.cache.get? p with
  | some content => simp [hknown, hcache, hread, h.agrees p content hcache]
  | none =>
      simp only [hknown, hcache, Option.map_none,
        MemoryStore.storage_read, h.storage]
      cases s.read p <;> rfl

theorem Shows.findFiles (h : w.Shows s) {dir : Path} (hdir : dir.IsNormal)
    (ending : String) :
    w.findFiles dir ending = .ok ((s.findFiles dir ending).toOption.getD []) := by
  have hstored :
      Storage.findFiles w.storage dir ending = s.findFiles dir ending := by
    rw [h.storage]
    rfl
  have hkeep : ((none : Option Change) != some .removeFile) = true := by decide
  unfold Workspace.findFiles
  rw [hdir.normalize_eq, h.pending]
  dsimp only
  rw [hstored]
  cases hknown : s.dirs.contains dir with
  | true =>
      have hfound : s.findFiles dir ending =
          .ok (s.files.keys.filter fun p => p.isWithin dir &&
            p.endsWith ending) := by
        simp [MemoryStore.findFiles, hknown]
      have hsorted := Path.sorted_of_before
        (s.files.keys_sorted.filter fun p => p.isWithin dir && p.endsWith ending)
      rw [hfound]
      simp [Except.map, hkeep, hsorted, Except.toOption]
  | false =>
      have hmissing : s.findFiles dir ending = .error (.missing dir) := by
        simp [MemoryStore.findFiles, hknown]
      rw [hmissing]
      simp [Except.map, StorageError.isMissing, Path.sorted, Except.toOption]

end Workspace

namespace ManifestUnit

open Workspace

/-! ## Reading storage itself -/

theorem source_checkProject (s : MemoryStore) (file : Path) :
    (checkProject s file).2 = s := by
  rw [checkProject]
  split
  · rename_i h
    exact (congrArg Prod.snd h).symm
  · rename_i h
    split <;> exact (congrArg Prod.snd h).symm

private theorem source_load (u : ManifestUnit) (s : MemoryStore) (p : Path) :
    (u.load s p).2 = s := by
  rw [load]
  split
  · rename_i h
    exact (congrArg Prod.snd h).symm
  · rename_i h
    split <;> exact (congrArg Prod.snd h).symm

private theorem source_loadAll (u : ManifestUnit) (s : MemoryStore)
    (paths : List Path) :
    (u.loadAll s paths).2 = s :=
  List.foldlRecOn (motive := fun v : ManifestUnit × MemoryStore => v.2 = s) _ _
    rfl
    fun v h p _ => (source_load v.1 v.2 p).trans h

private theorem source_scan (u : ManifestUnit) (s : MemoryStore) :
    (u.scan s).2.2 = s := by
  simp only [scan]
  split
  · rfl
  · exact source_loadAll _ s _

private theorem source_refresh (u : ManifestUnit) (changed : List Path)
    (s : MemoryStore) :
    (u.refresh changed s).2.2 = s := by
  unfold refresh
  split
  · exact source_scan u s
  · split
    · rfl
    · exact source_loadAll u s _

theorem source_update (u : ManifestUnit) (changed : List Path) (s : MemoryStore) :
    (u.update changed s).2.2 = s := by
  have hcheck := source_checkProject s u.request.projectFile
  unfold update
  split
  · rfl
  · split
    · rename_i h
      rwa [h] at hcheck
    · rename_i v h
      rw [h] at hcheck
      have hrefresh := source_refresh u changed v
      split
      · rename_i heq
        rw [heq] at hrefresh
        exact hrefresh.trans hcheck
      · rename_i heq
        rw [heq] at hrefresh
        exact hrefresh.trans hcheck

/-! ## Reading the one as the other -/

section

variable {s : MemoryStore} {w : Workspace MemoryStore} (hs : s.failing = ∅)
    (h : w.Shows s)

include hs h

private theorem fetch_shows {p : Path} (hp : p.IsNormal) :
    (FileAccess.fetch w p).1 = (FileAccess.fetch s p).1 := by
  rw [fetch_eq, hp.normalize_eq]
  exact h.readAt hs p

theorem checkProject_shows {file : Path} (hfile : file.IsNormal) :
    (checkProject w file).1 = (checkProject s file).1 := by
  have hfetch := fetch_shows hs h hfile
  rw [checkProject, checkProject]
  rcases hfirst : FileAccess.fetch w file with ⟨result, w'⟩
  rcases hsecond : FileAccess.fetch s file with ⟨result', s'⟩
  rw [hfirst, hsecond] at hfetch
  obtain rfl : result = result' := hfetch
  cases result with
  | error e => rfl
  | ok content => cases hjson : Json.isWellFormed content <;> simp [hjson]

private theorem load_shows (u : ManifestUnit) {p : Path} (hp : p.IsNormal) :
    (u.load w p).1 = (u.load s p).1 := by
  have hfetch := fetch_shows hs h hp
  rw [load, load]
  rcases hfirst : FileAccess.fetch w p with ⟨result, w'⟩
  rcases hsecond : FileAccess.fetch s p with ⟨result', s'⟩
  rw [hfirst, hsecond] at hfetch
  obtain rfl : result = result' := hfetch
  cases result with
  | ok content => rfl
  | error e => cases hmissing : e.isMissing <;> simp [hmissing]

private theorem loadAll_shows (u : ManifestUnit) {paths : List Path}
    (hpaths : ∀ p ∈ paths, p.IsNormal) :
    (u.loadAll w paths).1 = (u.loadAll s paths).1 := by
  induction paths generalizing u w with
  | nil => rfl
  | cons p paths ih =>
      obtain ⟨hp, hrest⟩ := List.forall_mem_cons.1 hpaths
      have hstorage :
          u.loadAll s (p :: paths) = (u.load s p).1.loadAll s paths := by
        rw [loadAll, List.foldl_cons, ← loadAll, source_load]
      rw [loadAll_cons, hstorage, ← load_shows hs h u hp]
      exact ih ((readFrom_load u w p).shows h) (u.load w p).1 hrest

theorem manifests_scan_shows (u : ManifestUnit) :
    (u.scan w).2.1.manifests = (u.scan s).2.1.manifests := by
  have hfound := h.findFiles u.request.srcDir.isNormal_normalize manifestEnding
  have hw : FileAccess.findFiles w u.request.srcDir.normalize manifestEnding =
      w.findFiles u.request.srcDir.normalize manifestEnding := rfl
  have hs' : FileAccess.findFiles s u.request.srcDir.normalize manifestEnding =
      s.findFiles u.request.srcDir.normalize manifestEnding := rfl
  simp only [scan, hw, hs', hfound]
  cases hstored : s.findFiles u.request.srcDir.normalize manifestEnding with
  | error e => rfl
  | ok found =>
      have hpaths : ∀ p ∈ found.map Path.normalize, p.IsNormal := by
        intro p hp
        obtain ⟨q, -, rfl⟩ := List.mem_map.1 hp
        exact q.isNormal_normalize
      simp only [Except.toOption, Option.getD_some]
      exact congrArg ManifestUnit.manifests (loadAll_shows hs h _ hpaths)

end

/-! ## The components of a snapshot -/

theorem gather_fst (byTag : SortedMap String (Path × Component))
    (ds ds' : List Diagnostic) (entry : Path × Except Diagnostic Component) :
    (gather (byTag, ds) entry).1 = (gather (byTag, ds') entry).1 := by
  obtain ⟨path, d | c⟩ := entry
  · rfl
  · cases hfirst : byTag.get? c.tag <;> simp [gather, hfirst]

private theorem components_snapshot {u u' : ManifestUnit}
    (h : u.manifests = u'.manifests) (ds ds' : List Diagnostic) :
    (u.snapshot ds).1.components = (u'.snapshot ds').1.components := by
  have hfold (entries : List (Path × Except Diagnostic Component))
      (byTag : SortedMap String (Path × Component)) (ds ds' : List Diagnostic) :
      (entries.foldl gather (byTag, ds)).1 =
        (entries.foldl gather (byTag, ds')).1 := by
    induction entries generalizing byTag ds ds' with
    | nil => rfl
    | cons entry entries ih =>
        have hstep := gather_fst byTag ds ds' entry
        rw [List.foldl_cons, List.foldl_cons,
          ← Prod.mk.eta (p := gather (byTag, ds) entry),
          ← Prod.mk.eta (p := gather (byTag, ds') entry), hstep]
        exact ih _ _ _
  simp only [snapshot, h, hfold u'.manifests.entries ∅ ds ds']

/-! ## The first update -/

theorem update_new {τ : Type} [FileAccess τ] (request : ProjectRequest)
    (changed : List Path) (source : τ) :
    (update { request } changed source).1 =
      match checkProject source request.projectFile with
      | (.error e, _) => { ending := .failed e }
      | (.ok (), source) =>
          { snapshots := [((scan { request } source).2.1.snapshot
            (scan { request } source).1).1] } := by
  rw [update, if_neg Bool.false_ne_true]
  rcases checkProject source request.projectFile with ⟨e | _, source'⟩
  · rfl
  · rfl

/-- A new unit fails over a workspace as over its storage, or reports the same
components. -/
theorem update_shows {s : MemoryStore} {w : Workspace MemoryStore}
    (hs : s.failing = ∅) (h : w.Shows s) {request : ProjectRequest}
    (hfile : request.projectFile.IsNormal) (changed changed' : List Path) :
    (∃ e, (update { request } changed w).1 = { ending := .failed e } ∧
        (update { request } changed' s).1 = { ending := .failed e }) ∨
      ∃ a b : Snapshot, (update { request } changed w).1 = { snapshots := [a] } ∧
        (update { request } changed' s).1 = { snapshots := [b] } ∧
        a.components = b.components := by
  have hcheck := checkProject_shows hs h hfile
  have hread := readFrom_checkProject w request.projectFile
  have hsource := source_checkProject s request.projectFile
  rw [update_new, update_new]
  rcases hfirst : checkProject w request.projectFile with ⟨result, w'⟩
  rcases hsecond : checkProject s request.projectFile with ⟨result', s'⟩
  rw [hfirst, hsecond] at hcheck
  rw [hfirst] at hread
  rw [hsecond] at hsource
  obtain rfl : result = result' := hcheck
  obtain rfl : s' = s := hsource
  cases result with
  | error e => exact .inl ⟨e, rfl, rfl⟩
  | ok _ =>
      refine .inr ⟨_, _, rfl, rfl, components_snapshot ?_ _ _⟩
      exact manifests_scan_shows hs (hread.shows h) { request }

end ManifestUnit

end ComponentBuild
