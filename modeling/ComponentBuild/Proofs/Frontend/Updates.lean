import ComponentBuild.Proofs.Frontend.Listing
import ComponentBuild.Proofs.Workspace.Report
import ComponentBuild.Proofs.Workspace.Settling

/-!
# What an update of a unit reads

Through a workspace that shows the manifests as they are on storage, reading one
gives its text, and a scan gives them all.  So an update that does not fail
leaves the unit with texts that are determined by what it knew, by the changed
paths and by storage.
-/

namespace ComponentBuild

open KeyOrder SortedMap

/-! ## Workspaces that show the manifests as they are -/

/-- File names are normal, the source directory is no file, and the manifests in
it can be read. -/
structure MemoryStore.ManifestsReadable (src : Path) (s : MemoryStore) :
    Prop where
  normal : FileMap.IsNormal s.files
  source : s.files.contains src = false
  readable : ∀ p : Path, p.IsNormal → isManifestOf src p = true →
    s.failing.contains p = false

theorem MemoryStore.manifestsReadable_of_keys {src : Path} {s : MemoryStore}
    (hnormal : ∀ p ∈ s.files.keys, p.normalize = p)
    (hsource : s.files.contains src = false) (hfailing : s.failing = ∅) :
    s.ManifestsReadable src where
  normal p hp := Path.isNormal_iff.2 (hnormal p hp)
  source := hsource
  readable p _ _ := not_failing hfailing p

namespace Workspace

structure Clear (src : Path) (w : Workspace MemoryStore) : Prop where
  manifests : w.storage.ManifestsReadable src
  pending : w.pending = ∅
  agrees : ∀ p : Path, p.IsNormal → isManifestOf src p = true →
    AgreesAt w.cache w.storage.files p

structure ReadFrom (w v : Workspace MemoryStore) : Prop where
  storage : v.storage = w.storage
  pending : v.pending = w.pending
  settled : ∀ p, SettledAt w v p

variable {src : Path} {u v w : Workspace MemoryStore}

theorem ReadFrom.refl (w : Workspace MemoryStore) : ReadFrom w w :=
  ⟨rfl, rfl, fun p => .refl _ _ p⟩

theorem ReadFrom.trans (h : ReadFrom u v) (h' : ReadFrom v w) : ReadFrom u w :=
  ⟨h'.storage.trans h.storage, h'.pending.trans h.pending,
    fun p => (h.settled p).trans (h'.settled p)⟩

private theorem readFrom_readAt (w : Workspace MemoryStore) (p : Path) :
    ReadFrom w (w.readAt p).2 :=
  ⟨storage_readAt w p, pending_readAt w p, settledAt_readAt w p⟩

theorem ReadFrom.clear (h : ReadFrom w v) (hw : w.Clear src) : v.Clear src where
  manifests := by rw [h.storage]; exact hw.manifests
  pending := h.pending.trans hw.pending
  agrees p hp hsrc := (h.settled p).agrees (hw.agrees p hp hsrc)

theorem clear_ofStorage {s : MemoryStore} (h : s.ManifestsReadable src) :
    (Workspace.ofStorage s).Clear src :=
  ⟨h, rfl, fun _ _ _ => .of_none rfl⟩

theorem Clear.readAt (h : w.Clear src) {p : Path} (hp : p.IsNormal)
    (hsrc : isManifestOf src p = true) :
    (w.readAt p).1 = FileMap.readAt w.storage.files p := by
  have hknown : w.known? p = (w.cache.get? p).map .ok := by
    apply known?_unstaged
    rw [h.pending]
    rfl
  have hread := MemoryStore.read_eq (h.manifests.readable p hp hsrc)
  unfold Workspace.readAt
  cases hcache : w.cache.get? p with
  | some content =>
      have hfile := h.agrees p hp hsrc content hcache
      simp [hknown, hcache, FileMap.readAt, hfile]
  | none =>
      simp only [hknown, hcache, Option.map_none, MemoryStore.storage_read, hread]
      cases hfile : w.storage.files.get? p <;> simp [FileMap.readAt, hfile]

end Workspace

namespace ManifestUnit

open Workspace

variable {src : Path} {u : ManifestUnit} {w : Workspace MemoryStore}

/-! ## An update only reads -/

theorem fetch_eq (w : Workspace MemoryStore) (p : Path) :
    FileAccess.fetch w p = w.readAt p.normalize :=
  rfl

theorem readFrom_load (u : ManifestUnit) (w : Workspace MemoryStore) (p : Path) :
    ReadFrom w (u.load w p).2 := by
  have hread := readFrom_readAt w p.normalize
  rw [load, fetch_eq]
  split
  · rename_i hv
    rwa [hv] at hread
  · rename_i hv
    rw [hv] at hread
    split <;> exact hread

theorem loadAll_cons (u : ManifestUnit) (w : Workspace MemoryStore) (p : Path)
    (paths : List Path) :
    u.loadAll w (p :: paths) = (u.load w p).1.loadAll (u.load w p).2 paths := rfl

private theorem readFrom_loadAll (u : ManifestUnit) (w : Workspace MemoryStore)
    (paths : List Path) :
    ReadFrom w (u.loadAll w paths).2 := by
  induction paths generalizing u w with
  | nil => exact .refl w
  | cons p paths ih =>
      rw [loadAll_cons]
      exact (readFrom_load u w p).trans (ih _ _)

private theorem readFrom_scan (u : ManifestUnit) (w : Workspace MemoryStore) :
    ReadFrom w (u.scan w).2.2 := by
  simp only [scan]
  split
  · exact .refl w
  · exact readFrom_loadAll _ w _

private theorem readFrom_refresh (u : ManifestUnit) (changed : List Path)
    (w : Workspace MemoryStore) :
    ReadFrom w (u.refresh changed w).2.2 := by
  unfold refresh
  split
  · exact readFrom_scan u w
  · split
    · exact .refl w
    · exact readFrom_loadAll u w _

theorem readFrom_checkProject (w : Workspace MemoryStore) (file : Path) :
    ReadFrom w (checkProject w file).2 := by
  have hread := readFrom_readAt w file.normalize
  rw [checkProject, fetch_eq]
  split
  · rename_i hv
    rwa [hv] at hread
  · rename_i hv
    rw [hv] at hread
    split <;> exact hread

theorem readFrom_create {request : ProjectRequest} {v : Workspace MemoryStore}
    (h : create request w = (.ok u, v)) : u = { request } ∧ ReadFrom w v := by
  have hread := readFrom_checkProject w request.projectFile
  rw [create] at h
  rcases hcheck : checkProject w request.projectFile with ⟨e | _, v'⟩
  · simp [hcheck, Except.map] at h
  · obtain ⟨rfl, rfl⟩ : { request } = u ∧ v' = v := by
      simpa [hcheck, Except.map] using h
    rw [hcheck] at hread
    exact ⟨rfl, hread⟩

theorem readFrom_update (u : ManifestUnit) (changed : List Path)
    (w : Workspace MemoryStore) :
    ReadFrom w (u.update changed w).2.2 := by
  have hcheck := readFrom_checkProject w u.request.projectFile
  unfold update
  split
  · exact .refl w
  · split
    · rename_i hv
      rwa [hv] at hcheck
    · rename_i v hv
      rw [hv] at hcheck
      have hrefresh := hcheck.trans (readFrom_refresh u changed v)
      split
      · rename_i heq
        rwa [heq] at hrefresh
      · rename_i heq
        rwa [heq] at hrefresh

/-! ## Loading -/

private theorem load_eq (u : ManifestUnit) (h : w.Clear src) {p : Path}
    (hp : p.IsNormal)
    (hsrc : isManifestOf src p = true) :
    (u.load w p).1 =
      { u with
        manifests := u.manifests.put p
          ((w.storage.files.get? p).map (entryOf p)) } := by
  have hread := h.readAt hp hsrc
  rw [load, fetch_eq, hp.normalize_eq]
  rcases hresult : w.readAt p with ⟨result, v⟩
  rw [hresult] at hread
  cases hfile : w.storage.files.get? p with
  | some content =>
      obtain rfl : result = .ok content := by
        simpa [FileMap.readAt, hfile] using hread
      rfl
  | none =>
      obtain rfl : result = .error (.missing p) := by
        simpa [FileMap.readAt, hfile] using hread
      rfl

private theorem loadAll_eq {files : FileMap} (hu : u.manifests = listing files)
    (hfiles : files.IsNormal) (h : w.Clear src) {paths : List Path}
    (hpaths : ∀ p ∈ paths, p.IsNormal ∧ isManifestOf src p = true) :
    (u.loadAll w paths).1 =
      { u with manifests := listing (files.refresh paths w.storage.files) } := by
  induction paths generalizing u w files with
  | nil =>
      rw [FileMap.refresh, List.foldl_nil, ← hu]
      rfl
  | cons p paths ih =>
      obtain ⟨⟨hp, hsrc⟩, hrest⟩ := List.forall_mem_cons.1 hpaths
      have hstep := readFrom_load u w p
      have hload := load_eq u h hp hsrc
      rw [hu, put_listing hfiles hp] at hload
      have hput :
          (u.load w p).1.manifests =
            listing (files.put p (w.storage.files.get? p)) := by
        rw [hload]
      rw [loadAll_cons, ih hput (hfiles.put hp _) (hstep.clear h) hrest, hload,
        hstep.storage]
      rfl

/-! ## Scanning -/

theorem findFiles_storage {s : MemoryStore} (h : s.ManifestsReadable src)
    (hclosed : s.Closed) (hroot : src.parts ≠ []) :
    s.findFiles src manifestEnding = .ok (s.manifests src).keys ∨
      s.findFiles src manifestEnding = .error (.missing src) ∧
      (s.manifests src).keys = [] := by
  rw [MemoryStore.keys_manifests]
  exact hclosed.findFiles hroot h.source manifestEnding

private theorem findFiles_eq (h : w.Clear src) (hclosed : w.storage.Closed)
    (hsrc : src.IsNormal) (hroot : src.parts ≠ []) :
    w.findFiles src manifestEnding = .ok (w.storage.manifests src).keys := by
  have hsorted :=
    Path.sorted_of_before (SortedMap.keys_sorted (w.storage.manifests src))
  have hstored : ∀ s p, Storage.findFiles (σ := MemoryStore) s p manifestEnding =
      s.findFiles p manifestEnding := fun _ _ => rfl
  unfold Workspace.findFiles
  rw [hsrc.normalize_eq, h.pending]
  have hkeep : ((none : Option Change) != some .removeFile) = true := by decide
  rcases findFiles_storage h.manifests hclosed hroot with hfind | ⟨hfind, hnone⟩
  · simp [hstored, hfind, Except.map, hkeep, hsorted]
  · simp [hstored, hfind, Except.map, StorageError.isMissing, hnone, Path.sorted]

private theorem refresh_keys_manifests {s : MemoryStore}
    (h : FileMap.IsNormal s.files) (src : Path) :
    FileMap.refresh ∅ (s.manifests src).keys s.files = s.manifests src := by
  have hfiles := MemoryStore.isNormal_manifests h src
  refine FileMap.refresh_eq FileMap.isNormal_empty hfiles hfiles
    (fun p hp => ?_) fun p hp hmem => ?_
  · have hsrc : isManifestOf src p = true := by
      rw [MemoryStore.keys_manifests] at hp
      exact List.of_mem_filter hp
    rw [MemoryStore.get?_manifests h src (hfiles p hp), hsrc, if_pos rfl]
  · exact (hfiles.get?_eq_none hp hmem).symm

theorem scan_eq {u : ManifestUnit} (hsrc : u.request.srcDir.normalize = src)
    (h : w.Clear src)
    (hclosed : w.storage.Closed) (hroot : src.parts ≠ []) :
    (u.scan w).1 = [] ∧ (u.scan w).2.1 =
      { u with
        manifests := listing (w.storage.manifests src)
        scanned := true } := by
  have hfiles := MemoryStore.isNormal_manifests h.manifests.normal src
  have hpaths : ∀ p ∈ (w.storage.manifests src).keys,
      p.IsNormal ∧ isManifestOf src p = true := by
    intro p hp
    refine ⟨hfiles p hp, ?_⟩
    rw [MemoryStore.keys_manifests] at hp
    exact List.of_mem_filter hp
  have hnormal : (w.storage.manifests src).keys.map Path.normalize =
      (w.storage.manifests src).keys :=
    (List.map_congr_left fun p hp => (hfiles p hp).normalize_eq).trans
      (List.map_id _)
  have hfind :
      FileAccess.findFiles w src manifestEnding =
        .ok (w.storage.manifests src).keys :=
    findFiles_eq h hclosed ⟨_, hsrc.symm⟩ hroot
  have hload :=
    loadAll_eq (u := { u with manifests := ∅ }) rfl
      FileMap.isNormal_empty h hpaths
  rw [refresh_keys_manifests h.manifests.normal] at hload
  simp only [scan, hsrc, hfind, hnormal, hload, and_self]

/-! ## Whole updates -/

def received (src : Path) (known : Option FileMap) (changed : List Path)
    (s : MemoryStore) :
    FileMap :=
  match known with
  | none => s.manifests src
  | some files =>
      if changed.isEmpty then s.manifests src
        else files.refresh (relevant changed) s.files

/-- The unit has read the given texts; before its first scan it has read none. -/
structure Knows (u : ManifestUnit) (request : ProjectRequest)
    (known : Option FileMap) : Prop where
  request : u.request = request
  closed : u.closed = false
  scanned : u.scanned = known.isSome
  texts :
    ∀ files, known = some files → files.IsNormal ∧ u.manifests = listing files

theorem knows_new (request : ProjectRequest) : Knows { request } request none :=
  ⟨rfl, rfl, rfl, by simp⟩

section

variable {request : ProjectRequest} {known : Option FileMap} {changed : List Path}

theorem Knows.rescan (hu : u.Knows request known)
    (hsrc : request.srcDir.normalize = src)
    (h : w.Clear src) (hclosed : w.storage.Closed) (hroot : src.parts ≠ [])
    (hfull : (!u.scanned || changed.isEmpty) = true) :
    (u.refresh changed w).1 = some [] ∧
      (u.refresh changed w).2.1.Knows request (some
        (w.storage.manifests src)) := by
  have hfiles := MemoryStore.isNormal_manifests h.manifests.normal src
  have hsource : u.request.srcDir.normalize = src := by rw [hu.request, hsrc]
  obtain ⟨hnone, hscan⟩ := scan_eq hsource h hclosed hroot
  simp only [ManifestUnit.refresh, hfull, if_true, hnone, hscan, true_and]
  refine ⟨hu.request, hu.closed, rfl, ?_⟩
  rintro files ⟨⟩
  exact ⟨hfiles, rfl⟩

theorem Knows.reload {files : FileMap} (hu : u.Knows request (some files))
    (h : w.Clear src) (hempty : changed.isEmpty = false)
    (hchanged : ∀ p ∈ relevant changed, isManifestOf src p = true) :
    ((u.refresh changed w).1 = some [] ∨ (u.refresh changed w).1 = none) ∧
      (u.refresh changed w).2.1.Knows request
        (some (files.refresh (relevant changed) w.storage.files)) := by
  obtain ⟨hnormal, htexts⟩ := hu.texts files rfl
  have hpart : ¬ (!u.scanned || changed.isEmpty) = true := by
    simp [hu.scanned, hempty]
  have hload := loadAll_eq htexts hnormal h fun p hp =>
    ⟨isNormal_of_mem_relevant hp, hchanged p hp⟩
  have hknows : (u.loadAll w (relevant changed)).1.Knows request
      (some (files.refresh (relevant changed) w.storage.files)) := by
    rw [hload]
    refine ⟨hu.request, hu.closed, hu.scanned, ?_⟩
    rintro files' ⟨⟩
    exact ⟨hnormal.refresh (fun p => isNormal_of_mem_relevant) _, rfl⟩
  rw [ManifestUnit.refresh, if_neg hpart]
  cases hrelevant : relevant changed with
  | nil => exact ⟨.inr rfl, hu⟩
  | cons p paths =>
      rw [hrelevant] at hknows
      exact ⟨.inl rfl, hknows⟩

theorem Knows.refresh (hu : u.Knows request known)
    (hsrc : request.srcDir.normalize = src) (h : w.Clear src)
    (hclosed : w.storage.Closed) (hroot : src.parts ≠ [])
    (hchanged : ∀ p ∈ relevant changed, isManifestOf src p = true) :
    (u.refresh changed w).2.1.Knows request
      (some (received src known changed w.storage)) ∧
      ((u.refresh changed w).1 = some [] ∨
        (u.refresh changed w).1 = none ∧ known ≠ none ∧ changed ≠ []) := by
  cases known with
  | none =>
      obtain ⟨hanswer, hknows⟩ :=
        hu.rescan hsrc h hclosed hroot (by simp [hu.scanned])
      exact ⟨hknows, .inl hanswer⟩
  | some files =>
      cases hempty : changed.isEmpty with
      | true =>
          have hfull : (!u.scanned || changed.isEmpty) = true := by simp [hempty]
          obtain ⟨hanswer, hknows⟩ := hu.rescan hsrc h hclosed hroot hfull
          refine ⟨?_, .inl hanswer⟩
          rwa [received, hempty]
      | false =>
          obtain ⟨hanswer, hknows⟩ := hu.reload h hempty hchanged
          refine ⟨?_, hanswer.imp_right fun hnone => ⟨hnone, by simp,
            by simpa using hempty⟩⟩
          rwa [received, hempty]

theorem Knows.update (hu : u.Knows request known)
    (hsrc : request.srcDir.normalize = src) (h : w.Clear src)
    (hclosed : w.storage.Closed) (hroot : src.parts ≠ [])
    (hchanged : ∀ p ∈ relevant changed, isManifestOf src p = true) :
    (∃ e, (checkProject w request.projectFile).1 = .error e ∧
        (u.update changed w).1 = { ending := .failed e } ∧
        (u.update changed w).2.1 = u) ∨
      (checkProject w request.projectFile).1 = .ok () ∧
        (u.update changed w).2.1.Knows request
          (some (received src known changed w.storage)) ∧
        ((u.update changed w).1 = {} ∧ known ≠ none ∧ changed ≠ [] ∨
          ∃ s, (u.update changed w).1 = { snapshots := [s] } ∧
            s.SameContent (report request
              (received src known changed w.storage))) := by
  have hread := readFrom_checkProject w request.projectFile
  have hopen : ¬ u.closed = true := by simp [hu.closed]
  rw [ManifestUnit.update, if_neg hopen, hu.request]
  rcases hcheck : checkProject w request.projectFile with ⟨e | _, v⟩
  · exact .inl ⟨e, rfl, rfl, rfl⟩
  · rw [hcheck] at hread
    have hstored : v.storage = w.storage := hread.storage
    obtain ⟨hknows, hanswer⟩ :=
      hu.refresh hsrc (hread.clear h) (by rwa [hstored]) hroot hchanged
    rw [hstored] at hknows
    refine .inr ⟨rfl, ?_⟩
    rcases hrefresh : u.refresh changed v with ⟨answer, u', v'⟩
    rw [hrefresh] at hknows hanswer
    rcases hanswer with hanswer | ⟨hanswer, hrest⟩
    · obtain rfl : answer = some [] := hanswer
      simp only [hrefresh]
      refine ⟨⟨hknows.request, hknows.closed, hknows.scanned, hknows.texts⟩,
        .inr ⟨_, rfl, ?_⟩⟩
      rw [← hknows.request]
      exact sameContent_snapshot (hknows.texts _ rfl).2
    · obtain rfl : answer = none := hanswer
      simp only [hrefresh]
      exact ⟨hknows, .inl ⟨trivial, hrest⟩⟩

end

end ManifestUnit

end ComponentBuild
