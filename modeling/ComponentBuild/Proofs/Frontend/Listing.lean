import ComponentBuild.Frontend.Manifests
import ComponentBuild.Proofs.Path.Ending
import ComponentBuild.Proofs.SortedMap.Entries
import ComponentBuild.Proofs.Workspace.Calls
import ComponentBuild.Storage.Memory

/-!
# The manifests that a unit knows

What a unit keeps by path is determined by the texts of the manifests it has
read.  Reading some of them again takes over what is at these paths, and a scan
takes over everything below the source directory.
-/

namespace ComponentBuild

open KeyOrder SortedMap

/-! ## Texts by path -/

namespace FileMap

def IsNormal (files : FileMap) : Prop :=
  ∀ p ∈ files.keys, p.IsNormal

theorem isNormal_empty : IsNormal ∅ := by
  intro p hp
  cases hp

theorem IsNormal.put {files : FileMap} (h : files.IsNormal) {p : Path}
    (hp : p.IsNormal) (content : Option String) :
    IsNormal (files.put p content) := by
  intro q hq
  rcases mem_keys_put hq with rfl | hq
  · exact hp
  · exact h q hq

theorem IsNormal.ext {files files' : FileMap} (h : files.IsNormal)
    (h' : files'.IsNormal)
    (heq : ∀ p : Path, p.IsNormal → files.get? p = files'.get? p) :
    files = files' :=
  eq_of_get? (fun _ _ ha hb => ha.eq_of_same hb) h h' heq

theorem IsNormal.get?_eq_none {files : FileMap} (h : files.IsNormal) {p : Path}
    (hp : p.IsNormal) (hmem : p ∉ files.keys) : files.get? p = none :=
  SortedMap.get?_eq_none (fun _ _ ha hb => ha.eq_of_same hb) h hp hmem

def refresh (known : FileMap) (paths : List Path) (files : FileMap) : FileMap :=
  paths.foldl (fun known p => known.put p (files.get? p)) known

theorem IsNormal.refresh {known : FileMap} (h : known.IsNormal)
    {paths : List Path} (hpaths : ∀ p ∈ paths, p.IsNormal) (files : FileMap) :
    IsNormal (known.refresh paths files) := by
  induction paths generalizing known with
  | nil => exact h
  | cons p paths ih =>
      obtain ⟨hp, hrest⟩ := List.forall_mem_cons.1 hpaths
      exact ih (h.put hp _) hrest

theorem get?_refresh (known : FileMap) (paths : List Path) (files : FileMap)
    (q : Path) :
    (known.refresh paths files).get? q =
      if paths.any (same · q) then files.get? q else known.get? q := by
  induction paths generalizing known with
  | nil => rfl
  | cons p paths ih =>
      rw [refresh, List.foldl_cons, ← refresh, ih, get?_put, List.any_cons]
      cases hrest : paths.any (same · q) with
      | true => simp
      | false =>
          cases hp : same p q with
          | true => simp [get?_congr files hp]
          | false => simp

theorem refresh_eq {known files target : FileMap} (hknown : known.IsNormal)
    (htarget : target.IsNormal) {paths : List Path}
    (hpaths : ∀ p ∈ paths, p.IsNormal)
    (hread : ∀ p : Path, p ∈ paths → files.get? p = target.get? p)
    (hother : ∀ p : Path, p.IsNormal → p ∉ paths → known.get? p = target.get? p) :
    known.refresh paths files = target := by
  refine (hknown.refresh hpaths files).ext htarget fun p hp => ?_
  rw [get?_refresh]
  split
  · rename_i hany
    obtain ⟨q, hq, hsame⟩ := List.any_eq_true.1 hany
    rw [← (hpaths q hq).eq_of_same hp hsame]
    exact hread q hq
  · rename_i hany
    refine hother p hp fun hmem => hany ?_
    exact List.any_eq_true.2 ⟨p, hmem, same_refl p⟩

end FileMap

/-! ## Manifests below the source directory -/

def isManifestOf (src p : Path) : Bool :=
  p.isWithin src && p.endsWith manifestEnding

def MemoryStore.manifests (s : MemoryStore) (src : Path) : FileMap :=
  s.files.filter fun p _ => isManifestOf src p

private theorem isEnding_manifestEnding : Path.IsEnding manifestEnding :=
  ⟨by decide, by decide⟩

namespace MemoryStore

variable {s : MemoryStore}

theorem keys_manifests (s : MemoryStore) (src : Path) :
    (s.manifests src).keys = s.files.keys.filter (isManifestOf src) := by
  simp [manifests, filter, keys, List.filter_map, Function.comp_def]

theorem isNormal_manifests (h : FileMap.IsNormal s.files) (src : Path) :
    FileMap.IsNormal (s.manifests src) := by
  intro p hp
  rw [keys_manifests] at hp
  exact h p (List.mem_of_mem_filter hp)

theorem get?_manifests (h : FileMap.IsNormal s.files) (src : Path) {p : Path}
    (hp : p.IsNormal) :
    (s.manifests src).get? p = if isManifestOf src p then s.files.get? p
      else none :=
  get?_filter (fun _ _ ha hb => ha.eq_of_same hb) h hp (isManifestOf src)

end MemoryStore

namespace ManifestUnit

open FileMap

theorem mem_relevant {changed : List Path} {p : Path} (h : p ∈ relevant changed) :
    ∃ q ∈ changed, q.endsWith manifestEnding = true ∧ q.normalize = p := by
  have hmem :
      p ∈ (changed.filter fun q => q.endsWith manifestEnding).map
        Path.normalize :=
    SortedSet.mem_of_mem_ofKeys h
  obtain ⟨q, hq, rfl⟩ := List.mem_map.1 hmem
  obtain ⟨hq, hending⟩ := List.mem_filter.1 hq
  exact ⟨q, hq, hending, rfl⟩

theorem isNormal_of_mem_relevant {changed : List Path} {p : Path}
    (h : p ∈ relevant changed) :
    p.IsNormal := by
  obtain ⟨q, -, -, rfl⟩ := mem_relevant h
  exact q.isNormal_normalize

theorem endsWith_of_mem_relevant {changed : List Path} {p : Path}
    (h : p ∈ relevant changed) :
    p.endsWith manifestEnding = true := by
  obtain ⟨q, -, hending, rfl⟩ := mem_relevant h
  exact Path.endsWith_normalize isEnding_manifestEnding hending

theorem mem_relevant_of_mem {changed : List Path} {p : Path} (hp : p.IsNormal)
    (hending : p.endsWith manifestEnding = true) (h : p ∈ changed) :
    p ∈ relevant changed := by
  have hmem :
      p ∈ (changed.filter fun q => q.endsWith manifestEnding).map
        Path.normalize :=
    List.mem_map.2 ⟨p, List.mem_filter.2 ⟨h, hending⟩, hp.normalize_eq⟩
  obtain ⟨q, hq, hsame⟩ := SortedSet.exists_mem_ofKeys.2 ⟨p, hmem, same_refl p⟩
  rwa [← (isNormal_of_mem_relevant hq).eq_of_same hp hsame]

/-! ## From texts to entries -/

def listing (files : FileMap) : SortedMap Path (Except Diagnostic Component) :=
  files.mapWithKey entryOf

theorem put_listing {files : FileMap} (h : files.IsNormal) {p : Path}
    (hp : p.IsNormal) (content : Option String) :
    (listing files).put p (content.map (entryOf p)) =
      listing (files.put p content) := by
  have hsame : ∀ a b : Path, a.IsNormal → b.IsNormal → same a b = true → a = b :=
    fun _ _ ha hb => ha.eq_of_same hb
  have hkeys : ∀ k ∈ (listing files).keys, k.IsNormal := by
    rwa [listing, keys_mapWithKey]
  refine eq_of_get? hsame (fun q hq => ?_) ?_ fun q hq => ?_
  · rcases mem_keys_put hq with rfl | hq
    · exact hp
    · exact hkeys q hq
  · rw [listing, keys_mapWithKey]
    exact h.put hp content
  · rw [get?_put, listing, listing, get?_mapWithKey hsame h hq,
      get?_mapWithKey hsame (h.put hp content) hq, get?_put]
    split
    · rename_i hpq
      rw [hp.eq_of_same hq hpq]
    · rfl

def report (request : ProjectRequest) (files : FileMap) : Snapshot :=
  (snapshot { request, manifests := listing files } []).1

end ManifestUnit

/-- The two snapshots tell the same, whatever was reported before them. -/
structure Snapshot.SameContent (s t : Snapshot) : Prop where
  components : s.components = t.components
  diagnostics : s.diagnostics = t.diagnostics
  emitted : s.emitted = t.emitted

theorem Snapshot.SameContent.symm {s t : Snapshot} (h : s.SameContent t) :
    t.SameContent s :=
  ⟨h.components.symm, h.diagnostics.symm, h.emitted.symm⟩

theorem Snapshot.SameContent.trans {s t r : Snapshot} (h : s.SameContent t)
    (h' : t.SameContent r) :
    s.SameContent r :=
  ⟨h.components.trans h'.components, h.diagnostics.trans h'.diagnostics,
    h.emitted.trans h'.emitted⟩

theorem ManifestUnit.sameContent_snapshot {u : ManifestUnit} {files : FileMap}
    (h : u.manifests = listing files) :
    (u.snapshot []).1.SameContent (report u.request files) := by
  constructor <;> simp [report, snapshot, h]

end ComponentBuild
