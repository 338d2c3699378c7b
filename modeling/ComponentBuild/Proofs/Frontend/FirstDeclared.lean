import ComponentBuild.Proofs.Frontend.Succession

/-!
# Every manifest is accounted for

A snapshot goes through the manifests in the order of their paths.  The first
manifest that declares a tag gives the component of that tag; a later one and
one that cannot be used are each reported.  So every manifest is found again in
the snapshot, in one place.
-/

namespace ComponentBuild.ManifestUnit

open KeyOrder SortedMap

/-! ## The first manifest of a tag -/

abbrev Entry := Path × Except Diagnostic Component

/-- No manifest with a smaller path declares the tag that `path` declares with
`c`. -/
structure IsFirst (entries : List Entry) (path : Path) (c : Component) :
    Prop where
  declares : (path, .ok c) ∈ entries
  least : ∀ (other : Path) (d : Component), (other, .ok d) ∈ entries →
    d.tag = c.tag →
    before other path = false

def duplicateMessage (tag : String) (first : Path) : String :=
  "duplicate tag \"" ++ tag ++ "\", first declared in " ++ first.text

inductive Explains (entries : List Entry) : Path → Diagnostic → Prop
  | broken {path : Path} {d : Diagnostic} (h : (path, .error d) ∈ entries) :
      Explains entries path d
  | duplicate {path first : Path} {c kept : Component}
      (h : (path, .ok c) ∈ entries)
      (hfirst : IsFirst entries first kept) (htag : kept.tag = c.tag)
      (hbefore : before first path = true) :
      Explains entries path (.errorAt path (duplicateMessage c.tag first))

section

variable {done : List Entry} {path : Path} {entry : Except Diagnostic Component}

theorem IsFirst.snoc {first : Path} {c : Component} (h : IsFirst done first c)
    (hnew : ∀ e ∈ done, before e.1 path = true) :
    IsFirst (done ++ [(path, entry)]) first c := by
  refine ⟨List.mem_append_left _ h.declares, fun other d hmem htag => ?_⟩
  rcases List.mem_append.1 hmem with hmem | hmem
  · exact h.least other d hmem htag
  · cases List.mem_singleton.1 hmem
    exact asymm (hnew (first, .ok c) h.declares)

theorem Explains.snoc {q : Path} {d : Diagnostic} (h : Explains done q d)
    (hnew : ∀ e ∈ done, before e.1 path = true) :
    Explains (done ++ [(path, entry)]) q d := by
  cases h with
  | broken h => exact .broken (List.mem_append_left _ h)
  | duplicate h hfirst htag hbefore =>
      exact .duplicate (List.mem_append_left _ h) (hfirst.snoc hnew) htag hbefore

end

/-! ## Going through the manifests -/

/-- What was gathered from the manifests in `done`: a component from the first
manifest of each tag, and a remark on every other one. -/
structure Gathers (before : List Diagnostic) (done : List Entry)
    (gathered : Gathered) (remarks : List (Path × Diagnostic)) : Prop where
  diagnostics : gathered.2 = before ++ remarks.map (·.2)
  keyed : KeyedByTag gathered.1
  covers : ∀ (path : Path) (c : Component), (path, .ok c) ∈ done →
    (gathered.1.get? c.tag).isSome = true
  first : ∀ e ∈ gathered.1.values, IsFirst done e.1 e.2
  explained : ∀ r ∈ remarks, Explains done r.1 r.2
  complete :
    (gathered.1.values.map (·.1) ++ remarks.map (·.1)).Perm (done.map (·.1))

section

variable {before : List Diagnostic} {done : List Entry} {gathered : Gathered}
  {remarks : List (Path × Diagnostic)} {path : Path}

private theorem gather_new {c : Component} (h : gathered.1.get? c.tag = none) :
    gather gathered (path, .ok c) = (gathered.1.insert c.tag (path, c),
      gathered.2) := by
  obtain ⟨byTag, diagnostics⟩ := gathered
  rw [gather, h]

private theorem gather_known {c : Component} {kept : Path × Component}
    (h : gathered.1.get? c.tag = some kept) :
    gather gathered (path, .ok c) =
      (gathered.1, gathered.2 ++
        [.errorAt path (duplicateMessage c.tag kept.1)]) := by
  obtain ⟨byTag, diagnostics⟩ := gathered
  rw [gather, h]
  rfl

private theorem gathers_nothing (before : List Diagnostic) :
    Gathers before [] (∅, before) [] where
  diagnostics := (List.append_nil before).symm
  keyed := keyedByTag_empty
  covers path c hmem := by cases hmem
  first e he := by cases he
  explained r hr := by cases hr
  complete := .refl _

theorem Gathers.remark (h : Gathers before done gathered remarks)
    {entry : Except Diagnostic Component} {d : Diagnostic}
    (hnew : ∀ e ∈ done, KeyOrder.before e.1 path = true)
    (hcovers : ∀ c, entry = .ok c → (gathered.1.get? c.tag).isSome = true)
    (hexplains : Explains (done ++ [(path, entry)]) path d) :
    Gathers before (done ++ [(path, entry)]) (gathered.1, gathered.2 ++ [d])
      (remarks ++ [(path, d)]) where
  diagnostics := by simp [h.diagnostics]
  keyed := h.keyed
  covers q c hmem := by
    rcases List.mem_append.1 hmem with hmem | hmem
    · exact h.covers q c hmem
    · cases List.mem_singleton.1 hmem
      exact hcovers c rfl
  first e he := (h.first e he).snoc hnew
  explained r hr := by
    rcases List.mem_append.1 hr with hr | hr
    · exact (h.explained r hr).snoc hnew
    · rw [List.mem_singleton.1 hr]
      exact hexplains
  complete := by
    rw [List.map_append, List.map_append, ← List.append_assoc]
    exact h.complete.append_right _

theorem Gathers.keep (h : Gathers before done gathered remarks) {c : Component}
    (hnew : ∀ e ∈ done, KeyOrder.before e.1 path = true)
    (hnone : gathered.1.get? c.tag = none) :
    Gathers before (done ++ [(path, .ok c)]) (gathered.1.insert c.tag (path, c),
      gathered.2)
      remarks := by
  have hperm :
      (gathered.1.insert c.tag (path, c)).values.Perm
        ((path, c) :: gathered.1.values) :=
    (perm_entries_insert hnone (path, c)).map Prod.snd
  constructor
  case diagnostics => exact h.diagnostics
  case keyed =>
    have hkeyed := h.keyed.gather (path, .ok c)
    rwa [gather_new hnone] at hkeyed
  case covers =>
    intro q d hmem
    rw [get?_insert]
    split
    · rfl
    · rename_i hother
      rcases List.mem_append.1 hmem with hmem | hmem
      · exact h.covers q d hmem
      · cases List.mem_singleton.1 hmem
        exact absurd (same_refl _) hother
  case first =>
    intro e he
    rcases List.mem_cons.1 (hperm.mem_iff.1 he) with rfl | he
    · refine ⟨List.mem_append_right _ List.mem_cons_self,
        fun other d hmem htag => ?_⟩
      rcases List.mem_append.1 hmem with hmem | hmem
      · have hsome := h.covers other d hmem
        rw [htag, hnone] at hsome
        cases hsome
      · cases List.mem_singleton.1 hmem
        exact irrefl _
    · exact (h.first e he).snoc hnew
  case explained => exact fun r hr => (h.explained r hr).snoc hnew
  case complete =>
    have hvalues := (hperm.map Prod.fst).append_right (remarks.map (·.1))
    have hlast := (List.perm_append_singleton path (done.map (·.1))).symm
    rw [List.map_append]
    exact hvalues.trans ((h.complete.cons path).trans hlast)

theorem Gathers.step (h : Gathers before done gathered remarks)
    (entry : Except Diagnostic Component)
    (hnew : ∀ e ∈ done, KeyOrder.before e.1 path = true) :
    ∃ more, Gathers before (done ++ [(path, entry)]) (gather gathered (path,
      entry)) more := by
  have hlast : (path, entry) ∈ done ++ [(path, entry)] :=
    List.mem_append_right _ List.mem_cons_self
  cases entry with
  | error d => exact ⟨_, h.remark hnew (fun c hc => by cases hc) (.broken hlast)⟩
  | ok c =>
      cases hget : gathered.1.get? c.tag with
      | none =>
          rw [gather_new hget]
          exact ⟨remarks, h.keep hnew hget⟩
      | some kept =>
          obtain ⟨tag, hentry, hsame⟩ := get?_eq_some_iff.1 hget
          have hfirst := h.first kept (List.mem_map_of_mem hentry)
          have htag : kept.2.tag = c.tag :=
            (h.keyed _ hentry).trans (same_iff_eq.1 hsame)
          have hexplains : Explains (done ++ [(path, .ok c)]) path
              (.errorAt path (duplicateMessage c.tag kept.1)) :=
            .duplicate hlast (hfirst.snoc hnew) htag (hnew (kept.1,
              .ok kept.2) hfirst.declares)
          have hcovers : ∀ d, (.ok c : Except Diagnostic Component) = .ok d →
              (gathered.1.get? d.tag).isSome = true := by
            rintro d ⟨⟩
            rw [hget]
            rfl
          rw [gather_known hget]
          exact ⟨_, h.remark hnew hcovers hexplains⟩

theorem Gathers.run (h : Gathers before done gathered remarks)
    {rest : List Entry}
    (hsorted : (done ++ rest).Pairwise fun a b => KeyOrder.before a.1 b.1 =
      true) :
    ∃ more, Gathers before (done ++ rest) (rest.foldl gather gathered) more := by
  induction rest generalizing done gathered remarks with
  | nil => exact ⟨remarks, by simpa using h⟩
  | cons e rest ih =>
      have hnew : ∀ x ∈ done, KeyOrder.before x.1 e.1 = true := fun x hx =>
        (List.pairwise_append.1 hsorted).2.2 x hx e List.mem_cons_self
      obtain ⟨more, hmore⟩ := h.step e.2 hnew
      rw [List.append_cons] at hsorted ⊢
      exact ih hmore hsorted

end

/-- The snapshot of any manifests: each has its component kept from its own
path, or a remark. -/
theorem exists_accounts (u : ManifestUnit) (before : List Diagnostic) :
    ∃ (kept : List (Path × Component)) (remarks : List (Path × Diagnostic)),
      (u.snapshot before).1.components = kept.map (·.2) ∧
      (u.snapshot before).1.diagnostics = before ++ remarks.map (·.2) ∧
      (kept.map (·.1) ++ remarks.map (·.1)).Perm u.manifests.keys ∧
      (∀ e ∈ kept, IsFirst u.manifests.entries e.1 e.2) ∧
      (∀ r ∈ remarks, Explains u.manifests.entries r.1 r.2) ∧
      (kept.map (·.2)).Pairwise fun a b => a.tag < b.tag := by
  have hordered : (([] : List Entry) ++ u.manifests.entries).Pairwise fun a b =>
      KeyOrder.before a.1 b.1 = true :=
    u.manifests.sorted
  obtain ⟨remarks, hall⟩ := (gathers_nothing before).run hordered
  rw [List.nil_append] at hall
  refine ⟨_, remarks, rfl, hall.diagnostics, hall.complete, hall.first,
    hall.explained, ?_⟩
  have hsorted := (u.manifests.entries.foldl gather (∅, before)).1.keys_sorted
  rw [← hall.keyed.tags, List.pairwise_map] at hsorted
  exact hsorted.imp fun hbefore => of_decide_eq_true hbefore

/-! ## Units as they are used -/

/-- Paths are normal, and a manifest that cannot be used has an error at its own
path. -/
structure Faithful (u : ManifestUnit) : Prop where
  normal : ∀ p ∈ u.manifests.keys, p.IsNormal
  located : ∀ (p : Path) (d : Diagnostic), (p, .error d) ∈ u.manifests.entries →
    ∃ message, d = .errorAt p message

variable {u : ManifestUnit}

private theorem faithful_of_empty (h : u.manifests = ∅) : u.Faithful := by
  constructor
  · rw [h]
    intro p hp
    cases hp
  · rw [h]
    intro p d hmem
    cases hmem

theorem Faithful.insert (h : u.Faithful) {p : Path} (hp : p.IsNormal)
    {entry : Except Diagnostic Component}
    (hentry : ∀ d, entry = .error d → ∃ message, d = .errorAt p message) :
    Faithful { u with manifests := u.manifests.insert p entry } := by
  constructor
  · intro q hq
    rcases mem_keys_insert hq with rfl | hq
    · exact hp
    · exact h.normal q hq
  · intro q d hmem
    rcases mem_insertEntry hmem with heq | hmem | ⟨e, he, hsame, heq⟩
    · cases heq
      exact hentry d rfl
    · exact h.located q d hmem
    · -- The path was known already; it keeps its text, which is the normal one.
      cases heq
      rw [(h.normal e.1 (List.mem_map_of_mem he)).eq_of_same hp hsame]
      exact hentry d rfl

theorem Faithful.erase (h : u.Faithful) (p : Path) :
    Faithful { u with manifests := u.manifests.erase p } :=
  ⟨fun q hq => h.normal q (mem_keys_erase hq),
    fun q d hmem => h.located q d (List.mem_of_mem_filter hmem)⟩

private theorem exists_message_entryOf {p : Path} {content : String}
    {d : Diagnostic} (h : entryOf p content = .error d) :
    ∃ message, d = .errorAt p message := by
  unfold entryOf at h
  cases hparse : Manifest.parse p content with
  | ok c =>
      rw [hparse] at h
      cases h
  | error fault =>
      rw [hparse] at h
      cases h
      exact ⟨_, rfl⟩

section

variable {τ : Type} [FileAccess τ]

theorem Faithful.load (h : u.Faithful) (source : τ) {p : Path} (hp : p.IsNormal) :
    (u.load source p).1.Faithful := by
  unfold ManifestUnit.load
  split
  · exact h.insert hp fun d hd => exists_message_entryOf hd
  · split
    · exact h.erase p
    · refine h.insert hp fun d hd => ?_
      cases hd
      exact ⟨_, rfl⟩

theorem Faithful.loadAll (h : u.Faithful) (source : τ) {paths : List Path}
    (hpaths : ∀ p ∈ paths, p.IsNormal) : (u.loadAll source paths).1.Faithful :=
  List.foldlRecOn (motive := fun v : ManifestUnit × τ => v.1.Faithful) _ _ h
    fun v hv p hp => hv.load v.2 (hpaths p hp)

private theorem faithful_scan (u : ManifestUnit) (source : τ) :
    (u.scan source).2.1.Faithful := by
  simp only [scan]
  split
  · exact faithful_of_empty rfl
  · rename_i found _
    have hnormal : ∀ p ∈ found.map Path.normalize, p.IsNormal := by
      intro p hp
      obtain ⟨q, -, rfl⟩ := List.mem_map.1 hp
      exact q.isNormal_normalize
    have hall :=
      (faithful_of_empty (u := { u with manifests := ∅ }) rfl).loadAll
        source hnormal
    exact ⟨hall.normal, hall.located⟩

theorem Faithful.refresh (h : u.Faithful) (changed : List Path) (source : τ) :
    (u.refresh changed source).2.1.Faithful := by
  unfold ManifestUnit.refresh
  split
  · exact faithful_scan u source
  · split
    · exact h
    · rename_i heq
      exact h.loadAll source fun p hp => isNormal_of_mem_relevant hp

theorem Faithful.update (h : u.Faithful) (changed : List Path) (source : τ) :
    (u.update changed source).2.1.Faithful := by
  rcases update_refreshed u changed source with
    ⟨-, hsame | ⟨source', hnext⟩⟩ | ⟨source', diagnostics, -, -, hnext⟩
  · rwa [hsame]
  · rw [hnext]
    exact h.refresh changed source'
  · have hrefresh := h.refresh changed source'
    rw [hnext]
    exact ⟨hrefresh.normal, hrefresh.located⟩

/-- A unit that was made, and then updated and closed in any way, from whatever
the source had then. -/
inductive Reached (τ : Type) [FileAccess τ] : ManifestUnit → Prop
  | created {request : ProjectRequest} {source source' : τ} {u : ManifestUnit}
      (h : create request source = (.ok u, source')) : Reached τ u
  | updated {u : ManifestUnit} (h : Reached τ u) (changed : List Path)
      (source : τ) :
      Reached τ (u.update changed source).2.1
  | closed {u : ManifestUnit} (h : Reached τ u) : Reached τ u.close

theorem Reached.faithful (h : Reached τ u) : u.Faithful := by
  induction h with
  | @created request source source' u h =>
      refine faithful_of_empty ?_
      rw [create] at h
      cases hchecked : (checkProject source request.projectFile).1 with
      | error e => simp [hchecked, Except.map] at h
      | ok =>
          simp [hchecked, Except.map] at h
          rw [← h.1]
  | updated _ changed source ih => exact ih.update changed source
  | closed _ ih => exact ⟨ih.normal, ih.located⟩

/-- What a refresh reports by itself is about a source directory that could not
be listed, and then no manifest is known. -/
theorem refresh_diagnostics {changed : List Path} {source : τ}
    {diagnostics : List Diagnostic}
    (h : (u.refresh changed source).1 = some diagnostics) :
    diagnostics = [] ∨ (u.refresh changed source).2.1.manifests = ∅ := by
  unfold ManifestUnit.refresh at h ⊢
  split at h
  · rename_i hscan
    rw [if_pos hscan]
    simp only [scan] at h ⊢
    split at h
    · right
      rfl
    · left
      cases h
      rfl
  · split at h
    · cases h
    · left
      cases h
      rfl

/-! ## Snapshots of updates -/

theorem Explains.located {entries : List Entry} {p : Path} {d : Diagnostic}
    (h : Explains entries p d)
    (hlocated : ∀ (p : Path) (d : Diagnostic), (p, .error d) ∈ entries →
      ∃ message, d = .errorAt p message) :
    ∃ message, d = .errorAt p message := by
  cases h with
  | broken h => exact hlocated p d h
  | duplicate => exact ⟨_, rfl⟩

private theorem files_of_located {remarks : List (Path × Diagnostic)}
    (h : ∀ r ∈ remarks, ∃ message, r.2 = .errorAt r.1 message) :
    (remarks.map (·.2)).filterMap (·.file) = remarks.map (·.1) := by
  rw [List.filterMap_map, ← List.filterMap_eq_map]
  refine List.filterMap_congr fun r hr => ?_
  obtain ⟨message, hmessage⟩ := h r hr
  rw [Function.comp_apply, hmessage]
  rfl

/-- However a unit was used before, in a snapshot that it reports the components
are sorted by tag, and every manifest path has either its own component or
exactly one error: the component of a tag comes from the first path that
declares it, and every other declaration is told of that path. -/
theorem every_manifest_accounted (h : Reached τ u) (changed : List Path)
    (source : τ) {s : Snapshot} (hs : s ∈ (u.update changed source).1.snapshots) :
    let manifests := (u.update changed source).2.1.manifests
    s.components.Pairwise (fun a b => a.tag < b.tag) ∧
      ∃ kept : List (Path × Component), s.components = kept.map (·.2) ∧
        (∀ e ∈ kept, IsFirst manifests.entries e.1 e.2) ∧
        (∀ p ∈ manifests.keys,
          (kept.map (·.1)).count p +
            (s.diagnostics.filterMap (·.file)).count p = 1) ∧
        ∀ d ∈ s.diagnostics, ∀ p ∈ manifests.keys, d.file = some p →
          d.isError = true ∧ Explains manifests.entries p d := by
  rcases update_refreshed u changed source with
    ⟨hnone, -⟩ | ⟨source', diagnostics, hrefresh, hone, hnext⟩
  · rw [hnone] at hs
    cases hs
  · have hfaithful := h.faithful.refresh changed source'
    have hbefore := refresh_diagnostics hrefresh
    rw [hone, List.mem_singleton] at hs
    subst hs
    rw [hnext]
    generalize (u.refresh changed source').2.1 = v at hfaithful hbefore
    intro manifests
    obtain ⟨kept, remarks, hcomponents, hdiagnostics, hperm, hfirst,
        hexplains, hsorted⟩ :=
      exists_accounts v diagnostics
    have hlocated : ∀ r ∈ remarks, ∃ message, r.2 = .errorAt r.1 message :=
      fun r hr => (hexplains r hr).located hfaithful.located
    have hall : ∀ p ∈ manifests.keys,
        (v.snapshot diagnostics).1.diagnostics = remarks.map (·.2) := by
      intro p hp
      rcases hbefore with hnone | hempty
      · rw [hdiagnostics, hnone, List.nil_append]
      · exact absurd hp (by simp [manifests, snapshot, hempty, keys])
    refine ⟨by rwa [hcomponents], kept, hcomponents, hfirst, ?_, ?_⟩
    · intro p hp
      rw [hall p hp, files_of_located hlocated, ← List.count_append,
        hperm.count_eq]
      exact List.count_eq_one_of_mem v.manifests.nodup_keys hp
    · intro d hd p hp hfile
      rw [hall p hp] at hd
      obtain ⟨r, hr, rfl⟩ := List.mem_map.1 hd
      obtain ⟨message, hmessage⟩ := hlocated r hr
      rw [hmessage] at hfile
      cases hfile
      exact ⟨by rw [hmessage]; rfl, hexplains r hr⟩

end

/-! ## A tag in several manifests -/

def sharingRequest : ProjectRequest where
  projectFile := ⟨"/p"⟩
  srcDir := ⟨"/s"⟩

def sharingStorage : MemoryStore :=
  MemoryStore.empty.insert ⟨"/p"⟩ "[]"
    |>.insert ⟨"/s/z.component.json"⟩ "[\"a-a\", \"z\"]"
    |>.insert ⟨"/s/c.component.json"⟩ "[\"x-x\", \"c\"]"
    |>.insert ⟨"/s/b.component.json"⟩ "[\"x-x\", \"b\"]"
    |>.insert ⟨"/s/a.component.json"⟩ "[\"x-x\", \"a\"]"
    |>.failOn ⟨"/s/a.component.json"⟩

theorem every_manifest_accounted_sharing :
    let u : ManifestUnit := { request := sharingRequest }
    let result := u.update [] sharingStorage
    Reached MemoryStore u ∧
      (result.1.snapshots.map fun s =>
          (s.components.map (·.sourceFile), s.diagnostics.map (·.message))) =
        [([⟨"/s/z"⟩, ⟨"/s/b"⟩],
          ["cannot read manifest: Permission denied: /s/a.component.json",
            "duplicate tag \"x-x\", first declared in /s/b.component.json"])] ∧
      ∀ s ∈ result.1.snapshots,
        s.components.Pairwise (fun a b => a.tag < b.tag) ∧
          ∃ kept : List (Path × Component), s.components = kept.map (·.2) ∧
            ∀ p ∈ result.2.1.manifests.keys,
              (kept.map (·.1)).count p +
                (s.diagnostics.filterMap (·.file)).count p = 1 := by
  intro u result
  have hcreate :
      create sharingRequest sharingStorage = (.ok u, sharingStorage) := by rfl
  have hreached : Reached MemoryStore u := .created hcreate
  refine ⟨hreached, by decide +kernel, fun s hs => ?_⟩
  obtain ⟨hsorted, kept, hkept, -, hcount, -⟩ :=
    every_manifest_accounted hreached [] sharingStorage hs
  exact ⟨hsorted, kept, hkept, hcount⟩

end ComponentBuild.ManifestUnit
