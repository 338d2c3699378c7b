import ComponentBuild.Proofs.Frontend.Emitted

/-!
# One snapshot after another

A unit keeps the paths that its last snapshot emitted.  The next snapshot
removes those that it does not emit again, so what is emitted and what is
removed are together all that was emitted before or is now.
-/

namespace ComponentBuild

open KeyOrder SortedMap

/-! ## Normal paths in sets -/

namespace Path

private theorem contains_ofKeys {paths : List Path}
    (hpaths : ∀ q ∈ paths, q.IsNormal) {p : Path} (hp : p.IsNormal) :
    SortedMap.contains (SortedSet.ofKeys paths) p = true ↔ p ∈ paths := by
  rw [← SortedSet.exists_mem_toList_iff, SortedSet.exists_mem_ofKeys]
  constructor
  · rintro ⟨q, hq, hsame⟩
    rwa [← (hpaths q hq).eq_of_same hp hsame]
  · exact fun h => ⟨p, h, same_refl p⟩

private theorem mem_keys_ofKeys {paths : List Path}
    (hpaths : ∀ q ∈ paths, q.IsNormal) {p : Path} :
    p ∈ (SortedSet.ofKeys paths).keys ↔ p ∈ paths := by
  constructor
  · exact SortedSet.mem_of_mem_ofKeys
  · intro hp
    have hcontains := (contains_ofKeys hpaths (hpaths p hp)).2 hp
    obtain ⟨q, hq, hsame⟩ := exists_mem_keys_of_contains hcontains
    have hnormal : q.IsNormal := hpaths q (SortedSet.mem_of_mem_ofKeys hq)
    rwa [← hnormal.eq_of_same (hpaths p hp) hsame]

/-! ## Paths of emitted files -/

/-- The path of an emitted file is normal, and names a file with JSON in it. -/
structure IsOutput (p : Path) : Prop where
  normal : p.IsNormal
  ending : p.endsWith ".json" = true

private theorem isEnding_json : IsEnding ".json" :=
  ⟨by decide, by decide⟩

private theorem endsWith_join (base : Path) {p : Path} {ending : String}
    (h : p.endsWith ending = true) :
    (base.join p).endsWith ending = true := by
  rw [endsWith_iff] at h ⊢
  obtain ⟨front, hfront⟩ := h
  unfold join
  split
  · exact ⟨front, hfront⟩
  · split
    · exact ⟨base.text.toList ++ front, by simp [← hfront]⟩
    · exact ⟨base.text.toList ++ '/' :: front, by simp [← hfront]⟩

end Path

/-! ## Snapshots in succession -/

namespace Snapshot

def outputs (s : Snapshot) : List Path :=
  s.emitted.map (·.path)

structure Succeeds (before : List Path) (s : Snapshot) : Prop where
  outputs : ∀ p ∈ s.outputs, p.IsOutput
  removed : ∀ p, p ∈ s.removed ↔ p ∈ before ∧ p ∉ s.outputs

end Snapshot

namespace ManifestUnit

variable {u : ManifestUnit}

private theorem isOutput_emittedFile (dir : Path) (c : Component) :
    (emittedFile dir c).path.IsOutput := by
  have hname : (emittedName c).endsWith ".json" = true := by
    rw [Path.endsWith_iff, emittedName]
    exact ⟨c.tag.toList, by simp⟩
  rw [path_emittedFile, ← Path.normalize_join]
  exact ⟨Path.isNormal_normalize _,
    Path.endsWith_normalize Path.isEnding_json (Path.endsWith_join dir hname)⟩

private theorem isOutput_snapshot (u : ManifestUnit)
    (diagnostics : List Diagnostic) :
    ∀ p ∈ (u.snapshot diagnostics).1.outputs, p.IsOutput := by
  intro p hp
  obtain ⟨file, hfile, rfl⟩ := List.mem_map.1 hp
  cases hout : u.request.outDir with
  | none => simp [snapshot, hout] at hfile
  | some dir =>
      rw [emitted_snapshot hout] at hfile
      obtain ⟨c, -, rfl⟩ := List.mem_map.1 hfile
      exact isOutput_emittedFile dir c

private theorem succeeds_snapshot {before : List Path}
    (hbefore : ∀ p ∈ before, p.IsOutput)
    (hemitted : u.emitted = SortedSet.ofKeys before)
    (diagnostics : List Diagnostic) :
    (u.snapshot diagnostics).1.Succeeds before := by
  have houtputs := isOutput_snapshot u diagnostics
  refine ⟨houtputs, fun p => ?_⟩
  have hremoved :
      (u.snapshot diagnostics).1.removed = u.emitted.keys.filter fun p =>
      !SortedMap.contains (SortedSet.ofKeys (u.snapshot diagnostics).1.outputs)
        p := rfl
  rw [hremoved, List.mem_filter, hemitted,
    Path.mem_keys_ofKeys fun q hq => (hbefore q hq).normal]
  refine and_congr_right fun hp => ?_
  rw [Bool.not_eq_true', Bool.eq_false_iff, ne_eq,
    Path.contains_ofKeys (fun q hq => (houtputs q hq).normal)
      (hbefore p hp).normal]

/-! ## Updates -/

section

variable {τ : Type} [FileAccess τ]

private theorem emitted_load (u : ManifestUnit) (source : τ) (p : Path) :
    (u.load source p).1.emitted = u.emitted := by
  unfold load
  split
  · rfl
  · split <;> rfl

private theorem emitted_loadAll (u : ManifestUnit) (source : τ)
    (paths : List Path) :
    (u.loadAll source paths).1.emitted = u.emitted :=
  List.foldlRecOn (motive := fun v : ManifestUnit × τ => v.1.emitted =
    u.emitted) _ _ rfl
    fun v h p _ => (emitted_load v.1 v.2 p).trans h

private theorem emitted_scan (u : ManifestUnit) (source : τ) :
    (u.scan source).2.1.emitted = u.emitted := by
  simp only [scan]
  split
  · rfl
  · exact emitted_loadAll _ source _

private theorem emitted_refresh (u : ManifestUnit) (changed : List Path)
    (source : τ) :
    (u.refresh changed source).2.1.emitted = u.emitted := by
  unfold refresh
  split
  · exact emitted_scan u source
  · split
    · rfl
    · exact emitted_loadAll u source _

theorem update_refreshed (u : ManifestUnit) (changed : List Path) (source : τ) :
    ((u.update changed source).1.snapshots = [] ∧
        ((u.update changed source).2.1 = u ∨
          ∃ source' : τ, (u.update changed source).2.1 =
            (u.refresh changed source').2.1)) ∨
      ∃ (source' : τ) (diagnostics : List Diagnostic),
        (u.refresh changed source').1 = some diagnostics ∧
        (u.update changed source).1.snapshots =
          [((u.refresh changed source').2.1.snapshot diagnostics).1] ∧
        (u.update changed source).2.1 =
          ((u.refresh changed source').2.1.snapshot diagnostics).2 := by
  unfold update
  split
  · exact .inl ⟨rfl, .inl rfl⟩
  · split
    · exact .inl ⟨rfl, .inl rfl⟩
    · rename_i source' _
      cases hreported : (u.refresh changed source').1 with
      | none =>
          refine .inl ?_
          generalize hrefresh : u.refresh changed source' = refreshed at hreported
          obtain ⟨reported, v, rest⟩ := refreshed
          obtain rfl : reported = none := hreported
          exact ⟨rfl, .inr ⟨source', by rw [hrefresh]⟩⟩
      | some diagnostics =>
          refine .inr ⟨source', diagnostics, hreported, ?_⟩
          generalize u.refresh changed source' = refreshed at hreported
          obtain ⟨reported, v, rest⟩ := refreshed
          obtain rfl : reported = some diagnostics := hreported
          exact ⟨rfl, rfl⟩

theorem update_cases (u : ManifestUnit) (changed : List Path) (source : τ) :
    ((u.update changed source).1.snapshots = [] ∧
      (u.update changed source).2.1.emitted = u.emitted) ∨
      ∃ (v : ManifestUnit) (diagnostics : List Diagnostic),
      v.emitted = u.emitted ∧
        (u.update changed source).1.snapshots = [(v.snapshot diagnostics).1] ∧
        (u.update changed source).2.1 = (v.snapshot diagnostics).2 := by
  rcases update_refreshed u changed source with
    ⟨hnone, hsame | ⟨source', hnext⟩⟩ | ⟨source', diagnostics, -, hone, hnext⟩
  · exact .inl ⟨hnone, by rw [hsame]⟩
  · exact .inl ⟨hnone, by rw [hnext, emitted_refresh]⟩
  · exact .inr ⟨_, diagnostics, emitted_refresh u changed source', hone, hnext⟩

theorem succeeds_update {before : List Path}
    (hbefore : ∀ p ∈ before, p.IsOutput)
    (hemitted : u.emitted = SortedSet.ofKeys before) (changed : List Path)
    (source : τ) :
    ((u.update changed source).1.snapshots = [] ∧
        (u.update changed source).2.1.emitted = SortedSet.ofKeys before) ∨
      ∃ s : Snapshot, (u.update changed source).1.snapshots = [s] ∧
      s.Succeeds before ∧
        (u.update changed source).2.1.emitted = SortedSet.ofKeys s.outputs := by
  rcases update_cases u changed source with ⟨hnone, hsame⟩ |
    ⟨v, diagnostics, hsame, hone, hnext⟩
  · exact .inl ⟨hnone, hsame.trans hemitted⟩
  · refine .inr ⟨_, hone, succeeds_snapshot hbefore (hsame.trans hemitted)
      diagnostics, ?_⟩
    rw [hnext]
    rfl

end

end ManifestUnit

end ComponentBuild
