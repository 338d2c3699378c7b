import ComponentBuild.Imports.Table
import ComponentBuild.Proofs.Path.Parts
import ComponentBuild.Proofs.SortedMap.Lookup

/-!
# Filling an import table

A table grows by one pair at a time, so what it lists after the references of
all components have been inserted is what they refer to, and nothing else.  The
sources that references have are of two kinds that never meet: normal paths, and
specifiers that are not relative.
-/

namespace ComponentBuild

open KeyOrder

namespace ImportSource

/-! ## The sources of references -/

theorem same_key_iff {a b : ImportSource} : same a b = true ↔ a.key = b.key :=
  same_byKey_iff key

theorem same_file_iff {p q : Path} :
    same (file p) (file q) = true ↔ p.parts = q.parts := by
  rw [same_key_iff]
  simp [key]

theorem same_package_iff {s t : String} :
    same (package s) (package t) = true ↔ s = t := by
  rw [same_key_iff]
  simp [key]

theorem not_same_file_package (p : Path) (s : String) :
    same (file p) (package s) = false := by
  rw [← Bool.not_eq_true, same_key_iff]
  simp [key]

def Valid : ImportSource → Prop
  | file path => path.IsNormal
  | package specifier => isRelative specifier = false

theorem valid_of_reference {c : Component} {reference : TypeReference}
    {source : ImportSource} (h : ofReference? c reference = some source) :
    source.Valid := by
  cases reference with
  | here =>
      obtain rfl := Option.some.inj h
      exact Path.isNormal_normalize c.sourceFile
  | imported path =>
      rw [ofReference?] at h
      split at h
      · obtain rfl := Option.some.inj h
        exact Path.isNormal_resolve c.sourceDir ⟨path⟩
      · rename_i hpath
        obtain rfl := Option.some.inj h
        exact (Bool.not_eq_true _).mp hpath
  | ambient => simp [ofReference?] at h

theorem Valid.eq_of_same {a b : ImportSource} (ha : a.Valid) (hb : b.Valid)
    (h : same a b = true) : a = b := by
  cases a with
  | file p =>
      cases b with
      | file q => rw [Path.IsNormal.eq_of_parts ha hb (same_file_iff.1 h)]
      | package t => simp [not_same_file_package] at h
  | package s =>
      cases b with
      | file q => simp [same_comm, not_same_file_package] at h
      | package t => rw [same_package_iff.1 h]

end ImportSource

def Component.Mentions (c : Component) (internal : Bool) (source : ImportSource) :
    Prop :=
  ∃ references ∈ c.visibleReferences internal, ∃ e ∈ references.entries,
    ImportSource.ofReference? c e.2 = some source

theorem Component.Mentions.valid {c : Component} {internal : Bool}
    {source : ImportSource} (h : c.Mentions internal source) :
    source.Valid := by
  obtain ⟨_, _, _, _, hsource⟩ := h
  exact ImportSource.valid_of_reference hsource

namespace ImportTable

/-! ## Inserting one pair -/

theorem imports_takeAlias (t : ImportTable) (name : String) :
    (t.takeAlias name).2.imports = t.imports := by
  unfold takeAlias
  split <;> rfl

private theorem contains_of_aliasOf? {t : ImportTable} {source : ImportSource}
    {name given : String} (h : t.aliasOf? source name = some given) :
    t.imports.contains source = true := by
  rw [aliasOf?, Option.bind_eq_some_iff] at h
  obtain ⟨names, hnames, _⟩ := h
  rw [SortedMap.contains_eq_isSome, hnames]
  rfl

private theorem contains_insert (t : ImportTable) (source s : ImportSource)
    (name : String) :
    (t.insert source name).2.imports.contains s =
      (same source s || t.imports.contains s) := by
  unfold insert
  cases hgiven : t.aliasOf? source name with
  | some given =>
      cases hs : same source s with
      | false => rfl
      | true =>
          rw [← SortedMap.contains_congr t.imports hs,
            contains_of_aliasOf? hgiven]; rfl
  | none =>
      change ((t.takeAlias name).2.imports.insert source _).contains s = _
      rw [SortedMap.contains_insert, imports_takeAlias]

theorem imports_withReserved (names : List String) :
    (withReserved names).imports = ∅ := by
  suffices h : ∀ t : ImportTable,
      (names.foldl reserve t).imports = t.imports from h empty
  induction names with
  | nil => exact fun t => rfl
  | cons name names ih => exact fun t => ih (t.reserve name)

theorem suffixes_withReserved (names : List String) :
    (withReserved names).suffixes = ∅ :=
  List.foldlRecOn (motive := fun t : ImportTable => t.suffixes = ∅) _ _ rfl
    fun _ h _ _ => h

/-! ## Inserting references -/

/-- If each item of a list brings what it brings and keeps the rest, so does the
whole list. -/
theorem foldl_iff {α : Type} {step : ImportTable → α → ImportTable}
    {brings : α → Prop} (has : ImportTable → Prop)
    (h : ∀ t a, has (step t a) ↔ brings a ∨ has t) (items : List α)
    (t : ImportTable) :
    has (items.foldl step t) ↔ (∃ a ∈ items, brings a) ∨ has t := by
  induction items generalizing t with
  | nil => simp
  | cons a items ih =>
      rw [List.foldl_cons, ih, h]
      simp only [List.mem_cons, exists_eq_or_imp, or_assoc, or_left_comm]

private theorem contains_insertReferences (t : ImportTable) (c : Component)
    (references : References) (s : ImportSource) :
    (t.insertReferences c references).imports.contains s = true ↔
      (∃ e ∈ references.entries, ∃ source,
        ImportSource.ofReference? c e.2 = some source ∧ same source s = true) ∨
        t.imports.contains s = true := by
  refine foldl_iff (·.imports.contains s = true) (fun t e => ?_) _ t
  cases hsource : ImportSource.ofReference? c e.2 with
  | none => simp [hsource]
  | some source => simp [hsource, contains_insert]

theorem contains_addComponent (t : ImportTable) (c : Component) (internal : Bool)
    (s : ImportSource) :
    (t.addComponent c internal).imports.contains s = true ↔
      (∃ source, c.Mentions internal source ∧ same source s = true) ∨
        t.imports.contains s = true := by
  have hfold := foldl_iff (·.imports.contains s = true)
    (fun t references => contains_insertReferences t c references s)
      (c.visibleReferences internal) t
  rw [addComponent, hfold]
  refine or_congr_left ⟨?_, ?_⟩
  · rintro ⟨references, hreferences, e, he, source, hsource, hsame⟩
    exact ⟨source, ⟨references, hreferences, e, he, hsource⟩, hsame⟩
  · rintro ⟨source, ⟨references, hreferences, e, he, hsource⟩, hsame⟩
    exact ⟨references, hreferences, e, he, source, hsource, hsame⟩

end ImportTable

end ComponentBuild
