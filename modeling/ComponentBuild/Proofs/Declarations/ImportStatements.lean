import ComponentBuild.Declarations.Artifact
import ComponentBuild.Proofs.Imports.Filling
import ComponentBuild.Proofs.Path.Specifier

/-!
# The import statements of an artifact

The table keeps sources apart by their paths, while a statement names a source
by its specifier.  The two agree as long as no two files that are referred to
differ in their source extension only.
-/

namespace ComponentBuild

open KeyOrder

namespace Declarations

/-! ## What the table of an artifact lists -/

/-- A component of the artifact shows a reference to something declared in the
source. -/
def Mentions (components : List Component) (options : ArtifactOptions)
    (source : ImportSource) :
    Prop :=
  ∃ c ∈ ownComponents components, c.Mentions options.internal source

def artifactTable (components : List Component) (options : ArtifactOptions) :
    ImportTable :=
  importTable (ownComponents components) options

theorem Mentions.valid {components : List Component} {options : ArtifactOptions}
    {source : ImportSource} (h : Mentions components options source) :
    source.Valid := by
  obtain ⟨_, _, hmentions⟩ := h
  exact hmentions.valid

private theorem contains_artifactTable (components : List Component)
    (options : ArtifactOptions) (s : ImportSource) :
    (artifactTable components options).imports.contains s = true ↔
      ∃ source, Mentions components options source ∧ same source s = true := by
  have hfold := ImportTable.foldl_iff (·.imports.contains s = true)
    (fun t c => ImportTable.contains_addComponent t c options.internal s)
      (ownComponents components)
    (ImportTable.withReserved (reservedNames (ownComponents components) options))
  have hstart :
      (∅ : SortedMap ImportSource (SortedMap String String)).contains s =
        false := rfl
  rw [ImportTable.imports_withReserved, hstart] at hfold
  rw [artifactTable, importTable, hfold]
  constructor
  · rintro (⟨c, hc, source, hmentions, hsame⟩ | h)
    · exact ⟨source, ⟨c, hc, hmentions⟩, hsame⟩
    · cases h
  · rintro ⟨source, ⟨c, hc, hmentions⟩, hsame⟩
    exact .inl ⟨c, hc, source, hmentions, hsame⟩

/-! ## Sources and their specifiers -/

private theorem sourceSpecifier_congr (dir : Path) {a b : ImportSource}
    (h : same a b = true) :
    sourceSpecifier dir a = sourceSpecifier dir b := by
  cases a with
  | file p =>
      cases b with
      | file q =>
          exact Path.importSpecifier_congr dir (ImportSource.same_file_iff.1 h)
      | package t => simp [ImportSource.not_same_file_package] at h
  | package s =>
      cases b with
      | file q => simp [same_comm, ImportSource.not_same_file_package] at h
      | package t => exact ImportSource.same_package_iff.1 h

private theorem isRelative_importSpecifier (dir file : Path) :
    ImportSource.isRelative (Path.importSpecifier dir file) = true := by
  rw [Path.importSpecifier_eq]
  simp only [ImportSource.isRelative, Bool.or_eq_true, List.isPrefixOf_iff_prefix,
    String.toList_ofList]
  exact .inl (.inl (Path.dotted_cases _))

theorem sourceSpecifier_eq_iff {dir : Path} {a b : ImportSource} (ha : a.Valid)
    (hb : b.Valid) :
    sourceSpecifier dir a = sourceSpecifier dir b ↔
      a = b ∨ ∃ p q, a = .file p ∧ b = .file q ∧
      Path.moduleWay dir p = Path.moduleWay dir q := by
  have hmixed : ∀ p s, (ImportSource.package s).Valid →
      Path.importSpecifier dir p ≠ s := by
    rintro p s hs rfl
    have hrelative := isRelative_importSpecifier dir p
    rw [show ImportSource.isRelative _ = false from hs] at hrelative
    cases hrelative
  cases a with
  | file p =>
      cases b with
      | file q =>
          simp only [sourceSpecifier, Path.importSpecifier_eq_iff,
            ImportSource.file.injEq, exists_eq_left', exists_and_left]
          constructor
          · exact .inr
          · rintro (rfl | h)
            · rfl
            · exact h
      | package t => simpa [sourceSpecifier] using hmixed p t hb
  | package s =>
      cases b with
      | file q => simpa [sourceSpecifier] using (hmixed q s ha).symm
      | package t => simp [sourceSpecifier]

/-! ## One statement for each module -/

def importSpecifiers (components : List Component) (options : ArtifactOptions) :
    List String :=
  (artifactTable components options).sortedImports.map fun e =>
  sourceSpecifier options.dir e.1

private theorem importSpecifiers_eq (components : List Component)
    (options : ArtifactOptions) :
    importSpecifiers components options =
      (artifactTable components options).imports.keys.map
        (sourceSpecifier options.dir) := by
  simp only [importSpecifiers, ImportTable.sortedImports,
    SortedMap.keys, List.map_map]
  rfl

/-- The specifiers differ from each other exactly as long as no two of the files
that are referred to have one way up to the source extension. -/
theorem importSpecifiers_nodup_iff (components : List Component)
    (options : ArtifactOptions) :
    (importSpecifiers components options).Nodup ↔
      ∀ p q, Mentions components options (.file p) →
      Mentions components options (.file q) →
        Path.moduleWay options.dir p = Path.moduleWay options.dir q → p = q := by
  have hlisted := contains_artifactTable components options
  rw [importSpecifiers_eq,
    SortedMap.nodup_map_keys_iff fun a b => sourceSpecifier_congr options.dir]
  constructor
  · intro h p q hp hq hway
    have hsame : same (ImportSource.file p) (.file q) = true :=
      h (.file p) (.file q) ((hlisted _).2 ⟨_, hp, same_refl _⟩)
        ((hlisted _).2 ⟨_, hq, same_refl _⟩)
        (Path.importSpecifier_eq_iff.2 hway)
    exact ImportSource.file.inj (hp.valid.eq_of_same hq.valid hsame)
  · intro h a b ha hb heq
    obtain ⟨s, hs, hsa⟩ := (hlisted a).1 ha
    obtain ⟨t, ht, htb⟩ := (hlisted b).1 hb
    rw [← sourceSpecifier_congr options.dir hsa,
      ← sourceSpecifier_congr options.dir htb,
      sourceSpecifier_eq_iff hs.valid ht.valid] at heq
    have hst : s = t := by
      rcases heq with heq | ⟨p, q, rfl, rfl, hway⟩
      · exact heq
      · rw [h p q hs ht hway]
    rw [← hst] at htb
    exact same_trans (same_symm hsa) htb

/-! ## A module that is imported twice -/

def declaringCard : Component where
  tag := "x-a"
  sourceFile := ⟨"/proj/src/a.tsx"⟩
  properties := [
    { name := "item", typeText := "Item", references := .ofList [("Item", .here)] }]

def importingCard : Component where
  tag := "x-b"
  sourceFile := ⟨"/proj/src/b.tsx"⟩
  properties := [
    { name := "item", typeText := "Item",
      references := .ofList [("Item", .imported "./a")] }]

def cardOptions : ArtifactOptions where
  dir := ⟨"/proj/src"⟩
  runtimeModule := "@hobbes/core"
  elementBase := "HTMLHobbesElement"
  internal := true

/-- The one module gets two statements, and its one type two aliases. -/
theorem module_imported_twice :
    (∀ c ∈ [declaringCard, importingCard], c.sourceFile.isAbsolute = true) ∧
      cardOptions.dir.isAbsolute = true ∧
      ¬ (importSpecifiers [declaringCard, importingCard] cardOptions).Nodup ∧
      importLines (artifactTable [declaringCard, importingCard] cardOptions)
        cardOptions =
        [runtimeImportLine cardOptions,
          "import \x7b Item as Item1 \x7d from \"./a\";",
          "import \x7b Item \x7d from \"./a\";"] := by
  refine ⟨?_, ?_, ?_, ?_⟩ <;> decide +kernel

end Declarations

end ComponentBuild
