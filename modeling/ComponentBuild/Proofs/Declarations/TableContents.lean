import ComponentBuild.Proofs.Declarations.DeclaredNames

/-!
# What is in the table of an artifact

Filling the table, looking up an alias and renaming a type text each go over the
references of a component on their own.  They meet in the same pairs of a source
and a name: each reference of a shown member that is not global has its pair in
the table, and the table has no other pairs.
-/

namespace ComponentBuild

open KeyOrder SortedMap

/-! ## What components refer to -/

namespace Component

/-- A member or event with these references is shown; internal ones only if
`internal` says so. -/
def Shows (c : Component) (internal : Bool) (references : References) : Prop :=
  (∃ m ∈ c.properties ++ c.methods, (m.internal = true → internal = true) ∧
      m.references = references) ∨
    ∃ e ∈ c.events, (e.internal = true → internal = true) ∧
    e.references = references

/-- A shown member or event refers to the name, which is not global and is
declared in the source. -/
def RefersTo (c : Component) (internal : Bool) (source : ImportSource)
    (name : String) : Prop :=
  ∃ references, c.Shows internal references ∧ ∃ reference,
  references.get? name = some reference ∧
    reference ≠ .ambient ∧ ImportSource.ofReference? c reference = some source

private theorem mem_visibleReferences_iff {c : Component} {internal : Bool}
    {references : References} :
    references ∈ c.visibleReferences internal ↔ c.Shows internal references := by
  have hshown (hidden : Bool) : (internal || !hidden) = true ↔
      (hidden = true → internal = true) := by
    cases internal <;> cases hidden <;> simp
  simp only [visibleReferences, visibleProperties, visibleMethods,
    visibleEvents, Shows,
    List.mem_append, List.mem_map, List.mem_filter, hshown, or_and_right,
    exists_or, and_assoc]

end Component

/-! ## Looking up and inserting -/

namespace ImportTable

theorem get?_renames (t : ImportTable) (c : Component) (references : References)
    (n : String) :
    (t.renames c references).get? n =
      (references.get? n).bind fun reference =>
        ((ImportSource.ofReference? c reference).bind (t.aliasOf? · n)).bind
          fun given =>
          if given = n then none else some given := by
  rw [← get?_ofList_filterMap (P := fun _ => True)
    (fun _ _ _ _ h => same_iff_eq.1 h)
    (fun _ _ => trivial) trivial fun n reference =>
      ((ImportSource.ofReference? c reference).bind (t.aliasOf? · n)).bind
        fun given =>
        if given = n then none else some given]
  have hentry (e : String × TypeReference) :
      (do
        let source ← ImportSource.ofReference? c e.2
        let given ← t.aliasOf? source e.1
        if given = e.1 then none else some (e.1, given)) =
        (((ImportSource.ofReference? c e.2).bind (t.aliasOf? · e.1)).bind
          fun given =>
          if given = e.1 then none else some given).map fun given =>
            (e.1, given) := by
    cases ImportSource.ofReference? c e.2 with
    | none => rfl
    | some source =>
        simp only [Option.bind_eq_bind, Option.bind_some, Option.map_bind]
        congr 1
        funext given
        by_cases h : given = e.1
        · simp [h]
        · simp [h]
  rw [renames, List.filterMap_congr fun e _ => hentry e]

private theorem insert_mem_componentCalls_iff {c : Component} {internal : Bool}
    {s : ImportSource} {n : String} :
    .insert s n ∈ componentCalls internal c ↔ c.RefersTo internal s n := by
  simp only [componentCalls, referenceCalls, List.mem_flatMap, List.mem_filterMap,
    Option.map_eq_some_iff, Component.mem_visibleReferences_iff,
    Call.insert.injEq]
  constructor
  · rintro ⟨references, hshown, e, he, s', hs, rfl, rfl⟩
    exact ⟨references, hshown, e.2, get?_eq_some_of_mem he,
      Declarations.exists_source_iff.1 ⟨s', hs⟩, hs⟩
  · rintro ⟨references, hshown, reference, hreference, -, hs⟩
    obtain ⟨n', he, hsame⟩ := get?_eq_some_iff.1 hreference
    exact ⟨references, hshown, (n', reference), he, s, hs, rfl,
      same_iff_eq.1 hsame⟩

end ImportTable

namespace Declarations

open ImportTable

private theorem mem_listedPairs_importTable_iff {components : List Component}
    {options : ArtifactOptions} {s : ImportSource} {n : String} :
    (s, n) ∈ (importTable components options).listedPairs ↔
      ∃ c ∈ components, c.RefersTo options.internal s n := by
  have hcalls (s : ImportSource) (n : String) :
      .insert s n ∈ components.flatMap (componentCalls options.internal) ↔
        ∃ c ∈ components, c.RefersTo options.internal s n := by
    simp only [List.mem_flatMap, insert_mem_componentCalls_iff]
  have hvalid :
      ∀ s n, .insert s n ∈ components.flatMap (componentCalls options.internal) →
      s.Valid := by
    intro s n h
    obtain ⟨c, -, _, -, reference, -, -, hs⟩ := (hcalls s n).1 h
    exact ImportSource.valid_of_reference hs
  rw [importTable_eq_run, mem_listedPairs_run hvalid, hcalls]

/-- The table has the pairs that shown members refer to and no others.  So each
such name has an alias, and it is renamed to the alias in the member's text
unless it is its own; a name that is global or not referred to is not renamed.
-/
theorem importTable_exact (components : List Component)
    (options : ArtifactOptions) :
    let t := importTable components options
    (∀ s n, (s, n) ∈ t.listedPairs ↔ ∃ c ∈ components,
      c.RefersTo options.internal s n) ∧
      ∀ c ∈ components, ∀ references, c.Shows options.internal references → ∀ n,
        (∀ reference, references.get? n = some reference → reference ≠ .ambient →
          ∃ s given, ImportSource.ofReference? c reference = some s ∧
          t.aliasOf? s n = some given ∧
            (t.renames c references).get? n = if given = n then none
            else some given) ∧
          (references.get? n = none ∨ references.get? n = some .ambient →
            (t.renames c references).get? n = none) := by
  intro t
  have hlisted (s : ImportSource) (n : String) :
      (s, n) ∈ t.listedPairs ↔ ∃ c ∈ components,
      c.RefersTo options.internal s n :=
    mem_listedPairs_importTable_iff
  refine ⟨hlisted, fun c hc references hshown n =>
    ⟨fun reference hreference hne => ?_, fun h => ?_⟩⟩
  · obtain ⟨s, hs⟩ := exists_source_iff.2 hne
    have hpair : (s, n) ∈ t.listedPairs :=
      (hlisted s n).2 ⟨c, hc, references, hshown, reference, hreference, hne, hs⟩
    obtain ⟨given, hgiven⟩ :=
      Option.isSome_iff_exists.1
        (mem_listedPairs_iff.1 (List.mem_map_of_mem hpair))
    refine ⟨s, given, hs, hgiven, ?_⟩
    rw [get?_renames, hreference, Option.bind_some, hs, Option.bind_some,
      hgiven, Option.bind_some]
  · rw [get?_renames]
    rcases h with h | h
    · rw [h]
      rfl
    · rw [h]
      rfl

/-- The second component imports the type of the first from a source of its own,
under a new alias. -/
theorem importTable_exact_cards :
    let t := importTable [declaringCard, importingCard] cardOptions
    importingCard.Shows cardOptions.internal
      (.ofList [("Item", .imported "./a")]) ∧
      declaringCard.Shows cardOptions.internal (.ofList [("Item", .here)]) ∧
      (.file ⟨"/proj/src/a"⟩, "Item") ∈ t.listedPairs ∧
      (t.renames importingCard (.ofList [("Item", .imported "./a")])).get?
        "Item" = some "Item1" ∧
      (t.renames declaringCard (.ofList [("Item", .here)])).get? "Item" =
        none := by
  intro t
  have himporting :
      importingCard.Shows cardOptions.internal
        (.ofList [("Item", .imported "./a")]) :=
    .inl ⟨_, List.mem_singleton_self _, fun _ => rfl, rfl⟩
  have hdeclaring :
      declaringCard.Shows cardOptions.internal (.ofList [("Item", .here)]) :=
    .inl ⟨_, List.mem_singleton_self _, fun _ => rfl, rfl⟩
  have hsource : ImportSource.ofReference? importingCard (.imported "./a") =
      some (.file ⟨"/proj/src/a"⟩) := by decide +kernel
  have hown :
      ImportSource.ofReference? declaringCard .here =
        some (.file ⟨"/proj/src/a.tsx"⟩) := by
    decide +kernel
  have halias : t.aliasOf? (.file ⟨"/proj/src/a"⟩) "Item" = some "Item1" := by
    decide +kernel
  have hkept : t.aliasOf? (.file ⟨"/proj/src/a.tsx"⟩) "Item" = some "Item" := by
    decide +kernel
  obtain ⟨hlisted, hrenamed⟩ :=
    importTable_exact [declaringCard, importingCard] cardOptions
  obtain ⟨s, given, hs, hgiven, himported⟩ :=
    (hrenamed importingCard (by decide) _ himporting "Item").1 (.imported "./a")
      rfl (by decide)
  obtain ⟨s', given', hs', hgiven', hdeclared⟩ :=
    (hrenamed declaringCard (by decide) _ hdeclaring "Item").1 .here
      rfl (by decide)
  cases hs.symm.trans hsource
  cases hgiven.symm.trans halias
  cases hs'.symm.trans hown
  cases hgiven'.symm.trans hkept
  refine ⟨himporting, hdeclaring, (hlisted _ _).2 ?_, himported, hdeclared⟩
  exact ⟨importingCard, by decide, _, himporting, .imported "./a", rfl,
    by decide, hsource⟩

end Declarations

end ComponentBuild
