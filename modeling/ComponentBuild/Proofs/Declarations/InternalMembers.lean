import ComponentBuild.Proofs.Declarations.ImportStatements
import ComponentBuild.Proofs.Declarations.Statements
import ComponentBuild.Proofs.Imports.Reserving

/-!
# Internal members in public declarations

Public declarations show no internal member, but the global names that internal
members refer to are reserved all the same.  So internal members can be seen in
one way: an alias that is given in public has to make room for such a name.  The
text tells them apart exactly if that happens.
-/

namespace ComponentBuild

/-! ## Components without their internal members -/

namespace Component

def withoutInternal (c : Component) : Component :=
  { c with
    properties := c.properties.filter (!·.internal)
    methods := c.methods.filter (!·.internal)
    events := c.events.filter (!·.internal) }

private theorem visibleProperties_withoutInternal (c : Component) :
    c.withoutInternal.visibleProperties false = c.visibleProperties false := by
  simp [visibleProperties, withoutInternal]

private theorem visibleMethods_withoutInternal (c : Component) :
    c.withoutInternal.visibleMethods false = c.visibleMethods false := by
  simp [visibleMethods, withoutInternal]

private theorem visibleEvents_withoutInternal (c : Component) :
    c.withoutInternal.visibleEvents false = c.visibleEvents false := by
  simp [visibleEvents, withoutInternal]

private theorem visibleReferences_withoutInternal (c : Component) :
    c.withoutInternal.visibleReferences false = c.visibleReferences false := by
  simp only [visibleReferences, visibleProperties_withoutInternal,
    visibleMethods_withoutInternal, visibleEvents_withoutInternal]

private theorem filter_shown {α : Type} {hidden : α → Bool} {members : List α}
    (h : members.filter (fun m => !hidden m) = members) (internal : Bool) :
    members.filter (fun m => internal || !hidden m) = members := by
  cases internal with
  | true => exact List.filter_true members
  | false => exact h

theorem visible_of_withoutInternal {c : Component} (h : c.withoutInternal = c)
    (internal : Bool) :
    c.visibleProperties internal = c.properties ∧
      c.visibleMethods internal = c.methods ∧
      c.visibleEvents internal = c.events :=
  ⟨filter_shown (congrArg properties h) internal,
    filter_shown (congrArg methods h) internal,
    filter_shown (congrArg events h) internal⟩

private theorem visibleReferences_of_withoutInternal {c : Component}
    (h : c.withoutInternal = c) (internal : Bool) :
    c.visibleReferences internal = c.visibleReferences true := by
  obtain ⟨hproperties, hmethods, hevents⟩ := visible_of_withoutInternal h internal
  obtain ⟨hproperties', hmethods', hevents'⟩ := visible_of_withoutInternal h true
  rw [visibleReferences, visibleReferences, hproperties, hmethods, hevents,
    hproperties', hmethods', hevents']

end Component

open Component

/-! ## A table filled by calls -/

namespace ImportTable

def referenceCalls (c : Component) (references : References) : List Call :=
  references.entries.filterMap fun e =>
    (ImportSource.ofReference? c e.2).map fun source => .insert source e.1

private theorem insertReferences_eq_run (t : ImportTable) (c : Component)
    (references : References) :
    t.insertReferences c references = t.run (referenceCalls c references) := by
  rw [insertReferences, run, referenceCalls, List.foldl_filterMap]
  congr 1
  funext t e
  cases hsource : ImportSource.ofReference? c e.2 <;> simp [hsource, perform]

def componentCalls (internal : Bool) (c : Component) : List Call :=
  (c.visibleReferences internal).flatMap (referenceCalls c)

private theorem addComponent_eq_run (t : ImportTable) (c : Component)
    (internal : Bool) :
    t.addComponent c internal = t.run (componentCalls internal c) := by
  rw [addComponent, run, componentCalls, List.foldl_flatMap]
  congr 1
  funext t references
  exact insertReferences_eq_run t c references

private theorem componentCalls_withoutInternal (c : Component) :
    componentCalls false c.withoutInternal = componentCalls false c := by
  rw [componentCalls, visibleReferences_withoutInternal]
  rfl

end ImportTable

namespace Declarations

open ImportTable

theorem importTable_eq_run (components : List Component)
    (options : ArtifactOptions) :
    importTable components options =
      (withReserved (reservedNames components options)).run
        (components.flatMap (componentCalls options.internal)) := by
  rw [importTable, run, List.foldl_flatMap]
  congr 1
  funext t c
  exact addComponent_eq_run t c options.internal

/-! ## The text of an artifact -/

theorem toList_render (components : List Component) (options : ArtifactOptions) :
    (render components options).toList =
      linesText (headerLines ++ [runtimeImportLine options]) ++
        (linesText (statementLines options.dir
          (artifactTable components options).sortedImports) ++
          linesText (body (artifactTable components options)
            (ownComponents components) options)) := by
  have hne : sections components options ≠ [] := by simp [sections, headerLines]
  rw [render, toList_joinLines hne]
  simp only [sections, importLines, statementLines, artifactTable, linesText,
    List.flatMap_append,
    List.flatMap_cons, List.flatMap_nil, List.append_assoc, List.nil_append]

theorem body_congr {t u : ImportTable} (h : t.imports = u.imports)
    (own : List Component) (options : ArtifactOptions) :
    body t own options = body u own options := by
  have halias (t : ImportTable) :
      body t own options = body { imports := t.imports } own options := rfl
  rw [halias t, h, ← halias u]

private theorem body_withoutInternal (t : ImportTable) (own : List Component)
    {options : ArtifactOptions} (h : options.internal = false) :
    body t (own.map withoutInternal) options = body t own options := by
  have hevents (c : Component) : (c.withoutInternal.visibleEvents false).isEmpty =
      (c.visibleEvents false).isEmpty := by rw [visibleEvents_withoutInternal]
  have hcomponent (c : Component) :
      componentBlock t c.withoutInternal false = componentBlock t c false := by
    rw [componentBlock, visibleProperties_withoutInternal,
      visibleMethods_withoutInternal]
    rfl
  have hattribute (c : Component) :
      attributeBlock t c.withoutInternal false = attributeBlock t c false := by
    rw [attributeBlock, visibleProperties_withoutInternal,
      visibleEvents_withoutInternal]
    rfl
  have helement (c : Component) :
      elementBlock t c.withoutInternal false options.elementBase =
      elementBlock t c false options.elementBase := by
    rw [elementBlock, visibleEvents_withoutInternal]
    rfl
  simp only [body, h, List.map_map, List.filter_map, Function.comp_def,
    hevents, hcomponent, hattribute, helement]
  rfl

/-! ## Lists without internal members -/

section

variable {own : List Component} (h : ∀ c ∈ own,
    c.withoutInternal = c) (options : ArtifactOptions)
  (internal : Bool)

include h

private theorem importTable_internal :
    importTable own { options with internal } =
      importTable own { options with internal := true } := by
  rw [importTable_eq_run, importTable_eq_run]
  congr 1
  refine List.flatMap_congr fun c hc => ?_
  rw [componentCalls, componentCalls,
    visibleReferences_of_withoutInternal (h c hc)]

private theorem body_internal (t : ImportTable) :
    body t own { options with internal } =
      body t own { options with internal := true } := by
  have hvisible (c : Component) (hc : c ∈ own) (internal : Bool) :=
    visible_of_withoutInternal (h c hc) internal
  have hcomponent :
      own.map (componentBlock t · internal) = own.map (componentBlock t · true) :=
    List.map_congr_left fun c hc => by
      rw [componentBlock, componentBlock, (hvisible c hc internal).1,
        (hvisible c hc internal).2.1,
        (hvisible c hc true).1, (hvisible c hc true).2.1]
  have hattribute :
      own.map (attributeBlock t · internal) = own.map (attributeBlock t · true) :=
    List.map_congr_left fun c hc => by
      rw [attributeBlock, attributeBlock, (hvisible c hc internal).1,
        (hvisible c hc internal).2.2,
        (hvisible c hc true).1, (hvisible c hc true).2.2]
  have helement : own.map (elementBlock t · internal options.elementBase) =
      own.map (elementBlock t · true options.elementBase) :=
    List.map_congr_left fun c hc => by
      rw [elementBlock, elementBlock, (hvisible c hc internal).2.2,
        (hvisible c hc true).2.2]
  have hevents : own.filter (fun c => !(c.visibleEvents internal).isEmpty) =
      own.filter (fun c => !(c.visibleEvents true).isEmpty) :=
    List.filter_congr fun c hc => by
      rw [(hvisible c hc internal).2.2, (hvisible c hc true).2.2]
  simp only [body, hcomponent, hattribute, helement, hevents]

end

theorem render_internal {components : List Component}
    (h : ∀ c ∈ ownComponents components, c.withoutInternal = c)
    (options : ArtifactOptions) (internal : Bool) :
    render components { options with internal } =
      render components { options with internal := true } := by
  have himports (t : ImportTable) :
      importLines t { options with internal } =
        importLines t { options with internal := true } := rfl
  rw [render, render, sections, sections, importTable_internal h, himports,
    body_internal h]

/-! ## Lists that differ in internal members only -/

private theorem ownComponents_withoutInternal (components : List Component) :
    (ownComponents components).map withoutInternal =
      ownComponents (components.map withoutInternal) := by
  rw [ownComponents, ownComponents, List.filter_map]
  rfl

section

variable {components others : List Component} {options : ArtifactOptions}
  (hpublic : options.internal = false)
  (hagree : components.map withoutInternal = others.map withoutInternal)

include hpublic hagree

private theorem body_eq_of_agree (t : ImportTable) :
    body t (ownComponents components) options =
      body t (ownComponents others) options := by
  rw [← body_withoutInternal t _ hpublic,
    ← body_withoutInternal t (ownComponents others) hpublic,
    ownComponents_withoutInternal, ownComponents_withoutInternal, hagree]

theorem exists_calls_of_agree :
    ∃ calls : List Call,
      artifactTable components options =
        (withReserved (reservedNames (ownComponents components) options)).run
          calls ∧
      artifactTable others options =
        (withReserved (reservedNames (ownComponents others) options)).run
          calls := by
  have hcalls (components : List Component) :
      (ownComponents components).flatMap (componentCalls options.internal) =
        (ownComponents (components.map withoutInternal)).flatMap
          (componentCalls false) := by
    rw [← ownComponents_withoutInternal, List.flatMap_map, hpublic]
    simp only [componentCalls_withoutInternal]
  refine ⟨(ownComponents (components.map withoutInternal)).flatMap
    (componentCalls false), ?_, ?_⟩
  · rw [artifactTable, importTable_eq_run, hcalls]
  · rw [artifactTable, importTable_eq_run, hcalls, hagree]

private theorem render_eq_iff_imports_eq :
    render components options = render others options ↔
      (artifactTable components options).imports =
        (artifactTable others options).imports := by
  obtain ⟨calls, hfirst, hsecond⟩ := exists_calls_of_agree hpublic hagree
  constructor
  · intro h
    have hformed (components : List Component) :
        ∀ statement ∈ (artifactTable components options).sortedImports,
        ∀ n ∈ statement.2,
          n.IsFormed := by
      intro statement hstatement n hn
      rw [artifactTable, importTable_eq_run] at hstatement
      exact ((wellFormed_withReserved _).run _).form
        (aliasOf?_of_mem_sortedImports hstatement hn)
    have hnames :
        (artifactTable components options).names =
          (artifactTable others options).names := by
      rw [hfirst, hsecond]
      refine names_run ?_ calls
      rw [names, names, imports_withReserved, imports_withReserved]
    have htext := congrArg String.toList h
    rw [toList_render, toList_render, List.append_cancel_left_eq] at htext
    refine eq_of_sortedImports_eq
      (statementLines_cancel (hformed components) (hformed others) ?_ htext)
    rw [names_sortedImports_eq, names_sortedImports_eq, hnames]
  · intro h
    have hsorted : (artifactTable components options).sortedImports =
        (artifactTable others options).sortedImports := by
          rw [sortedImports, h, sortedImports]
    rw [← String.toList_inj, toList_render, toList_render, hsorted, body_congr h,
      body_eq_of_agree hpublic hagree]

end

/-- Two lists that agree apart from internal members have the same public
declarations exactly if no alias in the artifact of either is a global name that
some member in the other refers to. -/
theorem public_text_eq_iff {components others : List Component}
    {options : ArtifactOptions} (hpublic : options.internal = false)
    (hagree : components.map withoutInternal = others.map withoutInternal) :
    render components options = render others options ↔
      (artifactTable components options).Avoids
        (ambientNames (ownComponents others)) ∧
        (artifactTable others options).Avoids
          (ambientNames (ownComponents components)) := by
  obtain ⟨calls, hfirst, hsecond⟩ := exists_calls_of_agree hpublic hagree
  have havoids {names extra extra' : List String} :
      ((withReserved (names ++ extra)).run calls).Avoids (names ++ extra') ↔
        ((withReserved (names ++ extra)).run calls).Avoids extra' := by
    constructor
    · exact fun h s n given hgiven hmem =>
        h s n given hgiven (List.mem_append_right _ hmem)
    · intro h s n given hgiven hmem
      rcases List.mem_append.1 hmem with hmem | hmem
      · exact not_mem_reserved_of_aliasOf? hgiven (List.mem_append_left _ hmem)
      · exact h s n given hgiven hmem
  rw [render_eq_iff_imports_eq hpublic hagree, hfirst, hsecond,
    run_imports_eq_iff, reservedNames, reservedNames, havoids, havoids]

/-! ## A hidden member that is noticed -/

def publicOptions : ArtifactOptions :=
  { cardOptions with internal := false }

def cardHiding (typeName : String) : Component :=
  { declaringCard with
    properties := declaringCard.properties ++ [
      { name := "raw", typeText := typeName, internal := true,
        references := .ofList [(typeName, .ambient)] }] }

theorem public_text_eq_iff_hiding :
    publicOptions.internal = false ∧
      [cardHiding "Item1", importingCard].map withoutInternal =
        [cardHiding "Secret", importingCard].map withoutInternal ∧
      (artifactTable [cardHiding "Item1", importingCard] publicOptions).Avoids
        (ambientNames (ownComponents [cardHiding "Secret", importingCard])) ∧
      render [cardHiding "Item1", importingCard] publicOptions ≠
        render [cardHiding "Secret", importingCard] publicOptions := by
  have hagree : [cardHiding "Item1", importingCard].map withoutInternal =
      [cardHiding "Secret", importingCard].map withoutInternal := by
        decide +kernel
  have hpublic : publicOptions.internal = false := rfl
  refine ⟨hpublic, hagree, by decide +kernel, fun htext => ?_⟩
  have havoids := ((public_text_eq_iff hpublic hagree).1 htext).2
  exact absurd havoids (by decide +kernel)

/-- The internal property takes the name away from a type that is shown. -/
theorem hidden_global_renames_shown_type :
    publicOptions.internal = false ∧
      [cardHiding "Item"].map withoutInternal =
        [declaringCard].map withoutInternal ∧
      render [cardHiding "Item"] publicOptions ≠
        render [declaringCard] publicOptions ∧
      importLines (artifactTable [cardHiding "Item"] publicOptions)
        publicOptions =
        [runtimeImportLine publicOptions,
          "import \x7b Item as Item1 \x7d from \"./a\";"] ∧
      importLines (artifactTable [declaringCard] publicOptions) publicOptions =
        [runtimeImportLine publicOptions,
          "import \x7b Item \x7d from \"./a\";"] := by
  have hagree :
      [cardHiding "Item"].map withoutInternal =
        [declaringCard].map withoutInternal := by
    decide +kernel
  refine ⟨rfl, hagree, ?_, by decide +kernel, by decide +kernel⟩
  rw [Ne, render_eq_iff_imports_eq rfl hagree]
  decide +kernel

end Declarations

end ComponentBuild
