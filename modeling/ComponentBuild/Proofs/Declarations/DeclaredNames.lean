import ComponentBuild.Proofs.Declarations.InternalMembers
import ComponentBuild.Proofs.Imports.Taken

/-!
# Aliases and declared names

An artifact reserves the names of its namespaces, of the element base and of
global types, but not the names of the interfaces that it declares for
components.  So an imported type can have such a name for an alias, by its own
spelling or with a number behind it, and then one name stands for two types.
-/

namespace ComponentBuild

/-! ## What an artifact declares -/

/-- The interfaces declared for a component: the one in the namespaces, that of
its element, and that of its events if any is shown. -/
def Component.interfaceNames (c : Component) (internal : Bool) : List String :=
  [c.pascal, c.elementName]
    ++ if (c.visibleEvents internal).isEmpty then [] else [c.customEventName]

namespace Declarations

open ImportTable

def declaredInterfaces (components : List Component) (options : ArtifactOptions) :
    List String :=
  (ownComponents components).flatMap (·.interfaceNames options.internal)

def declaredNames (components : List Component) (options : ArtifactOptions) :
    List String :=
  ownNames ++ [options.elementBase] ++ declaredInterfaces components options

private theorem infix_linesText {line : String} {lines : List String}
    (h : line ∈ lines) :
    line.toList ++ ['\n'] <:+: linesText lines := by
  rw [linesText, List.flatMap_def]
  exact List.infix_of_mem_flatten (List.mem_map_of_mem h)

theorem infix_render_of_mem {components : List Component}
    {options : ArtifactOptions} {block line : String} {lines : List String}
    (hblock : block = joinLines lines) (hline : line ∈ lines)
    (hbody : block ∈ body (artifactTable components options)
      (ownComponents components) options) :
    line.toList <:+: (render components options).toList := by
  have hlines : block.toList ++ ['\n'] = linesText lines := by
    rw [← toList_joinLines (List.ne_nil_of_mem hline), hblock,
      String.toList_append]
    rfl
  have hinner : line.toList ++ ['\n'] <:+: block.toList ++ ['\n'] := by
    rw [hlines]
    exact infix_linesText hline
  have hrest :
      block.toList ++ ['\n'] <:+: (render components options).toList := by
    rw [toList_render]
    exact ((infix_linesText hbody).trans (List.suffix_append _ _).isInfix).trans
      (List.suffix_append _ _).isInfix
  exact ((List.prefix_append _ _).isInfix.trans hinner).trans hrest

private theorem infix_interface (indent name rest : String) :
    ("interface " ++ name).toList <:+:
      (indent ++ "interface " ++ name ++ rest).toList := by
  simp only [String.toList_append]
  exact ⟨indent.toList, rest.toList, by simp⟩

section

variable {components : List Component} {options : ArtifactOptions} {c : Component}
  (hc : c ∈ ownComponents components) (t : ImportTable)

include hc

private theorem componentBlock_mem_body :
    componentBlock t c options.internal ∈
      body t (ownComponents components) options := by
  have hmem : componentBlock t c options.internal ∈
      (ownComponents components).map (componentBlock t · options.internal) :=
        List.mem_map_of_mem hc
  simp only [body, List.mem_append, hmem, true_or, or_true]

private theorem elementBlock_mem_body :
    elementBlock t c options.internal options.elementBase ∈
      body t (ownComponents components) options := by
  have hmem : elementBlock t c options.internal options.elementBase ∈
      (ownComponents components).map
        (elementBlock t · options.internal options.elementBase) :=
    List.mem_map_of_mem hc
  simp only [body, List.mem_append, hmem, true_or, or_true]

private theorem eventTypeBlock_mem_body
    (hevents : (c.visibleEvents options.internal).isEmpty = false) :
    eventTypeBlock c ∈ body t (ownComponents components) options := by
  have hmem : eventTypeBlock c ∈ ((ownComponents components).filter
      fun c => !(c.visibleEvents options.internal).isEmpty).map eventTypeBlock :=
    List.mem_map_of_mem (List.mem_filter.2 ⟨hc, by rw [hevents]; rfl⟩)
  simp only [body, List.mem_append, hmem, true_or, or_true]

end

/-- Each of these interfaces is declared in the text of the artifact. -/
theorem interface_infix_render {components : List Component}
    {options : ArtifactOptions} {d : String}
    (h : d ∈ declaredInterfaces components options) :
    ("interface " ++ d).toList <:+: (render components options).toList := by
  obtain ⟨c, hc, hd⟩ := List.mem_flatMap.1 h
  let t := artifactTable components options
  rcases List.mem_append.1 hd with hd | hd
  · rcases List.mem_pair.1 hd with rfl | rfl
    · exact (infix_interface "    " c.pascal " \x7b").trans
        (infix_render_of_mem rfl List.mem_cons_self
          (componentBlock_mem_body hc t))
    · refine (infix_interface "    " c.elementName
        (" extends Components." ++ c.pascal ++ ", " ++ options.elementBase ++
          " \x7b")).trans
        (infix_render_of_mem rfl ?_ (elementBlock_mem_body hc t))
      cases (c.visibleEvents options.internal).isEmpty with
      | true => simp [String.append_assoc]
      | false => simp [String.append_assoc]
  · split at hd
    · cases hd
    · rename_i hevents
      obtain rfl := List.mem_singleton.1 hd
      exact (infix_interface "export " c.customEventName
        "<T> extends CustomEvent<T> \x7b").trans
        (infix_render_of_mem rfl List.mem_cons_self
          (eventTypeBlock_mem_body hc t (Bool.not_eq_true _ ▸ hevents)))

/-! ## What an artifact imports -/

/-- A shown member of a component in the artifact refers to a type of this name
that is declared in its file or in a module, and not globally. -/
def ImportsName (components : List Component) (options : ArtifactOptions)
    (name : String) : Prop :=
  ∃ c ∈ ownComponents components,
  ∃ references ∈ c.visibleReferences options.internal,
    ∃ reference, (name, reference) ∈ references.entries ∧ reference ≠ .ambient

theorem exists_source_iff {c : Component} {reference : TypeReference} :
    (∃ s, ImportSource.ofReference? c reference = some s) ↔
      reference ≠ .ambient := by
  cases reference with
  | here => simp [ImportSource.ofReference?]
  | ambient => simp [ImportSource.ofReference?]
  | imported path =>
      simp only [ImportSource.ofReference?, ne_eq, reduceCtorEq,
        not_false_eq_true, iff_true]
      split
      · exact ⟨_, rfl⟩
      · exact ⟨_, rfl⟩

def artifactCalls (components : List Component) (options : ArtifactOptions) :
    List Call :=
  (ownComponents components).flatMap (componentCalls options.internal)

private theorem mem_artifactCalls_iff {components : List Component}
    {options : ArtifactOptions} {call : Call} :
    call ∈ artifactCalls components options ↔
      ∃ c ∈ ownComponents components,
      ∃ references ∈ c.visibleReferences options.internal,
        ∃ e ∈ references.entries, ∃ s, ImportSource.ofReference? c e.2 = some s ∧
          .insert s e.1 = call := by
  simp only [artifactCalls, componentCalls, referenceCalls, List.mem_flatMap,
    List.mem_filterMap, Option.map_eq_some_iff]

section

variable {components : List Component} {options : ArtifactOptions}

private theorem artifactTable_eq_run : artifactTable components options =
    (withReserved (reservedNames (ownComponents components) options)).run
      (artifactCalls components options) :=
  importTable_eq_run (ownComponents components) options

private theorem reserved?_artifactCalls :
    (artifactCalls components options).filterMap Call.reserved? = [] := by
  rw [List.filterMap_eq_nil_iff]
  intro call hcall
  obtain ⟨_, _, _, _, _, _, _, _, rfl⟩ := mem_artifactCalls_iff.1 hcall
  rfl

private theorem importsName_iff {name : String} :
    ImportsName components options name ↔
      ∃ s, pairKey (s, name) ∈
        insertedKeys (artifactCalls components options) := by
  constructor
  · rintro ⟨c, hc, references, hreferences, reference, he, hreference⟩
    obtain ⟨s, hs⟩ := exists_source_iff.2 hreference
    exact ⟨s, mem_insertedKeys_iff.2 ⟨s, mem_artifactCalls_iff.2
      ⟨c, hc, references, hreferences, _, he, s, hs, rfl⟩, KeyOrder.same_refl s⟩⟩
  · rintro ⟨s, hs⟩
    obtain ⟨s', hcall, -⟩ := mem_insertedKeys_iff.1 hs
    obtain ⟨c, hc, references, hreferences, e, he, _, hsource, hinsert⟩ :=
      mem_artifactCalls_iff.1 hcall
    cases hinsert
    exact ⟨c, hc, references, hreferences, e.2, he,
      exists_source_iff.1 ⟨s', hsource⟩⟩

private theorem importsName_of_aliasOf? {s : ImportSource} {n given : String}
    (h : (artifactTable components options).aliasOf? s n = some given) :
    ImportsName components options n := by
  rw [artifactTable_eq_run] at h
  exact importsName_iff.2 ⟨s, (isSome_aliasOf?_iff _ _ s n).1
    (Option.isSome_of_eq_some h)⟩

theorem exists_aliasOf?_iff {d : String} :
    (∃ s n, (artifactTable components options).aliasOf? s n = some d) ↔
      (ImportsName components options d ∧
        d ∉ reservedNames (ownComponents components) options) ∨
        ∃ s n k, d = numbered n k ∧
        (artifactTable components options).aliasOf? s n = some d := by
  constructor
  · rintro ⟨s, n, halias⟩
    have himported := importsName_of_aliasOf? halias
    have hrun := halias
    rw [artifactTable_eq_run] at hrun
    rcases ((wellFormed_withReserved _).run _).form hrun with rfl | ⟨k, hk⟩
    · exact .inl ⟨himported, not_mem_reserved_of_aliasOf? hrun⟩
    · exact .inr ⟨s, n, k, hk, halias⟩
  · rintro (⟨himported, hfree⟩ | ⟨s, n, -, -, halias⟩)
    · obtain ⟨s, hs⟩ := importsName_iff.1 himported
      rw [artifactTable_eq_run]
      refine exists_aliasOf?_of_inserted hs ?_
      rwa [reserved?_artifactCalls, List.append_nil]
    · exact ⟨s, n, halias⟩

end

/-! ## Names that are no numbered ones -/

private theorem append_ne_numbered {ending : String} {c : Char}
    (he : ending.toList.getLast? = some c) (hc : c.isDigit = false)
    (front n : String) (k : Nat) : front ++ ending ≠ numbered n k := by
  intro h
  have hlast : (numbered n k).toList.getLast? = some c := by
    rw [← h, String.toList_append, List.getLast?_append, he]
    rfl
  have hne : Nat.toDigits 10 k ≠ [] :=
    List.length_pos_iff.1 Nat.length_toDigits_pos
  rw [toList_numbered, List.getLast?_append_of_ne_nil _ hne] at hlast
  have hdigit :=
    Nat.isDigit_of_mem_toDigits (by decide) (by decide)
      (List.mem_of_getLast? hlast)
  rw [hc] at hdigit
  cases hdigit

theorem eq_pascal_of_numbered {c : Component} {internal : Bool} {d n : String}
    {k : Nat} (hd : d ∈ c.interfaceNames internal) (h : d = numbered n k) :
    d = c.pascal := by
  have helement : c.elementName ≠ numbered n k :=
    append_ne_numbered (c := 't') rfl rfl _ n k
  have hevent : c.customEventName ≠ numbered n k :=
    append_ne_numbered (c := 't') rfl rfl _ n k
  rcases List.mem_append.1 hd with hd | hd
  · rcases List.mem_pair.1 hd with rfl | rfl
    · rfl
    · exact absurd h helement
  · split at hd
    · cases hd
    · obtain rfl := List.mem_singleton.1 hd
      exact absurd h hevent

/-! ## When no alias is a declared name -/

/-- No alias is a declared name exactly if no type is imported under the name of
an interface, unless that name is reserved, and no numbered alias is the name of
a component. -/
theorem avoids_declaredNames_iff (components : List Component)
    (options : ArtifactOptions) :
    (artifactTable components options).Avoids (declaredNames components options) ↔
      (∀ d ∈ declaredInterfaces components options,
        ImportsName components options d →
        d ∈ reservedNames (ownComponents components) options) ∧
      ∀ c ∈ ownComponents components, ∀ s n k, c.pascal = numbered n k →
        (artifactTable components options).aliasOf? s n ≠ some c.pascal := by
  constructor
  · intro h
    constructor
    · intro d hd himported
      by_contra hfree
      obtain ⟨s, n, halias⟩ := exists_aliasOf?_iff.2 (.inl ⟨himported, hfree⟩)
      exact h s n d halias (List.mem_append_right _ hd)
    · intro c hc s n k _ halias
      have hd : c.pascal ∈ declaredInterfaces components options :=
        List.mem_flatMap.2 ⟨c, hc, List.mem_append_left _ List.mem_cons_self⟩
      exact h s n c.pascal halias (List.mem_append_right _ hd)
  · rintro ⟨hnames, hnumbers⟩ s n d halias hd
    have hfree : d ∉ reservedNames (ownComponents components) options := by
      rw [artifactTable_eq_run] at halias
      exact not_mem_reserved_of_aliasOf? halias
    have hd : d ∈ declaredInterfaces components options :=
      (List.mem_append.1 hd).resolve_left fun hown =>
      hfree (List.mem_append_left _ hown)
    rcases exists_aliasOf?_iff.1 ⟨s, n, halias⟩ with ⟨himported, -⟩ |
      ⟨s', n', k, hk, halias'⟩
    · exact hfree (hnames d hd himported)
    · obtain ⟨c, hc, hinterface⟩ := List.mem_flatMap.1 hd
      obtain rfl := eq_pascal_of_numbered hinterface hk
      exact hnumbers c hc s' n' k hk halias'

/-! ## Reserving the declared names too -/

/-- With the names of the interfaces reserved as well no alias would be a
declared name, and the imports would change exactly where one is. -/
theorem avoids_with_interfaces_reserved (components : List Component)
    (options : ArtifactOptions) :
    let others := reservedNames (ownComponents components) options ++
      declaredInterfaces components options
    let t := (withReserved others).run (artifactCalls components options)
    t.Avoids (declaredNames components options) ∧
      ((artifactTable components options).imports = t.imports ↔
        (artifactTable components options).Avoids
          (declaredNames components options)) := by
  intro others t
  have hreserved : ∀ d ∈ reservedNames (ownComponents components) options,
      d ∈ others :=
    fun d => List.mem_append_left _
  have hdeclared : ∀ d ∈ declaredNames components options, d ∈ others := by
    intro d hd
    rcases List.mem_append.1 hd with hown | hinterface
    · exact hreserved d (List.mem_append_left _ hown)
    · exact List.mem_append_right _ hinterface
  refine ⟨fun s n given hgiven hmem => ?_, ?_⟩
  · exact not_mem_reserved_of_aliasOf? hgiven (hdeclared given hmem)
  · rw [artifactTable_eq_run, run_imports_eq_iff]
    constructor
    · exact fun h s n given hgiven hmem =>
        h.1 s n given hgiven (hdeclared given hmem)
    · intro h
      refine ⟨fun s n given hgiven hmem => ?_, fun s n given hgiven hmem => ?_⟩
      · rcases List.mem_append.1 hmem with hold | hinterface
        · exact not_mem_reserved_of_aliasOf? hgiven hold
        · exact h s n given hgiven (List.mem_append_right _ hinterface)
      · exact not_mem_reserved_of_aliasOf? hgiven (hreserved given hmem)

/-! ## A component that imports its own name -/

def cardOfOwnName : Component :=
  { declaringCard with
    properties := [
      { name := "item", typeText := "XA", references := .ofList [("XA", .here)] }] }

/-- The alias is the name of the component's interface, so the property is of
the type of the component and not of the imported one. -/
theorem alias_is_component_name :
    ¬ (artifactTable [cardOfOwnName] cardOptions).Avoids
        (declaredNames [cardOfOwnName] cardOptions) ∧
      importLines (artifactTable [cardOfOwnName] cardOptions) cardOptions =
        [runtimeImportLine cardOptions, "import \x7b XA \x7d from \"./a\";"] ∧
      componentBlock (artifactTable [cardOfOwnName] cardOptions) cardOfOwnName
          true =
        "    interface XA \x7b\n        \"item\": XA;\n    \x7d" := by
  refine ⟨?_, ?_, ?_⟩ <;> decide +kernel

end Declarations

end ComponentBuild
