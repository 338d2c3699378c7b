import ComponentBuild.Component.Manifest
import ComponentBuild.Proofs.Json.RoundTrip
import ComponentBuild.Proofs.SortedMap.Entries

/-!
# Manifests read back

Each record is read from the fields that it is written with: those that are
always there, those with defaults, and documentation, which is left out where
there is none.  So a manifest that was printed gives the same descriptor, and
only its source file still depends on where the manifest is.
-/

namespace ComponentBuild.Manifest

/-! ## What is written is plain -/

private theorem itemsPlain_map {α : Type} {encode : α → Json}
    (h : ∀ a, (encode a).isPlain = true) (items : List α) :
    Json.itemsPlain (items.map encode) = true := by
  induction items with
  | nil => rfl
  | cons a items ih => simp [Json.itemsPlain, h a, ih]

private theorem isPlain_referenceJson (r : TypeReference) :
    (referenceJson r).isPlain = true := by
  cases r <;> rfl

private theorem isPlain_referencesJson (references : References) :
    (referencesJson references).isPlain = true := by
  have hfields (entries : List (String × TypeReference)) :
      Json.fieldsPlain (entries.map fun e => (e.1, referenceJson e.2)) =
        true := by
    induction entries with
    | nil => rfl
    | cons e entries ih => simp [Json.fieldsPlain, isPlain_referenceJson, ih]
  exact hfields references.entries

private theorem isPlain_memberJson (m : Member) :
    (memberJson m).isPlain = true := by
  cases hdocs : m.docs <;>
    simp [memberJson, docsFields, hdocs, Json.isPlain, Json.fieldsPlain,
      isPlain_referencesJson]

private theorem isPlain_eventJson (e : CustomEvent) :
    (eventJson e).isPlain = true := by
  cases hdocs : e.docs <;>
    simp [eventJson, docsFields, hdocs, Json.isPlain, Json.fieldsPlain,
      isPlain_referencesJson]

private theorem isPlain_componentJson (c : Component) :
    (componentJson c).isPlain = true := by
  cases hdocs : c.docs <;>
    simp [componentJson, docsFields, hdocs, Json.isPlain, Json.fieldsPlain,
      itemsPlain_map isPlain_memberJson, itemsPlain_map isPlain_eventJson]

/-! ## Records read from their fields -/

private theorem reference?_referenceJson (r : TypeReference) :
    reference? (referenceJson r) = some r := by
  cases r with
  | here => rfl
  | ambient => rfl
  | imported path => rfl

private theorem references?_referencesJson (references : References) :
    references? (referencesJson references) = some references := by
  have hentries (entries : List (String × TypeReference)) :
      (entries.map fun e => (e.1, referenceJson e.2)).mapM
        (fun e => (reference? e.2).map (e.1, ·)) = some entries := by
    induction entries with
    | nil => rfl
    | cons e entries ih => simp [reference?_referenceJson, ih]
  have hread : references? (referencesJson references) =
      (some references.entries).bind fun entries => some (.ofList entries) :=
    congrArg (·.bind fun entries => some (SortedMap.ofList entries))
      (hentries references.entries)
  rw [hread, Option.bind_some, SortedMap.ofList_entries]

private theorem listOf?_map {α : Type} {read : Json → Option α}
    {encode : α → Json} (h : ∀ a, read (encode a) = some a) (items : List α) :
    listOf? read (.array (items.map encode)) = some items := by
  have hitems : (items.map encode).mapM read = some items := by
    induction items with
    | nil => rfl
    | cons a items ih => simp [h a, ih]
  simp [listOf?, Json.asList?, hitems]

@[simp] theorem required_some {α : Type} (read : Json → Option α) (v : Json) :
    Json.required read (some v) = read v := rfl

@[simp] theorem optional_some {α : Type} (default : α) (read : Json → Option α)
    (v : Json) :
    Json.optional default read (some v) = read v := rfl

theorem optional_docs (docs : Option String) :
    Json.optional none Json.asTextOrNull? (docs.map Json.text) = some docs := by
  cases docs <;> rfl

private theorem record?_memberJson (m : Member) :
    (memberJson m).record? ["name", "type", "optional", "required",
      "internal", "docs",
        "references"] =
      some [some (.text m.name), some (.text m.typeText), some (.bool m.optional),
        some (.bool m.required), some (.bool m.internal), m.docs.map Json.text,
        some (referencesJson m.references)] := by
  obtain ⟨name, typeText, isOptional, isRequired, internal, docs, references⟩ := m
  cases docs <;> rfl

private theorem member?_memberJson (m : Member) :
    member? (memberJson m) = some m := by
  simp [member?, record?_memberJson, Json.asText?, Json.asBool?, optional_docs,
    references?_referencesJson]

private theorem record?_eventJson (e : CustomEvent) :
    (eventJson e).record? ["name", "detail", "internal", "docs", "references"] =
      some [some (.text e.name), some (.text e.detail), some (.bool e.internal),
        e.docs.map Json.text, some (referencesJson e.references)] := by
  obtain ⟨name, detail, internal, docs, references⟩ := e
  cases docs <;> rfl

private theorem event?_eventJson (e : CustomEvent) :
    event? (eventJson e) = some e := by
  simp [event?, record?_eventJson, Json.asText?, Json.asBool?, optional_docs,
    references?_referencesJson]

private theorem record?_componentJson (c : Component) :
    (componentJson c).record? ["tagName", "sourceFilePath",
      "isCollectionDependency",
        "properties", "methods", "events", "docs"] =
      some [some (.text c.tag), some (.text c.sourceFile.text),
        some (.bool c.fromDependency),
        some (.array (c.properties.map memberJson)),
        some (.array (c.methods.map memberJson)),
        some (.array (c.events.map eventJson)), c.docs.map Json.text] := by
  obtain ⟨tag, sourceFile, fromDependency, properties, methods, events, docs⟩ := c
  cases docs <;> rfl

private theorem component?_componentJson (c : Component) :
    component? (componentJson c) = some c := by
  simp [component?, record?_componentJson, Json.asText?, Json.asBool?,
    optional_docs, listOf?_map member?_memberJson, listOf?_map event?_eventJson]

/-! ## Whole manifests -/

private theorem read?_print (c : Component) :
    (Json.read? (print c)).bind component? = some c := by
  rw [print, Json.read?_pretty (isPlain_componentJson c), Option.bind_some,
    component?_componentJson]

theorem parse_print_resolved {c : Component} (hdash : '-' ∈ c.tag.toList)
    (path : Path) :
    parse path (print c) =
      .ok { c with
        sourceFile := Path.resolve (path.parent.getD ⟨""⟩) c.sourceFile } := by
  have hcontains : c.tag.toList.contains '-' = true :=
    List.contains_iff_mem.2 hdash
  simp only [parse, read?_print, hcontains, if_true]

private theorem resolve_of_isAbsolute {p : Path} (habsolute : p.isAbsolute = true)
    (hnormal : p.normalize = p) (base : Path) : Path.resolve base p = p := by
  rw [Path.resolve, if_pos habsolute, hnormal]

/-- A descriptor with a normal absolute source file is what its manifest says,
at every path. -/
theorem parse_print {c : Component} (hdash : '-' ∈ c.tag.toList)
    (habsolute : c.sourceFile.isAbsolute = true)
    (hnormal : c.sourceFile.normalize = c.sourceFile) (path : Path) :
    parse path (print c) = .ok c := by
  rw [parse_print_resolved hdash, resolve_of_isAbsolute habsolute hnormal]

/-- A descriptor with every kind of escape and of reference, and documentation
in some places only. -/
def quotedCard : Component where
  tag := "my-card"
  sourceFile := ⟨"/proj/src/\"my\" card.tsx"⟩
  properties := [
    { name := "text", typeText := "\"a\" | 'b\\c'", required := true,
      docs := some "two\nlines\t\x00",
      references := .ofList [("Here", .here), ("There", .imported "./there\x1f"),
        ("Everywhere", .ambient), ("\\", .imported "")] },
    { name := "", typeText := "λ → 𝔸 \x7f", optional := true, docs := some "" }]
  methods :=
    [{ name := "open\r", typeText := "() => Promise<void>", internal := true }]
  events := [
    { name := "my\x08Event\x0c", detail := "{ a: 1 }",
      references := .ofList [("E", .here)] },
    { name := "closed", detail := "void", internal := true, docs := some "/" }]
  docs := some "é"

theorem parse_print_quotedCard :
    '-' ∈ quotedCard.tag.toList ∧ quotedCard.sourceFile.isAbsolute = true ∧
      quotedCard.sourceFile.normalize = quotedCard.sourceFile ∧
      parse ⟨"manifests/card.json"⟩ (print quotedCard) = .ok quotedCard := by
  have hdash : '-' ∈ quotedCard.tag.toList := by decide
  have habsolute : quotedCard.sourceFile.isAbsolute = true := by decide +kernel
  have hnormal : quotedCard.sourceFile.normalize = quotedCard.sourceFile := by
    decide +kernel
  exact ⟨hdash, habsolute, hnormal, parse_print hdash habsolute hnormal _⟩

end ComponentBuild.Manifest
