import ComponentBuild.Component.Basic
import ComponentBuild.Json.Printer
import ComponentBuild.Json.Reader
import ComponentBuild.Path.Normal

/-!
Component manifests: descriptors as JSON texts.

A record is an object with the record's fields, each at most once, or an array
with the values of its fields in order.  Fields with a default may be missing
and fields that are not known are skipped.
-/

namespace ComponentBuild

namespace Json

def asText? : Json → Option String
  | text value => some value
  | _ => none

def asBool? : Json → Option Bool
  | bool value => some value
  | _ => none

def asList? : Json → Option (List Json)
  | array items => some items
  | _ => none

/-- A text or nothing, where `null` stands for nothing. -/
def asTextOrNull? : Json → Option (Option String)
  | null => some none
  | text value => some (some value)
  | _ => none

/-- The only value of a field, if it is there; `none` if it is there twice. -/
def single? (fields : List (String × Json)) (name : String) :
    Option (Option Json) :=
  match occurrences fields name with
  | [] => some none
  | [v] => some (some v)
  | _ => none

def record? (names : List String) : Json → Option (List (Option Json))
  | object fields => names.mapM (single? fields)
  | array items =>
      if items.length ≤ names.length then
        some (items.map some ++ List.replicate (names.length - items.length) none)
      else none
  | _ => none

def required {α : Type} (read : Json → Option α) (v : Option Json) : Option α :=
  v.bind read

def optional {α : Type} (default : α) (read : Json → Option α) :
    Option Json → Option α
  | none => some default
  | some v => read v

end Json

namespace Manifest

open Json (required)

/-! ## Reading -/

/-- How many arrays and objects a reference stands in, itself included:
component, member list, member, reference map and reference. -/
def referenceDepth : Nat := 5

def referenceAt? (location : String) (path : Option Json) :
    Option TypeReference :=
  if location = "local" then some .here
  else if location = "global" then some .ambient
  else if location = "import" then (path.bind Json.asText?).map .imported
  else none

/-- A reference is read in full, its unknown fields too. -/
def reference? : Json → Option TypeReference
  | .object fields => do
      let location ← (← Json.single? fields "location").bind Json.asText?
      let others := fields.filter (·.1 != "location")
      if others.all (·.2.isReadable referenceDepth) then
        if location = "import"
          then referenceAt? location (← Json.single? others "path")
        else referenceAt? location none
      else none
  | .array (location :: values) => do
      let location ← location.asText?
      if values.all (·.isReadable referenceDepth) then
        match location, values with
        | "import", [path] => referenceAt? location (some path)
        | "import", _ => none
        | _, [] => referenceAt? location none
        | _, _ => none
      else none
  | _ => none

def references? : Json → Option References
  | .object fields => do
      let entries ← fields.mapM fun (name, v) => (reference? v).map (name, ·)
      pure (.ofList entries)
  | _ => none

def member? (v : Json) : Option Member := do
  let fields ← v.record? ["name", "type", "optional", "required", "internal",
      "docs", "references"]
  match fields with
  | [name, typeText, isOptional, isRequired, internal, docs, references] =>
      pure {
        name := ← required Json.asText? name
        typeText := ← required Json.asText? typeText
        optional := ← Json.optional false Json.asBool? isOptional
        required := ← Json.optional false Json.asBool? isRequired
        internal := ← Json.optional false Json.asBool? internal
        docs := ← Json.optional none Json.asTextOrNull? docs
        references := ← Json.optional ∅ references? references }
  | _ => none

def event? (v : Json) : Option CustomEvent := do
  let fields ← v.record? ["name", "detail", "internal", "docs", "references"]
  match fields with
  | [name, detail, internal, docs, references] =>
      pure {
        name := ← required Json.asText? name
        detail := ← required Json.asText? detail
        internal := ← Json.optional false Json.asBool? internal
        docs := ← Json.optional none Json.asTextOrNull? docs
        references := ← Json.optional ∅ references? references }
  | _ => none

def listOf? {α : Type} (read : Json → Option α) (v : Json) : Option (List α) := do
  (← v.asList?).mapM read

def component? (v : Json) : Option Component := do
  let fields ← v.record? ["tagName", "sourceFilePath",
      "isCollectionDependency", "properties",
    "methods", "events", "docs"]
  match fields with
  | [tag, sourceFile, fromDependency, properties, methods, events, docs] =>
      pure {
        tag := ← required Json.asText? tag
        sourceFile := ⟨← required Json.asText? sourceFile⟩
        fromDependency := ← Json.optional false Json.asBool? fromDependency
        properties := ← Json.optional [] (listOf? member?) properties
        methods := ← Json.optional [] (listOf? member?) methods
        events := ← Json.optional [] (listOf? event?) events
        docs := ← Json.optional none Json.asTextOrNull? docs }
  | _ => none

inductive Fault where
  | malformed
  | noDash (tag : String)
  deriving DecidableEq, Repr

def Fault.message : Fault → String
  | malformed => "invalid component manifest: not a component descriptor"
  | noDash tag => "tag name \"" ++ tag ++ "\" must contain a dash"

/-- The descriptor in the manifest at `path`.  Its source file is relative to
the manifest. -/
def parse (path : Path) (content : String) : Except Fault Component :=
  match (Json.read? content).bind component? with
  | none => .error .malformed
  | some c =>
      if c.tag.toList.contains '-' then
        .ok { c with
          sourceFile := Path.resolve (path.parent.getD ⟨""⟩) c.sourceFile }
      else .error (.noDash c.tag)

/-! ## Writing -/

def docsFields (docs : Option String) : List (String × Json) :=
  match docs with
  | none => []
  | some docs => [("docs", .text docs)]

def referenceJson : TypeReference → Json
  | .here => .object [("location", .text "local")]
  | .imported path => .object [("location", .text "import"), ("path", .text path)]
  | .ambient => .object [("location", .text "global")]

def referencesJson (references : References) : Json :=
  .object (references.entries.map fun (name, reference) => (name,
    referenceJson reference))

def memberJson (m : Member) : Json :=
  .object <| [("name", .text m.name), ("type", .text m.typeText),
    ("optional", .bool m.optional),
    ("required", .bool m.required), ("internal", .bool m.internal)] ++
      docsFields m.docs
    ++ [("references", referencesJson m.references)]

def eventJson (e : CustomEvent) : Json :=
  .object <| [("name", .text e.name), ("detail", .text e.detail),
    ("internal", .bool e.internal)]
    ++ docsFields e.docs ++ [("references", referencesJson e.references)]

def componentJson (c : Component) : Json :=
  .object <| [("tagName", .text c.tag),
    ("sourceFilePath", .text c.sourceFile.text),
    ("isCollectionDependency", .bool c.fromDependency),
    ("properties", .array (c.properties.map memberJson)),
    ("methods", .array (c.methods.map memberJson)),
    ("events", .array (c.events.map eventJson))] ++ docsFields c.docs

def print (c : Component) : String :=
  (componentJson c).pretty

end Manifest

end ComponentBuild
