import ComponentBuild.Path.Basic
import ComponentBuild.Text.Uppercase

/-!
Component descriptors: what is known of one compiled component.

A component has a tag, a source file, and public members: properties, methods
and events.  The type texts of a member mention names; `references` says where
each of these names is declared.
-/

namespace ComponentBuild

/-- Where a name mentioned in a type text is declared: in the component's own
file, in a module that this file imports, or in the global scope. -/
inductive TypeReference where
  | here
  | imported (path : String)
  | ambient
  deriving DecidableEq, Repr

abbrev References := SortedMap String TypeReference

structure Member where
  name : String
  typeText : String
  optional : Bool := false
  required : Bool := false
  /-- Shown only in declarations of the source tree itself. -/
  internal : Bool := false
  docs : Option String := none
  references : References := ∅
  deriving DecidableEq, Repr

structure CustomEvent where
  name : String
  detail : String
  internal : Bool := false
  docs : Option String := none
  references : References := ∅
  deriving DecidableEq, Repr

structure Component where
  tag : String
  sourceFile : Path
  /-- Belongs to a dependency and is left out of the declarations. -/
  fromDependency : Bool := false
  properties : List Member := []
  methods : List Member := []
  events : List CustomEvent := []
  docs : Option String := none
  deriving DecidableEq, Repr

namespace Component

def sourceDir (c : Component) : Path :=
  c.sourceFile.parent.getD ⟨""⟩

/-! ## The members shown to an audience -/

def visibleProperties (c : Component) (internal : Bool) : List Member :=
  c.properties.filter fun m => internal || !m.internal

def visibleMethods (c : Component) (internal : Bool) : List Member :=
  c.methods.filter fun m => internal || !m.internal

def visibleEvents (c : Component) (internal : Bool) : List CustomEvent :=
  c.events.filter fun e => internal || !e.internal

def visibleReferences (c : Component) (internal : Bool) : List References :=
  (c.visibleProperties internal).map (·.references)
    ++ (c.visibleMethods internal).map (·.references)
    ++ (c.visibleEvents internal).map (·.references)

end Component

/-! ## Names in declarations -/

def splitDashes : List Char → List (List Char)
  | [] => [[]]
  | c :: rest =>
      if c = '-' then
        [] :: splitDashes rest
      else
        match splitDashes rest with
        | [] => [[c]]
        | piece :: pieces => (c :: piece) :: pieces

def pascalName (tag : String) : String :=
  String.ofList ((splitDashes tag.toList).flatMap Text.capitalize)

namespace Component

def pascal (c : Component) : String :=
  pascalName c.tag

def elementName (c : Component) : String :=
  "HTML" ++ c.pascal ++ "Element"

def customEventName (c : Component) : String :=
  c.pascal ++ "CustomEvent"

end Component

/-- The attribute that handles an event: `on` and the capitalized event name. -/
def CustomEvent.handlerName (e : CustomEvent) : String :=
  "on" ++ String.ofList (Text.capitalize e.name.toList)

example : pascalName "my-card" = "MyCard" := by decide

end ComponentBuild
