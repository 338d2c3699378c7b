import ComponentBuild.Component.Basic
import ComponentBuild.Imports.Renaming
import ComponentBuild.Imports.Table
import ComponentBuild.Text.Lines

/-!
The declarations of a single component.

A component contributes an interface of its properties and methods, an interface
of its attributes and event handlers, the interface of its element, and, if it
has events, a type for them.  Type texts use the aliases of an import table that
already holds the component's references.
-/

namespace ComponentBuild

namespace Declarations

def joinLines (lines : List String) : String :=
  "\n".intercalate lines

/-! ## Documentation -/

def docLine (line : List Char) : String :=
  String.ofList (Text.trimEnd ("          * ".toList ++ Text.trimEnd line))

/-- The comment lines for a documentation text; none for a blank one. -/
def docLines (docs : Option String) : List String :=
  match (docs.map fun text => Text.trim text.toList).getD [] with
  | [] => []
  | text => "        /**" :: (Text.lines text).map docLine ++ ["         */"]

/-! ## Members -/

/-- A type text as it is written where the table's aliases are in force. -/
def aliased (t : ImportTable) (c : Component) (references : References)
    (typeText : String) :
    String :=
  TypeText.rename (t.renames c references) typeText

def memberLine (t : ImportTable) (c : Component) (m : Member) (optional : Bool) :
    String :=
  "        \"" ++ m.name ++ "\"" ++ (if optional then "?" else "") ++ ": "
    ++ aliased t c m.references m.typeText ++ ";"

def eventDetail (t : ImportTable) (c : Component) (e : CustomEvent) : String :=
  aliased t c e.references e.detail

def handlerLine (t : ImportTable) (c : Component) (e : CustomEvent) : String :=
  "        \"" ++ e.handlerName ++ "\"?: (event: " ++ c.customEventName ++
    "<" ++ eventDetail t c e
    ++ ">) => void;"

/-! ## Blocks -/

def interfaceBlock (name : String) (body : List String) : String :=
  joinLines (("    interface " ++ name ++ " \x7b") :: body ++ ["    \x7d"])

/-- The public surface: properties, optional if they say so, and methods, never
optional. -/
def componentBlock (t : ImportTable) (c : Component) (internal : Bool) : String :=
  interfaceBlock c.pascal <|
    ((c.visibleProperties internal).flatMap fun m =>
      docLines m.docs ++ [memberLine t c m m.optional])
    ++ ((c.visibleMethods internal).flatMap fun m =>
      docLines m.docs ++ [memberLine t c m false])

def attributeBlock (t : ImportTable) (c : Component) (internal : Bool) : String :=
  interfaceBlock c.pascal <|
    ((c.visibleProperties internal).flatMap fun m =>
      docLines m.docs ++ [memberLine t c m !m.required])
    ++ ((c.visibleEvents internal).flatMap fun e =>
      docLines e.docs ++ [handlerLine t c e])

def eventMapName (c : Component) : String :=
  c.elementName ++ "EventMap"

def listenerLine (c : Component) (verb options : String) : String :=
  "        " ++ verb ++ "EventListener<K extends keyof " ++ eventMapName c
    ++ ">(type: K, listener: (this: " ++ c.elementName ++ ", ev: " ++
      c.customEventName ++ "<"
    ++ eventMapName c ++ "[K]>) => any, options?: boolean | " ++
      options ++ "): void;"

def elementBlock (t : ImportTable) (c : Component) (internal : Bool)
    (elementBase : String) :
    String :=
  let events := c.visibleEvents internal
  let opening :=
    "    interface " ++ c.elementName ++ " extends Components." ++
      c.pascal ++ ", "
    ++ elementBase ++ " \x7b"
  let interfaceLines :=
    if events.isEmpty then
      [opening]
    else
      ("    interface " ++ eventMapName c ++ " \x7b")
        :: (events.map fun e => "        \"" ++ e.name ++ "\": " ++
          eventDetail t c e ++ ";")
        ++ ["    \x7d", opening, listenerLine c "add" "AddEventListenerOptions",
          listenerLine c "remove" "EventListenerOptions"]
  joinLines <| interfaceLines ++ [
    "    \x7d",
    "    var " ++ c.elementName ++ ": \x7b",
    "        prototype: " ++ c.elementName ++ ";",
    "        new (): " ++ c.elementName ++ ";",
    "    \x7d;"]

def eventTypeBlock (c : Component) : String :=
  joinLines [
    "export interface " ++ c.customEventName ++ "<T> extends CustomEvent<T> \x7b",
    "    detail: T;",
    "    target: " ++ c.elementName ++ ";",
    "\x7d"]

end Declarations

end ComponentBuild
