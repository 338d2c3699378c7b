import ComponentBuild.Declarations.Block

/-!
The declaration artifact: one file with the declarations of all components.

The text depends on the component list and the options alone.  Components of
dependencies are left out.  Its sections are, in order: header, imports,
`Components`, event types, global elements, `LocalJSX`, and the module
augmentation.
-/

namespace ComponentBuild

structure ArtifactOptions where
  /-- The directory of the artifact; project files are imported relative to it. -/
  dir : Path
  runtimeModule : String
  elementBase : String
  internal : Bool
  deriving DecidableEq, Repr

namespace Declarations

def fileName : String := "components.d.ts"

def headerLines : List String := [
  "/* eslint-disable */",
  "/* tslint:disable */",
  "/**",
  " * This is an autogenerated file created by the Hobbes compiler.",
  " * It contains typing information for all components that exist in this project.",
  " */"]

def ownNames : List String := ["Components", "LocalJSX", "JSXBase"]

def reservedNames (components : List Component) (options : ArtifactOptions) :
    List String :=
  ownNames ++ [options.elementBase] ++ ambientNames components

def importTable (components : List Component) (options : ArtifactOptions) :
    ImportTable :=
  components.foldl (·.addComponent · options.internal)
    (ImportTable.withReserved (reservedNames components options))

def ownComponents (components : List Component) : List Component :=
  components.filter (!·.fromDependency)

def sourceSpecifier (dir : Path) : ImportSource → String
  | .file path => Path.importSpecifier dir path
  | .package specifier => specifier

def importLine (dir : Path) (source : ImportSource) (names : List ImportedName) :
    String :=
  "import \x7b " ++ ", ".intercalate (names.map (·.render)) ++ " \x7d from \""
    ++ sourceSpecifier dir source ++ "\";"

def runtimeImportLine (options : ArtifactOptions) : String :=
  "import \x7b " ++ options.elementBase ++ ", JSXBase \x7d from \"" ++
    options.runtimeModule
    ++ "/internal\";"

def importLines (t : ImportTable) (options : ArtifactOptions) : List String :=
  runtimeImportLine options
    :: t.sortedImports.map fun (source, names) =>
    importLine options.dir source names

def body (t : ImportTable) (own : List Component) (options : ArtifactOptions) :
    List String :=
  ["export namespace Components \x7b"]
    ++ own.map (componentBlock t · options.internal)
    ++ ["\x7d"]
    ++ (own.filter fun c => !(c.visibleEvents options.internal).isEmpty).map
      eventTypeBlock
    ++ ["declare global \x7b"]
    ++ own.map (elementBlock t · options.internal options.elementBase)
    ++ ["    interface HTMLElementTagNameMap \x7b"]
    ++ own.map (fun c => "        \"" ++ c.tag ++ "\": " ++ c.elementName ++ ";")
    ++ ["    \x7d", "\x7d", "declare namespace LocalJSX \x7b"]
    ++ own.map (attributeBlock t · options.internal)
    ++ ["    interface IntrinsicElements \x7b"]
    ++ own.map (fun c => "        \"" ++ c.tag ++ "\": " ++ c.pascal ++ ";")
    ++ ["    \x7d", "\x7d", "export \x7b LocalJSX as JSX \x7d;",
      "declare module \"" ++ options.runtimeModule ++ "\" \x7b",
      "    export namespace JSX \x7b",
      "        interface IntrinsicElements \x7b"]
    ++ own.map (fun c => "            \"" ++ c.tag ++ "\": LocalJSX." ++ c.pascal
      ++ " & JSXBase.HTMLAttributes<" ++ c.elementName ++ ">;")
    ++ ["        \x7d", "    \x7d", "\x7d"]

def sections (components : List Component) (options : ArtifactOptions) :
    List String :=
  let own := ownComponents components
  let t := importTable own options
  headerLines ++ importLines t options ++ body t own options

def render (components : List Component) (options : ArtifactOptions) : String :=
  joinLines (sections components options) ++ "\n"

end Declarations

end ComponentBuild
