import ComponentBuild.Component.Basic
import ComponentBuild.Path.Normal

/-!
The import table: which names are imported from which source, and under which
alias.

A source is a file of the project, known by its normal path, or a package, known
by its specifier.  An alias is unique in the whole table and is never a reserved
name.  A name keeps its own spelling if that is still free; otherwise the least
free number is appended.
-/

namespace ComponentBuild

/-! ## Sources -/

/-- Where an imported type is declared.  Files come before packages. -/
inductive ImportSource where
  | file (path : Path)
  | package (specifier : String)
  deriving DecidableEq, Repr

namespace ImportSource

def key : ImportSource → Nat × List (PathPart String) × String
  | file path => (0, path.parts, "")
  | package specifier => (1, [], specifier)

instance : KeyOrder ImportSource := KeyOrder.byKey key

def isRelative (specifier : String) : Bool :=
  "./".toList.isPrefixOf specifier.toList ||
  "../".toList.isPrefixOf specifier.toList
    || specifier == "." || specifier == ".."

/-- The source of a name that a component refers to; a global name has none. -/
def ofReference? (c : Component) : TypeReference → Option ImportSource
  | .here => some (file c.sourceFile.normalize)
  | .imported path =>
      if isRelative path then some (file (Path.resolve c.sourceDir ⟨path⟩))
      else some (package path)
  | .ambient => none

end ImportSource

/-! ## The table -/

structure ImportTable where
  imports : SortedMap ImportSource (SortedMap String String) := ∅
  /-- All reserved names and all aliases given so far. -/
  taken : SortedSet String := ∅
  suffixes : SortedMap String Nat := ∅
  deriving DecidableEq, Repr

structure ImportedName where
  name : String
  /-- What the name is called where it is imported. -/
  given : String
  deriving DecidableEq, Repr

def ImportedName.render (n : ImportedName) : String :=
  if n.name = n.given then n.name else n.name ++ " as " ++ n.given

namespace ImportTable

def empty : ImportTable := {}

def reserve (t : ImportTable) (name : String) : ImportTable :=
  { t with taken := t.taken.add name }

def withReserved (names : List String) : ImportTable :=
  names.foldl reserve empty

def aliasOf? (t : ImportTable) (source : ImportSource) (name : String) :
    Option String :=
  (t.imports.get? source).bind (·.get? name)

def numbered (name : String) (k : Nat) : String :=
  name ++ toString k

/-- The first number from `k` on that makes a name which is not taken, looking
at most `fuel` numbers ahead.  As many numbers as there are taken names are
enough. -/
def freeNumber (taken : SortedSet String) (name : String) :
    (fuel : Nat) → (k : Nat) → Nat
  | 0, k => k
  | fuel + 1, k =>
      if taken.contains (numbered name k)
        then freeNumber taken name fuel (k + 1) else k

def takeAlias (t : ImportTable) (name : String) : String × ImportTable :=
  if t.taken.contains name then
    let last := (t.suffixes.get? name).getD 0
    let k := freeNumber t.taken name t.taken.size (last + 1)
    let given := numbered name k
    (given, { t with
      taken := t.taken.add given
      suffixes := t.suffixes.insert name k })
  else
    (name, { t with taken := t.taken.add name })

/-- Imports a name from a source and returns its alias.  A pair that is already
there keeps the alias it has. -/
def insert (t : ImportTable) (source : ImportSource) (name : String) :
    String × ImportTable :=
  match t.aliasOf? source name with
  | some given => (given, t)
  | none =>
      let (given, t) := t.takeAlias name
      let names := ((t.imports.get? source).getD ∅).insert name given
      (given, { t with imports := t.imports.insert source names })

def size (t : ImportTable) : Nat :=
  (t.imports.values.map (·.size)).foldr (· + ·) 0

def isEmpty (t : ImportTable) : Bool :=
  t.imports.isEmpty

def sortedImports (t : ImportTable) : List (ImportSource × List ImportedName) :=
  t.imports.entries.map fun (source, names) =>
    (source, names.entries.map fun (name, given) => ⟨name, given⟩)

/-! ## Filling the table from components -/

def insertReferences (t : ImportTable) (c : Component) (references : References) :
    ImportTable :=
  references.entries.foldl
    (fun t (name, reference) =>
      match ImportSource.ofReference? c reference with
      | some source => (t.insert source name).2
      | none => t)
    t

def addComponent (t : ImportTable) (c : Component) (internal : Bool) :
    ImportTable :=
  (c.visibleReferences internal).foldl (·.insertReferences c ·) t

def renames (t : ImportTable) (c : Component) (references : References) :
    SortedMap String String :=
  .ofList <| references.entries.filterMap fun (name, reference) => do
    let source ← ImportSource.ofReference? c reference
    let given ← t.aliasOf? source name
    if given = name then none else some (name, given)

end ImportTable

/-- The global type names that any member refers to, each once, in the order of
first mention. -/
def ambientNames (components : List Component) : List String :=
  let mentioned := components.flatMap fun c =>
    (c.visibleReferences true).flatMap fun references =>
      references.entries.filterMap fun (name, reference) =>
        if reference = .ambient then some name else none
  mentioned.foldl (fun names name => if names.contains name then names
    else names ++ [name]) []

end ComponentBuild
