import ComponentBuild.Component.Manifest
import ComponentBuild.Frontend.Basic

/-!
The front-end that reads component manifests.

A unit knows the manifests below the source directory by path.  It scans the
directory at first and when asked for everything; otherwise it reads again only
the manifests among the changed paths.  A snapshot has the components in the
order of their tags, each tag from the first manifest that declares it, and a
diagnostic for every other manifest.
-/

namespace ComponentBuild

def manifestEnding : String := ".component.json"

structure ManifestUnit where
  request : ProjectRequest
  manifests : SortedMap Path (Except Diagnostic Component) := ∅
  emitted : SortedSet Path := ∅
  scanned : Bool := false
  version : Nat := 0
  closed : Bool := false

namespace ManifestUnit

variable {τ : Type} [FileAccess τ]

def checkProject (source : τ) (file : Path) : Except BuildError Unit × τ :=
  match FileAccess.fetch source file with
  | (.error e, source) =>
      (.error (.passFailed ("cannot read " ++ file.text ++ ": " ++ e.message)),
        source)
  | (.ok content, source) =>
      if Json.isWellFormed content then (.ok (), source)
      else (.error (.passFailed
        ("invalid " ++ file.text ++ ": not a JSON value")), source)

def create (request : ProjectRequest) (source : τ) :
    Except BuildError ManifestUnit × τ :=
  let (checked, source) := checkProject source request.projectFile
  (checked.map fun _ => { request }, source)

/-! ## Keeping the manifests -/

def entryOf (path : Path) (content : String) : Except Diagnostic Component :=
  (Manifest.parse path content).mapError fun fault => .errorAt path fault.message

def load (u : ManifestUnit) (source : τ) (path : Path) : ManifestUnit × τ :=
  match FileAccess.fetch source path with
  | (.ok content, source) =>
      ({ u with manifests := u.manifests.insert path (entryOf path content) },
        source)
  | (.error e, source) =>
      if e.isMissing then ({ u with manifests := u.manifests.erase path }, source)
      else
        let d := .errorAt path ("cannot read manifest: " ++ e.message)
        ({ u with manifests := u.manifests.insert path (.error d) }, source)

def loadAll (u : ManifestUnit) (source : τ) (paths : List Path) :
    ManifestUnit × τ :=
  paths.foldl (fun (u, source) path => u.load source path) (u, source)

def scan (u : ManifestUnit) (source : τ) : List Diagnostic × ManifestUnit × τ :=
  let u := { u with manifests := ∅ }
  let srcDir := u.request.srcDir.normalize
  match FileAccess.findFiles source srcDir manifestEnding with
  | .error e =>
      ([.errorAt srcDir ("cannot list source directory: " ++ e.message)], u,
        source)
  | .ok found =>
      let (u, source) := u.loadAll source (found.map Path.normalize)
      ([], { u with scanned := true }, source)

def relevant (changed : List Path) : List Path :=
  SortedSet.toList <| SortedSet.ofKeys <|
    (changed.filter fun p => p.endsWith manifestEnding).map Path.normalize

/-! ## Snapshots -/

abbrev Gathered := SortedMap String (Path × Component) × List Diagnostic

def gather : Gathered → Path × Except Diagnostic Component → Gathered
  | (byTag, diagnostics), (_, .error d) => (byTag, diagnostics ++ [d])
  | (byTag, diagnostics), (path, .ok c) =>
      match byTag.get? c.tag with
      | some (first, _) =>
          let message :=
            "duplicate tag \"" ++ c.tag ++ "\", first declared in " ++ first.text
          (byTag, diagnostics ++ [.errorAt path message])
      | none => (byTag.insert c.tag (path, c), diagnostics)

def emittedFile (outDir : Path) (c : Component) : EmittedFile :=
  ⟨(outDir.child (c.tag ++ ".json")).normalize, Manifest.print c ++ "\n"⟩

def snapshot (u : ManifestUnit) (diagnostics : List Diagnostic) :
    Snapshot × ManifestUnit :=
  let (byTag, diagnostics) := u.manifests.entries.foldl gather (∅, diagnostics)
  let components := byTag.values.map (·.2)
  let emitted := match u.request.outDir with
    | some outDir => components.map (emittedFile outDir)
    | none => []
  let now : SortedSet Path := SortedSet.ofKeys (emitted.map (·.path))
  let removed := u.emitted.keys.filter fun p => !now.contains p
  let version := u.version + 1
  ({ version, components, diagnostics, emitted, removed },
    { u with emitted := now, version })

/-- Brings the manifests up to date; `none` if nothing that matters changed. -/
def refresh (u : ManifestUnit) (changed : List Path) (source : τ) :
    Option (List Diagnostic) × ManifestUnit × τ :=
  if !u.scanned || changed.isEmpty then
    let (diagnostics, u, source) := u.scan source
    (some diagnostics, u, source)
  else
    match relevant changed with
    | [] => (none, u, source)
    | paths =>
        let (u, source) := u.loadAll source paths
        (some [], u, source)

def update (u : ManifestUnit) (changed : List Path) (source : τ) :
    UpdateResult × ManifestUnit × τ :=
  if u.closed then ({}, u, source)
  else
    match checkProject source u.request.projectFile with
    | (.error e, source) => ({ ending := .failed e }, u, source)
    | (.ok (), source) =>
        match u.refresh changed source with
        | (none, u, source) => ({}, u, source)
        | (some diagnostics, u, source) =>
            let (s, u) := u.snapshot diagnostics
            ({ snapshots := [s] }, u, source)

def close (u : ManifestUnit) : ManifestUnit :=
  { u with closed := true }

def frontend : Frontend ManifestUnit τ where
  create := create
  update := update

end ManifestUnit

end ComponentBuild
