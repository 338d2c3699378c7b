import ComponentBuild.Proofs.Frontend.Listing
import ComponentBuild.Proofs.Path.Resolving

/-!
# Where emitted files go

A component is emitted under its tag, which is read as a path in the output
directory.  So a tag with slashes decides where the file goes: it may leave the
directory, and two tags may be one place.
-/

namespace ComponentBuild

open KeyOrder SortedMap

/-- The emitted files lie strictly below `dir`, each at a place of its own. -/
structure Snapshot.KeepsTo (dir : Path) (s : Snapshot) : Prop where
  below : ∀ file ∈ s.emitted, file.path.IsBelow dir
  distinct : (s.emitted.map fun file => file.path.parts).Nodup

namespace ManifestUnit

/-! ## Components by tag -/

def KeyedByTag (byTag : SortedMap String (Path × Component)) : Prop :=
  ∀ e ∈ byTag.entries, e.2.2.tag = e.1

theorem KeyedByTag.gather {gathered : Gathered} (h : KeyedByTag gathered.1)
    (entry : Path × Except Diagnostic Component) :
    KeyedByTag (gather gathered entry).1 := by
  obtain ⟨byTag, diagnostics⟩ := gathered
  obtain ⟨path, d | c⟩ := entry
  · exact h
  · cases hfirst : byTag.get? c.tag with
    | some first =>
        rw [ManifestUnit.gather, hfirst]
        exact h
    | none =>
        rw [ManifestUnit.gather, hfirst]
        intro e he
        rcases mem_insertEntry he with rfl | he | ⟨other, -, hsame, rfl⟩
        · rfl
        · exact h e he
        · exact (same_iff_eq.1 hsame).symm

theorem KeyedByTag.tags {byTag : SortedMap String (Path × Component)}
    (h : KeyedByTag byTag) :
    (byTag.values.map (·.2)).map (·.tag) = byTag.keys := by
  rw [values, keys, List.map_map, List.map_map]
  exact List.map_congr_left h

theorem KeyedByTag.nodup {byTag : SortedMap String (Path × Component)}
    (h : KeyedByTag byTag) :
    ((byTag.values.map (·.2)).map (·.tag)).Nodup := by
  rw [h.tags]
  exact byTag.nodup_keys

theorem keyedByTag_empty : KeyedByTag ∅ := by
  intro e he
  cases he

private theorem nodup_tags_snapshot (u : ManifestUnit)
    (diagnostics : List Diagnostic) :
    ((u.snapshot diagnostics).1.components.map (·.tag)).Nodup := by
  have hkeyed :
      KeyedByTag (u.manifests.entries.foldl gather (∅, diagnostics)).1 :=
    List.foldlRecOn (motive := fun gathered : Gathered => KeyedByTag gathered.1)
      _ _ keyedByTag_empty
      fun gathered h entry _ => h.gather entry
  exact hkeyed.nodup

/-! ## Places of emitted files -/

def emittedName (c : Component) : Path :=
  ⟨c.tag ++ ".json"⟩

theorem path_emittedFile (dir : Path) (c : Component) :
    (emittedFile dir c).path = Path.resolve dir (emittedName c) := by
  rw [← Path.normalize_join, emittedName, emittedFile, Path.child]

theorem emitted_snapshot {u : ManifestUnit} {dir : Path}
    (hout : u.request.outDir = some dir) (diagnostics : List Diagnostic) :
    (u.snapshot diagnostics).1.emitted =
      (u.snapshot diagnostics).1.components.map (emittedFile dir) := by
  simp only [snapshot, hout]

private theorem isName_emittedName {c : Component} (h : '/' ∉ c.tag.toList) :
    PathPart.IsName (c.tag ++ ".json") := by
  have hjson : Path.IsEnding ".json" := ⟨by decide, by decide⟩
  exact hjson.isName (by simp) (by simp [h])

private theorem nodup_onward_of_plain {components : List Component}
    (htags : (components.map (·.tag)).Nodup)
    (hplain : ∀ c ∈ components, '/' ∉ c.tag.toList) (dir : Path) :
    (components.map fun c => Path.onward dir (emittedName c)).Nodup := by
  have honward : components.map (fun c => Path.onward dir (emittedName c)) =
      (components.map (·.tag)).map fun tag =>
      [PathPart.name (tag ++ ".json")] := by
    rw [List.map_map]
    exact List.map_congr_left fun c hc =>
      (Path.enters_name (isName_emittedName (hplain c hc))).2
  rw [honward]
  refine htags.map fun tag other heq => ?_
  simpa using heq

section

variable {u : ManifestUnit} {dir : Path} (hout : u.request.outDir = some dir)
  (hdir : dir.isAbsolute = true) {diagnostics : List Diagnostic}

include hout hdir

private theorem places_emitted
    (henters : ∀ c ∈ (u.snapshot diagnostics).1.components,
      Path.Enters dir (emittedName c)) :
    (u.snapshot diagnostics).1.emitted.map (fun file => file.path.parts) =
      ((u.snapshot diagnostics).1.components.map fun c =>
        Path.onward dir (emittedName c)).map
        (dir.normalize.parts ++ ·) := by
  rw [emitted_snapshot hout, List.map_map, List.map_map]
  refine List.map_congr_left fun c hc => ?_
  rw [Function.comp_apply, path_emittedFile]
  exact (henters c hc).parts_resolve hdir

private theorem emitted_below_iff :
    (∀ file ∈ (u.snapshot diagnostics).1.emitted,
      file.path.IsBelow dir.normalize) ↔
      ∀ c ∈ (u.snapshot diagnostics).1.components,
      Path.Enters dir (emittedName c) := by
  rw [emitted_snapshot hout, List.forall_mem_map]
  refine forall₂_congr fun c _ => ?_
  rw [path_emittedFile, Path.isBelow_resolve_iff hdir]

private theorem keepsTo_iff :
    (u.snapshot diagnostics).1.KeepsTo dir.normalize ↔
      (∀ c ∈ (u.snapshot diagnostics).1.components,
        Path.Enters dir (emittedName c)) ∧
        ((u.snapshot diagnostics).1.components.map fun c =>
          Path.onward dir (emittedName c)).Nodup := by
  constructor
  · intro h
    have henters := (emitted_below_iff hout hdir).1 h.below
    have hdistinct := h.distinct
    rw [places_emitted hout hdir henters] at hdistinct
    exact ⟨henters, hdistinct.of_map _⟩
  · rintro ⟨henters, hnodup⟩
    refine ⟨(emitted_below_iff hout hdir).2 henters, ?_⟩
    rw [places_emitted hout hdir henters]
    exact hnodup.map (List.append_right_injective _)

end

/-- The emitted files lie strictly below the output directory and at different
places exactly if every tag, read as a path, enters again the directories that
it leaves, and goes on differently for different components.  So it is if no tag
has a slash. -/
theorem snapshot_keepsTo_iff {u : ManifestUnit} {dir : Path}
    (hout : u.request.outDir = some dir) (hdir : dir.isAbsolute = true)
    (diagnostics : List Diagnostic) :
    let s := (u.snapshot diagnostics).1
    (s.KeepsTo dir.normalize ↔
      (∀ c ∈ s.components, Path.Enters dir (emittedName c)) ∧
        (s.components.map fun c => Path.onward dir (emittedName c)).Nodup) ∧
    ((∀ c ∈ s.components, '/' ∉ c.tag.toList) → s.KeepsTo dir.normalize) := by
  intro s
  refine ⟨keepsTo_iff hout hdir,
    fun hplain => (keepsTo_iff hout hdir).2 ⟨fun c hc => ?_, ?_⟩⟩
  · exact (Path.enters_name (isName_emittedName (hplain c hc))).1
  · exact nodup_onward_of_plain (u.nodup_tags_snapshot diagnostics) hplain dir

/-! ## Tags with slashes -/

def unitReading (files : FileMap) : ManifestUnit where
  request := { projectFile := ⟨"/p"⟩, srcDir := ⟨"/s"⟩, outDir := some ⟨"/o"⟩ }
  manifests := listing files

def manifestA : Path := ⟨"/s/a.component.json"⟩

def manifestB : Path := ⟨"/s/b.component.json"⟩

/-- One tag leaves the output directory and comes back, the other leaves a
directory below it. -/
def returning : ManifestUnit :=
  unitReading (.ofList
    [(manifestA, "[\"../o/./c-d\", \"a\"]"),
      (manifestB, "[\"a/../a-b\", \"b\"]")])

theorem snapshot_keepsTo_iff_returning :
    returning.request.outDir = some ⟨"/o"⟩ ∧ Path.isAbsolute ⟨"/o"⟩ = true ∧
      (returning.snapshot []).1.emitted.map (·.path) = [⟨"/o/c-d.json"⟩,
        ⟨"/o/a-b.json"⟩] ∧
      (returning.snapshot []).1.KeepsTo (Path.normalize ⟨"/o"⟩) := by
  have hout : returning.request.outDir = some ⟨"/o"⟩ := rfl
  have hdir : Path.isAbsolute ⟨"/o"⟩ = true := by decide
  obtain ⟨hiff, -⟩ := snapshot_keepsTo_iff hout hdir []
  exact ⟨hout, hdir, by decide +kernel, hiff.2 (by decide +kernel)⟩

def leavingTag : ManifestUnit :=
  unitReading (.ofList [(manifestA, "[\"../x-y\", \"a\"]")])

def oneTagTwice : ManifestUnit :=
  unitReading (.ofList
    [(manifestA, "[\"a-b\", \"a\"]"), (manifestB, "[\"./a-b\", \"b\"]")])

/-- Manifests are accepted with a tag that leaves the output directory, and with
two spellings of one place. -/
theorem tags_leave_and_collide :
    (leavingTag.snapshot []).1.diagnostics = [] ∧
      (leavingTag.snapshot []).1.emitted.map (·.path) = [⟨"/x-y.json"⟩] ∧
      ¬ (∀ file ∈ (leavingTag.snapshot []).1.emitted,
        file.path.IsBelow (Path.normalize ⟨"/o"⟩)) ∧
      (oneTagTwice.snapshot []).1.diagnostics = [] ∧
      (oneTagTwice.snapshot []).1.components.map (·.tag) = ["./a-b", "a-b"] ∧
      (oneTagTwice.snapshot []).1.emitted.map (·.path) = [⟨"/o/a-b.json"⟩,
        ⟨"/o/a-b.json"⟩] := by
  decide +kernel

end ManifestUnit

end ComponentBuild
