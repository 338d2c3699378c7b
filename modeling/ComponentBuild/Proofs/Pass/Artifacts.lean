import ComponentBuild.Proofs.Declarations.InternalMembers
import ComponentBuild.Proofs.Pass.Build
import ComponentBuild.Proofs.Path.Ending
import ComponentBuild.Proofs.Workspace.Commit

/-!
# The artifacts that a pass leaves

Declarations are staged for the source tree and then for each destination.  All
of them go through one map of staged writes, where the last write of a path
wins.  So every destination ends up with the public declarations, and the source
tree keeps its own unless it is a destination too.
-/

namespace ComponentBuild

open KeyOrder SortedMap

namespace Pass

/-! ## Where artifacts go -/

def artifactPath (dir : Path) : Path :=
  dir.child Declarations.fileName

theorem isStep_fileName : (PathPart.name Declarations.fileName).IsStep :=
  ⟨by decide, by decide, by decide, by decide⟩

private theorem parts_artifactPath (dir : Path) :
    (artifactPath dir).parts = dir.parts ++ [.name Declarations.fileName] := by
  have hchild := Path.parts_child dir isStep_fileName
  rw [PathPart.text] at hchild
  exact hchild

private theorem parts_normalize_artifactPath {dir : Path} (h : dir.IsNormal) :
    (artifactPath dir).normalize.parts = dir.parts ++
      [.name Declarations.fileName] := by
  have hdir : (dir.parts.foldl Path.normalStep []).reverse = dir.parts :=
    h.normalParts_eq
  rw [Path.parts_normalize, parts_artifactPath, Path.normalParts,
    List.foldl_append, List.foldl_cons,
    List.foldl_nil, Path.normalStep_name, List.reverse_cons, hdir]

theorem same_artifactPath_iff {dir dir' : Path} (h : dir.IsNormal)
    (h' : dir'.IsNormal) :
    same (artifactPath dir).normalize (artifactPath dir') = true ↔
      dir = dir' := by
  rw [Path.same_key_iff, parts_normalize_artifactPath h, parts_artifactPath,
    List.append_cancel_right_eq]
  constructor
  · exact h.eq_of_parts h'
  · exact congrArg Path.parts

private theorem isNormal_sourceDir (config : Config) :
    config.sourceDir.IsNormal :=
  Path.isNormal_resolve _ _

private theorem isNormal_of_mem_typeDestinations {config : Config} {dir : Path}
    (h : dir ∈ config.typeDestinations) : dir.IsNormal := by
  obtain ⟨written, -, rfl⟩ := List.mem_map.1 h
  exact Path.isNormal_resolve _ _

private theorem renderTypes_internal {components : List Component}
    (h : ∀ c ∈ Declarations.ownComponents components, c.withoutInternal = c)
    (config : Config) (dir : Path) :
    renderTypes config components dir false =
      renderTypes config components dir true := by
  let options : ArtifactOptions :=
    { dir, runtimeModule := config.runtimeModule,
      elementBase := config.elementBase, internal := true }
  exact Declarations.render_internal h options false

/-! ## Staging artifacts -/

variable {σ : Type} {config : Config} {s t u : State σ}

/-- From `s` to `t` the artifacts of the given directories were staged, each
with or without internal members, and nothing else changed that they are made
of. -/
structure Staged (config : Config) (targets : List (Path × Bool))
    (s t : State σ) : Prop where
  storage : t.workspace.storage = s.workspace.storage
  components : t.record.components = s.record.components
  pending : t.workspace.pending = targets.foldl (fun pending target =>
    pending.insert (artifactPath target.1).normalize
      (.write (renderTypes config s.record.components target.1 target.2)))
        s.workspace.pending

theorem Staged.trans {targets targets' : List (Path × Bool)}
    (h : Staged config targets s t) (h' : Staged config targets' t u) :
    Staged config (targets ++ targets') s u where
  storage := h'.storage.trans h.storage
  components := h'.components.trans h.components
  pending := by rw [h'.pending, h.pending, h.components, List.foldl_append]

theorem components_addDiagnostics (r : PassRecord) (ds : List Diagnostic) :
    (r.addDiagnostics ds).components = r.components :=
  List.foldlRecOn (motive := fun r' : PassRecord => r'.components =
    r.components) _ _ rfl
    fun r' h d _ => by
      unfold PassRecord.addDiagnostic
      split <;> exact h

theorem components_opened (w : Workspace σ) (r : PassRecord)
    (snapshot : Snapshot) :
    (opened w r snapshot).record.components = snapshot.components :=
  components_addDiagnostics _ _

private theorem storage_opened (w : Workspace σ) (r : PassRecord)
    (snapshot : Snapshot) :
    (opened w r snapshot).workspace.storage = w.storage := by
  have hwritten :
      (snapshot.emitted.foldl (fun w file => w.stageWrite file.path file.content)
      w).storage = w.storage :=
    List.foldlRecOn (motive := fun v : Workspace σ => v.storage = w.storage) _ _
      rfl
      fun v h file _ => h
  exact List.foldlRecOn (motive := fun v : Workspace σ => v.storage = w.storage)
    _ _ hwritten
    fun v h path _ => h

variable [Storage σ]

theorem exists_writeFile_staged (w : Workspace σ) (path : Path)
    (content : String) :
    ∃ changed, w.writeFile path content false =
      (.ok ⟨changed, true⟩, (w.readAt path.normalize).2.stageAt path.normalize
        (.write content)) :=
  ⟨_, rfl⟩

theorem staged_stageTypes (config : Config) (s : State σ) (dir : Path)
    (internal : Bool) :
    Staged config [(dir, internal)] s (stageTypes config s dir internal).2 := by
  obtain ⟨changed, hwrite⟩ :=
    exists_writeFile_staged s.workspace (artifactPath dir)
    (renderTypes config s.record.components dir internal)
  rw [artifactPath] at hwrite
  simp only [stageTypes, hwrite]
  refine ⟨Workspace.storage_readAt _ _, rfl, ?_⟩
  rw [Workspace.stageAt, Workspace.pending_readAt]
  rfl

theorem staged_generateTypes (config : Config) (s : State σ) :
    Staged config ((config.sourceDir, true) :: config.typeDestinations.map (·,
      false)) s
      (generateTypes config s) := by
  have hfold (dirs : List Path) (t : State σ) :
      Staged config (dirs.map (·, false)) t
      (dirs.foldl (fun s dir => (stageTypes config s dir false).2) t) := by
    induction dirs generalizing t with
    | nil => exact ⟨rfl, rfl, rfl⟩
    | cons dir dirs ih =>
        exact (staged_stageTypes config t dir false).trans (ih _)
  have hsource := staged_stageTypes config s config.sourceDir true
  have hmarked : Staged config [(config.sourceDir, true)] s
      { (stageTypes config s config.sourceDir true).2 with
        record.declarationsChanged :=
          (stageTypes config s config.sourceDir true).1 } :=
    ⟨hsource.storage, hsource.components, hsource.pending⟩
  exact hmarked.trans (hfold _ _)

/-! ## The last write of an artifact -/

private theorem pending_of_destination {dest : Path}
    (h : dest ∈ config.typeDestinations) (s : State σ) :
    (generateTypes config s).workspace.pending.get? (artifactPath dest) =
      some (.write (renderTypes config s.record.components dest false)) := by
  have hdest := isNormal_of_mem_typeDestinations h
  rw [(staged_generateTypes config s).pending, List.foldl_cons, List.foldl_map]
  refine get?_foldl_insert (fun dir hdir hsame => ?_) (.inr ⟨dest, h, ?_⟩)
  · rw [(same_artifactPath_iff (isNormal_of_mem_typeDestinations hdir) hdest).1
      hsame]
  · exact (same_artifactPath_iff hdest hdest).2 rfl

theorem pending_of_source (h : config.sourceDir ∉ config.typeDestinations)
    (s : State σ) :
    (generateTypes config s).workspace.pending.get?
      (artifactPath config.sourceDir) =
      some (.write (renderTypes config s.record.components
        config.sourceDir true)) := by
  have hsource := isNormal_sourceDir config
  rw [(staged_generateTypes config s).pending, List.foldl_cons, List.foldl_map]
  refine get?_foldl_insert (fun dir hdir hsame => ?_) (.inl ?_)
  · rw [same_artifactPath_iff (isNormal_of_mem_typeDestinations hdir) hsource]
      at hsame
    exact absurd (hsame ▸ hdir) h
  · rw [get?_insert, if_pos ((same_artifactPath_iff hsource hsource).2 rfl)]

/-! ## Through the commit -/

theorem storage_generated (config : Config) (w : Workspace MemoryStore)
    (r : PassRecord) (snapshot : Snapshot) :
    (generateTypes config (opened w r snapshot)).workspace.storage = w.storage :=
  (staged_generateTypes config (opened w r snapshot)).storage.trans
    (storage_opened w r snapshot)

theorem failing_build (config : Config) (w : Workspace MemoryStore)
    (r : PassRecord) (snapshot : Snapshot) :
    (build config w r snapshot).workspace.storage.failing =
      w.storage.failing := by
  have hbuild : (build config w r snapshot).workspace =
      (generateTypes config (opened w r snapshot)).workspace.commit.2 := rfl
  rw [hbuild, Commit.commit_eq, Commit.failing_finished, storage_generated]

/-- On a storage without failing paths everything that is staged in the end
takes effect. -/
theorem content_build {w : Workspace MemoryStore} (hw : w.storage.failing = ∅)
    (config : Config) (r : PassRecord) (snapshot : Snapshot) (p : Path) :
    (build config w r snapshot).workspace.storage.get? p =
      Change.applied ((generateTypes config
        (opened w r snapshot)).workspace.pending.get? p)
        (w.storage.get? p) := by
  have hstorage := storage_generated config w r snapshot
  have hfailing :
      (generateTypes config (opened w r
        snapshot)).workspace.storage.failing.contains p =
      false := by
    rw [hstorage, hw]
    rfl
  have hbuild : (build config w r snapshot).workspace =
      (generateTypes config (opened w r snapshot)).workspace.commit.2 := rfl
  rw [hbuild, Commit.commit_eq, MemoryStore.get?,
    Commit.content_applied _ hfailing, hstorage, MemoryStore.get?]

theorem stored_build {w : Workspace MemoryStore} (hw : w.storage.failing = ∅)
    (config : Config) (r : PassRecord) (snapshot : Snapshot) {p : Path}
    {content : String}
    (h : (generateTypes config (opened w r snapshot)).workspace.pending.get? p =
      some (.write content)) :
    (build config w r snapshot).workspace.storage.get? p = some content := by
  rw [content_build hw, h]
  rfl

private theorem stored_of_destination {w : Workspace MemoryStore}
    (hw : w.storage.failing = ∅) {dest : Path}
    (h : dest ∈ config.typeDestinations) (r : PassRecord) (snapshot : Snapshot) :
    (build config w r snapshot).workspace.storage.get? (artifactPath dest) =
      some (renderTypes config snapshot.components dest false) := by
  apply stored_build hw
  rw [pending_of_destination h, components_opened]

/-- After a pass on a storage without failing paths every destination holds the
public declarations relative to it.  The source tree holds its own, with
internal members, exactly if it is no destination or these are the same; they
are the same if no component has an internal member. -/
theorem artifacts_after_pass (config : Config) {w : Workspace MemoryStore}
    (hw : w.storage.failing = ∅) (r : PassRecord) (snapshot : Snapshot) :
    let stored := (build config w r snapshot).workspace.storage
    let rendered := renderTypes config snapshot.components
    (∀ dest ∈ config.typeDestinations,
      stored.get? (dest.child Declarations.fileName) =
        some (rendered dest false)) ∧
    (stored.get? (sourceTypesPath config) =
      some (rendered config.sourceDir true) ↔
      (config.sourceDir ∈ config.typeDestinations →
        rendered config.sourceDir false = rendered config.sourceDir true)) ∧
    ((∀ c ∈ Declarations.ownComponents snapshot.components,
      c.withoutInternal = c) →
      stored.get? (sourceTypesPath config) =
        some (rendered config.sourceDir true)) := by
  intro stored rendered
  have hdests : ∀ dest ∈ config.typeDestinations,
      stored.get? (artifactPath dest) = some (rendered dest false) :=
    fun dest hdest => stored_of_destination hw hdest r snapshot
  have hsource :
      stored.get? (artifactPath config.sourceDir) =
        some (rendered config.sourceDir true) ↔
      (config.sourceDir ∈ config.typeDestinations →
        rendered config.sourceDir false = rendered config.sourceDir true) := by
    by_cases hmem : config.sourceDir ∈ config.typeDestinations
    · rw [hdests _ hmem, Option.some.injEq]
      exact ⟨fun h _ => h, fun h => h hmem⟩
    · refine ⟨fun _ h => absurd h hmem, fun _ => ?_⟩
      apply stored_build hw
      rw [pending_of_source hmem, components_opened]
  refine ⟨hdests, hsource, fun hnone => hsource.2 fun _ => ?_⟩
  exact renderTypes_internal hnone config config.sourceDir

/-! ## The source tree as a destination -/

def secretCard : Component where
  tag := "x-a"
  sourceFile := ⟨"/app/src/a.tsx"⟩
  properties := [{ name := "secret", typeText := "string", internal := true }]

def secretSnapshot : Snapshot where
  version := 1
  components := [secretCard]
  emitted := [⟨⟨"/app/types/components.d.ts"⟩, "emitted"⟩]

def sharingConfig : Config where
  rootDir := ⟨"/app"⟩
  destinations := [⟨"dist/..//types/"⟩, ⟨"./src"⟩]

private theorem rendered_secretCard_ne :
    renderTypes sharingConfig [secretCard] ⟨"/app/src"⟩ false ≠
      renderTypes sharingConfig [secretCard] ⟨"/app/src"⟩ true := by
  decide +kernel

theorem artifacts_after_pass_sharing :
    let w : Workspace MemoryStore := Workspace.ofStorage .empty
    let stored :=
      (build sharingConfig w (.fullBuild 1) secretSnapshot).workspace.storage
    w.storage.failing = ∅ ∧
      stored.get? (artifactPath ⟨"/app/types"⟩) =
        some (renderTypes sharingConfig [secretCard] ⟨"/app/types"⟩ false) ∧
      ¬ stored.get? (sourceTypesPath sharingConfig) =
        some (renderTypes sharingConfig [secretCard]
          sharingConfig.sourceDir true) := by
  intro w stored
  have hw : w.storage.failing = ∅ := rfl
  obtain ⟨hdests, hsource, -⟩ :=
    artifacts_after_pass sharingConfig hw (.fullBuild 1) secretSnapshot
  refine ⟨hw, hdests ⟨"/app/types"⟩ (by decide +kernel),
    fun h => rendered_secretCard_ne ?_⟩
  have hdir : sharingConfig.sourceDir = ⟨"/app/src"⟩ := by decide +kernel
  have heq := hsource.1 h (by decide +kernel)
  rwa [hdir] at heq

/-- The internal member is lost from the source tree. -/
theorem source_artifact_replaced :
    let w : Workspace MemoryStore := Workspace.ofStorage .empty
    let stored :=
      (build sharingConfig w (.fullBuild 1) secretSnapshot).workspace.storage
    w.storage.failing = ∅ ∧ sharingConfig.sourceDir = ⟨"/app/src"⟩ ∧
      sharingConfig.sourceDir ∈ sharingConfig.typeDestinations ∧
      stored.get? (artifactPath ⟨"/app/src"⟩) =
        some (renderTypes sharingConfig [secretCard] ⟨"/app/src"⟩ false) ∧
      stored.get? (artifactPath ⟨"/app/src"⟩) ≠
        some (renderTypes sharingConfig [secretCard] ⟨"/app/src"⟩ true) := by
  intro w stored
  have hw : w.storage.failing = ∅ := rfl
  have hmem : (⟨"/app/src"⟩ : Path) ∈ sharingConfig.typeDestinations := by
    decide +kernel
  have hstored : stored.get? (artifactPath ⟨"/app/src"⟩) =
      some (renderTypes sharingConfig [secretCard] ⟨"/app/src"⟩ false) :=
    stored_of_destination hw hmem (.fullBuild 1) secretSnapshot
  have hdir : sharingConfig.sourceDir = ⟨"/app/src"⟩ := by decide +kernel
  refine ⟨hw, hdir, hdir ▸ hmem, hstored, fun h => rendered_secretCard_ne ?_⟩
  rw [hstored] at h
  exact Option.some.inj h

end Pass

end ComponentBuild
