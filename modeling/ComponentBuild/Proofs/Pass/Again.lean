import ComponentBuild.Proofs.Pass.Artifacts
import ComponentBuild.Proofs.Workspace.InPlace

/-!
# A pass over again

What a pass stages depends on the configuration and the snapshot alone, and it
stages no removal of a directory.  So after a pass everything that another one
for the same snapshot stages is in place.
-/

namespace ComponentBuild.Pass

open KeyOrder SortedMap

/-! ## What a pass stages -/

def snapshotChanges (snapshot : Snapshot) : List (Path × Change) :=
  snapshot.emitted.map (fun file => (file.path.normalize, .write file.content))
    ++ snapshot.removed.map fun path => (path.normalize, .removeFile)

def artifactTargets (config : Config) : List (Path × Bool) :=
  (config.sourceDir, true) :: config.typeDestinations.map (·, false)

def stagedChanges (config : Config) (snapshot : Snapshot) :
    List (Path × Change) :=
  snapshotChanges snapshot ++ (artifactTargets config).map fun target =>
    ((artifactPath target.1).normalize,
      .write (renderTypes config snapshot.components target.1 target.2))

private theorem ne_removeDir_of_mem_stagedChanges {config : Config}
    {snapshot : Snapshot} {e : Path × Change}
    (h : e ∈ stagedChanges config snapshot) : e.2 ≠ .removeDir := by
  rcases List.mem_append.1 h with h | h
  · rcases List.mem_append.1 h with h | h
    · obtain ⟨file, -, rfl⟩ := List.mem_map.1 h
      simp
    · obtain ⟨path, -, rfl⟩ := List.mem_map.1 h
      simp
  · obtain ⟨target, -, rfl⟩ := List.mem_map.1 h
    simp

section

variable {σ : Type}

private theorem pending_stageSnapshot (w : Workspace σ) (snapshot : Snapshot) :
    (stageSnapshot w snapshot).pending =
      (snapshotChanges snapshot).foldl (fun pending e => pending.insert e.1 e.2)
        w.pending := by
  rw [snapshotChanges, List.foldl_append, List.foldl_map, List.foldl_map]
  have hwrites (w : Workspace σ) :
      (snapshot.emitted.foldl (fun w file =>
        w.stageWrite file.path file.content) w).pending =
        snapshot.emitted.foldl (fun pending file =>
          pending.insert file.path.normalize (.write file.content)) w.pending :=
    (List.foldl_hom Workspace.pending fun _ _ => rfl).symm
  have hremovals (w : Workspace σ) :
      (snapshot.removed.foldl Workspace.stageRemove w).pending =
        snapshot.removed.foldl (fun pending path =>
          pending.insert path.normalize .removeFile) w.pending :=
    (List.foldl_hom Workspace.pending fun _ _ => rfl).symm
  rw [stageSnapshot, hremovals, hwrites]

private theorem pending_generated [Storage σ] (config : Config)
    (w : Workspace σ) (r : PassRecord) (snapshot : Snapshot) :
    (generateTypes config (opened w r snapshot)).workspace.pending =
      (stagedChanges config snapshot).foldl
        (fun pending e => pending.insert e.1 e.2) w.pending := by
  rw [(staged_generateTypes config _).pending, components_opened, stagedChanges,
    List.foldl_append, List.foldl_map, ← pending_stageSnapshot]
  rfl

end

/-! ## What a pass records -/

section

variable {σ : Type} [Storage σ]

private theorem record_stageTypes (config : Config) (s : State σ) (dir : Path)
    (internal : Bool) :
    (stageTypes config s dir internal).2.record = s.record := by
  obtain ⟨changed, hwrite⟩ :=
    exists_writeFile_staged s.workspace (artifactPath dir)
    (renderTypes config s.record.components dir internal)
  rw [artifactPath] at hwrite
  simp only [stageTypes, hwrite]

private theorem exists_record_generateTypes (config : Config) (s : State σ) :
    ∃ changed, (generateTypes config s).record =
      { s.record with declarationsChanged := changed } := by
  have hfold (dirs : List Path) (t : State σ) :
      (dirs.foldl (fun s dir => (stageTypes config s dir false).2) t).record =
        t.record := by
    induction dirs generalizing t with
    | nil => rfl
    | cons dir dirs ih =>
        exact (ih _).trans (record_stageTypes config t dir false)
  have hmarked (t : State σ) (changed : Bool) (ht : t.record = s.record) :
      { t with record.declarationsChanged := changed }.record =
        { s.record with declarationsChanged := changed } := by
    rw [← ht]
  exact ⟨_, (hfold _ _).trans (hmarked _ _
    (record_stageTypes config s config.sourceDir true))⟩

theorem record_build_of_idle {config : Config} {w : Workspace σ}
    {snapshot : Snapshot} {r : PassRecord}
    (h : (generateTypes config (opened w r snapshot)).workspace.commit.1 = {}) :
    (build config w r snapshot).record =
      { (opened w r snapshot).record with
        written := [], deleted := [], dirsAdded := [], dirsDeleted := []
        declarationsChanged := false } := by
  obtain ⟨changed, hrecord⟩ :=
    exists_record_generateTypes config (opened w r snapshot)
  have hbuild : (build config w r snapshot).record =
      recordCommit config (generateTypes config (opened w r snapshot)).record
        (generateTypes config (opened w r snapshot)).workspace.commit.1 := rfl
  rw [hbuild, h, hrecord]
  rfl

end

/-! ## After a pass -/

variable {w v : Workspace MemoryStore}

private theorem inPlace_build (hfailing : w.storage.failing = ∅)
    (config : Config) (r : PassRecord) (snapshot : Snapshot) {p : Path}
    {change : Change}
    (h : (p, change) ∈ (generateTypes config
      (opened w r snapshot)).workspace.pending.entries)
    (hkind : change ≠ .removeDir) :
    change.InPlace (build config w r snapshot).workspace.storage p := by
  have hbuild : (build config w r snapshot).workspace =
      (generateTypes config (opened w r snapshot)).workspace.commit.2 := rfl
  rw [hbuild, Commit.commit_eq]
  exact Commit.inPlace_finished (by rw [storage_generated, hfailing]) h hkind

/-- A pass for the snapshot of an earlier one, on the storage as that one left
it, changes nothing and records nothing but the diagnostics of the snapshot.
What the workspace has cached does not matter. -/
theorem build_again (config : Config) (hfailing : w.storage.failing = ∅)
    (r r' : PassRecord) (snapshot : Snapshot)
    (hstorage : v.storage = (build config w r snapshot).workspace.storage)
    (hpending : v.pending = ∅) :
    (build config v r' snapshot).workspace.storage = v.storage ∧
      (build config v r' snapshot).record =
        { PassRecord.addDiagnostics { r' with components := snapshot.components }
            snapshot.diagnostics with
          written := [], deleted := [], dirsAdded := [], dirsDeleted := []
          declarationsChanged := false } := by
  let first := (generateTypes config (opened w r snapshot)).workspace
  let second := (generateTypes config (opened v r' snapshot)).workspace
  have hsecond : second.storage = v.storage :=
    storage_generated config v r' snapshot
  have hplaced : ∀ p change, (p, change) ∈ second.pending.entries →
      change.InPlace second.storage p := by
    intro p change h
    have hget := get?_eq_some_of_mem h
    rw [pending_generated, get?_foldl_insert_eq, hpending, get?_empty,
      Option.or_none] at hget
    obtain ⟨e, he, rfl⟩ := Option.map_eq_some_iff.1 hget
    have hkind :=
      ne_removeDir_of_mem_stagedChanges
        (List.mem_reverse.1 (List.mem_of_find?_eq_some he))
    have hfirst : first.pending.get? p = some e.2 := by
      rw [pending_generated, get?_foldl_insert_eq, he]
      rfl
    obtain ⟨q, hq, hsame⟩ := get?_eq_some_iff.1 hfirst
    rw [hsecond, hstorage]
    exact (inPlace_build hfailing config r snapshot hq hkind).congr hsame
  have hunfailing : second.storage.failing = ∅ := by
    rw [hsecond, hstorage, failing_build, hfailing]
  obtain ⟨hreport, hkept⟩ := Commit.commit_of_inPlace hunfailing hplaced
  exact ⟨hkept.trans hsecond, record_build_of_idle hreport⟩

/-! ## Over the same workspace -/

def sharedWorkspace : Workspace MemoryStore :=
  (Workspace.ofStorage MemoryStore.empty).stageRemoveDir ⟨"/app/types"⟩

def sharedPass : State MemoryStore :=
  build sharingConfig sharedWorkspace (.fullBuild 1) secretSnapshot

def secondPass : State MemoryStore :=
  build sharingConfig sharedPass.workspace (.rebuild 2) secretSnapshot

theorem build_again_sharing :
    sharedWorkspace.storage.failing = ∅ ∧ sharedPass.workspace.pending = ∅ ∧
      sharedPass.workspace.storage.writes = 2 ∧
      secondPass.workspace.storage.writes = 2 ∧
      secondPass.record.dirsDeleted = [] ∧
      secondPass.record.declarationsChanged = false := by
  have hpending : sharedPass.workspace.pending = ∅ := by
    rw [sharedPass, pending_build]
  have hwrites : sharedPass.workspace.storage.writes = 2 := by decide +kernel
  obtain ⟨hstorage, hrecord⟩ :=
    build_again (w := sharedWorkspace) sharingConfig rfl (.fullBuild 1)
    (.rebuild 2) secretSnapshot (v := sharedPass.workspace)
      (by rw [sharedPass]) hpending
  refine ⟨rfl, hpending, hwrites, ?_, ?_, ?_⟩
  · rw [secondPass, hstorage, hwrites]
  · rw [secondPass, hrecord]
  · rw [secondPass, hrecord]

end ComponentBuild.Pass
