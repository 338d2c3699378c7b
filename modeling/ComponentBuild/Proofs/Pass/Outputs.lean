import ComponentBuild.Proofs.Frontend.Succession
import ComponentBuild.Proofs.Pass.Artifacts

/-!
# The emitted files that a pass leaves

Emitted files are staged before removals, and both before the declarations.  No
declarations go where a file is emitted.  So the pass decides the content of a
path that is emitted or removed, and leaves every other one that could be
emitted as it was.
-/

namespace ComponentBuild

open KeyOrder SortedMap

namespace Snapshot

def output? (s : Snapshot) (p : Path) : Option String :=
  (s.emitted.reverse.find? fun file => file.path = p).map (·.content)

theorem isSome_output? {s : Snapshot} {p : Path} :
    (s.output? p).isSome = true ↔ p ∈ s.outputs := by
  simp [output?, outputs, List.find?_isSome]

theorem output?_eq_none {s : Snapshot} {p : Path} (h : p ∉ s.outputs) :
    s.output? p = none := by
  rw [← Option.not_isSome_iff_eq_none, isSome_output?]
  exact h

theorem output?_of_last {s : Snapshot} {front back : List EmittedFile}
    {file : EmittedFile} (h : s.emitted = front ++ file :: back)
    (hlast : file.path ∉ back.map (·.path)) :
    s.output? file.path = some file.content := by
  have hback :
      back.reverse.find? (fun other => other.path = file.path) = none := by
    rw [List.find?_eq_none]
    intro other hother hsame
    rw [decide_eq_true_eq] at hsame
    exact hlast (hsame ▸ List.mem_map_of_mem (List.mem_reverse.1 hother))
  simp [output?, h, List.find?_append, hback]

end Snapshot

namespace Pass

/-! ## Staging a snapshot -/

section

variable {σ : Type} {p : Path}

private theorem get?_pending_stage (w : Workspace σ) {q : Path}
    (hq : q.IsNormal) (hp : p.IsNormal) (change : Change) :
    (w.stage q change).pending.get? p = if q = p
      then some change else w.pending.get? p := by
  have hsame : same q p = true ↔ q = p :=
    ⟨hq.eq_of_same hp, fun h => h ▸ same_refl q⟩
  rw [Workspace.stage, hq.normalize_eq, Workspace.stageAt, get?_insert]
  simp only [hsame]

private theorem pending_stageWrites (w : Workspace σ) {files : List EmittedFile}
    (hfiles : ∀ file ∈ files, file.path.IsNormal) (hp : p.IsNormal) :
    (files.foldl (fun w file => w.stageWrite file.path file.content)
      w).pending.get? p =
      ((files.reverse.find? fun file => file.path = p).map fun file =>
        .write file.content).or
        (w.pending.get? p) := by
  -- From behind, since the last write is the one that stays.
  induction files using List.reverseRecOn with
  | nil => rfl
  | append_singleton files file ih =>
      have hfile := hfiles file (by simp)
      have hrest := ih fun other h => hfiles other (by simp [h])
      rw [List.foldl_append, List.foldl_cons, List.foldl_nil,
        Workspace.stageWrite,
        get?_pending_stage _ hfile hp, hrest, List.reverse_append,
        List.reverse_singleton, List.singleton_append, List.find?_cons]
      by_cases hsame : file.path = p <;> simp [hsame]

private theorem pending_stageRemovals (w : Workspace σ) {paths : List Path}
    (hpaths : ∀ q ∈ paths, q.IsNormal) (hp : p.IsNormal) :
    (paths.foldl Workspace.stageRemove w).pending.get? p =
      if p ∈ paths then some .removeFile else w.pending.get? p := by
  induction paths generalizing w with
  | nil => rfl
  | cons q paths ih =>
      obtain ⟨hq, hrest⟩ := List.forall_mem_cons.1 hpaths
      rw [List.foldl_cons, ih _ hrest, Workspace.stageRemove,
        get?_pending_stage w hq hp]
      by_cases hmem : p ∈ paths
      · simp [hmem]
      · simp [hmem, eq_comm]

end

/-! ## Declarations go elsewhere -/

private theorem endsWith_artifactPath (dir : Path) :
    (artifactPath dir).endsWith ".d.ts" = true :=
  Path.endsWith_child isStep_fileName ⟨"components".toList, by decide⟩

private theorem not_same_artifactPath {p : Path} (hp : p.IsOutput) (dir : Path) :
    same (artifactPath dir).normalize p = false := by
  rw [Bool.eq_false_iff]
  intro hsame
  have heq := (Path.isNormal_normalize _).eq_of_same hp.normal hsame
  have hending :=
    Path.endsWith_normalize ⟨by decide, by decide⟩ (endsWith_artifactPath dir)
  rw [heq, Path.endsWith_iff] at hending
  have hjson := Path.endsWith_iff.1 hp.ending
  exact absurd (List.suffix_of_suffix_length_le hending hjson (by decide))
    (by decide)

private theorem pending_generateTypes_output {σ : Type} [Storage σ]
    (config : Config) (s : State σ) {p : Path} (hp : p.IsOutput) :
    (generateTypes config s).workspace.pending.get? p =
      s.workspace.pending.get? p := by
  rw [(staged_generateTypes config s).pending]
  refine List.foldlRecOn
    (motive := fun pending : SortedMap Path Change => pending.get? p =
      s.workspace.pending.get? p)
    _ _ rfl fun pending h target _ => ?_
  rw [get?_insert, not_same_artifactPath hp, if_neg Bool.false_ne_true, h]

/-! ## After the commit -/

variable {config : Config} {w : Workspace MemoryStore} {r : PassRecord}
    {snapshot : Snapshot}

theorem stored_output (config : Config) (hw : w.storage.failing = ∅)
    (hpending : w.pending = ∅) (r : PassRecord) {before : List Path}
    (hbefore : ∀ p ∈ before, p.IsOutput) (hsnapshot : snapshot.Succeeds before)
    {p : Path} (hp : p.IsOutput) :
    (build config w r snapshot).workspace.storage.get? p =
      if p ∈ snapshot.removed then none
        else (snapshot.output? p).or (w.storage.get? p) := by
  have hemitted : ∀ file ∈ snapshot.emitted, file.path.IsNormal :=
    fun file hfile =>
    (hsnapshot.outputs file.path (List.mem_map_of_mem hfile)).normal
  have hremoved : ∀ q ∈ snapshot.removed, q.IsNormal := fun q hq =>
    (hbefore q ((hsnapshot.removed q).1 hq).1).normal
  have hstaged : (stageSnapshot w snapshot).pending.get? p =
      if p ∈ snapshot.removed then some .removeFile
      else (snapshot.output? p).map .write := by
    rw [stageSnapshot, pending_stageRemovals _ hremoved hp.normal,
      pending_stageWrites w hemitted hp.normal, hpending]
    simp [Snapshot.output?, Function.comp_def]
  have hgenerated :
      (generateTypes config (opened w r snapshot)).workspace.pending.get? p =
      (stageSnapshot w snapshot).pending.get? p :=
    pending_generateTypes_output config (opened w r snapshot) hp
  rw [content_build hw, hgenerated, hstaged]
  by_cases hmem : p ∈ snapshot.removed
  · simp [hmem, Change.applied]
  · cases hout : snapshot.output? p <;> simp [hmem, Change.applied]

end Pass

end ComponentBuild
