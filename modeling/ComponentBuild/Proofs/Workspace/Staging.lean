import ComponentBuild.Proofs.Path.Parts
import ComponentBuild.Proofs.Workspace.Cache
import ComponentBuild.Proofs.Workspace.Calls
import ComponentBuild.Proofs.Workspace.Reading
import Mathlib.Data.List.Induction

/-!
# Staging refines direct execution

A run of a workspace that nobody else's storage is touched by shows the files of
the plain run.  The invariant: the cache agrees with storage, and the plain
files are the stored ones with the staged change of each path applied.
-/

namespace ComponentBuild

open KeyOrder SortedMap

theorem Change.applied_of_not_onFile {change : Option Change}
    (h : change.any onFile = false) (stored : Option String) :
    applied change stored = stored := by
  cases change with
  | none => rfl
  | some change => cases change <;> simp_all [onFile, applied]

/-- No normal path is staged both as a file and as a directory. -/
def KindsApart (calls : List Call) : Prop :=
  ∀ a ∈ calls, ∀ b ∈ calls, ∀ x ∈ a.staged?, ∀ y ∈ b.staged?,
  x.1 = y.1 → x.2.onFile = y.2.onFile

instance (calls : List Call) : Decidable (KindsApart calls) := by
  unfold KindsApart
  infer_instance

theorem KindsApart.of_append {calls rest : List Call}
    (h : KindsApart (calls ++ rest)) :
    KindsApart calls :=
  fun a ha b hb => h a (List.mem_append_left rest ha) b
    (List.mem_append_left rest hb)

theorem Call.isNormal_of_staged? {call : Call} {p : Path} {change : Change}
    (h : call.staged? = some (p, change)) : p.IsNormal := by
  unfold staged? at h
  split at h <;> simp_all <;> exact h.1 ▸ Path.isNormal_normalize _

theorem FileMap.get?_change (files : FileMap) (p q : Path) (change : Change) :
    (files.change p change).get? q =
      if same p q then Change.applied (some change) (files.get? q)
        else files.get? q := by
  cases change <;> simp [FileMap.change, Change.applied, get?_insert, get?_erase]

/-! ## The invariant -/

/-- A workspace after some calls, beside the plain files after the same calls. -/
structure Tracks (calls : List Call) (files : FileMap)
    (w : Workspace MemoryStore) : Prop where
  failing : w.storage.failing = ∅
  cache : CacheAgrees w.cache w.storage.files
  files :
    ∀ p, files.get? p = Change.applied (w.pending.get? p) (w.storage.files.get? p)
  staged : ∀ p change, w.pending.get? p = some change →
    ∃ call ∈ calls, ∃ x ∈ call.staged?,
    same x.1 p = true ∧ x.2.onFile = change.onFile

namespace Tracks

variable {calls : List Call} {files : FileMap} {w : Workspace MemoryStore}

private theorem initial {s : MemoryStore} (h : s.failing = ∅) :
    Tracks [] s.files (Workspace.ofStorage s) where
  failing := h
  cache := .empty _
  files p := rfl
  staged p change hp := by simp [Workspace.ofStorage] at hp

private theorem mono {rest : List Call} (h : Tracks calls files w) :
    Tracks (calls ++ rest) files w where
  failing := h.failing
  cache := h.cache
  files := h.files
  staged p change hp := by
    obtain ⟨call, hcall, hstaged⟩ := h.staged p change hp
    exact ⟨call, List.mem_append_left rest hcall, hstaged⟩

private theorem with_cache (h : Tracks calls files w)
    {cache : SortedMap Path String} (hc : CacheAgrees cache w.storage.files) :
    Tracks calls files { w with cache } :=
  ⟨h.failing, hc, h.files, h.staged⟩

private theorem not_failing (h : Tracks calls files w) (p : Path) :
    w.storage.failing.contains p = false :=
  MemoryStore.not_failing h.failing p

/-! ## Reading -/

private theorem readAt_known (h : Tracks calls files w) {p : Path}
    {result : Except StorageError String} (hk : w.known? p = some result) :
    result = files.readAt p := by
  have hfiles := h.files p
  unfold FileMap.readAt
  cases hp : (w.pending.get? p).any Change.onFile with
  | false =>
      rw [Workspace.known?_unstaged hp] at hk
      obtain ⟨content, hcache, rfl⟩ := Option.map_eq_some_iff.1 hk
      rw [hfiles, Change.applied_of_not_onFile hp, h.cache p content hcache]
  | true =>
      obtain ⟨change, hchange, hon⟩ := (Option.any_eq_true _ _).1 hp
      cases change with
      | write content =>
          rw [Workspace.known?_write hchange] at hk
          rw [hfiles, hchange]
          exact (Option.some.inj hk).symm
      | removeFile =>
          rw [Workspace.known?_removeFile hchange] at hk
          rw [hfiles, hchange]
          exact (Option.some.inj hk).symm
      | addDir => cases hon
      | removeDir => cases hon

private theorem readAt_unknown (h : Tracks calls files w) {p : Path}
    (hk : w.known? p = none) :
    w.storage.read p = files.readAt p := by
  have hunstaged : (w.pending.get? p).any Change.onFile = false := by
    cases hp : w.pending.get? p with
    | none => rfl
    | some change => cases change <;> simp_all [Workspace.known?, Change.onFile]
  have hread := MemoryStore.read_eq (h.not_failing p)
  have hfiles : files.get? p = w.storage.files.get? p := by
    rw [h.files p, Change.applied_of_not_onFile hunstaged]
  cases hget :
    w.storage.files.get? p <;> simp [hread, FileMap.readAt, hfiles, hget]

private theorem readAt (h : Tracks calls files w) (p : Path) :
    (w.readAt p).1 = files.readAt p ∧ Tracks calls files (w.readAt p).2 := by
  unfold Workspace.readAt
  split
  · rename_i result hk
    exact ⟨h.readAt_known hk, h⟩
  · rename_i hk
    have hread := h.readAt_unknown hk
    split
    · rename_i content hs
      rw [MemoryStore.storage_read] at hs
      refine ⟨by rw [← hread, hs], h.with_cache ?_⟩
      exact h.cache.insert_cache (MemoryStore.files_get?_of_read hs)
    · rename_i e hs
      rw [MemoryStore.storage_read] at hs
      exact ⟨by rw [← hread, hs], h⟩

/-! ## One call -/

private theorem stageAt (h : Tracks calls files w) {call : Call} {p : Path}
    {change : Change} (hcall : call.staged? = some (p, change))
    (hapart : KindsApart (calls ++ [call])) :
    Tracks (calls ++ [call]) (files.change p change) (w.stageAt p change) where
  failing := h.failing
  cache := h.cache.erase_cache p
  files q := by
    have hfiles := h.files q
    rw [FileMap.get?_change, Workspace.stageAt, get?_insert]
    split
    · rename_i hs
      cases hkind : change.onFile with
      | true => cases change <;> simp_all [Change.applied, Change.onFile]
      | false =>
          -- What was staged here before is no change of a file either.
          have hbefore : (w.pending.get? q).any Change.onFile = false := by
            rw [Option.any_eq_false]
            intro earlier hearlier
            obtain ⟨a, ha, ⟨r, c⟩, hstaged, hr, hc⟩ := h.staged q earlier hearlier
            have hrp : r = p := by
              refine (a.isNormal_of_staged? hstaged).eq_of_parts
                (call.isNormal_of_staged? hcall) (Path.same_key_iff.1 ?_)
              exact same_trans hr (same_symm hs)
            have hkinds :=
              hapart a (List.mem_append_left _ ha) call (by simp) _
                hstaged _ hcall hrp
            rw [← hc, hkinds, hkind]
          have hnow : (some change).any Change.onFile = false := hkind
          rw [hfiles, Change.applied_of_not_onFile hbefore,
            Change.applied_of_not_onFile hnow]
    · exact hfiles
  staged q c hq := by
    rw [Workspace.stageAt, get?_insert] at hq
    split at hq
    · rename_i hs
      cases hq
      exact ⟨call, by simp, (p, change), hcall, hs, rfl⟩
    · obtain ⟨a, ha, hstaged⟩ := h.staged q c hq
      exact ⟨a, List.mem_append_left _ ha, hstaged⟩

private theorem commit (h : Tracks calls files w) :
    Tracks calls files w.commit.2 := by
  rw [Commit.commit_eq]
  refine ⟨?_, Commit.agrees_finished h.cache, fun p => ?_, fun p change hp => ?_⟩
  · rw [Commit.failing_finished, h.failing]
  · rw [h.files p, ← Commit.content_applied w (h.not_failing p)]
    rfl
  · simp at hp

private theorem perform (h : Tracks calls files w) (call : Call)
    (hstaged : call.isImmediate = false) (hapart : KindsApart (calls ++ [call])) :
    Tracks (calls ++ [call]) (files.perform call) (w.perform call) := by
  cases call with
  | stageWrite p content => exact h.stageAt rfl hapart
  | stageRemove p => exact h.stageAt rfl hapart
  | stageAddDir p => exact h.stageAt rfl hapart
  | stageRemoveDir p => exact h.stageAt rfl hapart
  | writeFile p content immediate =>
      cases immediate with
      | true => cases hstaged
      | false => exact (h.readAt p.normalize).2.stageAt rfl hapart
  | fetch p => exact (h.readAt p.normalize).2.mono
  | clearFileCache p =>
      exact (h.with_cache (h.cache.erase_cache p.normalize)).mono
  | clearCache => exact (h.with_cache (.empty _)).mono
  | commit => exact h.commit.mono

/-! ## A whole run -/

private theorem run {s : MemoryStore} (hs : s.failing = ∅) {calls : List Call}
    (hstaged : ∀ call ∈ calls, call.isImmediate = false)
    (hapart : KindsApart calls) :
    Tracks calls (FileMap.run s.files calls)
      ((Workspace.ofStorage s).run calls) := by
  induction calls using List.reverseRecOn with
  | nil => exact initial hs
  | append_singleton calls call ih =>
      rw [FileMap.run_append_singleton, Workspace.run_append_singleton]
      have hcalls :=
        ih (fun c hc => hstaged c (List.mem_append_left _ hc)) hapart.of_append
      exact hcalls.perform call (hstaged call (by simp)) hapart

end Tracks

/-- After any calls without immediate writes, a reading gives what plain
execution of the staged changes gives, and a commit leaves storage with the
plain files. -/
theorem staging_refines_files (s : MemoryStore) (hs : s.failing = ∅)
    (calls : List Call) (hstaged : ∀ call ∈ calls, call.isImmediate = false)
    (hapart : KindsApart calls) :
    (∀ p, (((Workspace.ofStorage s).run calls).fetch p).1 =
      (FileMap.run s.files calls).read p) ∧
      ∀ p, ((Workspace.ofStorage s).run (calls ++ [.commit])).storage.files.get?
        p =
        (FileMap.run s.files calls).get? p := by
  have htracks := Tracks.run hs hstaged hapart
  constructor
  · intro p
    exact (htracks.readAt p.normalize).1
  · intro p
    have hcommit := htracks.commit.files p
    rw [Workspace.run_append_singleton, hcommit]
    rw [Workspace.perform, Commit.commit_eq]
    rfl

/-- A written file and a removed one, through a detour in a path and across a
commit. -/
theorem staging_refines_files_across_commit :
    let s := MemoryStore.empty.insert ⟨"/a"⟩ "old"
    let calls : List Call :=
      [.fetch ⟨"/a"⟩, .stageWrite ⟨"/x/../a"⟩ "new", .stageAddDir ⟨"/d"⟩,
      .commit, .fetch ⟨"/a"⟩, .writeFile ⟨"/b"⟩ "b" false, .stageRemove ⟨"/a"⟩]
    s.failing = ∅ ∧ (∀ call ∈ calls, call.isImmediate = false) ∧
    KindsApart calls ∧
      (((Workspace.ofStorage s).run calls).fetch ⟨"/a"⟩).1 =
        .error (.missing ⟨"/a"⟩) ∧
      ((Workspace.ofStorage s).run (calls ++ [.commit])).storage.files.get?
        ⟨"/b"⟩ =
        some "b" := by
  intro s calls
  have hstaged : ∀ call ∈ calls, call.isImmediate = false := by decide
  have hapart : KindsApart calls := by decide
  obtain ⟨hread, hcommit⟩ := staging_refines_files s rfl calls hstaged hapart
  refine ⟨rfl, hstaged, hapart, ?_, ?_⟩
  · rw [hread]
    rfl
  · rw [hcommit]
    decide

end ComponentBuild
