import ComponentBuild.Proofs.SortedMap.Entries
import ComponentBuild.Proofs.Workspace.Report
import ComponentBuild.Proofs.Workspace.Settling
import ComponentBuild.Proofs.Workspace.Staging

/-!
# Two ways to detect a change

A write tells at once whether it changes the content, by what the workspace
shows; a commit compares with storage when it comes to the file.  The two agree
where nothing is staged yet: the cache is never out of date, and what is staged
at other paths does not reach the file.
-/

namespace ComponentBuild

open KeyOrder SortedMap

/-! ## Storage on which no path fails -/

theorem MemoryStore.keeps_unfailing :
    Storage.Keeps fun s : MemoryStore => s.failing = ∅ :=
  keeps_of_changes (fun h p content => (failing_written _ p content).trans h)
    (fun h _ => h)
    (fun h _ => h) fun h _ _ => h

/-- It neither commits nor writes immediately, and stages nothing at the normal
path. -/
def Call.LeavesStaged (p : Path) (call : Call) : Prop :=
  call ≠ .commit ∧ call.isImmediate = false ∧ ∀ x ∈ call.staged?, x.1 ≠ p

instance (p : Path) (call : Call) : Decidable (call.LeavesStaged p) := by
  unfold Call.LeavesStaged
  infer_instance

namespace Workspace

/-- A workspace that shows the files of its storage where nothing is staged. -/
structure Sound (w : Workspace MemoryStore) : Prop where
  failing : w.storage.failing = ∅
  cache : CacheAgrees w.cache w.storage.files

section

variable {w : Workspace MemoryStore} {p : Path}

private theorem sound_ofStorage {s : MemoryStore} (h : s.failing = ∅) :
    (ofStorage s).Sound where
  failing := h
  cache := .empty _

theorem Sound.perform (h : w.Sound) {call : Call}
    (hcall : call.isImmediate = false) :
    (w.perform call).Sound where
  failing := keeps_perform MemoryStore.keeps_unfailing hcall h.failing
  cache := h.cache.settled (settledAt_perform w hcall)

theorem Sound.run (h : w.Sound) {calls : List Call}
    (hcalls : ∀ call ∈ calls, call.isImmediate = false) : (w.run calls).Sound :=
  List.foldlRecOn (motive := Sound) _ _ h fun _ hv call hcall =>
  hv.perform (hcalls call hcall)

theorem Sound.toOption_readAt (h : w.Sound) (hnone : w.pending.get? p = none) :
    (w.readAt p).1.toOption = w.storage.files.get? p := by
  have hknown : w.known? p = (w.cache.get? p).map .ok :=
    known?_unstaged (by simp [hnone])
  have hread : (w.storage.read p).toOption = w.storage.files.get? p :=
    MemoryStore.toOption_read (MemoryStore.not_failing h.failing p)
  unfold readAt
  cases hcache : w.cache.get? p with
  | some content =>
      rw [hknown, hcache, h.cache p content hcache]
      rfl
  | none =>
      rw [hknown, hcache, ← hread]
      cases hs : w.storage.read p <;> simp [hs]

end

/-! ## Calls that leave what is staged at a path -/

variable {σ : Type} [Storage σ] {w : Workspace σ} {p : Path}

theorem perform_staging {call : Call} (hcommit : call ≠ .commit)
    (h : call.isImmediate = false) :
    (w.perform call).storage = w.storage ∧
      (w.perform call).pending = match call.staged? with
        | some (q, change) => w.pending.insert q change
        | none => w.pending := by
  cases call with
  | stageWrite q content => exact ⟨rfl, rfl⟩
  | stageRemove q => exact ⟨rfl, rfl⟩
  | stageAddDir q => exact ⟨rfl, rfl⟩
  | stageRemoveDir q => exact ⟨rfl, rfl⟩
  | writeFile q content immediate =>
      cases immediate with
      | true => cases h
      | false =>
          refine ⟨storage_readAt w q.normalize, ?_⟩
          rw [← pending_readAt w q.normalize]
          rfl
  | fetch q => exact ⟨storage_readAt w q.normalize, pending_readAt w q.normalize⟩
  | clearFileCache q => exact ⟨rfl, rfl⟩
  | clearCache => exact ⟨rfl, rfl⟩
  | commit => exact absurd rfl hcommit

/-- Storage is the same, and so is what is staged at `p`, down to the text of
the path. -/
structure KeptAt (p : Path) (w v : Workspace σ) : Prop where
  storage : v.storage = w.storage
  lookup : v.pending.get? p = w.pending.get? p
  key : p ∈ w.pending.keys → p ∈ v.pending.keys

private theorem keptAt_perform (hp : p.IsNormal) {call : Call}
    (h : call.LeavesStaged p) :
    KeptAt p w (w.perform call) := by
  obtain ⟨hcommit, himmediate, helsewhere⟩ := h
  obtain ⟨hstorage, hpending⟩ := perform_staging (w := w) hcommit himmediate
  cases hstaged : call.staged? with
  | none =>
      rw [hstaged] at hpending
      exact ⟨hstorage, by rw [hpending], by rw [hpending]; exact id⟩
  | some x =>
      obtain ⟨q, change⟩ := x
      rw [hstaged] at hpending
      have hother : same q p = false := by
        rw [Bool.eq_false_iff]
        intro hsame
        have hq : q.IsNormal := call.isNormal_of_staged? hstaged
        exact helsewhere _ hstaged (hq.eq_of_parts hp (Path.same_key_iff.1 hsame))
      refine ⟨hstorage, ?_, fun hkey => ?_⟩
      · rw [hpending, get?_insert, hother]
        rfl
      · rw [hpending]
        exact mem_keys_insert_iff.2 (.inl hkey)

private theorem keptAt_run (hp : p.IsNormal) {calls : List Call}
    (h : ∀ call ∈ calls, call.LeavesStaged p) :
    KeptAt p w (w.run calls) :=
  List.foldlRecOn (motive := KeptAt p w) _ _ ⟨rfl, rfl, id⟩ fun _ hv call hcall =>
    have hstep := keptAt_perform hp (h call hcall)
    ⟨hstep.storage.trans hv.storage, hstep.lookup.trans hv.lookup,
      hstep.key ∘ hv.key⟩

/-! ## The two answers -/

theorem Sound.changed_iff {w : Workspace MemoryStore} (h : w.Sound)
    {path : Path} {content : String} (hnone : w.pending? path = none)
    {outcome : WriteOutcome}
    (hwrite : (w.writeFile path content false).1 = .ok outcome) :
    outcome.changed = true ↔ w.storage.files.get? path.normalize ≠
      some content := by
  have hshown := h.toOption_readAt hnone
  simp only [writeFile, Bool.false_eq_true, if_false, Except.ok.injEq] at hwrite
  subst hwrite
  rw [← hshown]
  cases (w.readAt path.normalize).1 <;> simp [Except.toOption]

theorem mem_written_commit_iff {w : Workspace MemoryStore}
    (hfree : w.storage.failing = ∅) (hkey : p ∈ w.pending.keys)
    {content : String} (hp : w.pending.get? p = some (.write content)) :
    p ∈ w.commit.1.written ↔ w.storage.files.get? p ≠ some content := by
  rw [Commit.commit_eq]
  simp only [CommitReport.sorted, Path.sorted_of_before (Commit.written_sorted w)]
  simp [Commit.mem_written_finished, mem_entries_iff_of_mem_keys hkey, hp,
    MemoryStore.not_failing hfree p]

/-- After any calls without immediate writes, a write to a path with nothing
staged tells that it changes the content exactly if the next commit lists the
path, whatever was staged or is yet staged at others. -/
theorem writeFile_changed_iff_written (s : MemoryStore) (hs : s.failing = ∅)
    (calls : List Call) (hcalls : ∀ call ∈ calls, call.isImmediate = false)
    (path : Path) (content : String)
    (hnone : ((ofStorage s).run calls).pending? path = none) (more : List Call)
    (hmore : ∀ call ∈ more, call.LeavesStaged path.normalize) :
    ∃ changed,
      (((ofStorage s).run calls).writeFile path content false).1 = .ok ⟨changed,
        true⟩ ∧
        (changed = true ↔ path.normalize ∈
          ((((ofStorage s).run calls).writeFile path content false).2.run
            more).commit.1.written) := by
  let w := (ofStorage s).run calls
  let v := (w.writeFile path content false).2
  have hw : w.Sound := (sound_ofStorage hs).run hcalls
  have hwrite : (w.writeFile path content false).1 = .ok ⟨_, true⟩ := rfl
  have hstorage : v.storage = w.storage := storage_readAt w path.normalize
  have hpending :
      v.pending = w.pending.insert path.normalize (.write content) := by
    rw [← pending_readAt w path.normalize]
    rfl
  -- The path is new among the staged ones, so it is listed as it was normalized.
  have hkey : path.normalize ∈ v.pending.keys := by
    rw [hpending, mem_keys_insert_iff, contains_eq_isSome]
    exact .inr ⟨rfl, by rw [show w.pending.get? path.normalize =
      none from hnone]; rfl⟩
  have hlookup : v.pending.get? path.normalize = some (.write content) := by
    rw [hpending, get?_insert, if_pos (same_refl _)]
  have hkept : KeptAt path.normalize v (v.run more) :=
    keptAt_run path.isNormal_normalize hmore
  have hlater : (v.run more).storage = w.storage := hkept.storage.trans hstorage
  have hlisted :=
    mem_written_commit_iff (w := v.run more) (by rw [hlater, hw.failing])
    (hkept.key hkey) (hkept.lookup.trans hlookup)
  rw [hlater] at hlisted
  exact ⟨_, hwrite, (hw.changed_iff hnone hwrite).trans hlisted.symm⟩

end Workspace

/-! ## A file that was read before -/

def readStore : MemoryStore :=
  MemoryStore.empty.insert ⟨"/a"⟩ "old"

def cachingCalls : List Call :=
  [.fetch ⟨"/a"⟩, .stageWrite ⟨"/b"⟩ "b", .commit, .stageRemove ⟨"/b"⟩]

def unrelatedCalls : List Call :=
  [.clearCache, .stageAddDir ⟨"/d"⟩, .fetch ⟨"/a"⟩]

theorem writeFile_changed_iff_written_detour :
    let w := (Workspace.ofStorage readStore).run cachingCalls
    let new := w.writeFile ⟨"/x/../a"⟩ "new" false
    let old := w.writeFile ⟨"/x/../a"⟩ "old" false
    readStore.failing = ∅ ∧ (∀ call ∈ cachingCalls, call.isImmediate = false) ∧
      w.pending? ⟨"/x/../a"⟩ = none ∧
      (∀ call ∈ unrelatedCalls, call.LeavesStaged (Path.normalize ⟨"/x/../a"⟩)) ∧
      new.1 = .ok ⟨true, true⟩ ∧
      ⟨"/a"⟩ ∈ (new.2.run unrelatedCalls).commit.1.written ∧
      old.1 = .ok ⟨false, true⟩ ∧
      ⟨"/a"⟩ ∉ (old.2.run unrelatedCalls).commit.1.written := by
  intro w new old
  have hcalls : ∀ call ∈ cachingCalls, call.isImmediate = false := by decide
  have hnone : w.pending? ⟨"/x/../a"⟩ = none := by decide +kernel
  have hmore : ∀ call ∈ unrelatedCalls,
      call.LeavesStaged (Path.normalize ⟨"/x/../a"⟩) := by
    decide +kernel
  have hpath : Path.normalize ⟨"/x/../a"⟩ = ⟨"/a"⟩ := by decide +kernel
  have hnew : new.1 = .ok ⟨true, true⟩ := by decide +kernel
  have hold : old.1 = .ok ⟨false, true⟩ := by decide +kernel
  obtain ⟨changed, hchanged, hlisted⟩ :=
    Workspace.writeFile_changed_iff_written readStore rfl
    cachingCalls hcalls ⟨"/x/../a"⟩ "new" hnone unrelatedCalls hmore
  obtain ⟨changed', hchanged', hlisted'⟩ :=
    Workspace.writeFile_changed_iff_written readStore rfl
    cachingCalls hcalls ⟨"/x/../a"⟩ "old" hnone unrelatedCalls hmore
  cases hnew.symm.trans hchanged
  cases hold.symm.trans hchanged'
  rw [hpath] at hlisted hlisted'
  refine ⟨rfl, hcalls, hnone, hmore, hnew, hlisted.1 rfl, hold, fun h => ?_⟩
  cases hlisted'.2 h

end ComponentBuild
