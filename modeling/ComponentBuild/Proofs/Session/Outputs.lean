import ComponentBuild.Proofs.Pass.Outputs
import ComponentBuild.Proofs.Session.Coalescing
import ComponentBuild.Proofs.Session.FailedUpdates

/-!
# No stale outputs in a watch

A snapshot removes only what the one before it emitted.  That is enough, as
every snapshot that is reported gets its pass before the next update: of all
that was ever emitted, storage then holds just what the last snapshot emits.
-/

namespace ComponentBuild

open ManifestUnit

namespace Snapshot

/-! ## What a list of snapshots emits -/

def outputsOf (snapshots : List Snapshot) : List Path :=
  snapshots.flatMap outputs

def lastOutputs (snapshots : List Snapshot) : List Path :=
  (snapshots.getLast?.map outputs).getD []

def lastOutput? (snapshots : List Snapshot) (p : Path) : Option String :=
  snapshots.getLast?.bind fun s => s.output? p

/-- Of the paths that the snapshots emit, those of the last one have their
content, and no other one has any. -/
def HeldBy (snapshots : List Snapshot) (s : MemoryStore) : Prop :=
  ∀ p ∈ outputsOf snapshots, s.get? p = lastOutput? snapshots p

variable {earlier : List Snapshot} {snapshot : Snapshot} {p : Path}

private theorem outputsOf_concat :
    outputsOf (earlier ++ [snapshot]) = outputsOf earlier ++
      snapshot.outputs := by
  simp [outputsOf]

private theorem lastOutputs_concat :
    lastOutputs (earlier ++ [snapshot]) = snapshot.outputs := by
  simp [lastOutputs]

private theorem lastOutput?_concat :
    lastOutput? (earlier ++ [snapshot]) p = snapshot.output? p := by
  simp [lastOutput?]

private theorem mem_outputsOf_of_last (h : p ∈ lastOutputs earlier) :
    p ∈ outputsOf earlier := by
  cases hlast : earlier.getLast? with
  | none => simp [lastOutputs, hlast] at h
  | some last =>
      rw [lastOutputs, hlast] at h
      exact List.mem_flatMap.2 ⟨last, List.mem_of_getLast? hlast, h⟩

private theorem lastOutput?_eq_none (h : p ∉ lastOutputs earlier) :
    lastOutput? earlier p = none := by
  cases hlast : earlier.getLast? with
  | none => simp [lastOutput?, hlast]
  | some last =>
      rw [lastOutputs, hlast] at h
      simpa [lastOutput?, hlast] using output?_eq_none h

/-- The files of the snapshots that are still there are those of the last one,
and each has the content of its last entry. -/
theorem HeldBy.files {s : MemoryStore} (h : HeldBy earlier s)
    {latest : Snapshot} (hlatest : earlier.getLast? = some latest) :
    (∀ snapshot ∈ earlier, ∀ file ∈ snapshot.emitted,
      ((s.get? file.path).isSome = true ↔
        file.path ∈ latest.emitted.map (·.path))) ∧
    ∀ front file back, latest.emitted = front ++ file :: back →
      file.path ∉ back.map (·.path) →
      s.get? file.path = some file.content := by
  have hlast (p : Path) : lastOutput? earlier p = latest.output? p := by
    rw [lastOutput?, hlatest]
    rfl
  have hfile {snapshot : Snapshot} (hsnapshot : snapshot ∈ earlier)
      {file : EmittedFile}
      (hmem : file ∈ snapshot.emitted) :
      s.get? file.path = latest.output? file.path := by
    rw [h file.path (List.mem_flatMap.2 ⟨snapshot, hsnapshot,
      List.mem_map_of_mem hmem⟩), hlast]
  refine ⟨fun snapshot hsnapshot file hmem => ?_,
    fun front file back hemitted hback => ?_⟩
  · rw [hfile hsnapshot hmem]
    exact isSome_output?
  · rw [hfile (List.mem_of_getLast? hlatest) (by simp [hemitted])]
    exact output?_of_last hemitted hback

theorem HeldBy.build {w : Workspace MemoryStore} (h : HeldBy earlier w.storage)
    (hw : w.storage.failing = ∅) (hpending : w.pending = ∅)
    (houtputs : ∀ p ∈ outputsOf earlier, p.IsOutput)
    (hsucceeds : snapshot.Succeeds (lastOutputs earlier)) (config : Config)
    (r : PassRecord) :
    HeldBy (earlier ++ [snapshot])
      (Pass.build config w r snapshot).workspace.storage := by
  have hbefore : ∀ p ∈ lastOutputs earlier, p.IsOutput :=
    fun p hp => houtputs p (mem_outputsOf_of_last hp)
  intro p hp
  rw [outputsOf_concat, List.mem_append] at hp
  have houtput : p.IsOutput := hp.elim (houtputs p) (hsucceeds.outputs p)
  have hremoved := hsucceeds.removed p
  rw [Pass.stored_output config hw hpending r hbefore hsucceeds houtput,
    lastOutput?_concat]
  by_cases hnow : p ∈ snapshot.outputs
  · obtain ⟨content, hcontent⟩ :=
      Option.isSome_iff_exists.1 (isSome_output?.2 hnow)
    simp [hremoved, hnow, hcontent]
  · rw [output?_eq_none hnow, Option.none_or]
    by_cases hlast : p ∈ lastOutputs earlier
    · rw [if_pos (hremoved.2 ⟨hlast, hnow⟩)]
    · rw [if_neg fun hgone => hlast (hremoved.1 hgone).1,
        h p (hp.resolve_right hnow), lastOutput?_eq_none hlast]

end Snapshot

/-! ## What an update still owes -/

namespace Activity

def awaited : Activity → List Snapshot
  | updating _ snapshots _ => snapshots
  | begun _ snapshot _ rest _ => snapshot :: rest
  | committed _ _ _ rest _ => rest
  | waiting | stopped => []

def unbegun : Activity → List Snapshot
  | updating _ snapshots _ => snapshots
  | begun _ _ _ rest _ | committed _ _ _ rest _ => rest
  | waiting | stopped => []

private theorem nothing_owed {a : Activity} (h : a.isRunning = false) :
    a.awaited = [] ∧ a.unbegun = [] := by
  cases a with
  | waiting | stopped => exact ⟨rfl, rfl⟩
  | updating | begun | committed => cases h

end Activity

namespace Session

open Snapshot

variable {s t : Session ManifestUnit MemoryStore} {reported : List Snapshot}

/-- Either storage holds what the last reported snapshot emits, or the pass for
it is still to come and storage holds what the one before it emits. -/
inductive Course (reported : List Snapshot)
    (s : Session ManifestUnit MemoryStore) : Prop
  | settled (ha : s.activity.awaited = [])
      (held : HeldBy reported s.workspace.storage)
  | awaiting {earlier : List Snapshot} {snapshot : Snapshot}
      (ha : s.activity.awaited = [snapshot])
      (hr : reported = earlier ++ [snapshot])
        (hsucceeds : snapshot.Succeeds (lastOutputs earlier))
      (held : HeldBy earlier s.workspace.storage)

def reports (s : Session ManifestUnit MemoryStore) (deed : Deed) :
    List Snapshot :=
  (s.receipt? deed).toList.flatMap fun r => r.result.snapshots

private theorem reports_none (h : s.nextUpdate? frontend = none) :
    s.reports .work = [] := by
  rw [reports, receipt?_none h]
  rfl

def snapshots (s : Session ManifestUnit MemoryStore) (turns : List Turn) :
    List Snapshot :=
  (s.receipts turns).flatMap fun r => r.result.snapshots

private theorem snapshots_cons (s : Session ManifestUnit MemoryStore)
    (turn : Turn) (rest : List Turn) :
    s.snapshots (turn :: rest) = s.reports turn.deed ++
      (s.turn turn).snapshots rest := by
  simp [snapshots, reports, receipts]

/-- An edit makes no path fail and changes no file at the given paths. -/
def Deed.Leaves (paths : List Path) (s : Session ManifestUnit MemoryStore) :
    Deed → Prop
  | .edit e =>
      (s.workspace.storage.edit e).failing = ∅ ∧
        ∀ p ∈ paths, (s.workspace.storage.edit e).get? p =
          s.workspace.storage.get? p
  | .work | .wait _ => True

/-- In these turns only the session itself changes files where a snapshot has
been emitted, beginning with those of earlier snapshots. -/
def Undisturbed (earlier : List Snapshot) (s : Session ManifestUnit MemoryStore) :
    List Turn → Prop
  | [] => True
  | turn :: rest =>
      turn.deed.Leaves (outputsOf earlier) s ∧
        Undisturbed (earlier ++ s.reports turn.deed) (s.turn turn) rest

/-- The unit knows what the last snapshot emitted, and each snapshot but a last
one that waits for its pass has had a pass of its own. -/
structure TracksOutputs (reported : List Snapshot)
    (s : Session ManifestUnit MemoryStore) : Prop where
  watching : s.Watching
  failing : s.workspace.storage.failing = ∅
  pending : s.workspace.pending = ∅
  unit :
    ∀ unit, s.unit = some unit →
    unit.emitted = SortedSet.ofKeys (lastOutputs reported)
  outputs : ∀ p ∈ outputsOf reported, p.IsOutput
  passes : s.passes + s.activity.unbegun.length = reported.length
  course : Course reported s

namespace TracksOutputs

private theorem last (h : TracksOutputs reported s) :
    ∀ p ∈ lastOutputs reported, p.IsOutput :=
  fun p hp => h.outputs p (mem_outputsOf_of_last hp)

private theorem settled (h : TracksOutputs reported s)
    (ha : s.activity.awaited = []) :
    HeldBy reported s.workspace.storage := by
  cases h.course with
  | settled _ held => exact held
  | awaiting hone => simp [ha] at hone

/-! ## The worker's steps -/

private theorem fired (h : TracksOutputs reported s) (hw : s.activity = .waiting)
    (hd : s.timer.isDue s.clock = true) (hwatching : (s.fire frontend).Watching) :
    TracksOutputs (reported ++ s.reports .work) (s.fire frontend) := by
  have hg : s.guard = .idle := by simp [h.watching.guard, hw, Activity.holdsToken]
  obtain ⟨unit, hu⟩ := Option.isSome_iff_exists.1 h.watching.unit
  have hread := readFrom_update unit s.timer.changed.toList s.workspace
  have hpasses := h.passes
  have hheld : HeldBy reported s.workspace.storage := h.settled (by rw [hw]; rfl)
  have hreports :
      s.reports .work = (unit.update s.timer.changed.toList
        s.workspace).1.snapshots := by
    rw [reports, receipt?_idle hw hd hg hu]
    exact List.append_nil _
  rw [hreports]
  rw [fire_idle frontend hg hu] at hwatching ⊢
  have hfailing := hread.storage ▸ h.failing
  have hpending := hread.pending.trans h.pending
  rw [← hread.storage] at hheld
  rw [hw] at hpasses
  rcases succeeds_update h.last (h.unit unit hu) s.timer.changed.toList
    s.workspace with
    ⟨hnone, hemitted⟩ | ⟨snapshot, hone, hsucceeds, hemitted⟩
  · rw [hnone, List.append_nil]
    refine ⟨hwatching, hfailing, hpending, ?_, h.outputs, ?_, .settled ?_ hheld⟩
    · rintro _ ⟨⟩
      exact hemitted
    · simpa [frontend, hnone, Activity.unbegun] using hpasses
    · simp [frontend, hnone, Activity.awaited]
  · rw [hone]
    refine ⟨hwatching, hfailing, hpending, ?_, ?_, ?_,
      .awaiting ?_ rfl hsucceeds hheld⟩
    · rintro _ ⟨⟩
      rw [lastOutputs_concat]
      exact hemitted
    · intro p hp
      rw [outputsOf_concat, List.mem_append] at hp
      exact hp.elim (h.outputs p) (hsucceeds.outputs p)
    · simpa [frontend, hone, Activity.unbegun] using hpasses
    · simp [frontend, hone, Activity.awaited]

theorem carry (h : TracksOutputs reported s) (hwatching : t.Watching)
    (hfailing : t.workspace.storage.failing = ∅)
    (hpending : t.workspace.pending = s.workspace.pending)
    (hstored : ∀ p ∈ outputsOf reported,
      t.workspace.storage.get? p = s.workspace.storage.get? p)
    (hunit : t.unit = s.unit ∨ t.unit = none)
    (hawaited : t.activity.awaited = s.activity.awaited)
    (hpasses : t.passes + t.activity.unbegun.length =
      s.passes + s.activity.unbegun.length) :
    TracksOutputs reported t where
  watching := hwatching
  failing := hfailing
  pending := hpending.trans h.pending
  unit unit hu := by
    rcases hunit with hsame | hgone
    · exact h.unit unit (hsame ▸ hu)
    · simp [hgone] at hu
  outputs := h.outputs
  passes := hpasses.trans h.passes
  course := by
    cases h.course with
    | settled ha held =>
        exact .settled (hawaited.trans ha) fun p hp =>
          (hstored p hp).trans (held p hp)
    | awaiting ha hr hsucceeds held =>
        refine .awaiting (hawaited.trans ha) hr hsucceeds fun p hp =>
          (hstored p ?_).trans (held p hp)
        rw [hr, outputsOf_concat]
        exact List.mem_append_left _ hp

private theorem sameWorkspace (h : TracksOutputs reported s)
    (hwatching : t.Watching) (hsame : SameWorkspace s t)
    (hawaited : t.activity.awaited = s.activity.awaited)
    (hpasses : t.passes + t.activity.unbegun.length =
      s.passes + s.activity.unbegun.length) :
    TracksOutputs reported t := by
  refine h.carry hwatching ?_ ?_ (fun p _ => ?_) hsame.unit hawaited hpasses
  · rw [hsame.workspace, h.failing]
  · rw [hsame.workspace]
  · rw [hsame.workspace]

theorem same (h : TracksOutputs reported s) (hmode : t.mode = s.mode)
    (hunit : t.unit = s.unit) (hguard : t.guard = s.guard)
    (hactivity : t.activity = s.activity) (htimer : t.timer = s.timer)
    (hpasses : t.passes = s.passes)
    (hstorage : t.workspace.storage = s.workspace.storage)
    (hpending : t.workspace.pending = s.workspace.pending) :
    TracksOutputs reported t := by
  have hwatching : t.Watching := by
    refine ⟨hmode.trans h.watching.mode, ?_, ?_, ?_⟩
    · rw [hunit]
      exact h.watching.unit
    · rw [hguard, hactivity]
      exact h.watching.guard
    · rw [StopsWithTimer, htimer, hactivity]
      exact h.watching.stopping
  refine h.carry hwatching ?_ hpending (fun p _ => ?_) (.inl hunit) ?_ ?_
  · rw [hstorage, h.failing]
  · rw [hstorage]
  · rw [hactivity]
  · rw [hactivity, hpasses]

private theorem built (h : TracksOutputs reported s) {record : PassRecord}
    {snapshot : Snapshot} {before : Nat} {rest : List Snapshot}
    {ending : UpdateEnd}
    (ha : s.activity = .begun record snapshot before rest ending)
    {activity : Activity}
    (hwatching : (s.built record snapshot activity).Watching)
    (hawaited : activity.awaited = rest) (hunbegun : activity.unbegun = rest) :
    TracksOutputs reported (s.built record snapshot activity) := by
  have hpasses := h.passes
  rw [ha] at hpasses
  refine ⟨hwatching, ?_, Pass.pending_build _ _ _ _, h.unit, h.outputs, ?_, ?_⟩
  · exact (Pass.failing_build s.config s.workspace record snapshot).trans
      h.failing
  · exact (congrArg (s.passes + List.length ·) hunbegun).trans hpasses
  · cases h.course with
    | settled hnone => simp [ha, Activity.awaited] at hnone
    | @awaiting earlier next hone hr hsucceeds held =>
        obtain ⟨rfl, rfl⟩ : snapshot = next ∧ rest = [] := by
          simpa [ha, Activity.awaited] using hone
        have houtputs : ∀ p ∈ outputsOf earlier, p.IsOutput := by
          intro p hp
          apply h.outputs
          rw [hr, outputsOf_concat]
          exact List.mem_append_left _ hp
        rw [hr]
        exact .settled hawaited
          (held.build h.failing h.pending houtputs hsucceeds s.config record)

private theorem worked (h : TracksOutputs reported s) (hwatching : t.Watching)
    (hstep : Worked frontend s t) :
    TracksOutputs (reported ++ s.reports .work) t := by
  have hsilent (hnext : s.nextUpdate? frontend = none)
      (ht : TracksOutputs reported t) :
      TracksOutputs (reported ++ s.reports .work) t := by
    rwa [reports_none hnext, List.append_nil]
  cases hstep with
  | fired hw hd => exact h.fired hw hd hwatching
  | took hw hd hq =>
      refine hsilent (nextUpdate?_eq_none fun _ hdue => by simp [hd] at hdue)
        (h.sameWorkspace hwatching (.of_eq rfl rfl) ?_ ?_)
      · rw [hw]
        dsimp only
        split <;> rfl
      · rw [hw]
        dsimp only
        split <;> rfl
  | @began before snapshot rest ending ha =>
      have hidle : s.guard = .idle := by
        simp [h.watching.guard, ha, Activity.holdsToken]
      refine hsilent (nextUpdate?_running (by rw [ha]; rfl))
        (h.sameWorkspace hwatching (.beginPass _ _ _ _ _) ?_ ?_)
      · rw [beginPass_idle hidle, ha]
        rfl
      · rw [beginPass_idle hidle, ha]
        simp only [Activity.unbegun, List.length_cons]
        omega
  | ended ha =>
      refine hsilent (nextUpdate?_running (by rw [ha]; rfl))
        (h.sameWorkspace hwatching
          ((SameWorkspace.frame.finishUpdate _ _ _).with_activity _) ?_ ?_)
      · rw [ha]
        rfl
      · rw [ha]
        exact congrArg (· + 0) ((frame_passes.finishUpdate s _ _).2)
  | built ha =>
      refine hsilent (nextUpdate?_running (by rw [ha]; rfl))
        (h.built ha hwatching rfl rfl)
  | finished ha =>
      refine hsilent (nextUpdate?_running (by rw [ha]; rfl))
        (h.sameWorkspace hwatching
          ((SameWorkspace.frame.finishPass _ _ _).with_activity _) ?_ ?_)
      · rw [ha]
        rfl
      · rw [ha]
        exact congrArg (· + List.length _) ((frame_passes.finishPass s _ _).2)

/-! ## Turns -/

private theorem notice (h : TracksOutputs reported s) (path : Path) :
    TracksOutputs reported (s.notice path) :=
  h.same rfl rfl rfl rfl rfl rfl rfl rfl

private theorem noticeAll (h : TracksOutputs reported s) (paths : List Path) :
    TracksOutputs reported (s.noticeAll paths) :=
  List.foldlRecOn (motive := TracksOutputs reported) _ _ h fun _ h path _ =>
  h.notice path

private theorem perform (h : TracksOutputs reported s) {deed : Deed}
    (hleaves : deed.Leaves (outputsOf reported) s) :
    TracksOutputs (reported ++ s.reports deed) (s.perform deed) := by
  cases deed with
  | wait time =>
      have hnone : s.reports (.wait time) = [] := rfl
      rw [hnone, List.append_nil]
      exact h.same rfl rfl rfl rfl rfl rfl rfl rfl
  | edit e =>
      have hnone : s.reports (.edit e) = [] := rfl
      rw [hnone, List.append_nil]
      exact h.carry ⟨h.watching.mode, h.watching.unit, h.watching.guard,
        h.watching.stopping⟩
        hleaves.1 rfl hleaves.2 (.inl rfl) rfl rfl
  | work =>
      rw [Session.perform]
      cases hwork : s.work frontend with
      | some t =>
          have hadvance : s.advance frontend 0 = some t := by
            simp [advance, hwork]
          exact h.worked (h.watching.advance hadvance).1 (worked_of_work hwork)
      | none =>
          have hnext : s.nextUpdate? frontend = none := by
            rcases work_eq_none_iff.1 hwork with hstopped | ⟨-, hd, -⟩
            · exact nextUpdate?_eq_none fun hw => by simp [hstopped] at hw
            · exact nextUpdate?_eq_none fun _ hdue => by simp [hd] at hdue
          rw [reports_none hnext, List.append_nil]
          exact h

private theorem turn (h : TracksOutputs reported s) {turn : Turn}
    (hleaves : turn.deed.Leaves (outputsOf reported) s) :
    TracksOutputs (reported ++ s.reports turn.deed) (s.turn turn) :=
  (h.perform hleaves).noticeAll turn.noted

private theorem run {turns : List Turn} (h : TracksOutputs reported s)
    (hturns : s.Undisturbed reported turns) :
    TracksOutputs (reported ++ s.snapshots turns)
      (turns.foldl Session.turn s) := by
  induction turns generalizing s reported with
  | nil => simpa [snapshots, receipts] using h
  | cons turn rest ih =>
      obtain ⟨hturn, hrest⟩ := hturns
      have hnext := ih (h.turn hturn) hrest
      rwa [List.append_assoc, ← snapshots_cons] at hnext

end TracksOutputs

/-! ## Sessions without a unit -/

structure Gone (s : Session ManifestUnit MemoryStore) : Prop where
  unit : s.unit = none
  outside : s.activity.isRunning = false
  passes : s.passes = 0

namespace Gone

private theorem perform (h : s.Gone) (deed : Deed) : (s.perform deed).Gone := by
  have hunit := (gone_perform h.unit deed).1
  cases deed with
  | wait time => exact ⟨hunit, h.outside, h.passes⟩
  | edit e => exact ⟨hunit, h.outside, h.passes⟩
  | work =>
      rw [Session.perform] at hunit ⊢
      cases hwork : s.work frontend with
      | none => exact h
      | some t =>
          rw [hwork] at hunit
          obtain ⟨hw, ⟨-, rfl⟩ | ⟨-, _, _, -, rfl⟩⟩ :=
            (worked_of_work hwork).outside h.outside
          · have hfire : (s.fire frontend).activity = s.activity ∧
                (s.fire frontend).passes = s.passes := by
              rw [fire]
              split <;> simp [h.unit]
            exact ⟨hunit, hfire.1 ▸ h.outside, hfire.2.trans h.passes⟩
          · refine ⟨hunit, ?_, h.passes⟩
            change Activity.isRunning (ite _ _ _) = false
            split <;> rfl

private theorem noticeAll (h : s.Gone) (paths : List Path) :
    (s.noticeAll paths).Gone :=
  List.foldlRecOn (motive := Gone) _ _ h fun _ h _ _ =>
  ⟨h.unit, h.outside, h.passes⟩

private theorem run (h : s.Gone) (turns : List Turn) :
    (turns.foldl turn s).Gone :=
  List.foldlRecOn (motive := Gone) _ _ h fun _ h turn _ =>
  (h.perform turn.deed).noticeAll turn.noted

end Gone

/-! ## From the start on -/

section

variable {config : Config} {storage : MemoryStore} {hub : NotifierHub}

private theorem gone_or_tracking_start (config : Config) (hub : NotifierHub)
    (refuse : Path → Option BuildError) (hfailing : storage.failing = ∅) :
    ((initial config .watch storage hub).start frontend refuse).2.Gone ∨
      TracksOutputs [] ((initial config .watch storage hub).start frontend
        refuse).2 := by
  refine start_induction (Q := Gone) refuse ?_ ?_ ?_ ?_
  · intro e s hcreate
    rcases createUnit_cases frontend (initial config .watch storage hub) with
      ⟨e', workspace, heq⟩ | ⟨unit, workspace, heq⟩
    · cases heq.symm.trans hcreate
      refine ⟨?_, ?_, (frame_passes.fault _ _).2⟩
      · exact (SameWorkspace.frame.fault _ _).unit.elim id id
      · rw [(frame_passes.fault _ _).1]
        rfl
    · cases heq.symm.trans hcreate
  · intro s hcreate
    have hfresh := fresh_createUnit hcreate
    have hfailing : s.workspace.storage.failing = ∅ :=
      hfresh.workspace.storage ▸ hfailing
    rcases createUnit_cases frontend (initial config .watch storage hub) with
      ⟨e, workspace, heq⟩ | ⟨unit, workspace, heq⟩
    · cases heq.symm.trans hcreate
    · cases heq.symm.trans hcreate
      obtain ⟨rfl⟩ := hfresh.unit
      refine ⟨⟨rfl, rfl, rfl, by simp [StopsWithTimer, initial]⟩, hfailing,
        hfresh.workspace.pending, ?_,
        by simp [outputsOf], rfl, .settled rfl (by simp [HeldBy, outputsOf])⟩
      rintro _ ⟨⟩
      rfl
  · intro s path h
    unfold Session.observe
    split
    · exact h.same rfl rfl rfl rfl rfl rfl rfl rfl
    · exact h.same rfl rfl rfl rfl rfl rfl rfl rfl
  · intro s h
    exact h.same rfl rfl rfl rfl rfl rfl rfl rfl

/-- At every moment of a watch the reported snapshots have had their passes, but
for one at the most. Of all that the others have emitted, storage then holds
just the files of the last one, with the content that is emitted last, if nobody
else has touched them. -/
theorem outputs_are_current {history : List Edit}
    {refuse : Path → Option BuildError} {turns : List Turn}
    (hfailing : (MemoryStore.empty.editAll history).failing = ∅)
    (hturns : (started config .watch history hub refuse).Undisturbed [] turns) :
    let s := turns.foldl turn (started config .watch history hub refuse)
    let reported := (started config .watch history hub refuse).snapshots turns
    ∃ committed, reported = committed ++ s.activity.awaited ∧
    s.activity.awaited.length ≤ 1 ∧
      s.passes + s.activity.unbegun.length = reported.length ∧
      ∀ latest, committed.getLast? = some latest →
        (∀ snapshot ∈ committed, ∀ file ∈ snapshot.emitted,
          ((s.workspace.storage.get? file.path).isSome = true ↔
            file.path ∈ latest.emitted.map (·.path))) ∧
        ∀ front file back, latest.emitted = front ++ file :: back →
          file.path ∉ back.map (·.path) →
            s.workspace.storage.get? file.path = some file.content := by
  intro s reported
  rcases gone_or_tracking_start config hub refuse hfailing with hgone | htracks
  · have hnone : reported = [] := by
      have hreceipts := receipts_of_gone hgone.unit turns
      simp [reported, snapshots, started, hreceipts]
    obtain ⟨-, houtside, hpasses⟩ : s.Gone := hgone.run turns
    obtain ⟨hawaited, hunbegun⟩ := Activity.nothing_owed houtside
    refine ⟨[], ?_, ?_, ?_, by simp⟩
    · rw [hnone, hawaited]
      rfl
    · simp [hawaited]
    · simp [hnone, hunbegun, hpasses]
  · have hrun : TracksOutputs reported s := htracks.run hturns
    cases hrun.course with
    | settled ha held =>
        exact ⟨reported, by simp [ha], by simp [ha], hrun.passes,
          fun _ => held.files⟩
    | @awaiting earlier snapshot ha hr _ held =>
        exact ⟨earlier, by rw [ha, hr], by simp [ha], hrun.passes,
          fun _ => held.files⟩

end

/-! ## A tag that changes -/

instance (paths : List Path) (s : Session ManifestUnit MemoryStore) :
    (deed : Deed) → Decidable (deed.Leaves paths s)
  | .edit _ => inferInstanceAs (Decidable (_ ∧ _))
  | .work => inferInstanceAs (Decidable True)
  | .wait _ => inferInstanceAs (Decidable True)

instance decidableUndisturbed :
    (earlier : List Snapshot) → (s : Session ManifestUnit MemoryStore) →
    (turns : List Turn) → Decidable (s.Undisturbed earlier turns)
  | _, _, [] => inferInstanceAs (Decidable True)
  | earlier, s, turn :: rest =>
      have :=
        decidableUndisturbed (earlier ++ s.reports turn.deed) (s.turn turn) rest
      inferInstanceAs (Decidable (turn.deed.Leaves (outputsOf earlier) s ∧
        (s.turn turn).Undisturbed (earlier ++ s.reports turn.deed) rest))

def outputConfig : Config where
  rootDir := ⟨"/"⟩
  srcDir := ⟨"s"⟩
  projectFile := ⟨"s/p"⟩
  outDir := some ⟨"o"⟩
  watchTimeout := some 0

def outputHistory : List Edit :=
  [.insert projectPath "[]", .insert firstPath "[\"a-a\", \"a\"]"]

/-- After the first pass the manifest gets another tag, and there is a second
pass. -/
def outputTurns : List Turn :=
  List.replicate 6 ⟨.work, []⟩ ++ changeFile firstPath "[\"b-b\", \"a\"]" ++
    List.replicate 3 ⟨.work, []⟩

def outputWatch : Session ManifestUnit MemoryStore :=
  started outputConfig .watch outputHistory {} fun _ => none

private theorem outputs_outputTurns :
    outputWatch.Undisturbed [] outputTurns ∧
      (outputTurns.foldl turn outputWatch).activity.awaited = [] ∧
      (outputWatch.snapshots outputTurns).map (·.outputs) =
        [[⟨"/o/a-a.json"⟩], [⟨"/o/b-b.json"⟩]] := by
  decide +kernel

theorem outputs_are_current_new_tag :
    let stored := (outputTurns.foldl turn outputWatch).workspace.storage
    (MemoryStore.empty.editAll outputHistory).failing = ∅ ∧
      outputWatch.Undisturbed [] outputTurns ∧
      (outputWatch.snapshots outputTurns).map (·.outputs) =
        [[⟨"/o/a-a.json"⟩], [⟨"/o/b-b.json"⟩]] ∧
      stored.get? ⟨"/o/a-a.json"⟩ = none ∧
      (stored.get? ⟨"/o/b-b.json"⟩).isSome = true := by
  intro stored
  have hfailing : (MemoryStore.empty.editAll outputHistory).failing = ∅ := by
    decide +kernel
  obtain ⟨hturns, hawaited, houtputs⟩ := outputs_outputTurns
  obtain ⟨committed, hreported, -, -, hcurrent⟩ :=
    outputs_are_current hfailing hturns
  obtain ⟨first, second, hsnapshots, hfirst, hsecond⟩ :
      ∃ first second, outputWatch.snapshots outputTurns = [first, second] ∧
        first.outputs = [⟨"/o/a-a.json"⟩] ∧
        second.outputs = [⟨"/o/b-b.json"⟩] := by
    simpa [List.map_eq_cons_iff] using houtputs
  have hcommitted : committed = [first, second] := by
    rw [← hsnapshots]
    exact (List.append_nil committed).symm.trans (hawaited ▸ hreported.symm)
  obtain ⟨hheld, -⟩ := hcurrent second (by simp [hcommitted])
  have hiff (snapshot : Snapshot) (hsnapshot : snapshot ∈ committed) (p : Path)
      (hp : snapshot.outputs = [p]) : (stored.get? p).isSome = true ↔
      p ∈ second.outputs := by
    obtain ⟨file, hfile, rfl⟩ :
        ∃ file, snapshot.emitted = [file] ∧ file.path = p :=
      List.map_eq_singleton_iff.1 hp
    exact hheld snapshot hsnapshot file (by simp [hfile])
  refine ⟨hfailing, hturns, houtputs, ?_, ?_⟩
  · have hgone := hiff first (by simp [hcommitted]) _ hfirst
    rw [hsecond] at hgone
    simpa using hgone
  · rw [hiff second (by simp [hcommitted]) _ hsecond, hsecond]
    exact List.mem_singleton_self _

end Session

end ComponentBuild
