import ComponentBuild.Proofs.Pass.Events
import ComponentBuild.Proofs.Session.Coalescing
import ComponentBuild.Proofs.Session.FullBuild

/-!
# The events of a watching session

In a watching session every snapshot finds the guard idle and gets a pass of its
own.  The events of that pass are a block: its start, its artifacts, its commit
and its end.  Blocks follow one another in the order of the snapshots, and
nothing stands between them that tells of a pass.
-/

namespace ComponentBuild

namespace BuildEvent

/-- Tells of a pass, or of a snapshot that got none. -/
def isOfBlock : BuildEvent → Bool
  | passStarted .. | artifactGenerated .. | committed .. | passFinished ..
  | superseded _ => true
  | _ => false

end BuildEvent

/-! ## Blocks -/

inductive CommittedBlock (config : Config) (n : Nat) (snapshot : Snapshot) :
    List BuildEvent → Prop
  | intro {artifacts : List BuildEvent} (report : CommitReport)
      (h : List.Forall₂ (Pass.Announces config snapshot.components)
        (Pass.targets config) artifacts) :
      CommittedBlock config n snapshot
        (.passStarted n (n != 1) :: (artifacts ++ [Pass.committedEvent n report]))

inductive Block (config : Config) (n : Nat) (snapshot : Snapshot) :
    List BuildEvent → Prop
  | intro {es : List BuildEvent} (diagnostics : Nat) (hasError : Bool)
      (duration : Nat)
      (h : CommittedBlock config n snapshot es) :
      Block config n snapshot
        (es ++ [.passFinished n snapshot.components.length diagnostics
          hasError duration])

/-- One block for each snapshot, numbered from one. -/
inductive Blocks (config : Config) : List Snapshot → List BuildEvent → Prop
  | none : Blocks config [] []
  | next {snapshots : List Snapshot} {snapshot : Snapshot}
      {es block : List BuildEvent}
      (h : Blocks config snapshots es)
        (hblock : Block config (snapshots.length + 1) snapshot block) :
      Blocks config (snapshots ++ [snapshot]) (es ++ block)

private theorem exists_committedBlock (config : Config) (n : Nat)
    (snapshot : Snapshot) :
    ∃ es, CommittedBlock config n snapshot (.passStarted n (n != 1) :: es) := by
  let announcement (target : Path × Bool) : BuildEvent :=
    .artifactGenerated (Pass.artifactPath target.1) (ContentHash.ofContent
      (Pass.renderTypes config snapshot.components target.1 target.2)).short true
  have hannounced :
      List.Forall₂ (Pass.Announces config snapshot.components)
        (Pass.targets config)
      ((Pass.targets config).map announcement) := by
    rw [List.forall₂_map_right_iff, List.forall₂_same]
    exact fun target _ => ⟨true, rfl⟩
  exact ⟨_, .intro {} hannounced⟩

theorem CommittedBlock.finish {config : Config} {n : Nat} {snapshot : Snapshot}
    {es : List BuildEvent} (h : CommittedBlock config n snapshot es) :
    ∃ block, Block config n snapshot block ∧ es <+: block :=
  ⟨_, .intro 0 false 0 h, List.prefix_append _ _⟩

theorem Blocks.extend {config : Config} {done : List Snapshot}
    {es : List BuildEvent} (h : Blocks config done es) (rest : List Snapshot) :
    ∃ later, Blocks config (done ++ rest) later ∧ es <+: later := by
  induction rest generalizing done es with
  | nil => exact ⟨es, by simpa using h, List.prefix_refl es⟩
  | cons snapshot rest ih =>
      obtain ⟨begun, hbegun⟩ :=
        exists_committedBlock config (done.length + 1) snapshot
      obtain ⟨block, hblock, -⟩ := hbegun.finish
      obtain ⟨later, hlater, hprefix⟩ := ih (h.next hblock)
      rw [List.append_assoc, List.singleton_append] at hlater
      exact ⟨later, hlater, (List.prefix_append es block).trans hprefix⟩

theorem Blocks.extend_begun {config : Config} {done : List Snapshot}
    {snapshot : Snapshot} {es begun block : List BuildEvent}
    (h : Blocks config done es)
    (hblock : Block config (done.length + 1) snapshot block)
    (hbegun : begun <+: block) (rest : List Snapshot) :
    ∃ later, Blocks config (done ++ snapshot :: rest) later ∧
      es ++ begun <+: later := by
  obtain ⟨later, hlater, hprefix⟩ := (h.next hblock).extend rest
  rw [List.append_assoc, List.singleton_append] at hlater
  exact ⟨later, hlater, ((List.prefix_append_right_inj es).2 hbegun).trans
    hprefix⟩

namespace Session

variable {υ σ : Type} {s t : Session υ σ} {config : Config}
    {reported : List Snapshot}

def blockEvents (s : Session υ σ) : List BuildEvent :=
  s.events.filter BuildEvent.isOfBlock

private theorem blockEvents_emit {e : BuildEvent} (he : e.isOfBlock = true) :
    (s.emit e).blockEvents = s.blockEvents ++ [e] := by
  simp [blockEvents, events_emit, he]

theorem blockEvents_emit_other {e : BuildEvent} (he : e.isOfBlock = false) :
    (s.emit e).blockEvents = s.blockEvents := by
  simp [blockEvents, events_emit, he]

private theorem blockEvents_emitAll {es : List BuildEvent}
    (hes : ∀ e ∈ es, e.isOfBlock = true) :
    (s.emitAll es).blockEvents = s.blockEvents ++ es := by
  rw [blockEvents, events_emitAll, List.filter_append, List.filter_eq_self.2 hes]
  rfl

private theorem blockEvents_build [Storage σ] (config : Config)
    (w : Workspace σ) (record : PassRecord) (snapshot : Snapshot)
    (s : Session υ σ) :
    (s.emitAll (Pass.build config w record snapshot).events).blockEvents =
      s.blockEvents ++ (Pass.build config w record snapshot).events := by
  refine blockEvents_emitAll fun e he => ?_
  have hpass := Pass.isOfPass_build config w record snapshot e he
  cases e <;> first | rfl | cases hpass

private theorem blockEvents_complete (s : Session υ σ) (pass : Nat)
    (result : Except BuildError PassRecord) :
    (s.complete pass result).blockEvents = s.blockEvents := by
  rw [complete_eq]
  split
  · exact blockEvents_emit_other rfl
  · rfl

private theorem blockEvents_fault (hm : s.mode = .watch) (e : BuildError) :
    (s.fault e).blockEvents = s.blockEvents := by
  have hemit : (s.emit (.error e.message)).blockEvents = s.blockEvents :=
    blockEvents_emit_other rfl
  rw [fault_watch hm]
  split
  · rw [blockEvents_complete, hemit]
  · exact hemit

theorem finishUpdate_watch (hm : s.mode = .watch) (hg : s.guard = .idle)
    (before : Nat) (ending : UpdateEnd) :
    s.finishUpdate before ending = if ending = .done then s
      else s.fault ending.cause := by
  cases ending with
  | failed e | brokeDown message => rfl
  | done =>
      have hterminal : ¬ s.guard = .terminal := by simp [hg]
      have hmode : ¬ (s.mode = .full ∧ before = 0 ∧ s.passes = 0) := by simp [hm]
      rw [finishUpdate, if_neg hterminal, if_neg hmode, if_pos rfl]

private theorem blockEvents_finishUpdate (hm : s.mode = .watch)
    (hg : s.guard = .idle) (before : Nat) (ending : UpdateEnd) :
    (s.finishUpdate before ending).blockEvents = s.blockEvents := by
  rw [finishUpdate_watch hm hg]
  split
  · rfl
  · exact blockEvents_fault hm _

private theorem pass_resolve (r : PassRecord) (now : Nat) :
    (r.resolve now).pass = r.pass := by
  unfold PassRecord.resolve PassRecord.finish
  split <;> rfl

theorem components_resolve (r : PassRecord) (now : Nat) :
    (r.resolve now).components = r.components := by
  unfold PassRecord.resolve PassRecord.finish
  split <;> rfl

private theorem blockEvents_finishPass (hm : s.mode = .watch)
    (hc : s.closing = false) (record : PassRecord) (version : Nat) :
    ∃ diagnostics hasError duration,
    (s.finishPass record version).blockEvents = s.blockEvents ++
      [.passFinished record.pass record.components.length diagnostics hasError
        duration] := by
  have hresolved : (s.resolvedPass record).blockEvents =
      s.blockEvents ++ [finishedEvent (record.resolve s.clock)] :=
    blockEvents_emit (s := { s with resolved := s.resolved + 1 }) rfl
  rw [finishedEvent, pass_resolve, components_resolve] at hresolved
  refine ⟨_, _, _, Eq.trans ?_ hresolved⟩
  rw [finishPass_open hc, hm]
  dsimp only
  split
  · exact blockEvents_complete _ _ _
  · rfl

private theorem isRebuild_nextRecord (s : Session υ σ) :
    s.nextRecord.isRebuild = (s.passes + 1 != 1) := by
  unfold nextRecord
  split <;> simp_all [PassRecord.fullBuild, PassRecord.rebuild, PassRecord.start]

private theorem pass_nextRecord (s : Session υ σ) :
    s.nextRecord.pass = s.passes + 1 := by
  unfold nextRecord
  split <;> simp [PassRecord.fullBuild, PassRecord.rebuild, PassRecord.start]

/-! ## The course of the passes -/

/-- The snapshots that the updates reported so far are those whose passes are
over, with their blocks, then the one whose pass is on, with what there is of
its block, then those still to come. -/
inductive Reporting (config : Config) (s : Session υ σ) : List Snapshot → Prop
  | outside {done : List Snapshot} (hr : s.activity.isRunning = false)
      (hp : s.passes = done.length)
      (hes : Blocks config done s.blockEvents) : Reporting config s done
  | updating {done rest : List Snapshot} {before : Nat} {ending : UpdateEnd}
      (ha : s.activity = .updating before rest ending)
        (hp : s.passes = done.length)
      (hes : Blocks config done s.blockEvents) : Reporting config s (done ++ rest)
  | begun {done rest : List Snapshot} {before : Nat} {ending : UpdateEnd}
      {record : PassRecord}
      {snapshot : Snapshot} {es : List BuildEvent}
      (ha : s.activity = .begun record snapshot before rest ending)
      (hp : s.passes = done.length + 1) (hrecord : record.pass = done.length + 1)
      (hes : Blocks config done es)
      (hbegun : s.blockEvents =
        es ++ [.passStarted (done.length + 1) (done.length + 1 != 1)]) :
      Reporting config s (done ++ snapshot :: rest)
  | committed {done rest : List Snapshot} {before version : Nat}
      {ending : UpdateEnd}
      {record : PassRecord} {snapshot : Snapshot} {es block : List BuildEvent}
      (ha : s.activity = .committed record version before rest ending)
      (hp : s.passes = done.length + 1) (hrecord : record.pass = done.length + 1)
      (hcomponents : record.components = snapshot.components)
        (hes : Blocks config done es)
      (hblock : CommittedBlock config (done.length + 1) snapshot block)
      (hbegun : s.blockEvents = es ++ block) :
      Reporting config s (done ++ snapshot :: rest)

namespace Reporting

theorem same (h : Reporting config s reported) (ha : t.activity = s.activity)
    (hp : t.passes = s.passes) (hb : t.blockEvents = s.blockEvents) :
    Reporting config t reported := by
  cases h with
  | outside hr hp' hes => exact .outside (ha ▸ hr) (hp.trans hp') (hb ▸ hes)
  | updating ha' hp' hes =>
      exact .updating (ha.trans ha') (hp.trans hp') (hb ▸ hes)
  | begun ha' hp' hrecord hes hbegun =>
      exact .begun (ha.trans ha') (hp.trans hp') hrecord hes (hb.trans hbegun)
  | committed ha' hp' hrecord hcomponents hes hblock hbegun =>
      exact .committed (ha.trans ha') (hp.trans hp') hrecord
        hcomponents hes hblock
        (hb.trans hbegun)

theorem at_rest (h : Reporting config s reported)
    (hr : s.activity.isRunning = false) :
    s.passes = reported.length ∧ Blocks config reported s.blockEvents := by
  cases h with
  | outside _ hp hes => exact ⟨hp, hes⟩
  | updating ha | begun ha | committed ha => simp [ha, Activity.isRunning] at hr

/-- The events so far are the first ones of the blocks of all the snapshots. -/
theorem prefix_blocks (h : Reporting config s reported) :
    ∃ es, Blocks config reported es ∧ s.blockEvents <+: es := by
  cases h with
  | outside hr hp hes => exact ⟨_, hes, List.prefix_refl _⟩
  | updating ha hp hes => exact hes.extend _
  | @begun done rest before ending record snapshot es ha hp hrecord hes hbegun =>
      obtain ⟨later, hlater⟩ :=
        exists_committedBlock config (done.length + 1) snapshot
      obtain ⟨block, hblock, hprefix⟩ := hlater.finish
      rw [hbegun]
      exact hes.extend_begun hblock
        ((List.prefix_append [_] later).trans hprefix) rest
  | committed ha hp hrecord hcomponents hes hblock hbegun =>
      obtain ⟨block, hwhole, hprefix⟩ := hblock.finish
      rw [hbegun]
      exact hes.extend_begun hwhole hprefix _

variable [Storage σ] {frontend : Frontend υ (Workspace σ)}

theorem worked (h : Reporting config s reported) (hwatching : s.Watching)
    (hopen : s.closing = false) (hconfig : s.config = config)
    (hstep : Worked frontend s t) :
    Reporting config t
      (reported ++ (s.nextUpdate? frontend).toList.flatMap
        UpdateResult.snapshots) := by
  have hsilent (hnone : s.nextUpdate? frontend = none)
      (ht : Reporting config t reported) :
      Reporting config t
        (reported ++ (s.nextUpdate? frontend).toList.flatMap
          UpdateResult.snapshots) := by
    rw [hnone]
    simpa using ht
  have hguard := hwatching.guard
  cases h with
  | outside hr hp hes =>
      obtain ⟨hw, ⟨hd, rfl⟩ | ⟨hd, command, queue, -, rfl⟩⟩ := hstep.outside hr
      · obtain ⟨unit, hu⟩ := Option.isSome_iff_exists.1 hwatching.unit
        rw [hw] at hguard
        have hevents : (s.fire frontend).blockEvents = s.blockEvents := by
          rw [fire_idle frontend hguard hu]
          simp [blockEvents, events]
        rw [nextUpdate?_fire frontend hw hd hguard hu, Option.toList_some,
          List.flatMap_singleton]
        rw [fire_idle frontend hguard hu] at hevents ⊢
        exact .updating rfl hp (hevents ▸ hes)
      · refine hsilent (nextUpdate?_not_due hd) (.outside ?_ hp hes)
        dsimp only
        split <;> rfl
  | @updating done rest before ending ha hp hes =>
      rw [ha] at hguard
      refine hsilent (nextUpdate?_running (by rw [ha]; rfl)) ?_
      cases hstep with
      | fired ha' | took ha' | built ha' | finished ha' => cases ha.symm.trans ha'
      | began ha' =>
          cases ha.symm.trans ha'
          rw [beginPass_idle hguard, isRebuild_nextRecord]
          refine .begun rfl (congrArg (· + 1) hp) ?_ hes ?_
          · rw [pass_nextRecord, hp]
          · rw [← hp]
            exact blockEvents_emit rfl
      | ended ha' =>
          cases ha.symm.trans ha'
          rw [List.append_nil]
          refine .outside rfl ((frame_passes.finishUpdate _ _ _).2.trans hp) ?_
          have hevents :=
            blockEvents_finishUpdate hwatching.mode hguard before ending
          exact hevents ▸ hes
  | @begun done rest before ending record snapshot es ha hp hrecord hes hbegun =>
      refine hsilent (nextUpdate?_running (by rw [ha]; rfl)) ?_
      cases hstep with
      | fired ha' | took ha' | began ha' | ended ha' | finished ha' =>
          cases ha.symm.trans ha'
      | built ha' =>
          cases ha.symm.trans ha'
          obtain ⟨artifacts, report, hartifacts, hevents⟩ :=
            Pass.exists_events_build s.config s.workspace record snapshot
          have hsame := Pass.samePass_build s.config s.workspace record snapshot
          have hemitted :=
            blockEvents_build s.config s.workspace record snapshot s
          rw [hconfig] at hartifacts
          refine .committed rfl hp (hsame.pass.trans hrecord)
            (Pass.components_build _ _ _ _) hes
            (.intro report hartifacts) (hemitted.trans ?_)
          rw [hbegun, hevents, List.append_assoc, List.singleton_append, hrecord]
  | @committed done rest before version ending record snapshot es block ha hp
      hrecord hcomponents hes
      hblock hbegun =>
      refine hsilent (nextUpdate?_running (by rw [ha]; rfl)) ?_
      cases hstep with
      | fired ha' | took ha' | began ha' | ended ha' | built ha' =>
          cases ha.symm.trans ha'
      | finished ha' =>
          cases ha.symm.trans ha'
          obtain ⟨diagnostics, hasError, duration, hevents⟩ :=
            blockEvents_finishPass hwatching.mode hopen record version
          rw [hrecord, hcomponents, hbegun, List.append_assoc] at hevents
          have hdone := hes.next (.intro diagnostics hasError duration hblock)
          rw [← List.singleton_append, ← List.append_assoc]
          refine .updating rfl ?_ (hevents ▸ hdone)
          rw [List.length_append, List.length_singleton, ← hp]
          exact (frame_passes.finishPass s record version).2

end Reporting

end Session

end ComponentBuild
