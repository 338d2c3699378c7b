import ComponentBuild.Proofs.Session.Completion
import ComponentBuild.Proofs.Session.Life

/-!
# Tearing down a session whose worker is in an update

The guard is terminated by the pass that resolves a full build, and by the owner
after the worker has stopped.  Between these a snapshot finds the guard idle,
whether or not the session is closing: the flag is looked at after a pass, not
before it.  So a session that is being torn down spares its late snapshots
exactly where they come after the result of a full build.
-/

namespace ComponentBuild

namespace Session

variable {υ σ : Type} {frontend : Frontend υ (Workspace σ)} {s t u : Session υ σ}

def starts (s : Session υ σ) : Nat :=
  s.events.countP BuildEvent.isPassStart

def IsOver (s : Session υ σ) : Prop :=
  s.mode = .full ∧ s.resolved ≠ 0

/-- The first pass is on or was brought to an end, or none is wanted any more. -/
def IsTried (s : Session υ σ) : Prop :=
  s.activity.holdsToken = true ∨ s.resolved ≠ 0 ∨ s.closing = true

def reportsNext (s : Session υ σ) : Bool :=
  match s.activity with
  | .updating _ (_ :: _) _ => true
  | _ => false

private theorem holdsToken_of_reportsNext (h : s.reportsNext = true) :
    s.activity.holdsToken = false := by
  cases ha : s.activity with
  | updating before snapshots ending => rfl
  | waiting | begun record snapshot before rest ending
  | committed record version before rest ending | stopped =>
      simp [reportsNext, ha] at h

/-! ## The guard between two steps of the worker -/

structure Guarded (s : Session υ σ) : Prop where
  ended : s.IsOver → s.guard = .terminal
  running : s.activity.isRunning = true → ¬ s.IsOver →
    s.guard = if s.activity.holdsToken then .building else .idle

private theorem starts_emit {e : BuildEvent} (he : e.isPassStart = false)
    (s : Session υ σ) :
    (s.emit e).starts = s.starts := by
  simp [starts, events_emit, he]

private theorem starts_emit_start (s : Session υ σ) (pass : Nat)
    (isRebuild : Bool) :
    (s.emit (.passStarted pass isRebuild)).starts = s.starts + 1 := by
  rw [starts, events_emit, List.countP_append]
  rfl

private theorem resolved_fault (s : Session υ σ) (e : BuildError) :
    (s.fault e).resolved = s.resolved := by
  have hcount : (s.faultTasks e).countP WorkerTask.isCount = 0 := by
    unfold faultTasks
    cases s.mode with
    | full => rfl
    | watch =>
        dsimp only
        split <;> rfl
  rw [← carryOutAll_faultTasks, resolved_carryOutAll, hcount, Nat.add_zero]

private theorem resolved_finishUpdate (s : Session υ σ) (before : Nat)
    (ending : UpdateEnd) :
    (s.finishUpdate before ending).resolved = s.resolved := by
  cases ending with
  | failed e => exact resolved_fault s e
  | brokeDown message => exact resolved_fault s _
  | done =>
      rw [finishUpdate]
      split
      · rw [closeUnit_eq]
      · split
        · exact resolved_fault s _
        · rfl

private theorem resolved_finishPass (s : Session υ σ) (record : PassRecord)
    (version : Nat) :
    (s.finishPass record version).resolved =
      if s.closing = true then s.resolved else s.resolved + 1 := by
  rw [← carryOutAll_passTasks, resolved_carryOutAll]
  unfold passTasks
  split
  · rfl
  · cases s.mode with
    | full => rfl
    | watch =>
        dsimp only
        split <;> rfl

private theorem guard_finishPass (s : Session υ σ) (record : PassRecord)
    (version : Nat) :
    (s.finishPass record version).guard =
      if s.closing = false ∧ s.mode = .full then .terminal
        else s.guard.release := by
  cases hc : s.closing with
  | true =>
      rw [finishPass_closing hc]
      rfl
  | false =>
      rw [finishPass_open hc]
      cases s.mode with
      | full => exact guard_complete _ _ _
      | watch =>
          dsimp only
          split
          · exact guard_complete _ _ _
          · rfl

structure Fired (s t : Session υ σ) : Prop where
  mode : t.mode = s.mode
  guard : t.guard = s.guard
  passes : t.passes = s.passes
  resolved : t.resolved = s.resolved
  result : t.result = s.result
  events : t.events = s.events
  hub : t.hub = s.hub
  notifiers : t.notifiers = s.notifiers
  activity :
    t.activity = s.activity ∨ s.guard = .idle ∧ t.activity.holdsToken = false

theorem fired_fire (frontend : Frontend υ (Workspace σ)) (s : Session υ σ) :
    Fired s (s.fire frontend) := by
  by_cases hg : s.guard = .idle
  · cases hu : s.unit with
    | none =>
        rw [fire_unmade frontend hu]
        exact ⟨rfl, rfl, rfl, rfl, rfl, rfl, rfl, rfl, .inl rfl⟩
    | some unit =>
        rw [fire_idle frontend hg hu]
        exact ⟨rfl, rfl, rfl, rfl, rfl, by simp [events], rfl, rfl,
          .inr ⟨hg, rfl⟩⟩
  · rw [fire_busy frontend hg]
    exact ⟨rfl, rfl, rfl, rfl, rfl, rfl, rfl, rfl, .inl rfl⟩

section

variable [Storage σ]

theorem Guarded.worked (h : Guarded s) (hstep : Worked frontend s t) :
    Guarded t := by
  cases hstep with
  | fired hw hd =>
      have hfired := fired_fire frontend s
      have hover : (s.fire frontend).IsOver ↔ s.IsOver := by
        rw [IsOver, IsOver, hfired.mode, hfired.resolved]
      refine ⟨fun h' => hfired.guard.trans (h.ended (hover.1 h')), fun hr _ => ?_⟩
      rcases hfired.activity with hsame | ⟨hidle, hheld⟩
      · rw [hsame, hw] at hr
        cases hr
      · rw [hheld]
        exact hfired.guard.trans hidle
  | took hw hd hq =>
      refine ⟨h.ended, fun hr => ?_⟩
      dsimp only at hr
      split at hr <;> cases hr
  | @began before snapshot rest ending ha =>
      have hr : s.activity.isRunning = true := by rw [ha]; rfl
      by_cases hg : s.guard = .idle
      · rw [beginPass_idle hg]
        refine ⟨fun hover => ?_, fun _ _ => rfl⟩
        have hterminal := h.ended hover
        rw [hg] at hterminal
        cases hterminal
      · rw [beginPass_busy hg]
        refine ⟨h.ended, fun _ hopen => ?_⟩
        have hidle := h.running hr hopen
        rw [ha] at hidle
        exact absurd hidle hg
  | @ended before ending ha =>
      have hinside := Inside.frame.finishUpdate s before ending
      refine ⟨fun hover => ?_, fun hr => by cases hr⟩
      have hsame : s.IsOver :=
        ⟨hinside.mode.symm.trans hover.1,
          resolved_finishUpdate s before ending ▸ hover.2⟩
      exact hinside.terminal (h.ended hsame)
  | @built record snapshot before rest ending ha =>
      refine ⟨h.ended, fun _ hopen => ?_⟩
      have hr : s.activity.isRunning = true := by rw [ha]; rfl
      have hbuilding := h.running hr hopen
      rw [ha] at hbuilding
      exact hbuilding
  | @finished record version before rest ending ha =>
      have hr : s.activity.isRunning = true := by rw [ha]; rfl
      have hmode : (s.finishPass record version).mode = s.mode :=
        (Inside.frame.finishPass s _ _).mode
      have hresolved := resolved_finishPass s record version
      have hguard := guard_finishPass s record version
      by_cases hresolves : s.closing = false ∧ s.mode = .full
      · rw [if_pos hresolves] at hguard
        refine ⟨fun _ => hguard,
          fun _ hopen => absurd ⟨hmode.trans hresolves.2, ?_⟩ hopen⟩
        simp [hresolved, hresolves.1]
      · rw [if_neg hresolves] at hguard
        have hover : s.IsOver ↔ (s.finishPass record version).IsOver := by
          rw [IsOver, IsOver, hmode, hresolved]
          cases hc : s.closing <;> simp_all
        refine ⟨fun h' => ?_, fun _ hopen => ?_⟩
        · exact hguard.trans (by rw [h.ended (hover.2 h')]; rfl)
        · have hbuilding := h.running hr (fun h' => hopen (hover.1 h'))
          rw [ha] at hbuilding
          exact hguard.trans (by rw [hbuilding]; rfl)

theorem IsTried.worked (h : s.IsTried) (hstep : Worked frontend s t) :
    t.IsTried := by
  have hclosing := hstep.fixed.2
  cases hstep with
  | fired hw hd =>
      rcases h with h | h
      · rw [hw] at h
        cases h
      · rw [IsTried, (fired_fire frontend s).resolved, hclosing]
        exact .inr h
  | took hw hd hq =>
      rcases h with h | h
      · rw [hw] at h
        cases h
      · exact .inr h
  | @began before snapshot rest ending ha =>
      by_cases hg : s.guard = .idle
      · rw [beginPass_idle hg]
        exact .inl rfl
      · rw [beginPass_busy hg]
        rcases h with h | h
        · rw [ha] at h
          cases h
        · exact .inr h
  | @ended before ending ha =>
      rcases h with h | h
      · rw [ha] at h
        cases h
      · refine .inr ?_
        rw [hclosing]
        exact h.imp_left fun h =>
          (resolved_finishUpdate s before ending).trans_ne h
  | built ha => exact .inl rfl
  | @finished record version before rest ending ha =>
      refine .inr ?_
      cases hc : s.closing with
      | true => exact .inr (hclosing.trans hc)
      | false =>
          have hresolved := resolved_finishPass s record version
          refine .inl ?_
          simp [hresolved, hc]

/-- A pass begins only with a report that finds the guard idle. -/
theorem Worked.starts_cases (hstep : Worked frontend s t)
    (hn : s.nextTasks? = none) :
    t.mode = s.mode ∧ (t.starts = s.starts ∧ t.passes = s.passes ∨
      s.reportsNext = true ∧ s.guard = .idle ∧ t.activity.holdsToken = true ∧
        t.starts = s.starts + 1 ∧ t.passes = s.passes + 1) := by
  cases hstep with
  | fired hw hd =>
      have hfired := fired_fire frontend s
      exact ⟨hfired.mode, .inl ⟨congrArg (List.countP _) hfired.events,
        hfired.passes⟩⟩
  | took hw hd hq => exact ⟨rfl, .inl ⟨rfl, rfl⟩⟩
  | @began before snapshot rest ending ha =>
      by_cases hg : s.guard = .idle
      · rw [beginPass_idle hg]
        exact ⟨rfl, .inr ⟨by rw [reportsNext, ha], hg, rfl,
          starts_emit_start s _ _, rfl⟩⟩
      · rw [beginPass_busy hg]
        exact ⟨rfl, .inl ⟨starts_emit rfl s, rfl⟩⟩
  | @built record snapshot before rest ending ha =>
      refine ⟨rfl, .inl ⟨?_, rfl⟩⟩
      have hnone : (Pass.build s.config s.workspace record snapshot).events.countP
          BuildEvent.isPassStart = 0 := by
        rw [List.countP_eq_zero]
        intro e he
        have hpass :=
          Pass.isOfPass_build s.config s.workspace record snapshot e he
        cases e <;> simp_all [BuildEvent.isOfPass, BuildEvent.isPassStart]
      have hevents := events_emitAll
        { s with workspace := (Pass.build s.config s.workspace record
          snapshot).workspace }
        (Pass.build s.config s.workspace record snapshot).events
      have hstarts := congrArg (List.countP BuildEvent.isPassStart) hevents
      rw [List.countP_append, hnone, Nat.add_zero] at hstarts
      exact hstarts
  | ended ha => simp [nextTasks?, ha] at hn
  | finished ha => simp [nextTasks?, ha] at hn

structure Spares (s t : Session υ σ) : Prop where
  starts : t.starts = s.starts
  passes : t.passes = s.passes
  mode : t.mode = s.mode
  storage : t.workspace.storage = s.workspace.storage
  closing : s.closing = true → t.closing = true

structure Alike (s t : Session υ σ) : Prop where
  mode : t.mode = s.mode
  guard : t.guard = s.guard
  activity : t.activity = s.activity
  resolved : t.resolved = s.resolved

end

namespace Spares

private theorem refl (s : Session υ σ) : Spares s s :=
  ⟨rfl, rfl, rfl, rfl, id⟩

private theorem emit {e : BuildEvent} (he : e.isPassStart = false)
    (s : Session υ σ) :
    Spares s (s.emit e) :=
  ⟨starts_emit he s, rfl, rfl, rfl, id⟩

private theorem closeUnit (s : Session υ σ) : Spares s s.closeUnit := by
  refine ⟨?_, ?_, ?_, ?_, ?_⟩
  · rw [Session.starts, events_closeUnit, Session.starts]
  all_goals simp [closeUnit_eq]

private theorem carryOut (s : Session υ σ) (task : WorkerTask) :
    Spares s (s.carryOut task) := by
  cases task with
  | supersede version => exact emit rfl s
  | announce record => exact emit rfl s
  | report message => exact emit rfl s
  | complete pass result =>
      rw [Session.carryOut, complete_eq]
      split
      · exact emit rfl s
      · exact ⟨rfl, rfl, rfl, rfl, id⟩
  | closeUnit => exact closeUnit s
  | count | closeNotifiers | cancel | terminate | release | goOn activity =>
      exact ⟨rfl, rfl, rfl, rfl, id⟩

private theorem trans (h : Spares s t) (h' : Spares t u) : Spares s u :=
  ⟨h'.starts.trans h.starts, h'.passes.trans h.passes, h'.mode.trans h.mode,
    h'.storage.trans h.storage, h'.closing ∘ h.closing⟩

private theorem carryOutAll (s : Session υ σ) (tasks : List WorkerTask) :
    Spares s (s.carryOutAll tasks) := by
  induction tasks generalizing s with
  | nil => exact refl s
  | cons task tasks ih => exact (carryOut s task).trans (ih _)

end Spares

namespace Alike

private theorem closeUnit (s : Session υ σ) : Alike s s.closeUnit := by
  rw [closeUnit_eq]
  exact ⟨rfl, rfl, rfl, rfl⟩

private theorem carryOut (h : Alike s t) (task : WorkerTask) :
    Alike (s.carryOut task) (t.carryOut task) := by
  obtain ⟨hmode, hguard, hactivity, hresolved⟩ := h
  cases task with
  | complete pass result =>
      simp only [Session.carryOut, complete_eq]
      constructor <;> split <;> split <;> assumption
  | closeUnit =>
      simp only [Session.carryOut, closeUnit_eq]
      exact ⟨hmode, hguard, hactivity, hresolved⟩
  | count => exact ⟨hmode, hguard, hactivity, congrArg (· + 1) hresolved⟩
  | terminate =>
      exact ⟨hmode, congrArg PassGuard.terminate hguard, hactivity, hresolved⟩
  | release =>
      exact ⟨hmode, congrArg PassGuard.release hguard, hactivity, hresolved⟩
  | goOn activity => exact ⟨hmode, hguard, rfl, hresolved⟩
  | supersede version | announce record | report message
  | closeNotifiers | cancel =>
      exact ⟨hmode, hguard, hactivity, hresolved⟩

private theorem carryOutAll (h : Alike s t) (tasks : List WorkerTask) :
    Alike (s.carryOutAll tasks) (t.carryOutAll tasks) := by
  induction tasks generalizing s t with
  | nil => exact h
  | cons task tasks ih => exact ih (h.carryOut task)

private theorem guarded (h : Alike s t) (hs : Guarded s) : Guarded t := by
  have hover : t.IsOver ↔ s.IsOver := by rw [IsOver, IsOver, h.mode, h.resolved]
  refine ⟨fun h' => h.guard.trans (hs.ended (hover.1 h')), ?_⟩
  rw [h.guard, h.activity, hover]
  exact hs.running

end Alike

end Session

namespace Life

open Session

variable {υ σ : Type} {frontend : Frontend υ (Workspace σ)} {refuse : Path →
    Option BuildError}
  {l l' : Life υ σ}

/-! ## Moves beside the steps of the worker -/

private theorem holdsToken_nextTasks {s : Session υ σ} {tasks : List WorkerTask}
    (h : s.nextTasks? = some tasks) :
    (s.carryOutAll tasks).activity.holdsToken = false := by
  unfold nextTasks? at h
  split at h
  · cases h
    rw [carryOutAll_append]
    rfl
  · cases h
    rw [carryOutAll_append]
    rfl
  · cases h

private theorem closing_settled (l : Life υ σ) :
    l.settled.closing = l.session.closing := by
  have hkeep (s : Session υ σ) (task : WorkerTask) :
      (s.carryOut task).closing = s.closing := by
    cases task with
    | complete pass result => exact (Inside.frame.complete s pass result).closing
    | closeUnit => exact (Inside.frame.closeUnit s).closing
    | _ => rfl
  have hall (tasks : List WorkerTask) (s : Session υ σ) :
      (s.carryOutAll tasks).closing = s.closing := by
    induction tasks generalizing s with
    | nil => rfl
    | cons task tasks ih => exact (ih _).trans (hkeep s task)
  exact hall _ _

structure Aside (l l' : Life υ σ) : Prop where
  session : Spares l.session l'.session
  late : l'.late = l.late
  activity : l'.settled.activity = l.settled.activity
  resolved : l'.settled.resolved = l.settled.resolved
  guarded : Guarded l.settled → Guarded l'.settled

namespace Aside

private theorem of_alike (hs : Spares l.session l'.session)
    (ha : Alike l.session l'.session) (ht : l'.todo = l.todo)
    (hl : l'.late = l.late) : Aside l l' := by
  have hsettled : Alike l.settled l'.settled := by
    rw [settled, settled, ht]
    exact ha.carryOutAll _
  exact ⟨hs, hl, hsettled.activity, hsettled.resolved, hsettled.guarded⟩

private theorem refl (l : Life υ σ) : Aside l l :=
  ⟨.refl _, rfl, rfl, rfl, id⟩

private theorem carryOut {task : WorkerTask} {todo : List WorkerTask}
    (ht : l.todo = task :: todo) :
    Aside l (l.carryOut task todo) := by
  have hsettled : (l.carryOut task todo).settled = l.settled := by
    rw [settled, session_carryOut, todo_carryOut, settled, ht]
    rfl
  refine ⟨?_, ?_, ?_, ?_, ?_⟩
  · rw [session_carryOut]
    exact .carryOut l.session task
  · cases task <;> rfl
  · rw [hsettled]
  · rw [hsettled]
  · rw [hsettled]
    exact id

private theorem call (refuse : Path → Option BuildError) (l : Life υ σ) :
    Aside l (l.call refuse) := by
  unfold Life.call
  split
  · split
    · exact of_alike ⟨rfl, rfl, rfl, rfl, id⟩ ⟨rfl, rfl, rfl, rfl⟩ rfl rfl
    · exact of_alike ⟨rfl, rfl, rfl, rfl, id⟩ ⟨rfl, rfl, rfl, rfl⟩ rfl rfl
  · exact of_alike ⟨rfl, rfl, rfl, rfl, id⟩ ⟨rfl, rfl, rfl, rfl⟩ rfl rfl
  · exact of_alike ⟨rfl, rfl, rfl, rfl, id⟩ ⟨rfl, rfl, rfl, rfl⟩ rfl rfl
  · exact of_alike ⟨rfl, rfl, rfl, rfl, fun _ => rfl⟩ ⟨rfl, rfl, rfl, rfl⟩ rfl rfl
  · exact of_alike ⟨rfl, rfl, rfl, rfl, id⟩ ⟨rfl, rfl, rfl, rfl⟩ rfl rfl
  · exact of_alike ⟨rfl, rfl, rfl, rfl, id⟩ ⟨rfl, rfl, rfl, rfl⟩ rfl rfl
  · exact of_alike ⟨rfl, rfl, rfl, rfl, id⟩ ⟨rfl, rfl, rfl, rfl⟩ rfl rfl
  · split
    · -- Here the guard changes, but the worker has stopped.
      rename_i hjoin
      have ht : l.todo = [] := List.isEmpty_iff.1 hjoin.2
      refine ⟨⟨rfl, rfl, rfl, rfl, id⟩, rfl, ?_, ?_, fun _ => ?_⟩
      · simp [settled, ht, carryOutAll]
      · simp [settled, ht, carryOutAll]
      · rw [settled_of_empty (by exact ht)]
        refine ⟨fun _ => rfl, fun hr => ?_⟩
        simp [hjoin.1, Activity.isRunning] at hr
    · exact refl l
  · exact of_alike (.closeUnit l.session) (.closeUnit l.session) rfl rfl
  · exact refl l

variable [Storage σ]

private theorem perform {move : Move} (hm : move ≠ .work)
    (frontend : Frontend υ (Workspace σ))
    (refuse : Path → Option BuildError) (l : Life υ σ) :
    Aside l (l.perform frontend refuse move) := by
  cases move with
  | work => exact absurd rfl hm
  | call => exact call refuse l
  | wait time =>
      exact of_alike ⟨rfl, rfl, rfl, rfl, id⟩ ⟨rfl, rfl, rfl, rfl⟩ rfl rfl
  | change path =>
      exact of_alike ⟨rfl, rfl, rfl, rfl, id⟩ ⟨rfl, rfl, rfl, rfl⟩ rfl rfl
  | notice n =>
      simp only [Life.perform]
      split
      · rename_i path hpath
        refine of_alike ⟨?_, rfl, rfl, rfl, id⟩ ⟨rfl, rfl, rfl, rfl⟩ rfl rfl
        exact starts_emit rfl
          { l.session with
            workspace := l.session.workspace.clearFileCache path.normalize }
      · exact refl l

end Aside

/-! ## Snapshots reported in time -/

/-- A move for a snapshot that was reported when the session was closing already
begins no pass and leaves storage alone; and a full build never begins a second
pass. -/
structure Spared [Storage σ] (frontend : Frontend υ (Workspace σ))
    (refuse : Path → Option BuildError) (l : Life υ σ) (move : Move) :
    Prop where
  starts : (l.perform frontend refuse move).late = true →
    (l.perform frontend refuse move).session.starts = l.session.starts
  storage : (l.perform frontend refuse move).late = true →
    (l.perform frontend refuse move).session.workspace.storage =
      l.session.workspace.storage
  once : (l.perform frontend refuse move).session.mode = .full →
    (l.perform frontend refuse move).session.starts ≤ 1

/-- A snapshot that is reported when the session is closing comes after the
result of a full build. -/
def InTime (l : Life υ σ) (move : Move) : Prop :=
  move = .work → l.todo = [] → l.session.reportsNext = true →
  l.session.closing = true →
    l.session.IsOver

def Throughout [Storage σ] (frontend : Frontend υ (Workspace σ))
    (refuse : Path → Option BuildError) (P : Life υ σ → Move → Prop)
    (l : Life υ σ) : List Move → Prop
  | [] => True
  | move :: moves =>
      P l move ∧ Throughout frontend refuse P (l.perform frontend refuse move)
        moves

structure Sparing (l : Life υ σ) : Prop where
  guarded : Guarded l.settled
  late : l.late = true → l.settled.activity.holdsToken = false
  starts : l.session.starts = l.session.passes
  first : l.session.mode = .full →
    l.session.passes = 0 ∨ l.session.passes = 1 ∧ l.settled.IsTried

namespace Sparing

private theorem aside (h : Sparing l) (ha : Aside l l') : Sparing l' := by
  have htried : l.settled.IsTried → l'.settled.IsTried := by
    rw [IsTried, IsTried, ha.activity, ha.resolved, closing_settled,
      closing_settled]
    exact Or.imp_right (Or.imp_right ha.session.closing)
  refine ⟨ha.guarded h.guarded, ?_, ?_, ?_⟩
  · rw [ha.late, ha.activity]
    exact h.late
  · rw [ha.session.starts, ha.session.passes]
    exact h.starts
  · rw [ha.session.mode, ha.session.passes]
    exact fun hm => (h.first hm).imp_right (And.imp_right htried)

variable [Storage σ]

private theorem read {tasks : List WorkerTask} (h : Sparing l)
    (frontend : Frontend υ (Workspace σ)) (ht : l.todo = [])
    (hn : l.session.nextTasks? = some tasks) :
    Sparing { l with todo := tasks } := by
  have hwork : l.session.work frontend = some (l.session.carryOutAll tasks) :=
    work_of_nextTasks hn
  have hstep := worked_of_work hwork
  have hsettled := settled_of_empty ht
  refine ⟨?_, fun _ => holdsToken_nextTasks hn, h.starts, ?_⟩
  · exact (hsettled ▸ h.guarded).worked hstep
  · exact fun hm => (h.first hm).imp_right (And.imp_right fun htried =>
      (hsettled ▸ htried).worked hstep)

private theorem late_step {s : Session υ σ} (h : Sparing l)
    (hin : InTime l .work) (ht : l.todo = []) (hn : l.session.nextTasks? = none)
    (hs : Session.Worked frontend l.session s) (hlate : l.nextLate = true) :
    s.activity.holdsToken = false ∧ s.starts = l.session.starts ∧
      s.workspace.storage = l.session.workspace.storage := by
  cases hs with
  | fired hw hd => simp [nextLate, hw] at hlate
  | took hw hd hq => simp [nextLate, hw] at hlate
  | @began before snapshot rest ending ha =>
      have hclosing : l.session.closing = true := by
        simpa [nextLate, ha] using hlate
      have hover := hin rfl ht (by rw [reportsNext, ha]) hclosing
      have hterminal : l.session.guard = .terminal :=
        (settled_of_empty ht ▸ h.guarded).ended hover
      have hbusy : l.session.guard ≠ .idle := by simp [hterminal]
      rw [beginPass_busy hbusy]
      exact ⟨rfl, starts_emit rfl l.session, rfl⟩
  | @built record snapshot before rest ending ha =>
      have hheld : l.session.activity.holdsToken = false :=
        settled_of_empty ht ▸ h.late (by simpa [nextLate, ha] using hlate)
      rw [ha] at hheld
      cases hheld
  | ended ha => simp [nextTasks?, ha] at hn
  | finished ha => simp [nextTasks?, ha] at hn

private theorem stepped {s : Session υ σ} (h : Sparing l) (hin : InTime l .work)
    (ht : l.todo = []) (hn : l.session.nextTasks? = none)
    (hs : Session.Worked frontend l.session s) :
    Sparing { l with session := s, late := l.nextLate } := by
  have hbefore := settled_of_empty ht
  have hafter : settled { l with session := s, late := l.nextLate } = s :=
    settled_of_empty ht
  have hguarded : Guarded l.session := hbefore ▸ h.guarded
  refine ⟨?_, fun hlate => ?_, ?_, fun hm => ?_⟩
  · rw [hafter]
    exact hguarded.worked hs
  · rw [hafter]
    exact (h.late_step hin ht hn hs hlate).1
  · obtain ⟨-, ⟨hstarts, hpasses⟩ | ⟨-, -, -, hstarts, hpasses⟩⟩ :=
      hs.starts_cases hn
    · exact hstarts.trans (h.starts.trans hpasses.symm)
    · exact hstarts.trans ((congrArg (· + 1) h.starts).trans hpasses.symm)
  · rw [hafter]
    obtain ⟨hmode, ⟨-, hpasses⟩ | ⟨hreports, hidle, hholds, -, hpasses⟩⟩ :=
      hs.starts_cases hn
    · have hfirst := h.first (hmode.symm.trans hm)
      rw [hbefore] at hfirst
      rw [hpasses]
      exact hfirst.imp_right (And.imp_right fun htried => htried.worked hs)
    · -- The guard is idle, so that no pass was resolved, and this is the first.
      have hopen : ¬ l.session.IsOver := fun hover => by
        have hterminal := hguarded.ended hover
        rw [hidle] at hterminal
        cases hterminal
      have hnot : ¬ l.session.IsTried := by
        rintro (hheld | hresolved | hclosing)
        · rw [holdsToken_of_reportsNext hreports] at hheld
          cases hheld
        · exact hopen ⟨hmode.symm.trans hm, hresolved⟩
        · exact hopen (hin rfl ht hreports hclosing)
      have hfirst := h.first (hmode.symm.trans hm)
      rw [hbefore] at hfirst
      have hnone : l.session.passes = 0 := hfirst.resolve_right fun h => hnot h.2
      exact .inr ⟨hpasses.trans (congrArg (· + 1) hnone), .inl hholds⟩

private theorem worked (h : Sparing l) (hin : InTime l .work)
    (hstep : Life.Worked frontend l l') :
    Sparing l' := by
  cases hstep with
  | carried ht => exact h.aside (.carryOut ht)
  | read ht hn => exact h.read frontend ht hn
  | stepped ht hn hs => exact h.stepped hin ht hn hs
  | waited ht hs => exact h

private theorem perform (h : Sparing l) {move : Move} (hin : InTime l move)
    (frontend : Frontend υ (Workspace σ)) (refuse : Path → Option BuildError) :
    Sparing (l.perform frontend refuse move) := by
  by_cases hmove : move = .work
  · subst hmove
    exact h.worked hin (Life.worked frontend l)
  · exact h.aside (.perform hmove frontend refuse l)

private theorem spared_work (h : Sparing l) (hin : InTime l .work)
    (hstep : Life.Worked frontend l l') (hlate : l'.late = true) :
    l'.session.starts = l.session.starts ∧
      l'.session.workspace.storage = l.session.workspace.storage := by
  cases hstep with
  | carried ht =>
      have haside := Aside.carryOut ht
      exact ⟨haside.session.starts, haside.session.storage⟩
  | read ht hn => exact ⟨rfl, rfl⟩
  | stepped ht hn hs => exact (h.late_step hin ht hn hs hlate).2
  | waited ht hs => exact ⟨rfl, rfl⟩

omit [Storage σ] in
private theorem once (h : Sparing l) (hm : l.session.mode = .full) :
    l.session.starts ≤ 1 := by
  rw [h.starts]
  rcases h.first hm with hnone | ⟨hone, -⟩
  · exact hnone ▸ Nat.zero_le 1
  · exact hone.le

private theorem spared (h : Sparing l) {move : Move} (hin : InTime l move)
    (frontend : Frontend υ (Workspace σ)) (refuse : Path → Option BuildError) :
    Spared frontend refuse l move := by
  have hafter := h.perform hin frontend refuse
  by_cases hmove : move = .work
  · subst hmove
    have hstep := Life.worked frontend l
    exact ⟨fun hlate => (h.spared_work hin hstep hlate).1,
      fun hlate => (h.spared_work hin hstep hlate).2, hafter.once⟩
  · have haside := Aside.perform hmove frontend refuse l
    exact ⟨fun _ => haside.session.starts, fun _ => haside.session.storage,
      hafter.once⟩

theorem inTime (h : Sparing l) {move : Move}
    (hs : Spared frontend refuse l move) :
    InTime l move := by
  rintro rfl ht hreports hclosing
  by_contra hopen
  have hguarded : Guarded l.session := settled_of_empty ht ▸ h.guarded
  cases ha : l.session.activity with
  | waiting | begun record snapshot before rest ending
  | committed record version before rest ending | stopped =>
      simp [reportsNext, ha] at hreports
  | updating before snapshots ending =>
      cases snapshots with
      | nil => simp [reportsNext, ha] at hreports
      | cons snapshot rest =>
          have hidle : l.session.guard = .idle := by
            have hguard := hguarded.running (by rw [ha]; rfl) hopen
            rwa [ha] at hguard
          have hwork : l.perform frontend refuse .work =
              { l with
                session := l.session.beginPass snapshot before rest ending
                late := true } := by
            simp [Life.perform, Life.work, ht, nextTasks?, Session.work, ha,
              nextLate, hclosing]
          have hsame := hs.starts (by rw [hwork])
          rw [hwork, beginPass_idle hidle] at hsame
          have hmore := starts_emit_start l.session (l.session.passes + 1)
            l.session.nextRecord.isRebuild
          exact Nat.succ_ne_self _ (hmore.symm.trans hsame)

end Sparing

private theorem sparing_born (frontend : Frontend υ (Workspace σ))
    (config : Config) (mode : Mode) (storage : σ) (hub : NotifierHub) :
    Sparing (born frontend (announced config mode storage hub)) := by
  have hwaiting (s : Session υ σ) (hr : s.resolved = 0)
      (ha : s.activity = .waiting) : Guarded s :=
    ⟨fun hover => absurd hr hover.2,
      fun hrunning => by simp [ha, Activity.isRunning] at hrunning⟩
  unfold born
  rcases createUnit_cases frontend (announced config mode storage hub) with
    ⟨e, workspace, hcreate⟩ | ⟨unit, workspace, hcreate⟩
  · rw [hcreate]
    have hspares :
        Spares { announced (υ := υ) config mode storage hub with workspace }
        (fault { announced (υ := υ) config mode storage hub with workspace }
          e) := by
      rw [← carryOutAll_faultTasks]
      exact .carryOutAll _ _
    obtain ⟨hactivity, hpasses⟩ :=
      frame_passes.fault { announced (υ := υ) config mode storage hub
        with workspace } e
    refine ⟨hwaiting _ (resolved_fault _ e) hactivity, fun hlate => ?_, ?_,
      fun _ => .inl hpasses⟩
    · cases hlate
    · exact hspares.starts.trans hpasses.symm
  · rw [hcreate]
    refine ⟨hwaiting _ rfl rfl, fun hlate => ?_, rfl, fun _ => .inl rfl⟩
    cases hlate

variable [Storage σ]

private theorem throughout_spared_iff (h : Sparing l)
    (frontend : Frontend υ (Workspace σ)) (refuse : Path → Option BuildError)
    (moves : List Move) :
    Throughout frontend refuse (Spared frontend refuse) l moves ↔
      Throughout frontend refuse InTime l moves := by
  induction moves generalizing l with
  | nil => exact Iff.rfl
  | cons move moves ih =>
      constructor
      · rintro ⟨hs, hrest⟩
        have hin := h.inTime hs
        exact ⟨hin, (ih (h.perform hin frontend refuse)).1 hrest⟩
      · rintro ⟨hin, hrest⟩
        exact ⟨h.spared hin frontend refuse,
          (ih (h.perform hin frontend refuse)).2 hrest⟩

/-- A session that is torn down at any time spares the snapshots that come too
late, and as a full build begins one pass at most, exactly if each of them comes
after the result of a full build. -/
theorem teardown_spares_late_iff (frontend : Frontend υ (Workspace σ))
    (refuse : Path → Option BuildError) (config : Config) (mode : Mode)
    (storage : σ) (hub : NotifierHub) (moves : List Move) :
    Throughout frontend refuse (Spared frontend refuse)
        (born frontend (announced config mode storage hub)) moves ↔
      Throughout frontend refuse InTime
        (born frontend (announced config mode storage hub)) moves :=
  throughout_spared_iff (sparing_born frontend config mode storage hub)
    frontend refuse moves

theorem Throughout.last {P : Life υ σ → Move → Prop} {moves : List Move}
    {move : Move} (h : Throughout frontend refuse P l (moves ++ [move])) :
    P (l.run frontend refuse moves) move := by
  induction moves generalizing l with
  | nil => exact h.1
  | cons first moves ih => exact ih h.2

/-- A front-end whose updates report two snapshots, the second with a file to
store. -/
def twice : Frontend Unit (Workspace MemoryStore) where
  create _ source := (.ok (), source)
  update _ _ source :=
    ({ snapshots := [{ version := 1 },
      { version := 2, emitted := [⟨⟨"/out/late"⟩, "text"⟩] }] }, (), source)

def fresh : Life Unit MemoryStore :=
  born twice (announced {} .full .empty {})

/-- The owner starts the session, and gives it up when the first pass has begun;
the worker goes on to the end of this pass. -/
def givenUp : List Move :=
  [.call, .call, .call, .work, .work, .work, .call] ++ List.replicate 5 .work

/-- The second snapshot of a full build is reported when the session is closing,
and gets a pass. -/
theorem late_snapshot_gets_pass :
    let before := fresh.run twice (fun _ => none) givenUp
    let after := fresh.run twice (fun _ => none) (givenUp ++ [.work])
    before.session.mode = .full ∧ before.session.closing = true ∧
    before.session.passes = 1 ∧
      after.late = true ∧ after.session.passes = 2 ∧
      after.session.isInPass = true ∧
      ¬ Throughout twice (fun _ => none) (Spared twice fun _ => none) fresh
        (givenUp ++ [.work]) := by
  have hclosing :
      (fresh.run twice (fun _ => none) givenUp).session.closing = true := by
    decide +kernel
  have hunresolved :
      (fresh.run twice (fun _ => none) givenUp).session.resolved = 0 := by
    decide +kernel
  refine ⟨by decide +kernel, hclosing, by decide +kernel, by decide +kernel,
    by decide +kernel, by decide +kernel, fun h => ?_⟩
  have hin :=
    ((throughout_spared_iff (sparing_born twice {} .full .empty {}) _ _ _).1
      h).last
  have hempty : (fresh.run twice (fun _ => none) givenUp).todo = [] :=
    List.isEmpty_iff.1 (by decide +kernel)
  exact (hin rfl hempty (by decide +kernel) hclosing).2 hunresolved

end Life

end ComponentBuild
