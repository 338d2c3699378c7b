import ComponentBuild.Proofs.Session.Rest
import ComponentBuild.Storage.Memory

/-!
# Changes that arrive while an update runs

What arrives during an update waits in the queue until the update is over.  A
watching session then owes the rounds that the queue leads to, and every step
either leaves them as they are or hands the first of them out.  A full build
owes nothing: its one update ends with the guard terminated.
-/

namespace ComponentBuild

open TimerCommand

namespace Session

variable {υ σ : Type} {frontend : Frontend υ (Workspace σ)} {patience : Nat}
    {s t : Session υ σ}

/-! ## A watching session -/

def owed (s : Session υ σ) : List (List Path) :=
  s.timer.owed s.clock s.queue

structure Watching (s : Session υ σ) : Prop where
  mode : s.mode = .watch
  unit : s.unit.isSome = true
  guard : s.guard = if s.activity.holdsToken then .building else .idle
  stopping : s.StopsWithTimer

theorem Inside.owed (h : Inside s t) (hw : s.mode = .watch) :
    t.owed = s.owed := by
  obtain ⟨cancels, hqueue, -, hnil⟩ := h.queue
  rw [Session.owed, Session.owed, h.timer, h.clock, hqueue, hnil hw,
    List.append_nil]

private theorem unit_fault (hw : s.mode = .watch) (e : BuildError) :
    (s.fault e).unit = s.unit ∧ (s.fault e).guard = s.guard := by
  rw [fault_watch hw]
  split
  · rw [complete_eq]
    split <;> exact ⟨rfl, rfl⟩
  · exact ⟨rfl, rfl⟩

namespace Watching

private theorem finishUpdate (h : s.Watching) (hg : s.guard = .idle)
    (before : Nat) (ending : UpdateEnd) :
    (s.finishUpdate before ending).unit.isSome = true ∧
      (s.finishUpdate before ending).guard = .idle := by
  cases ending with
  | failed e =>
      obtain ⟨hunit, hguard⟩ := unit_fault h.mode e
      rw [Session.finishUpdate, hunit, hguard]
      exact ⟨h.unit, hg⟩
  | brokeDown message =>
      obtain ⟨hunit, hguard⟩ := unit_fault h.mode (.ofBreakdown message)
      rw [Session.finishUpdate, hunit, hguard]
      exact ⟨h.unit, hg⟩
  | done =>
      have hterminal : ¬ s.guard = .terminal := by simp [hg]
      have hmode : ¬ (s.mode = .full ∧ before = 0 ∧ s.passes = 0) := by
        simp [h.mode]
      rw [Session.finishUpdate, if_neg hterminal, if_neg hmode]
      exact ⟨h.unit, hg⟩

private theorem finishPass (h : s.Watching) (hg : s.guard = .building)
    (record : PassRecord) (version : Nat) :
    (s.finishPass record version).unit.isSome = true ∧
      (s.finishPass record version).guard = .idle := by
  have hreleased (r : Session υ σ) (hr : r.guard = .building) :
      r.releaseToken.guard = .idle := by
    simp [releaseToken, hr, PassGuard.release]
  cases hc : s.closing with
  | true =>
      rw [finishPass_closing hc]
      exact ⟨h.unit, hreleased _ hg⟩
  | false =>
      rw [finishPass_open hc, h.mode]
      dsimp only
      split
      · rw [complete_eq]
        split <;> exact ⟨h.unit, hreleased (s.resolvedPass record) hg⟩
      · exact ⟨h.unit, hreleased (s.resolvedPass record) hg⟩

variable [Storage σ]

private theorem worked (h : s.Watching) (hr : s.activity.isRunning = true)
    (hstep : Worked frontend s t) :
    t.Watching := by
  obtain ⟨hinside, -, hrunning⟩ := hstep.inside hr
  have hguard := h.guard
  have hnot : s.activity ≠ .stopped := by
    intro ha
    rw [ha] at hr
    cases hr
  have hstopping : t.StopsWithTimer := by
    rw [StopsWithTimer, hinside.timer, h.stopping.running hnot]
    simp [hrunning]
  have hmode : t.mode = .watch := hinside.mode.trans h.mode
  cases hstep with
  | fired hw hd => simp [hw, Activity.isRunning] at hr
  | took hw hd hq => simp [hw, Activity.isRunning] at hr
  | @began before snapshot rest ending ha =>
      rw [ha] at hguard
      have hidle : s.guard = .idle := hguard
      rw [beginPass_idle hidle] at hmode hstopping ⊢
      exact ⟨hmode, h.unit, rfl, hstopping⟩
  | @ended before ending ha =>
      rw [ha] at hguard
      obtain ⟨hunit, hidle⟩ := h.finishUpdate hguard before ending
      exact ⟨hmode, hunit, hidle, hstopping⟩
  | built ha =>
      rw [ha] at hguard
      exact ⟨hmode, h.unit, hguard, hstopping⟩
  | @finished record version before rest ending ha =>
      rw [ha] at hguard
      obtain ⟨hunit, hidle⟩ := h.finishPass hguard record version
      exact ⟨hmode, hunit, hidle, hstopping⟩

/-- No round is lost and none is handed out twice. -/
theorem advance (h : s.Watching) (ha : s.advance frontend patience = some t) :
    t.Watching ∧ s.calls <+: t.calls ∧ t.calls ++ t.owed = s.calls ++ s.owed := by
  have hstopping : t.StopsWithTimer := h.stopping.advance ha
  rcases advance_cases ha with hstep | ⟨deadline, hw, hd, hq, hdeadline, rfl⟩
  · cases hr : s.activity.isRunning with
    | true =>
        obtain ⟨hinside, -⟩ := hstep.inside hr
        rw [hinside.calls, hinside.owed h.mode]
        exact ⟨h.worked hr hstep, List.prefix_refl _, rfl⟩
    | false =>
        obtain ⟨hw, hstep⟩ := hstep.outside hr
        have hidle : s.guard = .idle := by simp [h.guard, hw, Activity.holdsToken]
        rcases hstep with ⟨hd, rfl⟩ | ⟨hd, command, queue, hq, rfl⟩
        · obtain ⟨unit, hu⟩ := Option.isSome_iff_exists.1 h.unit
          have hclock : (s.fire frontend).clock = s.clock := by
            rw [fire_idle frontend hidle hu]
          have howed :
              (s.fire frontend).owed =
                (s.timer.fire true).2.owed s.clock s.queue := by
            rw [owed, queue_fire, timer_fire, hclock, hidle]
            rfl
          refine ⟨?_, ?_, ?_⟩
          · rw [fire_idle frontend hidle hu] at hstopping ⊢
            exact ⟨h.mode, rfl, hidle, hstopping⟩
          · rw [calls_fire frontend hidle hu]
            exact List.prefix_append _ _
          · rw [calls_fire frontend hidle hu, howed, owed,
              Debouncer.owed_fire hd, List.append_assoc, List.singleton_append]
        · have hrunning : s.timer.stopped = false :=
            h.stopping.running (by simp [hw])
          refine ⟨⟨h.mode, h.unit, ?_, hstopping⟩, List.prefix_refl _, ?_⟩
          · dsimp only
            split <;> exact hidle
          · rw [owed, owed, hq, ← Debouncer.owed_take hrunning hd]
            rfl
  · refine ⟨⟨h.mode, h.unit, h.guard, hstopping⟩, List.prefix_refl _, ?_⟩
    rw [owed, owed, hq, Debouncer.owed_nil _ _ s.clock]
    rfl

private theorem settle (h : s.Watching) (frontend : Frontend υ (Workspace σ))
    (patience fuel : Nat) :
    s.calls <+: (s.settle frontend patience fuel).calls ∧
      (s.settle frontend patience fuel).calls ++
        (s.settle frontend patience fuel).owed =
        s.calls ++ s.owed := by
  have hstep {r t : Session υ σ}
      (hr : r.Watching ∧ s.calls <+: r.calls ∧
        r.calls ++ r.owed = s.calls ++ s.owed)
      (ha : r.advance frontend patience = some t) :
      t.Watching ∧ s.calls <+: t.calls ∧
      t.calls ++ t.owed = s.calls ++ s.owed := by
    obtain ⟨hwatching, hprefix, hsame⟩ := hr.1.advance ha
    exact ⟨hwatching, hr.2.1.trans hprefix, hsame.trans hr.2.2⟩
  exact (settle_induction frontend patience ⟨h, List.prefix_refl _,
    rfl⟩ hstep fuel).2

end Watching

/-! ## Until nothing is owed -/

section

variable [Storage σ]

theorem Watching.owed_at_rest (h : s.Watching) (hwithin : s.DueWithin patience)
    (hrest : s.advance frontend patience = none) : s.owed = [] := by
  rcases hwithin.at_rest hrest with ha | ⟨ha, hd, hq, hdeadline⟩
  · have hstopped : s.timer.stopped = true := h.stopping.2 ha
    simp [owed, Debouncer.owed, hstopped]
  · rw [owed, Debouncer.owed_running (h.stopping.running (by simp [ha])) hd,
      hdeadline, hq]
    rfl

theorem Watching.pays (h : s.Watching) (frontend : Frontend υ (Workspace σ))
    (hwithin : s.DueWithin patience) :
    ∃ fuel, (s.settle frontend patience fuel).calls = s.calls ++ s.owed := by
  obtain ⟨fuel, hrest⟩ := h.stopping.comes_to_rest frontend patience
  have hstep {r t : Session υ σ} (hr : r.Watching ∧ r.DueWithin patience)
      (ha : r.advance frontend patience = some t) :
      t.Watching ∧ t.DueWithin patience :=
    ⟨(hr.1.advance ha).1, hr.2.advance ha⟩
  obtain ⟨hwatching, hsoon⟩ :=
    settle_induction frontend patience ⟨h, hwithin⟩ hstep fuel
  have hsame := (h.settle frontend patience fuel).2
  rw [hwatching.owed_at_rest hsoon hrest, List.append_nil] at hsame
  exact ⟨fuel, hsame⟩

end

/-! ## A full build -/

structure SingleUpdate (s : Session υ σ) : Prop where
  mode : s.mode = .full
  closing : s.closing = false
  guard : s.guard = .terminal ∨ s.activity.holdsToken = true ∨
    ∃ snapshots ending, s.activity = .updating 0 snapshots ending ∧
    s.guard = .idle ∧ s.passes = 0

theorem guard_complete (s : Session υ σ) (pass : Nat)
    (result : Except BuildError PassRecord) :
    (s.complete pass result).guard = s.guard := by
  rw [complete_eq]
  split <;> rfl

theorem guard_fault_full (hm : s.mode = .full) (e : BuildError) :
    (s.fault e).guard = .terminal := by
  rw [fault_full hm, guard_complete]
  rfl

theorem guard_finishPass_full (hm : s.mode = .full) (hc : s.closing = false)
    (record : PassRecord) (version : Nat) :
    (s.finishPass record version).guard = .terminal := by
  rw [finishPass_open hc, hm]
  exact guard_complete _ _ _

theorem guard_finishUpdate_full (hm : s.mode = .full) (hp : s.passes = 0)
    (ending : UpdateEnd) :
    (s.finishUpdate 0 ending).guard = .terminal := by
  cases ending with
  | failed e => exact guard_fault_full hm e
  | brokeDown message => exact guard_fault_full hm _
  | done =>
      rw [finishUpdate]
      split
      · rename_i hg
        exact (Inside.frame.closeUnit s).terminal hg
      · rw [if_pos ⟨hm, rfl, hp⟩]
        exact guard_fault_full hm _

section

variable [Storage σ]

theorem SingleUpdate.worked (h : s.SingleUpdate)
    (hr : s.activity.isRunning = true) (hstep : Worked frontend s t) :
    t.SingleUpdate := by
  obtain ⟨hinside, -⟩ := hstep.inside hr
  refine ⟨hinside.mode.trans h.mode, hinside.closing.trans h.closing, ?_⟩
  rcases h.guard with hg | hg | ⟨snapshots, ending, ha, hg, hp⟩
  · exact .inl (hinside.terminal hg)
  · cases hstep with
    | fired hw | took hw => simp [hw, Activity.holdsToken] at hg
    | began ha | ended ha => simp [ha, Activity.holdsToken] at hg
    | built ha => exact .inr (.inl rfl)
    | finished ha => exact .inl (guard_finishPass_full h.mode h.closing _ _)
  · cases hstep with
    | fired hw | took hw => simp [hw] at ha
    | began =>
        rw [beginPass_idle hg]
        exact .inr (.inl rfl)
    | ended ha' =>
        cases ha.symm.trans ha'
        exact .inl (guard_finishUpdate_full h.mode hp _)
    | built ha' | finished ha' => simp [ha'] at ha

private theorem calls_settle_terminal (hg : s.guard = .terminal)
    (hr : s.activity.isRunning = false) (fuel : Nat) :
    (s.settle frontend patience fuel).calls = s.calls := by
  have hstep {r t : Session υ σ}
      (h : r.guard = .terminal ∧ r.activity.isRunning = false ∧ r.calls = s.calls)
      (ha : r.advance frontend patience = some t) :
      t.guard = .terminal ∧ t.activity.isRunning = false ∧ t.calls = s.calls := by
    obtain ⟨hg, hr, hcalls⟩ := h
    rcases advance_cases ha with hstep | ⟨deadline, -, -, -, -, rfl⟩
    · obtain ⟨hw, ⟨-, rfl⟩ | ⟨-, command, queue, -, rfl⟩⟩ := hstep.outside hr
      · rw [fire_busy frontend (by simp [hg])]
        exact ⟨hg, hr, hcalls⟩
      · refine ⟨hg, ?_, hcalls⟩
        dsimp only
        split <;> rfl
    · exact ⟨hg, hr, hcalls⟩
  exact (settle_induction frontend patience ⟨hg, hr, rfl⟩ hstep fuel).2.2

end

/-! ## While the update runs -/

section

variable [Storage σ]

/-- The update that runs comes to its end; `sent` is what arrives until then. -/
inductive During (frontend : Frontend υ (Workspace σ)) :
    Session υ σ → List TimerCommand → Session υ σ → Prop
  | ended {s : Session υ σ} (ha : s.activity = .waiting) : During frontend s [] s
  | worked {s t u : Session υ σ} {sent : List TimerCommand}
      (hr : s.activity.isRunning = true)
      (h : s.work frontend = some t) (rest : During frontend t sent u) :
      During frontend s sent u
  | passed {s u : Session υ σ} {sent : List TimerCommand}
      (hr : s.activity.isRunning = true)
      (time : Nat) (rest : During frontend { s with clock := s.clock + time }
        sent u) :
      During frontend s sent u
  | received {s u : Session υ σ} {sent : List TimerCommand}
      (hr : s.activity.isRunning = true)
      (commands : List TimerCommand)
        (rest : During frontend (s.send commands) sent u) :
      During frontend s (commands ++ sent) u
  | noticed {s u : Session υ σ} {sent : List TimerCommand}
      (hr : s.activity.isRunning = true)
      (path : Path) (rest : During frontend (s.notice path) sent u) :
      During frontend s ([.note path.normalize,
        .arm s.config.changeDelay] ++ sent) u

theorem During.watching {sent : List TimerCommand}
    (h : During frontend s sent t) (hs : s.Watching) :
    t.Watching ∧ t.activity = .waiting ∧ t.timer = s.timer ∧
      t.queue = s.queue ++ sent := by
  induction h with
  | ended ha => exact ⟨hs, ha, rfl, by simp⟩
  | worked hr hwork _ ih =>
      have hstep := worked_of_work hwork
      obtain ⟨hinside, -⟩ := hstep.inside hr
      obtain ⟨cancels, hqueue, -, hnil⟩ := hinside.queue
      rw [hnil hs.mode, List.append_nil] at hqueue
      rw [← hinside.timer, ← hqueue]
      exact ih (hs.worked hr hstep)
  | passed hr time _ ih => exact ih ⟨hs.mode, hs.unit, hs.guard, hs.stopping⟩
  | received hr commands _ ih =>
      obtain ⟨hwatching, ha, htimer, hqueue⟩ :=
        ih ⟨hs.mode, hs.unit, hs.guard, hs.stopping⟩
      exact ⟨hwatching, ha, htimer, by rw [hqueue, send, List.append_assoc]⟩
  | noticed hr path _ ih =>
      obtain ⟨hwatching, ha, htimer, hqueue⟩ :=
        ih ⟨hs.mode, hs.unit, hs.guard, hs.stopping⟩
      exact ⟨hwatching, ha, htimer, by rw [hqueue, ← List.append_assoc]; rfl⟩

theorem During.once {sent : List TimerCommand} (h : During frontend s sent t)
    (hs : s.SingleUpdate) :
    t.guard = .terminal ∧ t.activity = .waiting := by
  induction h with
  | ended ha =>
      rcases hs.guard with hg | hg | ⟨snapshots, ending, ha', -⟩
      · exact ⟨hg, ha⟩
      · simp [ha, Activity.holdsToken] at hg
      · simp [ha] at ha'
  | worked hr hwork _ ih => exact ih (hs.worked hr (worked_of_work hwork))
  | passed hr time _ ih => exact ih ⟨hs.mode, hs.closing, hs.guard⟩
  | received hr commands _ ih => exact ih ⟨hs.mode, hs.closing, hs.guard⟩
  | noticed hr path _ ih => exact ih ⟨hs.mode, hs.closing, hs.guard⟩

/-- What is noted and scheduled while an update runs leads to at most one more,
with all the paths, exactly if the build is over with the one that runs or the
commands gather. -/
theorem coalesced_iff_gathered {unit : υ} {sent : List TimerCommand}
    (hd : s.timer.isDue s.clock = true) (hg : s.guard = .idle)
    (hu : s.unit = some unit)
    (hfull : s.mode = .full → s.passes = 0 ∧ s.closing = false)
    (hrun : During frontend (s.fire frontend) sent t)
    (hchange : ∀ c ∈ s.queue ++ sent, c.isChange = true) :
    (∀ patience fuel, ∃ later,
      (t.settle frontend patience fuel).calls = t.calls ++ later ∧
        Coalesced (s.queue ++ sent) later) ↔
      s.mode = .full ∨ Gathered (s.queue ++ sent) := by
  have hfire := fire_idle frontend hg hu
  cases hm : s.mode with
  | full =>
      obtain ⟨hp, hc⟩ := hfull hm
      have hsingle : (s.fire frontend).SingleUpdate := by
        rw [hfire]
        exact ⟨hm, hc, .inr (.inr ⟨_, _, by rw [hp], hg, hp⟩)⟩
      obtain ⟨hterminal, ha⟩ := hrun.once hsingle
      have hr : t.activity.isRunning = false := by rw [ha]; rfl
      refine iff_of_true (fun patience fuel => ⟨[], ?_, by simp [Coalesced]⟩)
        (.inl rfl)
      rw [calls_settle_terminal hterminal hr, List.append_nil]
  | watch =>
      have hrunning : s.timer.stopped = false := Debouncer.not_stopped_of_isDue hd
      have hwatching : (s.fire frontend).Watching := by
        rw [hfire]
        refine ⟨hm, rfl, hg, ?_⟩
        simp [StopsWithTimer, Debouncer.fire, hrunning]
      obtain ⟨hs, ha, htimer, hqueue⟩ := hrun.watching hwatching
      rw [timer_fire, hg] at htimer
      rw [queue_fire] at hqueue
      have howed : t.owed = Debouncer.rounds ∅ false (s.queue ++ sent) := by
        have hd' : t.timer.isDue t.clock = false := by rw [htimer]; rfl
        rw [owed, Debouncer.owed_running (hs.stopping.running (by simp [ha]))
          hd', hqueue, htimer]
        rfl
      rw [← Debouncer.coalesced_rounds_iff hchange, ← howed]
      constructor
      · intro h
        obtain ⟨patience, hwithin⟩ := exists_dueWithin t
        obtain ⟨fuel, hpaid⟩ := hs.pays frontend hwithin
        obtain ⟨later, hlater, hcoalesced⟩ := h patience fuel
        rw [hpaid] at hlater
        rw [List.append_cancel_left hlater]
        exact .inr hcoalesced
      · intro h patience fuel
        have hcoalesced : Coalesced (s.queue ++ sent) t.owed :=
          h.resolve_left (by simp)
        obtain ⟨⟨later, hlater⟩, hsame⟩ := hs.settle frontend patience fuel
        rw [← hlater, List.append_assoc] at hsame
        have hprefix : later <+: t.owed := ⟨_, List.append_cancel_left hsame⟩
        exact ⟨later, hlater.symm, hcoalesced.of_prefix hprefix⟩

end

/-! ## Two changes without delay -/

def silent : Frontend Unit (Workspace MemoryStore) where
  create _ source := (.ok (), source)
  update _ _ source := ({}, (), source)

def dueWatch : Session Unit MemoryStore where
  config := {}
  mode := .watch
  workspace := .ofStorage .empty
  unit := some ()
  timer := { deadline := some 0 }

def changesWithDelay (delay : Nat) : List TimerCommand :=
  [.note ⟨"/a"⟩, .arm delay, .note ⟨"/b"⟩, .arm delay]

def afterUpdate (delay : Nat) : Session Unit MemoryStore :=
  { (dueWatch.fire silent).send (changesWithDelay delay)
    with activity := .waiting }

private theorem during_dueWatch (delay : Nat) :
    During silent (dueWatch.fire silent) (changesWithDelay delay)
      (afterUpdate delay) :=
  .received rfl (changesWithDelay delay) (.worked rfl rfl (.ended rfl))

theorem changes_with_delay_together :
    During silent (dueWatch.fire silent) (changesWithDelay 5) (afterUpdate 5) ∧
      ∀ patience fuel, ∃ later,
        ((afterUpdate 5).settle silent patience fuel).calls =
          (afterUpdate 5).calls ++ later ∧
          Coalesced (changesWithDelay 5) later := by
  have hgathered : Gathered (changesWithDelay 5) := by
    intro earlier later heq
    have hmem : .arm 0 ∈ changesWithDelay 5 := by simp [heq]
    simp [changesWithDelay] at hmem
  refine ⟨during_dueWatch 5, ?_⟩
  exact (coalesced_iff_gathered (by decide) rfl rfl (by decide)
    (during_dueWatch 5)
    (by decide)).2 (.inr hgathered)

/-- Each of two changes gets an update of its own. -/
theorem changes_without_delay_apart :
    During silent (dueWatch.fire silent) (changesWithDelay 0) (afterUpdate 0) ∧
      (∀ c ∈ changesWithDelay 0, c.isChange = true) ∧
      ((afterUpdate 0).settle silent 0 8).calls = [[], [⟨"/a"⟩], [⟨"/b"⟩]] ∧
      ¬ ∀ patience fuel, ∃ later,
        ((afterUpdate 0).settle silent patience fuel).calls =
          (afterUpdate 0).calls ++ later ∧
          Coalesced (changesWithDelay 0) later := by
  have hcalls :
      ((afterUpdate 0).settle silent 0 8).calls = [[], [⟨"/a"⟩], [⟨"/b"⟩]] := by
    decide +kernel
  refine ⟨during_dueWatch 0, by decide, hcalls, fun h => ?_⟩
  obtain ⟨later, hlater, hcoalesced⟩ := h 0 8
  rw [hcalls] at hlater
  have hbefore : (afterUpdate 0).calls = [[]] := by decide +kernel
  rw [hbefore] at hlater
  have hlength : later.length = 2 := by
    have hall := congrArg List.length hlater
    simp only [List.length_append, List.length_cons, List.length_nil] at hall
    omega
  have hsingle : later.length ≤ 1 := hcoalesced.1
  omega

end Session

end ComponentBuild
