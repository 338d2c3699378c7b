import ComponentBuild.Proofs.Scheduler.Queue
import ComponentBuild.Proofs.Session.Worker
import Mathlib.Data.Prod.Lex

/-!
# A session that is left alone comes to rest

Taking a command shortens the queue, firing spends the deadline, and an update
has finitely many steps. What an update adds to the queue are cancellations,
which arm nothing.
-/

namespace ComponentBuild.Session

variable {υ σ : Type} {frontend : Frontend υ (Workspace σ)} {patience : Nat}
    {s t : Session υ σ}

/-! ## Going on -/

section

variable [Storage σ]

theorem settle_of_advance (h : s.advance frontend patience = some t)
    (fuel : Nat) :
    s.settle frontend patience (fuel + 1) = t.settle frontend patience fuel := by
  simp [settle, settleUntil, h]

theorem settle_of_rest (h : s.advance frontend patience = none) (fuel : Nat) :
    s.settle frontend patience fuel = s := by
  cases fuel <;> simp [settle, settleUntil, h]

theorem settle_induction {P : Session υ σ → Prop}
    (frontend : Frontend υ (Workspace σ)) (patience : Nat) (hs : P s)
    (hstep : ∀ {s t}, P s → s.advance frontend patience = some t → P t)
    (fuel : Nat) :
    P (s.settle frontend patience fuel) := by
  induction fuel generalizing s with
  | zero => exact hs
  | succ fuel ih =>
      cases h : s.advance frontend patience with
      | none =>
          rw [settle_of_rest h]
          exact hs
      | some t =>
          rw [settle_of_advance h]
          exact ih (hstep hs h)

/-- A worker without a next step waits with an empty queue, or has stopped. -/
theorem work_eq_none_iff : s.work frontend = none ↔
    s.activity = .stopped ∨
      s.activity = .waiting ∧ s.timer.isDue s.clock = false ∧ s.queue = [] := by
  unfold work
  cases ha : s.activity with
  | stopped => simp
  | waiting =>
      cases hd : s.timer.isDue s.clock <;> cases hq : s.queue <;> simp
  | updating before snapshots ending => cases snapshots <;> simp
  | begun record snapshot before rest ending => simp
  | committed record version before rest ending => simp

/-- An advance is a step of the worker, or the passing of time up to the
deadline. -/
theorem advance_cases (h : s.advance frontend patience = some t) :
    Worked frontend s t ∨
      ∃ deadline, s.activity = .waiting ∧ s.timer.isDue s.clock = false ∧
      s.queue = [] ∧
        s.timer.deadline = some deadline ∧ t = { s with clock := deadline } := by
  unfold advance at h
  split at h
  · rename_i hwork
    cases h
    exact .inl (worked_of_work hwork)
  · rename_i hwork
    split at h
    · rename_i deadline ha hdeadline
      split at h
      · cases h
        rcases work_eq_none_iff.1 hwork with hstopped | ⟨-, hd, hq⟩
        · simp [ha] at hstopped
        · exact .inr ⟨_, ha, hd, hq, hdeadline, rfl⟩
      · cases h
    · cases h

private theorem advance_eq_none_iff : s.advance frontend patience = none ↔
    s.activity = .stopped ∨
      s.activity = .waiting ∧ s.timer.isDue s.clock = false ∧ s.queue = [] ∧
        ∀ deadline, s.timer.deadline = some deadline →
        s.clock + patience < deadline := by
  unfold advance
  cases hwork : s.work frontend with
  | some t =>
      have hnone : ¬ s.work frontend = none := by simp [hwork]
      rw [work_eq_none_iff] at hnone
      simp only [reduceCtorEq, false_iff]
      tauto
  | none =>
      rcases work_eq_none_iff.1 hwork with ha | ⟨ha, hd, hq⟩
      · simp [ha]
      · cases hdeadline : s.timer.deadline with
        | none => simp [ha, hd, hq]
        | some deadline => simp [ha, hd, hq]

end

/-! ## The work that is left -/

/-- Armings in the queue, then the deadline, then the steps of an update, then
other commands. -/
def workload (s : Session υ σ) : Nat ×ₗ Nat ×ₗ Nat ×ₗ Nat :=
  toLex (s.queue.countP TimerCommand.isArming,
    toLex (s.timer.deadline.isSome.toNat,
    toLex (s.activity.remaining + (!s.timer.isDue s.clock).toNat,
      s.queue.length)))

private theorem workload_fire (hd : s.timer.isDue s.clock = true) :
    (s.fire frontend).workload < s.workload := by
  have hbefore : s.timer.deadline.isSome = true := by
    unfold Debouncer.isDue at hd
    cases h : s.timer.deadline with
    | none => simp [h] at hd
    | some deadline => rfl
  have hafter : (s.fire frontend).timer.deadline = none := by
    rw [timer_fire]
    cases decide (s.guard = .idle) <;> rfl
  simp [workload, Prod.Lex.toLex_lt_toLex, queue_fire, hbefore, hafter]

private theorem workload_take {command : TimerCommand} {queue : List TimerCommand}
    (hw : s.activity = .waiting) (hd : s.timer.isDue s.clock = false)
    (hq : s.queue = command :: queue) (activity : Activity)
      (ha : activity.remaining = 0) :
    workload { s with queue, timer := s.timer.take s.clock command, activity } <
      s.workload := by
  have hremaining : s.activity.remaining = 0 := by rw [hw]; rfl
  simp only [workload, Prod.Lex.toLex_lt_toLex, hq, hd, ha, hremaining]
  cases command with
  | arm delay => simp [List.countP_cons, TimerCommand.isArming]
  | note path => simp [TimerCommand.isArming, Debouncer.take, Debouncer.isDue]
  | cancel =>
      cases hdeadline : s.timer.deadline <;>
        simp [TimerCommand.isArming, Debouncer.take, Debouncer.isDue]
  | shutdown => simp [TimerCommand.isArming, Debouncer.take, Debouncer.isDue]

private theorem workload_inside (h : Inside s t)
    (hr : t.activity.remaining < s.activity.remaining) :
    t.workload < s.workload := by
  obtain ⟨cancels, hqueue, hall, -⟩ := h.queue
  have harmings : cancels.countP TimerCommand.isArming = 0 := by
    rw [List.countP_eq_zero]
    intro c hc
    simp [hall c hc, TimerCommand.isArming]
  simp [workload, Prod.Lex.toLex_lt_toLex, hqueue, harmings, h.timer, h.clock, hr]

def StopsWithTimer (s : Session υ σ) : Prop :=
  s.timer.stopped = true ↔ s.activity = .stopped

theorem StopsWithTimer.running (hm : s.StopsWithTimer)
    (ha : s.activity ≠ .stopped) : s.timer.stopped = false := by
  rw [Bool.eq_false_iff]
  intro hstopped
  exact ha (hm.1 hstopped)

/-- The deadline, and every one that the queue sets, is at most `patience` away.
-/
structure DueWithin (patience : Nat) (s : Session υ σ) : Prop where
  deadline : ∀ deadline, s.timer.deadline = some deadline →
    deadline ≤ s.clock + patience
  queue : ∀ delay, .arm delay ∈ s.queue → delay ≤ patience

theorem exists_dueWithin (s : Session υ σ) :
    ∃ patience, s.DueWithin patience := by
  have hqueue : ∃ patience, ∀ delay, .arm delay ∈ s.queue → delay ≤ patience := by
    induction s.queue with
    | nil => exact ⟨0, by simp⟩
    | cons c commands ih =>
        obtain ⟨patience, hbound⟩ := ih
        cases c with
        | arm first =>
            refine ⟨max first patience, fun delay h => ?_⟩
            rcases List.mem_cons.1 h with heq | h
            · cases heq
              exact Nat.le_max_left _ _
            · exact Nat.le_trans (hbound delay h) (Nat.le_max_right _ _)
        | note path => exact ⟨patience, by simpa using hbound⟩
        | cancel => exact ⟨patience, by simpa using hbound⟩
        | shutdown => exact ⟨patience, by simpa using hbound⟩
  obtain ⟨patience, hbound⟩ := hqueue
  refine ⟨max (s.timer.deadline.getD 0) patience, fun deadline h => ?_,
    fun delay h => ?_⟩
  · rw [h, Option.getD_some]
    omega
  · have hle := hbound delay h
    omega

variable [Storage σ]

theorem StopsWithTimer.advance (hm : s.StopsWithTimer)
    (h : s.advance frontend patience = some t) : t.StopsWithTimer := by
  rcases advance_cases h with h | ⟨deadline, -, -, -, -, rfl⟩
  · cases hr : s.activity.isRunning with
    | true =>
        obtain ⟨hinside, -, hrunning⟩ := h.inside hr
        have hstopped : s.timer.stopped = false := by
          apply hm.running
          intro ha
          rw [ha] at hr
          cases hr
        rw [StopsWithTimer, hinside.timer, hstopped]
        simp [hrunning]
    | false =>
        obtain ⟨hw, hstep⟩ := h.outside hr
        rcases hstep with ⟨hd, rfl⟩ | ⟨-, command, queue, -, rfl⟩
        · have hrunning : s.timer.stopped = false :=
            Debouncer.not_stopped_of_isDue hd
          have hstopped : (s.fire frontend).timer.stopped = false := by
            rw [timer_fire]
            unfold Debouncer.fire
            split <;> exact hrunning
          rw [StopsWithTimer, hstopped]
          simp [activity_fire frontend hw]
        · rw [StopsWithTimer]
          split <;> simp_all
  · exact hm

theorem DueWithin.advance (h : s.DueWithin patience)
    (ha : s.advance frontend patience = some t) :
    t.DueWithin patience := by
  rcases advance_cases ha with hstep | ⟨deadline, hw, hd, hq, hdeadline, rfl⟩
  · cases hr : s.activity.isRunning with
    | true =>
        obtain ⟨hinside, -⟩ := hstep.inside hr
        obtain ⟨cancels, hqueue, hcancel, -⟩ := hinside.queue
        refine ⟨?_, fun delay hdelay => ?_⟩
        · rw [hinside.timer, hinside.clock]
          exact h.deadline
        · rw [hqueue, List.mem_append] at hdelay
          rcases hdelay with hdelay | hdelay
          · exact h.queue delay hdelay
          · cases hcancel _ hdelay
    | false =>
        obtain ⟨hw, hstep⟩ := hstep.outside hr
        rcases hstep with ⟨hd, rfl⟩ | ⟨hd, command, queue, hq, rfl⟩
        · constructor
          · intro deadline hdeadline
            rw [timer_fire] at hdeadline
            unfold Debouncer.fire at hdeadline
            split at hdeadline <;> cases hdeadline
          · rw [queue_fire]
            exact h.queue
        · have hmem : command ∈ s.queue := by simp [hq]
          have htail (delay : Nat) (hdelay : .arm delay ∈ queue) :
              delay ≤ patience :=
            h.queue delay (by simp [hq, hdelay])
          refine ⟨fun deadline hdeadline => ?_, htail⟩
          cases command with
          | arm delay =>
              cases hdeadline
              exact Nat.add_le_add_left (h.queue delay hmem) _
          | note path => exact h.deadline deadline hdeadline
          | cancel => cases hdeadline
          | shutdown => exact h.deadline deadline hdeadline
  · refine ⟨fun later hlater => ?_, h.queue⟩
    have hsame : some deadline = some later := hdeadline.symm.trans hlater
    cases hsame
    exact Nat.le_add_right _ _

private theorem workload_advance (hm : s.StopsWithTimer)
    (h : s.advance frontend patience = some t) :
    t.workload < s.workload := by
  rcases advance_cases h with h | ⟨deadline, ha, hd, -, hdeadline, rfl⟩
  · cases hr : s.activity.isRunning with
    | true => exact workload_inside (h.inside hr).1 (h.inside hr).2.1
    | false =>
        rcases h.outside hr with ⟨hw, ⟨hd, rfl⟩ | ⟨hd, command, queue, hq, rfl⟩⟩
        · exact workload_fire hd
        · refine workload_take hw hd hq _ ?_
          split <;> rfl
  · have hrunning : s.timer.stopped = false := hm.running (by simp [ha])
    have hdue : s.timer.isDue deadline = true := by
      simp [Debouncer.isDue, hdeadline, hrunning]
    simp [workload, Prod.Lex.toLex_lt_toLex, hd, hdue]

/-- However many snapshots its updates report, the session comes to rest. -/
theorem StopsWithTimer.comes_to_rest (hm : s.StopsWithTimer)
    (frontend : Frontend υ (Workspace σ)) (patience : Nat) :
    ∃ fuel, (s.settle frontend patience fuel).advance frontend patience =
      none := by
  induction hwork : s.workload using WellFoundedLT.induction generalizing s with
  | ind work ih =>
      cases h : s.advance frontend patience with
      | none => exact ⟨0, h⟩
      | some t =>
          obtain ⟨fuel, hrest⟩ :=
            ih _ (hwork ▸ workload_advance hm h) (hm.advance h) rfl
          refine ⟨fuel + 1, ?_⟩
          rw [settle_of_advance h]
          exact hrest

theorem DueWithin.at_rest (h : s.DueWithin patience)
    (hrest : s.advance frontend patience = none) :
    s.activity = .stopped ∨
      s.activity = .waiting ∧ s.timer.isDue s.clock = false ∧ s.queue = [] ∧
        s.timer.deadline = none := by
  rcases advance_eq_none_iff.1 hrest with ha | ⟨ha, hd, hq, hlater⟩
  · exact .inl ha
  · refine .inr ⟨ha, hd, hq, ?_⟩
    cases hdeadline : s.timer.deadline with
    | none => rfl
    | some deadline =>
        have hsoon := h.deadline deadline hdeadline
        have hlate := hlater deadline hdeadline
        omega

end ComponentBuild.Session
