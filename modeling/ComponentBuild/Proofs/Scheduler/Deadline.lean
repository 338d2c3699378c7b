import ComponentBuild.Proofs.Scheduler.Conservation

/-!
# Deadlines and fires

A deadline is set by an arming, and taken back by a cancellation, by the next
arming or by a fire.  So a fire goes back to the last arming, comes no earlier
than its delay says, and uses it up.  Whether it calls the trigger is up to the
guard.  How the trigger ends makes no difference to the worker: a failure is
reported once, and only a shutdown stops it.
-/

namespace ComponentBuild

def PassGuard.after (g : PassGuard) : Action → PassGuard
  | .tryBegin => g.tryBegin.2
  | .dropToken => g.release
  | .terminate => g.terminate

theorem PassGuard.after_terminal (action : Action) :
    terminal.after action = terminal := by
  cases action <;> rfl

namespace TimerWorker

/-! ## Moments of a run -/

/-- The loop of the worker looks at its deadline before and after it waits for a
command.  Here it may look at any time, and time may pass and the guard be used
in between. -/
inductive Deed where
  | take (command : TimerCommand)
  | pass (time : Nat)
  | look (trigger : List Path → TriggerEnd)
  /-- Another holder of the guard uses it.  A trigger that terminates the guard
  and then fails leaves the worker as one that fails and a termination after it.
  -/
  | use (action : PassGuard.Action)

structure Moment where
  worker : TimerWorker
  deed : Deed

namespace Moment

def move (m : Moment) : Move :=
  match m.deed with
  | .take command => .take command
  | .pass time => .pass time
  | .look trigger => .fire trigger
  | .use action => .turn (m.worker.guard.after action)

def next (m : Moment) : TimerWorker :=
  m.worker.perform m.move

/-- The command that the worker takes; it takes none after a shutdown. -/
def taken? (m : Moment) : Option TimerCommand :=
  match m.deed with
  | .take command => if m.worker.timer.stopped then none else some command
  | _ => none

def armed? (m : Moment) : Option Nat :=
  match m.taken? with
  | some (.arm delay) => some delay
  | _ => none

def cancels (m : Moment) : Bool := m.taken? = some .cancel

def stops (m : Moment) : Bool := m.taken? = some .shutdown

/-- The deadline has passed when the worker looks.  The fire may be dropped. -/
def fires (m : Moment) : Bool :=
  match m.deed with
  | .look _ => m.worker.timer.isDue m.worker.clock
  | _ => false

def IsQuiet (m : Moment) : Prop :=
  m.armed? = none ∧ m.cancels = false ∧ m.fires = false

end Moment

def moments (w : TimerWorker) : List Deed → List Moment
  | [] => []
  | deed :: deeds => ⟨w, deed⟩ :: moments (Moment.next ⟨w, deed⟩) deeds

/-! ## One moment -/

namespace Moment

variable {m : Moment}

inductive Outcome (m : Moment) : Prop
  | took {command : TimerCommand} (htaken : m.taken? = some command)
      (hfires : m.fires = false)
      (hnext : m.next =
        { m.worker with timer := m.worker.timer.take m.worker.clock command })
  | called {trigger : List Path → TriggerEnd} (htaken : m.taken? = none)
      (hdeed : m.deed = .look trigger) (hfires : m.fires = true)
        (hidle : m.worker.guard = .idle)
      (hnext : m.next = m.worker.fire trigger)
  | dropped (htaken : m.taken? = none) (hfires : m.fires = true)
      (hbusy : m.worker.guard ≠ .idle)
      (hnext : m.next = { m.worker
        with timer := { m.worker.timer with deadline := none } })
  | other (htaken : m.taken? = none) (hfires : m.fires = false)
      (htimer : m.next.timer = m.worker.timer)
        (hcalls : m.next.calls = m.worker.calls)
      (hfaults : m.next.faults = m.worker.faults)
      (hguard : m.worker.guard = .terminal → m.next.guard = .terminal)

private theorem outcome (m : Moment) : Outcome m := by
  obtain ⟨w, deed⟩ := m
  cases deed with
  | take command =>
      cases hstopped : w.timer.stopped with
      | false =>
          have htaken : taken? ⟨w, .take command⟩ = some command := by
            simp [taken?, hstopped]
          refine .took htaken rfl ?_
          simp [next, move, perform, TimerWorker.take, hstopped]
      | true =>
          have hnext : next ⟨w, .take command⟩ = w := by
            simp [next, move, perform, TimerWorker.take, hstopped]
          refine .other ?_ rfl ?_ ?_ ?_ fun hguard => ?_ <;> simp_all [taken?]
  | pass time => exact .other rfl rfl rfl rfl rfl id
  | use action =>
      refine .other rfl rfl rfl rfl rfl fun hguard => ?_
      simp only at hguard
      simp [next, move, perform, hguard, PassGuard.after_terminal]
  | look trigger =>
      cases hdue : w.timer.isDue w.clock with
      | false =>
          have hnext : next ⟨w, .look trigger⟩ = w := by
            simp [next, move, perform, hdue]
          exact .other rfl hdue (by rw [hnext]) (by rw [hnext]) (by rw [hnext])
            (by simp [hnext])
      | true =>
          have hnext : next ⟨w, .look trigger⟩ = w.fire trigger := by
            simp [next, move, perform, hdue]
          by_cases hidle : w.guard = .idle
          · exact .called rfl rfl hdue hidle hnext
          · refine .dropped rfl hdue hidle (hnext.trans ?_)
            simp [fire, Debouncer.fire, hidle]

private theorem fire_idle {w : TimerWorker} (hidle : w.guard = .idle)
    (trigger : List Path → TriggerEnd) :
    w.fire trigger =
      { w with
        timer := { w.timer with deadline := none, changed := ∅ }
        guard := if trigger w.timer.changed.toList = .terminated then .terminal
  else .idle
        calls := w.calls ++ [w.timer.changed.toList]
        faults :=
  w.faults ++ (trigger w.timer.changed.toList).fault?.toList } := by
  simp only [fire, Debouncer.fire, hidle, decide_true, if_true,
    PassGuard.tryBegin]
  split <;> rfl

private theorem isDue_of_fires (h : m.fires = true) :
    m.worker.timer.isDue m.worker.clock = true := by
  unfold fires at h
  split at h
  · exact h
  · cases h

private theorem exists_deadline_of_fires (h : m.fires = true) :
    ∃ deadline, m.worker.timer.deadline = some deadline ∧
      deadline ≤ m.worker.clock := by
  have hdue := isDue_of_fires h
  unfold Debouncer.isDue at hdue
  split at hdue
  next deadline hdeadline =>
    rw [Bool.and_eq_true, decide_eq_true_eq] at hdue
    exact ⟨deadline, hdeadline, hdue.1⟩
  next => cases hdue

private theorem fires_of_armed {delay : Nat} (h : m.armed? = some delay) :
    m.fires = false := by
  cases m.outcome with
  | took _ hfires => exact hfires
  | called htaken | dropped htaken | other htaken => simp [armed?, htaken] at h

private theorem deadline_next (m : Moment) :
    m.next.timer.deadline =
      match m.armed? with
      | some delay => some (m.worker.clock + delay)
      | none => if m.cancels || m.fires then none
          else m.worker.timer.deadline := by
  cases m.outcome with
  | @took command htaken hfires hnext =>
      rw [hnext]
      cases command <;> simp [armed?, cancels, htaken, hfires, Debouncer.take]
  | called htaken _ hfires hidle hnext =>
      simp [hnext, fire_idle hidle, armed?, htaken, hfires]
  | dropped htaken hfires _ hnext => simp [hnext, armed?, htaken, hfires]
  | other htaken hfires htimer => simp [htimer, armed?, cancels, htaken, hfires]

private theorem stopped_next (m : Moment) :
    m.next.timer.stopped = (m.worker.timer.stopped || m.stops) := by
  cases m.outcome with
  | @took command htaken _ hnext =>
      rw [hnext]
      cases command <;> simp [stops, htaken, Debouncer.take]
  | called htaken _ _ hidle hnext => simp [hnext, fire_idle hidle, stops, htaken]
  | dropped htaken _ _ hnext => simp [hnext, stops, htaken]
  | other htaken _ htimer => simp [htimer, stops, htaken]

private theorem terminal_next (h : m.worker.guard = .terminal) :
    m.next.guard = .terminal := by
  cases m.outcome with
  | took _ _ hnext | dropped _ _ _ hnext => rw [hnext]; exact h
  | called _ _ _ hidle => simp [h] at hidle
  | other _ _ _ _ _ hguard => exact hguard h

end Moment

/-! ## The moments before -/

structure Recorded (past : List Moment) (w : TimerWorker) : Prop where
  armed : ∀ deadline, w.timer.deadline = some deadline →
    ∃ start arming between delay, past = start ++ arming :: between ∧
      arming.armed? = some delay ∧ (∀ b ∈ between, b.IsQuiet) ∧
      arming.worker.clock + delay = deadline
  counted : past.countP (·.fires) + w.timer.deadline.toList.length ≤
    past.countP (·.armed?.isSome)
  stopped : w.timer.stopped = true ↔ ∃ b ∈ past, b.stops = true
  terminal : ∀ b ∈ past, b.worker.guard = .terminal → w.guard = .terminal

theorem Recorded.next {past : List Moment} {m : Moment}
    (h : Recorded past m.worker) :
    Recorded (past ++ [m]) m.next := by
  constructor
  · intro deadline hdeadline
    rw [Moment.deadline_next] at hdeadline
    cases harmed : m.armed? with
    | some delay =>
        refine ⟨past, m, [], delay, rfl, harmed, by simp, ?_⟩
        simpa [harmed] using hdeadline
    | none =>
        rw [harmed] at hdeadline
        dsimp only at hdeadline
        split at hdeadline
        · cases hdeadline
        · next hquiet =>
          have hm : m.IsQuiet := by simpa [Moment.IsQuiet, harmed] using hquiet
          obtain ⟨start, arming, between, delay, rfl, ha, hbetween, hclock⟩ :=
            h.armed _ hdeadline
          refine ⟨start, arming, between ++ [m], delay, by simp, ha, ?_, hclock⟩
          intro b hb
          rcases List.mem_append.1 hb with hb | hb
          · exact hbetween b hb
          · rw [List.mem_singleton.1 hb]
            exact hm
  · have hcounted := h.counted
    rw [List.countP_append, List.countP_append, List.countP_singleton,
      List.countP_singleton, Moment.deadline_next]
    cases harmed : m.armed? with
    | some delay =>
        simp [Moment.fires_of_armed harmed]
        omega
    | none =>
        cases hfires : m.fires with
        | true =>
            obtain ⟨deadline, hdeadline, -⟩ :=
              Moment.exists_deadline_of_fires hfires
            rw [hdeadline] at hcounted
            simpa using hcounted
        | false => cases m.cancels <;> simp <;> omega
  · rw [Moment.stopped_next, Bool.or_eq_true, h.stopped]
    simp [or_and_right, exists_or]
  · intro b hb hterminal
    rcases List.mem_append.1 hb with hb | hb
    · exact Moment.terminal_next (h.terminal b hb hterminal)
    · rw [List.mem_singleton.1 hb] at hterminal
      exact Moment.terminal_next hterminal

variable {past earlier later : List Moment} {w : TimerWorker}
    {deeds : List Deed} {m : Moment}

theorem Recorded.run (h : Recorded past w) (deeds : List Deed) :
    ∃ final, Recorded (past ++ moments w deeds) final := by
  induction deeds generalizing past w with
  | nil => exact ⟨w, by simpa [moments] using h⟩
  | cons deed deeds ih =>
      obtain ⟨final, hfinal⟩ := ih (Recorded.next (m := ⟨w, deed⟩) h)
      exact ⟨final, by simpa [moments] using hfinal⟩

theorem Recorded.before (h : Recorded past w)
    (hsplit : moments w deeds = earlier ++ m :: later) :
    Recorded (past ++ earlier) m.worker := by
  induction deeds generalizing past w earlier with
  | nil => simp [moments] at hsplit
  | cons deed deeds ih =>
      rw [moments] at hsplit
      rcases List.cons_eq_append_iff.1 hsplit with ⟨rfl, hm⟩ |
        ⟨earlier, rfl, hrest⟩
      · obtain rfl : m = ⟨w, deed⟩ := (List.cons.inj hm).1
        simpa using h
      · simpa using ih (Recorded.next (m := ⟨w, deed⟩) h) hrest

/-! ## When the timer fires -/

/-- The trigger was not called, or it was called with some paths and its failure
was reported once. -/
inductive Reports (m : Moment) : Prop
  | silent (hcalls : m.next.calls = m.worker.calls)
      (hfaults : m.next.faults = m.worker.faults)
  | ended {trigger : List Path → TriggerEnd} {changed : List Path}
      (hdeed : m.deed = .look trigger)
      (hcalls : m.next.calls = m.worker.calls ++ [changed])
      (hfaults : m.next.faults = m.worker.faults ++
        match trigger changed with
        | .failed e => [e]
        | .brokeDown message => [.ofBreakdown message]
        | .done | .terminated => [])

structure Disciplined (moments : List Moment) : Prop where
  /-- A fire has an arming before it, with no other arming, cancellation or fire
  since, and comes no earlier than the delay after that arming. -/
  armed : ∀ earlier m later, moments = earlier ++ m :: later → m.fires = true →
    ∃ start arming between delay, earlier = start ++ arming :: between ∧
      arming.armed? = some delay ∧ (∀ b ∈ between, b.IsQuiet) ∧
      arming.worker.clock + delay ≤ m.worker.clock
  counted : moments.countP (·.fires) ≤ moments.countP (·.armed?.isSome)
  /-- The trigger is called exactly by the fires that find the guard idle. -/
  called : ∀ m ∈ moments, m.next.calls ≠ m.worker.calls ↔
    m.fires = true ∧ m.worker.guard = .idle
  /-- It is not called any more once the guard was terminal or a shutdown was
  taken. -/
  finished : ∀ earlier m later, moments = earlier ++ m :: later →
    m.next.calls ≠ m.worker.calls →
    ∀ b ∈ earlier, b.worker.guard ≠ .terminal ∧ b.stops = false
  reports : ∀ m ∈ moments, Reports m
  /-- Until a shutdown was taken every command is, however the calls of the
  trigger ended. -/
  goesOn : ∀ earlier m later, moments = earlier ++ m :: later →
    (∀ b ∈ earlier, b.stops = false) → ∀ command, m.deed = .take command →
      m.next.timer = m.worker.timer.take m.worker.clock command

private theorem calls_next_ne_iff (m : Moment) :
    m.next.calls ≠ m.worker.calls ↔ m.fires = true ∧ m.worker.guard = .idle := by
  cases m.outcome with
  | took _ hfires hnext => simp [hfires, hnext]
  | called _ _ hfires hidle hnext =>
      simp [hnext, Moment.fire_idle hidle, hfires, hidle]
  | dropped _ _ hbusy hnext => simp [hnext, hbusy]
  | other _ hfires _ hcalls => simp [hfires, hcalls]

private theorem reports_moment (m : Moment) : Reports m := by
  cases m.outcome with
  | took _ _ hnext | dropped _ _ _ hnext =>
      exact .silent (by rw [hnext]) (by rw [hnext])
  | @called trigger _ hdeed _ hidle hnext =>
      rw [Moment.fire_idle hidle] at hnext
      refine .ended hdeed (by rw [hnext]) ?_
      rw [hnext]
      cases trigger m.worker.timer.changed.toList <;> rfl
  | other _ _ _ hcalls hfaults => exact .silent hcalls hfaults

theorem Recorded.armed_of_fires (h : Recorded past m.worker)
    (hfires : m.fires = true) :
    ∃ start arming between delay, past = start ++ arming :: between ∧
      arming.armed? = some delay ∧ (∀ b ∈ between, b.IsQuiet) ∧
      arming.worker.clock + delay ≤ m.worker.clock := by
  obtain ⟨deadline, hdeadline, hclock⟩ := Moment.exists_deadline_of_fires hfires
  obtain ⟨start, arming, between, delay, heq, harmed, hquiet, rfl⟩ :=
    h.armed deadline hdeadline
  exact ⟨start, arming, between, delay, heq, harmed, hquiet, hclock⟩

theorem Recorded.open_of_calls (h : Recorded past m.worker)
    (hcalls : m.next.calls ≠ m.worker.calls) {b : Moment} (hb : b ∈ past) :
    b.worker.guard ≠ .terminal ∧ b.stops = false := by
  obtain ⟨hfires, hidle⟩ := (calls_next_ne_iff m).1 hcalls
  constructor
  · intro hterminal
    rw [h.terminal b hb hterminal] at hidle
    cases hidle
  · have hrunning := Debouncer.not_stopped_of_isDue (Moment.isDue_of_fires hfires)
    rw [Bool.eq_false_iff]
    intro hstops
    rw [h.stopped.2 ⟨b, hb, hstops⟩] at hrunning
    cases hrunning

theorem Recorded.takes (h : Recorded past m.worker)
    (hrunning : ∀ b ∈ past, b.stops = false) {command : TimerCommand}
    (hdeed : m.deed = .take command) :
    m.next.timer = m.worker.timer.take m.worker.clock command := by
  have hstopped : m.worker.timer.stopped = false := by
    rw [Bool.eq_false_iff, Ne, h.stopped]
    rintro ⟨b, hb, hstops⟩
    rw [hrunning b hb] at hstops
    cases hstops
  simp [Moment.next, Moment.move, hdeed, perform, take, hstopped]

/-- In any order of commands, fires and uses of the guard, with any clock and
any trigger, the timer fires only on a deadline that is armed and not taken
back, once for an arming and not before its delay is over; the trigger is called
when the guard is idle, never after its termination or a shutdown; and a trigger
that fails or breaks down is reported once and does not stop the worker. -/
theorem fires_when_armed (guard : PassGuard) (deeds : List Deed) :
    Disciplined (moments { guard } deeds) := by
  have hstart : Recorded [] ({ guard } : TimerWorker) := by
    constructor <;> simp
  have hbefore {earlier later : List Moment} {m : Moment}
      (hsplit : moments { guard } deeds = earlier ++ m :: later) :
      Recorded earlier m.worker := by
    simpa using hstart.before hsplit
  constructor
  · exact fun _ _ _ hsplit => (hbefore hsplit).armed_of_fires
  · obtain ⟨final, hfinal⟩ := hstart.run deeds
    have hcounted := hfinal.counted
    rw [List.nil_append] at hcounted
    omega
  · exact fun m _ => calls_next_ne_iff m
  · exact fun _ _ _ hsplit hcalls _ => (hbefore hsplit).open_of_calls hcalls
  · exact fun m _ => reports_moment m
  · exact fun _ _ _ hsplit hrunning _ => (hbefore hsplit).takes hrunning

end TimerWorker

end ComponentBuild
