import ComponentBuild.Proofs.Session.Rest

/-!
# Runs of a session whose owner only waits

The worker goes on, time passes, changes are noticed and the owner looks for the
result, in any order. A trace keeps beside the session what its updates reported
and what the owner received.
-/

namespace ComponentBuild

namespace BuildEvent

/-- Tells of the course of the build, and not of the work done in a pass or of
changes. -/
def isNotable : BuildEvent → Bool
  | passStarted .. | superseded _ | error _ => true
  | _ => false

def isPassStart : BuildEvent → Bool
  | passStarted .. => true
  | _ => false

def isLate : BuildEvent → Bool
  | fileChanged _ | superseded _ | error _ => true
  | _ => false

end BuildEvent

namespace Session

inductive Move where
  | work
  | wait (time : Nat)
  | notice (path : Path)
  | poll

def Move.isQuiet : Move → Bool
  | work | wait _ => true
  | notice _ | poll => false

structure Trace (υ σ : Type) where
  session : Session υ σ
  updates : List UpdateResult := []
  received : List (Except BuildError PassRecord) := []

variable {υ σ : Type}

def nextUpdate? (frontend : Frontend υ (Workspace σ)) (s : Session υ σ) :
    Option UpdateResult :=
  if s.activity = .waiting ∧ s.timer.isDue s.clock = true ∧ s.guard = .idle then
    s.unit.map fun unit => (frontend.update unit s.timer.changed.toList
      s.workspace).1
  else none

section

variable {frontend : Frontend υ (Workspace σ)} {s : Session υ σ}

theorem nextUpdate?_eq_none
    (h : s.activity = .waiting → s.timer.isDue s.clock = true → s.guard ≠ .idle) :
    s.nextUpdate? frontend = none := by
  rw [nextUpdate?, if_neg]
  rintro ⟨hw, hd, hg⟩
  exact h hw hd hg

theorem nextUpdate?_running (hr : s.activity.isRunning = true) :
    s.nextUpdate? frontend = none := by
  refine nextUpdate?_eq_none fun hw => ?_
  rw [hw] at hr
  cases hr

theorem nextUpdate?_not_due (hd : s.timer.isDue s.clock = false) :
    s.nextUpdate? frontend = none := by
  refine nextUpdate?_eq_none fun _ hdue => ?_
  rw [hd] at hdue
  cases hdue

theorem nextUpdate?_fire {unit : υ} (frontend : Frontend υ (Workspace σ))
    (hw : s.activity = .waiting) (hd : s.timer.isDue s.clock = true)
    (hg : s.guard = .idle) (hu : s.unit = some unit) : s.nextUpdate? frontend =
      some (frontend.update unit s.timer.changed.toList s.workspace).1 := by
  rw [nextUpdate?, if_pos ⟨hw, hd, hg⟩, hu]
  rfl

theorem nextUpdate?_terminal (hg : s.guard = .terminal) :
    s.nextUpdate? frontend = none :=
  nextUpdate?_eq_none fun _ _ => by simp [hg]

end

def notable (s : Session υ σ) : List BuildEvent :=
  s.events.filter BuildEvent.isNotable

namespace Trace

variable [Storage σ]

def perform (frontend : Frontend υ (Workspace σ)) (t : Trace υ σ) :
    Move → Trace υ σ
  | .work =>
      match t.session.work frontend with
      | none => t
      | some session =>
          { t with session, updates := t.updates ++
            (t.session.nextUpdate? frontend).toList }
  | .wait time => { t with session.clock := t.session.clock + time }
  | .notice path => { t with session := t.session.notice path }
  | .poll =>
      { t with
        session := t.session.pollResult.2
        received := t.received ++ t.session.pollResult.1.toList }

def run (frontend : Frontend υ (Workspace σ)) (t : Trace υ σ)
    (moves : List Move) : Trace υ σ :=
  moves.foldl (perform frontend) t

end Trace

theorem run_append [Storage σ] (frontend : Frontend υ (Workspace σ))
    (t : Trace υ σ) (moves more : List Move) :
    Trace.run frontend t (moves ++ more) =
      Trace.run frontend (Trace.run frontend t moves) more :=
  List.foldl_append

/-! ## Settling as a run -/

section

variable [Storage σ] {frontend : Frontend υ (Workspace σ)} {t : Trace υ σ}

theorem Trace.stopsWithTimer_perform (hm : t.session.StopsWithTimer)
    (move : Move) :
    (t.perform frontend move).session.StopsWithTimer := by
  cases move with
  | work =>
      simp only [perform]
      split
      · exact hm
      · rename_i session hwork
        have hadvance : t.session.advance frontend 0 = some session := by
          simp [advance, hwork]
        exact hm.advance hadvance
  | wait time => exact hm
  | notice path => exact hm
  | poll => exact hm

theorem Trace.stopsWithTimer_run (hm : t.session.StopsWithTimer)
    (moves : List Move) :
    (t.run frontend moves).session.StopsWithTimer := by
  induction moves generalizing t with
  | nil => exact hm
  | cons move moves ih => exact ih (Trace.stopsWithTimer_perform hm move)

private theorem exists_quiet_move {patience : Nat} {s : Session υ σ}
    (hm : t.session.StopsWithTimer)
    (h : t.session.advance frontend patience = some s) :
    ∃ move : Move, move.isQuiet = true ∧
      (t.perform frontend move).session = s := by
  unfold advance at h
  split at h
  · rename_i hwork
    cases h
    exact ⟨.work, rfl, by simp [Trace.perform, hwork]⟩
  · rename_i hwork
    split at h
    · rename_i deadline ha hdeadline
      split at h
      · cases h
        have hlate : t.session.clock < deadline := by
          have hstopped := hm.running (by simp [ha])
          have hd : t.session.timer.isDue t.session.clock = false := by
            rcases work_eq_none_iff.1 hwork with hstopped | ⟨-, hd, -⟩
            · simp [ha] at hstopped
            · exact hd
          simpa [Debouncer.isDue, hdeadline, hstopped] using hd
        have hclock :
            t.session.clock + (deadline - t.session.clock) = deadline := by omega
        exact ⟨.wait (deadline - t.session.clock), rfl,
          by simp [Trace.perform, hclock]⟩
      · cases h
    · cases h

theorem exists_quiet_run (frontend : Frontend υ (Workspace σ))
    (hm : t.session.StopsWithTimer) (patience fuel : Nat) :
    ∃ moves : List Move, (∀ move ∈ moves, move.isQuiet = true) ∧
      (t.run frontend moves).session =
        t.session.settle frontend patience fuel := by
  induction fuel generalizing t with
  | zero => exact ⟨[], by simp, rfl⟩
  | succ fuel ih =>
      cases h : t.session.advance frontend patience with
      | none => exact ⟨[], by simp, (settle_of_rest h _).symm⟩
      | some s =>
          obtain ⟨move, hquiet, hmove⟩ := exists_quiet_move hm h
          obtain ⟨moves, hmoves, hrun⟩ :=
            ih (Trace.stopsWithTimer_perform hm move)
          refine ⟨move :: moves, ?_, ?_⟩
          · intro m hmem
            rcases List.mem_cons.1 hmem with rfl | hmem
            · exact hquiet
            · exact hmoves m hmem
          · rw [settle_of_advance h, ← hmove]
            exact hrun

end

/-- A full build.  The moves `before` fall between the registration of the
notifier and the first arming of the timer. -/
def fullBuildTrace [Storage σ] (frontend : Frontend υ (Workspace σ))
    (refuse : Path → Option BuildError) (s : Session υ σ)
    (before after : List Move) :
    Except BuildError Unit × Trace υ σ :=
  match s.createUnit frontend with
  | (.error e, s) =>
      (.error e, Trace.run frontend { session := s.fault e } (before ++ after))
  | (.ok (), s) =>
      let s := (s.observe refuse (Pass.sourceTypesPath s.config)).2
      let t := Trace.run frontend { session := s } before
      (.ok (), Trace.run frontend { t with session := t.session.armFirst } after)

theorem createUnit_cases (frontend : Frontend υ (Workspace σ)) (s : Session υ σ) :
    (∃ e workspace, s.createUnit frontend = (.error e, { s with workspace })) ∨
      ∃ unit workspace, s.createUnit frontend = (.ok (),
        { s with workspace, unit := some unit }) := by
  unfold createUnit
  rcases frontend.create s.config.request s.workspace with ⟨e | unit, workspace⟩
  · exact .inl ⟨e, workspace, rfl⟩
  · exact .inr ⟨unit, workspace, rfl⟩

theorem mode_createUnit (frontend : Frontend υ (Workspace σ)) (s : Session υ σ) :
    (s.createUnit frontend).2.mode = s.mode := by
  unfold createUnit
  split <;> rfl

theorem mode_observe (refuse : Path → Option BuildError) (s : Session υ σ)
    (path : Path) :
    (s.observe refuse path).2.mode = s.mode := by
  unfold observe
  split <;> rfl

theorem fullBuildTrace_start [Storage σ] (frontend : Frontend υ (Workspace σ))
    (refuse : Path → Option BuildError) {s : Session υ σ} (hm : s.mode = .full)
    (moves : List Move) :
    (fullBuildTrace frontend refuse s [] moves).2 =
      Trace.run frontend { session := (s.start frontend refuse).2 } moves := by
  rcases hcreate : s.createUnit frontend with ⟨e | _, s'⟩
  · simp only [fullBuildTrace, start, hcreate, List.nil_append]
  · have hmode : s'.mode = .full := by
      rw [← hm, ← mode_createUnit frontend s, hcreate]
    have hobserved := mode_observe refuse s' (Pass.sourceTypesPath s'.config)
    simp only [fullBuildTrace, start, hcreate, hobserved, hmode]
    rfl

/-- A change that the hub reports is noticed once for every listener. -/
theorem report_eq_run [Storage σ] (frontend : Frontend υ (Workspace σ))
    (s : Session υ σ) (path : Path) :
    (s.report path).2 =
      (Trace.run frontend { session := s }
        ((s.hub.listeners path).map fun _ => .notice path)).session := by
  have hfold (ids : List NotifierId) (s : Session υ σ) :
      ids.foldl (fun s _ => s.notice path) s =
        (Trace.run frontend { session := s }
          (ids.map fun _ => .notice path)).session := by
    induction ids generalizing s with
    | nil => rfl
    | cons id ids ih => exact ih (s.notice path)
  exact hfold _ s

end Session

end ComponentBuild
