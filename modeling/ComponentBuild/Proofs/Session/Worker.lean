import ComponentBuild.Proofs.Session.Tasks

/-!
# The steps of a session's worker

While an update runs, the worker goes from its snapshots to their passes and
back.  It looks neither at the timer nor at the queue, and it always comes to
the end.  A terminated guard stays terminated, and from then on no update
begins.
-/

namespace ComponentBuild

/-! ## Activities -/

namespace Activity

def isRunning : Activity → Bool
  | updating .. | begun .. | committed .. => true
  | waiting | stopped => false

/-- The worker is in a pass, and holds the guard's token. -/
def holdsToken : Activity → Bool
  | begun .. | committed .. => true
  | waiting | updating .. | stopped => false

def remaining : Activity → Nat
  | updating _ snapshots _ => 3 * snapshots.length + 1
  | begun _ _ _ rest _ => 3 * rest.length + 3
  | committed _ _ _ rest _ => 3 * rest.length + 2
  | waiting | stopped => 0

end Activity

namespace Session

variable {υ σ : Type} {s t u : Session υ σ}

def calls (s : Session υ σ) : List (List Path) :=
  s.history.filterMap fun
    | .updated changed => some changed
    | _ => none

/-! ## Inside an update -/

/-- What stays the same while an update runs. -/
structure Inside (s t : Session υ σ) : Prop where
  config : t.config = s.config
  mode : t.mode = s.mode
  timer : t.timer = s.timer
  clock : t.clock = s.clock
  closing : t.closing = s.closing
  calls : t.calls = s.calls
  queue : ∃ cancels, t.queue = s.queue ++ cancels ∧ (∀ c ∈ cancels, c = .cancel) ∧
    (s.mode = .watch → cancels = [])
  terminal : s.guard = .terminal → t.guard = .terminal

namespace Inside

private theorem of_eq (hconfig : t.config = s.config) (hmode : t.mode = s.mode)
    (htimer : t.timer = s.timer) (hclock : t.clock = s.clock)
    (hclosing : t.closing = s.closing) (hcalls : t.calls = s.calls)
    (hqueue : t.queue = s.queue)
    (hguard : s.guard = .terminal → t.guard = .terminal) : Inside s t :=
  ⟨hconfig, hmode, htimer, hclock, hclosing, hcalls,
    ⟨[], by simp [hqueue], by simp, fun _ => rfl⟩, hguard⟩

private theorem refl (s : Session υ σ) : Inside s s :=
  of_eq rfl rfl rfl rfl rfl rfl rfl id

private theorem trans (h : Inside s t) (h' : Inside t u) : Inside s u where
  config := h'.config.trans h.config
  mode := h'.mode.trans h.mode
  timer := h'.timer.trans h.timer
  clock := h'.clock.trans h.clock
  closing := h'.closing.trans h.closing
  calls := h'.calls.trans h.calls
  queue := by
    obtain ⟨cancels, heq, hall, hnil⟩ := h.queue
    obtain ⟨cancels', heq', hall', hnil'⟩ := h'.queue
    refine ⟨cancels ++ cancels', ?_, ?_, ?_⟩
    · rw [heq', heq, List.append_assoc]
    · intro c hc
      exact (List.mem_append.1 hc).elim (hall c) (hall' c)
    · intro hw
      rw [hnil hw, hnil' (h.mode.trans hw), List.append_nil]
  terminal hg := h'.terminal (h.terminal hg)

private theorem with_activity (h : Inside s t) (activity : Activity) :
    Inside s { t with activity } :=
  ⟨h.config, h.mode, h.timer, h.clock, h.closing, h.calls, h.queue, h.terminal⟩

theorem emit (s : Session υ σ) (e : BuildEvent) : Inside s (s.emit e) :=
  of_eq rfl rfl rfl rfl rfl (by simp [Session.calls, Session.emit]) rfl id

private theorem emitAll (s : Session υ σ) (es : List BuildEvent) :
    Inside s (s.emitAll es) := by
  refine of_eq rfl rfl rfl rfl rfl ?_ rfl id
  simp [Session.calls, Session.emitAll, List.filterMap_map]

theorem frame : Frame (Inside (υ := υ) (σ := σ)) where
  refl := refl
  trans := trans
  carryOut s task hends := by
    cases task with
    | supersede version => exact emit s _
    | count => exact of_eq rfl rfl rfl rfl rfl rfl rfl id
    | announce record => exact emit s _
    | report message => exact emit s _
    | closeNotifiers => exact of_eq rfl rfl rfl rfl rfl rfl rfl id
    | cancel =>
        have hfull : s.mode = .full := hends
        exact ⟨rfl, rfl, rfl, rfl, rfl, rfl,
          ⟨[.cancel], rfl, by simp, by simp [hfull]⟩, id⟩
    | terminate => exact of_eq rfl rfl rfl rfl rfl rfl rfl fun _ => rfl
    | release =>
        refine of_eq rfl rfl rfl rfl rfl rfl rfl fun hg => ?_
        simp [Session.carryOut, releaseToken, hg, PassGuard.release]
    | complete pass result =>
        rw [Session.carryOut, complete_eq]
        split
        · exact emit s _
        · exact of_eq rfl rfl rfl rfl rfl rfl rfl id
    | closeUnit =>
        rw [Session.carryOut, closeUnit]
        split
        · refine of_eq rfl rfl rfl rfl rfl ?_ rfl id
          simp [Session.calls]
        · exact refl s
    | goOn activity => cases hends

theorem beginPass (s : Session υ σ) (snapshot : Snapshot) (before : Nat)
    (rest : List Snapshot) (ending : UpdateEnd) :
    Inside s (s.beginPass snapshot before rest ending) := by
  obtain ⟨event, guard, passes, activity, heq, hterminal⟩ :=
    exists_beginPass s snapshot before rest ending
  rw [heq]
  exact (emit s event).trans (of_eq rfl rfl rfl rfl rfl rfl rfl hterminal)

end Inside

/-! ## Firing -/

theorem queue_fire (frontend : Frontend υ (Workspace σ)) (s : Session υ σ) :
    (s.fire frontend).queue = s.queue := by
  unfold fire Debouncer.fire
  cases decide (s.guard = .idle) with
  | false => rfl
  | true => cases hu : s.unit <;> simp

theorem timer_fire (frontend : Frontend υ (Workspace σ)) (s : Session υ σ) :
    (s.fire frontend).timer = (s.timer.fire (s.guard = .idle)).2 := by
  unfold fire Debouncer.fire
  cases decide (s.guard = .idle) with
  | false => rfl
  | true => cases hu : s.unit <;> simp

theorem activity_fire (frontend : Frontend υ (Workspace σ))
    (hw : s.activity = .waiting) :
    (s.fire frontend).activity ≠ .stopped := by
  unfold fire Debouncer.fire
  cases decide (s.guard = .idle) with
  | false => simp [hw]
  | true => cases hu : s.unit <;> simp [hw]

theorem fire_idle {unit : υ} (frontend : Frontend υ (Workspace σ))
    (hg : s.guard = .idle) (hu : s.unit = some unit) : s.fire frontend =
      { s with
        timer := (s.timer.fire true).2
        unit := some (frontend.update unit s.timer.changed.toList s.workspace).2.1
        workspace := (frontend.update unit s.timer.changed.toList s.workspace).2.2
        history := s.history ++ [.updated s.timer.changed.toList]
        activity := .updating s.passes
          (frontend.update unit s.timer.changed.toList s.workspace).1.snapshots
          (frontend.update unit s.timer.changed.toList s.workspace).1.ending
            } := by
  simp [fire, Debouncer.fire, hg, hu]

theorem fire_busy (frontend : Frontend υ (Workspace σ)) (hg : s.guard ≠ .idle) :
    s.fire frontend = { s with timer := (s.timer.fire false).2 } := by
  simp [fire, Debouncer.fire, hg]

theorem fire_unmade (frontend : Frontend υ (Workspace σ)) (hu : s.unit = none) :
    s.fire frontend = { s with timer := (s.timer.fire (s.guard = .idle)).2 } := by
  unfold fire Debouncer.fire
  cases decide (s.guard = .idle) <;> simp [hu]

theorem calls_fire {unit : υ} (frontend : Frontend υ (Workspace σ))
    (hg : s.guard = .idle) (hu : s.unit = some unit) :
    (s.fire frontend).calls = s.calls ++ [s.timer.changed.toList] := by
  rw [fire_idle frontend hg hu]
  simp [calls]

/-! ## One step -/

private theorem activity_beginPass (s : Session υ σ) (snapshot : Snapshot)
    (before : Nat) (rest : List Snapshot) (ending : UpdateEnd) :
    (s.beginPass snapshot before rest ending).activity =
      .updating before rest ending ∨
      (s.beginPass snapshot before rest ending).activity =
        .begun s.nextRecord snapshot before rest ending := by
  by_cases hg : s.guard = .idle
  · rw [beginPass_idle hg]
    exact .inr rfl
  · rw [beginPass_busy hg]
    exact .inl rfl

section

variable [Storage σ] {frontend : Frontend υ (Workspace σ)}

inductive Worked (frontend : Frontend υ (Workspace σ)) (s : Session υ σ) :
    Session υ σ → Prop
  | fired (hw : s.activity = .waiting) (hd : s.timer.isDue s.clock = true) :
      Worked frontend s (s.fire frontend)
  | took {command : TimerCommand} {queue : List TimerCommand}
      (hw : s.activity = .waiting)
      (hd : s.timer.isDue s.clock = false) (hq : s.queue = command :: queue) :
      Worked frontend s { s with
        queue
        timer := s.timer.take s.clock command
        activity := if (s.timer.take s.clock command).stopped then .stopped
        else .waiting }
  | began {before : Nat} {snapshot : Snapshot} {rest : List Snapshot}
      {ending : UpdateEnd}
      (ha : s.activity = .updating before (snapshot :: rest) ending) :
      Worked frontend s (s.beginPass snapshot before rest ending)
  | ended {before : Nat} {ending : UpdateEnd}
      (ha : s.activity = .updating before [] ending) :
      Worked frontend s { s.finishUpdate before ending with activity := .waiting }
  | built {record : PassRecord} {snapshot : Snapshot} {before : Nat}
      {rest : List Snapshot}
      {ending : UpdateEnd} (ha : s.activity =
        .begun record snapshot before rest ending) :
      Worked frontend s
        { { s with workspace :=
          (Pass.build s.config s.workspace record snapshot).workspace }.emitAll
            (Pass.build s.config s.workspace record snapshot).events with
          activity :=
            .committed (Pass.build s.config s.workspace record snapshot).record
            snapshot.version before rest ending }
  | finished {record : PassRecord} {version before : Nat} {rest : List Snapshot}
      {ending : UpdateEnd} (ha : s.activity =
        .committed record version before rest ending) :
      Worked frontend s { s.finishPass record version
        with activity := .updating before rest ending }

theorem worked_of_work (h : s.work frontend = some t) : Worked frontend s t := by
  unfold work at h
  split at h
  · cases h
  · rename_i hw
    split at h
    · rename_i hd
      cases h
      exact .fired hw hd
    · rename_i hd
      split at h
      · cases h
      · rename_i hq
        cases h
        exact .took hw (Bool.eq_false_iff.2 hd) hq
  · rename_i ha
    cases h
    exact .began ha
  · rename_i ha
    cases h
    exact .ended ha
  · rename_i ha
    cases h
    exact .built ha
  · rename_i ha
    cases h
    exact .finished ha

theorem Worked.outside (h : Worked frontend s t)
    (hr : s.activity.isRunning = false) :
    s.activity = .waiting ∧
      (s.timer.isDue s.clock = true ∧ t = s.fire frontend ∨
        s.timer.isDue s.clock = false ∧ ∃ command queue,
        s.queue = command :: queue ∧
          t = { s with
            queue
            timer := s.timer.take s.clock command
            activity := if (s.timer.take s.clock command).stopped then .stopped
  else .waiting }) := by
  cases h with
  | fired hw hd => exact ⟨hw, .inl ⟨hd, rfl⟩⟩
  | took hw hd hq => exact ⟨hw, .inr ⟨hd, _, _, hq, rfl⟩⟩
  | began ha | ended ha | built ha | finished ha =>
      simp [ha, Activity.isRunning] at hr

theorem work_isSome (hr : s.activity.isRunning = true) :
    (s.work frontend).isSome = true := by
  unfold work
  split <;> simp_all [Activity.isRunning]

/-- A step inside an update brings its end nearer. -/
theorem Worked.inside (h : Worked frontend s t)
    (hr : s.activity.isRunning = true) :
    Inside s t ∧ t.activity.remaining < s.activity.remaining ∧
      t.activity ≠ .stopped := by
  cases h with
  | fired hw hd => simp [hw, Activity.isRunning] at hr
  | took hw hd hq => simp [hw, Activity.isRunning] at hr
  | @began before snapshot rest ending ha =>
      refine ⟨.beginPass _ _ _ _ _, ?_, ?_⟩
      · rcases activity_beginPass s snapshot before rest ending with h | h
        · rw [h, ha, Activity.remaining, Activity.remaining, List.length_cons]
          omega
        · rw [h, ha, Activity.remaining, Activity.remaining, List.length_cons]
          omega
      · rcases activity_beginPass s snapshot before rest ending with h |
          h <;> simp [h]
  | ended ha =>
      refine ⟨(Inside.frame.finishUpdate s _ _).with_activity _, ?_, by simp⟩
      simp [ha, Activity.remaining]
  | @built record snapshot before rest ending ha =>
      have hpass : Inside s
          { s with workspace :=
            (Pass.build s.config s.workspace record snapshot).workspace } :=
        .of_eq rfl rfl rfl rfl rfl rfl rfl id
      refine ⟨(hpass.trans (.emitAll _ _)).with_activity _, ?_, by simp⟩
      simp [ha, Activity.remaining]
  | finished ha =>
      refine ⟨(Inside.frame.finishPass s _ _).with_activity _, ?_, by simp⟩
      simp [ha, Activity.remaining]

end

end Session

end ComponentBuild
