import ComponentBuild.Session.Build
import Mathlib.Tactic.Common

/-!
# The tasks of a session's worker

A fault, the end of a pass and the end of an update are small tasks that are
carried out one after another.  A relation between sessions that every such task
keeps is kept by the operations too: that is shown here once, and what they
leave alone is then read off task by task.
-/

namespace ComponentBuild

/-- What the worker does one after another at the end of a pass or of an update.
-/
inductive WorkerTask where
  | supersede (version : Nat)
  /-- Counts a resolved pass. -/
  | count
  | announce (record : PassRecord)
  | report (message : String)
  | closeNotifiers
  | cancel
  | terminate
  | release
  | complete (pass : Nat) (result : Except BuildError PassRecord)
  | closeUnit
  | goOn (activity : Activity)

namespace WorkerTask

def isCount : WorkerTask → Bool
  | .count => true
  | _ => false

/-- The tasks of the operations move to no other activity, and only a full build
cancels its timer. -/
def Ends (mode : Mode) : WorkerTask → Prop
  | .cancel => mode = .full
  | .goOn _ => False
  | _ => True

end WorkerTask

namespace Session

variable {υ σ : Type} {s t : Session υ σ}

/-! ## The parts of a step, by mode -/

theorem complete_eq (s : Session υ σ) (pass : Nat)
    (result : Except BuildError PassRecord) :
    s.complete pass result =
      if s.result.completed then s.emit
        (.error (BuildError.lateResult pass).message)
      else
        { s with
          result := { s.result with waiting := some result, completed := true } } := by
  unfold complete OneShot.complete
  cases s.result.completed <;> rfl

theorem fault_full (hm : s.mode = .full) (e : BuildError) :
    s.fault e = (s.emit (.error e.message)).finishWatch.complete s.passes
      (.error e) := by
  have hmode : (s.emit (.error e.message)).mode = .full := hm
  simp only [fault, hmode]
  rfl

theorem fault_watch (hm : s.mode = .watch) (e : BuildError) :
    s.fault e =
      if s.resolved = 0 then (s.emit (.error e.message)).complete
        s.passes (.error e)
      else s.emit (.error e.message) := by
  have hmode : (s.emit (.error e.message)).mode = .watch := hm
  simp only [fault, hmode]
  rfl

def nextRecord (s : Session υ σ) : PassRecord :=
  (if s.passes + 1 = 1 then PassRecord.fullBuild (s.passes + 1)
    else PassRecord.rebuild (s.passes + 1)).start s.clock

theorem beginPass_idle (hg : s.guard = .idle) (snapshot : Snapshot) (before : Nat)
    (rest : List Snapshot) (ending : UpdateEnd) :
    s.beginPass snapshot before rest ending =
      { s.emit (.passStarted (s.passes + 1) s.nextRecord.isRebuild) with
        guard := .building
        passes := s.passes + 1
        activity := .begun s.nextRecord snapshot before rest ending } := by
  rw [beginPass, hg]
  rfl

theorem beginPass_busy (hg : s.guard ≠ .idle) (snapshot : Snapshot)
    (before : Nat) (rest : List Snapshot) (ending : UpdateEnd) :
    s.beginPass snapshot before rest ending =
      { s.emit (.superseded snapshot.version)
        with activity := .updating before rest ending } := by
  have hbegin : s.guard.tryBegin = (false, s.guard) := by
    cases h : s.guard with
    | idle => exact absurd h hg
    | building => rfl
    | terminal => rfl
  rw [beginPass, hbegin]

def resolvedPass (s : Session υ σ) (record : PassRecord) : Session υ σ :=
  { s with resolved := s.resolved + 1 }.emit
    (finishedEvent (record.resolve s.clock))

theorem finishPass_closing (hc : s.closing = true) (record : PassRecord)
    (version : Nat) :
    s.finishPass record version =
      (s.emit (.superseded version)).releaseToken := by
  simp [finishPass, hc]

theorem finishPass_open (hc : s.closing = false) (record : PassRecord)
    (version : Nat) :
    s.finishPass record version =
      match s.mode with
      | .full => (s.resolvedPass record).finishWatch.releaseToken.complete
          (record.resolve s.clock).pass (.ok (record.resolve s.clock))
      | .watch =>
          if (record.resolve s.clock).pass = 1 then
            (s.resolvedPass record).releaseToken.complete
              (record.resolve s.clock).pass
              (.ok (record.resolve s.clock))
          else (s.resolvedPass record).releaseToken := by
  have hopen : ¬ s.closing = true := by simp [hc]
  rw [finishPass, if_neg hopen]
  rfl

/-! ## Operations as tasks -/

def carryOut (s : Session υ σ) : WorkerTask → Session υ σ
  | .supersede version => s.emit (.superseded version)
  | .count => { s with resolved := s.resolved + 1 }
  | .announce record => s.emit (finishedEvent record)
  | .report message => s.emit (.error message)
  | .closeNotifiers => s.closeNotifiers
  | .cancel => s.send [.cancel]
  | .terminate => { s with guard := s.guard.terminate }
  | .release => s.releaseToken
  | .complete pass result => s.complete pass result
  | .closeUnit => s.closeUnit
  | .goOn activity => { s with activity }

def carryOutAll (s : Session υ σ) (tasks : List WorkerTask) : Session υ σ :=
  tasks.foldl carryOut s

theorem carryOutAll_append (s : Session υ σ) (tasks more : List WorkerTask) :
    s.carryOutAll (tasks ++ more) = (s.carryOutAll tasks).carryOutAll more :=
  List.foldl_append

def faultTasks (s : Session υ σ) (e : BuildError) : List WorkerTask :=
  .report e.message ::
    match s.mode with
    | .full =>
        [.closeNotifiers, .cancel, .terminate, .complete s.passes (.error e)]
    | .watch => if s.resolved = 0 then [.complete s.passes (.error e)] else []

def passTasks (s : Session υ σ) (record : PassRecord) (version : Nat) :
    List WorkerTask :=
  if s.closing then [.supersede version, .release]
  else
    let record := record.resolve s.clock
    .count :: .announce record ::
      match s.mode with
      | .full =>
          [.closeNotifiers, .cancel, .terminate, .release,
            .complete record.pass (.ok record)]
      | .watch =>
          .release :: if record.pass = 1
            then [.complete record.pass (.ok record)] else []

def updateTasks (s : Session υ σ) (before : Nat) : UpdateEnd → List WorkerTask
  | .failed e => s.faultTasks e
  | .brokeDown message => s.faultTasks (.ofBreakdown message)
  | .done =>
      if s.guard = .terminal then [.closeUnit]
      else if s.mode = .full ∧ before = 0 ∧
        s.passes = 0 then s.faultTasks silentUnit
      else []

theorem carryOutAll_faultTasks (s : Session υ σ) (e : BuildError) :
    s.carryOutAll (s.faultTasks e) = s.fault e := by
  cases hm : s.mode with
  | full =>
      rw [fault_full hm, faultTasks, hm]
      rfl
  | watch =>
      rw [fault_watch hm, faultTasks, hm]
      dsimp only
      split <;> rfl

theorem carryOutAll_passTasks (s : Session υ σ) (record : PassRecord)
    (version : Nat) :
    s.carryOutAll (s.passTasks record version) = s.finishPass record version := by
  cases hc : s.closing with
  | true =>
      rw [finishPass_closing hc, passTasks, if_pos hc]
      rfl
  | false =>
      have hopen : ¬ s.closing = true := by simp [hc]
      rw [finishPass_open hc, passTasks, if_neg hopen]
      cases hm : s.mode with
      | full => rfl
      | watch =>
          dsimp only
          split <;> rfl

theorem carryOutAll_updateTasks (s : Session υ σ) (before : Nat)
    (ending : UpdateEnd) :
    s.carryOutAll (s.updateTasks before ending) =
      s.finishUpdate before ending := by
  cases ending with
  | failed e => exact carryOutAll_faultTasks s e
  | brokeDown message => exact carryOutAll_faultTasks s _
  | done =>
      rw [updateTasks, finishUpdate]
      split
      · rfl
      · split
        · exact carryOutAll_faultTasks s _
        · rfl

/-- Nothing but the task of that name counts a resolved pass. -/
theorem resolved_carryOutAll (s : Session υ σ) (tasks : List WorkerTask) :
    (s.carryOutAll tasks).resolved =
      s.resolved + tasks.countP WorkerTask.isCount := by
  induction tasks generalizing s with
  | nil => rfl
  | cons task rest ih =>
      have hrest : (s.carryOutAll (task :: rest)).resolved =
          (s.carryOut task).resolved + rest.countP WorkerTask.isCount :=
            ih (s.carryOut task)
      have htask :
          (s.carryOut task).resolved = s.resolved + if task.isCount then 1
          else 0 := by
        cases task with
        | complete pass result =>
            rw [carryOut, complete_eq]
            split <;> rfl
        | closeUnit =>
            rw [carryOut, closeUnit]
            split <;> rfl
        | _ => rfl
      rw [hrest, htask, List.countP_cons]
      omega

/-! ## Frames -/

private theorem mode_carryOut (s : Session υ σ) (task : WorkerTask) :
    (s.carryOut task).mode = s.mode := by
  cases task with
  | complete pass result =>
      rw [carryOut, complete_eq]
      split <;> rfl
  | closeUnit =>
      rw [carryOut, closeUnit]
      split <;> rfl
  | _ => rfl

private theorem ends_faultTasks (s : Session υ σ) (e : BuildError) :
    ∀ task ∈ s.faultTasks e, task.Ends s.mode := by
  rw [faultTasks, List.forall_mem_cons]
  refine ⟨trivial, ?_⟩
  cases hm : s.mode with
  | full => simp [WorkerTask.Ends]
  | watch =>
      dsimp only
      split <;> simp [WorkerTask.Ends]

private theorem ends_passTasks (s : Session υ σ) (record : PassRecord)
    (version : Nat) :
    ∀ task ∈ s.passTasks record version, task.Ends s.mode := by
  unfold passTasks
  split
  · simp [WorkerTask.Ends]
  · cases hm : s.mode with
    | full => simp [WorkerTask.Ends]
    | watch =>
        dsimp only
        split <;> simp [WorkerTask.Ends]

private theorem ends_updateTasks (s : Session υ σ) (before : Nat)
    (ending : UpdateEnd) :
    ∀ task ∈ s.updateTasks before ending, task.Ends s.mode := by
  cases ending with
  | failed e => exact ends_faultTasks s e
  | brokeDown message => exact ends_faultTasks s _
  | done =>
      rw [updateTasks]
      split
      · simp [WorkerTask.Ends]
      · split
        · exact ends_faultTasks s _
        · simp

structure Frame (R : Session υ σ → Session υ σ → Prop) : Prop where
  refl : ∀ s, R s s
  trans : ∀ {s t u}, R s t → R t u → R s u
  carryOut : ∀ s task, task.Ends s.mode → R s (s.carryOut task)

namespace Frame

variable {R : Session υ σ → Session υ σ → Prop}

private theorem carryOutAll (h : Frame R) {tasks : List WorkerTask}
    (hends : ∀ task ∈ tasks, task.Ends s.mode) :
    R s (s.carryOutAll tasks) := by
  induction tasks generalizing s with
  | nil => exact h.refl s
  | cons task rest ih =>
      obtain ⟨htask, hrest⟩ := List.forall_mem_cons.1 hends
      rw [← mode_carryOut s task] at hrest
      exact h.trans (h.carryOut s task htask) (ih hrest)

theorem complete (h : Frame R) (s : Session υ σ) (pass : Nat)
    (result : Except BuildError PassRecord) :
    R s (s.complete pass result) :=
  h.carryOut s (.complete pass result) trivial

theorem closeUnit (h : Frame R) (s : Session υ σ) : R s s.closeUnit :=
  h.carryOut s .closeUnit trivial

theorem fault (h : Frame R) (s : Session υ σ) (e : BuildError) :
    R s (s.fault e) := by
  rw [← carryOutAll_faultTasks]
  exact h.carryOutAll (ends_faultTasks s e)

theorem finishPass (h : Frame R) (s : Session υ σ) (record : PassRecord)
    (version : Nat) :
    R s (s.finishPass record version) := by
  rw [← carryOutAll_passTasks]
  exact h.carryOutAll (ends_passTasks s record version)

theorem finishUpdate (h : Frame R) (s : Session υ σ) (before : Nat)
    (ending : UpdateEnd) :
    R s (s.finishUpdate before ending) := by
  rw [← carryOutAll_updateTasks]
  exact h.carryOutAll (ends_updateTasks s before ending)

end Frame

/-- The report of a snapshot changes little, and nothing of a guard that is
terminated. -/
theorem exists_beginPass (s : Session υ σ) (snapshot : Snapshot) (before : Nat)
    (rest : List Snapshot) (ending : UpdateEnd) : ∃ event guard passes activity,
      s.beginPass snapshot before rest ending =
          { s.emit event with guard, passes, activity } ∧
        (s.guard = .terminal → guard = .terminal) := by
  by_cases hg : s.guard = .idle
  · refine ⟨_, _, _, _, beginPass_idle hg snapshot before rest ending,
      fun hterminal => ?_⟩
    rw [hg] at hterminal
    cases hterminal
  · exact ⟨_, s.guard, s.passes, _,
      beginPass_busy hg snapshot before rest ending, id⟩

/-- The tasks neither move on nor begin a pass. -/
theorem frame_passes :
    Frame fun s t : Session υ σ =>
      t.activity = s.activity ∧ t.passes = s.passes where
  refl s := ⟨rfl, rfl⟩
  trans h h' := ⟨h'.1.trans h.1, h'.2.trans h.2⟩
  carryOut s task hends := by
    cases task with
    | complete pass result =>
        rw [Session.carryOut, complete_eq]
        split <;> exact ⟨rfl, rfl⟩
    | closeUnit =>
        rw [Session.carryOut, closeUnit]
        split <;> exact ⟨rfl, rfl⟩
    | goOn activity => cases hends
    | _ => exact ⟨rfl, rfl⟩

end Session

end ComponentBuild
