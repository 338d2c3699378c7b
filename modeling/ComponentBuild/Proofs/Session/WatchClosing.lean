import ComponentBuild.Proofs.Session.Teardown
import ComponentBuild.Proofs.Watch.Delivery

/-!
# Closing the watch of a full build

The worker closes the recorded notifiers before it delivers the result.  A
notifier is recorded after it was registered, and a change between the two can
arm the timer and bring the whole build to its end: then the worker finds
nothing to close, and what is recorded after that stays registered until the
owner gives the session up.
-/

namespace ComponentBuild

namespace Session

variable {υ σ : Type} {frontend : Frontend υ (Workspace σ)} {s t : Session υ σ}

/-! ## What one step leaves to the tasks -/

/-- Neither the registrations nor the result change, and a terminated guard
stays so. -/
structure Unwatching (s t : Session υ σ) : Prop where
  mode : t.mode = s.mode
  hub : t.hub = s.hub
  notifiers : t.notifiers = s.notifiers
  result : t.result = s.result
  guard : s.guard = .terminal → t.guard = .terminal

private theorem complete_registers (s : Session υ σ) (pass : Nat)
    (result : Except BuildError PassRecord) :
    (s.complete pass result).hub = s.hub ∧ (s.complete pass result).notifiers =
      s.notifiers := by
  rw [complete_eq]
  split <;> exact ⟨rfl, rfl⟩

theorem Worked.unwatching [Storage σ] (hstep : Worked frontend s t)
    (hn : s.nextTasks? = none) :
    Unwatching s t := by
  cases hstep with
  | fired hw hd =>
      have hfired := fired_fire frontend s
      exact ⟨hfired.mode, hfired.hub, hfired.notifiers, hfired.result,
        hfired.guard.trans⟩
  | took hw hd hq => exact ⟨rfl, rfl, rfl, rfl, id⟩
  | @began before snapshot rest ending ha =>
      have hterminal := (Inside.beginPass s snapshot before rest ending).terminal
      by_cases hg : s.guard = .idle
      · rw [beginPass_idle hg] at hterminal ⊢
        exact ⟨rfl, rfl, rfl, rfl, hterminal⟩
      · rw [beginPass_busy hg] at hterminal ⊢
        exact ⟨rfl, rfl, rfl, rfl, hterminal⟩
  | built ha => exact ⟨rfl, rfl, rfl, rfl, id⟩
  | ended ha => simp [nextTasks?, ha] at hn
  | finished ha => simp [nextTasks?, ha] at hn

end Session

/-! ## The order of the tasks -/

namespace WorkerTask

/-- A result is completed only when the watch is closed and the guard
terminated. -/
def Ordered : (closed terminal : Bool) → List WorkerTask → Prop
  | _, _, [] => True
  | _, terminal, .closeNotifiers :: tasks => Ordered true terminal tasks
  | closed, _, .terminate :: tasks => Ordered closed true tasks
  | closed, terminal, .complete _ _ :: tasks =>
      closed = true ∧ terminal = true ∧ Ordered closed terminal tasks
  | closed, terminal, _ :: tasks => Ordered closed terminal tasks

theorem Ordered.mono {tasks : List WorkerTask}
    {closed terminal closed' terminal' : Bool}
    (h : Ordered closed terminal tasks) (hc : closed = true → closed' = true)
    (ht : terminal = true → terminal' = true) :
    Ordered closed' terminal' tasks := by
  induction tasks generalizing closed terminal closed' terminal' with
  | nil => trivial
  | cons task tasks ih =>
      cases task with
      | closeNotifiers => exact ih h id ht
      | terminate => exact ih h hc id
      | complete pass result => exact ⟨hc h.1, ht h.2.1, ih h.2.2 hc ht⟩
      | supersede version | count | announce record | report message
      | cancel | release
      | closeUnit | goOn activity => exact ih h hc ht

end WorkerTask

namespace Session

open WorkerTask

private theorem ordered_nextTasks {υ σ : Type} {s : Session υ σ}
    {tasks : List WorkerTask} (hm : s.mode = .full)
    (h : s.nextTasks? = some tasks) : Ordered false false tasks := by
  have hfault (e : BuildError) (activity : Activity) :
      Ordered false false (s.faultTasks e ++ [.goOn activity]) := by
    simp [faultTasks, hm, Ordered]
  unfold nextTasks? at h
  split at h
  · cases h
    unfold passTasks
    split
    · simp [Ordered]
    · simp [hm, Ordered]
  · rename_i before ending ha
    cases h
    cases ending with
    | failed e => exact hfault e .waiting
    | brokeDown message => exact hfault _ .waiting
    | done =>
        rw [updateTasks]
        split
        · simp [Ordered]
        · split
          · exact hfault _ .waiting
          · simp [Ordered]
  · cases h

end Session

namespace Stage

private theorem afterTarget_ne_record (mode : Mode) (target target' : Target)
    (id : NotifierId) :
    afterTarget mode target ≠ .record target' id := by
  cases target with
  | declarations =>
      rw [afterTarget]
      split <;> simp
  | sourceDir => simp [afterTarget]

private theorem afterRefusal_ne_record (mode : Mode) (target target' : Target)
    (id : NotifierId) :
    afterRefusal mode target ≠ .record target' id := by
  cases target with
  | declarations => exact afterTarget_ne_record mode .declarations target' id
  | sourceDir => simp [afterRefusal]

end Stage

namespace Life

open Session WorkerTask

variable {υ σ : Type} {frontend : Frontend υ (Workspace σ)} {refuse : Path →
    Option BuildError}
  {l l' : Life υ σ}

/-! ## The result comes last -/

structure Delivering (l : Life υ σ) : Prop where
  mode : l.session.mode = .full
  ordered : Ordered l.unwatched (l.session.guard = .terminal) l.todo
  completed : l.session.result.completed = true →
    l.unwatched = true ∧ l.session.guard = .terminal

namespace Delivering

private theorem same (h : Delivering l)
    (hmode : l'.session.mode = l.session.mode)
    (hguard : l'.session.guard = l.session.guard)
    (hresult : l'.session.result = l.session.result) (htodo : l'.todo = l.todo)
    (hunwatched : l'.unwatched = l.unwatched) : Delivering l' := by
  refine ⟨hmode.trans h.mode, ?_, ?_⟩
  · rw [hunwatched, hguard, htodo]
    exact h.ordered
  · rw [hunwatched, hguard, hresult]
    exact h.completed

private theorem carryOut {task : WorkerTask} {todo : List WorkerTask}
    (h : Delivering l) (ht : l.todo = task :: todo) :
    Delivering (l.carryOut task todo) := by
  obtain ⟨hmode, hordered, hcompleted⟩ := h
  rw [ht] at hordered
  cases task with
  | closeNotifiers => exact ⟨hmode, hordered, fun hc => ⟨rfl, (hcompleted hc).2⟩⟩
  | terminate => exact ⟨hmode, hordered, fun hc => ⟨(hcompleted hc).1, rfl⟩⟩
  | complete pass result =>
      obtain ⟨hclosed, hterminal, hrest⟩ := hordered
      have hguard : (l.session.complete pass result).guard = l.session.guard :=
        guard_complete _ _ _
      refine ⟨(Inside.frame.complete l.session pass result).mode.trans hmode,
        ?_, fun _ => ?_⟩
      · exact hguard ▸ hrest
      · exact ⟨hclosed, hguard.trans (of_decide_eq_true hterminal)⟩
  | release =>
      have hguard : l.session.releaseToken.guard = .terminal ↔
          l.session.guard = .terminal := by
        rw [releaseToken]
        cases l.session.guard <;> simp [PassGuard.release]
      refine ⟨hmode, ?_, fun hc => ⟨(hcompleted hc).1,
        hguard.2 (hcompleted hc).2⟩⟩
      exact Ordered.mono hordered id fun hterminal =>
        decide_eq_true (hguard.2 (of_decide_eq_true hterminal))
  | closeUnit =>
      simp only [Life.carryOut, Session.carryOut, closeUnit_eq]
      exact ⟨hmode, hordered, hcompleted⟩
  | supersede version | count | announce record | report message | cancel
  | goOn activity =>
      exact ⟨hmode, hordered, hcompleted⟩

private theorem read {tasks : List WorkerTask} (h : Delivering l)
    (hn : l.session.nextTasks? = some tasks) :
    Delivering { l with todo := tasks } :=
  ⟨h.mode, (ordered_nextTasks h.mode hn).mono (by simp) (by simp), h.completed⟩

private theorem stepped {s : Session υ σ} (h : Delivering l) (ht : l.todo = [])
    (hs : Unwatching l.session s) (late : Bool) :
    Delivering { l with session := s, late } := by
  refine ⟨hs.mode.trans h.mode, ?_, fun hc => ?_⟩
  · rw [ht]
    trivial
  · rw [hs.result] at hc
    exact ⟨(h.completed hc).1, hs.guard (h.completed hc).2⟩

private theorem call (h : Delivering l) (refuse : Path → Option BuildError) :
    Delivering (l.call refuse) := by
  unfold Life.call
  split
  · split <;> exact h.same rfl rfl rfl rfl rfl
  · exact h.same rfl rfl rfl rfl rfl
  · exact h.same rfl rfl rfl rfl rfl
  · exact h.same rfl rfl rfl rfl rfl
  · exact h.same rfl rfl rfl rfl rfl
  · exact h.same rfl rfl rfl rfl rfl
  · exact h.same rfl rfl rfl rfl rfl
  · split
    · exact ⟨h.mode, h.ordered.mono id fun _ => rfl,
        fun hc => ⟨(h.completed hc).1, rfl⟩⟩
    · exact h
  · refine h.same ?_ ?_ ?_ rfl rfl <;> simp [closeUnit_eq]
  · exact h

variable [Storage σ]

private theorem worked (h : Delivering l) (hstep : Life.Worked frontend l l') :
    Delivering l' := by
  cases hstep with
  | carried ht => exact h.carryOut ht
  | read ht hn => exact h.read hn
  | stepped ht hn hs => exact h.stepped ht (hs.unwatching hn) l.nextLate
  | waited ht hs => exact h

private theorem perform (h : Delivering l) (frontend : Frontend υ (Workspace σ))
    (refuse : Path → Option BuildError) (move : Move) :
    Delivering (l.perform frontend refuse move) := by
  cases move with
  | work => exact h.worked (Life.worked frontend l)
  | call => exact h.call refuse
  | wait time => exact h.same rfl rfl rfl rfl rfl
  | change path => exact h.same rfl rfl rfl rfl rfl
  | notice n =>
      simp only [Life.perform]
      split
      · exact h.same rfl rfl rfl rfl rfl
      · exact h

end Delivering

/-! ## The notifiers of a session -/

/-- A notifier of the session is registered while it is recorded, or about to
be. -/
structure Listed (l : Life υ σ) : Prop where
  made : ∀ id ∈ l.own, id ≤ l.session.hub.made
  recorded : ∀ id ∈ l.session.notifiers, id ∈ l.own
  recording : ∀ target id, l.stage = .record target id →
    id ∈ l.own ∧ id ∉ l.session.notifiers
  closed : ∀ id ∈ l.own, l.session.hub.isClosed id = true ↔
    id ∉ l.session.notifiers ∧ ∀ target, l.stage ≠ .record target id
  stray : l.unwatched = true → (l.stray = true ↔ l.session.notifiers ≠ [])

namespace Listed

private theorem same (h : Listed l)
    (hmade : l.session.hub.made ≤ l'.session.hub.made)
    (hclosed : ∀ id, l'.session.hub.isClosed id = l.session.hub.isClosed id)
    (hnotifiers : l'.session.notifiers = l.session.notifiers)
    (hstage : ∀ target id, l'.stage = .record target id ↔
      l.stage = .record target id)
    (hown : l'.own = l.own) (hunwatched : l'.unwatched = l.unwatched)
    (hstray : l'.stray = l.stray) :
    Listed l' := by
  refine ⟨?_, ?_, ?_, ?_, ?_⟩
  · rw [hown]
    exact fun id hid => (h.made id hid).trans hmade
  · rw [hown, hnotifiers]
    exact h.recorded
  · rw [hown, hnotifiers]
    exact fun target id hrecord =>
      h.recording target id ((hstage target id).1 hrecord)
  · rw [hown, hnotifiers]
    intro id hid
    simp only [hclosed, h.closed id hid, ne_eq, hstage]
  · rw [hunwatched, hstray, hnotifiers]
    exact h.stray

theorem apart (h : Listed l) (hhub : l'.session.hub = l.session.hub)
    (hnotifiers : l'.session.notifiers = l.session.notifiers)
    (hstage : l'.stage = l.stage) (hown : l'.own = l.own)
    (hunwatched : l'.unwatched = l.unwatched) (hstray : l'.stray = l.stray) :
    Listed l' :=
  h.same (by rw [hhub]) (fun id => by rw [hhub]) hnotifiers
    (fun target id => by rw [hstage]) hown
    hunwatched hstray

theorem closeNotifiers (h : Listed l)
    (hhub : l'.session.hub = l.session.notifiers.foldl NotifierHub.close
      l.session.hub)
    (hnotifiers : l'.session.notifiers = []) (hstray : l'.stray = false)
    (hstage : ∀ target id, l'.stage = .record target id ↔
      l.stage = .record target id)
    (hown : l'.own = l.own) : Listed l' := by
  refine ⟨fun id hid => ?_, ?_, fun target id hrecord => ?_,
    fun id hid => ?_, fun _ => ?_⟩
  · rw [hown] at hid
    rw [hhub, NotifierHub.made_closeAll]
    exact h.made id hid
  · simp [hnotifiers]
  · rw [hown, hnotifiers]
    exact ⟨(h.recording target id ((hstage target id).1 hrecord)).1,
      List.not_mem_nil⟩
  · rw [hown] at hid
    rw [hhub, NotifierHub.isClosed_closeAll, h.closed id hid, hnotifiers]
    simp only [ne_eq, hstage, List.not_mem_nil, not_false_eq_true, true_and]
    constructor
    · rintro (hmem | ⟨-, hnone⟩)
      · exact fun target hrecord => (h.recording target id hrecord).2 hmem
      · exact hnone
    · intro hnone
      by_cases hmem : id ∈ l.session.notifiers
      · exact .inl hmem
      · exact .inr ⟨hmem, hnone⟩
  · simp [hstray, hnotifiers]

private theorem carryOut (h : Listed l) (task : WorkerTask)
    (todo : List WorkerTask) :
    Listed (l.carryOut task todo) := by
  cases task with
  | closeNotifiers => exact h.closeNotifiers rfl rfl rfl (fun _ _ => Iff.rfl) rfl
  | complete pass result =>
      have hcomplete := complete_registers l.session pass result
      exact h.apart hcomplete.1 hcomplete.2 rfl rfl rfl rfl
  | closeUnit =>
      refine h.apart ?_ ?_ rfl rfl rfl rfl <;> simp [Life.carryOut,
        Session.carryOut, closeUnit_eq]
  | supersede version | count | announce record | report message | cancel
  | terminate | release
  | goOn activity => exact h.apart rfl rfl rfl rfl rfl rfl

private theorem register (h : Listed l) {target : Target}
    (hstage : l.stage = .register target) (path : Path) : Listed
      { l with
        session := (l.session.register path).2
        stage := .record target (l.session.register path).1
        own := l.own ++ [(l.session.register path).1] } := by
  have hnew : ∀ id ∈ l.own, id ≠ l.session.hub.made + 1 := fun id hid =>
    (Nat.lt_succ_of_le (h.made id hid)).ne
  have hunrecorded : l.session.hub.made + 1 ∉ l.session.notifiers := fun hmem =>
    hnew _ (h.recorded _ hmem) rfl
  refine ⟨fun id hid => ?_, fun id hid =>
    List.mem_append_left _ (h.recorded id hid), ?_, fun id hid => ?_, h.stray⟩
  · rcases List.mem_append.1 hid with hid | hid
    · exact Nat.le_succ_of_le (h.made id hid)
    · exact (List.mem_singleton.1 hid).le
  · rintro _ _ ⟨⟩
    exact ⟨List.mem_append_right _ (List.mem_singleton_self _), hunrecorded⟩
  · have hobserve := NotifierHub.isClosed_observe l.session.hub.newNotifier.2
      (l.session.hub.made + 1) id path
    refine hobserve.trans ?_
    rcases List.mem_append.1 hid with hid | hid
    · have hclosed : l.session.hub.newNotifier.2.isClosed id = true ↔
          id ∉ l.session.notifiers ∧ ∀ target, l.stage ≠ .record target id :=
            h.closed id hid
      have hother := hnew id hid
      rw [hclosed, hstage]
      constructor
      · rintro ⟨-, hunrecorded, -⟩
        exact ⟨hunrecorded, fun _ hrecord =>
          hother (Stage.record.inj hrecord).2.symm⟩
      · rintro ⟨hunrecorded, -⟩
        exact ⟨hother, hunrecorded, by simp⟩
    · have hsame : id = l.session.hub.made + 1 := List.mem_singleton.1 hid
      simp [hsame, Session.register, NotifierHub.newNotifier]

private theorem record (h : Listed l) {target : Target} {id : NotifierId}
    (hstage : l.stage = .record target id) {stage : Stage}
    (hnext : ∀ target id, stage ≠ .record target id) : Listed
      { l with
        session := l.session.hold id
        stage
        stray := l.stray || l.unwatched } := by
  refine ⟨h.made, fun other hother => ?_,
    fun _ _ hrecord => absurd hrecord (hnext _ _),
    fun other hother => ?_, fun hunwatched => ?_⟩
  · rcases List.mem_append.1 hother with hother | hother
    · exact h.recorded other hother
    · exact List.mem_singleton.1 hother ▸ (h.recording target id hstage).1
  · refine (h.closed other hother).trans ?_
    simp only [hold, hstage, List.mem_append, List.mem_singleton, not_or]
    constructor
    · rintro ⟨hunrecorded, hrecord⟩
      exact ⟨⟨hunrecorded, fun heq => hrecord target (heq ▸ rfl)⟩,
        fun _ => hnext _ _⟩
    · rintro ⟨⟨hunrecorded, hne⟩, -⟩
      refine ⟨hunrecorded, ?_⟩
      rintro _ ⟨⟩
      exact hne rfl
  · have hunwatched' : l.unwatched = true := hunwatched
    simp [hold, hunwatched']

private theorem call (h : Listed l) (refuse : Path →
    Option BuildError) : Listed (l.call refuse) := by
  unfold Life.call
  split
  · rename_i target hstage
    split
    · exact h.same (Nat.le_succ _) (fun _ => rfl) rfl
        (fun _ _ => by simp [hstage, Stage.afterRefusal_ne_record]) rfl rfl rfl
    · exact h.register hstage _
  · rename_i target id hstage
    exact h.record hstage (Stage.afterTarget_ne_record _ _)
  · rename_i hstage
    exact h.same le_rfl (fun _ => rfl) rfl (fun _ _ => by simp [hstage]) rfl rfl
      rfl
  · rename_i hstage
    exact h.same le_rfl (fun _ => rfl) rfl (fun _ _ => by simp [hstage]) rfl rfl
      rfl
  · rename_i hstage
    exact h.closeNotifiers rfl rfl rfl (fun _ _ => by simp [hstage]) rfl
  · rename_i hstage
    exact h.same le_rfl (fun _ => rfl) rfl (fun _ _ => by simp [hstage]) rfl rfl
      rfl
  · rename_i hstage
    exact h.same le_rfl (fun _ => rfl) rfl (fun _ _ => by simp [hstage]) rfl rfl
      rfl
  · rename_i hstage
    split
    · exact h.same le_rfl (fun _ => rfl) rfl (fun _ _ => by simp [hstage]) rfl
        rfl rfl
    · exact h
  · rename_i hstage
    refine h.same ?_ (fun _ => ?_) ?_ (fun _ _ => by simp [hstage])
      rfl rfl rfl <;>
      simp [closeUnit_eq]
  · exact h

variable [Storage σ]

private theorem worked (h : Listed l) (hstep : Life.Worked frontend l l') :
    Listed l' := by
  cases hstep with
  | carried ht => exact h.carryOut _ _
  | read ht hn => exact h.apart rfl rfl rfl rfl rfl rfl
  | stepped ht hn hs =>
      have hunwatching := hs.unwatching hn
      exact h.apart hunwatching.hub hunwatching.notifiers rfl rfl rfl rfl
  | waited ht hs => exact h

private theorem perform (h : Listed l) (frontend : Frontend υ (Workspace σ))
    (refuse : Path → Option BuildError) (move : Move) :
    Listed (l.perform frontend refuse move) := by
  cases move with
  | work => exact h.worked (Life.worked frontend l)
  | call => exact h.call refuse
  | wait time => exact h.apart rfl rfl rfl rfl rfl rfl
  | change path => exact h.apart rfl rfl rfl rfl rfl rfl
  | notice n =>
      simp only [Life.perform]
      split
      · exact h.apart rfl rfl rfl rfl rfl rfl
      · exact h

end Listed

/-! ## A full build -/

private theorem delivering_born (frontend : Frontend υ (Workspace σ))
    (config : Config) (storage : σ) (hub : NotifierHub) :
    Delivering (born frontend (announced config .full storage hub)) ∧
      Listed (born frontend (announced config .full storage hub)) := by
  unfold born
  rcases createUnit_cases frontend (announced config .full storage hub) with
    ⟨e, workspace, hcreate⟩ | ⟨unit, workspace, hcreate⟩
  · rw [hcreate]
    let s : Session υ σ := { announced config .full storage hub with workspace }
    have hguard : (s.fault e).guard = .terminal := guard_fault_full rfl e
    have hnotifiers : (s.fault e).notifiers = [] := by
      rw [fault_full (s := s) rfl]
      exact (complete_registers _ _ _).2
    refine ⟨⟨(Inside.frame.fault s e).mode, trivial, fun _ => ⟨rfl, hguard⟩⟩, ?_⟩
    constructor <;> simp [s, hnotifiers]
  · rw [hcreate]
    refine ⟨⟨rfl, trivial, fun hc => ?_⟩, ?_⟩
    · cases hc
    · constructor <;> simp [announced, initial, emit]

variable [Storage σ]

private theorem delivering_run (frontend : Frontend υ (Workspace σ))
    (refuse : Path → Option BuildError) (moves : List Move)
    (h : Delivering l ∧ Listed l) :
    Delivering (l.run frontend refuse moves) ∧
      Listed (l.run frontend refuse moves) := by
  induction moves generalizing l with
  | nil => exact h
  | cons move moves ih =>
      exact ih ⟨h.1.perform frontend refuse move,
        h.2.perform frontend refuse move⟩

/-- When the result of a full build is completed the guard is terminated.
SingleUpdate the start is over too, no notifier of the session is registered,
unless one was recorded after the worker had closed them and none was closed
since. -/
theorem watch_closed_iff_of_completed (frontend : Frontend υ (Workspace σ))
    (refuse : Path → Option BuildError) (config : Config) (storage : σ)
    (hub : NotifierHub) (moves : List Move)
    (hc : ((born frontend (announced config .full storage hub)).run frontend
      refuse moves).session.result.completed = true) :
    let l :=
      (born frontend (announced config .full storage hub)).run
        frontend refuse moves
    l.session.guard = .terminal ∧
      (l.stage.isStart = false →
        ((∀ id ∈ l.own, l.session.hub.isClosed id = true) ↔
          l.stray = false)) := by
  intro l
  obtain ⟨hdelivering, hlisted⟩ : Delivering l ∧ Listed l :=
    delivering_run frontend refuse moves
      (delivering_born frontend config storage hub)
  obtain ⟨hunwatched, hguard⟩ := hdelivering.completed hc
  refine ⟨hguard, fun hstarted => ?_⟩
  have hrecorded : ∀ target id, l.stage ≠ .record target id := by
    intro target id hrecord
    rw [hrecord] at hstarted
    cases hstarted
  have hclosed : ∀ id ∈ l.own, l.session.hub.isClosed id = true ↔
      id ∉ l.session.notifiers :=
    fun id hid => (hlisted.closed id hid).trans
      (and_iff_left fun target => hrecorded target id)
  have hstray : l.stray = false ↔ l.session.notifiers = [] := by
    have h := hlisted.stray hunwatched
    cases hs : l.stray <;> simp_all
  rw [hstray, List.eq_nil_iff_forall_not_mem]
  constructor
  · exact fun h id hmem => (hclosed id (hlisted.recorded id hmem)).1
      (h id (hlisted.recorded id hmem)) hmem
  · exact fun h id hid => (hclosed id hid).2 (h id)

def startedFirst : List Move :=
  [.call, .call, .call] ++ List.replicate 13 .work

theorem watch_closed_after_start :
    let l := fresh.run twice (fun _ => none) startedFirst
    l.session.result.completed = true ∧ l.stage.isStart = false ∧ l.own = [1] ∧
      l.session.guard = .terminal ∧ ∀ id ∈ l.own,
      l.session.hub.isClosed id = true := by
  intro l
  have hc : l.session.result.completed = true := by decide +kernel
  have hstarted : l.stage.isStart = false := by decide +kernel
  have hstray : l.stray = false := by decide +kernel
  obtain ⟨hguard, hclosed⟩ :=
    watch_closed_iff_of_completed twice (fun _ => none) {} .empty {}
      startedFirst hc
  exact ⟨hc, hstarted, by decide +kernel, hguard, (hclosed hstarted).2 hstray⟩

/-- Between the registration of the notifier and its recording a change is
noticed, the pass for it is resolved, and the result delivered. -/
def changedFirst : List Move :=
  [.call, .change (Pass.sourceTypesPath {}), .notice 0, .work, .work,
    .wait 1000] ++
    List.replicate 12 .work ++ [.call, .call]

/-- The notifier stays registered and hears of the next change. -/
theorem watch_open_after_early_change :
    let l := fresh.run twice (fun _ => none) changedFirst
    let path := Pass.sourceTypesPath {}
    l.session.result.completed = true ∧ l.session.resolved = 1 ∧
    l.stage.isStart = false ∧
      l.own = [1] ∧ l.session.hub.isClosed 1 = false ∧
      (l.perform twice (fun _ => none) (.change path)).gathered = [path] := by
  decide +kernel

end Life

end ComponentBuild
