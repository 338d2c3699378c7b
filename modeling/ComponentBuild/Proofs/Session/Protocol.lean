import ComponentBuild.Proofs.Session.Completion

/-!
# The protocol of a watching session

However the changes and the updates fall, the events of the passes are complete
blocks, one for each reported snapshot, and the owner receives one result at
most.  It is the record of the first pass, or the first failure if that came
before any pass was over.
-/

namespace ComponentBuild.Session

variable {υ σ : Type}

/-! ## The session under a watch -/

def Trace.reported (t : Trace υ σ) : List Snapshot :=
  t.updates.flatMap UpdateResult.snapshots

structure Live (config : Config) (t : Trace υ σ) : Prop where
  watching : t.session.Watching
  configured : t.session.config = config
  closing : t.session.closing = false
  reporting : Reporting config t.session t.reported
  answering : Answering t

structure Lost (e : BuildError) (t : Trace υ σ) : Prop where
  unit : t.session.unit = none
  guard : t.session.guard = .idle
  outside : t.session.activity.isRunning = false
  passes : t.session.passes = 0
  blockEvents : t.session.blockEvents = []
  updates : t.updates = []
  delivered : Delivered (.error e) t

inductive Supervised (config : Config) (created : Except BuildError Unit)
    (t : Trace υ σ) : Prop
  | live (hc : created = .ok ()) (h : Live config t)
  | lost {e : BuildError} (hc : created = .error e) (h : Lost e t)

private theorem blockEvents_notice (s : Session υ σ) (path : Path) :
    (s.notice path).blockEvents = s.blockEvents :=
  blockEvents_emit_other (s :=
    { s with workspace := s.workspace.clearFileCache path.normalize }) rfl

section

variable {t : Trace υ σ} {config : Config} {created : Except BuildError Unit}
    {e : BuildError}

theorem Supervised.reporting (h : Supervised config created t) :
    Reporting config t.session t.reported := by
  cases h with
  | live hc h => exact h.reporting
  | lost hc h =>
      rw [Trace.reported, h.updates]
      refine .outside h.outside h.passes ?_
      rw [h.blockEvents]
      exact .none

theorem Supervised.guard (h : Supervised config created t) :
    t.session.guard = if t.session.activity.holdsToken then .building
      else .idle := by
  cases h with
  | live hc h => exact h.watching.guard
  | lost hc h =>
      have houtside : t.session.activity.holdsToken = false := by
        cases ha : t.session.activity with
        | waiting | stopped | updating => rfl
        | begun | committed =>
            have hr := h.outside
            rw [ha] at hr
            cases hr
      rw [houtside]
      exact h.guard

theorem Supervised.answer_cases (h : Supervised config created t) :
    created = .ok () ∧ t.session.result = {} ∧ t.received = [] ∧ Unanswered t ∨
      ∃ answer, Delivered answer t ∧
      FirstCompletion created t.updates answer := by
  cases h with
  | live hc h =>
      cases h.answering with
      | awaiting hresult hresolved hreceived h =>
          exact .inl ⟨hc, hresult, hreceived, h⟩
      | answered h hfirst => exact .inr ⟨_, h, hc ▸ hfirst⟩
  | @lost e hc h =>
      refine .inr ⟨.error e, h.delivered, ?_⟩
      rw [hc, h.updates]
      exact .uncreated e

theorem Unanswered.not_firstCompletion (h : Unanswered t)
    (hr : t.session.activity.isRunning = false)
    (answer : Except BuildError PassRecord) :
    ¬ FirstCompletion (.ok ()) t.updates answer := by
  cases h with
  | outside _ hp hsilent => exact not_firstCompletion_of_silent hsilent
  | inside hupdates hsilent hfirst =>
      rw [hfirst.running] at hr
      cases hr

/-! ## The start -/

def watched (config : Config) (storage : σ) (hub : NotifierHub) : Session υ σ :=
  (initial config .watch storage hub).emit (.started config.rootDir true)

private theorem live_created (config : Config) (storage : σ) (hub : NotifierHub)
    (workspace : Workspace σ)
    (unit : υ) :
    Live config
      { session :=
          { watched (υ := υ) config storage hub with workspace, unit := some unit } } := by
  refine ⟨⟨rfl, rfl, rfl, ?_⟩, rfl, rfl, .outside rfl rfl .none, ?_⟩
  · simp [StopsWithTimer, watched, initial, emit]
  · exact .awaiting rfl rfl rfl (.outside rfl rfl (by simp))

private theorem lost_uncreated (config : Config) (storage : σ)
    (hub : NotifierHub) (workspace : Workspace σ) (e : BuildError) :
    Lost e { session := fault { watched (υ := υ) config storage hub
      with workspace } e } := by
  have hfresh : ({ watched (υ := υ) config storage hub with workspace }.emit
      (.error e.message)).result = {} := rfl
  have hmode :
      { watched (υ := υ) config storage hub with workspace }.mode = .watch := rfl
  have hresolved :
      { watched (υ := υ) config storage hub with workspace }.resolved = 0 := rfl
  rw [fault_watch hmode, if_pos hresolved, complete_fresh hfresh]
  exact ⟨rfl, rfl, rfl, rfl, rfl, rfl, .fresh rfl rfl⟩

theorem Supervised.observe (h : Supervised config created t)
    (refuse : Path → Option BuildError) (path : Path) :
    Supervised config created { t
      with session := (t.session.observe refuse path).2 } := by
  unfold Session.observe
  cases h with
  | live hc h =>
      obtain ⟨hmode, hunit, hguard, hstopping⟩ := h.watching
      split <;> exact .live hc ⟨⟨hmode, hunit, hguard, hstopping⟩,
        h.configured, h.closing,
        h.reporting.same rfl rfl rfl, h.answering.same rfl rfl rfl rfl⟩
  | lost hc h =>
      split <;> exact .lost hc ⟨h.unit, h.guard, h.outside, h.passes,
        h.blockEvents, h.updates, h.delivered.same rfl rfl⟩

theorem Supervised.arm (h : Supervised config created t) :
    Supervised config created { t with session := t.session.armFirst } := by
  cases h with
  | live hc h =>
      obtain ⟨hmode, hunit, hguard, hstopping⟩ := h.watching
      exact .live hc ⟨⟨hmode, hunit, hguard, hstopping⟩, h.configured, h.closing,
        h.reporting.same rfl rfl rfl, h.answering.same rfl rfl rfl rfl⟩
  | lost hc h =>
      exact .lost hc ⟨h.unit, h.guard, h.outside, h.passes,
        h.blockEvents, h.updates, h.delivered.same rfl rfl⟩

/-! ## Every move -/

variable [Storage σ] {frontend : Frontend υ (Workspace σ)}

theorem Live.worked {s : Session υ σ} (h : Live config t)
    (hwork : t.session.work frontend = some s) :
    Live config (t.next frontend s) := by
  have hstep := worked_of_work hwork
  have hadvance : t.session.advance frontend 0 = some s := by
    simp [advance, hwork]
  obtain ⟨hconfig, hclosing⟩ := hstep.fixed
  refine ⟨(h.watching.advance hadvance).1, hconfig.trans h.configured,
    hclosing.trans h.closing, ?_, h.answering.worked h.watching h.closing hstep⟩
  rw [Trace.reported, Trace.next, List.flatMap_append]
  exact h.reporting.worked h.watching h.closing h.configured hstep

theorem Live.perform (h : Live config t) (frontend : Frontend υ (Workspace σ))
    (move : Move) :
    Live config (t.perform frontend move) := by
  obtain ⟨hmode, hunit, hguard, hstopping⟩ := h.watching
  cases move with
  | work =>
      simp only [Trace.perform]
      split
      · exact h
      · rename_i s hwork
        exact h.worked hwork
  | wait time =>
      exact ⟨⟨hmode, hunit, hguard, hstopping⟩, h.configured, h.closing,
        h.reporting.same rfl rfl rfl, h.answering.same rfl rfl rfl rfl⟩
  | notice path =>
      exact ⟨⟨hmode, hunit, hguard, hstopping⟩, h.configured, h.closing,
        h.reporting.same rfl rfl (blockEvents_notice _ _),
        h.answering.same rfl rfl rfl rfl⟩
  | poll =>
      refine ⟨⟨hmode, hunit, hguard, hstopping⟩, h.configured, h.closing,
        h.reporting.same rfl rfl rfl, ?_⟩
      cases h.answering with
      | awaiting hresult hresolved hreceived hunanswered =>
          rw [perform_poll_fresh hresult]
          exact h.answering
      | answered h hfirst => exact .answered (h.perform frontend .poll) hfirst

theorem Lost.perform (h : Lost e t) (frontend : Frontend υ (Workspace σ))
    (move : Move) :
    Lost e (t.perform frontend move) := by
  have hdelivered := h.delivered.perform frontend move
  cases move with
  | work =>
      simp only [Trace.perform]
      split
      · exact h
      · rename_i s hwork
        have hnone : t.session.nextUpdate? frontend = none := by
          simp [nextUpdate?, h.unit]
        rw [hnone, Option.toList_none, List.append_nil]
        obtain ⟨hw, ⟨hd, rfl⟩ | ⟨hd, command, queue, -, rfl⟩⟩ :=
          (worked_of_work hwork).outside h.outside
        · rw [fire_unmade frontend h.unit]
          exact ⟨h.unit, h.guard, h.outside, h.passes, h.blockEvents, h.updates,
            h.delivered.same rfl rfl⟩
        · refine ⟨h.unit, h.guard, ?_, h.passes, h.blockEvents, h.updates,
            h.delivered.same rfl rfl⟩
          dsimp only
          split <;> rfl
  | wait time =>
      exact ⟨h.unit, h.guard, h.outside, h.passes, h.blockEvents,
        h.updates, hdelivered⟩
  | notice path =>
      exact ⟨h.unit, h.guard, h.outside, h.passes,
        (blockEvents_notice _ _).trans h.blockEvents, h.updates, hdelivered⟩
  | poll =>
      exact ⟨h.unit, h.guard, h.outside, h.passes, h.blockEvents,
        h.updates, hdelivered⟩

theorem Supervised.perform (h : Supervised config created t)
    (frontend : Frontend υ (Workspace σ)) (move : Move) :
    Supervised config created (t.perform frontend move) := by
  cases h with
  | live hc h => exact .live hc (h.perform frontend move)
  | lost hc h => exact .lost hc (h.perform frontend move)

theorem Supervised.run (h : Supervised config created t)
    (frontend : Frontend υ (Workspace σ)) (moves : List Move) :
    Supervised config created (t.run frontend moves) := by
  induction moves generalizing t with
  | nil => exact h
  | cons move moves ih => exact ih (h.perform frontend move)

/-- Left to the worker, an update comes to its end. -/
theorem exists_outside (frontend : Frontend υ (Workspace σ)) (t : Trace υ σ) :
    ∃ n, (t.run frontend (List.replicate n .work)).session.activity.isRunning =
      false ∧
      (t.run frontend (List.replicate n .work)).updates = t.updates := by
  induction hremaining : t.session.activity.remaining using
    Nat.strongRecOn generalizing t with
  | ind remaining ih =>
      cases hr : t.session.activity.isRunning with
      | false => exact ⟨0, hr, rfl⟩
      | true =>
          have hsome : (t.session.work frontend).isSome = true := work_isSome hr
          obtain ⟨s, hwork⟩ := Option.isSome_iff_exists.1 hsome
          have hless := ((worked_of_work hwork).inside hr).2.1
          have hperform : t.perform frontend .work = { t with session := s } := by
            simp [Trace.perform, hwork, nextUpdate?_running hr]
          obtain ⟨n, hn⟩ := ih _ (hremaining ▸ hless) { t with session := s } rfl
          refine ⟨n + 1, ?_⟩
          rw [List.replicate_succ, Trace.run, List.foldl_cons, hperform]
          exact hn

/-! ## A whole watch -/

/-- What holds of a watching session at every moment until it is torn down. -/
structure Protocol (frontend : Frontend υ (Workspace σ)) (config : Config)
    (created : Except BuildError Unit) (t : Trace υ σ) : Prop where
  /-- The events so far are the first ones of the blocks of all reported
  snapshots. -/
  blocks : ∃ es, Blocks config t.reported es ∧ t.session.blockEvents <+: es
  /-- Between two updates every reported snapshot has its whole block. -/
  between : t.session.activity.isRunning = false →
    Blocks config t.reported t.session.blockEvents
  guard : t.session.guard = if t.session.activity.holdsToken then .building
    else .idle
  completed : t.session.activity.isRunning = false →
    (t.session.result.completed = true ↔ ∃ answer,
      FirstCompletion created t.updates answer)
  received : t.received.length ≤ 1
  answer : ∀ answer ∈ t.received, FirstCompletion created t.updates answer
  /-- A completed result is the one that the owner receives, whatever comes
  later. -/
  once : t.session.result.completed = true → ∃ answer,
    FirstCompletion created t.updates answer ∧
    ∀ moves, (t.run frontend (moves ++ [.poll])).received = [answer]

theorem Supervised.protocol (h : Supervised config created t)
    (frontend : Frontend υ (Workspace σ)) :
    Protocol frontend config created t := by
  have hreporting := h.reporting
  refine ⟨hreporting.prefix_blocks, fun hr => (hreporting.at_rest hr).2,
    h.guard, ?_, ?_, ?_, ?_⟩
  all_goals
    rcases h.answer_cases with ⟨rfl, hresult, hreceived, hunanswered⟩ |
      ⟨answer, hanswer, hfirst⟩
  · intro hr
    simpa [hresult] using hunanswered.not_firstCompletion hr
  · exact fun _ => iff_of_true hanswer.completed ⟨answer, hfirst⟩
  · simp [hreceived]
  · rcases hanswer.received with hreceived | hreceived <;> simp [hreceived]
  · simp [hreceived]
  · rcases hanswer.received with hreceived |
      hreceived <;> simp [hreceived, hfirst]
  · simp [hresult]
  · refine fun _ => ⟨answer, hfirst, fun moves => ?_⟩
    have hpolled := (hanswer.run frontend moves).perform frontend .poll
    rw [run_append]
    exact hpolled.taken (hanswer.run frontend moves).taken_poll

/-- The rest of the start, from the observation of the source directory on, and
what comes after it.  If the directory cannot be observed the session is torn
down. -/
def watchSource (frontend : Frontend υ (Workspace σ))
    (refuse : Path → Option BuildError) (t : Trace υ σ)
    (second after : List Move) : Trace υ σ :=
  match t.session.observe refuse t.session.config.sourceDir with
  | (.error _, session) => { t with session }
  | (.ok (), session) =>
      let t := Trace.run frontend { t with session } second
      Trace.run frontend { t with session := t.session.armFirst } after

/-- A watch.  The moves `first` and `second` fall after the registration of the
notifier for the declarations and of the one for the source directory. -/
def watchTrace (frontend : Frontend υ (Workspace σ))
    (refuse : Path → Option BuildError) (s : Session υ σ)
    (first second after : List Move) : Trace υ σ :=
  match s.createUnit frontend with
  | (.error e, s) =>
      Trace.run frontend { session := s.fault e } (first ++ second ++ after)
  | (.ok (), s) =>
      let s := (s.observe refuse (Pass.sourceTypesPath s.config)).2
      watchSource frontend refuse (Trace.run frontend { session := s } first)
        second after

theorem watchTrace_start (frontend : Frontend υ (Workspace σ))
    (refuse : Path → Option BuildError) {s : Session υ σ} (hm : s.mode = .watch)
    (moves : List Move) :
    watchTrace frontend refuse s [] [] moves =
      match s.start frontend refuse with
      | (.ok (), s) => Trace.run frontend { session := s } moves
      | (.error _, s) => { session := s } := by
  rcases hcreate : s.createUnit frontend with ⟨e | _, s'⟩
  · simp only [watchTrace, start, hcreate, List.nil_append]
  · have hmode : s'.mode = .watch := by
      rw [← hm, ← mode_createUnit frontend s, hcreate]
    have hobserved := mode_observe refuse s' (Pass.sourceTypesPath s'.config)
    simp only [watchTrace, watchSource, start, hcreate, hobserved, hmode,
      Trace.run, List.foldl_nil]
    split <;> rename_i hsource <;> simp [hsource]

theorem Supervised.watchSource (h : Supervised config created t)
    (frontend : Frontend υ (Workspace σ)) (refuse : Path → Option BuildError)
    (second after : List Move) :
    Supervised config created (Session.watchSource frontend refuse t
      second after) := by
  have hobserved := h.observe refuse t.session.config.sourceDir
  unfold Session.watchSource
  split
  · rename_i hrefused
    rw [hrefused] at hobserved
    exact hobserved
  · rename_i hsource
    rw [hsource] at hobserved
    exact (hobserved.run frontend second).arm.run frontend after

private theorem supervised_watch (frontend : Frontend υ (Workspace σ))
    (refuse : Path → Option BuildError)
    (config : Config) (storage : σ) (hub : NotifierHub)
      (first second after : List Move) :
    Supervised config
      ((frontend.create config.request (.ofStorage storage)).1.map fun _ => ())
      (watchTrace frontend refuse (watched config storage hub)
        first second after) := by
  unfold watchTrace createUnit
  have hrequest :
      frontend.create (watched (υ := υ) config storage hub).config.request
      (watched (υ := υ) config storage hub).workspace =
        frontend.create config.request (.ofStorage storage) := rfl
  rw [hrequest]
  rcases frontend.create config.request (.ofStorage storage)
    with ⟨e | unit, workspace⟩
  · exact Supervised.run (.lost rfl
      (lost_uncreated config storage hub workspace e)) frontend _
  · have hcreated : Supervised config (.ok ()) _ :=
      .live rfl (live_created config storage hub workspace unit)
    have hfirst :=
      (hcreated.observe refuse (Pass.sourceTypesPath config)).run frontend first
    exact hfirst.watchSource frontend refuse second after

/-- The protocol of a watch, however its moves fall; and every update comes to
its end. -/
theorem watch_keeps_protocol (frontend : Frontend υ (Workspace σ))
    (refuse : Path → Option BuildError) (config : Config) (storage : σ)
    (hub : NotifierHub) (first second after : List Move) :
    let created :=
      (frontend.create config.request (.ofStorage storage)).1.map fun _ => ()
    let watch :=
      watchTrace frontend refuse (watched config storage hub) first second after
    Protocol frontend config created watch ∧
      ∃ n, Protocol frontend config created
        (watch.run frontend (List.replicate n .work)) ∧
        (watch.run frontend (List.replicate n .work)).updates = watch.updates ∧
        (watch.run frontend (List.replicate n
          .work)).session.activity.isRunning = false := by
  intro created watch
  have hsupervised : Supervised config created watch :=
    supervised_watch frontend refuse config storage hub first second after
  obtain ⟨n, hr, hupdates⟩ := exists_outside frontend watch
  exact ⟨hsupervised.protocol frontend, n,
    (hsupervised.run frontend _).protocol frontend, hupdates, hr⟩

end

end ComponentBuild.Session
