import ComponentBuild.Proofs.Pass.Build
import ComponentBuild.Proofs.Session.Trace

/-!
# A full build resolves once

The first snapshot of the one update gets the one pass, and its result is the
result of the build.  After that the guard is terminated: later snapshots are
superseded, and a failure is only reported.  Without a snapshot the result is
the failure.
-/

namespace ComponentBuild

def UpdateEnd.cause : UpdateEnd → BuildError
  | .failed e => e
  | .brokeDown message => .ofBreakdown message
  | .done => Session.silentUnit

namespace Session

variable {υ σ : Type} {s : Session υ σ}

/-! ## What is reported -/

theorem events_emit (s : Session υ σ) (e : BuildEvent) :
    (s.emit e).events = s.events ++ [e] := by
  simp [events, emit]

theorem events_emitAll (s : Session υ σ) (es : List BuildEvent) :
    (s.emitAll es).events = s.events ++ es := by
  simp [events, emitAll, List.filterMap_map]

private theorem notable_emit {e : BuildEvent} (he : e.isNotable = true) :
    (s.emit e).notable = s.notable ++ [e] := by
  simp [notable, events_emit, he]

private theorem notable_emit_other {e : BuildEvent} (he : e.isNotable = false) :
    (s.emit e).notable = s.notable := by
  simp [notable, events_emit, he]

private theorem notable_emitAll {es : List BuildEvent}
    (hes : ∀ e ∈ es, e.isOfPass = true) :
    (s.emitAll es).notable = s.notable := by
  have hnone : es.filter BuildEvent.isNotable = [] := by
    rw [List.filter_eq_nil_iff]
    intro e he
    have hpass := hes e he
    cases e <;> simp_all [BuildEvent.isOfPass, BuildEvent.isNotable]
  simp [notable, events_emitAll, hnone]

private theorem calls_notice (s : Session υ σ) (path : Path) :
    (s.notice path).calls = s.calls :=
  (Inside.emit { s with workspace := s.workspace.clearFileCache path.normalize }
    _).calls

private theorem notable_notice (s : Session υ σ) (path : Path) :
    (s.notice path).notable = s.notable :=
  notable_emit_other (s := { s
    with workspace := s.workspace.clearFileCache path.normalize }) rfl

theorem closeUnit_eq (s : Session υ σ) : s.closeUnit =
    { s with
      unit := none
      history := s.history ++ (s.unit.map fun _ => .unitClosed).toList } := by
  cases hu : s.unit with
  | some unit => simp [closeUnit, hu]
  | none =>
      cases s
      simp_all [closeUnit]

theorem events_closeUnit (s : Session υ σ) : s.closeUnit.events = s.events := by
  rw [closeUnit_eq]
  cases h : s.unit <;> simp [events]

private theorem notable_fire {unit : υ} (frontend : Frontend υ (Workspace σ))
    (hg : s.guard = .idle) (hu : s.unit = some unit) :
    (s.fire frontend).notable = s.notable := by
  rw [fire_idle frontend hg hu]
  simp [notable, events]

def lateSnapshots (snapshots : List Snapshot) : List BuildEvent :=
  snapshots.map fun snapshot => .superseded snapshot.version

def lateEnd : UpdateEnd → List BuildEvent
  | .done => []
  | ending =>
      [.error ending.cause.message, .error (BuildError.lateResult 1).message]

/-- The result of a full build and the events that tell of its course, from
whether the unit could be made and what its updates reported. -/
inductive Conclusion :
    Except BuildError Unit → List UpdateResult → Except BuildError PassRecord →
    List BuildEvent → Prop
  | uncreated (e : BuildError) : Conclusion (.error e) [] (.error e)
      [.error e.message]
  | unresolved {r : UpdateResult} (hr : r.snapshots = []) :
      Conclusion (.ok ()) [r] (.error r.ending.cause)
        [.error r.ending.cause.message]
  | resolved {r : UpdateResult} {first : Snapshot} {rest : List Snapshot}
      {record : PassRecord}
      (hr : r.snapshots = first :: rest) (hpass : record.pass = 1)
      (hphase : record.phase = .resolved) (hrebuild : record.isRebuild = false) :
      Conclusion (.ok ()) [r] (.ok record)
        (.passStarted 1 false :: (lateSnapshots rest ++ lateEnd r.ending))

/-! ## The stages of a full build -/

structure Ready (armed : Bool) (t : Trace υ σ) : Prop where
  mode : t.session.mode = .full
  closing : t.session.closing = false
  activity : t.session.activity = .waiting
  guard : t.session.guard = .idle
  unit : t.session.unit.isSome = true
  passes : t.session.passes = 0
  result : t.session.result = {}
  running : t.session.timer.stopped = false
  queue : ∀ c ∈ t.session.queue, c.isChange = true
  armed : armed = true → t.session.timer.deadline.isSome = true ∨ ∃ delay,
    .arm delay ∈ t.session.queue
  calls : t.session.calls = []
  notable : t.session.notable = []
  updates : t.updates = []
  received : t.received = []

structure FirstRecord (record : PassRecord) : Prop where
  pass : record.pass = 1
  phase : record.phase = .building
  isRebuild : record.isRebuild = false

/-- Where the worker is in the update until the first pass is over. -/
inductive Opening (r : UpdateResult) (s : Session υ σ) : Prop
  | updating (ha : s.activity = .updating 0 r.snapshots r.ending)
      (hg : s.guard = .idle)
      (hp : s.passes = 0) (hn : s.notable = [])
  | begun {record : PassRecord} {first : Snapshot} {rest : List Snapshot}
      (ha : s.activity = .begun record first 0 rest r.ending)
        (hr : r.snapshots = first :: rest)
      (hrecord : FirstRecord record) (hp : s.passes = 1)
        (hn : s.notable = [.passStarted 1 false])
  | committed {record : PassRecord} {first : Snapshot} {rest : List Snapshot}
      (ha : s.activity = .committed record first.version 0 rest r.ending)
      (hr : r.snapshots = first :: rest) (hrecord : FirstRecord record)
        (hp : s.passes = 1)
      (hn : s.notable = [.passStarted 1 false])

theorem Opening.running {r : UpdateResult} (h : Opening r s) :
    s.activity.isRunning = true := by
  cases h with
  | updating ha | begun ha | committed ha => rw [ha]; rfl

theorem Opening.same {r : UpdateResult} {t : Session υ σ} (h : Opening r s)
    (ha : t.activity = s.activity) (hg : t.guard = s.guard)
    (hp : t.passes = s.passes) (hn : t.notable = s.notable) : Opening r t := by
  cases h with
  | updating ha' hg' hp' hn' =>
      exact .updating (ha.trans ha') (hg.trans hg') (hp.trans hp') (hn.trans hn')
  | begun ha' hr hrecord hp' hn' =>
      exact .begun (ha.trans ha') hr hrecord (hp.trans hp') (hn.trans hn')
  | committed ha' hr hrecord hp' hn' =>
      exact .committed (ha.trans ha') hr hrecord (hp.trans hp') (hn.trans hn')

structure Working (r : UpdateResult) (t : Trace υ σ) : Prop where
  mode : t.session.mode = .full
  closing : t.session.closing = false
  result : t.session.result = {}
  opening : Opening r t.session
  calls : t.session.calls.length = 1
  updates : t.updates = [r]
  received : t.received = []

def aftermath : Activity → List BuildEvent
  | .updating _ snapshots ending => lateSnapshots snapshots ++ lateEnd ending
  | _ => []

structure Delivered (answer : Except BuildError PassRecord) (t : Trace υ σ) :
    Prop where
  completed : t.session.result.completed = true
  waiting : t.session.result.taken = false →
    t.session.result.waiting = some answer ∧ t.received = []
  taken : t.session.result.taken = true → t.received = [answer]

structure Concluded (created : Except BuildError Unit)
    (answer : Except BuildError PassRecord) (t : Trace υ σ) : Prop where
  mode : t.session.mode = .full
  closing : t.session.closing = false
  guard : t.session.guard = .terminal
  notifiers : t.session.notifiers = []
  outside : t.session.activity.holdsToken = false
  passes : t.session.activity.isRunning = true → t.session.passes = 1
  delivered : Delivered answer t
  calls : t.session.calls.length = t.updates.length
  conclusion : Conclusion created t.updates answer
    (t.session.notable ++ aftermath t.session.activity)

inductive Stage (created : Except BuildError Unit) (armed : Bool)
    (t : Trace υ σ) : Prop
  | ready (hc : created = .ok ()) (h : Ready armed t)
  | working (hc : created = .ok ()) {r : UpdateResult} (h : Working r t)
  | concluded {answer : Except BuildError PassRecord}
      (h : Concluded created answer t)

variable {t : Trace υ σ} {created : Except BuildError Unit} {armed : Bool}
  {answer : Except BuildError PassRecord}

/-! ## The result -/

theorem Delivered.fresh
    (h : t.session.result = { waiting := some answer, completed := true })
    (hr : t.received = []) :
    Delivered answer t :=
  ⟨by rw [h], fun _ => ⟨by rw [h], hr⟩, fun htaken => by simp [h] at htaken⟩

theorem Delivered.same {u : Trace υ σ} (h : Delivered answer t)
    (hresult : u.session.result = t.session.result)
    (hreceived : u.received = t.received) : Delivered answer u := by
  refine ⟨?_, ?_, ?_⟩
  · rw [hresult]
    exact h.completed
  · rw [hresult, hreceived]
    exact h.waiting
  · rw [hresult, hreceived]
    exact h.taken

theorem Delivered.poll (h : Delivered answer t) :
    Delivered answer
      { t with
        session := t.session.pollResult.2
        received := t.received ++ t.session.pollResult.1.toList } := by
  cases htaken : t.session.result.taken with
  | true =>
      have hpoll : t.session.result.poll = (none, t.session.result) := by
        simp [OneShot.poll, htaken]
      refine h.same ?_ ?_ <;> simp [pollResult, hpoll]
  | false =>
      obtain ⟨hwaiting, hreceived⟩ := h.waiting htaken
      have hpoll : t.session.result.poll =
          (some answer,
            { t.session.result with waiting := none, taken := true }) := by
        simp [OneShot.poll, htaken, hwaiting]
      refine ⟨?_, ?_, ?_⟩
      · simp [pollResult, hpoll, h.completed]
      · simp [pollResult, hpoll]
      · simp [pollResult, hpoll, hreceived]

theorem Delivered.taken_poll (h : Delivered answer t) :
    t.session.pollResult.2.result.taken = true := by
  cases htaken : t.session.result.taken with
  | true => simp [pollResult, OneShot.poll, htaken]
  | false => simp [pollResult, OneShot.poll, htaken, (h.waiting htaken).1]

/-! ## What is promised at every stage -/

/-- What holds of a full build at every moment: the unit is updated at most
once, at most one pass is started, snapshots come too late only when the result
is there, and the one result that may be received is the one to which the update
leads. -/
structure Resolution (created : Except BuildError Unit) (t : Trace υ σ) :
    Prop where
  updates : t.updates.length ≤ 1
  calls : t.session.calls.length = t.updates.length
  started : t.session.events.countP BuildEvent.isPassStart ≤ 1
  received : t.received.length ≤ 1
  late : ∀ version, .superseded version ∈ t.session.events →
    t.session.result.completed = true
  answer : ∀ answer ∈ t.received, ∃ events,
    Conclusion created t.updates answer events ∧
    t.session.notable <+: events ∧ (t.session.activity.isRunning = false →
      t.session.notable = events)

private theorem countP_isPassStart (s : Session υ σ) :
    s.events.countP BuildEvent.isPassStart =
      s.notable.countP BuildEvent.isPassStart := by
  rw [notable, List.countP_filter]
  congr 1
  funext e
  cases e <;> rfl

private theorem superseded_mem_notable {version : Nat} :
    .superseded version ∈ s.notable ↔ .superseded version ∈ s.events := by
  simp [notable, BuildEvent.isNotable]

theorem Conclusion.started {updates : List UpdateResult}
    {events : List BuildEvent} (h : Conclusion created updates answer events) :
    updates.length ≤ 1 ∧ events.countP BuildEvent.isPassStart ≤ 1 := by
  cases h with
  | uncreated e => exact ⟨by simp, by simp [BuildEvent.isPassStart]⟩
  | unresolved hr => exact ⟨by simp, by simp [BuildEvent.isPassStart]⟩
  | @resolved r first rest record hr =>
      have hlate : (lateSnapshots rest).countP BuildEvent.isPassStart = 0 := by
        rw [lateSnapshots, List.countP_map, List.countP_eq_zero]
        intro snapshot _
        simp [BuildEvent.isPassStart]
      have hend : (lateEnd r.ending).countP BuildEvent.isPassStart = 0 := by
        cases r.ending <;> simp [lateEnd, BuildEvent.isPassStart]
      refine ⟨by simp, ?_⟩
      rw [List.countP_cons, List.countP_append, hlate, hend]
      simp [BuildEvent.isPassStart]

theorem Stage.resolution (h : Stage created armed t) : Resolution created t := by
  cases h with
  | ready hc h =>
      refine ⟨?_, ?_, ?_, ?_, ?_, ?_⟩
      · simp [h.updates]
      · simp [h.updates, h.calls]
      · simp [countP_isPassStart, h.notable]
      · simp [h.received]
      · simp [← superseded_mem_notable, h.notable]
      · simp [h.received]
  | working hc h =>
      have hnotable :
          t.session.notable = [] ∨
          t.session.notable = [.passStarted 1 false] := by
        cases h.opening with
        | updating ha hg hp hn => exact .inl hn
        | begun ha hr hrecord hp hn | committed ha hr hrecord hp hn =>
            exact .inr hn
      refine ⟨?_, ?_, ?_, ?_, ?_, ?_⟩
      · simp [h.updates]
      · simp [h.updates, h.calls]
      · rw [countP_isPassStart]
        rcases hnotable with hnotable |
          hnotable <;> simp [hnotable, BuildEvent.isPassStart]
      · simp [h.received]
      · intro version hmem
        rw [← superseded_mem_notable] at hmem
        rcases hnotable with hnotable | hnotable <;> simp [hnotable] at hmem
      · simp [h.received]
  | @concluded answer h =>
      obtain ⟨hupdates, hstarted⟩ := h.conclusion.started
      have hreceived : t.received = [] ∨ t.received = [answer] := by
        cases htaken : t.session.result.taken with
        | false => exact .inl (h.delivered.waiting htaken).2
        | true => exact .inr (h.delivered.taken htaken)
      refine ⟨hupdates, h.calls, ?_, ?_, fun _ _ => h.delivered.completed, ?_⟩
      · rw [List.countP_append] at hstarted
        rw [countP_isPassStart]
        omega
      · rcases hreceived with hreceived | hreceived <;> simp [hreceived]
      · intro answer' hanswer
        have hsame : answer' = answer := by
          rcases hreceived with hreceived | hreceived <;> simp_all
        rw [hsame]
        refine ⟨_, h.conclusion, List.prefix_append _ _, fun hr => ?_⟩
        have hover : aftermath t.session.activity = [] := by
          cases ha : t.session.activity with
          | updating before snapshots ending =>
              simp [ha, Activity.isRunning] at hr
          | waiting => rfl
          | begun record snapshot before rest ending => rfl
          | committed record version before rest ending => rfl
          | stopped => rfl
        rw [hover, List.append_nil]

/-! ## The start -/

theorem Ready.observe (h : Ready armed t) (refuse : Path → Option BuildError)
    (path : Path) :
    Ready armed { t with session := (t.session.observe refuse path).2 } := by
  unfold Session.observe
  split <;> exact ⟨h.mode, h.closing, h.activity, h.guard, h.unit, h.passes,
    h.result, h.running,
    h.queue, h.armed, h.calls, h.notable, h.updates, h.received⟩

theorem Stage.arm (h : Stage created armed t) :
    Stage created true { t with session := t.session.armFirst } := by
  cases h with
  | ready hc h =>
      refine .ready hc ⟨h.mode, h.closing, h.activity, h.guard, h.unit,
        h.passes, h.result, h.running,
        ?_, fun _ => .inr ⟨t.session.config.initialDelay, ?_⟩, h.calls,
        h.notable, h.updates, h.received⟩
      · intro c hc
        rcases List.mem_append.1 hc with hc | hc
        · exact h.queue c hc
        · rw [List.mem_singleton.1 hc]
          rfl
      · exact List.mem_append.2 (.inr (by simp))
  | working hc h =>
      exact .working hc ⟨h.mode, h.closing, h.result,
        h.opening.same rfl rfl rfl rfl, h.calls, h.updates, h.received⟩
  | concluded h =>
      exact .concluded ⟨h.mode, h.closing, h.guard, h.notifiers,
        h.outside, h.passes, h.delivered.same rfl rfl, h.calls, h.conclusion⟩

/-! ## The worker's steps -/

theorem complete_fresh (h : s.result = {}) (pass : Nat)
    (result : Except BuildError PassRecord) :
    s.complete pass result =
      { s with result := { waiting := some result, completed := true } } := by
  rw [complete_eq, h]
  rfl

theorem complete_late (h : s.result.completed = true) (pass : Nat)
    (result : Except BuildError PassRecord) :
    s.complete pass result = s.emit
      (.error (BuildError.lateResult pass).message) := by
  rw [complete_eq, if_pos h]

/-- What a session that has its result does not do to storage or to itself; it
only reports. -/
structure Unaltered (s t : Session υ σ) : Prop where
  storage : t.workspace.storage = s.workspace.storage
  hub : t.hub = s.hub
  guard : t.guard = s.guard
  passes : t.passes = s.passes
  resolved : t.resolved = s.resolved
  events : ∃ added, t.events = s.events ++ added ∧ ∀ e ∈ added, e.isLate = true

namespace Unaltered

variable {t u : Session υ σ}

private theorem silent (hstorage : t.workspace.storage = s.workspace.storage)
    (hhub : t.hub = s.hub) (hguard : t.guard = s.guard)
    (hpasses : t.passes = s.passes) (hresolved : t.resolved = s.resolved)
    (hevents : t.events = s.events) : Unaltered s t :=
  ⟨hstorage, hhub, hguard, hpasses, hresolved, [], by simp [hevents], by simp⟩

private theorem trans (h : Unaltered s t) (h' : Unaltered t u) :
    Unaltered s u where
  storage := h'.storage.trans h.storage
  hub := h'.hub.trans h.hub
  guard := h'.guard.trans h.guard
  passes := h'.passes.trans h.passes
  resolved := h'.resolved.trans h.resolved
  events := by
    obtain ⟨added, hadded, hlate⟩ := h.events
    obtain ⟨more, hmore, hlate'⟩ := h'.events
    refine ⟨added ++ more, ?_, ?_⟩
    · rw [hmore, hadded, List.append_assoc]
    · intro e he
      exact (List.mem_append.1 he).elim (hlate e) (hlate' e)

end Unaltered

theorem finishUpdate_first (hm : s.mode = .full) (hg : s.guard = .idle)
    (hp : s.passes = 0) (ending : UpdateEnd) :
    s.finishUpdate 0 ending = s.fault ending.cause := by
  cases ending with
  | failed e => rfl
  | brokeDown message => rfl
  | done =>
      have hopen : ¬ s.guard = .terminal := by simp [hg]
      rw [finishUpdate, if_neg hopen, if_pos ⟨hm, rfl, hp⟩]
      rfl

private theorem concluded_fault {e : BuildError} (hm : s.mode = .full)
    (hc : s.closing = false) (hresult : s.result = {})
    (hcalls : s.calls.length = t.updates.length) (hreceived : t.received = [])
    (hn : s.notable = [])
    (hconclusion : Conclusion created t.updates (.error e) [.error e.message]) :
    Concluded created (.error e)
      { t with session := { s.fault e with activity := .waiting } } := by
  have hfresh : (s.emit (.error e.message)).finishWatch.result = {} := hresult
  rw [fault_full hm, complete_fresh hfresh]
  have hnotable : (s.emit (.error e.message)).notable ++ aftermath .waiting =
      [.error e.message] := by
    rw [notable_emit rfl, hn]
    rfl
  have hcalls' : (s.emit (.error e.message)).calls.length = t.updates.length := by
    rw [(Inside.emit s _).calls]
    exact hcalls
  rw [← hnotable] at hconclusion
  exact ⟨hm, hc, rfl, rfl, rfl, by simp [Activity.isRunning],
    .fresh rfl hreceived, hcalls', hconclusion⟩

def opened (config : Config) (storage : σ) (hub : NotifierHub) : Session υ σ :=
  (initial config .full storage hub).emit (.started config.rootDir false)

theorem concluded_uncreated (config : Config) (storage : σ) (hub : NotifierHub)
    (workspace : Workspace σ) (e : BuildError) :
    Concluded (.error e) (.error e)
      { session := fault { opened (υ := υ) config storage hub with workspace } e
        } :=
  concluded_fault (s := { opened config storage hub with workspace })
    (t := { session := opened config storage hub }) rfl rfl rfl rfl rfl rfl
      (.uncreated e)

theorem ready_created (config : Config) (storage : σ) (hub : NotifierHub)
    (workspace : Workspace σ)
    (unit : υ) :
    Ready false
      { session :=
          { opened (υ := υ) config storage hub with workspace, unit := some unit } } :=
  ⟨rfl, rfl, rfl, rfl, rfl, rfl, rfl, rfl, by simp [opened, initial, emit],
    by simp, rfl, rfl, rfl, rfl⟩

theorem firstRecord_nextRecord (hp : s.passes = 0) :
    FirstRecord s.nextRecord := by
  constructor <;> simp [nextRecord, hp, PassRecord.fullBuild, PassRecord.start]

theorem FirstRecord.samePass {r r' : PassRecord} (h : FirstRecord r)
    (hs : r.SamePass r') :
    FirstRecord r' :=
  ⟨hs.pass.trans h.pass, hs.phase.trans h.phase, hs.isRebuild.trans h.isRebuild⟩

theorem FirstRecord.resolve {record : PassRecord} (h : FirstRecord record)
    (now : Nat) :
    (record.resolve now).pass = 1 ∧ (record.resolve now).phase = .resolved ∧
      (record.resolve now).isRebuild = false := by
  simp [PassRecord.resolve, PassRecord.finish, h.phase, h.pass, h.isRebuild]

private theorem fault_late (hm : s.mode = .full) (hg : s.guard = .terminal)
    (hn : s.notifiers = []) (hc : s.result.completed = true) (e : BuildError) :
    s.fault e = { s.emitAll [.error e.message,
      .error (BuildError.lateResult s.passes).message] with
      queue := s.queue ++ [.cancel] } := by
  have hcompleted :
      (s.emit (.error e.message)).finishWatch.result.completed = true := hc
  rw [fault_full hm, complete_late hcompleted]
  simp [finishWatch, closeNotifiers, send, emit, emitAll,
    PassGuard.terminate, hn, hg]

private theorem finishUpdate_late (hm : s.mode = .full)
    (hg : s.guard = .terminal) (hn : s.notifiers = [])
    (hc : s.result.completed = true) (hp : s.passes = 1) (before : Nat)
    (ending : UpdateEnd) :
    s.finishUpdate before ending = s.closeUnit ∧ lateEnd ending = [] ∨
      s.finishUpdate before ending =
        { s.emitAll (lateEnd ending) with queue := s.queue ++ [.cancel] } := by
  cases ending with
  | done =>
      left
      rw [finishUpdate, if_pos hg]
      exact ⟨rfl, rfl⟩
  | failed e =>
      right
      rw [finishUpdate, fault_late hm hg hn hc, hp]
      rfl
  | brokeDown message =>
      right
      rw [finishUpdate, fault_late hm hg hn hc, hp]
      rfl

section

variable [Storage σ] {frontend : Frontend υ (Workspace σ)}

theorem Ready.worked (h : Ready armed t) (hstep : Worked frontend t.session s) :
    Stage (.ok ()) armed
      { t with session := s, updates := t.updates ++
        (t.session.nextUpdate? frontend).toList } := by
  have hr : t.session.activity.isRunning = false := by rw [h.activity]; rfl
  obtain ⟨hw, ⟨hd, rfl⟩ | ⟨hd, command, queue, hq, rfl⟩⟩ := hstep.outside hr
  · obtain ⟨unit, hu⟩ := Option.isSome_iff_exists.1 h.unit
    have hnext : t.session.nextUpdate? frontend =
        some (frontend.update unit t.session.timer.changed.toList
          t.session.workspace).1 := by
      simp [nextUpdate?, hw, hd, h.guard, hu]
    rw [hnext, h.updates]
    refine .working rfl ⟨?_, ?_, ?_, ?_, ?_, rfl, h.received⟩
    · rw [fire_idle frontend h.guard hu]
      exact h.mode
    · rw [fire_idle frontend h.guard hu]
      exact h.closing
    · rw [fire_idle frontend h.guard hu]
      exact h.result
    · have hnotable := (notable_fire frontend h.guard hu).trans h.notable
      rw [fire_idle frontend h.guard hu] at hnotable ⊢
      refine .updating ?_ h.guard h.passes hnotable
      rw [← h.passes]
    · rw [calls_fire frontend h.guard hu, h.calls]
      rfl
  · have hnext : t.session.nextUpdate? frontend = none := by
      simp [nextUpdate?, hd]
    rw [hnext, Option.toList_none, List.append_nil]
    have hchange : command.isChange = true := h.queue command (by simp [hq])
    have hqueue : ∀ c ∈ queue, c.isChange = true :=
      fun c hc => h.queue c (by simp [hq, hc])
    have hrunning :
        (t.session.timer.take t.session.clock command).stopped = false := by
      have hbefore : t.session.timer.stopped = false := h.running
      cases command with
      | arm delay => exact hbefore
      | note path => exact hbefore
      | cancel => cases hchange
      | shutdown => cases hchange
    refine .ready rfl ⟨h.mode, h.closing, ?_, h.guard, h.unit, h.passes,
      h.result, hrunning, hqueue, ?_, h.calls, h.notable, h.updates, h.received⟩
    · simp [hrunning]
    · intro harmed
      cases command with
      | arm delay => exact .inl rfl
      | note path =>
          rcases h.armed harmed with hdeadline | ⟨delay, hdelay⟩
          · exact .inl hdeadline
          · rw [hq, List.mem_cons] at hdelay
            exact .inr ⟨delay, hdelay.resolve_left (by simp)⟩
      | cancel => cases hchange
      | shutdown => cases hchange

theorem Working.worked {r : UpdateResult} (h : Working r t)
    (hstep : Worked frontend t.session s) :
    Stage (.ok ()) armed { t with session := s } := by
  obtain ⟨hinside, -⟩ := hstep.inside h.opening.running
  have hmode : s.mode = .full := hinside.mode.trans h.mode
  have hclosing : s.closing = false := hinside.closing.trans h.closing
  have hcalls : s.calls.length = 1 :=
    (congrArg List.length hinside.calls).trans h.calls
  cases h.opening with
  | updating ha hg hp hn =>
      cases hstep with
      | fired hw | took hw => simp [hw] at ha
      | began ha' =>
          have hsame := ha.symm.trans ha'
          rw [Activity.updating.injEq] at hsame
          obtain ⟨rfl, hsnapshots, rfl⟩ := hsame
          have hrecord := firstRecord_nextRecord hp
          have hstarted : (t.session.emit (.passStarted (t.session.passes + 1)
              t.session.nextRecord.isRebuild)).notable =
                [.passStarted 1 false] := by
            rw [notable_emit rfl, hn, hp, hrecord.isRebuild]
            rfl
          rw [beginPass_idle hg] at hmode hclosing hcalls ⊢
          refine .working rfl ⟨hmode, hclosing, h.result, ?_, hcalls,
            h.updates, h.received⟩
          exact .begun rfl hsnapshots hrecord (congrArg Nat.succ hp) hstarted
      | ended ha' =>
          have hsame := ha.symm.trans ha'
          rw [Activity.updating.injEq] at hsame
          obtain ⟨rfl, hsnapshots, rfl⟩ := hsame
          rw [finishUpdate_first h.mode hg hp]
          refine .concluded (concluded_fault h.mode h.closing h.result ?_
            h.received hn ?_)
          · rw [h.updates]
            exact h.calls
          · rw [h.updates]
            exact .unresolved hsnapshots
      | built ha' | finished ha' => simp [ha'] at ha
  | @begun record first rest ha hr hrecord hp hn =>
      cases hstep with
      | fired hw | took hw => simp [hw] at ha
      | began ha' | ended ha' | finished ha' => simp [ha'] at ha
      | built ha' =>
          cases ha.symm.trans ha'
          refine .working rfl ⟨hmode, hclosing, h.result, ?_, hcalls,
            h.updates, h.received⟩
          refine .committed rfl hr
            (hrecord.samePass (Pass.samePass_build _ _ _ _)) hp ?_
          exact (notable_emitAll (Pass.isOfPass_build _ _ _ _)).trans hn
  | @committed record first rest ha hr hrecord hp hn =>
      cases hstep with
      | fired hw | took hw => simp [hw] at ha
      | began ha' | ended ha' | built ha' => simp [ha'] at ha
      | finished ha' =>
          cases ha.symm.trans ha'
          obtain ⟨hpass, hphase, hrebuild⟩ := hrecord.resolve t.session.clock
          have hfresh :
              (t.session.resolvedPass record).finishWatch.releaseToken.result =
                {} :=
            h.result
          have hnotable :
              (t.session.resolvedPass record).notable = [.passStarted 1 false] :=
            (notable_emit_other rfl).trans hn
          have hconclusion :
              Conclusion (.ok ()) t.updates (.ok (record.resolve t.session.clock))
              ((t.session.resolvedPass record).notable ++
                aftermath (.updating 0 rest r.ending)) := by
            rw [hnotable, h.updates]
            exact .resolved hr hpass hphase hrebuild
          rw [finishPass_open h.closing, h.mode] at hcalls hmode hclosing ⊢
          dsimp only at hcalls hmode hclosing ⊢
          rw [complete_fresh hfresh] at hcalls hmode hclosing ⊢
          refine .concluded ⟨hmode, hclosing, rfl, rfl, rfl, fun _ => hp,
            .fresh rfl h.received, ?_, hconclusion⟩
          rw [h.updates]
          exact hcalls

/-- With the result delivered nothing begins any more, and what is left of the
update is reported. -/
theorem Concluded.worked (h : Concluded created answer t) (hstep :
    Worked frontend t.session s) :
    Concluded created answer { t with session := s } ∧ Unaltered t.session s := by
  cases hr : t.session.activity.isRunning with
  | false =>
      obtain ⟨hw, ⟨-, rfl⟩ | ⟨-, command, queue, -, rfl⟩⟩ := hstep.outside hr
      · rw [fire_busy frontend (by simp [h.guard])]
        exact ⟨⟨h.mode, h.closing, h.guard, h.notifiers, h.outside, h.passes,
          h.delivered.same rfl rfl, h.calls, h.conclusion⟩,
          .silent rfl rfl rfl rfl rfl rfl⟩
      · have hconclusion := h.conclusion
        rw [hw] at hconclusion
        refine ⟨⟨h.mode, h.closing, h.guard, h.notifiers, ?_, ?_,
          h.delivered.same rfl rfl, h.calls,
          ?_⟩, .silent rfl rfl rfl rfl rfl rfl⟩
        · dsimp only
          split <;> rfl
        · dsimp only
          split <;> exact fun hr => by simp [Activity.isRunning] at hr
        · dsimp only
          split <;> exact hconclusion
  | true =>
      obtain ⟨hinside, -⟩ := hstep.inside hr
      have hmode : s.mode = .full := hinside.mode.trans h.mode
      have hclosing : s.closing = false := hinside.closing.trans h.closing
      have hguard : s.guard = .terminal := hinside.terminal h.guard
      have hcalls : s.calls.length = t.updates.length :=
        (congrArg List.length hinside.calls).trans h.calls
      have hpasses : t.session.passes = 1 := h.passes hr
      have hconclusion := h.conclusion
      cases hstep with
      | fired hw | took hw => simp [hw, Activity.isRunning] at hr
      | built ha | finished ha =>
          have houtside := h.outside
          simp [ha, Activity.holdsToken] at houtside
      | @began before snapshot rest ending ha =>
          have hbusy : t.session.guard ≠ .idle := by simp [h.guard]
          rw [beginPass_busy hbusy] at hmode hclosing hguard hcalls ⊢
          refine ⟨⟨hmode, hclosing, hguard, h.notifiers, rfl, fun _ => hpasses,
            h.delivered.same rfl rfl, hcalls, ?_⟩, rfl, rfl, rfl, rfl, rfl,
            [.superseded snapshot.version], events_emit _ _,
            by simp [BuildEvent.isLate]⟩
          rw [ha] at hconclusion
          have hnotable : (t.session.emit
              (.superseded snapshot.version)).notable =
              t.session.notable ++ [.superseded snapshot.version] :=
                notable_emit rfl
          change Conclusion created t.updates answer
            ((t.session.emit (.superseded snapshot.version)).notable ++
              aftermath (.updating before rest ending))
          rw [hnotable, List.append_assoc]
          exact hconclusion
      | @ended before ending ha =>
          rw [ha, aftermath, lateSnapshots, List.map_nil,
            List.nil_append] at hconclusion
          rcases finishUpdate_late h.mode h.guard h.notifiers
            h.delivered.completed hpasses before
            ending with ⟨hend, hnone⟩ | hend
          · have hevents : t.session.closeUnit.events = t.session.events :=
              events_closeUnit _
            have hnotable : t.session.closeUnit.notable = t.session.notable := by
              rw [notable, hevents, notable]
            rw [closeUnit_eq] at hend hnotable hevents
            rw [hend] at hmode hclosing hguard hcalls ⊢
            refine ⟨⟨hmode, hclosing, hguard, h.notifiers, rfl,
              by simp [Activity.isRunning],
              h.delivered.same rfl rfl, hcalls, ?_⟩,
              .silent rfl rfl rfl rfl rfl hevents⟩
            rw [hnone, ← hnotable] at hconclusion
            exact hconclusion
          · have hnotable : (t.session.emitAll (lateEnd ending)).notable =
                t.session.notable ++ lateEnd ending := by
              cases ending <;> simp [notable, events_emitAll, lateEnd,
                BuildEvent.isNotable]
            rw [hend] at hmode hclosing hguard hcalls ⊢
            refine ⟨⟨hmode, hclosing, hguard, h.notifiers, rfl,
              by simp [Activity.isRunning],
              h.delivered.same rfl rfl, hcalls, ?_⟩, rfl, rfl, rfl, rfl, rfl,
              lateEnd ending, events_emitAll _ _, ?_⟩
            · rw [← hnotable] at hconclusion
              change Conclusion created t.updates answer
                ((t.session.emitAll (lateEnd ending)).notable ++ [])
              rw [List.append_nil]
              exact hconclusion
            · cases ending <;> simp [lateEnd, BuildEvent.isLate]

/-! ## Every move -/

theorem Concluded.perform (h : Concluded created answer t)
    (frontend : Frontend υ (Workspace σ)) (move : Move) :
    Concluded created answer (t.perform frontend move) ∧
      Unaltered t.session (t.perform frontend move).session := by
  cases move with
  | work =>
      simp only [Trace.perform]
      split
      · exact ⟨h, .silent rfl rfl rfl rfl rfl rfl⟩
      · rename_i s hwork
        rw [nextUpdate?_terminal h.guard, Option.toList_none, List.append_nil]
        exact h.worked (worked_of_work hwork)
  | wait time =>
      exact ⟨⟨h.mode, h.closing, h.guard, h.notifiers, h.outside, h.passes,
        h.delivered.same rfl rfl, h.calls, h.conclusion⟩,
        .silent rfl rfl rfl rfl rfl rfl⟩
  | notice path =>
      refine ⟨⟨h.mode, h.closing, h.guard, h.notifiers, h.outside, h.passes,
        h.delivered.same rfl rfl, ?_, ?_⟩, rfl, rfl, rfl, rfl, rfl,
        [.fileChanged path.normalize],
        events_emit _ _, by simp [BuildEvent.isLate]⟩
      · exact (congrArg List.length (calls_notice t.session path)).trans h.calls
      · exact (notable_notice t.session path).symm ▸ h.conclusion
  | poll =>
      refine ⟨⟨h.mode, h.closing, h.guard, h.notifiers, h.outside,
        h.passes, ?_, h.calls, h.conclusion⟩, .silent rfl rfl rfl rfl rfl rfl⟩
      exact h.delivered.poll

theorem Concluded.run (h : Concluded created answer t)
    (frontend : Frontend υ (Workspace σ)) (moves : List Move) :
    Concluded created answer (t.run frontend moves) ∧
      Unaltered t.session (t.run frontend moves).session := by
  induction moves generalizing t with
  | nil => exact ⟨h, .silent rfl rfl rfl rfl rfl rfl⟩
  | cons move moves ih =>
      obtain ⟨hmove, hunaltered⟩ := h.perform frontend move
      obtain ⟨hrun, hmore⟩ := ih hmove
      exact ⟨hrun, hunaltered.trans hmore⟩

theorem perform_poll_fresh (h : t.session.result = {}) :
    t.perform frontend .poll = t := by
  have hpoll : t.session.pollResult = (none, t.session) := by
    obtain ⟨session, updates, received⟩ := t
    cases session
    simp_all [pollResult, OneShot.poll, OneShot.isClosed]
  simp [Trace.perform, hpoll]

theorem Stage.perform (h : Stage created armed t)
    (frontend : Frontend υ (Workspace σ)) (move : Move) :
    Stage created armed (t.perform frontend move) := by
  cases h with
  | concluded h => exact .concluded (h.perform frontend move).1
  | ready hc h =>
      subst hc
      cases move with
      | work =>
          simp only [Trace.perform]
          split
          · exact .ready rfl h
          · rename_i s hwork
            exact h.worked (worked_of_work hwork)
      | wait time =>
          exact .ready rfl ⟨h.mode, h.closing, h.activity, h.guard, h.unit,
            h.passes, h.result,
            h.running, h.queue, h.armed, h.calls, h.notable,
            h.updates, h.received⟩
      | notice path =>
          refine .ready rfl ⟨h.mode, h.closing, h.activity, h.guard, h.unit,
            h.passes, h.result,
            h.running, ?_, fun _ => .inr ⟨t.session.config.changeDelay, ?_⟩,
            (calls_notice t.session path).trans h.calls,
            (notable_notice t.session path).trans h.notable,
            h.updates, h.received⟩
          · intro c hc
            rcases List.mem_append.1 hc with hc | hc
            · exact h.queue c hc
            · have hnew :
                  c = .note path.normalize ∨
                  c = .arm t.session.config.changeDelay := by
                simpa using hc
              rcases hnew with rfl | rfl <;> rfl
          · exact List.mem_append.2 (.inr (by simp))
      | poll =>
          rw [perform_poll_fresh h.result]
          exact .ready rfl h
  | @working hc r h =>
      subst hc
      cases move with
      | work =>
          simp only [Trace.perform]
          split
          · exact .working rfl h
          · rename_i s hwork
            rw [nextUpdate?_running h.opening.running, Option.toList_none,
              List.append_nil]
            exact h.worked (worked_of_work hwork)
      | wait time =>
          exact .working rfl ⟨h.mode, h.closing, h.result,
            h.opening.same rfl rfl rfl rfl, h.calls, h.updates, h.received⟩
      | notice path =>
          exact .working rfl ⟨h.mode, h.closing, h.result,
            h.opening.same rfl rfl rfl (notable_notice t.session path),
            (congrArg List.length (calls_notice t.session path)).trans h.calls,
            h.updates, h.received⟩
      | poll =>
          rw [perform_poll_fresh h.result]
          exact .working rfl h

theorem Stage.run (h : Stage created armed t)
    (frontend : Frontend υ (Workspace σ)) (moves : List Move) :
    Stage created armed (t.run frontend moves) := by
  induction moves generalizing t with
  | nil => exact h
  | cons move moves ih => exact ih (h.perform frontend move)

/-! ## From the start to the result -/

theorem created_fullBuild (frontend : Frontend υ (Workspace σ))
    (refuse : Path → Option BuildError) (s : Session υ σ)
    (before after : List Move) :
    (fullBuildTrace frontend refuse s before after).1 =
      (frontend.create s.config.request s.workspace).1.map fun _ => () := by
  unfold fullBuildTrace createUnit
  rcases frontend.create s.config.request s.workspace with ⟨_ | _, _⟩ <;> rfl

theorem stage_fullBuild (frontend : Frontend υ (Workspace σ))
    (refuse : Path → Option BuildError)
    (config : Config) (storage : σ) (hub : NotifierHub)
      (before after : List Move) :
    Stage (fullBuildTrace frontend refuse (opened config storage hub)
      before after).1 true
      (fullBuildTrace frontend refuse (opened config storage hub) before
        after).2 := by
  unfold fullBuildTrace createUnit
  rcases frontend.create (opened config storage hub).config.request
    (opened config storage hub).workspace with ⟨e | unit, workspace⟩
  · exact Stage.run (.concluded
      (concluded_uncreated config storage hub workspace e)) frontend _
  · have hobserved :=
      (ready_created config storage hub workspace unit).observe refuse
      (Pass.sourceTypesPath config)
    exact Stage.run (Stage.run (.ready rfl hobserved) frontend
      before).arm frontend after

theorem stopsWithTimer_fullBuild (frontend : Frontend υ (Workspace σ))
    (refuse : Path → Option BuildError) (config : Config) (storage : σ)
    (hub : NotifierHub) (before after : List Move) :
    (fullBuildTrace frontend refuse (opened config storage hub) before
      after).2.session.StopsWithTimer := by
  have hstart {s : Session υ σ} (hstopped : s.timer.stopped = false)
      (ha : s.activity = .waiting) :
      s.StopsWithTimer := by
    simp [StopsWithTimer, hstopped, ha]
  unfold fullBuildTrace createUnit
  rcases frontend.create (opened config storage hub).config.request
    (opened config storage hub).workspace with ⟨e | unit, workspace⟩
  · exact Trace.stopsWithTimer_run (hstart rfl rfl) _
  · apply Trace.stopsWithTimer_run
    apply Trace.stopsWithTimer_run (t := ⟨_, [], []⟩)
    unfold Session.observe
    split <;> exact hstart rfl rfl

/-- An armed build that has come to rest has come to its result. -/
theorem Stage.concluded_at_rest {patience : Nat} (h : Stage created true t)
    (hwithin : t.session.DueWithin patience)
    (hrest : t.session.advance frontend patience = none) :
    ∃ answer, Concluded created answer t ∧
      t.session.activity.isRunning = false := by
  have hidle : t.session.activity.isRunning = false := by
    rcases hwithin.at_rest hrest with ha | ⟨ha, -⟩ <;> rw [ha] <;> rfl
  cases h with
  | ready hc h =>
      rcases hwithin.at_rest hrest with ha | ⟨-, -, hq, hdeadline⟩
      · simp [h.activity] at ha
      · rcases h.armed rfl with harmed | ⟨delay, hdelay⟩
        · simp [hdeadline] at harmed
        · simp [hq] at hdelay
  | working hc h =>
      rw [h.opening.running] at hidle
      cases hidle
  | @concluded answer h => exact ⟨answer, h, hidle⟩

/-- Left to the worker and the clock, an armed build comes to its result. -/
theorem Stage.concludes (h : Stage created true t)
    (hm : t.session.StopsWithTimer) (frontend : Frontend υ (Workspace σ)) :
    ∃ moves : List Move, (∀ move ∈ moves, move.isQuiet = true) ∧
      ∃ answer, (t.run frontend (moves ++ [.poll])).received = [answer] ∧
        (t.run frontend (moves ++ [.poll])).session.activity.isRunning =
          false := by
  obtain ⟨patience, hwithin⟩ := exists_dueWithin t.session
  obtain ⟨fuel, hrest⟩ := hm.comes_to_rest frontend patience
  have hsoon :=
    settle_induction frontend patience hwithin (fun hr ha => hr.advance ha) fuel
  obtain ⟨moves, hquiet, hmoves⟩ := exists_quiet_run frontend hm patience fuel
  rw [← hmoves] at hrest hsoon
  refine ⟨moves, hquiet, ?_⟩
  rw [run_append]
  obtain ⟨answer, hconcluded, hidle⟩ :=
    (h.run frontend moves).concluded_at_rest hsoon hrest
  have hpolled :
      Concluded created answer
        (Trace.run frontend (t.run frontend moves) [.poll]) :=
    (hconcluded.perform frontend .poll).1
  refine ⟨answer, ?_, hidle⟩
  apply hpolled.delivered.taken
  exact hconcluded.delivered.taken_poll

/-- A full build resolves exactly once, however its moves fall. -/
theorem full_build_resolves_once (frontend : Frontend υ (Workspace σ))
    (refuse : Path → Option BuildError) (config : Config) (storage : σ)
    (hub : NotifierHub) (before after : List Move) :
    let build :=
      fullBuildTrace frontend refuse (opened config storage hub) before after
    build.1 = (frontend.create config.request (.ofStorage storage)).1.map
      (fun _ => ()) ∧
      Resolution build.1 build.2 ∧
      (∃ moves : List Move, (∀ move ∈ moves, move.isQuiet = true) ∧
        ∃ answer, (build.2.run frontend (moves ++ [.poll])).received = [answer] ∧
          (build.2.run frontend (moves ++ [.poll])).session.activity.isRunning =
            false) ∧
      (build.2.session.result.completed = true → ∀ moves,
        Unaltered build.2.session (build.2.run frontend moves).session) := by
  intro build
  have hstage : Stage build.1 true build.2 :=
    stage_fullBuild frontend refuse config storage hub _ _
  refine ⟨created_fullBuild _ _ _ _ _, hstage.resolution, ?_,
    fun hdone moves => ?_⟩
  · exact hstage.concludes (stopsWithTimer_fullBuild _ _ _ _ _ _ _) frontend
  · cases hstage with
    | ready hc h => simp [h.result] at hdone
    | working hc h => simp [h.result] at hdone
    | concluded h => exact (h.run frontend moves).2

end

end Session

end ComponentBuild
