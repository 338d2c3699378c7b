import ComponentBuild.Proofs.Frontend.Preview
import ComponentBuild.Proofs.Pass.Artifacts
import ComponentBuild.Proofs.Session.Coalescing
import ComponentBuild.Proofs.Session.FullBuild
import ComponentBuild.Proofs.Session.Receipts

/-!
# A preview tells what a full build writes

The preview reads storage itself, and the build through its workspace.  Until
the one pass nothing has been written, so the first update of the build has the
components of the preview; the pass writes their declarations, and nothing that
comes later touches storage.
-/

namespace ComponentBuild

open ManifestUnit

variable {config : Config} {storage : MemoryStore}

/-! ## The preview -/

theorem previewFrom_eq (config : Config) (s : MemoryStore) :
    previewFrom frontend config s =
      (previewOf config (update { request := config.request } [] s).1, s) := by
  have hcheck := source_checkProject s config.projectPath
  have hupdate := source_update { request := config.request } [] s
  have hcreate : (frontend (τ := MemoryStore)).create config.request s =
      (((checkProject s config.projectPath).1.map fun _ =>
        { request := config.request }),
        (checkProject s config.projectPath).2) := rfl
  rw [previewFrom, Preview.run, hcreate]
  rcases hresult : checkProject s config.projectPath with ⟨e | _, s'⟩
  · rw [hresult] at hcheck
    obtain rfl : s' = s := hcheck
    have hproject :
        checkProject s' config.request.projectFile = (.error e, s') := hresult
    rw [update_new, hproject]
    rfl
  · rw [hresult] at hcheck
    obtain rfl : s' = s := hcheck
    exact Prod.ext rfl hupdate

namespace Session

/-- The preview tells the error of an update, or the declarations for its only
snapshot. -/
inductive Foretold (config : Config) (preview : Except BuildError String)
    (r : UpdateResult) : Prop
  | failed {e : BuildError} (hpreview : preview = .error e)
      (hr : r = { ending := .failed e })
  | rendered {snapshot : Snapshot}
      (hpreview : preview =
        .ok (Pass.renderTypes config snapshot.components config.sourceDir true))
      (hr : r = { snapshots := [snapshot] })

private theorem foretold_update (hs : storage.failing = ∅)
    {w : Workspace MemoryStore} (hw : w.Shows storage) (changed : List Path) :
    Foretold config (previewFrom frontend config storage).1
      (update { request := config.request } changed w).1 := by
  have hfile : config.request.projectFile.IsNormal := Path.isNormal_resolve _ _
  rw [previewFrom_eq]
  rcases update_shows hs hw hfile changed [] with ⟨e, hr, hpreview⟩ |
    ⟨a, b, hr, hpreview, hsame⟩
  · rw [hr, hpreview]
    exact .failed rfl rfl
  · rw [hr, hpreview]
    refine .rendered ?_ rfl
    rw [hsame]
    rfl

theorem Foretold.stored_build {preview : Except BuildError String}
    {r : UpdateResult} (h : Foretold config preview r) {first : Snapshot}
    {rest : List Snapshot} (hr : r.snapshots = first :: rest) {text : String}
    (htext : preview = .ok text)
    (hdest : config.sourceDir ∉ config.typeDestinations)
    {w : Workspace MemoryStore} (hfailing : w.storage.failing = ∅)
    (record : PassRecord) :
    (Pass.build config w record first).workspace.storage.get?
      (Pass.sourceTypesPath config) =
      some text := by
  cases h with
  | failed hfailed => simp [hfailed] at htext
  | rendered hrendered hone =>
      obtain ⟨rfl, -⟩ : first = _ ∧ rest = [] := by simpa [hone] using hr.symm
      obtain rfl := Except.ok.inj (htext.symm.trans hrendered)
      apply Pass.stored_build hfailing
      rw [← Pass.components_opened w record first]
      exact Pass.pending_of_source hdest _

/-! ## What storage holds -/

def pastCommit {υ σ : Type} (s : Session υ σ) : Bool :=
  match s.activity with
  | .begun .. => false
  | .committed .. => true
  | .waiting | .updating .. | .stopped => s.guard == .terminal

private theorem pastCommit_terminal {υ σ : Type} {s : Session υ σ}
    (hg : s.guard = .terminal) (ht : s.activity.holdsToken = false) :
    s.pastCommit = true := by
  cases ha : s.activity with
  | waiting | updating | stopped => simp [pastCommit, ha, hg]
  | begun | committed => simp [ha, Activity.holdsToken] at ht

private theorem pastCommit_idle {υ σ : Type} {s : Session υ σ}
    (hg : s.guard = .idle) (ht : s.activity.holdsToken = false) :
    s.pastCommit = false := by
  cases ha : s.activity with
  | waiting | updating | stopped => simp [pastCommit, ha, hg]
  | begun | committed => simp [ha, Activity.holdsToken] at ht

/-- Storage is as it was until the pass is committed; from then on it holds the
previewed text. -/
structure Foreseen (config : Config) (storage : MemoryStore)
    (preview : Except BuildError String) (t : Trace ManifestUnit MemoryStore) :
    Prop where
  settings : t.session.config = config
  unit : t.session.guard = .idle → t.updates = [] →
    t.session.unit = some { request := config.request }
  updates : ∀ r ∈ t.updates, Foretold config preview r
  before : t.session.pastCommit = false → t.session.workspace.Shows storage
  after : t.session.pastCommit = true → ∀ text, preview = .ok text →
    t.session.workspace.storage.get? (Pass.sourceTypesPath config) = some text

variable {preview : Except BuildError String} {t : Trace ManifestUnit MemoryStore}
  {s : Session ManifestUnit MemoryStore} {created : Except BuildError Unit}
    {armed : Bool}
  {answer : Except BuildError PassRecord}

private theorem config_worked {υ σ : Type} [Storage σ]
    {frontend : Frontend υ (Workspace σ)} {s t : Session υ σ}
    (h : Worked frontend s t) : t.config = s.config := by
  cases hr : s.activity.isRunning with
  | true => exact (h.inside hr).1.config
  | false =>
      obtain ⟨-, ⟨-, rfl⟩ | ⟨-, command, queue, -, rfl⟩⟩ := h.outside hr
      · unfold fire Debouncer.fire
        cases decide (s.guard = .idle) <;> cases s.unit <;> rfl
      · rfl

namespace Foreseen

theorem same {u : Trace ManifestUnit MemoryStore}
    (h : Foreseen config storage preview t)
    (hconfig : u.session.config = t.session.config)
    (hunit : u.session.unit = t.session.unit)
    (hguard : u.session.guard = t.session.guard)
    (hactivity : u.session.activity = t.session.activity)
    (hupdates : u.updates = t.updates)
    (hstorage : u.session.workspace.storage = t.session.workspace.storage)
    (hshows : t.session.workspace.Shows storage →
      u.session.workspace.Shows storage) :
    Foreseen config storage preview u := by
  have hpast : u.session.pastCommit = t.session.pastCommit := by
    rw [pastCommit, pastCommit, hactivity, hguard]
  refine ⟨hconfig.trans h.settings, ?_, ?_, ?_, ?_⟩
  · rw [hguard, hupdates, hunit]
    exact h.unit
  · rw [hupdates]
    exact h.updates
  · rw [hpast]
    exact fun hopen => hshows (h.before hopen)
  · rw [hpast, hstorage]
    exact h.after

private theorem past {u : Trace ManifestUnit MemoryStore}
    (hconfig : u.session.config = config) (hguard : u.session.guard = .terminal)
    (ht : u.session.activity.holdsToken = false)
    (hupdates : ∀ r ∈ u.updates, Foretold config preview r)
    (hstored : ∀ text, preview = .ok text →
      u.session.workspace.storage.get? (Pass.sourceTypesPath config) =
        some text) :
    Foreseen config storage preview u :=
  ⟨hconfig, fun hidle => by simp [hguard] at hidle, hupdates,
    fun hopen => by simp [pastCommit_terminal hguard ht] at hopen,
    fun _ => hstored⟩

/-! ## The worker's steps -/

private theorem ready (h : Foreseen config storage preview t)
    (hready : Ready armed t) (hs : storage.failing = ∅)
    (hpreview : preview = (previewFrom frontend config storage).1)
    (hstep : Worked frontend t.session s) :
    Foreseen config storage preview
      { t with session := s, updates := t.updates ++
        (t.session.nextUpdate? frontend).toList } := by
  have hr : t.session.activity.isRunning = false := by rw [hready.activity]; rfl
  have hshows : t.session.workspace.Shows storage :=
    h.before (pastCommit_idle hready.guard (by rw [hready.activity]; rfl))
  obtain ⟨hw, ⟨hd, rfl⟩ | ⟨hd, command, queue, -, rfl⟩⟩ := hstep.outside hr
  · have hu := h.unit hready.guard hready.updates
    have hnext :
        t.session.nextUpdate? frontend =
          some (update { request := config.request }
        t.session.timer.changed.toList t.session.workspace).1 := by
      simp [nextUpdate?, hw, hd, hready.guard, hu, frontend]
    rw [hnext, hready.updates, fire_idle frontend hready.guard hu]
    refine ⟨h.settings, fun _ hnone => by simp at hnone, ?_, fun _ => ?_, ?_⟩
    · intro r hr
      obtain rfl := List.mem_singleton.1 hr
      rw [hpreview]
      exact foretold_update hs hshows _
    · exact (readFrom_update _ _ _).shows hshows
    · intro hpast
      exact absurd hpast (Bool.eq_false_iff.1 (pastCommit_idle hready.guard rfl))
  · have hnext : t.session.nextUpdate? frontend = none := by
      simp [nextUpdate?, hd]
    have hidle : Activity.holdsToken
        (if (t.session.timer.take t.session.clock command).stopped then .stopped
          else .waiting) =
          false := by
      split <;> rfl
    rw [hnext, Option.toList_none, List.append_nil]
    refine ⟨h.settings, h.unit, h.updates, fun _ => hshows, fun hpast => ?_⟩
    exact absurd hpast (Bool.eq_false_iff.1 (pastCommit_idle hready.guard hidle))

private theorem working {r : UpdateResult}
    (h : Foreseen config storage preview t) (hworking : Working r t)
    (hs : storage.failing = ∅)
    (hdest : config.sourceDir ∉ config.typeDestinations)
    (hstep : Worked frontend t.session s) :
    Foreseen config storage preview { t with session := s } := by
  obtain ⟨hinside, -⟩ := hstep.inside hworking.opening.running
  have hconfig : s.config = config := hinside.config.trans h.settings
  have hforetold : Foretold config preview r :=
    h.updates r (by simp [hworking.updates])
  have hunit : s.guard = .idle → t.updates = [] →
      s.unit = some { request := config.request } :=
    fun _ hnone => by simp [hworking.updates] at hnone
  cases hworking.opening with
  | updating ha hg hp =>
      have hshows : t.session.workspace.Shows storage :=
        h.before (pastCommit_idle hg (by rw [ha]; rfl))
      cases hstep with
      | fired hw | took hw => simp [hw] at ha
      | began =>
          refine ⟨hconfig, hunit, h.updates, fun _ => ?_, fun hpast => ?_⟩
          · exact (SameWorkspace.beginPass t.session _ _ _ _).workspace ▸ hshows
          · rw [beginPass_idle hg] at hpast
            cases hpast
      | ended ha' =>
          have hsame := ha.symm.trans ha'
          rw [Activity.updating.injEq] at hsame
          obtain ⟨rfl, hsnapshots, rfl⟩ := hsame
          refine past hconfig (guard_finishUpdate_full hworking.mode hp _)
            rfl h.updates ?_
          intro text htext
          cases hforetold with
          | failed hfailed => simp [hfailed] at htext
          | rendered _ hr => simp [hr] at hsnapshots
      | built ha' | finished ha' => simp [ha'] at ha
  | @begun record first rest ha hr hrecord hp hn =>
      have hshows : t.session.workspace.Shows storage :=
        h.before (by rw [pastCommit, ha])
      cases hstep with
      | fired hw | took hw => simp [hw] at ha
      | began ha' | ended ha' | finished ha' => simp [ha'] at ha
      | built ha' =>
          cases ha.symm.trans ha'
          refine ⟨hconfig, hunit, h.updates, nofun, fun _ text htext => ?_⟩
          have hfailing : t.session.workspace.storage.failing = ∅ := by
            rw [hshows.storage, hs]
          change (Pass.build t.session.config t.session.workspace record
            first).workspace.storage.get?
            (Pass.sourceTypesPath config) = some text
          rw [h.settings]
          exact hforetold.stored_build hr htext hdest hfailing record
  | @committed record first rest ha hr hrecord hp hn =>
      cases hstep with
      | fired hw | took hw => simp [hw] at ha
      | began ha' | ended ha' | built ha' => simp [ha'] at ha
      | finished ha' =>
          have hstored := h.after (by rw [pastCommit, ha])
          refine past hconfig (guard_finishPass_full hworking.mode
            hworking.closing _ _) rfl
            h.updates ?_
          exact (SameWorkspace.frame.finishPass t.session _ _).workspace ▸ hstored

/-! ## Every move -/

private theorem perform (h : Foreseen config storage preview t)
    (hstage : Stage created armed t) (hs : storage.failing = ∅)
    (hdest : config.sourceDir ∉ config.typeDestinations)
    (hpreview : preview = (previewFrom frontend config storage).1) (move : Move) :
    Foreseen config storage preview (t.perform frontend move) := by
  cases move with
  | wait time => exact h.same rfl rfl rfl rfl rfl rfl id
  | notice path => exact h.same rfl rfl rfl rfl rfl rfl fun hshows =>
      hshows.clearFileCache _
  | poll => exact h.same rfl rfl rfl rfl rfl rfl id
  | work =>
      simp only [Trace.perform]
      split
      · exact h
      · rename_i s hwork
        have hstep : Worked frontend t.session s := worked_of_work hwork
        cases hstage with
        | ready hc hready => exact h.ready hready hs hpreview hstep
        | working hc hworking =>
            rw [nextUpdate?_running hworking.opening.running,
              Option.toList_none, List.append_nil]
            exact h.working hworking hs hdest hstep
        | concluded hconcluded =>
            obtain ⟨hafter, hunaltered⟩ := hconcluded.worked hstep
            have hstored :=
              h.after (pastCommit_terminal hconcluded.guard hconcluded.outside)
            rw [← hunaltered.storage] at hstored
            rw [nextUpdate?_terminal hconcluded.guard, Option.toList_none,
              List.append_nil]
            refine past ?_ hafter.guard hafter.outside h.updates hstored
            exact (config_worked hstep).trans h.settings

private theorem run (h : Foreseen config storage preview t)
    (hstage : Stage created armed t) (hs : storage.failing = ∅)
    (hdest : config.sourceDir ∉ config.typeDestinations)
    (hpreview : preview = (previewFrom frontend config storage).1)
    (moves : List Move) :
    Foreseen config storage preview (t.run frontend moves) := by
  induction moves generalizing t with
  | nil => exact h
  | cons move moves ih =>
      exact ih (h.perform hstage hs hdest hpreview move)
        (hstage.perform frontend move)

private theorem observe (h : Foreseen config storage preview t)
    (refuse : Path → Option BuildError) (path : Path) :
    Foreseen config storage preview
      { t with session := (t.session.observe refuse path).2 } := by
  unfold Session.observe
  split <;> exact h.same rfl rfl rfl rfl rfl rfl id

private theorem arm (h : Foreseen config storage preview t) :
    Foreseen config storage preview { t with session := t.session.armFirst } :=
  h.same rfl rfl rfl rfl rfl rfl id

end Foreseen

/-! ## The start -/

theorem foretold_create (hs : storage.failing = ∅) {w : Workspace MemoryStore}
    (hw : w.Shows storage) {e : BuildError}
    (h : ((frontend.create config.request w).1.map fun _ => ()) = .error e) :
    (previewFrom frontend config storage).1 = .error e := by
  have hfile : config.request.projectFile.IsNormal := Path.isNormal_resolve _ _
  have hcheck := checkProject_shows hs hw hfile
  have hcreate : (frontend.create config.request w).1 =
      (checkProject w config.request.projectFile).1.map fun _ =>
      { request := config.request } := rfl
  rw [hcreate, hcheck] at h
  rw [previewFrom_eq, update_new]
  rcases hresult :
    checkProject storage config.request.projectFile with ⟨e' | _, source⟩
  · rw [hresult] at h
    cases h
    rfl
  · rw [hresult] at h
    cases h

private theorem foreseen_fullBuild (hs : storage.failing = ∅)
    (hdest : config.sourceDir ∉ config.typeDestinations)
    (refuse : Path → Option BuildError) (hub : NotifierHub)
    (before after : List Move) :
    Foreseen config storage (previewFrom frontend config storage).1
      (fullBuildTrace frontend refuse (opened config storage hub) before
        after).2 := by
  have hshows := Workspace.shows_ofStorage storage
  have hcreates :
      frontend.create (opened (υ := ManifestUnit) config storage
        hub).config.request
      (opened (υ := ManifestUnit) config storage hub).workspace =
        create config.request (.ofStorage storage) := rfl
  unfold fullBuildTrace createUnit
  rw [hcreates]
  rcases hcreate :
    create config.request (Workspace.ofStorage storage) with ⟨e | unit, workspace⟩
  · have hfailed : (previewFrom frontend config storage).1 = .error e :=
      foretold_create hs hshows
        (congrArg (fun created => created.1.map fun _ => ()) hcreate)
    have hconcluded :=
      concluded_uncreated (υ := ManifestUnit) config storage hub workspace e
    refine Foreseen.run (.past ?_ hconcluded.guard hconcluded.outside (by simp)
      fun text htext => ?_)
      (.concluded hconcluded : Stage _ true _) hs hdest rfl _
    · exact (Inside.frame.fault { opened (υ := ManifestUnit) config storage hub
        with workspace } e).config
    · simp [hfailed] at htext
  · obtain ⟨rfl, hread⟩ := readFrom_create hcreate
    let s : Session ManifestUnit MemoryStore :=
      { opened (υ := ManifestUnit) config storage hub with
        workspace, unit := some { request := config.request } }
    have hready : Ready false { session := s } :=
      ready_created config storage hub workspace _
    have hstart :
        Foreseen config storage (previewFrom frontend config storage).1
          { session := s } :=
      ⟨rfl, fun _ _ => rfl, by simp, fun _ => hread.shows hshows, nofun⟩
    have hobserved := hready.observe refuse (Pass.sourceTypesPath config)
    have hbefore :=
      (hstart.observe refuse (Pass.sourceTypesPath config)).run
        (.ready rfl hobserved)
      hs hdest rfl before
    exact hbefore.arm.run (Stage.run (.ready rfl hobserved) frontend before).arm
      hs hdest rfl after

/-! ## The result and the end -/

/-- A session whose guard is terminated and that is in no pass leaves storage
alone. -/
structure OutOfPasses (stored : MemoryStore)
    (s : Session ManifestUnit MemoryStore) : Prop where
  guard : s.guard = .terminal
  outside : s.activity.holdsToken = false
  storage : s.workspace.storage = stored

theorem OutOfPasses.advance {stored : MemoryStore} {patience : Nat}
    {u : Session ManifestUnit MemoryStore} (h : OutOfPasses stored s)
    (hadvance : s.advance frontend patience = some u) :
    OutOfPasses stored u := by
  rcases advance_cases hadvance with hstep | ⟨deadline, -, -, -, -, rfl⟩
  · have houtside := h.outside
    cases hstep with
    | fired hw =>
        rw [fire_busy frontend (by simp [h.guard])]
        exact ⟨h.guard, h.outside, h.storage⟩
    | took hw =>
        refine ⟨h.guard, ?_, h.storage⟩
        dsimp only
        split <;> rfl
    | began =>
        rw [beginPass_busy (by simp [h.guard])]
        exact ⟨h.guard, rfl, h.storage⟩
    | ended =>
        refine ⟨(Inside.frame.finishUpdate s _ _).terminal h.guard, rfl, ?_⟩
        exact (congrArg Workspace.storage
          (SameWorkspace.frame.finishUpdate s _ _).workspace).trans h.storage
    | built ha | finished ha => simp [ha, Activity.holdsToken] at houtside
  · exact ⟨h.guard, h.outside, h.storage⟩

theorem OutOfPasses.close {stored : MemoryStore} (h : OutOfPasses stored s)
    (fuel : Nat) :
    (s.close frontend fuel).workspace.storage = stored := by
  have hbegun : OutOfPasses stored s.beginClose := ⟨h.guard, h.outside, h.storage⟩
  have hsettled : OutOfPasses stored (s.beginClose.settle frontend 0 fuel) :=
    settle_induction frontend 0 hbegun
      (fun hout hadvance => hout.advance hadvance) fuel
  rw [Session.close, finishClose, closeUnit_eq]
  exact hsettled.storage

structure Tells (config : Config) (preview : Except BuildError String)
    (answer : Except BuildError PassRecord) (stored : MemoryStore) : Prop where
  error : ∀ e, preview = .error e ↔ answer = .error e
  text :
    ∀ text, preview = .ok text →
    stored.get? (Pass.sourceTypesPath config) = some text

theorem Foreseen.tells (h : Foreseen config storage preview t)
    (hcreated : ∀ e, created = .error e → preview = .error e)
    (hstage : Stage created armed t) (hanswer : answer ∈ t.received)
    (fuel : Nat) :
    Tells config preview answer
      (t.session.close frontend fuel).workspace.storage := by
  cases hstage with
  | ready hc hready => simp [hready.received] at hanswer
  | working hc hworking => simp [hworking.received] at hanswer
  | @concluded answer' hconcluded =>
      obtain rfl : answer = answer' := by
        cases htaken : t.session.result.taken with
        | false => simp [(hconcluded.delivered.waiting htaken).2] at hanswer
        | true => simpa [hconcluded.delivered.taken htaken] using hanswer
      refine ⟨fun e => ?_, ?_⟩
      · have hconclusion := hconcluded.conclusion
        have hforetold := h.updates
        generalize t.updates = updates,
          t.session.notable ++ aftermath t.session.activity = events
          at hconclusion hforetold
        cases hconclusion with
        | uncreated e' => simp [hcreated e' rfl]
        | @unresolved r hr =>
            cases hforetold r (by simp) with
            | failed hpreview hfailed => simp [hpreview, hfailed, UpdateEnd.cause]
            | rendered _ hrendered => simp [hrendered] at hr
        | @resolved r _ _ _ hr =>
            cases hforetold r (by simp) with
            | failed _ hfailed => simp [hfailed] at hr
            | rendered hpreview => simp [hpreview]
      · rw [OutOfPasses.close ⟨hconcluded.guard, hconcluded.outside, rfl⟩]
        exact h.after (pastCommit_terminal hconcluded.guard hconcluded.outside)

/-! ## The build that is run -/

section

variable {υ σ : Type}

variable (frontend : Frontend υ (Workspace σ)) (refuse : Path →
    Option BuildError) (config : Config)
  (storage : σ) (hub : NotifierHub)

def fullStart : Session υ σ :=
  ((opened config storage hub).start frontend refuse).2

theorem dueWithin_fullStart :
    ((opened config storage hub).start frontend refuse).1 = .ok () ∧
      (fullStart frontend refuse config storage hub).config = config ∧
      (fullStart frontend refuse config storage hub).DueWithin
        config.initialDelay := by
  rcases createUnit_cases frontend (opened config storage hub) with
    ⟨e, workspace, hcreate⟩ | ⟨unit, workspace, hcreate⟩
  · have hinside :=
      Inside.frame.fault { opened (υ := υ) config storage hub with workspace } e
    obtain ⟨cancels, hqueue, hcancel, -⟩ := hinside.queue
    simp only [fullStart, start, hcreate, true_and]
    refine ⟨hinside.config, fun deadline hdeadline => ?_, fun delay hdelay => ?_⟩
    · rw [hinside.timer] at hdeadline
      cases hdeadline
    · rw [hqueue] at hdelay
      cases hcancel _ hdelay
  · let s : Session υ σ :=
      { opened (υ := υ) config storage hub with workspace, unit := some unit }
    have harmed (hub : NotifierHub) (notifiers : List NotifierId) :
        DueWithin config.initialDelay (armFirst { s with hub, notifiers }) := by
      refine ⟨fun deadline hdeadline => ?_, fun delay hdelay => ?_⟩
      · cases hdeadline
      · obtain rfl : delay = config.initialDelay := by
          simpa [armFirst, send, s, opened, initial, emit] using hdelay
        exact Nat.le_refl _
    simp only [fullStart, start, hcreate, observe]
    cases refuse (Pass.sourceTypesPath
      (opened (υ := υ) config storage hub).config) with
    | some e => exact ⟨rfl, rfl, harmed _ _⟩
    | none => exact ⟨rfl, rfl, harmed _ _⟩

variable [Storage σ]

private theorem received_run_quiet (t : Trace υ σ) {moves : List Move}
    (h : ∀ move ∈ moves, move.isQuiet = true) :
    (t.run frontend moves).received = t.received := by
  induction moves generalizing t with
  | nil => rfl
  | cons move moves ih =>
      obtain ⟨hmove, hmoves⟩ := List.forall_mem_cons.1 h
      have hstep : (t.perform frontend move).received = t.received := by
        cases move with
        | work =>
            simp only [Trace.perform]
            split <;> rfl
        | wait time => rfl
        | notice path | poll => cases hmove
      exact (ih _ hmoves).trans hstep

private theorem stopsWithTimer_fullStart :
    (fullStart frontend refuse config storage hub).StopsWithTimer := by
  have hstopping :=
    stopsWithTimer_fullBuild frontend refuse config storage hub [] []
  rwa [fullBuildTrace_start frontend refuse rfl] at hstopping

private theorem fullBuild_eq (fuel : Nat) :
    let s :=
      (fullStart frontend refuse config storage hub).settle frontend
        config.initialDelay fuel
    fullBuild frontend refuse fuel (initial config .full storage hub) =
      (s.pollResult.1, s.pollResult.2.close frontend fuel) := by
  obtain ⟨hok, hconfig, -⟩ := dueWithin_fullStart frontend refuse config storage hub
  have hstart :
      (((initial config .full storage hub).emit
        (.started config.rootDir false)).start
      frontend refuse) = (.ok (),
      fullStart frontend refuse config storage hub) := Prod.ext hok rfl
  have hroot :
      (initial (υ := υ) config .full storage hub).config.rootDir =
        config.rootDir := rfl
  simp only [fullBuild, hroot, hstart, hconfig]

/-- What the build returns is what its owner receives in a run of moves, after
which it is closed. -/
theorem exists_run_of_fullBuild (fuel : Nat) :
    let done := fullBuild frontend refuse fuel (initial config .full storage hub)
    ∃ moves : List Move,
      let build :=
        (fullBuildTrace frontend refuse (opened config storage hub) [] moves).2
      done.1.toList = build.received ∧
      done.2 = build.session.close frontend fuel := by
  intro done
  let start : Trace υ σ :=
    { session := fullStart frontend refuse config storage hub }
  have hstopping : start.session.StopsWithTimer :=
    stopsWithTimer_fullStart frontend refuse config storage hub
  obtain ⟨moves, hquiet, hmoves⟩ :=
    exists_quiet_run frontend hstopping config.initialDelay fuel
  refine ⟨moves ++ [.poll], ?_⟩
  have hreceived := received_run_quiet frontend start hquiet
  have hdone : done = _ := fullBuild_eq frontend refuse config storage hub fuel
  rw [fullBuildTrace_start frontend refuse rfl]
  change _ = (Trace.run frontend start (moves ++ [.poll])).received ∧
    _ = (Trace.run frontend start (moves ++ [.poll])).session.close frontend fuel
  rw [run_append, hdone, ← hmoves]
  refine ⟨?_, rfl⟩
  change _ = (start.run frontend moves).received ++ _
  rw [hreceived]
  rfl

theorem exists_answer_fullBuild :
    ∃ fuel, (fullBuild frontend refuse fuel
      (initial config .full storage hub)).1.isSome = true := by
  let start : Trace υ σ :=
    { session := fullStart frontend refuse config storage hub }
  obtain ⟨-, -, hwithin⟩ := dueWithin_fullStart frontend refuse config storage hub
  have hstopping : start.session.StopsWithTimer :=
    stopsWithTimer_fullStart frontend refuse config storage hub
  obtain ⟨fuel, hrest⟩ := hstopping.comes_to_rest frontend config.initialDelay
  have hsoon :=
    settle_induction frontend config.initialDelay hwithin
      (fun h ha => h.advance ha) fuel
  obtain ⟨moves, hquiet, hmoves⟩ :=
    exists_quiet_run frontend hstopping config.initialDelay fuel
  have hreceived := received_run_quiet frontend start hquiet
  have hstage := stage_fullBuild frontend refuse config storage hub [] moves
  rw [fullBuildTrace_start frontend refuse rfl] at hstage
  obtain ⟨answer, hconcluded, -⟩ :
      ∃ answer, Concluded _ answer (start.run frontend moves) ∧ _ :=
    hstage.concluded_at_rest (hmoves ▸ hsoon) (hmoves ▸ hrest)
  refine ⟨fuel, ?_⟩
  rw [fullBuild_eq, ← hmoves]
  cases htaken : (start.run frontend moves).session.result.taken with
  | true =>
      have hanswer := hconcluded.delivered.taken htaken
      simp [hreceived, start] at hanswer
  | false =>
      have hwaiting := (hconcluded.delivered.waiting htaken).1
      simp [pollResult, OneShot.poll, htaken, hwaiting]

end

private theorem tells_fullBuild (hs : storage.failing = ∅)
    (hdest : config.sourceDir ∉ config.typeDestinations)
    (refuse : Path → Option BuildError) (hub : NotifierHub)
    (before after : List Move) {answer : Except BuildError PassRecord}
    (h : answer ∈ (fullBuildTrace frontend refuse (opened config storage hub)
      before after).2.received)
    (fuel : Nat) :
    Tells config (previewFrom frontend config storage).1 answer
      ((fullBuildTrace frontend refuse (opened config storage hub) before
        after).2.session.close
        frontend fuel).workspace.storage := by
  have hforeseen := foreseen_fullBuild hs hdest refuse hub before after
  have hstage := stage_fullBuild frontend refuse config storage hub before after
  refine hforeseen.tells (fun e he => ?_) hstage h fuel
  rw [created_fullBuild] at he
  exact foretold_create hs (Workspace.shows_ofStorage storage) he

/-- On a storage without failing paths a preview changes nothing, and it tells
the outcome of a full build if no destination is the source directory: it fails
exactly if the build does, with the same error, and otherwise its text is what
the source directory holds when the build is over.  The build may be closed
late, and have waited and heard of changes before. -/
theorem preview_tells_full_build (hs : storage.failing = ∅)
    (hdest : config.sourceDir ∉ config.typeDestinations)
    (refuse : Path → Option BuildError) (hub : NotifierHub) :
    let preview := previewFrom frontend config storage
    let run (fuel : Nat) :=
      fullBuild frontend refuse fuel (initial config .full storage hub)
    let trace (before after : List Move) :=
      (fullBuildTrace frontend refuse (opened config storage hub) before after).2
    preview.2 = storage ∧
      (∃ fuel, (run fuel).1.isSome = true) ∧
      (∀ fuel answer, (run fuel).1 = some answer →
        Tells config preview.1 answer (run fuel).2.workspace.storage) ∧
      ∀ before after,
        (∃ moves : List Move, (∀ move ∈ moves, move.isQuiet = true) ∧
          ∃ answer, ((trace before after).run frontend
            (moves ++ [.poll])).received = [answer]) ∧
        ∀ answer ∈ (trace before after).received, ∀ fuel,
          Tells config preview.1 answer
            ((trace before after).session.close frontend
              fuel).workspace.storage := by
  intro preview run trace
  refine ⟨congrArg Prod.snd (previewFrom_eq config storage),
    exists_answer_fullBuild frontend refuse config storage hub, ?_, ?_⟩
  · intro fuel answer hanswer
    obtain ⟨moves, hreceived, hclosed⟩ :=
      exists_run_of_fullBuild frontend refuse config storage hub fuel
    have hmem : answer ∈ (trace [] moves).received := by
      rw [← hreceived, hanswer]
      simp
    rw [hclosed]
    exact tells_fullBuild hs hdest refuse hub [] moves hmem fuel
  · intro before after
    have hstage := stage_fullBuild frontend refuse config storage hub before after
    have hstopping :=
      stopsWithTimer_fullBuild frontend refuse config storage hub before after
    obtain ⟨moves, hquiet, answer, hanswer, -⟩ :=
      hstage.concludes hstopping frontend
    exact ⟨⟨moves, hquiet, answer, hanswer⟩,
      fun answer => tells_fullBuild hs hdest refuse hub before after⟩

/-! ## One project -/

def previewConfig : Config where
  rootDir := ⟨"/"⟩
  srcDir := ⟨"s"⟩
  projectFile := ⟨"p"⟩
  destinations := [⟨"types"⟩]

def previewStorage : MemoryStore :=
  MemoryStore.empty.editAll
    [.insert ⟨"/p"⟩ "[]", .insert ⟨"/s/a.component.json"⟩ "[\"a-a\", \"a\"]",
      .insert ⟨"/s/b.component.json"⟩ "broken"]

theorem preview_tells_full_build_broken_manifest :
    previewStorage.failing = ∅ ∧
      previewConfig.sourceDir ∉ previewConfig.typeDestinations ∧
      ∃ text record, (previewFrom frontend previewConfig previewStorage).1 =
        .ok text ∧
        (fullBuild frontend (fun _ => none) 12
          (initial previewConfig .full previewStorage {})).1 =
          some (.ok record) ∧
        (fullBuild frontend (fun _ => none) 12
            (initial previewConfig .full previewStorage
              {})).2.workspace.storage.get?
          ⟨"/s/components.d.ts"⟩ = some text := by
  have hfailing : previewStorage.failing = ∅ := by decide +kernel
  have hdest : previewConfig.sourceDir ∉ previewConfig.typeDestinations := by
    decide +kernel
  have hpath : Pass.sourceTypesPath previewConfig = ⟨"/s/components.d.ts"⟩ := by
    decide +kernel
  have hpreview :
      (previewFrom frontend previewConfig previewStorage).1.toOption.isSome =
        true := by
    decide +kernel
  have hrun : (fullBuild frontend (fun _ => none) 12
      (initial previewConfig .full previewStorage {})).1.isSome = true := by
    decide +kernel
  obtain ⟨-, -, htells, -⟩ :=
    preview_tells_full_build hfailing hdest (fun _ => none) {}
  obtain ⟨answer, hanswer⟩ := Option.isSome_iff_exists.1 hrun
  obtain ⟨herror, hstored⟩ := htells 12 answer hanswer
  refine ⟨hfailing, hdest, ?_⟩
  cases htext : (previewFrom frontend previewConfig previewStorage).1 with
  | error e => simp [htext, Except.toOption] at hpreview
  | ok text =>
      cases answer with
      | error e => simp [htext] at herror
      | ok record =>
          exact ⟨text, record, rfl, hanswer, hpath ▸ hstored text htext⟩

end Session

end ComponentBuild
