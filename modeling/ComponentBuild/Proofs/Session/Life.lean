import ComponentBuild.Proofs.Session.Trace

/-!
# The life of a session

Between two steps of `Session.work` anything may happen, but the end of a pass
and the end of an update are one step each.  Here the worker reads what it has
to go by and then carries these steps out task by task.  The owner starts the
session up and tears it down one call after another, so that a notifier is
registered before it is recorded.  The hub gathers whom a change concerns first
and notifies them later. Where nothing comes between, the tasks and the calls
come to the steps of the session.
-/

namespace ComponentBuild

/-! ## Tasks -/

namespace Session

variable {υ σ : Type} {frontend : Frontend υ (Workspace σ)} {s : Session υ σ}

/-- The tasks of the next step of the worker; `none` if that step is one by
itself. -/
def nextTasks? (s : Session υ σ) : Option (List WorkerTask) :=
  match s.activity with
  | .committed record version before rest ending =>
      some (s.passTasks record version ++ [.goOn (.updating before rest ending)])
  | .updating before [] ending =>
      some (s.updateTasks before ending ++ [.goOn .waiting])
  | _ => none

/-- Carried out together, the tasks are the step of the worker. -/
theorem work_of_nextTasks [Storage σ] {tasks : List WorkerTask}
    (h : s.nextTasks? = some tasks) :
    s.work frontend = some (s.carryOutAll tasks) := by
  unfold nextTasks? at h
  split at h
  · rename_i ha
    cases h
    rw [carryOutAll_append, carryOutAll_passTasks, work, ha]
    rfl
  · rename_i ha
    cases h
    rw [carryOutAll_append, carryOutAll_updateTasks, work, ha]
    rfl
  · cases h

end Session

/-! ## The two parties -/

inductive Target where
  /-- The declarations of the source tree. -/
  | declarations
  | sourceDir
  deriving DecidableEq

def Target.path (config : Config) : Target → Path
  | declarations => Pass.sourceTypesPath config
  | sourceDir => config.sourceDir

inductive Stage where
  | register (target : Target)
  | record (target : Target) (id : NotifierId)
  | arm
  /-- The session has been started; next it is given up. -/
  | giveUp
  | closeNotifiers
  | cancel
  | shutDown
  | join
  | closeUnit
  | rest
  deriving DecidableEq

namespace Stage

def afterTarget (mode : Mode) : Target → Stage
  | .declarations => if mode = .full then arm else register .sourceDir
  | .sourceDir => arm

def afterRefusal (mode : Mode) : Target → Stage
  | .declarations => afterTarget mode .declarations
  | .sourceDir => giveUp

def isStart : Stage → Bool
  | register _ | record .. | arm => true
  | _ => false

end Stage

structure Life (υ σ : Type) where
  session : Session υ σ
  stage : Stage
  /-- What is left of the step that the worker is in. -/
  todo : List WorkerTask := []
  /-- The changes that the hub is about to notify the session of. -/
  gathered : List Path := []
  /-- The notifiers that the session has registered. -/
  own : List NotifierId := []
  /-- The last snapshot was reported when the session was closing already. -/
  late : Bool := false
  /-- The worker has closed the recorded notifiers. -/
  unwatched : Bool := false
  /-- A notifier was recorded after the worker had closed the recorded ones, and
  none was closed since. -/
  stray : Bool := false

namespace Life

open Session

variable {υ σ : Type} {frontend : Frontend υ (Workspace σ)} {l : Life υ σ}

def announced (config : Config) (mode : Mode) (storage : σ) (hub : NotifierHub) :
    Session υ σ :=
  (initial config mode storage hub).emit (.started config.rootDir (mode = .watch))

/-- A session whose unit is made has its notifiers to register.  One whose unit
cannot be made has nothing to record any more. -/
def born (frontend : Frontend υ (Workspace σ)) (s : Session υ σ) : Life υ σ :=
  match s.createUnit frontend with
  | (.error e, s) => { session := s.fault e, stage := .giveUp, unwatched := true }
  | (.ok (), s) => { session := s, stage := .register .declarations }

def carryOut (l : Life υ σ) (task : WorkerTask) (todo : List WorkerTask) :
    Life υ σ :=
  match task with
  | .closeNotifiers =>
      { l with
        session := l.session.closeNotifiers
        todo
        unwatched := true
        stray := false }
  | task => { l with session := l.session.carryOut task, todo }

/-- Whether the snapshot that is in work after the next step was reported too
late. -/
def nextLate (l : Life υ σ) : Bool :=
  match l.session.activity with
  | .updating .. => l.session.closing
  | .begun .. => l.late
  | _ => false

def work [Storage σ] (frontend : Frontend υ (Workspace σ)) (l : Life υ σ) :
    Life υ σ :=
  match l.todo with
  | task :: todo => l.carryOut task todo
  | [] =>
      match l.session.nextTasks? with
      | some todo => { l with todo }
      | none =>
          match l.session.work frontend with
          | some session => { l with session, late := l.nextLate }
          | none => l

def call (refuse : Path → Option BuildError) (l : Life υ σ) : Life υ σ :=
  match l.stage with
  | .register target =>
      match refuse (target.path l.session.config) with
      | some _ =>
          { l with
            session := { l.session with hub := l.session.hub.newNotifier.2 }
            stage := .afterRefusal l.session.mode target }
      | none =>
          let (id, session) := l.session.register (target.path l.session.config)
          { l with session, stage := .record target id, own := l.own ++ [id] }
  | .record target id =>
      { l with
        session := l.session.hold id
        stage := .afterTarget l.session.mode target
        stray := l.stray || l.unwatched }
  | .arm => { l with session := l.session.armFirst, stage := .giveUp }
  | .giveUp =>
      { l with
        session := { l.session with closing := true }
        stage := .closeNotifiers }
  | .closeNotifiers =>
      { l with
        session := l.session.closeNotifiers
        stage := .cancel
        stray := false }
  | .cancel => { l with session := l.session.send [.cancel], stage := .shutDown }
  | .shutDown => { l with session := l.session.send [.shutdown], stage := .join }
  | .join =>
      if l.session.activity = .stopped ∧ l.todo.isEmpty = true then
        { l with
          session := { l.session with guard := l.session.guard.terminate }
          stage := .closeUnit }
      else l
  | .closeUnit => { l with session := l.session.closeUnit, stage := .rest }
  | .rest => l

inductive Move where
  | work
  | call
  | wait (time : Nat)
  | change (path : Path)
  /-- The session is notified of one of the changes that are gathered. -/
  | notice (n : Nat)

def perform [Storage σ] (frontend : Frontend υ (Workspace σ))
    (refuse : Path → Option BuildError) (l : Life υ σ) : Move → Life υ σ
  | .work => l.work frontend
  | .call => l.call refuse
  | .wait time => { l with session.clock := l.session.clock + time }
  | .change path =>
      { l with
        gathered := l.gathered ++
          ((l.session.hub.listeners path).filter (· ∈ l.own)).map fun _ => path }
  | .notice n =>
      match l.gathered[n]? with
      | some path =>
          { l with
            session := l.session.notice path
            gathered := l.gathered.eraseIdx n }
      | none => l

def run [Storage σ] (frontend : Frontend υ (Workspace σ))
    (refuse : Path → Option BuildError) (l : Life υ σ) (moves : List Move) :
    Life υ σ :=
  moves.foldl (perform frontend refuse) l

/-! ## Without other moves between -/

def settled (l : Life υ σ) : Session υ σ :=
  l.session.carryOutAll l.todo

theorem settled_of_empty (h : l.todo = []) : l.settled = l.session := by
  simp [settled, h, carryOutAll]

theorem session_carryOut (l : Life υ σ) (task : WorkerTask)
    (todo : List WorkerTask) :
    (l.carryOut task todo).session = l.session.carryOut task := by
  cases task <;> rfl

theorem todo_carryOut (l : Life υ σ) (task : WorkerTask)
    (todo : List WorkerTask) :
    (l.carryOut task todo).todo = todo := by
  cases task <;> rfl

variable [Storage σ]

inductive Worked (frontend : Frontend υ (Workspace σ)) (l : Life υ σ) :
    Life υ σ → Prop
  | carried {task : WorkerTask} {todo : List WorkerTask}
      (ht : l.todo = task :: todo) :
      Worked frontend l (l.carryOut task todo)
  | read {tasks : List WorkerTask} (ht : l.todo = [])
      (hn : l.session.nextTasks? = some tasks) :
      Worked frontend l { l with todo := tasks }
  | stepped {s : Session υ σ} (ht : l.todo = [])
      (hn : l.session.nextTasks? = none)
      (hs : Session.Worked frontend l.session s) :
      Worked frontend l { l with session := s, late := l.nextLate }
  | waited (ht : l.todo = []) (hs : l.session.work frontend = none) :
      Worked frontend l l

theorem worked (frontend : Frontend υ (Workspace σ)) (l : Life υ σ) :
    Worked frontend l (l.work frontend) := by
  unfold work
  split
  · rename_i ht
    exact .carried ht
  · rename_i ht
    split
    · rename_i hn
      exact .read ht hn
    · rename_i hn
      split
      · rename_i hs
        exact .stepped ht hn (worked_of_work hs)
      · rename_i hs
        exact .waited ht hs

/-- Reading what to do is the whole step already, as far as the settled session
goes; carrying it out changes nothing more. -/
theorem settled_work (frontend : Frontend υ (Workspace σ)) (l : Life υ σ) :
    (l.work frontend).settled =
      if l.todo = [] then (l.session.work frontend).getD l.session
        else l.settled := by
  cases ht : l.todo with
  | nil =>
      rw [if_pos rfl, work, ht]
      dsimp only
      cases hn : l.session.nextTasks? with
      | some tasks =>
          rw [work_of_nextTasks hn]
          rfl
      | none =>
          cases hs : l.session.work frontend with
          | some s => rfl
          | none => exact settled_of_empty ht
  | cons task todo =>
      rw [if_neg (List.cons_ne_nil task todo), work, ht]
      dsimp only
      rw [settled, session_carryOut, todo_carryOut, settled, ht]
      rfl

omit [Storage σ]

theorem exists_observe {target : Target} (refuse : Path → Option BuildError)
    (h : l.stage = .register target) : ∃ n,
      ((call refuse)^[n] l).session =
          (l.session.observe refuse (target.path l.session.config)).2 ∧
        ((call refuse)^[n] l).stage =
          match (l.session.observe refuse (target.path l.session.config)).1 with
          | .error _ => .afterRefusal l.session.mode target
          | .ok () => .afterTarget l.session.mode target := by
  cases hr : refuse (target.path l.session.config) with
  | some e => exact ⟨1, by simp [call, h, observe, hr]⟩
  | none => exact ⟨2, by simp [call, h, observe, register, hold, hr]⟩

/-- The calls up to `giveUp` are the start of the session. -/
theorem exists_start (frontend : Frontend υ (Workspace σ))
    (refuse : Path → Option BuildError)
    (s : Session υ σ) : ∃ n,
      ((call refuse)^[n] (born frontend s)).session =
        (s.start frontend refuse).2 ∧
        ((call refuse)^[n] (born frontend s)).stage = .giveUp := by
  rcases hcreate : s.createUnit frontend with ⟨e | _, t⟩
  · exact ⟨0, by simp [born, start, hcreate]⟩
  · have hborn :
        born frontend s = { session := t, stage := .register .declarations } := by
      simp [born, hcreate]
    obtain ⟨n, hsession, hstage⟩ :=
      exists_observe (l := { session := t, stage := .register .declarations })
        refuse rfl
    have hafter :
        ((call refuse)^[n] { session := t, stage := .register .declarations }).stage =
        .afterTarget t.mode .declarations := by
      rw [hstage]
      split <;> rfl
    rw [hborn]
    have hmode := mode_observe refuse t (Pass.sourceTypesPath t.config)
    rcases hfirst : t.observe refuse (Pass.sourceTypesPath t.config) with ⟨_, u⟩
    simp only [Target.path, hfirst] at hsession hmode
    cases hm : t.mode with
    | full =>
        refine ⟨n + 1, ?_⟩
        rw [Function.iterate_succ_apply', call, hafter, hm]
        simp [Stage.afterTarget, start, hcreate, hfirst, hsession, hmode, hm]
    | watch =>
        rw [hm] at hafter hmode
        obtain ⟨m, hsession', hstage'⟩ := exists_observe refuse hafter
        simp only [hsession, hmode, Target.path] at hsession' hstage'
        rcases hsecond : u.observe refuse u.config.sourceDir with ⟨e | _, v⟩
        · rw [hsecond] at hsession' hstage'
          refine ⟨m + n, ?_⟩
          rw [Function.iterate_add_apply, hsession', hstage']
          simp [Stage.afterRefusal, start, hcreate, hfirst, hmode, hsecond]
        · rw [hsecond] at hsession' hstage'
          refine ⟨m + 1 + n, ?_⟩
          rw [Function.iterate_add_apply, Function.iterate_succ_apply',
            call, hstage']
          simp [Stage.afterTarget, start, hcreate, hfirst, hmode,
            hsecond, hsession']

/-- The calls from `giveUp` on are the teardown, which waits for the worker in
the middle. -/
theorem beginClose_of_calls (refuse : Path → Option BuildError)
    (h : l.stage = .giveUp) :
    ((call refuse)^[4] l).session = l.session.beginClose ∧ ((call refuse)^[4]
      l).stage = .join := by
  simp [call, h, beginClose, send, closeNotifiers]

theorem finishClose_of_calls (refuse : Path → Option BuildError)
    (h : l.stage = .join)
    (ha : l.session.activity = .stopped) (ht : l.todo = []) :
    ((call refuse)^[2] l).session = l.session.finishClose ∧ ((call refuse)^[2]
      l).stage = .rest := by
  simp [call, h, ha, ht, finishClose]

end Life

end ComponentBuild
