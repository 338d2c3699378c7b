import ComponentBuild.Frontend.Basic
import ComponentBuild.Pass.Run
import ComponentBuild.Scheduler.Debouncer
import ComponentBuild.Scheduler.Guard
import ComponentBuild.Scheduler.OneShot
import ComponentBuild.Watch.Hub

/-!
Build sessions.

A session has two parties.  The worker takes the timer's commands, updates the
front-end's unit when the timer fires, and runs a pass for each snapshot that
finds the guard idle.  The owner starts the session, receives its one result and
tears it down; changes that the hub reports become commands. This file has the
state of a session and the small steps of the worker; between two steps anything
the owner or the hub does may happen.
-/

namespace ComponentBuild

inductive Mode where
  /-- The session is over with its first pass. -/
  | full
  /-- The session runs a pass after every change. -/
  | watch
  deriving DecidableEq, Repr

inductive Happening where
  | event (e : BuildEvent)
  | updated (changed : List Path)
  | unitClosed
  deriving DecidableEq, Repr

inductive Activity where
  | waiting
  /-- It is in an update that began after `before` passes: these snapshots are
  to be reported, then the update ends. -/
  | updating (before : Nat) (snapshots : List Snapshot) (ending : UpdateEnd)
  /-- It has begun the pass for a snapshot, and holds the token. -/
  | begun (record : PassRecord) (snapshot : Snapshot) (before : Nat)
      (rest : List Snapshot)
    (ending : UpdateEnd)
  /-- It has carried the pass out, and still holds the token. -/
  | committed (record : PassRecord) (version : Nat) (before : Nat)
      (rest : List Snapshot)
    (ending : UpdateEnd)
  | stopped
  deriving DecidableEq, Repr

structure Session (υ σ : Type) where
  config : Config
  mode : Mode
  workspace : Workspace σ
  unit : Option υ := none
  hub : NotifierHub := {}
  notifiers : List NotifierId := []
  guard : PassGuard := .idle
  result : OneShot PassRecord := {}
  timer : Debouncer := {}
  queue : List TimerCommand := []
  activity : Activity := .waiting
  /-- Passes begun, and passes resolved. -/
  passes : Nat := 0
  resolved : Nat := 0
  closing : Bool := false
  clock : Nat := 0
  history : List Happening := []

namespace Session

variable {υ σ : Type}

def emit (s : Session υ σ) (e : BuildEvent) : Session υ σ :=
  { s with history := s.history ++ [.event e] }

def emitAll (s : Session υ σ) (es : List BuildEvent) : Session υ σ :=
  { s with history := s.history ++ es.map .event }

def events (s : Session υ σ) : List BuildEvent :=
  s.history.filterMap fun
    | .event e => some e
    | _ => none

def send (s : Session υ σ) (commands : List TimerCommand) : Session υ σ :=
  { s with queue := s.queue ++ commands }

def closeNotifiers (s : Session υ σ) : Session υ σ :=
  { s with hub := s.notifiers.foldl NotifierHub.close s.hub, notifiers := [] }

def releaseToken (s : Session υ σ) : Session υ σ :=
  { s with guard := s.guard.release }

def complete (s : Session υ σ) (pass : Nat)
    (result : Except BuildError PassRecord) :
    Session υ σ :=
  match s.result.complete pass result with
  | (.ok (), result) => { s with result }
  | (.error e, result) => { s with result }.emit (.error e.message)

def finishWatch (s : Session υ σ) : Session υ σ :=
  let s := s.closeNotifiers.send [.cancel]
  { s with guard := s.guard.terminate }

/-- Reports a failure, and delivers it if nothing was delivered yet that counts.
-/
def fault (s : Session υ σ) (e : BuildError) : Session υ σ :=
  let s := s.emit (.error e.message)
  match s.mode with
  | .full => s.finishWatch.complete s.passes (.error e)
  | .watch => if s.resolved = 0 then s.complete s.passes (.error e) else s

/-! ## A pass in steps -/

/-- A snapshot gets a pass if the guard is idle; otherwise it is superseded. -/
def beginPass (s : Session υ σ) (snapshot : Snapshot) (before : Nat)
    (rest : List Snapshot) (ending : UpdateEnd) : Session υ σ :=
  match s.guard.tryBegin with
  | (false, _) =>
      { s.emit (.superseded snapshot.version)
        with activity := .updating before rest ending }
  | (true, guard) =>
      let pass := s.passes + 1
      let record :=
        (if pass = 1 then PassRecord.fullBuild pass
          else PassRecord.rebuild pass).start
        s.clock
      { s.emit (.passStarted pass record.isRebuild) with
        guard, passes := pass, activity :=
          .begun record snapshot before rest ending }

def finishedEvent (r : PassRecord) : BuildEvent :=
  .passFinished r.pass r.components.length r.diagnostics.length r.hasError
    (r.duration.getD 0)

/-- After the commit: a session that is being torn down supersedes the pass, any
other resolves it. -/
def finishPass (s : Session υ σ) (record : PassRecord) (version : Nat) :
    Session υ σ :=
  if s.closing then (s.emit (.superseded version)).releaseToken
  else
    let record := record.resolve s.clock
    let s := { s with resolved := s.resolved + 1 }.emit (finishedEvent record)
    match s.mode with
    | .full => s.finishWatch.releaseToken.complete record.pass (.ok record)
    | .watch =>
        let s := s.releaseToken
        if record.pass = 1 then s.complete record.pass (.ok record) else s

/-! ## The end of an update -/

def closeUnit (s : Session υ σ) : Session υ σ :=
  match s.unit with
  | some _ => { s with unit := none, history := s.history ++ [.unitClosed] }
  | none => s

def silentUnit : BuildError :=
  .passFailed "compilation unit produced no consistent snapshot"

def finishUpdate (s : Session υ σ) (before : Nat) : UpdateEnd → Session υ σ
  | .failed e => s.fault e
  | .brokeDown message => s.fault (.ofBreakdown message)
  | .done =>
      if s.guard = .terminal then s.closeUnit
      else if s.mode = .full ∧ before = 0 ∧ s.passes = 0 then s.fault silentUnit
      else s

/-! ## The worker -/

/-- The timer fires: the unit is updated with the noted paths, unless a pass is
on. -/
def fire (frontend : Frontend υ (Workspace σ)) (s : Session υ σ) : Session υ σ :=
  match s.timer.fire (s.guard = .idle) with
  | (none, timer) => { s with timer }
  | (some changed, timer) =>
      let s := { s with timer }
      match s.unit with
      | none => s
      | some unit =>
          let (result, unit, workspace) :=
            frontend.update unit changed s.workspace
          { s with
            unit := some unit
            workspace
            history := s.history ++ [.updated changed]
            activity := .updating s.passes result.snapshots result.ending }

/-- One step of the worker; `none` when it has to wait for a command or for time
to pass. -/
def work [Storage σ] (frontend : Frontend υ (Workspace σ)) (s : Session υ σ) :
    Option (Session υ σ) :=
  match s.activity with
  | .stopped => none
  | .waiting =>
      if s.timer.isDue s.clock then some (s.fire frontend)
      else
        match s.queue with
        | [] => none
        | command :: queue =>
            let timer := s.timer.take s.clock command
            some { s with
              queue, timer, activity := if timer.stopped then .stopped
              else .waiting }
  | .updating before (snapshot :: rest) ending =>
      some (s.beginPass snapshot before rest ending)
  | .updating before [] ending =>
      some { s.finishUpdate before ending with activity := .waiting }
  | .begun record snapshot before rest ending =>
      let p := Pass.build s.config s.workspace record snapshot
      some { { s with workspace := p.workspace }.emitAll p.events with
        activity := .committed p.record snapshot.version before rest ending }
  | .committed record version before rest ending =>
      some { s.finishPass record version
        with activity := .updating before rest ending }

/-! ## Changes -/

/-- A notifier hears of a change: what was read of the path is forgotten, and
the timer is armed. -/
def notice (s : Session υ σ) (path : Path) : Session υ σ :=
  let path := path.normalize
  let s := { s with workspace := s.workspace.clearFileCache path }
  (s.emit (.fileChanged path)).send [.note path, .arm s.config.changeDelay]

def report (s : Session υ σ) (path : Path) : Nat × Session υ σ :=
  let ids := s.hub.listeners path
  (ids.length, ids.foldl (fun s _ => s.notice path) s)

end Session

end ComponentBuild
