import ComponentBuild.Session.Basic

/-!
Starting a session, running it, and tearing it down.

`settle` lets the worker go on until it has nothing to do, with time passing
where only the timer is left to wait for.  The number of steps that it may take
is bounded by the caller.
-/

namespace ComponentBuild

def Config.request (c : Config) : ProjectRequest where
  projectFile := c.projectPath
  srcDir := c.sourceDir
  outDir := c.outputDir

namespace Session

variable {υ σ : Type}

/-! ## Start -/

def initial (config : Config) (mode : Mode) (storage : σ) (hub : NotifierHub) :
    Session υ σ :=
  { config, mode, workspace := .ofStorage storage, hub }

def createUnit (frontend : Frontend υ (Workspace σ)) (s : Session υ σ) :
    Except BuildError Unit × Session υ σ :=
  match frontend.create s.config.request s.workspace with
  | (.error e, workspace) => (.error e, { s with workspace })
  | (.ok unit, workspace) => (.ok (), { s with workspace, unit := some unit })

def register (s : Session υ σ) (path : Path) : NotifierId × Session υ σ :=
  let (id, hub) := s.hub.newNotifier
  (id, { s with hub := hub.observe id path })

def hold (s : Session υ σ) (id : NotifierId) : Session υ σ :=
  { s with notifiers := s.notifiers ++ [id] }

def observe (refuse : Path → Option BuildError) (s : Session υ σ) (path : Path) :
    Except BuildError Unit × Session υ σ :=
  match refuse path with
  | some e => (.error e, { s with hub := s.hub.newNotifier.2 })
  | none =>
      let (id, s) := s.register path
      (.ok (), s.hold id)

def armFirst (s : Session υ σ) : Session υ σ :=
  s.send [.arm s.config.initialDelay]

/-- Starts a session: the unit is made, the declarations of the source tree and
in watch mode the source directory are observed, and the timer is armed.  A unit
that cannot be made is a failure of the session; a source directory that cannot
be observed is one of the start. -/
def start (frontend : Frontend υ (Workspace σ))
    (refuse : Path → Option BuildError) (s : Session υ σ) :
    Except BuildError Unit × Session υ σ :=
  match s.createUnit frontend with
  | (.error e, s) => (.ok (), s.fault e)
  | (.ok (), s) =>
      let (_, s) := s.observe refuse (Pass.sourceTypesPath s.config)
      match s.mode with
      | .full => (.ok (), s.armFirst)
      | .watch =>
          match s.observe refuse s.config.sourceDir with
          | (.ok (), s) => (.ok (), s.armFirst)
          | (.error e, s) => (.error e, s)

/-! ## Running -/

/-- The next state: a step of the worker or, when it can only wait for the
timer, the moment of the deadline, if that is at most `patience` away. -/
def advance [Storage σ] (frontend : Frontend υ (Workspace σ)) (patience : Nat)
    (s : Session υ σ) :
    Option (Session υ σ) :=
  match s.work frontend with
  | some s => some s
  | none =>
      match s.activity, s.timer.deadline with
      | .waiting, some deadline =>
          if deadline ≤ s.clock + patience
            then some { s with clock := deadline } else none
      | _, _ => none

/-- Advances until `stop` holds or nothing is left to do, for at most `fuel`
steps. -/
def settleUntil [Storage σ] (frontend : Frontend υ (Workspace σ))
    (stop : Session υ σ → Bool) (patience : Nat) :
    (fuel : Nat) → Session υ σ → Session υ σ
  | 0, s => s
  | fuel + 1, s =>
      if stop s then s
      else
        match s.advance frontend patience with
        | some s => settleUntil frontend stop patience fuel s
        | none => s

def settle [Storage σ] (frontend : Frontend υ (Workspace σ)) (patience fuel : Nat)
    (s : Session υ σ) : Session υ σ :=
  settleUntil frontend (fun _ => false) patience fuel s

def isInPass (s : Session υ σ) : Bool :=
  match s.activity with
  | .begun .. => true
  | _ => false

def isInUpdate (s : Session υ σ) : Bool :=
  match s.activity with
  | .updating .. => true
  | _ => false

def pollResult (s : Session υ σ) :
    Option (Except BuildError PassRecord) × Session υ σ :=
  let (taken, result) := s.result.poll
  (taken, { s with result })

/-! ## The end -/

def beginClose (s : Session υ σ) : Session υ σ :=
  { s with closing := true }.closeNotifiers.send [.cancel, .shutdown]

def finishClose (s : Session υ σ) : Session υ σ :=
  { s with guard := s.guard.terminate }.closeUnit

def close [Storage σ] (frontend : Frontend υ (Workspace σ)) (fuel : Nat)
    (s : Session υ σ) :
    Session υ σ :=
  (settle frontend 0 fuel s.beginClose).finishClose

end Session

/-! ## Whole builds -/

def fullBuild {υ σ : Type} [Storage σ] (frontend : Frontend υ (Workspace σ))
    (refuse : Path → Option BuildError) (fuel : Nat) (s : Session υ σ) :
    Option (Except BuildError PassRecord) × Session υ σ :=
  let s := s.emit (.started s.config.rootDir false)
  match s.start frontend refuse with
  | (.error e, s) => (some (.error e), s.close frontend fuel)
  | (.ok (), s) =>
      let (result, s) := (s.settle frontend s.config.initialDelay fuel).pollResult
      (result, s.close frontend fuel)

/-- A watch that ends as soon as it has nothing to do.  It fails only if no pass
was resolved. -/
def watchOnce {υ σ : Type} [Storage σ] (frontend : Frontend υ (Workspace σ))
    (refuse : Path → Option BuildError) (fuel : Nat) (s : Session υ σ) :
    Except BuildError Unit × Session υ σ :=
  let s := s.emit (.started s.config.rootDir true)
  match s.start frontend refuse with
  | (.error e, s) => (.error e, s.close frontend fuel)
  | (.ok (), s) =>
      let (result, s) := (s.settle frontend s.config.initialDelay fuel).pollResult
      let s := (s.close frontend fuel).emit .shutdown
      match result with
      | some (.error e) => (.error e, s)
      | _ => (.ok (), s)

def previewOf (config : Config) (result : UpdateResult) :
    Except BuildError String :=
  match result.ending with
  | .failed e => .error e
  | .brokeDown message => .error (.ofBreakdown message)
  | .done =>
      match result.snapshots.getLast? with
      | none => .error (.passFailed "compilation unit produced no snapshot")
      | some s => .ok (Pass.renderTypes config s.components config.sourceDir true)

structure Preview (τ : Type) where
  answer : Except BuildError String
  source : τ
  history : List Happening := []

/-- The declarations of the source tree from a unit of their own, which is
updated once and closed. -/
def Preview.run {υ τ : Type} (frontend : Frontend υ τ) (config : Config)
    (source : τ) : Preview τ :=
  match frontend.create config.request source with
  | (.error e, source) => { answer := .error e, source }
  | (.ok unit, source) =>
      let (result, _, source) := frontend.update unit [] source
      { answer := previewOf config result, source,
        history := [.updated [], .unitClosed] }

def previewFrom {υ τ : Type} (frontend : Frontend υ τ) (config : Config)
    (source : τ) :
    Except BuildError String × τ :=
  let preview := Preview.run frontend config source
  (preview.answer, preview.source)

end ComponentBuild
