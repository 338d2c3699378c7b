import ComponentBuild.Config.Basic
import ComponentBuild.Declarations.Artifact
import ComponentBuild.Digest.Sha256
import ComponentBuild.Event.Basic
import ComponentBuild.Frontend.Basic
import ComponentBuild.Pass.Record
import ComponentBuild.Workspace.Commit

/-!
What one pass does with a snapshot: it stages the emitted files and the
declarations of every directory, commits, and records what changed.
-/

namespace ComponentBuild

namespace Pass

def renderTypes (config : Config) (components : List Component) (dir : Path)
    (internal : Bool) :
    String :=
  Declarations.render components
    { dir, runtimeModule := config.runtimeModule,
      elementBase := config.elementBase, internal }

def sourceTypesPath (config : Config) : Path :=
  config.sourceDir.child Declarations.fileName

structure State (σ : Type) where
  workspace : Workspace σ
  record : PassRecord
  events : List BuildEvent := []

variable {σ : Type}

def stageSnapshot (w : Workspace σ) (snapshot : Snapshot) : Workspace σ :=
  let w :=
    snapshot.emitted.foldl (fun w file => w.stageWrite file.path file.content) w
  snapshot.removed.foldl Workspace.stageRemove w

variable [Storage σ]

/-- Stages the declarations of one directory.  The flag says whether they
change. -/
def stageTypes (config : Config) (s : State σ) (dir : Path) (internal : Bool) :
    Bool × State σ :=
  let path := dir.child Declarations.fileName
  let content := renderTypes config s.record.components dir internal
  let hash := ContentHash.ofContent content
  match s.workspace.writeFile path content false with
  | (.ok outcome, workspace) =>
      (outcome.changed, { s with
        workspace
        events :=
          s.events ++ [.artifactGenerated path hash.short outcome.changed] })
  | (.error e, workspace) =>
      (false, { s with
        workspace
        record := s.record.addDiagnostic
          (.errorAt path ("failed to stage declarations: " ++ e.message)) })

def generateTypes (config : Config) (s : State σ) : State σ :=
  let (changed, s) := stageTypes config s config.sourceDir true
  let s := { s with record.declarationsChanged := changed }
  config.typeDestinations.foldl (fun s dir => (stageTypes config s dir false).2) s

def commitDiagnostic (e : CommitError) : Diagnostic :=
  .errorAt e.path (e.op.label ++ " failed: " ++ e.message)

def recordCommit (config : Config) (r : PassRecord) (report : CommitReport) :
    PassRecord :=
  { r with
    written := report.written
    deleted := report.deleted
    dirsAdded := report.dirsAdded
    dirsDeleted := report.dirsDeleted
    declarationsChanged := report.wasWritten (sourceTypesPath config)
  }.addDiagnostics (report.errors.map commitDiagnostic)

def committedEvent (pass : Nat) (report : CommitReport) : BuildEvent :=
  .committed pass report.written.length report.deleted.length
    report.dirsAdded.length
    report.dirsDeleted.length report.errors.length

def commit (config : Config) (s : State σ) : State σ :=
  let (report, workspace) := s.workspace.commit
  { workspace
    record := recordCommit config s.record report
    events := s.events ++ [committedEvent s.record.pass report] }

def build (config : Config) (w : Workspace σ) (r : PassRecord)
    (snapshot : Snapshot) : State σ :=
  let record :=
    { r with components := snapshot.components }.addDiagnostics
      snapshot.diagnostics
  commit config
    (generateTypes config { workspace := stageSnapshot w snapshot, record })

end Pass

end ComponentBuild
