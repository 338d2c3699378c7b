import ComponentBuild.CommandLine.Arguments
import ComponentBuild.Event.Console
import ComponentBuild.Frontend.Manifests
import ComponentBuild.Session.Build
import ComponentBuild.Storage.Disk

/-!
What the command does: the disk afterwards, what it prints, and its exit code.

A build prints its events and then a summary, as text or as one JSON object a
line; it fails when its result is an error or has an error among its
diagnostics.  `types` prints the declarations and changes nothing.  A watch that
nobody reports changes to ends after its first pass.
-/

namespace ComponentBuild

/-! ## Watching a disk -/

/-- A watcher of one path.  One that cannot start is closed and keeps the path
that it watched before. -/
structure DiskWatcher where
  target : Option Path := none
  closed : Bool := true
  deriving DecidableEq, Repr

namespace DiskWatcher

def directory (d : Disk) (path : Path) : Path :=
  if d.isDir path then path
  else
    match path.parent with
    | some dir => if dir.isEmpty then ⟨"."⟩ else dir
    | none => ⟨"."⟩

def observe (w : DiskWatcher) (d : Disk) (path : Path) :
    Except BuildError Unit × DiskWatcher :=
  match d.find (directory d path) with
  | .ok _ => (.ok (), ⟨some path, false⟩)
  | .error e => (.error (.watch path e.text), { w with closed := true })

def close (w : DiskWatcher) : DiskWatcher :=
  { w with closed := true }

end DiskWatcher

/-! ## The commands -/

structure Outcome where
  disk : Disk
  code : Nat := 0
  output : String := ""
  errors : String := ""

namespace CommandLine

def textOf (lines : List String) : String :=
  String.join (lines.map (· ++ "\n"))

def version : String := "hobbes 0.4.1"

def usage : List String :=
  ["Usage: hobbes [--json] [-v...] <command>",
    "",
    "Commands:",
    "  build  Run one full build",
    "  watch  Rebuild on every change",
    "  types  Print the generated declarations without writing anything",
    "",
    "Options of every command: [-r, --root <path>] [-c, --config <path>]",
    "Options of watch: [--timeout <milliseconds>]"]

def usageMessage : UsageError → String
  | .missingCommand => "a command is missing"
  | .unknownCommand => "there is no such command"
  | .unknownArgument => "there is no such argument"
  | .missingValue => "an option is without its value"
  | .unexpectedValue => "an option has a value that it does not take"
  | .notANumber => "a value is not a number"
  | .repeated => "an option is given twice"
  | .helpAsked | .versionAsked | .nothingAsked => ""

def refuse (d : Disk) (e : UsageError) : Outcome :=
  match e with
  | .helpAsked => { disk := d, output := textOf usage }
  | .versionAsked => { disk := d, output := textOf [version] }
  | .nothingAsked => { disk := d, code := e.exitCode, errors := textOf usage }
  | e =>
      { disk := d, code := e.exitCode,
        errors := textOf ["error: " ++ usageMessage e] }

def errorLine (e : BuildError) : String :=
  "Error: " ++ e.message

def warningLine (w : ConfigWarning) : String :=
  "warning: " ++ w.display

structure Style where
  command : String
  json : Bool
  verbosity : Nat
  icons : Icons

def Style.outputLines (s : Style) (events : List BuildEvent) : List String :=
  if s.json then events.map (·.jsonLine s.command)
  else BuildEvent.consoleLines s.icons s.verbosity events

def Style.errorLines (s : Style) (events : List BuildEvent) : List String :=
  if s.json then [] else (events.filter (·.isError)).filterMap
    (·.consoleLine s.icons s.verbosity)

def stepLimit : Nat := 1000

def refusal (d : Disk) (path : Path) : Option BuildError :=
  match (({} : DiskWatcher).observe d path).1 with
  | .ok () => none
  | .error e => some e

def frontend : Frontend ManifestUnit (Workspace Disk) := ManifestUnit.frontend

def build (d : Disk) (config : Config) (style : Style) : Outcome :=
  let start : Session ManifestUnit Disk := .initial config .full d .empty
  let (result, s) := fullBuild frontend (refusal d) stepLimit start
  let printed := style.outputLines s.events
  let errors := style.errorLines s.events
  let disk := s.workspace.storage
  match result.getD (.error .aborted) with
  | .error e =>
      { disk, code := 1, output := textOf printed,
        errors := textOf (errors ++ [errorLine e]) }
  | .ok record =>
      let summary := if style.json then [record.summaryJson.compact]
        else record.summaryLines config.rootDir style.icons
      { disk
        code := if record.hasError then 1 else 0
        output := textOf (printed ++ summary)
        errors := textOf errors }

def watch (d : Disk) (config : Config) (style : Style) : Outcome :=
  let start : Session ManifestUnit Disk := .initial config .watch d .empty
  let (result, s) := watchOnce frontend (refusal d) stepLimit start
  let printed := style.outputLines s.events
  let errors := style.errorLines s.events
  let disk := s.workspace.storage
  match result with
  | .error e =>
      { disk, code := 1, output := textOf printed,
        errors := textOf (errors ++ [errorLine e]) }
  | .ok () => { disk, output := textOf printed, errors := textOf errors }

def types (d : Disk) (config : Config) : Outcome :=
  match previewFrom (ManifestUnit.frontend : Frontend ManifestUnit Disk) config
    d with
  | (.error e, disk) => { disk, code := 1, errors := textOf [errorLine e] }
  | (.ok text, disk) => { disk, output := text }

def runWith (d : Disk) (env : Environment) (i : Invocation) (config : Config) :
    Outcome :=
  let style : Style :=
    ⟨i.command.text, i.json || config.json, i.verbosity,
      .forTerminal (env.lookup "TERM")⟩
  match i.command with
  | .build => build d config style
  | .types => types d config
  | .watch =>
      let watchTimeout := i.timeout.orElse fun () => config.watchTimeout
      watch d { config with watchTimeout } style

def run (d : Disk) (cwd : Path) (env : Environment) (args : List String) :
    Outcome :=
  match read args with
  | .error e => refuse d e
  | .ok i =>
      match Config.locate d cwd env i.project with
      | .error e => { disk := d, code := 1, errors := textOf [errorLine e] }
      | .ok (config, warnings) =>
          let o := runWith d env i config
          { o with errors := textOf (warnings.map warningLine) ++ o.errors }

end CommandLine

end ComponentBuild
