import ComponentBuild.Event.Basic
import ComponentBuild.Pass.Record

/-!
Events and pass summaries as text for people.
-/

namespace ComponentBuild

structure Icons where
  check : String
  cross : String
  write : String
  trash : String
  change : String
  deriving DecidableEq, Repr

namespace Icons

def unicode : Icons := ⟨"✓", "✗", "→", "🗑", "●"⟩

def ascii : Icons := ⟨"[OK]", "[FAIL]", "->", "[DEL]", "*"⟩

def forTerminal (term : Option String) : Icons :=
  if term = some "dumb" then ascii else unicode

end Icons

namespace BuildEvent

/-- The console line for an event; `none` for one that stays quiet at this
verbosity. -/
def consoleLine (icons : Icons) (verbosity : Nat) : BuildEvent → Option String
  | started root true => some ("Watching " ++ root.text ++ " (Ctrl+C to stop)")
  | started _ false => none
  | fileChanged path =>
      if 0 < verbosity then some (icons.change ++ " " ++ path.text) else none
  | passStarted pass true => some (icons.change ++ " rebuild #" ++ toString pass)
  | passStarted _ false => none
  | artifactGenerated path hash changed =>
      if 1 < verbosity then
        some ("  " ++ icons.write ++ " " ++ path.text ++ " (" ++ hash
          ++ (if changed then ", changed" else "") ++ ")")
      else none
  | committed _ written deleted _ _ errors =>
      if 0 < verbosity then
        some ("  committed: " ++ toString written ++ " written, " ++
          toString deleted
          ++ " deleted, " ++ toString errors ++ " failed")
      else none
  | passFinished pass components diagnostics hasError duration =>
      some ((if hasError then icons.cross else icons.check) ++ " pass #" ++
        toString pass ++ ": "
        ++ toString components ++ " components, " ++ toString diagnostics ++
          " diagnostics in "
        ++ toString duration ++ " ms")
  | superseded version =>
      if 0 < verbosity then some ("  snapshot " ++ toString version ++
        " superseded") else none
  | error message => some (icons.cross ++ " " ++ message)
  | shutdown => none

def isError : BuildEvent → Bool
  | error _ => true
  | _ => false

def consoleLines (icons : Icons) (verbosity : Nat) (events : List BuildEvent) :
    List String :=
  (events.filter fun e => !e.isError).filterMap (consoleLine icons verbosity)

end BuildEvent

namespace PassRecord

def shownBelow (root path : Path) : String :=
  ((path.below? root).getD path).text

def pathSection (title icon : String) (root : Path) (paths : List Path) :
    List String :=
  if paths.isEmpty then []
  else
    ("  " ++ title ++ " (" ++ toString paths.length ++ "):")
      :: paths.map fun p => "    " ++ icon ++ " " ++ shownBelow root p

def summaryLines (r : PassRecord) (root : Path) (icons : Icons) : List String :=
  [if r.hasError then icons.cross ++ " Build Failed"
    else icons.check ++ " Build Complete", "", "  Root: " ++ root.text,
    "  " ++ toString r.components.length ++ " components in " ++
      toString (r.duration.getD 0)
      ++ " ms"]
  ++ (if r.written.isEmpty && r.deleted.isEmpty then ["  Already up-to-date"]
    else [])
  ++ pathSection "Written" icons.write root r.written
  ++ pathSection "Deleted" icons.trash root r.deleted
  ++ (if r.diagnostics.isEmpty then []
    else "" :: ("  Diagnostics (" ++ toString r.diagnostics.length ++ "):")
      :: r.diagnostics.map fun d => "    " ++ d.display)

def summary (r : PassRecord) (root : Path) (icons : Icons) : String :=
  "\n".intercalate (r.summaryLines root icons) ++ "\n"

def diagnosticJson (d : Diagnostic) : Json :=
  .sortedObject <| [("level", .text d.severity.label),
    ("message", .text d.message)]
    ++ match d.file with
      | some file => [("file", .text file.text)]
      | none => []

def pathsJson (paths : List Path) : Json :=
  .array (paths.map fun p => .text p.text)

def summaryJson (r : PassRecord) : Json :=
  .sortedObject [
    ("event", .text "summary"),
    ("command", .text "build"),
    ("success", .bool !r.hasError),
    ("pass", .ofNat r.pass),
    ("components", .ofNat r.components.length),
    ("components_dts_changed", .bool r.declarationsChanged),
    ("written", pathsJson r.written),
    ("deleted", pathsJson r.deleted),
    ("dirs_added", pathsJson r.dirsAdded),
    ("dirs_deleted", pathsJson r.dirsDeleted),
    ("diagnostics", .array (r.diagnostics.map diagnosticJson)),
    ("duration_ms", .ofNat (r.duration.getD 0))]

end PassRecord

end ComponentBuild
