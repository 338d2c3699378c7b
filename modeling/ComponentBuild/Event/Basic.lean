import ComponentBuild.Json.Printer
import ComponentBuild.Path.Basic

/-!
What a session reports while it runs, and the JSON form of it.

Each event is written as one object on a line of its own, with its fields in the
order of their names.  The field `event` names the kind and `command` the
command that runs.
-/

namespace ComponentBuild

inductive BuildEvent where
  | started (root : Path) (watch : Bool)
  | fileChanged (path : Path)
  | passStarted (pass : Nat) (isRebuild : Bool)
  | artifactGenerated (path : Path) (hash : String) (changed : Bool)
  /-- Staged changes were carried out; the counts are of what changed on
  storage. -/
  | committed (pass written deleted dirsAdded dirsDeleted errors : Nat)
  | passFinished (pass components diagnostics : Nat) (hasError : Bool)
      (duration : Nat)
  /-- A snapshot came too late to get a pass. -/
  | superseded (version : Nat)
  | error (message : String)
  | shutdown
  deriving DecidableEq, Repr

namespace BuildEvent

def kind : BuildEvent → String
  | started _ _ => "start"
  | fileChanged _ => "file_changed"
  | passStarted _ _ => "pass_start"
  | artifactGenerated _ _ _ => "artifact"
  | committed _ _ _ _ _ _ => "committed"
  | passFinished _ _ _ _ _ => "pass_complete"
  | superseded _ => "superseded"
  | error _ => "error"
  | shutdown => "shutdown"

def fields : BuildEvent → List (String × Json)
  | started root watch => [("root", .text root.text), ("watch", .bool watch)]
  | fileChanged path => [("path", .text path.text)]
  | passStarted pass isRebuild =>
      [("pass", .ofNat pass), ("rebuild", .bool isRebuild)]
  | artifactGenerated path hash changed =>
      [("path", .text path.text), ("hash", .text hash),
        ("changed", .bool changed)]
  | committed pass written deleted dirsAdded dirsDeleted errors =>
      [("pass", .ofNat pass), ("written", .ofNat written),
        ("deleted", .ofNat deleted),
        ("dirs_added", .ofNat dirsAdded), ("dirs_deleted", .ofNat dirsDeleted),
        ("errors", .ofNat errors)]
  | passFinished pass components diagnostics hasError duration =>
      [("status", .text (if hasError then "failed" else "success")),
        ("pass", .ofNat pass),
        ("components", .ofNat components), ("diagnostics", .ofNat diagnostics),
        ("duration_ms", .ofNat duration)]
  | superseded version => [("snapshot_version", .ofNat version)]
  | error message => [("message", .text message)]
  | shutdown => []

def json (command : String) (e : BuildEvent) : Json :=
  .sortedObject (("event", .text e.kind) :: ("command",
    .text command) :: e.fields)

def jsonLine (command : String) (e : BuildEvent) : String :=
  (e.json command).compact

def jsonStream (command : String) (events : List BuildEvent) : String :=
  String.join (events.map fun e => e.jsonLine command ++ "\n")

end BuildEvent

end ComponentBuild
