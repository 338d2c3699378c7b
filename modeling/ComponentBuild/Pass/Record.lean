import ComponentBuild.Component.Basic
import ComponentBuild.Diagnostic

/-!
The record of one build pass.

A pass goes from idle to building and from there to resolved or superseded,
which is final. Diagnostics are accepted only while it is building.  Times are
milliseconds of a clock that is read by the caller.
-/

namespace ComponentBuild

inductive Phase where
  | idle
  | building
  | resolved
  | superseded
  deriving DecidableEq, Repr

namespace Phase

def isFinal : Phase → Bool
  | resolved | superseded => true
  | _ => false

def label : Phase → String
  | idle => "Idle"
  | building => "Building"
  | resolved => "Resolved"
  | superseded => "Superseded"

end Phase

structure PassRecord where
  pass : Nat
  isRebuild : Bool
  requiresFullBuild : Bool
  phase : Phase := .idle
  startedAt : Option Nat := none
  duration : Option Nat := none
  diagnostics : List Diagnostic := []
  written : List Path := []
  deleted : List Path := []
  dirsAdded : List Path := []
  dirsDeleted : List Path := []
  components : List Component := []
  declarationsChanged : Bool := false
  deriving DecidableEq, Repr

namespace PassRecord

def fullBuild (pass : Nat) : PassRecord :=
  { pass, isRebuild := false, requiresFullBuild := true }

def rebuild (pass : Nat) : PassRecord :=
  { pass, isRebuild := true, requiresFullBuild := false }

def start (r : PassRecord) (now : Nat) : PassRecord :=
  if r.phase = .idle then { r with phase := .building, startedAt := some now }
    else r

def finish (r : PassRecord) (phase : Phase) (now : Nat) : PassRecord :=
  if r.phase = .building then
    { r with phase, duration := r.startedAt.map (now - ·) }
  else r

def resolve (r : PassRecord) (now : Nat) : PassRecord :=
  r.finish .resolved now

def supersede (r : PassRecord) (now : Nat) : PassRecord :=
  r.finish .superseded now

def isActive (r : PassRecord) : Bool :=
  r.phase = .building

def addDiagnostic (r : PassRecord) (d : Diagnostic) : PassRecord :=
  if r.isActive then { r with diagnostics := r.diagnostics ++ [d] } else r

def addDiagnostics (r : PassRecord) (ds : List Diagnostic) : PassRecord :=
  ds.foldl addDiagnostic r

def hasError (r : PassRecord) : Bool :=
  r.diagnostics.any (·.isError)

end PassRecord

end ComponentBuild
