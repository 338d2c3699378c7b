import ComponentBuild.Path.Basic

/-!
Diagnostics: remarks about the sources that a build reports without stopping.
-/

namespace ComponentBuild

inductive Severity where
  | error
  | warning
  | info
  deriving DecidableEq, Repr

def Severity.label : Severity → String
  | error => "error"
  | warning => "warning"
  | info => "info"

structure Diagnostic where
  severity : Severity
  message : String
  file : Option Path := none
  deriving DecidableEq, Repr

namespace Diagnostic

def errorAt (file : Path) (message : String) : Diagnostic :=
  ⟨.error, message, some file⟩

def isError (d : Diagnostic) : Bool :=
  d.severity == .error

def display (d : Diagnostic) : String :=
  d.severity.label ++ ": " ++ d.message ++
    match d.file with
    | some file => " (" ++ file.text ++ ")"
    | none => ""

end Diagnostic

end ComponentBuild
