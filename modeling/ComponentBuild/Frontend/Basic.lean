import ComponentBuild.BuildError
import ComponentBuild.Component.Basic
import ComponentBuild.Diagnostic
import ComponentBuild.Workspace.Access

/-!
Front-ends: where the components of a project come from.

A front-end makes a unit for a project.  Each update of the unit reports any
number of snapshots, one after another, and then ends well, with an error, or by
breaking down.
-/

namespace ComponentBuild

structure EmittedFile where
  path : Path
  content : String
  deriving DecidableEq, Repr

structure Snapshot where
  /-- Grows with every snapshot of a unit. -/
  version : Nat
  components : List Component := []
  diagnostics : List Diagnostic := []
  emitted : List EmittedFile := []
  /-- Files of earlier snapshots that this one does not emit. -/
  removed : List Path := []
  deriving DecidableEq, Repr

structure ProjectRequest where
  projectFile : Path
  srcDir : Path
  outDir : Option Path := none
  deriving DecidableEq, Repr

inductive UpdateEnd where
  | done
  | failed (e : BuildError)
  | brokeDown (message : Option String)
  deriving DecidableEq, Repr

structure UpdateResult where
  snapshots : List Snapshot := []
  ending : UpdateEnd := .done
  deriving DecidableEq, Repr

structure Frontend (υ τ : Type) where
  create : ProjectRequest → τ → Except BuildError υ × τ
  /-- Reads again what changed; no paths mean everything. -/
  update : υ → List Path → τ → UpdateResult × υ × τ

end ComponentBuild
