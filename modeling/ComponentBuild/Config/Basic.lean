import ComponentBuild.Path.Normal

/-!
The configuration of a project.  Delays are in milliseconds.
-/

namespace ComponentBuild

structure Config where
  rootDir : Path := ⟨"."⟩
  srcDir : Path := ⟨"src"⟩
  projectFile : Path := ⟨"tsconfig.json"⟩
  /-- Where emitted files go; without it nothing is emitted. -/
  outDir : Option Path := none
  debounce : Nat := 100
  /-- Overrides every delay, zero included. -/
  watchTimeout : Option Nat := none
  runtimeModule : String := "@hobbes/core"
  elementBase : String := "HTMLHobbesElement"
  /-- More directories that get a public copy of the declarations. -/
  destinations : List Path := []
  json : Bool := false
  deriving DecidableEq, Repr

namespace Config

def rootedAt (c : Config) (base : Path) : Config :=
  { c with rootDir := Path.resolve base c.rootDir }

/-! ## The paths and delays in force -/

def sourceDir (c : Config) : Path :=
  Path.resolve c.rootDir c.srcDir

def projectPath (c : Config) : Path :=
  Path.resolve c.rootDir c.projectFile

def outputDir (c : Config) : Option Path :=
  c.outDir.map (Path.resolve c.rootDir)

def typeDestinations (c : Config) : List Path :=
  c.destinations.map (Path.resolve c.rootDir)

def changeDelay (c : Config) : Nat :=
  c.watchTimeout.getD c.debounce

def initialDelay (c : Config) : Nat :=
  c.watchTimeout.getD 0

end Config

end ComponentBuild
