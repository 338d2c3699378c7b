import ComponentBuild.Config.Environment
import ComponentBuild.Config.Reader
import ComponentBuild.Storage.Disk

/-!
Which configuration a command runs with.

A file that is named is read; otherwise the file in the root directory, if there
is one; otherwise the defaults hold.  A root that is named wins over the
directory of the file, and the environment wins over both.
-/

namespace ComponentBuild

structure ProjectChoice where
  root : Option Path := none
  configFile : Option Path := none
  deriving DecidableEq, Repr

namespace Config

def fileName : String := "hobbes.toml"

def load (d : Disk) (file : Path) :
    Except BuildError (Config × List ConfigWarning) :=
  match d.readText file with
  | .error e => .error (.io e.text)
  | .ok content => ofFile file content

def choose (d : Disk) (cwd root : Path) (project : ProjectChoice) :
    Except BuildError (Config × List ConfigWarning) :=
  let inRoot := root.child fileName
  match project.configFile with
  | some file => load d (cwd.resolve file)
  | none => if d.isFile inRoot then load d inRoot
      else .ok ((({} : Config).rootedAt root), [])

def locate (d : Disk) (cwd : Path) (env : Environment) (project : ProjectChoice) :
    Except BuildError (Config × List ConfigWarning) := do
  let root := cwd.resolve (project.root.getD ⟨"."⟩)
  let (config, warnings) ← choose d cwd root project
  let config := if project.root.isSome then { config with rootDir := root }
    else config
  pure (config.withEnvironment env, warnings)

end Config

end ComponentBuild
