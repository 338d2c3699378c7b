import ComponentBuild.Config.Basic
import ComponentBuild.Text.Lines

/-!
Environment variables that override a configuration.
-/

namespace ComponentBuild

abbrev Environment := List (String × String)

namespace Config

def number64? (text : List Char) : Option Nat :=
  let digits := match text with
    | '+' :: rest => rest
    | _ => text
  if digits.isEmpty || !digits.all (·.isDigit) then none
  else
    let n := digits.foldl (fun (n : Nat) c => 10 * n + (c.toNat - 48)) 0
    if n < UInt64.size then some n else none

def overrideTimeout (value : String) (c : Config) : Config :=
  match number64? (Text.trim value.toList) with
  | some n => { c with watchTimeout := some n }
  | none => c

def overrideSource (value : String) (c : Config) : Config :=
  if value.isEmpty then c else { c with srcDir := ⟨value⟩ }

def overrideJson (value : String) (c : Config) : Config :=
  { c with json := value.toList.map Char.toLower != "false".toList &&
    value != "0" }

def withEnvironment (c : Config) (env : Environment) : Config :=
  let apply (name : String) (override : String → Config → Config) (c : Config) :
      Config :=
    match env.lookup name with
    | some value => override value c
    | none => c
  apply "HOBBES_JSON" overrideJson <|
    apply "HOBBES_SRC_DIR" overrideSource <|
      apply "HOBBES_WATCH_TIMEOUT_MS" overrideTimeout c

end Config

end ComponentBuild
