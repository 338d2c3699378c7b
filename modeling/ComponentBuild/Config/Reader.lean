import ComponentBuild.BuildError
import ComponentBuild.Config.Basic
import ComponentBuild.Config.Warning
import ComponentBuild.Toml.Document

/-!
Reading a configuration from a TOML document.

Every part of a configuration reads a value and changes what was read so far.  A
table with fixed keys may also be written as an array of its values in order.
Keys that no part reads are gathered.
-/

namespace ComponentBuild

inductive ConfigFault where
  | notToml
  | wrongValue (expected : String)
  deriving DecidableEq, Repr

def ConfigFault.message : ConfigFault → String
  | notToml => "not a TOML document"
  | wrongValue expected => "expected " ++ expected

namespace Config

structure Draft where
  config : Config := {}
  unknown : List String := []

abbrev Part := Toml.Value → Draft → Except ConfigFault Draft

namespace Part

def ofKind {α : Type} (expected : String) (kind? : Toml.Value → Option α)
    (set : α → Config → Config) : Part := fun v d =>
  match kind? v with
  | some a => .ok { d with config := set a d.config }
  | none => .error (.wrongValue expected)

def text? : Toml.Value → Option String
  | .text s => some s
  | _ => none

def path? (v : Toml.Value) : Option Path :=
  (text? v).map Path.mk

def paths? : Toml.Value → Option (List Path)
  | .array items => items.mapM path?
  | _ => none

def natural? : Toml.Value → Option Nat
  | .integer n => if 0 ≤ n then some n.toNat else none
  | _ => none

def flag? : Toml.Value → Option Bool
  | .boolean b => some b
  | _ => none

def text := ofKind "a string" text?
def path := ofKind "a path" path?
def paths := ofKind "an array of paths" paths?
def natural := ofKind "a number that is not negative" natural?
def flag := ofKind "true or false" flag?

/-- The key that stands for a date where a table is expected. -/
def momentKey : String := "$__toml_private_datetime"

def table (parts : List (String × Part)) : Part := fun v d =>
  match v with
  | .table _ pairs =>
      pairs.foldlM (fun d (key, v) =>
        match parts.lookup key with
        | some part => part v d
        | none => .ok { d with unknown := d.unknown ++ [key] }) d
  | .array items => (parts.zip items).foldlM (fun d ((_, part), v) => part v d) d
  | .tables elements =>
      (parts.zip elements).foldlM (fun d ((_, part),
        pairs) => part (.table .header pairs) d) d
  | .moment _ => .ok { d with unknown := d.unknown ++ [momentKey] }
  | _ => .error (.wrongValue "a table")

def build : Part := table
  [("root_dir", path fun p c => { c with rootDir := p }),
   ("src_dir", path fun p c => { c with srcDir := p }),
   ("tsconfig", path fun p c => { c with projectFile := p }),
   ("out_dir", path fun p c => { c with outDir := some p }),
   ("debounce_ms", natural fun n c => { c with debounce := n }),
   ("watch_timeout_ms", natural fun n c => { c with watchTimeout := some n })]

def types : Part := table
  [("runtime_module", text fun s c => { c with runtimeModule := s }),
   ("element_base", text fun s c => { c with elementBase := s }),
   ("destinations", paths fun ps c => { c with destinations := ps })]

def output : Part := table
  [("json", flag fun b c => { c with json := b })]

def whole : Part := table [("build", build), ("types", types), ("output", output)]

end Part

def lastSegment (key : String) : String :=
  String.ofList (key.toList.reverse.takeWhile (· != '.')).reverse

def ofToml (document : String) : Except ConfigFault (Config × List String) :=
  match Toml.read? document with
  | none => .error .notToml
  | some pairs => do
      let draft ← Part.whole (.table .header pairs) {}
      pure (draft.config, draft.unknown.map lastSegment)

/-- Reads the content of a file.  Relative roots are relative to the directory
of the file. -/
def ofFile (file : Path) (content : String) :
    Except BuildError (Config × List ConfigWarning) :=
  match ofToml content with
  | .error fault => .error (.invalidConfig file fault.message)
  | .ok (config, unknown) =>
      .ok (config.rootedAt (file.parent.getD ⟨"."⟩),
        unknown.map (ConfigWarning.ofKey file content))

end Config

end ComponentBuild
