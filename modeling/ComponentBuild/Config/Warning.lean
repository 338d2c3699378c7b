import ComponentBuild.Path.Basic
import ComponentBuild.Text.EditDistance
import ComponentBuild.Text.Lines

/-!
Warnings about keys of a configuration file that mean nothing.

A warning names the first line in which the key occurs and the known key that is
meant, if one is at most two edits of a byte away.
-/

namespace ComponentBuild

structure ConfigWarning where
  key : String
  file : Path
  /-- Counted from one. -/
  line : Option Nat := none
  suggestion : Option String := none
  deriving DecidableEq, Repr

namespace ConfigWarning

def display (w : ConfigWarning) : String :=
  "unknown key \x60" ++ w.key ++ "\x60 in " ++ w.file.text
    ++ (w.line.elim "" fun n => ":" ++ toString n)
    ++ (w.suggestion.elim "" fun s => " (did you mean \x60" ++ s ++ "\x60?)")

def knownKeys : List String :=
  ["build", "root_dir", "src_dir", "tsconfig", "out_dir", "debounce_ms",
    "watch_timeout_ms",
    "types", "runtime_module", "element_base", "destinations", "output", "json"]

def keyDistance (a b : String) : Nat :=
  Text.editDistance a.toUTF8.toList b.toUTF8.toList

def nearest? (key : String) (candidates : List String) : Option (String × Nat) :=
  candidates.foldl (fun best candidate =>
    let distance := keyDistance key candidate
    match best with
    | some (_, least) => if distance < least then some (candidate, distance)
        else best
    | none => some (candidate, distance)) none

def suggestionFor (key : String) : Option String :=
  match nearest? key knownKeys with
  | some (candidate, distance) => if distance ≤ 2 then some candidate else none
  | none => none

def lineOf? (content key : String) : Option Nat :=
  ((Text.lines content.toList).findIdx? (Text.occursIn key.toList)).map (· + 1)

def ofKey (file : Path) (content key : String) : ConfigWarning where
  key := key
  file := file
  line := lineOf? content key
  suggestion := suggestionFor key

end ConfigWarning

end ComponentBuild
