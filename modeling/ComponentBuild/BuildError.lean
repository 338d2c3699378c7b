import ComponentBuild.Path.Basic
import ComponentBuild.Text.Printable

/-!
The errors that end a build or a command.
-/

namespace ComponentBuild

inductive BuildError where
  | io (text : String)
  | invalidConfig (file : Path) (detail : String)
  | passFailed (message : String)
  | triggerFailed (message : String)
  /-- A result arrived after the first one. -/
  | lateResult (pass : Nat)
  /-- Nobody is left who could produce a result. -/
  | aborted
  | watch (path : Path) (message : String)
  deriving DecidableEq, Repr

namespace BuildError

def message : BuildError → String
  | io text => "IO error: " ++ text
  | invalidConfig file detail =>
      "invalid config in " ++ file.text ++ ": " ++ detail
  | passFailed message => "build failed: " ++ message
  | triggerFailed message => "build trigger failed: " ++ message
  | lateResult pass =>
      "build result already completed; late completion from pass #" ++
        toString pass ++ " rejected"
  | aborted => "build aborted before a result was produced"
  | watch path message => "watch error on " ++ path.text ++ ": " ++ message

def ofBreakdown (message : Option String) : BuildError :=
  triggerFailed (message.getD "build trigger panicked")

/-- A character of a path in a quoted list.  A backslash stands before quotes of
either kind and before itself, and a character that shows no shape of its own is
written by its number. -/
def quotedChar (c : Char) : List Char :=
  if c = '"' ∨ c = '\x27' ∨ c = '\\' then ['\\', c]
  else if c = '\n' then ['\\', 'n']
  else if c = '\r' then ['\\', 'r']
  else if c = '\t' then ['\\', 't']
  else if c = '\x00' then ['\\', '0']
  else if Text.isPrintable c then [c]
  else ['\\', 'u', '\x7b'] ++ Nat.toDigits 16 c.toNat ++ ['\x7d']

def quoted (p : Path) : String :=
  "\"" ++ String.ofList (p.text.toList.flatMap quotedChar) ++ "\""

def ofWatcher (text : String) (paths : List Path) : BuildError :=
  let listed := ", ".intercalate (paths.map quoted)
  let about := if paths.isEmpty then "" else " about [" ++ listed ++ "]"
  watch (paths.headD ⟨""⟩) (text ++ about)

end BuildError

end ComponentBuild
