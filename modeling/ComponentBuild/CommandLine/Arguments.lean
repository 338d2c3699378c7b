import ComponentBuild.Config.Locate

/-!
The arguments of the command.

Options stand before the name of a command or after it; those after it belong to
the command.  An option that takes a value gets it from the same argument, after
`=` or, for a short one, right after its letter, or else from the next argument.
Such a value is looked at only when something follows it or the arguments end.
-/

namespace ComponentBuild

inductive CommandName where
  | build
  | watch
  | types
  deriving DecidableEq, Repr

def CommandName.text : CommandName → String
  | build => "build"
  | watch => "watch"
  | types => "types"

def CommandName.ofText? (s : String) : Option CommandName :=
  [build, watch, types].find? (·.text = s)

structure Invocation where
  command : CommandName
  project : ProjectChoice := {}
  /-- Milliseconds that override every delay of a watch. -/
  timeout : Option Nat := none
  json : Bool := false
  /-- How often more words were asked for, up to 255. -/
  verbosity : Nat := 0
  deriving DecidableEq, Repr

inductive UsageError where
  | helpAsked
  | versionAsked
  | nothingAsked
  | missingCommand
  | unknownCommand
  | unknownArgument
  /-- An option is without its value, or with an empty one. -/
  | missingValue
  | unexpectedValue
  /-- A value that is no number of 64 bits. -/
  | notANumber
  | repeated
  deriving DecidableEq, Repr

def UsageError.exitCode : UsageError → Nat
  | helpAsked | versionAsked => 0
  | _ => 2

namespace CommandLine

inductive Opt where
  | json
  | verbose
  | help
  | version
  | root
  | config
  | timeout
  deriving DecidableEq, Repr

namespace Opt

def takesValue : Opt → Bool
  | root | config | timeout => true
  | json | verbose | help | version => false

def long : Opt → String
  | json => "json"
  | verbose => "verbose"
  | help => "help"
  | version => "version"
  | root => "root"
  | config => "config"
  | timeout => "timeout"

def short? : Opt → Option Char
  | json | timeout => none
  | verbose => some 'v'
  | help => some 'h'
  | version => some 'V'
  | root => some 'r'
  | config => some 'c'

end Opt

/-- Where arguments stand: before the name of a command, or after it. -/
abbrev Scope := Option CommandName

def options : Scope → List Opt
  | none => [.json, .verbose, .help, .version]
  | some .watch => [.json, .verbose, .help, .root, .config, .timeout]
  | some _ => [.json, .verbose, .help, .root, .config]

structure Given where
  json : Bool := false
  verbosity : Nat := 0
  root : Option Path := none
  config : Option Path := none
  timeout : Option Nat := none
  /-- An option whose value is not stored yet, and the value if it was there. -/
  pending : Option (Opt × Option String) := none
  /-- After `--`, where no options are recognised. -/
  trailing : Bool := false
  deriving DecidableEq, Repr

namespace Given

def awaitsValue (g : Given) : Bool :=
  match g.pending with
  | some (_, none) => true
  | _ => false

def newPath (old : Option Path) (value : String) :
    Except UsageError (Option Path) :=
  if old.isSome then .error .repeated
  else if value.isEmpty then .error .missingValue
  else .ok (some ⟨value⟩)

def newNumber (old : Option Nat) (value : String) :
    Except UsageError (Option Nat) :=
  if old.isSome then .error .repeated
  else
    match Config.number64? value.toList with
    | some n => .ok (some n)
    | none => .error .notANumber

def store (g : Given) (o : Opt) (value : String) : Except UsageError Given :=
  match o with
  | .root => do pure { g with root := ← newPath g.root value }
  | .config => do pure { g with config := ← newPath g.config value }
  | .timeout => do pure { g with timeout := ← newNumber g.timeout value }
  | _ => .ok g

def settle (g : Given) : Except UsageError Given :=
  match g.pending with
  | none => .ok g
  | some (_, none) => .error .missingValue
  | some (o, some value) => { g with pending := none }.store o value

def raise (g : Given) (o : Opt) : Except UsageError Given := do
  let g ← g.settle
  match o with
  | .json => if g.json then .error .repeated else pure { g with json := true }
  | .verbose => pure { g with verbosity := min 255 (g.verbosity + 1) }
  | .help => .error .helpAsked
  | .version => .error .versionAsked
  | _ => pure g

def takeValued (g : Given) (o : Opt) (value? : Option String) :
    Except UsageError Given := do
  let g ← g.settle
  match value? with
  | some value => g.store o value
  | none => pure { g with pending := some (o, none) }

def takeLong (scope : Scope) (g : Given) (name : String)
    (value? : Option String) :
    Except UsageError Given :=
  match (options scope).find? (·.long = name) with
  | none => .error .unknownArgument
  | some o =>
      if o.takesValue then g.takeValued o value?
      else if value?.isSome then .error .unexpectedValue
      else g.raise o

/-- Takes the options with the given letters.  The first that has a value takes
the rest as it. -/
def takeShorts (scope : Scope) : List Char → Given → Except UsageError Given
  | [], g => .ok g
  | c :: rest, g =>
      match (options scope).find? (·.short? = some c) with
      | none => .error .unknownArgument
      | some o =>
          if o.takesValue then
            match rest with
            | [] => g.takeValued o none
            | '=' :: value => g.takeValued o (some (String.ofList value))
            | value => g.takeValued o (some (String.ofList value))
          else do
            let g ← g.raise o
            takeShorts scope rest g

/-- Takes an argument that names no command; `none` if it is no option and no
value. -/
def take (scope : Scope) (g : Given) (arg : String) :
    Except UsageError (Option Given) :=
  if g.trailing then .ok none
  else
    match arg.toList with
    | ['-', '-'] => .ok (some { g with trailing := true })
    | '-' :: '-' :: body =>
        let name := body.takeWhile (· != '=')
        let value? := match body.dropWhile (· != '=') with
          | _ :: value => some (String.ofList value)
          | [] => none
        (g.takeLong scope (String.ofList name) value?).map some
    | '-' :: c :: letters => (takeShorts scope (c :: letters) g).map some
    | _ =>
        match g.pending with
        | some (o, none) => .ok (some { g with pending := some (o, some arg) })
        | _ => .ok none

end Given

/-! ## The two scopes -/

def readCommand (name : CommandName) :
    List String → Given → Except UsageError Given
  | [], g => g.settle
  | arg :: rest, g => do
      match ← g.take (some name) arg with
      | some g => readCommand name rest g
      | none => .error .unknownArgument

/-- `help` shows the help of the commands that follow it: one command, or `help`
itself. -/
def readHelp : List String → UsageError
  | [] => .helpAsked
  | [name] =>
      if name = "help" ∨ (CommandName.ofText? name).isSome then .helpAsked
        else .unknownCommand
  | _ => .unknownCommand

def invocation (name : CommandName) (before after : Given) : Invocation where
  command := name
  project := ⟨after.root, after.config⟩
  timeout := after.timeout
  json := before.json || after.json
  verbosity := if after.verbosity = 0 then before.verbosity else after.verbosity

def readTop : List String → Given → Except UsageError Invocation
  | [], g =>
      if g.json || 0 < g.verbosity then .error .missingCommand
        else .error .nothingAsked
  | arg :: rest, g =>
      if g.trailing then
        if arg = "help" ∨ (CommandName.ofText? arg).isSome
          then .error .unknownArgument
        else .error .unknownCommand
      else if arg = "help" then .error (readHelp rest)
      else
        match CommandName.ofText? arg with
        | some name => do
            let after ← readCommand name rest {}
            pure (invocation name g after)
        | none => do
            match ← g.take none arg with
            | some g => readTop rest g
            | none => .error .unknownCommand

def read (args : List String) : Except UsageError Invocation :=
  readTop args {}

end CommandLine

end ComponentBuild
