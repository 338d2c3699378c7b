import ComponentBuild.Text.Glob.Nesting
import ComponentBuild.Text.Glob.Reader
import ComponentBuild.Text.Lines

/-!
Ignore files: which entries of a directory tree a search leaves out.

Each line is a rule.  A rule with a slash before its end is for paths from the
directory of the file on, any other for names at every depth; `!` in front keeps
what earlier rules ignore, a slash at the end means directories only, and `#`
starts a comment.  The last rule that fits decides.

A line whose pattern cannot be read is no rule but a fault of the file, and so
is a pattern that is nested too deeply; that one takes all other rules of the
file with it.
-/

namespace ComponentBuild

structure IgnoreRule where
  glob : Glob
  keeps : Bool
  dirsOnly : Bool

inductive IgnoreFault where
  | unreadable (line : Nat) (pattern : String) (cause : GlobError)
  /-- The pattern of this number is nested too deeply.  Only those count that
  need the matcher. -/
  | tooDeep (index : Nat)
  deriving DecidableEq, Repr

namespace IgnoreRule

def endsInEscapedBlank (line : List Char) : Bool :=
  [' ', '\\'].isPrefixOf line.reverse

def takeFront (front : Char) (line : List Char) : Bool × List Char :=
  match line with
  | c :: rest => if c = front then (true, rest) else (false, line)
  | [] => (false, [])

def takeBack (back : Char) (line : List Char) : Bool × List Char :=
  let (found, rest) := takeFront back line.reverse
  (found, rest.reverse)

/-- The pattern that is matched against paths, for one as it is written.  One
that ends in all that is in a directory does not fit the directory. -/
def wholePattern (anchored : Bool) (pattern : List Char) : List Char :=
  let isDeep := anchored || pattern.contains '/' || pattern == ['*', '*']
  let pattern := if isDeep then pattern else ['*', '*', '/'] ++ pattern
  if ['*', '*', '/'].isPrefixOf pattern.reverse then pattern ++ ['/', '*']
    else pattern

def ofPattern (written : List Char) : Except GlobError IgnoreRule := do
  let isEscaped :=
    ['\\', '!'].isPrefixOf written || ['\\', '#'].isPrefixOf written
  let (keeps, line) := if isEscaped then (false, written.drop 1)
    else takeFront '!' written
  let (anchored, line) := if isEscaped then (false, line) else takeFront '/' line
  let (dirsOnly, line) := takeBack '/' line
  let line := if dirsOnly then (takeBack '\\' line).2 else line
  let glob ← Glob.read (String.ofList (wholePattern anchored line))
  pure { glob, keeps, dirsOnly }

def written? (line : List Char) : Option (List Char) :=
  let written := if endsInEscapedBlank line then line else Text.trimEnd line
  if (takeFront '#' line).1 || written.isEmpty then none else some written

/-- The patterns of a file by line number.  Byte order marks at the front of the
file do not count. -/
def patterns (content : String) : List (Nat × List Char) :=
  (Text.lines (content.toList.dropWhile (· == '\ufeff'))).zipIdx.filterMap
    fun (line, index) =>
    (written? line).map (index + 1, ·)

def readable (content : String) : List IgnoreRule :=
  (patterns content).filterMap fun (_, written) => (ofPattern written).toOption

def ofContent (content : String) : List IgnoreRule :=
  let rules := readable content
  if rules.any (·.glob.isTooDeep) then [] else rules

/-- What rules say of a path below their directory: `true` to ignore it, `false`
to keep it, and `none` if no rule fits. -/
def verdict? (rules : List IgnoreRule) (path : String) (isDir : Bool) :
    Option Bool :=
  (rules.reverse.find? fun r => (!r.dirsOnly || isDir) &&
    r.glob.matchesPath path).map fun r =>
    !r.keeps

end IgnoreRule

namespace IgnoreFault

def message (file : String) : IgnoreFault → String
  | unreadable line pattern cause =>
      file ++ ": line " ++ toString line ++ ": error parsing glob '" ++
        pattern ++ "': "
        ++ cause.message
  | tooDeep index => "error parsing pattern " ++ toString index

def ofContent (content : String) : List IgnoreFault :=
  let unreadable := (IgnoreRule.patterns content).filterMap fun (line, written) =>
    match IgnoreRule.ofPattern written with
    | .ok _ => none
    | .error cause =>
        some (IgnoreFault.unreadable line (String.ofList written) cause)
  let globs := (IgnoreRule.readable content).map (·.glob)
  let tooDeep := if globs.any (·.isTooDeep) then
      [IgnoreFault.tooDeep ((globs.filter (·.needsMatcher)).findIdx
        (·.isTooDeep))]
    else []
  unreadable ++ tooDeep

end IgnoreFault

end ComponentBuild
