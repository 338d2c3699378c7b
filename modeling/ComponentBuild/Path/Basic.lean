import ComponentBuild.Path.Part

/-!
Paths.

A path keeps the text it was written with, which is what is shown, but it is
read through its parts: the root, a leading `.`, each `..` and each name.
Repeated and trailing slashes and inner `.` segments leave no trace in the
parts.  Paths are compared part by part, the root first, then `.`, then `..`,
then names by their text.
-/

namespace ComponentBuild

structure Path where
  text : String
  deriving DecidableEq, Repr, Inhabited

namespace Path

/-! ## Reading a path -/

def segments (p : Path) : List String :=
  (splitSlashes '/' p.text.toList).map String.ofList

def segmentPart? (segment : String) : Option (PathPart String) :=
  if segment = "" ∨ segment = "." then none
  else if segment = ".." then some .up
  else some (.name segment)

/-- The parts of a path: an empty first segment before a slash is the root, and
`.` counts only as the first segment. -/
def parts (p : Path) : List (PathPart String) :=
  match p.segments with
  | "" :: second :: rest => .root :: (second :: rest).filterMap segmentPart?
  | "." :: rest => .here :: rest.filterMap segmentPart?
  | segments => segments.filterMap segmentPart?

instance : KeyOrder Path := KeyOrder.byKey parts

def isAbsolute (p : Path) : Bool :=
  p.parts.head? == some .root

def same (p q : Path) : Bool :=
  p.parts == q.parts

def isWithin (p dir : Path) : Bool :=
  dir.parts.isPrefixOf p.parts

def isEmpty (p : Path) : Bool :=
  p.text.isEmpty

def endsWith (p : Path) (ending : String) : Bool :=
  ending.toList.reverse.isPrefixOf p.text.toList.reverse

def sorted (paths : List Path) : List Path :=
  paths.mergeSort fun p q => !KeyOrder.before q p

def fileName? (p : Path) : Option String :=
  match p.parts.getLast? with
  | some (.name text) => some text
  | _ => none

/-! ## Building a path -/

/-- Appends a relative text below `base`, with a slash between them where there
is none; an absolute one replaces `base`. -/
def join (base p : Path) : Path :=
  if p.isAbsolute then p
  else if base.text.isEmpty || base.text.toList.getLast? == some '/'
    then ⟨base.text ++ p.text⟩
  else ⟨base.text ++ "/" ++ p.text⟩

def child (base : Path) (name : String) : Path :=
  base.join ⟨name⟩

def ofParts (parts : List (PathPart String)) : Path :=
  parts.foldl (fun p part => p.child part.text) ⟨""⟩

def isIdle (segment : String) : Bool :=
  segment == "" || segment == "."

def dropSegments : Nat → List String → List String
  | 0, body => body
  | _, [] => []
  | n + 1, segment :: rest =>
      if isIdle segment then dropSegments (n + 1) rest else dropSegments n rest

def trimIdle (body : List String) : List String :=
  (body.dropWhile isIdle).reverse.dropWhile isIdle |>.reverse

/-- The way from `dir` to `p` as `p` writes it, if `p` lies at or below `dir`. -/
def below? (p dir : Path) : Option Path :=
  if p.isWithin dir then
    match dir.parts, p.segments with
    | [], "" :: second :: body =>
        some ⟨"/" ++ "/".intercalate
          ((second :: body).reverse.dropWhile isIdle).reverse⟩
    | [], "." :: body =>
        some ⟨"/".intercalate ("." :: (body.reverse.dropWhile isIdle).reverse)⟩
    | [], body => some ⟨"/".intercalate (body.reverse.dropWhile isIdle).reverse⟩
    | _ :: parts, "" :: body | _ :: parts, "." :: body =>
        some ⟨"/".intercalate (trimIdle (dropSegments parts.length body))⟩
    | parts, body =>
        some ⟨"/".intercalate (trimIdle (dropSegments parts.length body))⟩
  else none

/-- The text without its last part, and without idle segments before it.  The
root and the empty path have no parent. -/
def parent (p : Path) : Option Path :=
  let shorten (body : List String) : List String :=
    ((body.reverse.dropWhile isIdle).drop 1).dropWhile isIdle |>.reverse
  let hasPart (body : List String) : Bool := body.any fun s => !isIdle s
  let write (segments : List String) : Path := ⟨"/".intercalate segments⟩
  match p.segments with
  | "" :: second :: rest =>
      let body := second :: rest
      if hasPart body then
        match shorten body with
        | [] => some ⟨"/"⟩
        | kept => some (write ("" :: kept))
      else none
  | "." :: rest =>
      if hasPart rest then some (write ("." :: shorten rest)) else some ⟨""⟩
  | body =>
      if hasPart body then some (write (shorten body)) else none

def ancestors (p : Path) : List Path :=
  go p.segments.length p
where
  go : Nat → Path → List Path
    | 0, p => [p]
    | fuel + 1, p =>
        match p.parent with
        | none => [p]
        | some q => p :: go fuel q

end Path

end ComponentBuild
