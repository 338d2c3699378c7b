import ComponentBuild.Text.Glob.Basic

/-!
Reading a glob pattern.

A backslash takes the next character as it is.  Braces may be nested, and
alternatives in them that hold nothing do not count.  A bracket that nothing
closes stands for itself, as do all that follow.
-/

namespace ComponentBuild

inductive GlobError where
  | unopenedBraces
  | unclosedBraces
  | reversedRange (low high : Char)
  | nothingEscaped
  deriving DecidableEq, Repr

def GlobError.message : GlobError → String
  | unopenedBraces =>
      "unopened alternate group; missing '\x7b' (maybe escape '\x7d' with '[\x7d]'?)"
  | unclosedBraces =>
      "unclosed alternate group; missing '\x7d' (maybe escape '\x7b' with '[\x7b]'?)"
  | reversedRange low high =>
      "invalid range; '" ++ String.singleton low ++ "' > '" ++
        String.singleton high ++ "'"
  | nothingEscaped => "dangling '\\'"

namespace Glob

/-- Braces that are still open: the pieces before them, last one first, and
their alternatives so far. -/
structure Open where
  before : List Piece
  alternatives : List (List Piece) := []

structure Progress where
  opened : List Open := []
  /-- The pieces since the last opening brace or comma, last one first. -/
  current : List Piece := []
  last : Option Char := none
  bracketOpen : Bool := false

def push (p : Progress) (piece : Piece) : Progress :=
  { p with current := piece :: p.current }

def bytesOf (c : Char) : List UInt8 :=
  (String.singleton c).toUTF8.toList

def pushChar (p : Progress) (c : Char) : Progress :=
  (bytesOf c).foldl (fun p b => push p (.byte b)) p

/-! ## Braces -/

def openBrace (p : Progress) : Progress :=
  { p with opened := { before := p.current } :: p.opened, current := [] }

def endAlternative (p : Progress) (o : Open) : List (List Piece) :=
  o.alternatives ++ [p.current.reverse]

def comma (p : Progress) : Progress :=
  match p.opened with
  | [] => pushChar p ','
  | o :: opened =>
      { p with opened := { o with alternatives := endAlternative p o } ::
        opened, current := [] }

def Piece.isNothing : Piece → Bool
  | .braces [] => true
  | _ => false

def closeBrace (p : Progress) : Except GlobError Progress :=
  match p.opened with
  | [] => .error .unopenedBraces
  | o :: opened =>
      let found :=
        (endAlternative p o).filter fun pieces => !pieces.all Piece.isNothing
      .ok { p with opened, current := .braces found :: o.before }

/-! ## Stars -/

/-- Two stars, with the text after them: they span names where slashes or the
ends stand around them, and are two single stars elsewhere. -/
def doubleStar (p : Progress) (rest : List Char) : Progress × List Char :=
  let plain := (push (push p .name) .name, rest)
  if p.current.isEmpty then
    match rest with
    | [] => (push p .leading, [])
    | '/' :: rest => (push p .leading, rest)
    | _ => plain
  else if p.last ≠ some '/' ∧ (p.opened.isEmpty ∨
    (p.last ≠ some ',' ∧ p.last ≠ some '{')) then plain
  else
    let replaceLast (piece : Piece) : Progress :=
      { p with current := match p.current with
        | .leading :: pieces => .leading :: pieces
        | .trailing :: pieces => .trailing :: pieces
        | pieces => piece :: pieces.drop 1 }
    match rest with
    | [] => (replaceLast .trailing, [])
    | '/' :: rest => (replaceLast .between, rest)
    | c :: _ =>
        if (c = ',' ∨ c = '}') ∧ !p.opened.isEmpty then (replaceLast .trailing,
          rest) else plain

/-! ## Classes -/

def byteRanges (low high : Char) : List (UInt8 × UInt8) :=
  let one (b : UInt8) := (b, b)
  if low = high then (bytesOf low).map one
  else
    let lows := bytesOf low
    let highs := bytesOf high
    lows.dropLast.map one ++ [(lows.getLastD 0, highs.headD 0)] ++
      (highs.drop 1).map one

/-- Reads a class after its opening bracket; `none` if nothing closes it.
`ranged` says that a dash waits for its end. -/
def readClass (first ranged : Bool) (ranges : List (Char × Char)) :
    List Char → Except GlobError (Option (List (Char × Char) × List Char))
  | [] => .ok none
  | c :: rest =>
      if c = ']' ∧ !first then
        .ok (some (if ranged then ranges ++ [('-', '-')] else ranges, rest))
      else if c = '-' ∧ !first ∧ !ranged then readClass false true ranges rest
      else if ranged then
        let low := (ranges.getLast?.map (·.1)).getD c
        if c < low then .error (.reversedRange low c)
        else readClass false false (ranges.dropLast ++ [(low, c)]) rest
      else readClass false false (ranges ++ [(c, c)]) rest

/-! ## Patterns -/

def take (p : Progress) (c : Char) (rest : List Char) :
    Except GlobError (Progress × List Char) :=
  match c with
  | '?' => .ok (push p .any, rest)
  | '*' =>
      match rest with
      | '*' :: rest => .ok (doubleStar p rest)
      | _ => .ok (push p .name, rest)
  | '[' =>
      if p.bracketOpen then .ok (pushChar p '[', rest)
      else
        let (negated, body) := match rest with
          | '!' :: body | '^' :: body => (true, body)
          | _ => (false, rest)
        match readClass true false [] body with
        | .ok (some (ranges, rest)) =>
            .ok (push p (.oneOf negated (ranges.flatMap fun (low,
              high) => byteRanges low high)), rest)
        | .ok none => .ok ({ pushChar p '[' with bracketOpen := true }, rest)
        | .error e => .error e
  | '{' => .ok (openBrace p, rest)
  | '}' => (closeBrace p).map (·, rest)
  | ',' => .ok (comma p, rest)
  | '\\' =>
      match rest with
      | [] => .error .nothingEscaped
      | c :: rest => .ok (pushChar p c, rest)
  | c => .ok (pushChar p c, rest)

def readFrom : (fuel : Nat) → Progress → List Char → Except GlobError Progress
  | 0, p, _ => .ok p
  | _, p, [] => .ok p
  | fuel + 1, p, c :: rest => do
      let (p, after) ← take p c rest
      let taken := (c :: rest).take (rest.length + 1 - after.length)
      readFrom fuel { p with last := taken.getLast? } after

def read (pattern : String) : Except GlobError Glob := do
  let p ← readFrom pattern.toList.length {} pattern.toList
  if p.opened.isEmpty then pure p.current.reverse else .error .unclosedBraces

end Glob

end ComponentBuild
