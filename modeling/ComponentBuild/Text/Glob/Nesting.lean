import ComponentBuild.Text.Glob.Basic

/-!
How deeply a glob pattern nests.

Patterns that are no fixed names are matched by one matcher for a whole list of
them, which takes nothing nested more deeply than `nestingLimit`.  Braces nest
what they hold, and so do, one level each, a sequence of parts, a choice, a
repetition and a class.
-/

namespace ComponentBuild.Glob

def nestingLimit : Nat := 250

def Piece.parts : Piece → Nat
  | .trailing => 2
  | .braces [] => 0
  | _ => 1

def levelsFor (count : Nat) : Nat :=
  if count < 2 then 0 else 1

def partsOf (pieces : List Piece) : Nat :=
  pieces.foldr (fun p n => p.parts + n) 0

mutual

def Piece.nesting : Piece → Nat
  | .byte _ => 0
  | .any | .trailing => 1
  | .name => 2
  | .leading | .between => 4
  | .oneOf _ ranges => 1 + levelsFor ranges.length
  | .braces [] => 0
  | .braces (ps :: others) =>
      1 + levelsFor (1 + others.length) +
        max (levelsFor (partsOf ps) + deepest ps) (deepestOf others)

def deepest : List Piece → Nat
  | [] => 0
  | p :: ps => max p.nesting (deepest ps)

def deepestOf : List (List Piece) → Nat
  | [] => 0
  | ps :: others => max (levelsFor (partsOf ps) + deepest ps) (deepestOf others)

end

def isTooDeep (g : Glob) : Bool :=
  nestingLimit < 1 + deepest g

def Piece.isByte : Piece → Bool
  | .byte _ => true
  | _ => false

def endsInExtension (g : Glob) : Bool :=
  let isPlain : Piece → Bool
    | .byte b => b != slash && b != '.'.toUInt8
    | _ => false
  match g.reverse.dropWhile isPlain with
  | .byte b :: _ => b == '.'.toUInt8
  | _ => false

def isFixed (g : Glob) : Bool :=
  let names := match g with
    | .leading :: pieces => pieces
    | pieces => pieces
  !names.isEmpty && names.all Piece.isByte

/-- The pattern needs the matcher: it does not say where a name or its extension
has to be. -/
def needsMatcher (g : Glob) : Bool :=
  !isFixed g && !endsInExtension g

end ComponentBuild.Glob
