/-!
Glob patterns for relative paths.

A pattern is a list of pieces that together have to fit all bytes of a path.
`?` and `*` stay within a name, `**` spans names, brackets hold a class of bytes
and braces hold alternatives.

A path of `n` bytes has `n + 1` places: before each byte and at the end.  A
piece turns the places at which it may start into those at which it may end, so
a pattern fits if the end of the path is among the places reached from its
front.
-/

namespace ComponentBuild

namespace Glob

inductive Piece where
  | byte (b : UInt8)
  | any
  | name
  /-- Nothing, or everything up to a slash. -/
  | leading
  | trailing
  /-- A slash, or everything from one slash to a later one. -/
  | between
  | oneOf (negated : Bool) (ranges : List (UInt8 × UInt8))
  /-- One of the alternatives; nothing if there are none. -/
  | braces (alternatives : List (List Piece))

end Glob

abbrev Glob := List Glob.Piece

namespace Glob

def slash : UInt8 := '/'.toUInt8

/-! ## Places -/

/-- For each place in a text, whether it is reached. -/
abbrev Places := List Bool

def afterByte (ok : UInt8 → Bool) (text : List UInt8) (reached : Places) :
    Places :=
  false :: List.zipWith (fun b here => here && ok b) text reached

/-- The places after any number of bytes that have the property.  `isOpen` says
that such a run comes from before the text. -/
def afterRun (ok : UInt8 → Bool) (isOpen : Bool) : List UInt8 → Places → Places
  | _, [] => []
  | [], here :: _ => [here || isOpen]
  | b :: text, here :: reached =>
      (here || isOpen) :: afterRun ok ((here || isOpen) && ok b) text reached

def union (a b : Places) : Places :=
  List.zipWith (· || ·) a b

def afterSlash (text : List UInt8) (reached : Places) : Places :=
  afterByte (· == slash) text reached

def afterAnything (text : List UInt8) (reached : Places) : Places :=
  afterRun (fun _ => true) false text reached

def hereOrAfterSlash (text : List UInt8) (reached : Places) : Places :=
  union reached (afterSlash text (afterAnything text reached))

/-! ## Matching -/

def inClass (negated : Bool) (ranges : List (UInt8 × UInt8)) (b : UInt8) : Bool :=
  (ranges.any fun (low, high) => low ≤ b && b ≤ high) != negated

mutual

def Piece.ends (text : List UInt8) (reached : Places) : Piece → Places
  | .byte b => afterByte (· == b) text reached
  | .any => afterByte (· != slash) text reached
  | .name => afterRun (· != slash) false text reached
  | .leading => hereOrAfterSlash text reached
  | .trailing => afterAnything text (afterSlash text reached)
  | .between => hereOrAfterSlash text (afterSlash text reached)
  | .oneOf negated ranges => afterByte (inClass negated ranges) text reached
  | .braces [] => reached
  | .braces (pieces :: others) =>
      union (endsOfAll text reached pieces) (endsOfAny text reached others)

def endsOfAll (text : List UInt8) (reached : Places) : List Piece → Places
  | [] => reached
  | p :: ps => endsOfAll text (p.ends text reached) ps

def endsOfAny (text : List UInt8) (reached : Places) : List (List Piece) → Places
  | [] => reached.map fun _ => false
  | ps :: others =>
      union (endsOfAll text reached ps) (endsOfAny text reached others)

end

def fits (pieces : List Piece) (text : List UInt8) : Bool :=
  (endsOfAll text (true :: text.map fun _ => false) pieces).getLast? == some true

/-- `**` alone fits everything. -/
def matchesPath (g : Glob) (path : String) : Bool :=
  match g with
  | [.leading] => true
  | _ => fits g path.toUTF8.toList

end Glob

end ComponentBuild
