/-!
Decimal literals with a point and an exponent, and the range of double
precision.

A literal is out of range when reading it gives infinity, and that depends on
how it is read. `isFinite` rounds the number that is written once.
`isFiniteInSteps` keeps a significand of 64 bits and rounds three times: the
significand, the power of ten, and their product.
-/

namespace ComponentBuild

structure Decimal where
  whole : List Char
  fraction : List Char := []
  exponent : Int := 0
  deriving DecidableEq, Repr

namespace Decimal

def valueFrom (n : Nat) (digits : List Char) : Nat :=
  digits.foldl (fun (n : Nat) c => 10 * n + (c.toNat - 48)) n

def isExponentMark (c : Char) : Bool :=
  c == 'e' || c == 'E'

def ofText (text : String) : Decimal :=
  let literal := text.toList
  let mantissa := (literal.takeWhile fun c => !isExponentMark c).filter (· != '-')
  let power := (literal.dropWhile fun c => !isExponentMark c).drop 1
  let size : Int := valueFrom 0 (power.filter (·.isDigit))
  { whole := mantissa.takeWhile (· != '.')
    fraction := (mantissa.dropWhile (· != '.')).drop 1
    exponent := if power.head? == some '-' then -size else size }

def overflowBound : Nat :=
  Nat.pow 2 1024 - Nat.pow 2 970

/-! ## Rounding once -/

def isFinite (d : Decimal) : Bool :=
  let significant := (d.whole ++ d.fraction).dropWhile (· == '0')
  let scale : Int := d.exponent - (d.fraction.length : Int)
  let magnitude : Int := (significant.length : Int) + scale
  if significant.isEmpty || magnitude < 300 then true
  else if 310 < magnitude then false
  else
    let n := valueFrom 0 significant
    if 0 ≤ scale then n * Nat.pow 10 scale.toNat < overflowBound
    else n < overflowBound * Nat.pow 10 (-scale).toNat

/-! ## Rounding in steps -/

/-- The nearest number with 53 significant bits; of two, the even one. -/
def toDouble (n : Nat) : Nat :=
  let unit := Nat.pow 2 (n.log2 + 1 - 53)
  let below := n / unit
  let rest := n % unit
  let isUp := unit < 2 * rest || (unit == 2 * rest && below % 2 == 1)
  (if isUp then below + 1 else below) * unit

/-- Appends digits to a number of 64 bits as long as they fit, and gives the
digits from the first on for which there is no room. -/
def appendFitting (n : Nat) : List Char → Nat × List Char
  | [] => (n, [])
  | c :: digits =>
      let next := valueFrom n [c]
      if next < UInt64.size then appendFitting next digits else (n, c :: digits)

/-- The significand of 64 bits, and the power of ten for it.  Digits without
room count by their place in the whole part and not at all in the fraction. -/
def significandAndScale (d : Decimal) : Nat × Int :=
  let (n, dropped) := appendFitting 0 d.whole
  let (n, lost) := appendFitting n d.fraction
  (n, d.exponent + (dropped.length : Int) -
    ((d.fraction.length : Int) - (lost.length : Int)))

/-- The product of the rounded significand and the rounded power of ten is below
the bound.  No power above `10 ^ 308` is a double, and division makes nothing
infinite. -/
def isFiniteInSteps (d : Decimal) : Bool :=
  let (n, scale) := d.significandAndScale
  if n == 0 || scale < 0 then true
  else if 308 < scale then false
  else toDouble n * toDouble (Nat.pow 10 scale.toNat) < overflowBound

end Decimal

end ComponentBuild
