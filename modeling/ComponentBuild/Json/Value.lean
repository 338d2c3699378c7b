import ComponentBuild.Decimal

/-!
JSON values.

A number keeps its literal, so nothing of it is lost, and an object keeps its
fields in the order in which they were written.  A string whose escapes name
half of a surrogate pair is well formed but names no text; such a string, and an
object with such a key, is `unusable`: it may be skipped over but not read.
-/

namespace ComponentBuild

inductive Json where
  | null
  | bool (value : Bool)
  | number (literal : String)
  | text (value : String)
  | array (items : List Json)
  | object (fields : List (String × Json))
  | unusable
  deriving Repr, Inhabited

namespace Json

def ofNat (n : Nat) : Json :=
  number (toString n)

def ofOption {α : Type} (encode : α → Json) : Option α → Json
  | none => null
  | some a => encode a

def items : Json → List Json
  | array items => items
  | _ => []

def fields : Json → List (String × Json)
  | object fields => fields
  | _ => []

/-- The first value of a field; `null` where there is none. -/
def field (v : Json) (name : String) : Json :=
  (v.fields.lookup name).getD null

def isNull : Json → Bool
  | null => true
  | _ => false

def occurrences (fields : List (String × Json)) (name : String) : List Json :=
  fields.filterMap fun (key, value) => if key = name then some value else none

/-! ## Depth -/

mutual

def depth : Json → Nat
  | array items => itemsDepth items + 1
  | object fields => fieldsDepth fields + 1
  | _ => 0

def itemsDepth : List Json → Nat
  | [] => 0
  | v :: rest => max v.depth (itemsDepth rest)

def fieldsDepth : List (String × Json) → Nat
  | [] => 0
  | (_, v) :: rest => max v.depth (fieldsDepth rest)

end

mutual

/-- Every string in the value names a text and every number is in range. -/
def isUsable : Json → Bool
  | unusable => false
  | number literal => (Decimal.ofText literal).isFiniteInSteps
  | array items => itemsUsable items
  | object fields => fieldsUsable fields
  | _ => true

def itemsUsable : List Json → Bool
  | [] => true
  | v :: rest => v.isUsable && itemsUsable rest

def fieldsUsable : List (String × Json) → Bool
  | [] => true
  | (_, v) :: rest => v.isUsable && fieldsUsable rest

end

/-- Values are nested at most this deeply where they are read in full. -/
def depthLimit : Nat := 127

/-- A value that can be read in full inside `outer` further arrays and objects. -/
def isReadable (outer : Nat) (v : Json) : Bool :=
  v.isUsable && v.depth + outer ≤ depthLimit

end Json

end ComponentBuild
