/-!
Values of TOML and the rules by which tables grow.

The pairs of a table keep the order in which they were written.  A table knows
how it came about, because that decides what may still be added to it: dotted
keys add to tables that dotted keys or longer headers made, headers to every
table but an inline one.
-/

namespace ComponentBuild.Toml

inductive Origin where
  | inline
  | header
  /-- It is named in the headers of tables inside it only. -/
  | implied
  | dotted
  deriving DecidableEq, Repr

inductive Value where
  | text (value : String)
  | integer (value : Int)
  | float (literal : String)
  | boolean (value : Bool)
  | moment (literal : String)
  | array (items : List Value)
  | table (origin : Origin) (pairs : List (String × Value))
  | tables (elements : List (List (String × Value)))
  deriving Repr, Inhabited

abbrev Pairs := List (String × Value)

namespace Pairs

def replace (pairs : Pairs) (key : String) (v : Value) : Pairs :=
  pairs.map fun (k, w) => if k = key then (k, v) else (k, w)

def erase (pairs : Pairs) (key : String) : Pairs :=
  pairs.filter (·.1 != key)

/-- Changes the table `key`, which is made if there is none; of an array of
tables the last one is meant.  `enters` says which tables may be entered, with
`none` for an element of an array. -/
def inside (made : Origin) (enters : Option Origin → Bool) (key : String)
    (change : Pairs → Option Pairs) (pairs : Pairs) : Option Pairs :=
  match pairs.lookup key with
  | none => (change []).map fun inner => pairs ++ [(key, .table made inner)]
  | some (.table origin inner) =>
      if enters (some origin) then
        (change inner).map fun inner => pairs.replace key (.table origin inner)
      else none
  | some (.tables elements) =>
      if enters none then
        (change (elements.getLast?.getD [])).map fun inner =>
          pairs.replace key (.tables (elements.dropLast ++ [inner]))
      else none
  | some _ => none

def addPair : (path : List String) → (key : String) → Value → Pairs → Option Pairs
  | [], key, v, pairs => if (pairs.lookup key).isSome then none
      else some (pairs ++ [(key, v)])
  | k :: path, key, v, pairs =>
      let enters (o : Option Origin) : Bool :=
        if path.isEmpty then o == some .dotted
          else o != some .header && o != some .inline
      pairs.inside .dotted enters k (addPair path key v)

def atHeader :
    (path : List String) → (Pairs → Option Pairs) → Pairs → Option Pairs
  | [], change, pairs => change pairs
  | k :: path, change, pairs =>
      pairs.inside .implied (· != some .inline) k (atHeader path change)

def openTable (key : String) (pairs : Pairs) : Option Pairs :=
  match pairs.lookup key with
  | none => some (pairs ++ [(key, .table .header [])])
  | some (.table .implied inner) =>
      some (pairs.erase key ++ [(key, .table .header inner)])
  | some _ => none

def openElement (key : String) (pairs : Pairs) : Option Pairs :=
  match pairs.lookup key with
  | none => some (pairs ++ [(key, .tables [[]])])
  | some (.tables elements) =>
      some (pairs.replace key (.tables (elements ++ [[]])))
  | some _ => none

end Pairs

end ComponentBuild.Toml
