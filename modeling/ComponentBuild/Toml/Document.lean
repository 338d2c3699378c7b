import ComponentBuild.Toml.Scalar

/-!
TOML documents.

A document is a sequence of lines, each with at most one statement: a pair, the
header of a table, or the header of an element of an array of tables.  The pairs
after a header belong to its table.
-/

namespace ComponentBuild.Toml

open Text Text.Reading

/-! ## Keys -/

def isBareKeyChar (c : Char) : Bool :=
  c.isAlphanum || c == '_' || c == '-'

def simpleKey : Reading String := do
  let cs ← basicString <|> literalString <|> takeWhile1 isBareKeyChar
  pure (String.ofList cs)

/-- Values are nested at most this deeply, and a key has at most as many parts. -/
def nestingLimit : Nat := 79

/-- The parts of a dotted key: the path of a table, and the key in it. -/
def dottedKey : Reading (List String × String) := do
  let parts ← separated (do blanks; let k ← simpleKey; blanks; pure k)
      (do let _ ← char '.')
  match parts.getLast? with
  | some key =>
      if parts.length ≤ nestingLimit then pure (parts.dropLast, key) else failure
  | none => failure

/-! ## Values -/

def gap : Reading Unit := do
  blanks
  let _ ← many (do let _ ← optional comment; newline; blanks)

def array (value : Reading Value) : Reading Value := do
  let _ ← char '['
  let items ← optional (do
    let items ← separated (do gap; let v ← value; gap; pure v)
        (do let _ ← char ',')
    let _ ← optional (char ',')
    pure items)
  gap
  let _ ← char ']'
  pure (.array (items.getD []))

def inlinePair (value : Reading Value) :
    Reading (List String × String × Value) := do
  let (path, key) ← dottedKey
  let _ ← char '='
  blanks
  let v ← value
  blanks
  pure (path, key, v)

def inlineTable (value : Reading Value) : Reading Value := do
  let _ ← char '\x7b'
  let written ← optional (separated (inlinePair value) (do let _ ← char ','))
  blanks
  let _ ← char '\x7d'
  let added :=
    (written.getD []).foldlM (fun pairs (path, key,
      v) => Pairs.addPair path key v pairs) []
  match added with
  | some pairs => pure (.table .inline pairs)
  | none => failure

def value : (depth : Nat) → Reading Value
  | 0 => scalar
  | depth + 1 => array (value depth) <|> inlineTable (value depth) <|> scalar

/-! ## Statements -/

inductive Statement where
  | pair (path : List String) (key : String) (value : Value)
  | table (path : List String) (key : String)
  | element (path : List String) (key : String)
  deriving Repr

def pair : Reading Statement := do
  let (path, key) ← dottedKey
  let _ ← char '='
  blanks
  let v ← value nestingLimit
  pure (.pair path key v)

def elementHeader : Reading Statement := do
  word ['[', '[']
  let (path, key) ← dottedKey
  word [']', ']']
  pure (.element path key)

def tableHeader : Reading Statement := do
  let _ ← char '['
  let (path, key) ← dottedKey
  let _ ← char ']'
  pure (.table path key)

def line : Reading (Option Statement) := do
  blanks
  let s ← optional (elementHeader <|> tableHeader <|> pair)
  blanks
  let _ ← optional comment
  pure s

def statements? (document : String) : Option (List Statement) :=
  (all? (do let _ ← optional (char '\ufeff'); separated line newline)
    document).map (·.filterMap id)

/-! ## Meaning -/

structure Progress where
  current : List String := []
  root : Pairs := []

def Progress.take (p : Progress) : Statement → Option Progress
  | .pair path key v =>
      (p.root.atHeader p.current (Pairs.addPair path key v)).map fun root =>
      { p with root }
  | .table path key =>
      (p.root.atHeader path (Pairs.openTable key)).map fun root =>
      ⟨path ++ [key], root⟩
  | .element path key =>
      (p.root.atHeader path (Pairs.openElement key)).map fun root =>
      ⟨path ++ [key], root⟩

def read? (document : String) : Option Pairs := do
  let statements ← statements? document
  let progress ← statements.foldlM Progress.take {}
  pure progress.root

end ComponentBuild.Toml
