import ComponentBuild.Json.Token

/-!
Reading a JSON value.

The reader goes through the tokens once, with a stack of the arrays and objects
that are still open. A text is accepted if the reader has exactly one value at
its end.
-/

namespace ComponentBuild

namespace Json

/-- An array or object that is still open, its items with the last one first. -/
inductive Frame where
  | array (items : List Json)
  | object (fields : List (Option String × Json))
  | field (fields : List (Option String × Json)) (key : Option String)
  deriving Repr

inductive Expected where
  | value
  | valueOrClose
  | key
  | keyOrClose
  | colon
  | commaOrClose
  deriving DecidableEq, Repr

inductive Reader where
  | inside (stack : List Frame) (expected : Expected)
  | finished (value : Json)
  deriving Repr

namespace Reader

def start : Reader := inside [] .value

def closeObject (fields : List (Option String × Json)) : Json :=
  match fields.reverse.mapM fun (key, value) => key.map (·, value) with
  | some fields => .object fields
  | none => .unusable

def deliver (stack : List Frame) (v : Json) : Option Reader :=
  match stack with
  | [] => some (finished v)
  | .array items :: rest =>
      some (inside (.array (v :: items) :: rest) .commaOrClose)
  | .field fields key :: rest =>
      some (inside (.object ((key, v) :: fields) :: rest) .commaOrClose)
  | .object _ :: _ => none

def takeValue (stack : List Frame) : Token → Option Reader
  | .openBrace => some (inside (.object [] :: stack) .keyOrClose)
  | .openBracket => some (inside (.array [] :: stack) .valueOrClose)
  | .literal v => deliver stack v
  | .string (some s) => deliver stack (.text s)
  | .string none => deliver stack .unusable
  | _ => none

def takeClose : List Frame → Token → Option Reader
  | .array items :: rest, .closeBracket => deliver rest (.array items.reverse)
  | .object fields :: rest, .closeBrace => deliver rest (closeObject fields)
  | _, _ => none

def takeKey : List Frame → Token → Option Reader
  | .object fields :: rest, .string key =>
      some (inside (.field fields key :: rest) .colon)
  | _, _ => none

def takeComma : List Frame → Option Reader
  | stack@(.array _ :: _) => some (inside stack .value)
  | stack@(.object _ :: _) => some (inside stack .key)
  | _ => none

def step (r : Reader) (t : Token) : Option Reader :=
  match r with
  | finished _ => none
  | inside stack .value => takeValue stack t
  | inside stack .valueOrClose => takeClose stack t <|> takeValue stack t
  | inside stack .key => takeKey stack t
  | inside stack .keyOrClose => takeClose stack t <|> takeKey stack t
  | inside stack .colon =>
      match t with
      | .colon => some (inside stack .value)
      | _ => none
  | inside stack .commaOrClose =>
      match t with
      | .comma => takeComma stack
      | _ => takeClose stack t

end Reader

def read? (s : String) : Option Json := do
  let tokens ← Token.ofText? s
  match ← tokens.foldlM Reader.step Reader.start with
  | .finished v => some v
  | .inside _ _ => none

def isWellFormed (s : String) : Bool :=
  match read? s with
  | some v => v.isReadable 0
  | none => false

end Json

end ComponentBuild
