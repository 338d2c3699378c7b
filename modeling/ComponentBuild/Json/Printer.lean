import ComponentBuild.Json.Value

/-!
Writing a JSON value, on one line or indented by two blanks a level.

Quotes, backslashes and control characters are escaped, by a letter where there
is one and otherwise by their code; all other characters stand as they are.
-/

namespace ComponentBuild

namespace Json

def escapeChar (c : Char) : List Char :=
  if c = '"' then ['\\', '"']
  else if c = '\\' then ['\\', '\\']
  else if c = '\n' then ['\\', 'n']
  else if c = '\t' then ['\\', 't']
  else if c = '\r' then ['\\', 'r']
  else if c = '\x08' then ['\\', 'b']
  else if c = '\x0c' then ['\\', 'f']
  else if c.toNat < 32 then
    ['\\', 'u', '0', '0', Nat.digitChar (c.toNat / 16),
      Nat.digitChar (c.toNat % 16)]
  else [c]

def quote (s : String) : List Char :=
  '"' :: s.toList.flatMap escapeChar ++ ['"']

mutual

def compactChars : Json → List Char
  | null => "null".toList
  | bool value => (if value then "true" else "false").toList
  | number literal => literal.toList
  | text value => quote value
  | array items => '[' :: compactItems items ++ [']']
  | object fields => '{' :: compactFields fields ++ ['}']
  | unusable => "null".toList

def compactItems : List Json → List Char
  | [] => []
  | [v] => compactChars v
  | v :: rest => compactChars v ++ ',' :: compactItems rest

def compactFields : List (String × Json) → List Char
  | [] => []
  | [(key, v)] => quote key ++ ':' :: compactChars v
  | (key, v) :: rest =>
      quote key ++ ':' :: compactChars v ++ ',' :: compactFields rest

end

def compact (v : Json) : String :=
  String.ofList (compactChars v)

def indent (level : Nat) : List Char :=
  '\n' :: List.replicate (2 * level) ' '

mutual

def prettyChars (level : Nat) : Json → List Char
  | array [] => "[]".toList
  | array items => '[' :: prettyItems (level + 1) items ++ indent level ++ [']']
  | object [] => "\x7b\x7d".toList
  | object fields =>
      '{' :: prettyFields (level + 1) fields ++ indent level ++ ['}']
  | null => "null".toList
  | bool value => (if value then "true" else "false").toList
  | number literal => literal.toList
  | text value => quote value
  | unusable => "null".toList

def prettyItems (level : Nat) : List Json → List Char
  | [] => []
  | [v] => indent level ++ prettyChars level v
  | v :: rest =>
      indent level ++ prettyChars level v ++ ',' :: prettyItems level rest

def prettyFields (level : Nat) : List (String × Json) → List Char
  | [] => []
  | [(key, v)] => indent level ++ quote key ++ ':' :: ' ' :: prettyChars level v
  | (key, v) :: rest =>
      indent level ++ quote key ++ ':' :: ' ' :: prettyChars level v
        ++ ',' :: prettyFields level rest

end

def pretty (v : Json) : String :=
  String.ofList (prettyChars 0 v)

def sortedObject (fields : List (String × Json)) : Json :=
  object (fields.mergeSort fun a b => !decide (b.1 < a.1))

end Json

end ComponentBuild
