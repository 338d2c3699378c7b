import ComponentBuild.Json.Value

/-!
The tokens of a JSON text: punctuation, and the values that are no arrays or
objects.  Blanks are space, tab, line feed and carriage return.
-/

namespace ComponentBuild

namespace Json

inductive Token where
  | openBrace
  | closeBrace
  | openBracket
  | closeBracket
  | comma
  | colon
  | literal (value : Json)
  /-- A string; `none` if it names no text. -/
  | string (value : Option String)
  deriving Repr

namespace Token

def isBlank (c : Char) : Bool :=
  c == ' ' || c == '\n' || c == '\t' || c == '\r'

/-! ## Strings -/

def hexDigit? (c : Char) : Option Nat :=
  if c.isDigit then some (c.toNat - 48)
  else if 'a' ≤ c && c ≤ 'f' then some (c.toNat - 87)
  else if 'A' ≤ c && c ≤ 'F' then some (c.toNat - 55)
  else none

def codeUnit? : List Char → Option (Nat × List Char)
  | a :: b :: c :: d :: rest => do
      let a ← hexDigit? a
      let b ← hexDigit? b
      let c ← hexDigit? c
      let d ← hexDigit? d
      pure (((a * 16 + b) * 16 + c) * 16 + d, rest)
  | _ => none

private theorem codeUnit?_length {input rest : List Char} {n : Nat}
    (h : codeUnit? input = some (n, rest)) : rest.length < input.length := by
  unfold codeUnit? at h
  split at h
  · rename_i a b c d tail
    cases ha : hexDigit? a <;> cases hb : hexDigit? b <;> cases hc :
      hexDigit? c <;>
      cases hd : hexDigit? d <;> simp_all
    omega
  · simp at h

def isHighHalf (n : Nat) : Bool := 0xd800 ≤ n && n < 0xdc00

def isLowHalf (n : Nat) : Bool := 0xdc00 ≤ n && n < 0xe000

/-- The character that an escape names, `none` for half of a pair, and the rest.
The text starts after the backslash. -/
def escape? : List Char → Option (Option Char × List Char)
  | '"' :: rest => some (some '"', rest)
  | '\\' :: rest => some (some '\\', rest)
  | '/' :: rest => some (some '/', rest)
  | 'b' :: rest => some (some '\x08', rest)
  | 'f' :: rest => some (some '\x0c', rest)
  | 'n' :: rest => some (some '\n', rest)
  | 'r' :: rest => some (some '\r', rest)
  | 't' :: rest => some (some '\t', rest)
  | 'u' :: digits =>
      match codeUnit? digits with
      | none => none
      | some (high, rest) =>
          if isHighHalf high then
            match rest with
            | '\\' :: 'u' :: lowDigits =>
                match codeUnit? lowDigits with
                | some (low, rest') =>
                    if isLowHalf low then
                      let n := 0x10000 + (high - 0xd800) * 0x400 + (low - 0xdc00)
                      some (some (Char.ofNat n), rest')
                    else some (none, rest)
                | none => some (none, rest)
            | _ => some (none, rest)
          else if isLowHalf high then some (none, rest)
          else some (some (Char.ofNat high), rest)
  | _ => none

theorem escape?_length {input rest : List Char} {c : Option Char}
    (h : escape? input = some (c, rest)) : rest.length < input.length := by
  unfold escape? at h
  split at h
  all_goals try (simp only [Option.some.injEq, Prod.mk.injEq] at h; simp [← h.2])
  · rename_i digits
    split at h
    · simp at h
    · rename_i high rest₁ hhigh
      have hlen := codeUnit?_length hhigh
      simp only [List.length_cons]
      split at h
      · split at h
        · rename_i lowDigits
          split at h
          · rename_i low rest₂ hlow
            have hlen' := codeUnit?_length hlow
            simp only [List.length_cons] at hlen
            split at h <;> simp only [Option.some.injEq, Prod.mk.injEq] at h <;>
              simp only [← h.2, List.length_cons] <;> omega
          · simp only [Option.some.injEq, Prod.mk.injEq] at h
            simp only [← h.2]
            omega
        · simp only [Option.some.injEq, Prod.mk.injEq] at h
          simp only [← h.2]
          omega
      · split at h <;> simp only [Option.some.injEq, Prod.mk.injEq] at h <;>
          simp only [← h.2] <;> omega
  · simp at h

/-- The text of a string after its opening quote, and what follows the closing
one.  The text is `none` once an escape names no character; a control character
is refused. -/
def string? : List Char → Option (Option (List Char) × List Char)
  | [] => none
  | c :: rest =>
      if c = '"' then some (some [], rest)
      else if c = '\\' then
        match h : escape? rest with
        | none => none
        | some (e, rest') =>
            have := escape?_length h
            (string? rest').map fun (s, after) =>
              (e.bind fun c => s.map (c :: ·), after)
      else if c.toNat < 32 then none
      else (string? rest).map fun (s, after) => (s.map (c :: ·), after)
termination_by s => s.length
decreasing_by
  · simp only [List.length_cons]; omega
  · simp

/-! ## Numbers -/

def digits (s : List Char) : List Char × List Char :=
  (s.takeWhile (·.isDigit), s.dropWhile (·.isDigit))

def digits? (s : List Char) : Option (List Char × List Char) :=
  match digits s with
  | ([], _) => none
  | result => some result

def whole? : List Char → Option (List Char × List Char)
  | '0' :: rest => some (['0'], rest)
  | s => digits? s

def fraction? : List Char → Option (List Char × List Char)
  | '.' :: rest => (digits? rest).map fun (ds, after) => ('.' :: ds, after)
  | s => some ([], s)

def exponent? : List Char → Option (List Char × List Char)
  | c :: rest =>
      if c = 'e' ∨ c = 'E' then
        let (sign, rest) :=
          match rest with
          | '+' :: after => (['+'], after)
          | '-' :: after => (['-'], after)
          | after => ([], after)
        (digits? rest).map fun (ds, after) => (c :: sign ++ ds, after)
      else some ([], c :: rest)
  | [] => some ([], [])

def number? (s : List Char) : Option (List Char × List Char) := do
  let (sign, rest) := match s with
    | '-' :: rest => (['-'], rest)
    | _ => ([], s)
  let (whole, rest) ← whole? rest
  let (fraction, rest) ← fraction? rest
  let (exponent, rest) ← exponent? rest
  pure (sign ++ whole ++ fraction ++ exponent, rest)

/-! ## The token list -/

def next? : List Char → Option (Token × List Char)
  | '{' :: rest => some (openBrace, rest)
  | '}' :: rest => some (closeBrace, rest)
  | '[' :: rest => some (openBracket, rest)
  | ']' :: rest => some (closeBracket, rest)
  | ',' :: rest => some (comma, rest)
  | ':' :: rest => some (colon, rest)
  | '"' :: rest =>
      (string? rest).map fun (s, after) => (string (s.map String.ofList), after)
  | 'n' :: 'u' :: 'l' :: 'l' :: rest => some (literal .null, rest)
  | 't' :: 'r' :: 'u' :: 'e' :: rest => some (literal (.bool true), rest)
  | 'f' :: 'a' :: 'l' :: 's' :: 'e' :: rest => some (literal (.bool false), rest)
  | s =>
      (number? s).map fun (ds, after) =>
      (literal (.number (String.ofList ds)), after)

def list? (fuel : Nat) (s : List Char) : Option (List Token) :=
  match fuel, s.dropWhile isBlank with
  | _, [] => some []
  | 0, _ :: _ => none
  | fuel + 1, s => do
      let (token, rest) ← next? s
      let tokens ← list? fuel rest
      pure (token :: tokens)

def ofText? (s : String) : Option (List Token) :=
  list? s.toList.length s.toList

end Token

end Json

end ComponentBuild
