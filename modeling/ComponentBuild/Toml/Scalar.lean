import ComponentBuild.Decimal
import ComponentBuild.Text.Reading
import ComponentBuild.Toml.Value

/-!
The values of TOML that hold no other values: strings, numbers, truth values,
dates and times.
-/

namespace ComponentBuild.Toml

open Text Text.Reading

/-! ## Blanks and line ends -/

def isBlank (c : Char) : Bool :=
  c == ' ' || c == '\t'

def isPlain (c : Char) : Bool :=
  c == '\t' || (32 ≤ c.toNat && c.toNat != 127)

def blanks : Reading Unit := do
  let _ ← takeWhile isBlank

def newline : Reading Unit :=
  word ['\n'] <|> word ['\r', '\n']

def comment : Reading Unit := do
  let _ ← char '#'
  let _ ← takeWhile isPlain

/-! ## Strings -/

def hexDigit? (c : Char) : Option Nat :=
  if c.isDigit then some (c.toNat - 48)
  else if 'a' ≤ c && c ≤ 'f' then some (c.toNat - 87)
  else if 'A' ≤ c && c ≤ 'F' then some (c.toNat - 55)
  else none

def number (radix : Nat) (digits : List Char) : Nat :=
  digits.foldl (fun n c => radix * n + (hexDigit? c).getD 0) 0

def exactly (count : Nat) (test : Char → Bool) : Reading (List Char) := do
  let cs ← repeated (charWhere test) count
  if cs.length = count then pure cs else failure

def codePoint (count : Nat) : Reading Char := do
  let digits ← exactly count fun c => (hexDigit? c).isSome
  let n := number 16 digits
  if n.isValidChar then pure (Char.ofNat n) else failure

def escape : Reading Char := do
  let _ ← char '\\'
  let c ← charWhere fun _ => true
  match c with
  | 'b' => pure '\x08'
  | 't' => pure '\t'
  | 'n' => pure '\n'
  | 'f' => pure '\x0c'
  | 'r' => pure '\r'
  | '"' => pure '"'
  | '\\' => pure '\\'
  | 'u' => codePoint 4
  | 'U' => codePoint 8
  | _ => failure

def basicChar : Reading Char :=
  charWhere (fun c => isPlain c && c != '"' && c != '\\') <|> escape

def basicString : Reading (List Char) := do
  let _ ← char '"'
  let cs ← many basicChar
  let _ ← char '"'
  pure cs

def literalString : Reading (List Char) := do
  let _ ← char '\''
  let cs ← takeWhile fun c => isPlain c && c != '\''
  let _ ← char '\''
  pure cs

/-- A backslash at the end of a line leaves out the line end and all blanks and
line ends after it. -/
def continuation : Reading (List Char) := do
  let _ ← char '\\'
  blanks
  newline
  let _ ← many ((do let _ ← charWhere isBlank) <|> newline)
  pure []

def innerQuotes (quote : Char) : Reading (List Char) := fun s =>
  let run := s.takeWhile (· == quote)
  let rest := s.dropWhile (· == quote)
  if run.length = 1 ∨ run.length = 2 then some (run, rest) else none

/-- The quotes at the end: three, and before them up to two that belong to the
text. -/
def closingQuotes (quote : Char) : Reading (List Char) := fun s =>
  let size := min 5 (s.takeWhile (· == quote)).length
  if 3 ≤ size then some (List.replicate (size - 3) quote, s.drop size) else none

/-- A string between triple quotes; a line end right after the opening ones is
left out. -/
def tripleQuoted (quote : Char) (piece : Reading (List Char)) :
    Reading (List Char) := do
  word [quote, quote, quote]
  let _ ← optional newline
  let pieces ← many (piece <|> (do newline; pure ['\n']) <|> innerQuotes quote)
  let quotes ← closingQuotes quote
  pure (pieces.flatten ++ quotes)

def longBasicString : Reading (List Char) :=
  tripleQuoted '"' (continuation <|> (do let c ← basicChar; pure [c]))

def longLiteralString : Reading (List Char) :=
  tripleQuoted '\'' do
    let c ← charWhere fun c => isPlain c && c != '\''
    pure [c]

def string : Reading String := do
  let cs ← longBasicString <|> basicString <|> longLiteralString <|> literalString
  pure (String.ofList cs)

/-! ## Numbers -/

def digits (test : Char → Bool) : Reading (List Char) := do
  let c ← charWhere test
  let cs ← many (charWhere test <|> (do let _ ← char '_'; charWhere test))
  pure (c :: cs)

def decimalDigits : Reading (List Char) :=
  digits (·.isDigit)

def wholeNumber : Reading (Bool × List Char) := do
  let sign ← optional (charWhere fun c => c == '+' || c == '-')
  let ds ← (do let c ← char '0'; pure [c]) <|> decimalDigits
  pure (sign = some '-', ds)

def exponent : Reading (List Char) := do
  let _ ← charWhere fun c => c == 'e' || c == 'E'
  let sign ← optional (charWhere fun c => c == '+' || c == '-')
  let ds ← decimalDigits
  pure ('e' :: (if sign = some '-' then '-' :: ds else ds))

def fraction : Reading (List Char) := do
  let _ ← char '.'
  let ds ← decimalDigits
  pure ('.' :: ds)

/-- A number with a fraction or an exponent.  One that is too large to be held
is refused, one that is too small is not. -/
def decimal : Reading Value := do
  let (negative, whole) ← wholeNumber
  let tail ← exponent <|> (do
    let f ← fraction
    let e ← optional exponent
    pure (f ++ e.getD []))
  let literal := String.ofList (whole ++ tail)
  if negative then pure (.float ("-" ++ literal))
  else if (Decimal.ofText literal).isFinite then pure (.float literal)
  else failure

def special : Reading Value := do
  let sign ← optional (charWhere fun c => c == '+' || c == '-')
  let name ← (do word ['i', 'n', 'f']; pure "inf") <|>
      (do word ['n', 'a', 'n']; pure "nan")
  pure (.float (if sign = some '-' then "-" ++ name else name))

def integerOf (n : Int) : Reading Value :=
  if -9223372036854775808 ≤ n ∧ n ≤ 9223372036854775807 then pure (.integer n)
    else failure

def decimalInteger : Reading Value := do
  let (negative, ds) ← wholeNumber
  let n : Int := number 10 ds
  integerOf (if negative then -n else n)

def radixInteger (mark : Char) (radix : Nat) : Reading Value := do
  word ['0', mark]
  let ds ← digits fun c => (hexDigit? c).any (· < radix)
  integerOf (number radix ds)

def integer : Reading Value :=
  radixInteger 'x' 16 <|> radixInteger 'o' 8 <|> radixInteger 'b' 2 <|>
  decimalInteger

/-! ## Dates and times -/

def field (count least most : Nat) : Reading Nat := do
  let ds ← exactly count (·.isDigit)
  let n := number 10 ds
  if least ≤ n ∧ n ≤ most then pure n else failure

def daysOfMonth (year month : Nat) : Nat :=
  if month = 2 then
    if year % 4 = 0 ∧ (year % 100 ≠ 0 ∨ year % 400 = 0) then 29 else 28
  else if month = 4 ∨ month = 6 ∨ month = 9 ∨ month = 11 then 30
  else 31

def date : Reading Unit := do
  let year ← field 4 0 9999
  let _ ← char '-'
  let month ← field 2 1 12
  let _ ← char '-'
  let day ← field 2 1 31
  if day ≤ daysOfMonth year month then pure () else failure

def time : Reading Unit := do
  let _ ← field 2 0 23
  let _ ← char ':'
  let _ ← field 2 0 59
  let _ ← char ':'
  let _ ← field 2 0 60
  let _ ← optional (do let _ ← char '.'; takeWhile1 (·.isDigit))

def offset : Reading Unit :=
  (do let _ ← charWhere fun c => c == 'Z' || c == 'z') <|> (do
    let _ ← charWhere fun c => c == '+' || c == '-'
    let _ ← field 2 0 23
    let _ ← char ':'
    let _ ← field 2 0 59)

def dateAndTime : Reading Unit := do
  date
  let _ ← optional (do
    let _ ← charWhere fun c => c == 'T' || c == 't' || c == ' '
    time
    optional offset)

def moment : Reading Value := fun s =>
  match (dateAndTime <|> time) s with
  | some ((), rest) =>
      some (.moment (String.ofList (s.take (s.length - rest.length))), rest)
  | none => none

/-! ## All of them -/

def boolean : Reading Value :=
  (do word ['t', 'r', 'u', 'e']; pure (.boolean true)) <|>
  (do word ['f', 'a', 'l', 's', 'e']; pure (.boolean false))

def scalar : Reading Value :=
  (Value.text <$> string) <|> moment <|> decimal <|> special <|>
  integer <|> boolean

end ComponentBuild.Toml
