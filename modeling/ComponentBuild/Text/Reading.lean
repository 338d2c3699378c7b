/-!
Reading the front of a text.

A reading takes characters from the front of a text and gives a value, or it
fails.  Of `r <|> s` the second reads the text that was there before the first,
if the first fails.
-/

namespace ComponentBuild.Text

abbrev Reading := StateT (List Char) Option

namespace Reading

variable {α : Type}

def charWhere (test : Char → Bool) : Reading Char := fun
  | c :: rest => if test c then some (c, rest) else none
  | [] => none

def char (c : Char) : Reading Char :=
  charWhere (· == c)

def word : List Char → Reading Unit
  | [] => pure ()
  | c :: rest => do
      let _ ← char c
      word rest

def takeWhile (test : Char → Bool) : Reading (List Char) := fun s =>
  some (s.takeWhile test, s.dropWhile test)

def takeWhile1 (test : Char → Bool) : Reading (List Char) := do
  let c ← charWhere test
  let cs ← takeWhile test
  pure (c :: cs)

def atEnd : Reading Unit := fun
  | [] => some ((), [])
  | _ :: _ => none

def repeated (r : Reading α) : (fuel : Nat) → Reading (List α)
  | 0 => pure []
  | fuel + 1 =>
      (do
        let a ← r
        let as ← repeated r fuel
        pure (a :: as)) <|> pure []

/-- As often as possible, for a reading that takes at least one character. -/
def many (r : Reading α) : Reading (List α) := fun s =>
  repeated r s.length s

def separated (r : Reading α) (separator : Reading Unit) : Reading (List α) := do
  let a ← r
  let as ← many (do separator; r)
  pure (a :: as)

def all? (r : Reading α) (s : String) : Option α :=
  match (do let a ← r; atEnd; pure a : Reading α) s.toList with
  | some (a, _) => some a
  | none => none

end Reading

end ComponentBuild.Text
