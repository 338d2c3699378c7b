/-!
Texts as bytes, and bytes that need not be a text.

Bytes that are not UTF-8 can still be shown: every longest run of bytes that a
character could have begun with, and every other byte that belongs to no
character, becomes one replacement character.
-/

namespace ComponentBuild.Text

abbrev Bytes := List UInt8

def encode (text : String) : Bytes :=
  text.toList.flatMap String.utf8EncodeChar

def replacement : Char := '\uFFFD'

/-- A character that has been read in part: its bits so far, how many bytes it
needs after the next one, and the range of the next one. -/
structure Opening where
  bits : Nat
  missing : Nat
  least : Nat
  most : Nat
  deriving DecidableEq, Repr

/-- What a byte above the ASCII range opens.  The second byte of a character has
a narrower range where a wider one would give a surrogate, a number that is too
large or a longer form than needed. -/
def opening? (b : Nat) : Option Opening :=
  if b < 0xC2 then none
  else if b < 0xE0 then some ⟨b - 0xC0, 0, 0x80, 0xBF⟩
  else if b < 0xF0 then
    some ⟨b - 0xE0, 1, if b = 0xE0 then 0xA0 else 0x80, if b = 0xED then 0x9F
      else 0xBF⟩
  else if b < 0xF5 then
    some ⟨b - 0xF0, 2, if b = 0xF0 then 0x90 else 0x80, if b = 0xF4 then 0x8F
      else 0xBF⟩
  else none

def begin (b : Nat) : List Char × Option Opening :=
  if b < 0x80 then ([Char.ofNat b], none)
  else
    match opening? b with
    | some o => ([], some o)
    | none => ([replacement], none)

def Opening.next (o : Opening) (b : Nat) : List Char × Option Opening :=
  let bits := o.bits * 64 + (b - 0x80)
  match o.missing with
  | 0 => ([Char.ofNat bits], none)
  | missing + 1 => ([], some ⟨bits, missing, 0x80, 0xBF⟩)

def decodeStep (state : Option Opening) (b : Nat) : List Char × Option Opening :=
  match state with
  | none => begin b
  | some o =>
      if o.least ≤ b ∧ b ≤ o.most then o.next b
      else (replacement :: (begin b).1, (begin b).2)

def decodeFrom : Option Opening → Bytes → List Char
  | none, [] => []
  | some _, [] => [replacement]
  | state, b :: rest =>
      (decodeStep state b.toNat).1 ++ decodeFrom (decodeStep state b.toNat).2 rest

/-- The text of bytes, with replacement characters for what is not UTF-8. -/
def decodeLossy (bytes : Bytes) : String :=
  String.ofList (decodeFrom none bytes)

def IsUtf8 (bytes : Bytes) : Prop :=
  encode (decodeLossy bytes) = bytes

instance (bytes : Bytes) : Decidable (IsUtf8 bytes) :=
  inferInstanceAs (Decidable (_ = _))

end ComponentBuild.Text
