/-!
White space, and two ways to cut a text into lines.

White space is the Unicode property `White_Space`.  `lines` ends a line at a
line feed, with an optional carriage return before it, and drops the
terminators.  `fullLines` also ends a line at a lone carriage return and keeps
the terminators.
-/

namespace ComponentBuild.Text

/-! ## White space -/

/-- The characters of the property `White_Space`. -/
def isBlank (c : Char) : Bool :=
  let n := c.toNat
  (9 ≤ n && n ≤ 13) || n == 32 || n == 0x85 || n == 0xa0 || n == 0x1680
    || (0x2000 ≤ n && n ≤ 0x200a) || n == 0x2028 || n == 0x2029 || n == 0x202f
    || n == 0x205f || n == 0x3000

def trimStart (text : List Char) : List Char :=
  text.dropWhile isBlank

def trimEnd (text : List Char) : List Char :=
  (text.reverse.dropWhile isBlank).reverse

def trim (text : List Char) : List Char :=
  trimEnd (trimStart text)

/-! ## Lines -/

def cutLine? : List Char → Option (List Char × List Char)
  | [] => none
  | c :: rest =>
      if c = '\n' then some ([], rest)
      else (cutLine? rest).map fun (line, after) => (c :: line, after)

private theorem cutLine?_length {text line after : List Char}
    (h : cutLine? text = some (line, after)) :
    after.length < text.length := by
  induction text generalizing line after with
  | nil => simp [cutLine?] at h
  | cons c rest ih =>
      simp only [cutLine?] at h
      split at h
      · simp only [Option.some.injEq, Prod.mk.injEq] at h
        simp [← h.2]
      · obtain ⟨⟨l, a⟩, hl, he⟩ := Option.map_eq_some_iff.1 h
        simp only [Prod.mk.injEq] at he
        have := ih hl
        simp only [List.length_cons, ← he.2]
        omega

def dropCarriageReturn (line : List Char) : List Char :=
  if line.getLast? = some '\r' then line.dropLast else line

/-- Lines without their terminators.  A text that ends in a line feed has no
empty last line. -/
def lines (text : List Char) : List (List Char) :=
  match _h : cutLine? text with
  | none => if text.isEmpty then [] else [text]
  | some (line, after) => dropCarriageReturn line :: lines after
termination_by text.length
decreasing_by exact cutLine?_length ‹_›

/-- Lines with their terminators: a line feed, a carriage return, or both in
that order. -/
def fullLines : List Char → List (List Char)
  | [] => []
  | '\r' :: '\n' :: rest => ['\r', '\n'] :: fullLines rest
  | c :: rest =>
      if c = '\n' ∨ c = '\r' then
        [c] :: fullLines rest
      else
        match fullLines rest with
        | [] => [[c]]
        | line :: after => (c :: line) :: after

def occursIn (pattern : List Char) : List Char → Bool
  | [] => pattern.isEmpty
  | c :: rest => pattern.isPrefixOf (c :: rest) || occursIn pattern rest

end ComponentBuild.Text
