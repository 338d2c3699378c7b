/-!
The edit distance of two lists: how many insertions, deletions and substitutions
of one item turn one list into the other.

The table has a row for each beginning of the first list and a column for each
beginning of the second. Only two rows are kept: the last one that is complete,
and the one being written, which is copied over the other once it is full.
-/

namespace ComponentBuild.Text

variable {α : Type} [DecidableEq α] {n : Nat}

/-- A row for a second list of `n` items, the column of the empty beginning
first. -/
abbrev DistanceRow (n : Nat) := Vector Nat (n + 1)

def substitutionCost (x y : α) : Nat :=
  if x = y then 0 else 1

/-- Writes the columns up to `j` of the row after `above`.  The row belongs to
one more item, `x`, and begins with `first`; every other entry comes from the
row above and the entry to its left. -/
def writeRow (b : Vector α n) (above : DistanceRow n) (first : Nat) (x : α)
    (row : DistanceRow n) :
    (j : Nat) → j ≤ n → DistanceRow n
  | 0, _ => row.set 0 first
  | j + 1, h =>
      let row := writeRow b above first x row j (Nat.le_of_succ_le h)
      let entry :=
        min (min (above[j + 1] + 1) (row[j] + 1))
          (above[j] + substitutionCost x b[j])
      row.set (j + 1) entry

def lastRow (b : Vector α n) :
    (rest : List α) → (i : Nat) → (above row : DistanceRow n) → DistanceRow n
  | [], _, above, _ => above
  | x :: rest, i, above, row =>
      let row := writeRow b above (i + 1) x row n (Nat.le_refl n)
      lastRow b rest (i + 1) row row

def editDistance (a b : List α) : Nat :=
  if a = b then 0
  else
    let above : DistanceRow b.length := Vector.range (b.length + 1)
    let row : DistanceRow b.length := Vector.replicate (b.length + 1) 0
    (lastRow ⟨b.toArray, List.size_toArray⟩ a 0 above row)[b.length]

end ComponentBuild.Text
