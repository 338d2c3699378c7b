import ComponentBuild.Text.Lines

/-!
How many lines an edit adds and deletes.

The counts are those of a shortest edit: the lines outside a longest common
subsequence.
-/

namespace ComponentBuild

structure LineDiff where
  additions : Nat := 0
  deletions : Nat := 0
  deriving DecidableEq, Repr

namespace LineDiff

/-- One row of the table of longest common subsequences.  `above` is the row
before, with one entry for every ending of the line list, and the result is the
row for one more line `a`. -/
def commonRow {α : Type} [DecidableEq α] (a : α) : List α → List Nat → List Nat
  | b :: bs, skip :: diagonal :: above =>
      let row := commonRow a bs (diagonal :: above)
      let here := if a = b then diagonal + 1 else max skip (row.headD 0)
      here :: row
  | _, _ => [0]

def commonLength {α : Type} [DecidableEq α] (as bs : List α) : Nat :=
  (as.foldr (commonRow · bs) (List.replicate (bs.length + 1) 0)).headD 0

def between (old new : String) : LineDiff :=
  let olds := (Text.fullLines old.toList).map String.ofList
  let news := (Text.fullLines new.toList).map String.ofList
  let common := commonLength olds news
  ⟨news.length - common, olds.length - common⟩

def hasChanges (d : LineDiff) : Bool :=
  0 < d.additions || 0 < d.deletions

def summary (d : LineDiff) : String :=
  "+" ++ toString d.additions ++ ", -" ++ toString d.deletions

end LineDiff

end ComponentBuild
