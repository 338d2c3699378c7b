import ComponentBuild.Proofs.Text.EditScripts

/-!
# The table of edit distances

Each entry of a finished row is the distance of the items read of the first list
to the items up to its column of the second.  A row is written over an old one
from left to right, and an entry is read only where it has been written in this
row or stands in the row above, so what the old row held never counts. The
beginnings of the lists grow at their ends, so they are read from there: the
number of edits is the same for the reversed lists.
-/

namespace ComponentBuild.Text

variable {α : Type} {n : Nat}

def passed (b : Vector α n) (j : Nat) : List α :=
  (b.toList.take j).reverse

private theorem passed_zero (b : Vector α n) : passed b 0 = [] := rfl

private theorem passed_succ (b : Vector α n) {j : Nat} (h : j < n) :
    passed b (j + 1) = b[j] :: passed b j := by
  have hlength : j < b.toList.length := by simpa using h
  rw [passed, List.take_succ_eq_append_getElem hlength, List.reverse_append]
  rfl

private theorem length_passed (b : Vector α n) {j : Nat} (h : j ≤ n) :
    (passed b j).length = j := by
  simpa [passed] using h

private theorem passed_all (b : Vector α n) : passed b n = b.toList.reverse := by
  rw [passed, List.take_of_length_le (by simp)]

variable [DecidableEq α]

/-- The entries up to column `j` are the distances of `done`, the items read,
the last one first. -/
def Filled (b : Vector α n) (done : List α) (j : Nat) (row : DistanceRow n) :
    Prop :=
  ∀ k, k ≤ j → ∀ hk : k ≤ n, row[k] = distance done (passed b k)

theorem filled_range (b : Vector α n) : Filled b [] n (Vector.range (n + 1)) := by
  intro k _ hk
  rw [Vector.getElem_range, distance_nil_left, length_passed b hk]

private theorem filled_writeRow {b : Vector α n} {done : List α}
    {above : DistanceRow n} (habove : Filled b done n above) (x : α)
    (row : DistanceRow n) {j : Nat} (hj : j ≤ n) :
    Filled b (x :: done) j (writeRow b above (done.length + 1) x row j hj) := by
  induction j with
  | zero =>
      intro k hkj hk
      obtain rfl : k = 0 := Nat.le_zero.1 hkj
      rw [writeRow, Vector.getElem_set_self, passed_zero, distance_nil_right,
        List.length_cons]
  | succ j ih =>
      have hleft := ih (Nat.le_of_succ_le hj)
      intro k hkj hk
      rw [writeRow]
      rcases Nat.lt_or_eq_of_le hkj with hlt | rfl
      -- An entry to the left is not written again, and the new one reads three
      -- that are known.
      · rw [Vector.getElem_set_ne _ _ (by omega)]
        exact hleft k (by omega) hk
      · rw [Vector.getElem_set_self, passed_succ b hj, distance_cons_cons,
          ← passed_succ b hj,
          habove (j + 1) hj hj, habove j (by omega) (by omega),
          hleft j (Nat.le_refl j) (by omega)]

private theorem filled_lastRow {b : Vector α n} (rest : List α) {done : List α}
    {above : DistanceRow n} (habove : Filled b done n above)
    (row : DistanceRow n) :
    Filled b (rest.reverse ++ done) n (lastRow b rest done.length above row) := by
  induction rest generalizing done above row with
  | nil => exact habove
  | cons x rest ih =>
      rw [lastRow, List.reverse_cons, List.append_assoc]
      exact ih (filled_writeRow habove x row (Nat.le_refl n)) _

private theorem editDistance_eq_distance (a b : List α) :
    editDistance a b = distance a.reverse b.reverse := by
  unfold editDistance
  split
  · rename_i heq
    rw [heq, distance_self]
  · let columns : Vector α b.length := ⟨b.toArray, List.size_toArray⟩
    have hlast :=
      filled_lastRow a (filled_range columns) (Vector.replicate (b.length + 1) 0)
      b.length (Nat.le_refl _) (Nat.le_refl _)
    rw [List.append_nil, passed_all] at hlast
    exact hlast

/-- The distance of two lists is the least number of edits that turn the first
into the second. -/
theorem isLeast_editDistance (a b : List α) :
    IsLeast {n | Edits n a b} (editDistance a b) := by
  have hleast := isLeast_distance a.reverse b.reverse
  rw [← editDistance_eq_distance] at hleast
  simpa only [edits_reverse_iff] using hleast

example : editDistance "kitten".toList "sitting".toList = 3 := by
  decide +kernel

end ComponentBuild.Text
