import ComponentBuild.Text.EditDistance
import Mathlib.Order.Bounds.Defs
import Mathlib.Order.MinMax

/-!
# Edits of a list

One edit puts an item in, takes one out or replaces one, at any place.  The
distance of two lists is a recursion on their first items, so it is reached by
edits that go from front to back.  No edits are fewer, whatever their places and
their order: one edit changes the distance to any third list by at most one.
-/

namespace ComponentBuild.Text

variable {α : Type}

/-! ## Edits -/

inductive Edit : List α → List α → Prop
  | insertion (front back : List α) (y : α) : Edit (front ++ back)
      (front ++ y :: back)
  | deletion (front back : List α) (x : α) : Edit (front ++ x :: back)
      (front ++ back)
  | substitution (front back : List α) (x y : α) : Edit (front ++ x :: back)
      (front ++ y :: back)

inductive Edits : Nat → List α → List α → Prop
  | done (a : List α) : Edits 0 a a
  | edit {n : Nat} {a b c : List α} : Edit a b → Edits n b c → Edits (n + 1) a c

theorem Edit.cons {a b : List α} (h : Edit a b) (x : α) :
    Edit (x :: a) (x :: b) := by
  cases h with
  | insertion front back y => exact .insertion (x :: front) back y
  | deletion front back y => exact .deletion (x :: front) back y
  | substitution front back y z => exact .substitution (x :: front) back y z

theorem Edits.cons {n : Nat} {a b : List α} (h : Edits n a b) (x : α) :
    Edits n (x :: a) (x :: b) := by
  induction h with
  | done a => exact .done (x :: a)
  | edit hedit _ ih => exact .edit (hedit.cons x) ih

theorem Edit.reverse {a b : List α} (h : Edit a b) :
    Edit a.reverse b.reverse := by
  cases h with
  | insertion front back y =>
      simpa using Edit.insertion back.reverse front.reverse y
  | deletion front back x =>
      simpa using Edit.deletion back.reverse front.reverse x
  | substitution front back x y =>
      simpa using Edit.substitution back.reverse front.reverse x y

theorem Edits.reverse {n : Nat} {a b : List α} (h : Edits n a b) :
    Edits n a.reverse b.reverse := by
  induction h with
  | done a => exact .done a.reverse
  | edit hedit _ ih => exact .edit hedit.reverse ih

theorem edits_reverse_iff {n : Nat} {a b : List α} :
    Edits n a.reverse b.reverse ↔ Edits n a b :=
  ⟨fun h => by simpa using h.reverse, Edits.reverse⟩

private theorem edits_length_nil (a : List α) : Edits a.length a [] := by
  induction a with
  | nil => exact .done []
  | cons x a ih => exact .edit (.deletion [] a x) ih

private theorem edits_nil_length (b : List α) : Edits b.length [] b := by
  induction b with
  | nil => exact .done []
  | cons y b ih => exact .edit (.insertion [] [] y) (ih.cons y)

/-! ## The distance by recursion -/

variable [DecidableEq α]

def distance : List α → List α → Nat
  | [], b => b.length
  | x :: a, [] => (x :: a).length
  | x :: a, y :: b =>
      min (min (distance a (y :: b) + 1) (distance (x :: a) b + 1))
        (distance a b + substitutionCost x y)

@[simp] theorem distance_nil_left (b : List α) : distance [] b = b.length := by
  rw [distance]

@[simp] theorem distance_nil_right (a : List α) : distance a [] = a.length := by
  cases a <;> rw [distance]

theorem distance_cons_cons (x y : α) (a b : List α) :
    distance (x :: a) (y :: b) =
      min (min (distance a (y :: b) + 1) (distance (x :: a) b + 1))
        (distance a b + substitutionCost x y) := by
  rw [distance]

@[simp] theorem substitutionCost_self (x : α) : substitutionCost x x = 0 :=
  if_pos rfl

private theorem substitutionCost_le (x y : α) : substitutionCost x y ≤ 1 := by
  unfold substitutionCost
  split <;> omega

@[simp] theorem distance_self (a : List α) : distance a a = 0 := by
  induction a with
  | nil => rw [distance_nil_left, List.length_nil]
  | cons x a ih =>
      rw [distance_cons_cons, ih, substitutionCost_self,
        Nat.add_zero, Nat.min_zero]

/-! ## Edits that are enough -/

private theorem edits_distance (a b : List α) : Edits (distance a b) a b := by
  induction a, b using distance.induct with
  | case1 b => exact distance_nil_left b ▸ edits_nil_length b
  | case2 x a => exact distance_nil_right (x :: a) ▸ edits_length_nil (x :: a)
  | case3 x a y b deleted inserted replaced =>
      rw [distance_cons_cons]
      rcases min_choice (min (distance a (y :: b) + 1) (distance (x :: a) b + 1))
        (distance a b + substitutionCost x y) with hmin | hmin <;> rw [hmin]
      · rcases min_choice (distance a (y :: b) + 1) (distance (x :: a) b + 1)
          with hmin | hmin <;>
          rw [hmin]
        · exact .edit (.deletion [] a x) deleted
        · exact .edit (.insertion [] (x :: a) y) (inserted.cons y)
      · by_cases heq : x = y
        · rw [heq, substitutionCost_self]
          exact replaced.cons y
        · rw [substitutionCost, if_neg heq]
          exact .edit (.substitution [] a x y) (replaced.cons y)

/-! ## Edits that are needed -/

private theorem distance_cons_left_le (x : α) (a c : List α) :
    distance (x :: a) c ≤ distance a c + 1 := by
  cases c with
  | nil => simp
  | cons z c =>
      rw [distance_cons_cons]
      omega

private theorem distance_cons_right_le (a : List α) (z : α) (c : List α) :
    distance a (z :: c) ≤ distance a c + 1 := by
  cases a with
  | nil => simp
  | cons x a =>
      rw [distance_cons_cons]
      omega

private theorem distance_le_cons_left (x : α) (a c : List α) :
    distance a c ≤ distance (x :: a) c + 1 := by
  induction c with
  | nil => simp; omega
  | cons z c ih =>
      have hlonger := distance_cons_right_le a z c
      rw [distance_cons_cons]
      omega

private theorem distance_replace_le (x y : α) (a c : List α) :
    distance (x :: a) c ≤ distance (y :: a) c + 1 := by
  induction c with
  | nil => simp
  | cons z c ih =>
      have hcost := substitutionCost_le x z
      rw [distance_cons_cons, distance_cons_cons]
      omega

theorem distance_append_le {a b : List α}
    (h : ∀ c, distance a c ≤ distance b c + 1) (front c : List α) :
    distance (front ++ a) c ≤ distance (front ++ b) c + 1 := by
  induction front generalizing c with
  | nil => exact h c
  | cons x front ih =>
      rw [List.cons_append, List.cons_append]
      -- Each of the three ways to go on is at most one edit longer, the one
      -- that keeps `x` by this induction.
      induction c with
      | nil => simpa using ih []
      | cons z c ihc =>
          have hdeleted := ih (z :: c)
          have hreplaced := ih c
          rw [distance_cons_cons, distance_cons_cons]
          omega

theorem Edit.distance_le {a b : List α} (h : Edit a b) (c : List α) :
    distance a c ≤ distance b c + 1 := by
  cases h with
  | insertion front back y =>
      exact distance_append_le (distance_le_cons_left y back) front c
  | deletion front back x =>
      exact distance_append_le (distance_cons_left_le x back) front c
  | substitution front back x y =>
      exact distance_append_le (distance_replace_le x y back) front c

theorem Edits.distance_le {n : Nat} {a b : List α} (h : Edits n a b) :
    distance a b ≤ n := by
  induction h with
  | done a => simp
  | @edit n a b c hedit _ ih =>
      have hfirst := hedit.distance_le c
      omega

theorem isLeast_distance (a b : List α) :
    IsLeast {n | Edits n a b} (distance a b) :=
  ⟨edits_distance a b, fun _ h => h.distance_le⟩

end ComponentBuild.Text
