import ComponentBuild.Proofs.Imports.Taken
import Mathlib.Order.Bounds.Defs

/-!
# The number of an alias

A name that is taken is numbered, and the search for a number does not begin
with one but behind the last number that the name was given.  The numbers up to
that one make taken names all the same: each was found taken or was given, and a
name that is taken stays taken.  So the number found is the least of all.
-/

namespace ComponentBuild.ImportTable

open KeyOrder SortedMap

/-! ## The search -/

/-- The numbers from `k` on are tried one after the other until one makes a free
name, which is `n`. Nothing bounds the tries. -/
inductive Search (taken : SortedSet String) (name : String) : Nat → Nat → Prop
  | found {k : Nat} : taken.contains (numbered name k) = false →
      Search taken name k k
  | next {k n : Nat} : taken.contains (numbered name k) = true →
      Search taken name (k + 1) n →
      Search taken name k n

theorem LeastFree.search {taken : SortedSet String} {name : String} {k n : Nat}
    (h : LeastFree taken name k n) : Search taken name k n := by
  obtain ⟨tries, rfl⟩ := Nat.exists_eq_add_of_le h.le
  induction tries generalizing k with
  | zero => exact .found h.free
  | succ tries ih =>
      have hlater : LeastFree taken name (k + 1) (k + 1 + tries) := by
        refine ⟨by omega, fun j hj hlt => h.below j (by omega) (by omega), ?_⟩
        rw [Nat.add_right_comm, Nat.add_assoc]
        exact h.free
      have hrest := ih hlater
      rw [Nat.add_right_comm, Nat.add_assoc] at hrest
      exact .next (h.below k (Nat.le_refl k) (by omega)) hrest

/-- There are no more tries than taken names. -/
theorem nextNumber_le {t : ImportTable} {n : String}
    (h : t.taken.contains n = true) :
    t.nextNumber n ≤ t.lastNumber n + t.taken.size := by
  obtain ⟨j, hj, hlt, hfree⟩ := exists_not_taken h (t.lastNumber n + 1)
  have hle : t.nextNumber n ≤ j := (leastFree_nextNumber h).le_of_free hj hfree
  omega

/-! ## Numbers that were given -/

/-- Every number up to the last one that a name was given makes a taken name. -/
def Counted (t : ImportTable) : Prop :=
  ∀ name k, 1 ≤ k → k ≤ t.lastNumber name →
  t.taken.contains (numbered name k) = true

private theorem counted_withReserved (names : List String) :
    Counted (withReserved names) := by
  intro name k hk hle
  rw [lastNumber, suffixes_withReserved] at hle
  change k ≤ 0 at hle
  omega

theorem Counted.leastFree {t : ImportTable} (h : t.Counted) {n : String}
    (htaken : t.taken.contains n = true) :
    LeastFree t.taken n 1 (t.nextNumber n) := by
  have hleast := leastFree_nextNumber htaken
  refine ⟨?_, fun j hj hlt => ?_, hleast.free⟩
  · exact Nat.le_trans (Nat.le_add_left 1 _) hleast.le
  · rcases Nat.lt_or_ge (t.lastNumber n) j with hbehind | hle
    · exact hleast.below j hbehind hlt
    · exact h n j hj hle

theorem Counted.added {t : ImportTable} (h : t.Counted) (s : ImportSource)
    (n : String) :
    (t.added s n).Counted := by
  intro name k hk hle
  rw [contains_taken_added]
  cases htaken : t.taken.contains n with
  | false =>
      rw [lastNumber, ImportTable.added, takeAlias_of_free htaken] at hle
      exact .inr (h name k hk hle)
  | true =>
      rw [lastNumber, ImportTable.added, takeAlias_of_taken htaken,
        get?_insert] at hle
      rw [takeAlias_of_taken htaken]
      by_cases hname : n = name
      · subst hname
        rw [if_pos (same_refl n), Option.getD_some] at hle
        -- Below the new number all was taken before, and the new one is taken
        -- now.
        rcases Nat.lt_or_eq_of_le hle with hlt | rfl
        · exact .inr ((h.leastFree htaken).below k hk hlt)
        · exact .inl rfl
      · rw [if_neg fun hsame => hname (same_iff_eq.1 hsame)] at hle
        exact .inr (h name k hk hle)

theorem Counted.reserve {t : ImportTable} (h : t.Counted) (name : String) :
    (t.reserve name).Counted :=
  fun n k hk hle => contains_taken_reserve (h n k hk hle) name

theorem Counted.run {t : ImportTable} (h : t.Counted) (calls : List Call) :
    (t.run calls).Counted :=
  keeps_run Counted.reserve Counted.added h calls

/-! ## The alias of a new pair -/

section

variable (reserved : List String) (calls : List Call)

/-- After the calls the name is reserved or is the alias of a pair. -/
def Taken (name : String) : Prop :=
  name ∈ reserved ++ calls.filterMap Call.reserved? ∨
    ∃ s n, ((withReserved reserved).run calls).aliasOf? s n = some name

/-- A new pair keeps its name if that is free.  Otherwise the name gets the
least number from one on that makes a free name, and the search for it, from
behind the number last given, ends there after no more tries than there are
taken names. -/
theorem insert_least_number {s : ImportSource} {n : String}
    (hnew : pairKey (s, n) ∉ insertedKeys calls) :
    let t := (withReserved reserved).run calls
    (¬ Taken reserved calls n → (t.insert s n).1 = n) ∧
    (Taken reserved calls n → ∃ k, (t.insert s n).1 = numbered n k ∧
      IsLeast {j | 1 ≤ j ∧ ¬ Taken reserved calls (numbered n j)} k ∧
      Search t.taken n (t.lastNumber n + 1) k ∧
      k ≤ t.lastNumber n + t.taken.size) := by
  intro t
  have hcounted : t.Counted := (counted_withReserved reserved).run calls
  have habsent : t.aliasOf? s n = none := aliasOf?_eq_none reserved calls hnew
  have htaken (name : String) : Taken reserved calls name ↔
      t.taken.contains name = true :=
    contains_taken_run_iff.symm
  simp only [htaken, insert_absent habsent, Bool.not_eq_true]
  constructor
  · intro hfree
    rw [takeAlias_of_free hfree]
  · intro hname
    have hleast := hcounted.leastFree hname
    refine ⟨t.nextNumber n, ?_, ⟨⟨hleast.le, hleast.free⟩, ?_⟩, ?_,
      nextNumber_le hname⟩
    · rw [takeAlias_of_taken hname]
    · rintro j ⟨hj, hfree⟩
      exact hleast.le_of_free hj hfree
    · exact (leastFree_nextNumber hname).search

end

/-- The number one was given, two is reserved and three is in the alias of
another name. -/
theorem insert_least_number_fourth :
    let reserved := ["Item", "Item2"]
    let calls : List Call :=
      [.insert (.package "a") "Item", .insert (.package "b") "Item3"]
    let t := (withReserved reserved).run calls
    pairKey (.package "c", "Item") ∉ insertedKeys calls ∧
    Taken reserved calls "Item" ∧
    (t.insert (.package "c") "Item").1 = "Item4" ∧
    ∃ k, (t.insert (.package "c") "Item").1 = numbered "Item" k ∧
      IsLeast {j | 1 ≤ j ∧ ¬ Taken reserved calls (numbered "Item" j)} k ∧
      Search t.taken "Item" (t.lastNumber "Item" + 1) k ∧
      k ≤ t.lastNumber "Item" + t.taken.size := by
  intro reserved calls t
  have hnew : pairKey (.package "c", "Item") ∉ insertedKeys calls := by decide
  have htaken : Taken reserved calls "Item" := .inl (by decide)
  exact ⟨hnew, htaken, by decide +kernel,
    (insert_least_number reserved calls hnew).2 htaken⟩

end ComponentBuild.ImportTable
