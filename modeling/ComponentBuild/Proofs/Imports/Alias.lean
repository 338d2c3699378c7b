import ComponentBuild.Imports.Table
import ComponentBuild.Proofs.SortedMap.Lookup
import ComponentBuild.Proofs.SortedMap.Separating
import Mathlib.Data.List.Nodup
import Mathlib.Data.List.Perm.Subperm

/-!
# Fresh aliases

Numbering a name gives a different text for each number, so among the numbers
looked at there is one whose text is not taken.  The alias found is the name
itself or the name with the least such number.
-/

namespace ComponentBuild

open KeyOrder

theorem SortedSet.contains_iff_mem {κ : Type} [KeyOrder κ] [Separating κ]
    {s : SortedSet κ} {k : κ} :
    SortedMap.contains s k = true ↔ k ∈ s.toList := by
  constructor
  · intro h
    obtain ⟨j, hj, hsame⟩ := SortedMap.exists_mem_keys_of_contains h
    rwa [← same_iff_eq.1 hsame]
  · exact SortedMap.contains_of_mem_keys

namespace ImportTable

/-! ## Numbered names -/

theorem toList_numbered (name : String) (k : Nat) :
    (numbered name k).toList = name.toList ++ Nat.toDigits 10 k := by
  simp [numbered, Nat.toList_repr]

theorem toDigits_injective : Function.Injective (Nat.toDigits 10) := by
  intro j k h
  calc
    j = Nat.ofDigitChars 10 (Nat.toDigits 10 j) 0 :=
      Nat.ofDigitChars_ten_toDigits.symm
    _ = Nat.ofDigitChars 10 (Nat.toDigits 10 k) 0 := by rw [h]
    _ = k := Nat.ofDigitChars_ten_toDigits

private theorem numbered_injective (name : String) :
    Function.Injective (numbered name) := by
  intro j k h
  have hlists := congrArg String.toList h
  rw [toList_numbered, toList_numbered, List.append_cancel_left_eq] at hlists
  exact toDigits_injective hlists

theorem numbered_ne (name : String) (k : Nat) : numbered name k ≠ name := by
  intro h
  have hlength := congrArg (fun text => text.toList.length) h
  have hdigits : 0 < (Nat.toDigits 10 k).length := Nat.length_toDigits_pos
  simp only [toList_numbered, List.length_append] at hlength
  omega

/-! ## The number that is found -/

/-- Either a number whose name is free is found, or all numbers looked at are
taken. -/
theorem freeNumber_spec (taken : SortedSet String) (name : String)
    (fuel k : Nat) :
    k ≤ freeNumber taken name fuel k ∧
      (∀ j, k ≤ j → j < freeNumber taken name fuel k →
        taken.contains (numbered name j) = true) ∧
      (taken.contains (numbered name (freeNumber taken name fuel k)) = false ∨
        freeNumber taken name fuel k = k + fuel) := by
  induction fuel generalizing k with
  | zero =>
      refine ⟨Nat.le_refl k, fun j hj hlt => ?_, .inr rfl⟩
      rw [freeNumber] at hlt
      omega
  | succ fuel ih =>
      rw [freeNumber]
      split
      · rename_i htaken
        obtain ⟨hle, hbelow, hfound⟩ := ih (k + 1)
        refine ⟨by omega, fun j hj hlt => ?_, ?_⟩
        · rcases Nat.eq_or_lt_of_le hj with rfl | hj
          · exact htaken
          · exact hbelow j hj hlt
        · rcases hfound with hfree | hend
          · exact .inl hfree
          · exact .inr (by omega)
      · rename_i hfree
        exact ⟨Nat.le_refl k, fun j hj hlt => by omega,
          .inl (Bool.eq_false_iff.2 hfree)⟩

/-- The taken names cannot be a name and as many numberings of it as there are
taken names. -/
theorem exists_not_taken {taken : SortedSet String} {name : String}
    (hname : taken.contains name = true) (k : Nat) :
    ∃ j, k ≤ j ∧ j < k + taken.size ∧
      taken.contains (numbered name j) = false := by
  by_contra hnone
  have hall : ∀ j, k ≤ j → j < k + taken.size →
      taken.contains (numbered name j) = true := by
    intro j hj hlt
    rw [← Bool.not_eq_false]
    exact fun hfree => hnone ⟨j, hj, hlt, hfree⟩
  let names := name :: (List.range' k taken.size).map (numbered name)
  have hnodup : names.Nodup := by
    refine List.nodup_cons.2 ⟨?_,
      (List.nodup_range' 1).map (numbered_injective name)⟩
    intro hmem
    obtain ⟨j, -, hj⟩ := List.mem_map.1 hmem
    exact numbered_ne name j hj
  have hsubset : names ⊆ taken.toList := by
    intro text htext
    rw [← SortedSet.contains_iff_mem]
    rcases List.mem_cons.1 htext with rfl | htext
    · exact hname
    · obtain ⟨j, hj, rfl⟩ := List.mem_map.1 htext
      obtain ⟨hle, hlt⟩ := List.mem_range'_1.1 hj
      exact hall j hle hlt
  have hlength : names.length ≤ taken.toList.length :=
    (hnodup.subperm hsubset).length_le
  simp only [names, SortedSet.toList, SortedMap.keys, SortedMap.size,
    List.length_cons, List.length_map, List.length_range'] at hlength
  omega

/-- A number is the least one from `k` on that makes a free name. -/
structure LeastFree (taken : SortedSet String) (name : String) (k n : Nat) :
    Prop where
  le : k ≤ n
  below : ∀ j, k ≤ j → j < n → taken.contains (numbered name j) = true
  free : taken.contains (numbered name n) = false

private theorem leastFree_freeNumber {taken : SortedSet String} {name : String}
    (hname : taken.contains name = true) (k : Nat) :
    LeastFree taken name k (freeNumber taken name taken.size k) := by
  obtain ⟨hle, hbelow, hfound⟩ := freeNumber_spec taken name taken.size k
  refine ⟨hle, hbelow, hfound.resolve_right fun hend => ?_⟩
  obtain ⟨j, hj, hlt, hfree⟩ := exists_not_taken hname k
  rw [hbelow j hj (by omega)] at hfree
  cases hfree

theorem LeastFree.le_of_free {taken : SortedSet String} {name : String}
    {k n j : Nat} (h : LeastFree taken name k n) (hj : k ≤ j)
    (hfree : taken.contains (numbered name j) = false) :
    n ≤ j := by
  by_contra hlt
  rw [h.below j hj (Nat.lt_of_not_le hlt)] at hfree
  cases hfree

theorem LeastFree.unique {taken : SortedSet String} {name : String} {k m n : Nat}
    (hm : LeastFree taken name k m) (hn : LeastFree taken name k n) : m = n :=
  Nat.le_antisymm (hm.le_of_free hn.le hn.free) (hn.le_of_free hm.le hm.free)

/-! ## Taking an alias -/

def lastNumber (t : ImportTable) (name : String) : Nat :=
  (t.suffixes.get? name).getD 0

def nextNumber (t : ImportTable) (name : String) : Nat :=
  freeNumber t.taken name t.taken.size (t.lastNumber name + 1)

theorem leastFree_nextNumber {t : ImportTable} {name : String}
    (h : t.taken.contains name = true) :
    LeastFree t.taken name (t.lastNumber name + 1) (t.nextNumber name) :=
  leastFree_freeNumber h _

theorem takeAlias_of_free {t : ImportTable} {name : String}
    (h : t.taken.contains name = false) :
    t.takeAlias name = (name, { t with taken := t.taken.add name }) := by
  simp [takeAlias, h]

theorem takeAlias_of_taken {t : ImportTable} {name : String}
    (h : t.taken.contains name = true) :
    t.takeAlias name = (numbered name (t.nextNumber name),
      { t with
        taken := t.taken.add (numbered name (t.nextNumber name))
        suffixes := t.suffixes.insert name (t.nextNumber name) }) := by
  rw [takeAlias, if_pos h]
  rfl

def IsAliasFor (name given : String) : Prop :=
  given = name ∨ ∃ k, given = numbered name k

theorem isAliasFor_takeAlias (t : ImportTable) (name : String) :
    IsAliasFor name (t.takeAlias name).1 := by
  cases h : t.taken.contains name with
  | false => exact .inl (by rw [takeAlias_of_free h])
  | true => exact .inr ⟨t.nextNumber name, by rw [takeAlias_of_taken h]⟩

theorem takeAlias_fresh (t : ImportTable) (name : String) :
    t.taken.contains (t.takeAlias name).1 = false := by
  cases h : t.taken.contains name with
  | false =>
      rw [takeAlias_of_free h]
      exact h
  | true =>
      rw [takeAlias_of_taken h]
      exact (leastFree_nextNumber h).free

theorem taken_takeAlias (t : ImportTable) (name : String) :
    (t.takeAlias name).2.taken = t.taken.add (t.takeAlias name).1 := by
  cases h : t.taken.contains name with
  | false => rw [takeAlias_of_free h]
  | true => rw [takeAlias_of_taken h]

end ImportTable

end ComponentBuild
