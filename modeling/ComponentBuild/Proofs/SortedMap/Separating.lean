import ComponentBuild.SortedMap.Basic

/-!
# Orders that tell all values apart

Numbers and texts that are the same key are equal, and pairs and lists inherit
this from their parts. Paths do not have it: two texts may name one place.
-/

namespace ComponentBuild.KeyOrder

class Separating (κ : Type) [KeyOrder κ] : Prop where
  eq_of_same : ∀ {a b : κ}, same a b = true → a = b

variable {κ : Type} [KeyOrder κ] [Separating κ]

theorem same_iff_eq {a b : κ} : same a b = true ↔ a = b := by
  constructor
  · exact Separating.eq_of_same
  · rintro rfl
    exact same_refl a

instance : Separating Nat where
  eq_of_same h := by
    simp only [same, before, Bool.and_eq_true, Bool.not_eq_true',
      decide_eq_false_iff_not] at h
    omega

instance : Separating String where
  eq_of_same h := by
    simp only [same, before, Bool.and_eq_true, Bool.not_eq_true',
      decide_eq_false_iff_not] at h
    exact String.le_antisymm (String.not_lt.1 h.2) (String.not_lt.1 h.1)

instance {α β : Type} [KeyOrder α] [Separating α] [KeyOrder β] [Separating β] :
    Separating (α × β) where
  eq_of_same {a b} h := by
    have hpair : same a.1 b.1 = true ∧ same a.2 b.2 = true := by
      simp only [same, before, Bool.and_eq_true, Bool.not_eq_true',
        Bool.or_eq_false_iff, Bool.and_eq_false_iff, Bool.not_eq_false'] at h ⊢
      obtain ⟨⟨h₁, h₂⟩, h₃, h₄⟩ := h
      simp only [h₁, h₃, Bool.false_eq_true, false_or] at h₂ h₄
      exact ⟨⟨h₁, h₃⟩, h₂, h₄⟩
    exact Prod.ext (same_iff_eq.1 hpair.1) (same_iff_eq.1 hpair.2)

theorem same_cons {α : Type} [KeyOrder α] (a b : α) (as bs : List α) :
    same (a :: as) (b :: bs) = (same a b && same as bs) := by
  simp only [same, before, listBefore]
  cases hab : before a b with
  | true => simp [asymm hab]
  | false => cases hba : before b a <;> simp

instance {α : Type} [KeyOrder α] [Separating α] : Separating (List α) where
  eq_of_same {as bs} h := by
    induction as generalizing bs with
    | nil => cases bs with
      | nil => rfl
      | cons b bs => simp [same, before, listBefore] at h
    | cons a as ih => cases bs with
      | nil => simp [same, before, listBefore] at h
      | cons b bs =>
          rw [same_cons, Bool.and_eq_true] at h
          rw [same_iff_eq.1 h.1, ih h.2]

theorem same_byKey_iff {β : Type} (key : β → κ) {a b : β} :
    @same β (byKey key) a b = true ↔ key a = key b :=
  same_iff_eq (a := key a) (b := key b)

end ComponentBuild.KeyOrder
