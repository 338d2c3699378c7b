/-!
Orders on keys.

A key order is a Boolean test for "comes strictly before".  It need not separate
all values: two keys neither of which comes before the other stand for the same
key.  Paths use this, because `a//b` and `a/b` name the same place.
-/

namespace ComponentBuild

class KeyOrder (κ : Type) where
  before : κ → κ → Bool
  asymm : ∀ {a b : κ}, before a b = true → before b a = false
  cotrans : ∀ {a c : κ} (b : κ),
    before a c = true → before a b = true ∨ before b c = true

namespace KeyOrder

section
variable {κ : Type} [KeyOrder κ]

def same (a b : κ) : Bool :=
  !before a b && !before b a

theorem irrefl (a : κ) : before a a = false := by
  cases h : before a a with
  | false => rfl
  | true => exact absurd h (by simp [asymm h])

theorem trans {a b c : κ} (hab : before a b = true) (hbc : before b c = true) :
    before a c = true := by
  rcases cotrans c hab with h | h
  · exact h
  · simp [asymm hbc] at h

theorem same_refl (a : κ) : same a a = true := by
  simp [same, irrefl]

theorem same_symm {a b : κ} (h : same a b = true) : same b a = true := by
  simp only [same, Bool.and_eq_true] at h ⊢
  exact h.symm

private theorem before_left_of_same {a b c : κ} (h : same a b = true)
    (hac : before a c = true) :
    before b c = true := by
  rcases cotrans b hac with h' | h'
  · simp [same, h'] at h
  · exact h'

private theorem before_right_of_same {a b c : κ} (h : same b c = true)
    (hab : before a b = true) :
    before a c = true := by
  rcases cotrans c hab with h' | h'
  · exact h'
  · simp [same, h'] at h

theorem same_trans {a b c : κ} (hab : same a b = true) (hbc : same b c = true) :
    same a c = true := by
  cases hac : before a c with
  | true =>
      have := before_left_of_same hab hac
      simp [same, this] at hbc
  | false =>
      cases hca : before c a with
      | false => simp [same, hac, hca]
      | true =>
          have := before_right_of_same hab hca
          simp [same, this] at hbc

@[reducible] def byKey {β : Type} (key : β → κ) : KeyOrder β where
  before a b := before (key a) (key b)
  asymm h := asymm h
  cotrans b h := cotrans (key b) h

end

instance : KeyOrder Nat where
  before a b := decide (a < b)
  asymm h := by
    simp only [decide_eq_true_eq, decide_eq_false_iff_not] at h ⊢; omega
  cotrans b h := by simp only [decide_eq_true_eq] at h ⊢; omega

/-- Texts are ordered by code point, which is the order of their bytes. -/
instance : KeyOrder String where
  before a b := decide (a < b)
  asymm h := by
    simp only [decide_eq_true_eq, decide_eq_false_iff_not] at h ⊢
    exact String.lt_asymm h
  cotrans {a c} b h := by
    simp only [decide_eq_true_eq] at h ⊢
    by_cases hab : a < b
    · exact .inl hab
    · refine .inr (Decidable.byContradiction fun hbc => ?_)
      exact absurd h (String.not_lt.2
        (String.le_trans (String.not_lt.1 hbc) (String.not_lt.1 hab)))

instance {α β : Type} [KeyOrder α] [KeyOrder β] : KeyOrder (α × β) where
  before a b := before a.1 b.1 || (!before b.1 a.1 && before a.2 b.2)
  asymm {a b} h := by
    simp only [Bool.or_eq_true, Bool.and_eq_true, Bool.not_eq_true',
      Bool.or_eq_false_iff, Bool.and_eq_false_iff, Bool.not_eq_false'] at h ⊢
    rcases h with h | ⟨h₁, h₂⟩
    · exact ⟨asymm h, .inl h⟩
    · exact ⟨h₁, .inr (asymm h₂)⟩
  cotrans {a c} b h := by
    simp only [Bool.or_eq_true, Bool.and_eq_true, Bool.not_eq_true'] at h ⊢
    rcases h with h | ⟨h₁, h₂⟩
    · rcases cotrans b.1 h with h' | h'
      · exact .inl (.inl h')
      · exact .inr (.inl h')
    · cases hab : before a.1 b.1 with
      | true => simp
      | false =>
        cases hbc : before b.1 c.1 with
        | true => simp
        | false =>
          have hba : before b.1 a.1 = false := by
            cases hba : before b.1 a.1 with
            | false => rfl
            | true => rcases cotrans c.1 hba with h' | h' <;> simp_all
          have hcb : before c.1 b.1 = false := by
            cases hcb : before c.1 b.1 with
            | false => rfl
            | true => rcases cotrans a.1 hcb with h' | h' <;> simp_all
          rcases cotrans b.2 h₂ with h' | h' <;> simp [hba, hcb, h']

def listBefore {α : Type} [KeyOrder α] : List α → List α → Bool
  | [], [] => false
  | [], _ :: _ => true
  | _ :: _, [] => false
  | a :: as, b :: bs => before a b || (!before b a && listBefore as bs)

private theorem listBefore_asymm {α : Type} [KeyOrder α] :
    ∀ {as bs : List α}, listBefore as bs = true → listBefore bs as = false
  | [], [], _ => rfl
  | [], _ :: _, _ => rfl
  | _ :: _, [], h => by simp [listBefore] at h
  | a :: as, b :: bs, h => by
      simp only [listBefore, Bool.or_eq_true, Bool.and_eq_true, Bool.not_eq_true',
        Bool.or_eq_false_iff, Bool.and_eq_false_iff, Bool.not_eq_false'] at h ⊢
      rcases h with h | ⟨h₁, h₂⟩
      · exact ⟨asymm h, .inl h⟩
      · exact ⟨h₁, .inr (listBefore_asymm h₂)⟩

private theorem listBefore_cotrans {α : Type} [KeyOrder α] :
    ∀ {as cs : List α} (bs : List α), listBefore as cs = true →
      listBefore as bs = true ∨ listBefore bs cs = true
  | [], [], _, h => by simp [listBefore] at h
  | [], _ :: _, [], _ => .inr rfl
  | [], _ :: _, _ :: _, _ => .inl rfl
  | _ :: _, [], _, h => by simp [listBefore] at h
  | a :: as, c :: cs, [], _ => .inr rfl
  | a :: as, c :: cs, b :: bs, h => by
      simp only [listBefore, Bool.or_eq_true, Bool.and_eq_true,
        Bool.not_eq_true'] at h ⊢
      rcases h with h | ⟨h₁, h₂⟩
      · rcases cotrans b h with h' | h'
        · exact .inl (.inl h')
        · exact .inr (.inl h')
      · cases hab : before a b with
        | true => simp
        | false =>
          cases hbc : before b c with
          | true => simp
          | false =>
            have hba : before b a = false := by
              cases hba : before b a with
              | false => rfl
              | true => rcases cotrans c hba with h' | h' <;> simp_all
            have hcb : before c b = false := by
              cases hcb : before c b with
              | false => rfl
              | true => rcases cotrans a hcb with h' | h' <;> simp_all
            rcases listBefore_cotrans bs h₂ with h' | h' <;> simp [hba, hcb, h']

instance {α : Type} [KeyOrder α] : KeyOrder (List α) where
  before := listBefore
  asymm := listBefore_asymm
  cotrans := listBefore_cotrans

end KeyOrder

end ComponentBuild
