import ComponentBuild.Component.Basic
import Mathlib.Data.List.Basic

/-!
# Names made of tags

A name is its tag without the dashes, and a dash shows in it by the capital
behind it.  A dash does not show if nothing, another dash, or a character
without a capital follows.  As long as capitals can be told apart from letters
and from each other, the dashes that do not show are all that a name loses.
-/

namespace ComponentBuild

open Text

/-! ## Codes of which none begins another -/

private theorem eq_of_flatMap_eq {α β : Type} {code : α → List β} {xs ys : List α}
    (hne : ∀ x, code x ≠ [])
    (hapart : ∀ x ∈ xs, ∀ y ∈ ys, code x <+: code y ∨ code y <+: code x → x = y)
    (h : xs.flatMap code = ys.flatMap code) : xs = ys := by
  induction xs generalizing ys with
  | nil =>
      cases ys with
      | nil => rfl
      | cons y ys => exact absurd (List.append_eq_nil_iff.1 h.symm).1 (hne y)
  | cons x xs ih =>
      cases ys with
      | nil => exact absurd (List.append_eq_nil_iff.1 h).1 (hne x)
      | cons y ys =>
          rw [List.flatMap_cons, List.flatMap_cons] at h
          have hx : code x <+: code y ++ ys.flatMap code :=
            h ▸ List.prefix_append _ _
          have hsame : x = y := hapart x List.mem_cons_self y List.mem_cons_self
            (List.prefix_or_prefix_of_prefix hx (List.prefix_append _ _))
          subst hsame
          rw [List.append_cancel_left_eq] at h
          rw [ih (fun a ha b hb => hapart a (List.mem_cons_of_mem _ ha) b
            (List.mem_cons_of_mem _ hb)) h]

/-! ## The letters of a name -/

structure NameLetter where
  capital : Bool
  char : Char
  deriving DecidableEq

namespace NameLetter

def shown (l : NameLetter) : List Char :=
  if l.capital then upperChar l.char else [l.char]

def dashed (l : NameLetter) : List Char :=
  if l.capital then ['-', l.char] else [l.char]

end NameLetter

def HasCapital (c : Char) : Prop :=
  upperChar c ≠ [c]

instance (c : Char) : Decidable (HasCapital c) :=
  inferInstanceAs (Decidable (upperChar c ≠ [c]))

def pieceLetters : List Char → List NameLetter
  | [] => []
  | c :: rest => ⟨HasCapital c, c⟩ :: rest.map (⟨false, ·⟩)

def nameLetters (tag : String) : List NameLetter :=
  (splitDashes tag.toList).flatMap pieceLetters

def withShownDashes (tag : String) : String :=
  String.ofList ((nameLetters tag).flatMap NameLetter.dashed)

private theorem capitalize_eq (piece : List Char) :
    capitalize piece = (pieceLetters piece).flatMap NameLetter.shown := by
  cases piece with
  | nil => rfl
  | cons c rest =>
      have hrest :
          (rest.map (NameLetter.mk false)).flatMap NameLetter.shown = rest := by
        simp [List.flatMap_map, NameLetter.shown]
      rw [pieceLetters, List.flatMap_cons, hrest, capitalize, NameLetter.shown]
      by_cases h : HasCapital c
      · simp [h]
      · simp only [h, decide_false, Bool.false_eq_true, if_false]
        rw [not_not.1 h]

private theorem toList_pascalName (tag : String) :
    (pascalName tag).toList = (nameLetters tag).flatMap NameLetter.shown := by
  rw [pascalName, String.toList_ofList, nameLetters, List.flatMap_assoc]
  exact List.flatMap_congr fun piece _ => capitalize_eq piece

private theorem of_mem_splitDashes {cs piece : List Char}
    (h : piece ∈ splitDashes cs) :
    ∀ c ∈ piece, c ∈ cs ∧ c ≠ '-' := by
  induction cs generalizing piece with
  | nil =>
      rw [List.mem_singleton.1 h]
      simp
  | cons first cs ih =>
      have hrest {piece : List Char} (hpiece : piece ∈ splitDashes cs) :
          ∀ c ∈ piece, c ∈ first :: cs ∧ c ≠ '-' :=
        fun c hc => (ih hpiece c hc).imp_left (List.mem_cons_of_mem _)
      unfold splitDashes at h
      split at h
      · rcases List.mem_cons.1 h with rfl | h
        · simp
        · exact hrest h
      · rename_i hfirst
        split at h
        · rw [List.mem_singleton.1 h]
          simpa using hfirst
        · rename_i piece' pieces heq
          rw [heq] at hrest
          rcases List.mem_cons.1 h with rfl | h
          · intro c hc
            rcases List.mem_cons.1 hc with rfl | hc
            · exact ⟨List.mem_cons_self, hfirst⟩
            · exact hrest List.mem_cons_self c hc
          · exact hrest (List.mem_cons_of_mem _ h)

private theorem of_mem_nameLetters {tag : String} {l : NameLetter}
    (h : l ∈ nameLetters tag) :
    l.char ∈ tag.toList ∧ l.char ≠ '-' ∧
      (l.capital = true → HasCapital l.char) := by
  obtain ⟨piece, hpiece, hl⟩ := List.mem_flatMap.1 h
  cases piece with
  | nil => cases hl
  | cons c rest =>
      have hchars := of_mem_splitDashes hpiece
      rcases List.mem_cons.1 hl with rfl | hl
      · have hc := hchars c List.mem_cons_self
        exact ⟨hc.1, hc.2, by simp⟩
      · obtain ⟨d, hd, rfl⟩ := List.mem_map.1 hl
        have hd := hchars d (List.mem_cons_of_mem _ hd)
        exact ⟨hd.1, hd.2, by simp⟩

/-! ## Names by their letters -/

private theorem upperChar_ne_nil (c : Char) : upperChar c ≠ [] := by
  unfold upperChar
  split
  · exact List.cons_ne_nil _ _
  · split
    · rename_i expansion h
      obtain ⟨front, back, hlisted, -⟩ := List.lookup_eq_some_iff.1 h
      have hlong : ∀ e ∈ upperExpansions, e.2 ≠ [] := by decide
      have hne := hlong (c.toNat, expansion) (by rw [hlisted]; simp)
      simpa using hne
    · split <;> exact List.cons_ne_nil _ _

/-- In text of these letters a capital is read in one way. -/
structure CapitalsApart (letters : List Char) : Prop where
  fromLetter : ∀ c ∈ letters, HasCapital c → ∀ a ∈ letters, ¬ [a] <+: upperChar c
  fromCapital : ∀ c ∈ letters, HasCapital c → ∀ d ∈ letters, HasCapital d →
    upperChar c <+: upperChar d → c = d

theorem CapitalsApart.mono {letters letters' : List Char}
    (h : CapitalsApart letters) (hsub : ∀ c ∈ letters', c ∈ letters) :
    CapitalsApart letters' where
  fromLetter c hc hcased a ha := h.fromLetter c (hsub c hc) hcased a (hsub a ha)
  fromCapital c hc hcased d hd := h.fromCapital c (hsub c hc) hcased d (hsub d hd)

theorem CapitalsApart.eq_of_prefix {letters : List Char}
    (h : CapitalsApart letters) {l m : NameLetter} (hl : l.char ∈ letters)
    (hlc : l.capital = true → HasCapital l.char) (hm : m.char ∈ letters)
    (hmc : m.capital = true → HasCapital m.char) (hbegin : l.shown <+: m.shown) :
    l = m := by
  obtain ⟨lcap, c⟩ := l
  obtain ⟨mcap, d⟩ := m
  cases lcap with
  | false =>
      cases mcap with
      | false =>
          have heq : c = d := by simpa [NameLetter.shown] using hbegin
          rw [heq]
      | true => exact absurd hbegin (h.fromLetter d hm (hmc rfl) c hl)
  | true =>
      cases mcap with
      | false =>
          have hshort : upperChar c <+: [d] := hbegin
          have hall : upperChar c = [d] :=
            hshort.eq_of_length_le (List.length_pos_iff.2 (upperChar_ne_nil c))
          exact absurd (hall ▸ List.prefix_refl _)
            (h.fromLetter c hl (hlc rfl) d hm)
      | true =>
          have heq : c = d := h.fromCapital c hl (hlc rfl) d hm (hmc rfl) hbegin
          rw [heq]

private theorem pascalName_eq_iff_nameLetters {s t : String}
    (h : CapitalsApart (s.toList ++ t.toList)) :
    pascalName s = pascalName t ↔ nameLetters s = nameLetters t := by
  rw [← String.toList_inj, toList_pascalName, toList_pascalName]
  refine ⟨eq_of_flatMap_eq (fun l => ?_) fun l hl m hm hbegin => ?_,
    fun heq => by rw [heq]⟩
  · unfold NameLetter.shown
    split
    · exact upperChar_ne_nil l.char
    · exact List.cons_ne_nil _ _
  · obtain ⟨hlchar, -, hlc⟩ := of_mem_nameLetters hl
    obtain ⟨hmchar, -, hmc⟩ := of_mem_nameLetters hm
    have hlmem := List.mem_append_left t.toList hlchar
    have hmmem := List.mem_append_right s.toList hmchar
    rcases hbegin with hbegin | hbegin
    · exact h.eq_of_prefix hlmem hlc hmmem hmc hbegin
    · exact (h.eq_of_prefix hmmem hmc hlmem hlc hbegin).symm

private theorem withShownDashes_eq_iff_nameLetters {s t : String} :
    withShownDashes s = withShownDashes t ↔ nameLetters s = nameLetters t := by
  rw [withShownDashes, withShownDashes]
  constructor
  · intro heq
    refine eq_of_flatMap_eq (fun l => ?_) (fun l hl m hm hbegin => ?_)
      (String.ofList_injective heq)
    · unfold NameLetter.dashed
      split <;> exact List.cons_ne_nil _ _
    · obtain ⟨-, hl, -⟩ := of_mem_nameLetters hl
      obtain ⟨-, hm, -⟩ := of_mem_nameLetters hm
      obtain ⟨lcap, c⟩ := l
      obtain ⟨mcap, d⟩ := m
      cases lcap <;> cases mcap <;> simp_all [NameLetter.dashed, eq_comm]
  · intro heq
    rw [heq]

/-- Two tags give one name exactly if they differ in no dash that shows. -/
theorem pascalName_eq_iff {s t : String}
    (h : CapitalsApart (s.toList ++ t.toList)) :
    pascalName s = pascalName t ↔ withShownDashes s = withShownDashes t := by
  rw [pascalName_eq_iff_nameLetters h, withShownDashes_eq_iff_nameLetters]

example : withShownDashes "my-card-2" = withShownDashes "my-card2" := by decide

-- `ß` has two letters for a capital, which are the capitals of two pieces as
-- well.
example : pascalName "x-ß" = pascalName "x-s-s" ∧
    withShownDashes "x-ß" ≠ withShownDashes "x-s-s" := by
  decide +kernel

/-! ## Tags whose dashes all show -/

def ShowsDashes (tag : String) : Prop :=
  ∀ piece ∈ splitDashes tag.toList, ∃ c rest, piece = c :: rest ∧ HasCapital c

private theorem flatMap_splitDashes (cs : List Char) :
    (splitDashes cs).flatMap ('-' :: ·) = '-' :: cs := by
  induction cs with
  | nil => rfl
  | cons c cs ih =>
      unfold splitDashes
      split
      · rename_i hdash
        rw [List.flatMap_cons, ih, hdash]
        rfl
      · split
        · rename_i heq
          rw [heq] at ih
          cases ih
        · rename_i piece pieces heq
          rw [heq, List.flatMap_cons] at ih
          rw [List.flatMap_cons]
          simpa using ih

theorem withShownDashes_of_shows {tag : String} (h : ShowsDashes tag) :
    withShownDashes tag = "-" ++ tag := by
  have hpieces : ∀ piece ∈ splitDashes tag.toList,
      (pieceLetters piece).flatMap NameLetter.dashed = '-' :: piece := by
    intro piece hpiece
    obtain ⟨c, rest, rfl, hc⟩ := h piece hpiece
    simp [pieceLetters, hc, List.flatMap_map, NameLetter.dashed]
  have hall :
      (nameLetters tag).flatMap NameLetter.dashed = '-' :: tag.toList := by
    rw [nameLetters, List.flatMap_assoc, ← flatMap_splitDashes]
    exact List.flatMap_congr hpieces
  rw [← String.toList_inj, withShownDashes, String.toList_ofList, hall]
  simp

/-! ## Lower-case letters -/

private theorem toUpper_of_ascii :
    ∀ n : Fin 128, (Char.ofNat n).isUpper = false →
    (Char.ofNat n).toUpper.toLower = Char.ofNat n ∧
      ((Char.ofNat n).toUpper.isUpper = false →
        (Char.ofNat n).toUpper = Char.ofNat n) := by
  decide

theorem capitalsApart_of_lowerCase {letters : List Char}
    (h : ∀ c ∈ letters, c.toNat < 128 ∧ c.isUpper = false) :
    CapitalsApart letters := by
  have hupper : ∀ c ∈ letters, upperChar c = [c.toUpper] := by
    intro c hc
    rw [upperChar, if_pos (h c hc).1]
  have hletter : ∀ c ∈ letters, c.toUpper.toLower = c ∧
      (c.toUpper.isUpper = false → c.toUpper = c) := by
    intro c hc
    have hn := toUpper_of_ascii ⟨c.toNat, (h c hc).1⟩
    rw [Char.ofNat_toNat] at hn
    exact hn (h c hc).2
  constructor
  · intro c hc hcased a ha hbegin
    rw [hupper c hc] at hbegin
    have heq : a = c.toUpper := by simpa using hbegin
    have hlow := (hletter c hc).2 (heq ▸ (h a ha).2)
    exact hcased (by rw [hupper c hc, hlow])
  · intro c hc _ d hd _ hbegin
    rw [hupper c hc, hupper d hd] at hbegin
    have heq : c.toUpper = d.toUpper := by simpa using hbegin
    rw [← (hletter c hc).1, heq, (hletter d hd).1]

end ComponentBuild
