import ComponentBuild.Text.Lines
import Mathlib.Data.List.Infix

/-!
# Passages without blanks

Trimming a text and cutting it into lines takes away and cuts through blanks
only.  What holds none is in the text afterwards exactly if it was there before.
-/

namespace ComponentBuild

namespace Text

def IsUnbroken (passage : List Char) : Prop :=
  passage ≠ [] ∧ ∀ c ∈ passage, isBlank c = false

theorem infix_append_cons_iff {passage before after : List Char} {c : Char}
    (h : c ∉ passage) :
    passage <:+: before ++ c :: after ↔
      passage <:+: before ∨ passage <:+: after := by
  constructor
  · rintro ⟨left, right, heq⟩
    rcases List.append_eq_append_iff.1 heq with ⟨rest, hbefore, -⟩ |
      ⟨rest, hleft, hright⟩
    · exact .inl ⟨left, rest, hbefore.symm⟩
    · cases rest with
      | nil => exact .inl ⟨left, [], by simpa using hleft⟩
      | cons d rest =>
          obtain ⟨rfl, hafter⟩ := List.cons.inj hright
          rcases List.append_eq_append_iff.1 hleft with ⟨front, -, hpassage⟩ |
            ⟨front, -, hrest⟩
          · exact absurd (by simp [hpassage]) h
          · rw [List.cons_eq_append_iff] at hrest
            rcases hrest with ⟨-, rfl⟩ | ⟨front, -, rfl⟩
            · exact absurd List.mem_cons_self h
            · exact .inr ⟨front, right, hafter.symm⟩
  · rintro (h | h)
    · exact h.trans (List.prefix_append before _).isInfix
    · exact h.trans ((List.suffix_cons c after).trans
        (List.suffix_append before _)).isInfix

namespace IsUnbroken

variable {passage : List Char}

private theorem not_mem (h : IsUnbroken passage) {c : Char}
    (hc : isBlank c = true) : c ∉ passage :=
  fun hmem => by simp [h.2 c hmem] at hc

private theorem reverse (h : IsUnbroken passage) : IsUnbroken passage.reverse :=
  ⟨by simpa using h.1, fun c hc => h.2 c (List.mem_reverse.1 hc)⟩

theorem infix_blank_iff (h : IsUnbroken passage) {c : Char}
    (hc : isBlank c = true) (before after : List Char) :
    passage <:+: before ++ c :: after ↔
      passage <:+: before ∨ passage <:+: after :=
  infix_append_cons_iff (h.not_mem hc)

private theorem not_infix_nil (h : IsUnbroken passage) : ¬ passage <:+: [] :=
  fun hnil => h.1 (List.infix_nil.1 hnil)

private theorem infix_trimStart_iff (h : IsUnbroken passage) (text : List Char) :
    passage <:+: trimStart text ↔ passage <:+: text := by
  induction text with
  | nil => rfl
  | cons c text ih =>
      cases hc : isBlank c with
      | true =>
          have hcut : passage <:+: c :: text ↔
              passage <:+: [] ∨ passage <:+: text :=
            h.infix_blank_iff hc [] text
          rw [trimStart, List.dropWhile_cons_of_pos hc, hcut,
            or_iff_right h.not_infix_nil]
          exact ih
      | false => rw [trimStart, List.dropWhile_cons_of_neg (by simp [hc])]

theorem infix_trimEnd_iff (h : IsUnbroken passage) (text : List Char) :
    passage <:+: trimEnd text ↔ passage <:+: text := by
  have hreverse := h.reverse.infix_trimStart_iff text.reverse
  rw [List.reverse_infix] at hreverse
  rw [← hreverse, trimEnd, ← List.reverse_infix, List.reverse_reverse, trimStart]

theorem infix_trim_iff (h : IsUnbroken passage) (text : List Char) :
    passage <:+: trim text ↔ passage <:+: text := by
  rw [trim, h.infix_trimEnd_iff, h.infix_trimStart_iff]

/-! ## Passages in lines -/

private theorem infix_dropCarriageReturn_iff (h : IsUnbroken passage)
    (line : List Char) :
    passage <:+: dropCarriageReturn line ↔ passage <:+: line := by
  unfold dropCarriageReturn
  split
  · rename_i hlast
    obtain ⟨front, rfl⟩ := List.getLast?_eq_some_iff.1 hlast
    rw [h.infix_blank_iff (by decide), List.dropLast_concat,
      or_iff_left h.not_infix_nil]
  · rfl

end IsUnbroken

private theorem eq_of_cutLine? {text line after : List Char}
    (h : cutLine? text = some (line, after)) :
    text = line ++ '\n' :: after := by
  induction text generalizing line with
  | nil => cases h
  | cons c text ih =>
      rw [cutLine?] at h
      split at h
      · rename_i hc
        obtain ⟨rfl, rfl⟩ := Prod.mk.inj (Option.some.inj h)
        rw [hc]
        rfl
      · obtain ⟨⟨first, rest⟩, hcut, heq⟩ := Option.map_eq_some_iff.1 h
        obtain ⟨rfl, rfl⟩ := Prod.mk.inj heq
        rw [ih hcut]
        rfl

theorem IsUnbroken.exists_line_iff {passage : List Char}
    (h : IsUnbroken passage) (text : List Char) :
    (∃ line ∈ lines text, passage <:+: line) ↔ passage <:+: text := by
  fun_induction lines text with
  | case1 text hcut hempty => simp [List.isEmpty_iff.1 hempty, h.not_infix_nil]
  | case2 text hcut hempty => simp
  | case3 text line after hcut ih =>
      rw [List.exists_mem_cons_iff, ih, h.infix_dropCarriageReturn_iff,
        eq_of_cutLine? hcut, h.infix_blank_iff (by decide)]

end Text

end ComponentBuild
