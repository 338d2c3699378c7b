import ComponentBuild.Proofs.Declarations.Statements
import ComponentBuild.Proofs.Text.Passages

/-!
# Documentation in comments

A documentation text is trimmed, cut into lines and written between the ends of
a block comment.  No step of that makes or removes the end of a comment, so the
lines are one comment exactly if the text itself does not hold the end of one.
-/

namespace ComponentBuild

namespace Declarations

/-! ## Comments -/

def commentEnd : List Char :=
  "*/".toList

private theorem isUnbroken_commentEnd : Text.IsUnbroken commentEnd := by
  refine ⟨by simp [commentEnd], fun c hc => ?_⟩
  have hmark : c = '*' ∨ c = '/' := by simpa [commentEnd] using hc
  rcases hmark with rfl | rfl <;> rfl

/-- One block comment behind an indent: what ends it is found nowhere before the
end of the text. -/
def IsBlockComment (text : List Char) : Prop :=
  ∃ indent body, text = indent ++ "/*".toList ++ body ++ commentEnd ∧
    (∀ c ∈ indent, Text.isBlank c = true) ∧ ¬ commentEnd <:+: body

/-- The lines are one block comment, which ends in the last of them and nowhere
before. -/
def IsCommentOf (lines : List String) : Prop :=
  IsBlockComment (joinLines lines).toList ∧ ∀ line ∈ lines.dropLast,
  ¬ commentEnd <:+: line.toList

/-! ## The lines of a documentation text -/

private theorem infix_docLine_iff (line : List Char) :
    commentEnd <:+: (docLine line).toList ↔ commentEnd <:+: line := by
  have hmark : "          * ".toList ++ Text.trimEnd line =
      "          *".toList ++ ' ' :: Text.trimEnd line := rfl
  have hnone : ¬ commentEnd <:+: "          *".toList := by decide
  rw [docLine, String.toList_ofList, isUnbroken_commentEnd.infix_trimEnd_iff,
    hmark,
    isUnbroken_commentEnd.infix_blank_iff (by decide), or_iff_right hnone,
    isUnbroken_commentEnd.infix_trimEnd_iff]

private theorem infix_linesText_iff (lines : List String) (rest : List Char) :
    commentEnd <:+: linesText lines ++ rest ↔
      (∃ line ∈ lines, commentEnd <:+: line.toList) ∨ commentEnd <:+: rest := by
  induction lines with
  | nil => simp [linesText]
  | cons line lines ih =>
      have hcut :
          linesText (line :: lines) ++ rest = line.toList ++ '\n' ::
            (linesText lines ++ rest) := by
        simp [linesText]
      rw [hcut, isUnbroken_commentEnd.infix_blank_iff (by decide), ih,
        List.exists_mem_cons_iff, or_assoc]

private theorem toList_joinLines_concat (lines : List String) (last : String) :
    (joinLines (lines ++ [last])).toList = linesText lines ++ last.toList := by
  have h :
      (joinLines (lines ++ [last]) ++ "\n").toList =
        linesText (lines ++ [last]) :=
    toList_joinLines (by simp)
  rw [String.toList_append] at h
  have hfeed : (joinLines (lines ++ [last])).toList ++ ['\n'] =
      (linesText lines ++ last.toList) ++ ['\n'] := by simpa [linesText] using h
  exact List.append_cancel_right hfeed

private theorem isBlockComment_joinLines {lines : List String}
    (h : ∀ line ∈ lines, ¬ commentEnd <:+: line.toList) :
    IsBlockComment (joinLines ("        /**" :: lines ++
      ["         */"])).toList := by
  refine ⟨List.replicate 8 ' ',
    '*' :: '\n' :: (linesText lines ++ List.replicate 9 ' '), ?_, ?_, ?_⟩
  · rw [toList_joinLines_concat]
    simp [linesText, commentEnd, List.replicate]
  · intro c hc
    rw [List.eq_of_mem_replicate hc]
    decide
  · have hstar : ¬ commentEnd <:+: ['*'] := by decide
    have hindent : ¬ commentEnd <:+: List.replicate 9 ' ' := by decide
    have hcut :
        commentEnd <:+: '*' :: '\n' :: (linesText lines ++ List.replicate 9 ' ') ↔
        commentEnd <:+: ['*'] ∨
        commentEnd <:+: linesText lines ++ List.replicate 9 ' ' :=
      isUnbroken_commentEnd.infix_blank_iff (by decide) ['*'] _
    rw [hcut, infix_linesText_iff]
    rintro (hfound | ⟨line, hline, hfound⟩ | hfound)
    · exact hstar hfound
    · exact h line hline hfound
    · exact hindent hfound

private theorem docLines_of_blank {text : String}
    (h : Text.trim text.toList = []) :
    docLines (some text) = [] := by
  simp [docLines, h]

private theorem docLines_of_text {text : String}
    (h : Text.trim text.toList ≠ []) :
    docLines (some text) =
      "        /**" :: (Text.lines (Text.trim text.toList)).map docLine ++
        ["         */"] := by
  obtain ⟨c, rest, htrim⟩ := List.exists_cons_of_ne_nil h
  simp [docLines, htrim]

private theorem exists_docLine_iff (text : String) :
    (∃ line ∈ (Text.lines (Text.trim text.toList)).map docLine,
      commentEnd <:+: line.toList) ↔
      commentEnd <:+: text.toList := by
  rw [← isUnbroken_commentEnd.infix_trim_iff,
    ← isUnbroken_commentEnd.exists_line_iff]
  simp only [List.mem_map, exists_exists_and_eq_and, infix_docLine_iff]

/-- The lines for a documentation text are none or one comment exactly if the
text does not hold the end of a comment: nothing is done about one that it
holds. -/
theorem docLines_isComment_iff (docs : Option String) :
    (docLines docs = [] ∨ IsCommentOf (docLines docs)) ↔
      ∀ text, docs = some text → ¬ commentEnd <:+: text.toList := by
  constructor
  · rintro hlines text rfl hfound
    obtain ⟨line, hline, hend⟩ := (exists_docLine_iff text).2 hfound
    have htrim : Text.trim text.toList ≠ [] := by
      intro hblank
      rw [hblank] at hline
      simp [Text.lines, Text.cutLine?] at hline
    rw [docLines_of_text htrim] at hlines
    rcases hlines with hlines | ⟨-, honly⟩
    · cases hlines
    · rw [List.dropLast_concat] at honly
      exact honly line (List.mem_cons_of_mem _ hline) hend
  · intro h
    cases docs with
    | none => exact .inl rfl
    | some text =>
        by_cases htrim : Text.trim text.toList = []
        · exact .inl (docLines_of_blank htrim)
        · have hnone : ∀ line ∈ (Text.lines (Text.trim text.toList)).map docLine,
              ¬ commentEnd <:+: line.toList := fun line hline hend =>
            h text rfl ((exists_docLine_iff text).1 ⟨line, hline, hend⟩)
          have hopen : ¬ commentEnd <:+: "        /**".toList := by decide
          rw [docLines_of_text htrim]
          refine .inr ⟨isBlockComment_joinLines hnone, ?_⟩
          rw [List.dropLast_concat]
          exact List.forall_mem_cons.2 ⟨hopen, hnone⟩

/-- A file pattern in a documentation text ends the comment early. -/
theorem comment_ended_by_pattern :
    let docs := "Reads src/*/a.ts\n\n  and no other file "
    docLines (some docs) =
        ["        /**", "          * Reads src/*/a.ts", "          *",
          "          *   and no other file", "         */"] ∧
      commentEnd <:+: "          * Reads src/*/a.ts".toList ∧
      ¬ (docLines (some docs) = [] ∨ IsCommentOf (docLines (some docs))) := by
  intro docs
  have hlines : docLines (some docs) =
      ["        /**", "          * Reads src/*/a.ts", "          *",
        "          *   and no other file", "         */"] := by decide +kernel
  have hend : commentEnd <:+: "          * Reads src/*/a.ts".toList := by decide
  refine ⟨hlines, hend, ?_⟩
  rw [hlines]
  rintro (hnone | ⟨-, honly⟩)
  · cases hnone
  · exact honly _ (by simp) hend

end Declarations

end ComponentBuild
