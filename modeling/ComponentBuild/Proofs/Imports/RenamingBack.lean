import ComponentBuild.Proofs.Imports.Names
import ComponentBuild.Proofs.SortedMap.Inverted

/-!
# Renaming back

Renaming the words of a text by identifiers leaves the cut of the text into
tokens as it is: a word stays one word, and what divides two of them stays
between them.  So a renaming that gives different names to different words, and
only names that the text does not have, can be undone.
-/

namespace ComponentBuild

namespace TypeText

variable {classes : CharClasses}

/-! ## Texts as their tokens -/

/-- What a word can stand before: something that does not go on as it does. -/
def PartsWord (classes : CharClasses) : List TypeToken → Prop
  | .word _ :: _ => False
  | .other c :: _ => classes.continuesWord c = false
  | _ => True

inductive Lexed (classes : CharClasses) : List TypeToken → Prop
  | nil : Lexed classes []
  | word {name : List Char} {rest : List TypeToken}
      (identifier : classes.isIdentifier name = true)
      (parted : PartsWord classes rest) (next : Lexed classes rest) :
      Lexed classes (.word name :: rest)
  | quoted {q : Char} {body : List Char} {rest : List TypeToken}
      (quote : isQuote q = true)
      (closed : ∀ more, cutString q (body ++ more) = (body, more))
        (next : Lexed classes rest) :
      Lexed classes (.quoted (q :: body) :: rest)
  | unclosed {q : Char} {body : List Char} (quote : isQuote q = true)
      (cut : cutString q body = (body, [])) : Lexed classes [.quoted (q :: body)]
  | other {c : Char} {rest : List TypeToken} (quote : isQuote c = false)
      (start : classes.startsWord c = false) (next : Lexed classes rest) :
      Lexed classes (.other c :: rest)

private theorem cutString_closed {q : Char} (hq : isQuote q = true)
    {text : List Char} (hrest : (cutString q text).2 ≠ []) (more : List Char) :
    cutString q ((cutString q text).1 ++ more) = ((cutString q text).1,
      more) := by
  have hquote := ne_backslash_of_isQuote hq
  fun_induction cutString q text with
  | case1 => exact absurd rfl hrest
  | case2 c rest ih =>
      rw [List.cons_append, List.cons_append, cutString.eq_2, ih hrest]
  | case3 rest =>
      rw [List.singleton_append,
        cutString.eq_3 _ _ _ fun _ _ hbackslash => absurd hbackslash hquote,
        if_pos rfl]
  | case4 c rest hescape hc ih =>
      have hbackslash := ne_backslash_of_unescaped hescape hrest
      rw [List.cons_append, cutString.eq_3 _ _ _ fun _ _ hc =>
        absurd hc hbackslash, if_neg hc, ih hrest]

private theorem cutString_unclosed {q : Char} {text : List Char}
    (hrest : (cutString q text).2 = []) :
    cutString q text = (text, []) := by
  have happend := cutString_append q text
  rw [hrest, List.append_nil] at happend
  exact Prod.ext happend hrest

private theorem partsWord_tokens {text : List Char} (h : Parted classes text)
    (hclasses : classes.Regular) :
    PartsWord classes (tokens classes text) := by
  cases text with
  | nil => simp [tokens, PartsWord]
  | cons c rest =>
      have hc := h c rest rfl
      rw [tokens]
      split
      · trivial
      · split
        · rename_i hstart
          rw [hclasses.continuesWord_of_starts hstart] at hc
          cases hc
        · exact hc

private theorem lexed_tokens (h : classes.Regular) (text : List Char) :
    Lexed classes (tokens classes text) := by
  fun_induction tokens classes text with
  | case1 => exact .nil
  | case2 c rest hc ih =>
      by_cases hmore : (cutString c rest).2 = []
      · have hcut := cutString_unclosed hmore
        rw [hcut, tokens]
        exact .unclosed hc hcut
      · exact .quoted hc (cutString_closed hc hmore) ih
  | case3 c rest hquote hstart ih =>
      refine .word ?_ (partsWord_tokens (parted_dropWhile rest) h) ih
      rw [CharClasses.isIdentifier, hstart, Bool.true_and]
      exact List.all_takeWhile
  | case4 c rest hquote hstart ih =>
      exact .other (by simpa using hquote) (by simpa using hstart) ih

theorem PartsWord.parted {rest : List TypeToken} (h : PartsWord classes rest)
    (hlexed : Lexed classes rest) (hclasses : classes.Regular) :
    Parted classes (rest.flatMap TypeToken.text) := by
  intro c more htext
  cases hlexed with
  | nil => cases htext
  | word => exact h.elim
  | quoted quote =>
      obtain rfl : _ = c := by
        simpa [TypeToken.text] using congrArg List.head? htext
      exact hclasses.not_continuesWord_of_quote quote
  | unclosed quote =>
      obtain rfl : _ = c := by
        simpa [TypeToken.text] using congrArg List.head? htext
      exact hclasses.not_continuesWord_of_quote quote
  | other =>
      obtain rfl : _ = c := by
        simpa [TypeToken.text] using congrArg List.head? htext
      exact h

theorem Lexed.tokens_text (h : classes.Regular) {parts : List TypeToken}
    (hlexed : Lexed classes parts) :
    tokens classes (parts.flatMap TypeToken.text) = parts := by
  induction hlexed with
  | nil => simp [tokens]
  | word identifier parted next ih =>
      obtain ⟨c, name, rfl, hstart, hname⟩ :=
        CharClasses.exists_cons_of_isIdentifier identifier
      have hquote : ¬ isQuote c = true := fun hquote => by
        rw [h.not_startsWord_of_quote hquote] at hstart
        cases hstart
      obtain ⟨htake, hdrop⟩ :=
        takeWhile_append_parted hname (parted.parted next h)
      rw [List.flatMap_cons, TypeToken.text, List.cons_append, tokens,
        if_neg hquote, if_pos hstart, htake, hdrop, ih]
  | quoted quote closed next ih =>
      simp [TypeToken.text, tokens, quote, closed, ih]
  | unclosed quote cut =>
      simp [TypeToken.text, tokens, quote, cut]
  | other quote start next ih =>
      simp [TypeToken.text, tokens, quote, start, ih]

/-! ## Renamed tokens -/

section

variable {renames : SortedMap String String}

private theorem partsWord_renameTokens {afterDot : Bool} {rest : List TypeToken}
    (h : PartsWord classes rest) :
    PartsWord classes (renameTokens classes renames afterDot rest) := by
  cases rest with
  | nil => exact h
  | cons t rest =>
      cases t with
      | word name => exact h.elim
      | quoted text => exact h
      | other c => exact h

theorem Lexed.renameTokens {parts : List TypeToken} (h : Lexed classes parts)
    (htargets : ∀ name target, renames.get? name = some target →
      classes.isIdentifier target.toList = true) (afterDot : Bool) :
    Lexed classes (renameTokens classes renames afterDot parts) := by
  induction h generalizing afterDot with
  | nil => exact .nil
  | @word name rest identifier parted next ih =>
      refine .word ?_ (partsWord_renameTokens parted) (ih false)
      cases afterDot with
      | true => exact identifier
      | false =>
          cases htarget : renames.get? (String.ofList name) with
          | none => simpa [htarget] using identifier
          | some target => simpa [htarget] using htargets _ _ htarget
  | quoted quote closed next ih => exact .quoted quote closed (ih false)
  | unclosed quote cut => exact .unclosed quote cut
  | other quote start next ih => exact .other quote start (ih _)

theorem renameTokens_inverted (hinjective : renames.IsInjective)
    {parts : List TypeToken}
    (hunused : ∀ name target, renames.get? name = some target →
      .word target.toList ∉ parts)
    (afterDot : Bool) :
    renameTokens classes renames.inverted afterDot
      (renameTokens classes renames afterDot parts) =
      parts := by
  induction parts generalizing afterDot with
  | nil => rfl
  | cons t parts ih =>
      have hrest := ih fun name target htarget hmem =>
        hunused name target htarget (List.mem_cons_of_mem t hmem)
      cases t with
      | quoted text => rw [TypeText.renameTokens, TypeText.renameTokens, hrest]
      | other c => rw [TypeText.renameTokens, TypeText.renameTokens, hrest]
      | word name =>
          rw [TypeText.renameTokens, TypeText.renameTokens, hrest]
          cases afterDot with
          | true => rfl
          | false =>
              cases htarget : renames.get? (String.ofList name) with
              | some target =>
                  have hback := (SortedMap.get?_inverted hinjective).2 htarget
                  simp [hback]
              | none =>
                  have hback :
                      renames.inverted.get? (String.ofList name) = none := by
                    rw [Option.eq_none_iff_forall_not_mem]
                    intro source hsource
                    have hforth := (SortedMap.get?_inverted hinjective).1 hsource
                    exact hunused _ _ hforth (by simp)
                  simp [hback]

end

/-- Renaming back gives the text again. -/
theorem rename_back (hclasses : classes.Regular)
    {renames : SortedMap String String} (hinjective : renames.IsInjective)
    {text : List Char}
    (htargets : ∀ name target, renames.get? name = some target →
      classes.isIdentifier target.toList = true ∧
      ¬ HasName classes [] text target.toList) :
    renameWith classes renames.inverted (renameWith classes renames text) =
      text := by
  have hlexed := (lexed_tokens hclasses text).renameTokens
    (fun name target htarget => (htargets name target htarget).1) false
  have hunused : ∀ name target, renames.get? name = some target →
      .word target.toList ∉ tokens classes text := fun name target htarget hmem =>
    (htargets name target htarget).2
      ((word_mem_tokens_iff hclasses (boundary_start text)).1 hmem)
  rw [renameWith, renameWith, hlexed.tokens_text hclasses,
    renameTokens_inverted hinjective hunused, text_tokens]

/-- A name of a renaming that stands in a string, and in a longer word, is not a
name of the text. -/
theorem rename_back_quoted :
    let renames : SortedMap String String :=
      .ofList [("Item", "Item1"), ("Row", "Item")]
    let text := "ns.Item1s | 2Row[] | \"Item1 \\\" Item\" | Row<'Row".toList
    CharClasses.unicode.Regular ∧ renames.IsInjective ∧
      (∀ name target, renames.get? name = some target →
        CharClasses.unicode.isIdentifier target.toList = true ∧
          ¬ HasName .unicode [] text target.toList) ∧
      renameWith .unicode renames text =
        "ns.Item1s | 2Item[] | \"Item1 \\\" Item\" | Item<'Row".toList ∧
      renameWith .unicode renames.inverted (renameWith .unicode renames text) =
        text := by
  intro renames text
  have hinjective : renames.IsInjective :=
    SortedMap.isInjective_of_nodup (by decide)
  have hentries : ∀ e ∈ renames.entries,
      CharClasses.unicode.isIdentifier e.2.toList = true ∧
      .word e.2.toList ∉ tokens .unicode text := by decide +kernel
  have htargets : ∀ name target, renames.get? name = some target →
      CharClasses.unicode.isIdentifier target.toList = true ∧
        ¬ HasName .unicode [] text target.toList := by
    intro name target htarget
    obtain ⟨hidentifier, hword⟩ :=
      hentries _ (SortedMap.mem_entries_of_get? htarget)
    rw [word_mem_tokens_iff CharClasses.regular_unicode (boundary_start text)]
      at hword
    exact ⟨hidentifier, hword⟩
  exact ⟨CharClasses.regular_unicode, hinjective, htargets, by decide +kernel,
    rename_back CharClasses.regular_unicode hinjective htargets⟩

end TypeText

end ComponentBuild
