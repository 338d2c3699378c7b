import Mathlib.Data.List.DropRight
import ComponentBuild.Proofs.Imports.Names

/-!
# Standalone names

A renaming replaces the names in a text and copies everything else.  Which names
it leaves as they are is decided by the last character before them that is not
blank: behind a dot stands the member of a property access.  A dot is also the
last character of a spread, and what stands behind a spread is a name of its
own.
-/

namespace ComponentBuild

namespace TypeText

/-! ## Names replaced by their images -/

/-- The text `out` is the text behind `before` with every name in it replaced by
its image. -/
inductive Rewrites (classes : CharClasses)
    (image : List Char → List Char → List Char) :
    (before text out : List Char) → Prop
  | nil {before : List Char} : Rewrites classes image before [] []
  | name {before name after out : List Char}
      (here : NameAt classes before name after)
      (next : Rewrites classes image (before ++ name) after out) :
      Rewrites classes image before (name ++ after) (image before name ++ out)
  | copy {before rest out : List Char} {c : Char}
      (none : ∀ name after, c :: rest = name ++ after →
        ¬ NameAt classes before name after)
      (next : Rewrites classes image (before ++ [c]) rest out) :
      Rewrites classes image before (c :: rest) (c :: out)

section

variable {classes : CharClasses} {image image' : List Char →
    List Char → List Char}
  {before text out out' : List Char}

theorem Rewrites.of_name (hclasses : classes.Regular) {name after : List Char}
    (hname : NameAt classes before name after)
    (h : Rewrites classes image before (name ++ after) out) :
    ∃ rest, out = image before name ++ rest ∧
      Rewrites classes image (before ++ name) after rest := by
  generalize htext : name ++ after = text at h
  cases h with
  | nil =>
      obtain ⟨c, rest, rfl, -⟩ := hname.exists_cons
      cases htext
  | @name _ name' after' rest here next =>
      have hsame : NameAt classes (before ++ []) name' after' := by
        simpa using here
      rcases hname.beyond hclasses hsame (by simpa using htext) with ⟨-, rfl,
        rfl⟩ | ⟨x, hx, -⟩
      · exact ⟨rest, rfl, next⟩
      · obtain ⟨c, tail, rfl, -⟩ := hname.exists_cons
        cases hx
  | copy none => exact absurd hname (none name after htext.symm)

theorem Rewrites.of_copy {c : Char} {rest : List Char}
    (hnone : ∀ name after, c :: rest = name ++ after →
      ¬ NameAt classes before name after)
    (h : Rewrites classes image before (c :: rest) out) :
    ∃ more, out = c :: more ∧ Rewrites classes image (before ++ [c])
      rest more := by
  generalize htext : c :: rest = text at h
  cases h with
  | nil => cases htext
  | name here => exact absurd here (hnone _ _ htext)
  | @copy _ rest' more c' none next =>
      obtain ⟨rfl, rfl⟩ := List.cons.inj htext
      exact ⟨more, rfl, next⟩

theorem Rewrites.copies {u rest : List Char}
    (hnone : ∀ front back name after, u = front ++ back → back ≠ [] →
      back ++ rest = name ++ after →
      ¬ NameAt classes (before ++ front) name after)
    (next : Rewrites classes image (before ++ u) rest out) :
    Rewrites classes image before (u ++ rest) (u ++ out) := by
  induction u generalizing before with
  | nil => simpa using next
  | cons c u ih =>
      refine .copy (fun name after htext => ?_)
        (ih (fun front back name after hu hback htext => ?_) ?_)
      · simpa using hnone [] (c :: u) name after rfl (by simp) htext
      · simpa using hnone (c :: front) back name after
          (by rw [hu]; rfl) hback htext
      · simpa using next

theorem Rewrites.congr (h : Rewrites classes image before text out)
    (himage : ∀ u name after, text = u ++ (name ++ after) →
      NameAt classes (before ++ u) name after →
      image (before ++ u) name = image' (before ++ u) name) :
    Rewrites classes image' before text out := by
  induction h with
  | nil => exact .nil
  | @name before name after out here next ih =>
      have hsame : image before name = image' before name := by
        simpa using himage [] name after rfl (by simpa using here)
      rw [hsame]
      refine .name here (ih fun u name' after' hafter hname => ?_)
      simpa using himage (name ++ u) name' after' (by simp [hafter])
        (by simpa using hname)
  | @copy before rest out c none next ih =>
      refine .copy none (ih fun u name after hrest hname => ?_)
      simpa using himage (c :: u) name after (by simp [hrest])
        (by simpa using hname)

/-! ## Images read off the rewritten text -/

def countApart (classes : CharClasses) (text : List Char) : Nat :=
  text.countP fun c => !classes.continuesWord c

private theorem countApart_append (u v : List Char) :
    countApart classes (u ++ v) = countApart classes u + countApart classes v :=
  List.countP_append

private theorem countApart_eq_zero_iff :
    countApart classes text = 0 ↔ ∀ c ∈ text, classes.continuesWord c = true := by
  simp [countApart, List.countP_eq_zero]

private theorem countApart_name (hclasses : classes.Regular)
    {name after : List Char} (h : NameAt classes before name after) :
    countApart classes name = 0 :=
  countApart_eq_zero_iff.2 (hclasses.continuesWord_of_mem h.identifier)

theorem Rewrites.parted (hclasses : classes.Regular)
    (h : Rewrites classes image before text out) (hparted : Parted classes text) :
    Parted classes out := by
  cases h with
  | nil => exact hparted
  | @name _ name after _ here =>
      obtain ⟨c, rest, rfl, hstart⟩ := here.exists_cons
      have hc := hparted c (rest ++ after) rfl
      rw [hclasses.continuesWord_of_starts hstart] at hc
      cases hc
  | @copy _ rest more c =>
      intro d tail htext
      obtain ⟨rfl, -⟩ := List.cons.inj htext
      exact hparted c rest rfl

section

variable (hclasses : classes.Regular)
  (hkept : ∀ before name, image before name = image' before name ∨
    image before name = name)
  (h : Rewrites classes image before text out)

include hclasses hkept h

theorem Rewrites.countApart_le (h' : Rewrites classes image' before text out') :
    countApart classes out ≤ countApart classes out' := by
  induction h generalizing out' with
  | nil => simp [countApart]
  | @name before name after out here next ih =>
      obtain ⟨rest, rfl, hrest⟩ := h'.of_name hclasses here
      have hnext := ih hrest
      rw [countApart_append, countApart_append]
      rcases hkept before name with hsame | hname
      · rw [hsame]
        omega
      · rw [hname, countApart_name hclasses here]
        omega
  | @copy before rest out c none next ih =>
      obtain ⟨more, rfl, hmore⟩ := h'.of_copy none
      have hnext := ih hmore
      simp only [countApart, List.countP_cons] at hnext ⊢
      omega

/-- The images of the names can be read off the text in which some names were
kept: where the two texts part, one has the name, the other its image, and both
go on with a character that is in no word. -/
theorem Rewrites.image_eq (h' : Rewrites classes image' before text out)
    {u name after : List Char} (htext : text = u ++ (name ++ after))
    (hname : NameAt classes (before ++ u) name after) :
    image (before ++ u) name = image' (before ++ u) name := by
  induction h generalizing u with
  | nil =>
      obtain ⟨c, rest, rfl, -⟩ := hname.exists_cons
      simp at htext
  | @name before first rest out here next ih =>
      obtain ⟨out', hout, hrest⟩ := h'.of_name hclasses here
      have heq : image before first = image' before first ∧ out = out' := by
        rcases hkept before first with hsame | hkeep
        · exact ⟨hsame, by simpa [hsame] using hout⟩
        · have hle := next.countApart_le hclasses hkept hrest
          have hcount := congrArg (countApart classes) hout
          rw [countApart_append, countApart_append, hkeep,
            countApart_name hclasses here] at hcount
          have hword : countApart classes (image' before first) = 0 := by omega
          have hparted := ((nameAt_iff hclasses).1 here).2.2.2
          have hleft :=
            takeWhile_append_parted
              (hclasses.continuesWord_of_mem here.identifier)
            (next.parted hclasses hparted)
          have hright := takeWhile_append_parted (countApart_eq_zero_iff.1 hword)
            (hrest.parted hclasses hparted)
          rw [hkeep] at hout
          rw [hout] at hleft
          exact ⟨hkeep.trans (hleft.1.symm.trans hright.1),
            hleft.2.symm.trans hright.2⟩
      obtain ⟨hfirst, rfl⟩ := heq
      rcases here.beyond hclasses hname htext with ⟨rfl, rfl, -⟩ | ⟨x, rfl, hx⟩
      · simpa using hfirst
      · simpa using ih hrest hx (by simpa using hname)
  | @copy before rest out c none next ih =>
      obtain ⟨more, hout, hmore⟩ := h'.of_copy none
      obtain rfl := (List.cons.inj hout).2
      cases u with
      | nil => exact absurd (by simpa using hname) (none name after htext)
      | cons d u =>
          obtain ⟨rfl, hrest⟩ := List.cons.inj htext
          simpa using ih hmore hrest (by simpa using hname)

end

end

/-! ## What stands before a name -/

section

variable {classes : CharClasses} {before : List Char} {c : Char}

def significant (classes : CharClasses) (text : List Char) : List Char :=
  text.rdropWhile classes.blank

def AfterDot (classes : CharClasses) (before : List Char) : Prop :=
  ".".toList <:+ significant classes before

def AfterSpread (classes : CharClasses) (before : List Char) : Prop :=
  "...".toList <:+ significant classes before

def IsMember (classes : CharClasses) (before : List Char) : Prop :=
  AfterDot classes before ∧ ¬ AfterSpread classes before

instance : DecidablePred (AfterDot classes) := fun before =>
  inferInstanceAs (Decidable (".".toList <:+ significant classes before))

instance : DecidablePred (AfterSpread classes) := fun before =>
  inferInstanceAs (Decidable ("...".toList <:+ significant classes before))

instance : DecidablePred (IsMember classes) := fun before =>
  inferInstanceAs (Decidable (AfterDot classes before ∧
    ¬ AfterSpread classes before))

theorem AfterSpread.afterDot (h : AfterSpread classes before) :
    AfterDot classes before :=
  List.IsSuffix.trans (by decide) h

private theorem not_afterDot_nil : ¬ AfterDot classes [] := by
  simp [AfterDot, significant]

private theorem afterDot_concat (before : List Char) (c : Char) :
    AfterDot classes (before ++ [c]) ↔
      if classes.blank c then AfterDot classes before else c = '.' := by
  unfold AfterDot significant
  split
  · rename_i hblank
    rw [List.rdropWhile_concat_pos _ _ _ hblank]
  · rename_i hblank
    rw [List.rdropWhile_concat_neg _ _ _ hblank]
    constructor
    · rintro ⟨front, hfront⟩
      simpa using (List.append_inj' hfront.symm rfl).2
    · rintro rfl
      exact List.suffix_append before ".".toList

def aliasFor (renames : SortedMap String String) (name : List Char) : List Char :=
  ((renames.get? (String.ofList name)).map String.toList).getD name

def renamedUnless (renames : SortedMap String String) (exempt : List Char → Prop)
    [DecidablePred exempt] (before name : List Char) : List Char :=
  if exempt before then name else aliasFor renames name

end

end TypeText

namespace CharClasses

/-- Blank characters are in no word and open no string. -/
structure BlanksApart (classes : CharClasses) : Prop where
  word : ∀ c, classes.blank c = true → classes.continuesWord c = false
  quote : ∀ c, classes.blank c = true → TypeText.isQuote c = false

private theorem blanksApart_unicode : unicode.BlanksApart where
  word _ h := not_continuesWord_of_isBlank h
  quote c h := by
    rw [Bool.eq_false_iff]
    intro hquote
    simp only [TypeText.isQuote, Bool.or_eq_true, beq_iff_eq] at hquote
    rcases hquote with (rfl | rfl) | rfl <;> cases h

end CharClasses

namespace TypeText

/-! ## What the renaming does -/

section

variable {classes : CharClasses} (h : classes.Regular)
    (hblanks : classes.BlanksApart)
  {before : List Char}

include h hblanks

private theorem not_afterDot_word {name : List Char}
    (hname : classes.isIdentifier name = true) :
    ¬ AfterDot classes (before ++ name) := by
  have hword := h.continuesWord_of_mem hname
  rcases List.eq_nil_or_concat name with rfl | ⟨front, last, rfl⟩
  · cases hname
  · have hlast : classes.continuesWord last = true := hword last (by simp)
    rw [List.concat_eq_append, ← List.append_assoc, afterDot_concat]
    split
    · rename_i hblank
      rw [hblanks.word last hblank] at hlast
      cases hlast
    · rintro rfl
      rw [h.not_continuesWord_dot] at hlast
      cases hlast

omit h in
private theorem not_afterDot_quoted {q : Char} (hq : isQuote q = true)
    {text : List Char} (hrest : (cutString q text).2 ≠ []) :
    ¬ AfterDot classes (before ++ q :: (cutString q text).1) := by
  obtain ⟨front, hfront⟩ := exists_cutString_eq_concat hrest
  rw [hfront, ← List.cons_append, ← List.append_assoc, afterDot_concat]
  split
  · rename_i hblank
    rw [hblanks.quote q hblank] at hq
    cases hq
  · rintro rfl
    cases hq

theorem rewrites_renameTokens (renames : SortedMap String String)
    {text : List Char} (hb : Boundary classes before text) (afterDot : Bool)
    (hdot : text ≠ [] → (afterDot = true ↔ AfterDot classes before)) :
    Rewrites classes (renamedUnless renames (AfterDot classes)) before text
      ((renameTokens classes renames afterDot (tokens classes text)).flatMap
        TypeToken.text) := by
  fun_induction tokens classes text generalizing before afterDot with
  | case1 => exact .nil
  | case2 c rest hc ih =>
      have hnext := ih (hb.quoted h hc) false fun hmore => by
        simp [not_afterDot_quoted hblanks hc hmore]
      have hcopied :=
        Rewrites.copies (fun front back name after hquoted hback htext =>
        not_nameAt_quoted h hc (hb.outside (by simp)) hquoted hback htext) hnext
      simpa [renameTokens, TypeToken.text, cutString_append] using hcopied
  | case3 c rest hquote hstart ih =>
      have hname := hb.nameAt h hstart
      have hnext := ih (hb.word h hstart) false fun _ => by
        simp [not_afterDot_word h hblanks hname.identifier]
      have himage : (if afterDot then c :: rest.takeWhile classes.continuesWord
          else aliasFor renames (c :: rest.takeWhile classes.continuesWord)) =
            renamedUnless renames (AfterDot classes) before
              (c :: rest.takeWhile classes.continuesWord) := by
        simp only [renamedUnless, hdot (by simp)]
      have hrenamed := Rewrites.name hname hnext
      rw [← himage, List.cons_append, List.takeWhile_append_dropWhile] at hrenamed
      exact hrenamed
  | case4 c rest hquote hstart ih =>
      rw [Bool.not_eq_true] at hquote hstart
      have hnext :=
        ih (hb.other h hquote hstart) (if classes.blank c then afterDot
          else c == '.')
        fun _ => by
          rw [afterDot_concat]
          split
          · exact hdot (by simp)
          · exact beq_iff_eq
      refine .copy (fun name after htext hname => ?_) hnext
      rw [hname.startsWord htext] at hstart
      cases hstart

end

private theorem rewrites_rename (renames : SortedMap String String)
    (text : String) :
    Rewrites .unicode (renamedUnless renames (AfterDot .unicode)) [] text.toList
      (rename renames text).toList := by
  have hrewrites :=
    rewrites_renameTokens CharClasses.regular_unicode
      CharClasses.blanksApart_unicode
    renames (boundary_start text.toList) false fun _ => by simp [not_afterDot_nil]
  simpa [rename, renameWith] using hrewrites

section

variable {renames : SortedMap String String} {classes : CharClasses}

private theorem renamedUnless_member_or (before name : List Char) :
    renamedUnless renames (AfterDot classes) before name =
        renamedUnless renames (IsMember classes) before name ∨
      renamedUnless renames (AfterDot classes) before name = name := by
  by_cases hdot : AfterDot classes before
  · exact .inr (if_pos hdot)
  · exact .inl (by simp [renamedUnless, IsMember, hdot])

private theorem renamedUnless_member_eq_iff (before name : List Char) :
    renamedUnless renames (AfterDot classes) before name =
        renamedUnless renames (IsMember classes) before name ↔
      (AfterSpread classes before → aliasFor renames name = name) := by
  by_cases hspread : AfterSpread classes before
  · simp [renamedUnless, IsMember, hspread, hspread.afterDot, eq_comm]
  · simp [renamedUnless, IsMember, hspread]

end

/-- Names are renamed unless a dot stands before them.  This is to rename all
names but the members of property accesses exactly if no name that a spread
stands before has another name in the renaming. -/
theorem rename_standalone_iff (renames : SortedMap String String)
    (text : String) :
    Rewrites .unicode (renamedUnless renames (AfterDot .unicode)) [] text.toList
        (rename renames text).toList ∧
      (Rewrites .unicode (renamedUnless renames (IsMember .unicode))
        [] text.toList
          (rename renames text).toList ↔
        ∀ before name after, text.toList = before ++ (name ++ after) →
          NameAt .unicode before name after → AfterSpread .unicode before →
            aliasFor renames name = name) := by
  have hdone := rewrites_rename renames text
  refine ⟨hdone, fun hmember before name after htext hname => ?_,
    fun hsame => hdone.congr ?_⟩
  · exact (renamedUnless_member_eq_iff before name).1
      (hdone.image_eq CharClasses.regular_unicode
        renamedUnless_member_or hmember htext
        (by simpa using hname))
  · intro before name after htext hname
    rw [List.nil_append] at hname ⊢
    exact (renamedUnless_member_eq_iff before name).2
      (hsame before name after htext hname)

/-- The operand of a spread in a tuple is not renamed. -/
theorem spread_operand_kept :
    let renames : SortedMap String String := .ofList [("Item", "Item1")]
    let text := "[string, ...Item]"
    rename renames text = text ∧
      ¬ Rewrites .unicode (renamedUnless renames (IsMember .unicode))
        [] text.toList
        (rename renames text).toList := by
  intro renames text
  refine ⟨by decide +kernel, fun hmember => ?_⟩
  have hregular := CharClasses.regular_unicode
  have hname : NameAt .unicode "[string, ...".toList "Item".toList "]".toList :=
    (nameAt_iff hregular).2 ⟨by decide, by decide,
      endsNone_concat hregular hregular.not_continuesWord_dot
        "[string, ..".toList,
      fun c rest htext => by obtain ⟨rfl, -⟩ := List.cons.inj htext; decide⟩
  have himage := (rewrites_rename renames text).image_eq hregular
    renamedUnless_member_or hmember (u := "[string, ...".toList) (by decide) hname
  revert himage
  decide +kernel

end TypeText

end ComponentBuild
