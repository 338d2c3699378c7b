import ComponentBuild.Imports.Renaming

/-!
# The names in a type text

A name in a text is a stretch of it outside of strings that is an identifier and
lies in no longer one. That is said here of the text alone: whether a string is
open is read off all that stands before a place.  The words into which a text is
cut are names in this sense, and a name begins where a word does or not at all.
-/

namespace ComponentBuild

namespace CharClasses

/-- Letters are among the letters and digits, and what has a meaning of its own
in a type text is not. -/
structure Regular (classes : CharClasses) : Prop where
  letter : ∀ c, classes.letter c = true → classes.letterOrDigit c = true
  quote : ∀ c, TypeText.isQuote c = true → classes.letterOrDigit c = false
  backslash : classes.letterOrDigit '\\' = false
  dot : classes.letterOrDigit '.' = false
  blank : ∀ c, classes.blank c = true → classes.letterOrDigit c = false

variable {classes : CharClasses}

namespace Regular

variable (h : classes.Regular)

include h

theorem continuesWord_of_starts {c : Char} (hc : classes.startsWord c = true) :
    classes.continuesWord c = true := by
  simp only [startsWord, continuesWord, Bool.or_eq_true] at hc ⊢
  rcases hc with (hc | hc) | hc
  · exact .inl (.inl (h.letter c hc))
  · exact .inl (.inr hc)
  · exact .inr hc

theorem not_continuesWord_of_quote {c : Char} (hc : TypeText.isQuote c = true) :
    classes.continuesWord c = false := by
  have hplain := h.quote c hc
  simp only [TypeText.isQuote, Bool.or_eq_true, beq_iff_eq] at hc
  rcases hc with (rfl | rfl) | rfl <;> simp [continuesWord, hplain]

theorem not_startsWord_of_quote {c : Char} (hc : TypeText.isQuote c = true) :
    classes.startsWord c = false := by
  rw [Bool.eq_false_iff]
  intro hstart
  have hplain := h.not_continuesWord_of_quote hc
  rw [h.continuesWord_of_starts hstart] at hplain
  cases hplain

theorem not_continuesWord_dot : classes.continuesWord '.' = false := by
  simp [continuesWord, h.dot]

end Regular

def blankCodes : List Nat :=
  [9, 10, 11, 12, 13, 32, 0x85, 0xa0, 0x1680, 0x2000, 0x2001, 0x2002, 0x2003,
    0x2004, 0x2005, 0x2006,
    0x2007, 0x2008, 0x2009, 0x200a, 0x2028, 0x2029, 0x202f, 0x205f, 0x3000]

private theorem exists_blankCode {c : Char} (h : Text.isBlank c = true) :
    ∃ n ∈ blankCodes, c = Char.ofNat n := by
  refine ⟨c.toNat, ?_, (Char.ofNat_toNat c).symm⟩
  simp only [Text.isBlank, Bool.or_eq_true, Bool.and_eq_true, decide_eq_true_eq,
    beq_iff_eq] at h
  simp only [blankCodes, List.mem_cons, List.not_mem_nil, or_false]
  omega

theorem not_continuesWord_of_isBlank {c : Char} (h : Text.isBlank c = true) :
    unicode.continuesWord c = false := by
  have hnone : ∀ n ∈ blankCodes,
      unicode.continuesWord (Char.ofNat n) = false := by decide +kernel
  obtain ⟨n, hn, rfl⟩ := exists_blankCode h
  exact hnone n hn

theorem regular_unicode : unicode.Regular where
  letter _ h := Text.isLetterOrDigit_of_isLetter h
  quote c h := by
    simp only [TypeText.isQuote, Bool.or_eq_true, beq_iff_eq] at h
    rcases h with (rfl | rfl) | rfl <;> decide
  backslash := by decide
  dot := by decide
  blank c h := by
    have hword := not_continuesWord_of_isBlank h
    simp only [continuesWord, Bool.or_eq_false_iff] at hword
    exact hword.1.1

/-! ## Identifiers -/

def isIdentifier (classes : CharClasses) : List Char → Bool
  | [] => false
  | c :: rest => classes.startsWord c && rest.all classes.continuesWord

private theorem isIdentifier_append {u v : List Char} (hu : u ≠ []) :
    classes.isIdentifier (u ++ v) =
      (classes.isIdentifier u && v.all classes.continuesWord) := by
  obtain ⟨c, u, rfl⟩ := List.exists_cons_of_ne_nil hu
  simp [isIdentifier, Bool.and_assoc]

theorem exists_cons_of_isIdentifier {name : List Char}
    (h : classes.isIdentifier name = true) :
    ∃ c rest, name = c :: rest ∧ classes.startsWord c = true ∧
      ∀ d ∈ rest, classes.continuesWord d = true := by
  cases name with
  | nil => cases h
  | cons c rest =>
      rw [isIdentifier, Bool.and_eq_true, List.all_eq_true] at h
      exact ⟨c, rest, rfl, h.1, h.2⟩

theorem Regular.continuesWord_of_mem (h : classes.Regular) {name : List Char}
    (hname : classes.isIdentifier name = true) :
    ∀ c ∈ name, classes.continuesWord c = true := by
  obtain ⟨c, rest, rfl, hstart, hrest⟩ := exists_cons_of_isIdentifier hname
  exact List.forall_mem_cons.2 ⟨h.continuesWord_of_starts hstart, hrest⟩

end CharClasses

namespace TypeText

/-! ## Open strings -/

/-- Where a text leaves its reader.  Behind a backslash in a string the next
character has no meaning. -/
inductive StringState where
  | outside
  | inside (quote : Char)
  | escaped (quote : Char)
  deriving DecidableEq, Repr

namespace StringState

def step : StringState → Char → StringState
  | outside, c => if isQuote c then inside c else outside
  | inside quote, c => if c = '\\' then escaped quote
      else if c = quote then outside else inside quote
  | escaped quote, _ => inside quote

end StringState

def stateAfter (text : List Char) : StringState :=
  text.foldl StringState.step .outside

private theorem stateAfter_append (u v : List Char) :
    stateAfter (u ++ v) = v.foldl StringState.step (stateAfter u) := by
  rw [stateAfter, List.foldl_append, stateAfter]

section

variable {classes : CharClasses}

private theorem stateAfter_word (h : classes.Regular) {before name : List Char}
    (hbefore : stateAfter before = .outside)
    (hname : ∀ c ∈ name, classes.continuesWord c = true) :
    stateAfter (before ++ name) = .outside := by
  rw [stateAfter_append, hbefore]
  induction name with
  | nil => rfl
  | cons c name ih =>
      obtain ⟨hc, hrest⟩ := List.forall_mem_cons.1 hname
      have hquote : isQuote c = false := by
        rw [Bool.eq_false_iff]
        intro hquote
        simp [h.not_continuesWord_of_quote hquote] at hc
      simpa [StringState.step, hquote] using ih hrest

theorem inside_cutString {q : Char} {text u v : List Char}
    (hcut : (cutString q text).1 = u ++ v) (hv : v ≠ []) :
    u.foldl StringState.step (.inside q) ≠ .outside := by
  fun_induction cutString q text generalizing u with
  | case1 => exact absurd (List.append_eq_nil_iff.1 hcut.symm).2 hv
  | case2 c rest ih =>
      cases u with
      | nil => simp
      | cons d u =>
          cases u with
          | nil =>
              simp only [List.singleton_append, List.cons.injEq] at hcut
              simp [StringState.step, ← hcut.1]
          | cons e u =>
              simp only [List.cons_append, List.cons.injEq] at hcut
              simpa [StringState.step, ← hcut.1] using ih hcut.2.2
  | case3 rest =>
      cases u with
      | nil => simp
      | cons d u => simp_all
  | case4 c rest hescape hc ih =>
      cases u with
      | nil => simp
      | cons d u =>
          simp only [List.cons_append, List.cons.injEq] at hcut
          obtain ⟨rfl, hbody⟩ := hcut
          by_cases hbackslash : c = '\\'
          · -- A backslash that escapes nothing is the last character.
            have hrest : rest = [] := by
              cases rest with
              | nil => rfl
              | cons e rest => exact (hescape e rest hbackslash rfl).elim
            rw [hrest] at hbody
            exact absurd (List.append_eq_nil_iff.1 hbody.symm).2 hv
          · simpa [StringState.step, hbackslash, hc] using ih hbody

theorem ne_backslash_of_isQuote {q : Char} (hq : isQuote q = true) :
    q ≠ '\\' := by
  rintro rfl
  cases hq

theorem ne_backslash_of_unescaped {q c : Char} {rest : List Char}
    (hescape : ∀ d more, c = '\\' → rest = d :: more → False)
    (hrest : (cutString q rest).2 ≠ []) :
    c ≠ '\\' := by
  intro hbackslash
  cases rest with
  | nil => exact hrest rfl
  | cons d more => exact hescape d more hbackslash rfl

private theorem outside_cutString {q : Char} (hq : isQuote q = true)
    {text : List Char} (hrest : (cutString q text).2 ≠ []) :
    (cutString q text).1.foldl StringState.step (.inside q) = .outside := by
  have hquote := ne_backslash_of_isQuote hq
  fun_induction cutString q text with
  | case1 => exact absurd rfl hrest
  | case2 c rest ih => simpa [StringState.step] using ih hrest
  | case3 rest => simp [StringState.step, hquote]
  | case4 c rest hescape hc ih =>
      have hbackslash := ne_backslash_of_unescaped hescape hrest
      simpa [StringState.step, hbackslash, hc] using ih hrest

theorem exists_cutString_eq_concat {q : Char} {text : List Char}
    (hrest : (cutString q text).2 ≠ []) :
    ∃ front, (cutString q text).1 = front ++ [q] := by
  fun_induction cutString q text with
  | case1 => exact absurd rfl hrest
  | case2 c rest ih =>
      obtain ⟨front, hfront⟩ := ih hrest
      exact ⟨'\\' :: c :: front, by rw [hfront]; rfl⟩
  | case3 rest => exact ⟨[], rfl⟩
  | case4 c rest _ _ ih =>
      obtain ⟨front, hfront⟩ := ih hrest
      exact ⟨c :: front, by rw [hfront]; rfl⟩

/-! ## Names -/

/-- A name between what stands before it and behind it: an identifier that does
not begin in a string, and that is in no longer identifier. -/
structure NameAt (classes : CharClasses) (before name after : List Char) :
    Prop where
  outside : stateAfter before = .outside
  identifier : classes.isIdentifier name = true
  maximal : ∀ front left right back, before = front ++ left →
    after = right ++ back →
    classes.isIdentifier (left ++ name ++ right) = true → left = [] ∧ right = []

section

variable {before name after : List Char}

theorem NameAt.exists_cons (h : NameAt classes before name after) :
    ∃ c rest, name = c :: rest ∧ classes.startsWord c = true := by
  obtain ⟨c, rest, hname, hstart, -⟩ :=
    CharClasses.exists_cons_of_isIdentifier h.identifier
  exact ⟨c, rest, hname, hstart⟩

theorem NameAt.startsWord (h : NameAt classes before name after) {c : Char}
    {rest : List Char} (htext : c :: rest = name ++ after) :
    classes.startsWord c = true := by
  obtain ⟨d, tail, rfl, hd⟩ := h.exists_cons
  rwa [(List.cons.inj htext).1]

end

def EndsNone (classes : CharClasses) (text : List Char) : Prop :=
  ∀ front left, text = front ++ left → classes.isIdentifier left = false

/-- The text does not go on as an identifier does. -/
def Parted (classes : CharClasses) (text : List Char) : Prop :=
  ∀ c rest, text = c :: rest → classes.continuesWord c = false

theorem takeWhile_append_parted {name rest : List Char}
    (hname : ∀ c ∈ name, classes.continuesWord c = true)
    (hrest : Parted classes rest) :
    (name ++ rest).takeWhile classes.continuesWord = name ∧
      (name ++ rest).dropWhile classes.continuesWord = rest := by
  rw [List.takeWhile_append_of_pos hname, List.dropWhile_append_of_pos hname]
  cases rest with
  | nil => simp
  | cons c rest => simp [hrest c rest rfl]

theorem nameAt_iff (h : classes.Regular) {before name after : List Char} :
    NameAt classes before name after ↔
      stateAfter before = .outside ∧ classes.isIdentifier name = true ∧
        EndsNone classes before ∧ Parted classes after := by
  constructor
  · intro hname
    obtain ⟨c, rest, rfl, -⟩ := hname.exists_cons
    refine ⟨hname.outside, hname.identifier, ?_, ?_⟩
    · intro front left hbefore
      rw [Bool.eq_false_iff]
      intro hleft
      have hne : left ≠ [] := by
        rintro rfl
        cases hleft
      have hall := h.continuesWord_of_mem hname.identifier
      refine hne (hname.maximal front left [] after hbefore rfl ?_).1
      rw [List.append_nil, CharClasses.isIdentifier_append hne, hleft,
        Bool.true_and, List.all_eq_true]
      exact hall
    · rintro d back rfl
      rw [Bool.eq_false_iff]
      intro hd
      have hlong : classes.isIdentifier ([] ++ (c :: rest) ++ [d]) = true := by
        rw [List.nil_append, CharClasses.isIdentifier_append (by simp),
          hname.identifier]
        simpa using hd
      exact absurd (hname.maximal before [] [d] back (by simp) rfl hlong).2
        (by simp)
  · rintro ⟨houtside, hname, hends, hparted⟩
    refine ⟨houtside, hname, fun front left right back hbefore hafter hlong => ?_⟩
    have hnameNe : name ≠ [] := by
      rintro rfl
      cases hname
    by_cases hleft : left = []
    · subst hleft
      refine ⟨rfl, ?_⟩
      rw [List.nil_append, CharClasses.isIdentifier_append hnameNe,
        Bool.and_eq_true, List.all_eq_true] at hlong
      cases right with
      | nil => rfl
      | cons d right =>
          have hd := hparted d (right ++ back) hafter
          simp [hlong.2 d List.mem_cons_self] at hd
    · rw [List.append_assoc, CharClasses.isIdentifier_append hleft,
        Bool.and_eq_true] at hlong
      simp [hends front left hbefore] at hlong

theorem endsNone_concat (h : classes.Regular) {c : Char}
    (hc : classes.continuesWord c = false) (text : List Char) :
    EndsNone classes (text ++ [c]) := by
  intro front left htext
  rw [Bool.eq_false_iff]
  intro hleft
  obtain ⟨last, rest, hne⟩ : ∃ last rest, left = rest ++ [last] := by
    rcases List.eq_nil_or_concat left with rfl | ⟨rest, last, rfl⟩
    · cases hleft
    · exact ⟨last, rest, List.concat_eq_append⟩
  subst hne
  rw [← List.append_assoc] at htext
  have hlast : c = last := by simpa using (List.append_inj' htext rfl).2
  rw [hlast, h.continuesWord_of_mem hleft last (by simp)] at hc
  cases hc

/-- The first of two names in a text ends before the second begins. -/
theorem NameAt.beyond (h : classes.Regular)
    {before v w rest after u : List Char} (hv : NameAt classes before v rest)
    (hw : NameAt classes (before ++ u) w after)
    (htext : v ++ rest = u ++ (w ++ after)) :
    u = [] ∧ w = v ∧ after = rest ∨ ∃ x,
      u = v ++ x ∧ rest = x ++ (w ++ after) := by
  rcases List.append_eq_append_iff.1 htext with ⟨x, hu, hrest⟩ | ⟨x, hvx, hwx⟩
  · exact .inr ⟨x, hu, hrest⟩
  · by_cases hu : u = []
    · subst hu
      rw [List.nil_append] at hvx
      subst hvx
      rw [List.append_nil] at hw
      rcases List.append_eq_append_iff.1 hwx with ⟨y, hy, hafter⟩ |
        ⟨y, hy, hafter⟩
      · have hlong : classes.isIdentifier ([] ++ w ++ y) = true := by
          simpa [← hy] using hv.identifier
        obtain rfl := (hw.maximal before [] y rest (by simp) hafter hlong).2
        exact .inl ⟨rfl, by simpa using hy.symm, hafter⟩
      · have hlong : classes.isIdentifier ([] ++ v ++ y) = true := by
          simpa [← hy] using hw.identifier
        obtain rfl := (hv.maximal before [] y after (by simp) hafter hlong).2
        exact .inl ⟨rfl, by simpa using hy, hafter.symm⟩
    · by_cases hx : x = []
      · subst hx
        exact .inr ⟨[], by simpa using hvx.symm, by simpa using hwx.symm⟩
      · -- The second name would begin within the first one, behind an identifier.
        have hbegin : classes.isIdentifier u = true := by
          have hall := hv.identifier
          rw [hvx, CharClasses.isIdentifier_append hu, Bool.and_eq_true] at hall
          exact hall.1
        have hends := ((nameAt_iff h).1 hw).2.2.1 before u rfl
        rw [hends] at hbegin
        cases hbegin

/-! ## Words -/

structure Boundary (classes : CharClasses) (before rest : List Char) : Prop where
  outside : rest ≠ [] → stateAfter before = .outside
  apart : EndsNone classes before ∨ Parted classes rest

theorem boundary_start (text : List Char) : Boundary classes [] text := by
  refine ⟨fun _ => rfl, .inl fun front left htext => ?_⟩
  rw [(List.append_eq_nil_iff.1 htext.symm).2]
  rfl

theorem parted_dropWhile (text : List Char) :
    Parted classes (text.dropWhile classes.continuesWord) := by
  intro c rest hrest
  have hhead := List.head?_dropWhile_not classes.continuesWord text
  simpa [hrest] using hhead

theorem Boundary.endsNone {before rest : List Char} {c : Char}
    (hb : Boundary classes before (c :: rest))
    (hc : classes.continuesWord c = true) :
    EndsNone classes before := by
  refine hb.apart.resolve_right fun hparted => ?_
  rw [hparted c rest rfl] at hc
  cases hc

section

variable (h : classes.Regular) {before rest : List Char} {c : Char}
  (hb : Boundary classes before (c :: rest))

include h hb

theorem Boundary.nameAt (hc : classes.startsWord c = true) :
    NameAt classes before (c :: rest.takeWhile classes.continuesWord)
      (rest.dropWhile classes.continuesWord) := by
  refine (nameAt_iff h).2 ⟨hb.outside (by simp), ?_,
    hb.endsNone (h.continuesWord_of_starts hc), parted_dropWhile rest⟩
  rw [CharClasses.isIdentifier, hc, Bool.true_and]
  exact List.all_takeWhile

theorem Boundary.word (hc : classes.startsWord c = true) :
    Boundary classes (before ++ c :: rest.takeWhile classes.continuesWord)
      (rest.dropWhile classes.continuesWord) := by
  have hname := hb.nameAt h hc
  exact ⟨fun _ => stateAfter_word h hname.outside
    (h.continuesWord_of_mem hname.identifier), .inr (parted_dropWhile rest)⟩

theorem Boundary.quoted (hc : isQuote c = true) :
    Boundary classes (before ++ c :: (cutString c rest).1)
      (cutString c rest).2 := by
  by_cases hmore : (cutString c rest).2 = []
  · rw [hmore]
    exact ⟨fun hne => absurd rfl hne, .inr fun d more hcons => by cases hcons⟩
  · refine ⟨fun _ => ?_, .inl ?_⟩
    · rw [stateAfter_append, hb.outside (by simp), List.foldl_cons]
      simpa [StringState.step, hc] using outside_cutString hc hmore
    · obtain ⟨front, hfront⟩ := exists_cutString_eq_concat hmore
      rw [hfront, ← List.cons_append, ← List.append_assoc]
      exact endsNone_concat h (h.not_continuesWord_of_quote hc) _

theorem Boundary.other (hquote : isQuote c = false)
    (hstart : classes.startsWord c = false) :
    Boundary classes (before ++ [c]) rest := by
  refine ⟨fun _ => ?_, .inl ?_⟩
  · rw [stateAfter_append, hb.outside (by simp)]
    simp [StringState.step, hquote]
  · cases hc : classes.continuesWord c with
    | false => exact endsNone_concat h hc before
    | true =>
        intro front left htext
        rw [Bool.eq_false_iff]
        intro hleft
        rcases List.eq_nil_or_concat left with rfl | ⟨init, last, rfl⟩
        · cases hleft
        · rw [List.concat_eq_append] at htext hleft
          rw [← List.append_assoc] at htext
          obtain ⟨hbefore, hlast⟩ := List.append_inj' htext rfl
          obtain rfl : c = last := by simpa using hlast
          by_cases hinit : init = []
          · subst hinit
            simp [CharClasses.isIdentifier, hstart] at hleft
          · rw [CharClasses.isIdentifier_append hinit, Bool.and_eq_true,
              hb.endsNone hc front init hbefore] at hleft
            cases hleft.1

end

def HasName (classes : CharClasses) (before text name : List Char) : Prop :=
  ∃ u after, text = u ++ (name ++ after) ∧ NameAt classes (before ++ u) name after

theorem HasName.append {before text rest name : List Char}
    (h : HasName classes (before ++ text) rest name) :
    HasName classes before (text ++ rest) name := by
  obtain ⟨u, after, rfl, hname⟩ := h
  exact ⟨text ++ u, after, by simp, by simpa using hname⟩

private theorem not_hasName_nil {before name : List Char} :
    ¬ HasName classes before [] name := by
  rintro ⟨u, after, htext, hname⟩
  obtain ⟨c, rest, rfl, -⟩ := hname.exists_cons
  simp at htext

section

variable {before rest name : List Char} {c : Char}

private theorem hasName_cons_iff (hc : classes.startsWord c = false) :
    HasName classes before (c :: rest) name ↔
      HasName classes (before ++ [c]) rest name := by
  constructor
  · rintro ⟨u, after, htext, hname⟩
    cases u with
    | nil =>
        rw [hname.startsWord htext] at hc
        cases hc
    | cons d u =>
        obtain ⟨rfl, hrest⟩ := List.cons.inj htext
        exact ⟨u, after, hrest, by simpa using hname⟩
  · intro hname
    exact HasName.append (by simpa using hname)

theorem not_nameAt_quoted (h : classes.Regular) (hc : isQuote c = true)
    (hbefore : stateAfter before = .outside) {u v more after : List Char}
    (hquoted : c :: (cutString c rest).1 = u ++ v) (hv : v ≠ [])
    (htext : v ++ more = name ++ after) :
    ¬ NameAt classes (before ++ u) name after := by
  intro hname
  cases u with
  | nil =>
      rw [List.nil_append] at hquoted
      rw [← hquoted] at htext
      have hplain := h.not_startsWord_of_quote hc
      rw [hname.startsWord htext] at hplain
      cases hplain
  | cons d u =>
      obtain ⟨rfl, hbody⟩ := List.cons.inj hquoted
      have hstate := hname.outside
      rw [stateAfter_append, hbefore, List.foldl_cons, StringState.step,
        if_pos hc] at hstate
      exact inside_cutString hbody hv hstate

private theorem hasName_quoted_iff (h : classes.Regular) (hc : isQuote c = true)
    (hbefore : stateAfter before = .outside) :
    HasName classes before (c :: rest) name ↔
      HasName classes (before ++ c :: (cutString c rest).1)
        (cutString c rest).2 name := by
  have hcut : (c :: (cutString c rest).1) ++ (cutString c rest).2 = c :: rest :=
    congrArg (c :: ·) (cutString_append c rest)
  constructor
  · rintro ⟨u, after, htext, hname⟩
    rcases List.append_eq_append_iff.1 (hcut.trans htext) with ⟨x, rfl, hmore⟩ |
      ⟨x, hquoted, hmore⟩
    · exact ⟨x, after, hmore, by simpa using hname⟩
    · by_cases hx : x = []
      · subst hx
        rw [List.append_nil] at hquoted
        exact ⟨[], after, by simpa using hmore.symm,
          by simpa [hquoted] using hname⟩
      · exact absurd hname (not_nameAt_quoted h hc hbefore hquoted hx hmore.symm)
  · intro hname
    rw [← hcut]
    exact hname.append

private theorem hasName_word_iff (h : classes.Regular) {word : List Char}
    (hword : NameAt classes before word rest) :
    HasName classes before (word ++ rest) name ↔
      name = word ∨ HasName classes (before ++ word) rest name := by
  constructor
  · rintro ⟨u, after, htext, hname⟩
    rcases hword.beyond h hname htext with ⟨-, hsame, -⟩ | ⟨x, rfl, hrest⟩
    · exact .inl hsame
    · exact .inr ⟨x, after, hrest, by simpa using hname⟩
  · rintro (rfl | hname)
    · exact ⟨[], rest, rfl, by simpa using hword⟩
    · exact hname.append

end

theorem word_mem_tokens_iff (h : classes.Regular) {before text name : List Char}
    (hb : Boundary classes before text) :
    .word name ∈ tokens classes text ↔ HasName classes before text name := by
  fun_induction tokens classes text generalizing before with
  | case1 => simp [not_hasName_nil]
  | case2 c rest hc ih =>
      rw [List.mem_cons, or_iff_right (by simp), ih (hb.quoted h hc),
        hasName_quoted_iff h hc (hb.outside (by simp))]
  | case3 c rest hquote hstart ih =>
      have hsplit : (c :: rest.takeWhile classes.continuesWord) ++
          rest.dropWhile classes.continuesWord = c :: rest :=
        congrArg (c :: ·) List.takeWhile_append_dropWhile
      rw [List.mem_cons, TypeToken.word.injEq, ih (hb.word h hstart),
        ← hasName_word_iff h (hb.nameAt h hstart), hsplit]
  | case4 c rest hquote hstart ih =>
      rw [Bool.not_eq_true] at hquote hstart
      rw [List.mem_cons, or_iff_right (by simp), ih (hb.other h hquote hstart),
        hasName_cons_iff hstart]

end

end TypeText

end ComponentBuild
