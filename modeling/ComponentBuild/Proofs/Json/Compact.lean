import ComponentBuild.Proofs.Json.RoundTrip

/-!
# Values on one line

A value whose numbers are counts is read back from its form on one line.  What
ends a number is the sign that stands behind it, or the end of the text.  The
form has no control character, so whatever texts are in the value, it is one
line.
-/

namespace ComponentBuild.Json

mutual

/-- Every number is written as a natural number is, and nothing is unusable. -/
def IsCounted : Json → Prop
  | number literal => ∃ n : Nat, literal = toString n
  | unusable => False
  | array items => ItemsCounted items
  | object fields => FieldsCounted fields
  | _ => True

def ItemsCounted : List Json → Prop
  | [] => True
  | v :: rest => v.IsCounted ∧ ItemsCounted rest

def FieldsCounted : List (String × Json) → Prop
  | [] => True
  | (_, v) :: rest => v.IsCounted ∧ FieldsCounted rest

end

theorem isCounted_ofNat (n : Nat) : (ofNat n).IsCounted :=
  ⟨n, rfl⟩

theorem fieldsCounted_iff {fields : List (String × Json)} :
    FieldsCounted fields ↔ ∀ f ∈ fields, f.2.IsCounted := by
  induction fields with
  | nil => simp [FieldsCounted]
  | cons f fields ih => simp [FieldsCounted, ih]

/-! ## Numbers -/

theorem toList_toString (n : Nat) : (toString n).toList = Nat.toDigits 10 n :=
  Nat.toList_repr

inductive Ends : List Char → Prop
  | nil : Ends []
  | comma (rest : List Char) : Ends (',' :: rest)
  | bracket (rest : List Char) : Ends (']' :: rest)
  | brace (rest : List Char) : Ends ('\x7d' :: rest)

section

open Token

theorem digits_natural (n : Nat) {rest : List Char} (h : Ends rest) :
    digits (Nat.toDigits 10 n ++ rest) = (Nat.toDigits 10 n, rest) := by
  have hdigit : ∀ c ∈ Nat.toDigits 10 n, c.isDigit = true :=
    fun c hc => Nat.isDigit_of_mem_toDigits (by decide) (by decide) hc
  have hnone :
      rest.takeWhile Char.isDigit = [] ∧ rest.dropWhile Char.isDigit = rest := by
    cases h <;> exact ⟨rfl, rfl⟩
  simp only [digits]
  rw [List.takeWhile_append_of_pos hdigit, List.dropWhile_append_of_pos hdigit,
    hnone.1, hnone.2, List.append_nil]

theorem exists_toDigits_eq {n : Nat} (h : n ≠ 0) :
    ∃ c ds, Nat.toDigits 10 n = c :: ds ∧ c ≠ '0' := by
  induction n using Nat.strongRecOn with
  | ind n ih =>
      by_cases hsmall : n < 10
      · have hall : ∀ d < 10, d ≠ 0 → Nat.digitChar d ≠ '0' := by decide
        exact ⟨_, [], Nat.toDigits_of_lt_base hsmall, hall n hsmall h⟩
      · obtain ⟨c, ds, hdigits, hc⟩ := ih (n / 10) (by omega) (by omega)
        rw [Nat.toDigits_of_base_le (by decide) (by omega), hdigits]
        exact ⟨c, _, rfl, hc⟩

theorem whole?_natural (n : Nat) {rest : List Char} (h : Ends rest) :
    whole? (Nat.toDigits 10 n ++ rest) = some (Nat.toDigits 10 n, rest) := by
  by_cases hzero : n = 0
  · simp [hzero, whole?, Nat.toDigits_zero]
  · obtain ⟨c, ds, hn, hc⟩ := exists_toDigits_eq hzero
    have hdigits := digits_natural n h
    rw [hn, List.cons_append] at hdigits ⊢
    unfold whole?
    split
    · next heq => exact absurd (List.cons.inj heq).1 hc
    · simp [digits?, hdigits]

theorem fraction?_ends {rest : List Char} (h : Ends rest) :
    fraction? rest = some ([], rest) := by
  cases h <;> rfl

theorem exponent?_ends {rest : List Char} (h : Ends rest) :
    exponent? rest = some ([], rest) := by
  cases h <;> rfl

theorem exists_digit (n : Nat) :
    ∃ c ds, Nat.toDigits 10 n = c :: ds ∧ c.isDigit = true := by
  obtain ⟨c, ds, hn⟩ :=
    List.exists_cons_of_ne_nil (Nat.toDigits_ne_nil (n := n) (b := 10))
  have hmem : c ∈ Nat.toDigits 10 n := by simp [hn]
  exact ⟨c, ds, hn, Nat.isDigit_of_mem_toDigits (by decide) (by decide) hmem⟩

theorem number?_natural (n : Nat) {rest : List Char} (h : Ends rest) :
    number? (Nat.toDigits 10 n ++ rest) = some (Nat.toDigits 10 n, rest) := by
  obtain ⟨c, ds, hn, hc⟩ := exists_digit n
  have hsign : c ≠ '-' := by
    rintro rfl
    simp at hc
  have hwhole := whole?_natural n h
  rw [hn, List.cons_append] at hwhole ⊢
  simp [number?, hsign, hwhole, fraction?_ends h, exponent?_ends h]

theorem next?_of_isDigit {c : Char} (hc : c.isDigit = true) (s : List Char) :
    next? (c :: s) =
      (number? (c :: s)).map fun (ds, after) =>
      (literal (.number (String.ofList ds)), after) := by
  unfold next?
  split <;> simp_all

theorem isBlank_of_isDigit {c : Char} (hc : c.isDigit = true) :
    isBlank c = false := by
  rw [Bool.eq_false_iff]
  intro hblank
  simp only [isBlank, Bool.or_eq_true, beq_iff_eq] at hblank
  rcases hblank with ((rfl | rfl) | rfl) | rfl <;> simp at hc

end

theorem Lexes.natural {rest : List Char} {ts : List Token} (n : Nat)
    (hend : Ends rest) (h : Lexes rest ts) :
    Lexes ((toString n).toList ++ rest)
      (.literal (.number (toString n)) :: ts) := by
  have hnumber := number?_natural n hend
  obtain ⟨c, ds, hn, hc⟩ := exists_digit n
  have hliteral : String.ofList (c :: ds) = toString n := by
    rw [← hn, ← toList_toString, String.ofList_toList]
  rw [hn, List.cons_append] at hnumber
  rw [toList_toString, hn]
  refine .token ds (isBlank_of_isDigit hc) ?_ h
  simp [next?_of_isDigit hc, hnumber, hliteral]

/-! ## Tokens and values -/

mutual

theorem lexes_compact (v : Json) (hv : v.IsCounted) {rest : List Char}
    {ts : List Token} (hend : Ends rest) (h : Lexes rest ts) :
    Lexes (compactChars v ++ rest) (v.tokens ++ ts) := by
  match v with
  | null => exact .token ['u', 'l', 'l'] rfl rfl h
  | bool true => exact .token ['r', 'u', 'e'] rfl rfl h
  | bool false => exact .token ['a', 'l', 's', 'e'] rfl rfl h
  | text value => exact .quote value h
  | number literal =>
      obtain ⟨n, rfl⟩ := hv
      exact .natural n hend h
  | unusable => exact hv.elim
  | array items =>
      have hclose : Lexes (']' :: rest) (.closeBracket :: ts) := .char rfl rfl h
      have hitems := lexes_compactItems items hv (.bracket rest) hclose
      simpa [compactChars, tokens] using
        Lexes.char (c := '[') (t := .openBracket) rfl rfl hitems
  | object fields =>
      have hclose : Lexes ('\x7d' :: rest) (.closeBrace :: ts) := .char rfl rfl h
      have hfields := lexes_compactFields fields hv (.brace rest) hclose
      simpa [compactChars, tokens] using
        Lexes.char (c := '\x7b') (t := .openBrace) rfl rfl hfields

theorem lexes_compactItems (items : List Json) (hitems : ItemsCounted items)
    {rest : List Char} {ts : List Token} (hend : Ends rest) (h : Lexes rest ts) :
    Lexes (compactItems items ++ rest) (itemTokens items ++ ts) := by
  match items with
  | [] => exact h
  | [v] => exact lexes_compact v hitems.1 hend h
  | v :: w :: items =>
      have hcomma : Lexes (',' :: (compactItems (w :: items) ++ rest))
          (.comma :: (itemTokens (w :: items) ++ ts)) :=
        .char rfl rfl (lexes_compactItems (w :: items) hitems.2 hend h)
      simpa [compactItems, itemTokens] using
        lexes_compact v hitems.1 (.comma _) hcomma

theorem lexes_compactFields (fields : List (String × Json))
    (hfields : FieldsCounted fields) {rest : List Char} {ts : List Token}
    (hend : Ends rest) (h : Lexes rest ts) :
    Lexes (compactFields fields ++ rest) (fieldTokens fields ++ ts) := by
  match fields with
  | [] => exact h
  | [(key, v)] =>
      simpa [compactFields, fieldTokens] using
        Lexes.quote key (.char rfl rfl (lexes_compact v hfields.1 hend h))
  | (key, v) :: f :: fields =>
      have hcomma : Lexes (',' :: (compactFields (f :: fields) ++ rest))
          (.comma :: (fieldTokens (f :: fields) ++ ts)) :=
        .char rfl rfl (lexes_compactFields (f :: fields) hfields.2 hend h)
      simpa [compactFields, fieldTokens] using
        Lexes.quote key (.char rfl rfl
          (lexes_compact v hfields.1 (.comma _) hcomma))

end

theorem read?_compact {v : Json} (hv : v.IsCounted) :
    read? v.compact = some v := by
  have h := lexes_compact v hv .nil Lexes.nil
  rw [List.append_nil, List.append_nil] at h
  have htokens : Token.ofText? v.compact = some v.tokens := by
    rw [Token.ofText?, compact, String.toList_ofList]
    exact h _ (Nat.le_refl _)
  rw [read?, htokens]
  simp [foldlM_tokens, Reader.start, Reader.deliver]

/-! ## One line -/

def NoControl (s : List Char) : Prop :=
  ∀ c ∈ s, 32 ≤ c.toNat

theorem noControl_cons {c : Char} {s : List Char} (hc : 32 ≤ c.toNat)
    (h : NoControl s) :
    NoControl (c :: s) := by
  simpa [NoControl, hc] using h

theorem noControl_append {s t : List Char} (hs : NoControl s) (ht : NoControl t) :
    NoControl (s ++ t) := by
  intro c hc
  exact (List.mem_append.1 hc).elim (hs c) (ht c)

theorem noControl_escapeChar (c : Char) : NoControl (escapeChar c) := by
  have hdigit : ∀ d < 16, 32 ≤ (Nat.digitChar d).toNat := by decide
  unfold escapeChar
  split_ifs with hquote hback hline htab hreturn hbell hfeed hcontrol
  · simp [NoControl]
  · simp [NoControl]
  · simp [NoControl]
  · simp [NoControl]
  · simp [NoControl]
  · simp [NoControl]
  · simp [NoControl]
  · have hhigh := hdigit (c.toNat / 16) (by omega)
    have hlow := hdigit (c.toNat % 16) (by omega)
    simp [NoControl, hhigh, hlow]
  · simpa [NoControl] using hcontrol

theorem noControl_quote (s : String) : NoControl (quote s) := by
  have hinner : NoControl (s.toList.flatMap escapeChar) := by
    intro c hc
    obtain ⟨d, -, hd⟩ := List.mem_flatMap.1 hc
    exact noControl_escapeChar d c hd
  exact noControl_append (noControl_cons (by decide) hinner) (by simp [NoControl])

mutual

theorem noControl_compact (v : Json) (hv : v.IsCounted) :
    NoControl (compactChars v) := by
  match v with
  | null | bool true | bool false => simp [compactChars, NoControl]
  | text value => exact noControl_quote value
  | number literal =>
      obtain ⟨n, rfl⟩ := hv
      intro c hc
      have hdigits : c ∈ Nat.toDigits 10 n := by
        rwa [compactChars, toList_toString] at hc
      have hdigit := Nat.isDigit_of_mem_toDigits (by decide) (by decide) hdigits
      exact Nat.le_trans (by decide) (Char.isDigit_iff_toNat.1 hdigit).1
  | unusable => exact hv.elim
  | array items =>
      exact noControl_append (noControl_cons (by decide)
        (noControl_compactItems items hv))
        (by simp [NoControl])
  | object fields =>
      exact noControl_append (noControl_cons (by decide)
        (noControl_compactFields fields hv))
        (by simp [NoControl])

theorem noControl_compactItems (items : List Json) (hitems : ItemsCounted items) :
    NoControl (compactItems items) := by
  match items with
  | [] => simp [compactItems, NoControl]
  | [v] => exact noControl_compact v hitems.1
  | v :: w :: items =>
      exact noControl_append (noControl_compact v hitems.1)
        (noControl_cons (by decide)
          (noControl_compactItems (w :: items) hitems.2))

theorem noControl_compactFields (fields : List (String × Json))
    (hfields : FieldsCounted fields) :
    NoControl (compactFields fields) := by
  match fields with
  | [] => simp [compactFields, NoControl]
  | [(key, v)] =>
      exact noControl_append (noControl_quote key)
        (noControl_cons (by decide) (noControl_compact v hfields.1))
  | (key, v) :: f :: fields =>
      have hfield : NoControl (quote key ++ ':' :: compactChars v) :=
        noControl_append (noControl_quote key)
          (noControl_cons (by decide) (noControl_compact v hfields.1))
      exact noControl_append hfield
        (noControl_cons (by decide)
          (noControl_compactFields (f :: fields) hfields.2))

end

end ComponentBuild.Json
