import ComponentBuild.Json.Printer
import ComponentBuild.Json.Token
import Mathlib.Tactic.SplitIfs

/-!
# The tokens of a written value

Each escape of a string is read back as the character it stands for, so a quoted
text is one token with that text.  Around the tokens of a value the writer puts
blanks only, and the list of tokens does not depend on them.
-/

namespace ComponentBuild.Json

/-! ## Strings -/

section

open Token

private theorem hexDigit?_digitChar {d : Nat} (h : d < 16) :
    hexDigit? (Nat.digitChar d) = some d := by
  have hall : ∀ d < 16, hexDigit? (Nat.digitChar d) = some d := by decide
  exact hall d h

private theorem codeUnit?_control {n : Nat} (h : n < 32) (tail : List Char) :
    codeUnit? ('0' :: '0' :: Nat.digitChar (n / 16) ::
      Nat.digitChar (n % 16) :: tail) =
      some (n, tail) := by
  have hzero : hexDigit? '0' = some 0 := by decide
  have hhigh : hexDigit? (Nat.digitChar (n / 16)) = some (n / 16) :=
    hexDigit?_digitChar (by omega)
  have hlow : hexDigit? (Nat.digitChar (n % 16)) = some (n % 16) :=
    hexDigit?_digitChar (by omega)
  simp [codeUnit?, hzero, hhigh, hlow, Nat.div_add_mod']

private theorem escape?_control {c : Char} (h : c.toNat < 32) (tail : List Char) :
    escape? ('u' :: '0' :: '0' :: Nat.digitChar (c.toNat / 16) ::
      Nat.digitChar (c.toNat % 16)
      :: tail) = some (some c, tail) := by
  have hhigh : isHighHalf c.toNat = false := by
    simp only [isHighHalf, Bool.and_eq_false_iff, decide_eq_false_iff_not]
    omega
  have hlow : isLowHalf c.toNat = false := by
    simp only [isLowHalf, Bool.and_eq_false_iff, decide_eq_false_iff_not]
    omega
  simp [escape?, codeUnit?_control h, hhigh, hlow, Char.ofNat_toNat]

def withChar (c : Char) :
    Option (List Char) × List Char → Option (List Char) × List Char
  | (s, after) => (s.map (c :: ·), after)

private theorem string?_escape {input tail : List Char} {c : Char}
    (h : escape? input = some (some c, tail)) :
    string? ('\\' :: input) = (string? tail).map (withChar c) := by
  rw [string?]
  simp only [Char.reduceEq, if_true, if_false]
  split
  · rename_i hnone
    rw [h] at hnone
    cases hnone
  · rename_i e rest he
    rw [h] at he
    cases he
    rfl

private theorem string?_escapeChar (c : Char) (tail : List Char) :
    string? (escapeChar c ++ tail) = (string? tail).map (withChar c) := by
  unfold escapeChar
  split_ifs with hquote hback hline htab hreturn hbell hfeed hcontrol
  · exact string?_escape (by simp [escape?, hquote])
  · exact string?_escape (by simp [escape?, hback])
  · exact string?_escape (by simp [escape?, hline])
  · exact string?_escape (by simp [escape?, htab])
  · exact string?_escape (by simp [escape?, hreturn])
  · exact string?_escape (by simp [escape?, hbell])
  · exact string?_escape (by simp [escape?, hfeed])
  · exact string?_escape (escape?_control hcontrol tail)
  · rw [List.singleton_append, string?, if_neg hquote, if_neg hback,
      if_neg hcontrol]
    rfl

private theorem string?_quoted (s after : List Char) :
    string? (s.flatMap escapeChar ++ '"' :: after) = some (some s, after) := by
  induction s with
  | nil => simp [string?]
  | cons c s ih =>
      rw [List.flatMap_cons, List.append_assoc, string?_escapeChar, ih]
      rfl

private theorem next?_quote (s : String) (after : List Char) :
    next? (quote s ++ after) = some (.string (some s), after) := by
  have hquote :
      quote s ++ after = '"' ::
        (s.toList.flatMap escapeChar ++ '"' :: after) := by
    simp [quote]
  simp [hquote, next?, string?_quoted]

end

/-! ## The tokens that a value consists of -/

mutual

def tokens : Json → List Token
  | array items => .openBracket :: itemTokens items ++ [.closeBracket]
  | object fields => .openBrace :: fieldTokens fields ++ [.closeBrace]
  | text value => [.string (some value)]
  | v => [.literal v]

def itemTokens : List Json → List Token
  | [] => []
  | [v] => v.tokens
  | v :: rest => v.tokens ++ .comma :: itemTokens rest

def fieldTokens : List (String × Json) → List Token
  | [] => []
  | [(key, v)] => .string (some key) :: .colon :: v.tokens
  | (key, v) :: rest =>
      .string (some key) :: .colon :: v.tokens ++ .comma :: fieldTokens rest

end

mutual

/-- Without numbers, whose literals are not checked when they are written, and
nothing unusable. -/
def isPlain : Json → Bool
  | number _ => false
  | unusable => false
  | array items => itemsPlain items
  | object fields => fieldsPlain fields
  | _ => true

def itemsPlain : List Json → Bool
  | [] => true
  | v :: rest => v.isPlain && itemsPlain rest

def fieldsPlain : List (String × Json) → Bool
  | [] => true
  | (_, v) :: rest => v.isPlain && fieldsPlain rest

end

/-! ## Reading the tokens off -/

/-- These are the tokens of a text, whatever fuel there is beyond what is
enough. -/
def Lexes (s : List Char) (ts : List Token) : Prop :=
  ∀ fuel, s.length ≤ fuel → Token.list? fuel s = some ts

theorem Lexes.nil : Lexes [] [] := by
  intro fuel _
  cases fuel <;> rfl

theorem Lexes.blank {c : Char} {s : List Char} {ts : List Token}
    (hc : Token.isBlank c = true) (h : Lexes s ts) : Lexes (c :: s) ts := by
  intro fuel hfuel
  rw [List.length_cons] at hfuel
  rw [← h fuel (by omega)]
  unfold Token.list?
  simp only [List.dropWhile_cons, hc, if_true]

theorem Lexes.indent {s : List Char} {ts : List Token} (level : Nat)
    (h : Lexes s ts) :
    Lexes (indent level ++ s) ts := by
  have hblanks (n : Nat) : Lexes (List.replicate n ' ' ++ s) ts := by
    induction n with
    | zero => exact h
    | succ n ih => exact .blank rfl ih
  exact .blank rfl (hblanks _)

theorem Lexes.token {c : Char} (piece : List Char) {rest : List Char}
    {t : Token} {ts : List Token} (hc : Token.isBlank c = false)
    (ht : Token.next? (c :: (piece ++ rest)) = some (t, rest))
    (h : Lexes rest ts) :
    Lexes (c :: (piece ++ rest)) (t :: ts) := by
  intro fuel hfuel
  rw [List.length_cons, List.length_append] at hfuel
  obtain ⟨fuel, rfl⟩ : ∃ n, fuel = n + 1 := ⟨fuel - 1, by omega⟩
  have hrest : Token.list? fuel rest = some ts := h fuel (by omega)
  have hdrop :
      (c :: (piece ++ rest)).dropWhile Token.isBlank = c :: (piece ++ rest) := by
    rw [List.dropWhile_cons, hc, if_neg Bool.false_ne_true]
  rw [Token.list?.eq_def, hdrop]
  simp [ht, hrest]

theorem Lexes.char {c : Char} {rest : List Char} {t : Token} {ts : List Token}
    (hc : Token.isBlank c = false) (ht : Token.next? (c :: rest) = some (t, rest))
    (h : Lexes rest ts) : Lexes (c :: rest) (t :: ts) :=
  .token [] hc ht h

theorem Lexes.quote {rest : List Char} {ts : List Token} (s : String)
    (h : Lexes rest ts) :
    Lexes (quote s ++ rest) (.string (some s) :: ts) :=
  .token (s.toList.flatMap escapeChar ++ ['"']) rfl (next?_quote s rest) h

mutual

theorem lexes_value (v : Json) (hv : v.isPlain = true) (level : Nat)
    {rest : List Char} {ts : List Token} (h : Lexes rest ts) :
    Lexes (prettyChars level v ++ rest) (v.tokens ++ ts) := by
  match v with
  | null => exact .token ['u', 'l', 'l'] rfl rfl h
  | bool true => exact .token ['r', 'u', 'e'] rfl rfl h
  | bool false => exact .token ['a', 'l', 's', 'e'] rfl rfl h
  | text value => exact .quote value h
  | number _ => cases hv
  | unusable => cases hv
  | array [] => exact .char rfl rfl (.char rfl rfl h)
  | array (v :: items) =>
      have hclose : Lexes (']' :: rest) (.closeBracket :: ts) := .char rfl rfl h
      have hitems := lexes_items (v :: items) hv (level + 1) (hclose.indent level)
      simpa [prettyChars, tokens] using
        Lexes.char (c := '[') (t := .openBracket) rfl rfl hitems
  | object [] => exact .char rfl rfl (.char rfl rfl h)
  | object (e :: fields) =>
      have hclose : Lexes ('}' :: rest) (.closeBrace :: ts) := .char rfl rfl h
      have hfields :=
        lexes_fields (e :: fields) hv (level + 1) (hclose.indent level)
      simpa [prettyChars, tokens] using
        Lexes.char (c := '\x7b') (t := .openBrace) rfl rfl hfields

theorem lexes_items (items : List Json) (hitems : itemsPlain items = true)
    (level : Nat) {rest : List Char} {ts : List Token} (h : Lexes rest ts) :
    Lexes (prettyItems level items ++ rest) (itemTokens items ++ ts) := by
  match items with
  | [] => exact h
  | [v] =>
      have hv : v.isPlain = true := by simpa [itemsPlain] using hitems
      simpa [prettyItems, itemTokens] using
        (lexes_value v hv level h).indent level
  | v :: w :: items =>
      obtain ⟨hv, hmore⟩ := Bool.and_eq_true_iff.1 hitems
      have hcomma : Lexes (',' :: (prettyItems level (w :: items) ++ rest))
          (.comma :: (itemTokens (w :: items) ++ ts)) :=
        .char rfl rfl (lexes_items (w :: items) hmore level h)
      simpa [prettyItems, itemTokens] using
        (lexes_value v hv level hcomma).indent level

theorem lexes_fields (fields : List (String × Json))
    (hfields : fieldsPlain fields = true) (level : Nat) {rest : List Char}
    {ts : List Token} (h : Lexes rest ts) :
    Lexes (prettyFields level fields ++ rest) (fieldTokens fields ++ ts) := by
  match fields with
  | [] => exact h
  | [(key, v)] =>
      have hv : v.isPlain = true := by simpa [fieldsPlain] using hfields
      simpa [prettyFields, fieldTokens] using
        (Lexes.quote key (.char rfl rfl
          (.blank rfl (lexes_value v hv level h)))).indent level
  | (key, v) :: e :: fields =>
      obtain ⟨hv, hmore⟩ := Bool.and_eq_true_iff.1 hfields
      have hcomma : Lexes (',' :: (prettyFields level (e :: fields) ++ rest))
          (.comma :: (fieldTokens (e :: fields) ++ ts)) :=
        .char rfl rfl (lexes_fields (e :: fields) hmore level h)
      simpa [prettyFields, fieldTokens] using
        (Lexes.quote key (.char rfl rfl
          (.blank rfl (lexes_value v hv level hcomma)))).indent level

end

theorem ofText?_pretty {v : Json} (hv : v.isPlain = true) :
    Token.ofText? v.pretty = some v.tokens := by
  have h := lexes_value v hv 0 Lexes.nil
  rw [List.append_nil, List.append_nil] at h
  rw [Token.ofText?, pretty, String.toList_ofList]
  exact h _ (Nat.le_refl _)

end ComponentBuild.Json
