import ComponentBuild.Json.Reader
import ComponentBuild.Proofs.Json.Lexing

/-!
# Reading back what was written

The reader goes through the tokens of a value and delivers that value to the
array or object around it, whatever is open there.  So a written value is read
back as itself.
-/

namespace ComponentBuild.Json

open Reader

def openFields (fields : List (String × Json)) : List (Option String × Json) :=
  (fields.map fun e => (some e.1, e.2)).reverse

private theorem closeObject_openFields (fields : List (String × Json)) :
    closeObject (openFields fields) = .object fields := by
  have hkeys : (fields.map fun e => ((some e.1 : Option String), e.2)).mapM
      (fun e => e.1.map (·, e.2)) = some fields := by
    induction fields with
    | nil => rfl
    | cons e fields ih => simp [ih]
  rw [closeObject, openFields, List.reverse_reverse]
  split
  next read hread => rw [Option.some.inj (hread.symm.trans hkeys)]
  next hread => exact absurd (hread.symm.trans hkeys) (Option.some_ne_none _).symm

/-! ## Opening and closing -/

theorem step_openBracket (stack : List Frame) :
    step (inside stack .value) .openBracket =
      some (inside (.array [] :: stack) .valueOrClose) :=
  rfl

theorem step_openBrace (stack : List Frame) :
    step (inside stack .value) .openBrace =
      some (inside (.object [] :: stack) .keyOrClose) :=
  rfl

theorem step_closeBracket (items : List Json) (stack : List Frame) :
    step (inside (.array items :: stack) .commaOrClose) .closeBracket =
      deliver stack (.array items.reverse) :=
  rfl

private theorem step_closeBrace (fields : List (String × Json))
    (stack : List Frame) :
    step (inside (.object (openFields fields) :: stack) .commaOrClose)
      .closeBrace =
      deliver stack (.object fields) := by
  simp [step, takeClose, closeObject_openFields]

theorem foldlM_itemTokens_valueOrClose {items : List Json} (hne : items ≠ [])
    (done : List Json) (stack : List Frame) :
    (itemTokens items).foldlM step (inside (.array done :: stack) .valueOrClose) =
      (itemTokens items).foldlM step (inside (.array done :: stack) .value) := by
  match items with
  | [v] => cases v <;> rfl
  | v :: w :: items => cases v <;> rfl

theorem foldlM_fieldTokens_keyOrClose {fields : List (String × Json)}
    (hne : fields ≠ []) (done : List (Option String × Json))
    (stack : List Frame) :
    (fieldTokens fields).foldlM step
      (inside (.object done :: stack) .keyOrClose) =
      (fieldTokens fields).foldlM step (inside (.object done :: stack) .key) := by
  match fields with
  | [e] => rfl
  | e :: f :: fields => rfl

/-! ## Whole values -/

mutual

theorem foldlM_tokens (v : Json) (stack : List Frame) :
    v.tokens.foldlM step (inside stack .value) = deliver stack v := by
  match v with
  | null => simp [tokens, step, takeValue]
  | bool _ => simp [tokens, step, takeValue]
  | number _ => simp [tokens, step, takeValue]
  | unusable => simp [tokens, step, takeValue]
  | text _ => simp [tokens, step, takeValue]
  | array [] =>
      have hclose :
          step (inside (.array [] :: stack) .valueOrClose) .closeBracket =
          deliver stack (.array []) := by
        simp [step, takeClose, takeValue]
      simp [tokens, itemTokens, step_openBracket, hclose]
  | array (v :: items) =>
      have hitems :=
        foldlM_itemTokens (v :: items) (List.cons_ne_nil _ _) [] stack
      rw [← foldlM_itemTokens_valueOrClose (List.cons_ne_nil _ _)] at hitems
      simp [tokens, List.foldlM_append, step_openBracket, hitems,
        step_closeBracket]
  | object [] =>
      have hclose : step (inside (.object [] :: stack) .keyOrClose) .closeBrace =
          deliver stack (.object []) := by
        simp [step, takeClose, takeKey, closeObject]
      simp [tokens, fieldTokens, step_openBrace, hclose]
  | object (e :: fields) =>
      have hfields :=
        foldlM_fieldTokens (e :: fields) (List.cons_ne_nil _ _) [] stack
      rw [← foldlM_fieldTokens_keyOrClose (List.cons_ne_nil _ _)] at hfields
      simp [tokens, List.foldlM_append, step_openBrace, hfields, step_closeBrace]

theorem foldlM_itemTokens (items : List Json) (hne : items ≠ [])
    (done : List Json) (stack : List Frame) :
    (itemTokens items).foldlM step (inside (.array done :: stack) .value) =
      some (inside (.array (items.reverse ++ done) :: stack) .commaOrClose) := by
  match items with
  | [v] => simp [itemTokens, foldlM_tokens v, deliver]
  | v :: w :: items =>
      have hmore :=
        foldlM_itemTokens (w :: items) (List.cons_ne_nil _ _) (v :: done) stack
      simp [itemTokens, List.foldlM_append, foldlM_tokens v, deliver, step,
        takeComma, hmore]

theorem foldlM_fieldTokens (fields : List (String × Json)) (hne : fields ≠ [])
    (done : List (Option String × Json)) (stack : List Frame) :
    (fieldTokens fields).foldlM step (inside (.object done :: stack) .key) =
      some (inside (.object (openFields fields ++ done) :: stack)
        .commaOrClose) := by
  match fields with
  | [(key, v)] =>
      simp [fieldTokens, step, takeKey, foldlM_tokens v, deliver, openFields]
  | (key, v) :: e :: fields =>
      have hmore := foldlM_fieldTokens (e :: fields) (List.cons_ne_nil _ _)
        ((some key, v) :: done) stack
      simp [fieldTokens, List.foldlM_append, step, takeKey, foldlM_tokens v,
        deliver, takeComma, hmore, openFields]

end

theorem read?_pretty {v : Json} (hv : v.isPlain = true) :
    read? v.pretty = some v := by
  rw [read?, ofText?_pretty hv]
  simp [foldlM_tokens, start, deliver]

end ComponentBuild.Json
