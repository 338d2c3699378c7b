import ComponentBuild.Declarations.Artifact
import ComponentBuild.Proofs.Imports.Alias

/-!
# Reading aliases off import statements

What an import statement says after a name tells whether the name has an alias,
and which number the alias ends in.  So statements that import the same names
from the same sources are the same text only if they give the same aliases,
whatever the names and the texts behind the statements are.
-/

namespace ComponentBuild

open ImportTable (numbered IsAliasFor toList_numbered)

/-! ## One name -/

inductive GoesOn : List Char → Prop
  | comma (rest : List Char) : GoesOn (',' :: rest)
  | brace (rest : List Char) : GoesOn (' ' :: '}' :: rest)

theorem GoesOn.ne_as {u v : List Char} (h : GoesOn u) :
    u ≠ " as ".toList ++ v := by
  rintro rfl
  cases h

private theorem takeWhile_isDigit {u : List Char} (hu : GoesOn u) (k : Nat) :
    (Nat.toDigits 10 k ++ u).takeWhile Char.isDigit = Nat.toDigits 10 k := by
  have hrest : u.takeWhile Char.isDigit = [] := by cases hu <;> rfl
  rw [List.takeWhile_append_of_pos fun c hc =>
    Nat.isDigit_of_mem_toDigits (by decide) (by decide) hc,
    hrest, List.append_nil]

private theorem toDigits_append_cancel {j k : Nat} {u v : List Char}
    (hu : GoesOn u) (hv : GoesOn v)
    (h : Nat.toDigits 10 j ++ u = Nat.toDigits 10 k ++ v) : j = k ∧ u = v := by
  have hdigits : Nat.toDigits 10 j = Nat.toDigits 10 k := by
    rw [← takeWhile_isDigit hu j, h, takeWhile_isDigit hv k]
  exact ⟨ImportTable.toDigits_injective hdigits,
    List.append_cancel_left (hdigits ▸ h)⟩

namespace ImportedName

private theorem toList_render_plain (name : String) :
    (mk name name).render.toList = name.toList := by
  simp [render]

private theorem toList_render_numbered (name : String) (k : Nat) :
    (mk name (numbered name k)).render.toList =
      name.toList ++ (" as ".toList ++ (name.toList ++ Nat.toDigits 10 k)) := by
  simp [render, (ImportTable.numbered_ne name k).symm, toList_numbered]

def IsFormed (n : ImportedName) : Prop :=
  IsAliasFor n.name n.given

private theorem render_cancel {m n : ImportedName} (hm : m.IsFormed)
    (hn : n.IsFormed) (hname : m.name = n.name) {u v : List Char}
    (hu : GoesOn u) (hv : GoesOn v)
    (h : m.render.toList ++ u = n.render.toList ++ v) : m = n ∧ u = v := by
  obtain ⟨name, given⟩ := m
  obtain ⟨name', given'⟩ := n
  obtain rfl : name = name' := hname
  rcases hm with hm | ⟨j, hm⟩ <;> rcases hn with hn |
    ⟨k, hn⟩ <;> dsimp only at hm hn <;> subst hm hn
  · rw [toList_render_plain, List.append_cancel_left_eq] at h
    exact ⟨rfl, h⟩
  · rw [toList_render_plain, toList_render_numbered, List.append_assoc,
      List.append_cancel_left_eq, List.append_assoc] at h
    exact absurd h hu.ne_as
  · rw [toList_render_plain, toList_render_numbered, List.append_assoc,
      List.append_cancel_left_eq, List.append_assoc] at h
    exact absurd h.symm hv.ne_as
  · simp only [toList_render_numbered, List.append_assoc,
      List.append_cancel_left_eq] at h
    obtain ⟨rfl, rfl⟩ := toDigits_append_cancel hu hv h
    exact ⟨rfl, rfl⟩

/-! ## The names of one statement -/

def behind : List ImportedName → List Char → List Char
  | [], rest => ' ' :: '}' :: rest
  | n :: names, rest => ',' :: ' ' :: (n.render.toList ++ behind names rest)

private theorem goesOn_behind (names : List ImportedName) (rest : List Char) :
    GoesOn (behind names rest) := by
  cases names with
  | nil => exact .brace rest
  | cons n names => exact .comma _

private theorem toList_intercalate (n : ImportedName)
    (names : List ImportedName) (rest : List Char) :
    (", ".intercalate ((n :: names).map render)).toList ++ ' ' :: '}' :: rest =
      n.render.toList ++ behind names rest := by
  induction names generalizing n with
  | nil => simp [String.intercalate_singleton, behind]
  | cons m names ih =>
      have hrest := ih m
      rw [List.map_cons] at hrest
      rw [List.map_cons, List.map_cons, String.intercalate_cons_cons]
      simp only [String.toList_append, List.append_assoc, hrest]
      rfl

private theorem behind_cancel {names others : List ImportedName}
    (hnames : ∀ n ∈ names, n.IsFormed) (hothers : ∀ n ∈ others, n.IsFormed)
    (hsame : names.map (·.name) = others.map (·.name)) {u v : List Char}
    (h : behind names u = behind others v) : names = others ∧ u = v := by
  induction names generalizing others with
  | nil =>
      obtain rfl := List.map_eq_nil_iff.1 hsame.symm
      simpa [behind] using h
  | cons n names ih =>
      cases others with
      | nil => cases hsame
      | cons n' others =>
          obtain ⟨hname, hsames⟩ := List.cons.inj hsame
          obtain ⟨hn, hns⟩ := List.forall_mem_cons.1 hnames
          obtain ⟨hn', hns'⟩ := List.forall_mem_cons.1 hothers
          simp only [behind, List.cons.injEq, true_and] at h
          obtain ⟨rfl, hrest⟩ :=
            render_cancel hn hn' hname (goesOn_behind names u)
            (goesOn_behind others v) h
          obtain ⟨rfl, rfl⟩ := ih hns hns' hsames hrest
          exact ⟨rfl, rfl⟩

private theorem intercalate_cancel {names others : List ImportedName}
    (hnames : ∀ n ∈ names, n.IsFormed)
    (hothers : ∀ n ∈ others, n.IsFormed) (hsame : names.map (·.name) =
      others.map (·.name))
    {u v : List Char}
    (h : (", ".intercalate (names.map render)).toList ++ ' ' :: '}' :: u =
      (", ".intercalate (others.map render)).toList ++ ' ' :: '}' :: v) :
    names = others ∧ u = v := by
  cases names with
  | nil =>
      obtain rfl := List.map_eq_nil_iff.1 hsame.symm
      simpa using h
  | cons n names =>
      cases others with
      | nil => cases hsame
      | cons n' others =>
          rw [toList_intercalate, toList_intercalate] at h
          refine behind_cancel hnames hothers hsame ?_
          simp only [behind, h]

end ImportedName

namespace Declarations

/-! ## All statements -/

def linesText (lines : List String) : List Char :=
  lines.flatMap fun line => line.toList ++ ['\n']

theorem toList_joinLines {lines : List String} (h : lines ≠ []) :
    (joinLines lines ++ "\n").toList = linesText lines := by
  induction lines with
  | nil => exact absurd rfl h
  | cons line lines ih =>
      cases lines with
      | nil => simp [joinLines, linesText, String.intercalate_singleton]
      | cons next lines =>
          have hrest := ih (by simp)
          rw [joinLines, String.intercalate_cons_cons, ← joinLines]
          rw [String.toList_append] at hrest
          simp only [String.toList_append, List.append_assoc, hrest]
          simp [linesText]

abbrev Statement := ImportSource × List ImportedName

def statementLines (dir : Path) (statements : List Statement) : List String :=
  statements.map fun statement => importLine dir statement.1 statement.2

theorem statementLines_cancel {dir : Path} {statements others : List Statement}
    (hformed : ∀ statement ∈ statements, ∀ n ∈ statement.2, n.IsFormed)
    (hothers : ∀ statement ∈ others, ∀ n ∈ statement.2, n.IsFormed)
    (hsame : statements.map (fun s => (s.1, s.2.map (·.name))) =
      others.map fun s => (s.1, s.2.map (·.name)))
    {u v : List Char}
    (h : linesText (statementLines dir statements) ++ u =
      linesText (statementLines dir others) ++ v) :
    statements = others := by
  induction statements generalizing others with
  | nil => exact (List.map_eq_nil_iff.1 hsame.symm).symm
  | cons statement statements ih =>
      cases others with
      | nil => cases hsame
      | cons other others =>
          obtain ⟨source, names⟩ := statement
          obtain ⟨source', names'⟩ := other
          simp only [List.map_cons, List.cons.injEq, Prod.mk.injEq] at hsame
          obtain ⟨⟨rfl, hnames⟩, hsames⟩ := hsame
          obtain ⟨hn, hns⟩ := List.forall_mem_cons.1 hformed
          obtain ⟨hn', hns'⟩ := List.forall_mem_cons.1 hothers
          have hline (names : List ImportedName) (statements : List Statement)
              (rest : List Char) :
              linesText (statementLines dir ((source, names) :: statements)) ++
                rest =
                "import \x7b ".toList ++
                  ((", ".intercalate (names.map (·.render))).toList ++
                  ' ' :: '}' :: (" from \"".toList ++
                    (sourceSpecifier dir source).toList ++
                    "\";\n".toList ++
                      (linesText (statementLines dir statements) ++ rest))) := by
            simp [statementLines, linesText, importLine]
          rw [hline, hline, List.append_cancel_left_eq] at h
          obtain ⟨rfl, hrest⟩ := ImportedName.intercalate_cancel hn hn' hnames h
          rw [List.append_cancel_left_eq] at hrest
          rw [ih hns hns' hsames hrest]

end Declarations

end ComponentBuild
