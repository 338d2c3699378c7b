import ComponentBuild.Config.Warning
import ComponentBuild.Proofs.Text.EditTable
import Mathlib.Data.List.MinMax

/-!
# Suggested keys

An unknown key is compared with the known ones in their order, and a later one
is preferred only if it is strictly nearer.  So the nearest known key is found,
of several the first, and it is suggested if at most two edits of a byte lead to
it.
-/

namespace ComponentBuild.ConfigWarning

structure FirstNearest (key : String) (candidates : List String) (c : String) :
    Prop where
  mem : c ∈ candidates
  least : ∀ d ∈ candidates, keyDistance key c ≤ keyDistance key d
  first : ∀ d ∈ candidates, keyDistance key d ≤ keyDistance key c →
    candidates.idxOf c ≤ candidates.idxOf d

theorem nearest?_eq_argmin (key : String) (candidates : List String) :
    nearest? key candidates =
      (candidates.argmin (keyDistance key)).map fun c =>
      (c, keyDistance key c) := by
  rw [nearest?, List.argmin]
  change candidates.foldl _ (none.map fun c => (c, keyDistance key c)) = _
  refine List.foldl_hom (Option.map fun c => (c, keyDistance key c)) ?_
  intro best candidate
  cases best with
  | none => rfl
  | some c =>
      simp only [List.argAux, Option.map_some]
      split <;> rfl

private theorem argmin_eq_some_iff {key c : String} {candidates : List String} :
    candidates.argmin (keyDistance key) = some c ↔
      FirstNearest key candidates c := by
  rw [List.argmin_eq_some_iff]
  exact ⟨fun ⟨hmem, hleast, hfirst⟩ => ⟨hmem, hleast, hfirst⟩,
    fun h => ⟨h.mem, h.least, h.first⟩⟩

private theorem suggestionFor_eq_some_iff {key c : String} :
    suggestionFor key = some c ↔
      FirstNearest key knownKeys c ∧ keyDistance key c ≤ 2 := by
  rw [← argmin_eq_some_iff]
  unfold suggestionFor
  rw [nearest?_eq_argmin]
  cases hnearest : knownKeys.argmin (keyDistance key) with
  | none => simp
  | some d =>
      simp only [Option.map_some, Option.ite_none_right_eq_some,
        Option.some.injEq]
      constructor
      · rintro ⟨hnear, rfl⟩
        exact ⟨rfl, hnear⟩
      · rintro ⟨rfl, hnear⟩
        exact ⟨hnear, rfl⟩

private theorem exists_firstNearest (key : String) :
    ∃ c, FirstNearest key knownKeys c := by
  have hsome : knownKeys.argmin (keyDistance key) ≠ none :=
    mt List.argmin_eq_none.1 (List.cons_ne_nil _ _)
  obtain ⟨c, hc⟩ := Option.ne_none_iff_exists'.1 hsome
  exact ⟨c, argmin_eq_some_iff.1 hc⟩

private theorem exists_suggestion_iff (key : String) :
    (∃ c, suggestionFor key = some c) ↔ ∃ c ∈ knownKeys,
      keyDistance key c ≤ 2 := by
  constructor
  · rintro ⟨c, hc⟩
    obtain ⟨hnearest, hnear⟩ := suggestionFor_eq_some_iff.1 hc
    exact ⟨c, hnearest.mem, hnear⟩
  · rintro ⟨d, hd, hnear⟩
    obtain ⟨c, hnearest⟩ := exists_firstNearest key
    exact ⟨c, suggestionFor_eq_some_iff.2 ⟨hnearest,
      (hnearest.least d hd).trans hnear⟩⟩

/-- The distance is the least number of edits of one byte.  A key is suggested
exactly if a known one is at most two edits away, and then it is the first of
the nearest. -/
theorem suggestion_by_least_edits :
    (∀ a b : List UInt8, IsLeast {n | Text.Edits n a b} (Text.editDistance a b)) ∧
    ∀ key : String,
      ((∃ c, suggestionFor key = some c) ↔ ∃ c ∈ knownKeys,
        keyDistance key c ≤ 2) ∧
      ∀ c, suggestionFor key = some c → FirstNearest key knownKeys c :=
  ⟨Text.isLeast_editDistance, fun key =>
    ⟨exists_suggestion_iff key, fun _ hc => (suggestionFor_eq_some_iff.1 hc).1⟩⟩

end ComponentBuild.ConfigWarning
