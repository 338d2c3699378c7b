import ComponentBuild.Proofs.Path.Bytes

/-!
# Import specifiers

A specifier is the way to a file, written with slashes and without its source
extension.  Dropping the extension changes only what follows the last slash, so
two files get one specifier exactly when their ways agree up to the extension.
-/

namespace ComponentBuild.Path

/-! ## Dropping an ending -/

theorem dropEnding?_eq_some_iff {α : Type} [DecidableEq α]
    {text ending stem : List α} :
    dropEnding? text ending = some stem ↔ text = stem ++ ending := by
  simp only [dropEnding?, List.isPrefixOf_iff_prefix, List.reverse_prefix]
  constructor
  · intro h
    split at h
    · rename_i hsuffix
      obtain ⟨front, rfl⟩ := hsuffix
      simp_all
    · simp at h
  · rintro rfl
    simp

theorem dropEnding?_slash {ending : List Char} (h : '/' ∉ ending)
    (lead text : List Char) :
    dropEnding? (lead ++ '/' :: text) ending =
      (dropEnding? text ending).map fun stem => lead ++ '/' :: stem := by
  ext stem
  rw [dropEnding?_eq_some_iff, Option.map_eq_some_iff]
  constructor
  · intro heq
    have hassoc : (lead ++ ['/']) ++ text = stem ++ ending := by simpa using heq
    rcases List.append_eq_append_iff.1 hassoc with ⟨rest, rfl, htext⟩ |
      ⟨rest, hlead, hending⟩
    · exact ⟨rest, dropEnding?_eq_some_iff.2 htext, by simp⟩
    · -- The ending would reach back over the slash unless nothing is left of
      -- it there.
      rcases List.eq_nil_or_concat rest with rfl | ⟨front, last, rfl⟩
      · refine ⟨[], dropEnding?_eq_some_iff.2 ?_, ?_⟩
        · simpa using hending.symm
        · simpa using hlead
      · have hlast : last = '/' := by
          have hend := congrArg List.getLast? hlead
          simpa using hend.symm
        exact absurd (by simp [hending, hlast]) h
  · rintro ⟨front, hfront, rfl⟩
    rw [dropEnding?_eq_some_iff.1 hfront]
    simp

theorem dropSourceExtension_slash (lead text : List Char) :
    dropSourceExtension (lead ++ '/' :: text) = lead ++ '/' ::
      dropSourceExtension text := by
  have htsx : '/' ∉ ".tsx".toList := by decide
  have hts : '/' ∉ ".ts".toList := by decide
  rw [dropSourceExtension, dropSourceExtension, dropEnding?_slash htsx,
    dropEnding?_slash hts]
  cases dropEnding? text ".tsx".toList <;> cases dropEnding? text
    ".ts".toList <;> rfl

private theorem dropSourceExtension_isPrefix (text : List Char) :
    dropSourceExtension text <+: text := by
  rw [dropSourceExtension]
  cases htsx : dropEnding? text ".tsx".toList with
  | some stem => exact ⟨_, (dropEnding?_eq_some_iff.1 htsx).symm⟩
  | none =>
      cases hts : dropEnding? text ".ts".toList with
      | some stem => exact ⟨_, (dropEnding?_eq_some_iff.1 hts).symm⟩
      | none => exact List.prefix_refl text

/-! ## The module of a file -/

def moduleWay (dir file : Path) : List Char :=
  dropSourceExtension (relative dir file).slashed.toList

def Climbs (way : List Char) : Prop :=
  "../".toList <+: way

instance (way : List Char) : Decidable (Climbs way) :=
  inferInstanceAs (Decidable ("../".toList <+: way))

private theorem climbs_dropSourceExtension {way : List Char} :
    Climbs (dropSourceExtension way) ↔ Climbs way := by
  constructor
  · intro h
    exact h.trans (dropSourceExtension_isPrefix way)
  · rintro ⟨rest, rfl⟩
    exact ⟨dropSourceExtension rest,
      (dropSourceExtension_slash "..".toList rest).symm⟩

/-- A way as a specifier, which begins with a dot. -/
def dotted (way : List Char) : List Char :=
  if Climbs way then way else "./".toList ++ way

theorem dotted_cases (way : List Char) :
    "./".toList <+: dotted way ∨ "../".toList <+: dotted way := by
  unfold dotted
  split
  · rename_i h
    exact .inr h
  · exact .inl (List.prefix_append _ _)

private theorem dropSourceExtension_dotted (way : List Char) :
    dropSourceExtension (if "../".toList.isPrefixOf way then way
      else "./".toList ++ way) =
      dotted (dropSourceExtension way) := by
  rw [dotted]
  by_cases h : Climbs way
  · rw [if_pos (List.isPrefixOf_iff_prefix.2 h),
      if_pos (climbs_dropSourceExtension.2 h)]
  · rw [if_neg (mt List.isPrefixOf_iff_prefix.1 h),
      if_neg (mt climbs_dropSourceExtension.1 h)]
    exact dropSourceExtension_slash ['.'] way

theorem importSpecifier_bytes (dir file : BytePath) :
    dir.importSpecifier file =
      String.ofList (dotted (dropSourceExtension
        (dir.relative file).slashed.toList)) :=
  congrArg String.ofList (dropSourceExtension_dotted _)

theorem importSpecifier_eq (dir file : Path) :
    importSpecifier dir file = String.ofList (dotted (moduleWay dir file)) := by
  rw [importSpecifier, importSpecifier_bytes, ← relative_bytes]
  rfl

private theorem dotted_injective : Function.Injective dotted := by
  intro u v h
  unfold dotted at h
  split at h
  · rename_i hu
    split at h
    · exact h
    · obtain ⟨rest, rfl⟩ := hu
      simp at h
  · split at h
    · rename_i hv
      obtain ⟨rest, rfl⟩ := hv
      simp at h
    · exact List.append_cancel_left h

theorem importSpecifier_eq_iff {dir p q : Path} :
    importSpecifier dir p = importSpecifier dir q ↔
      moduleWay dir p = moduleWay dir q := by
  rw [importSpecifier_eq, importSpecifier_eq, String.ofList_inj]
  exact dotted_injective.eq_iff

theorem importSpecifier_congr (dir : Path) {p q : Path} (h : p.parts = q.parts) :
    importSpecifier dir p = importSpecifier dir q := by
  have hnormal : p.normalize = q.normalize := by rw [normalize, normalize, h]
  have hway : relative dir p = relative dir q := by
    rw [relative, relative, hnormal]
  rw [importSpecifier_eq, importSpecifier_eq, moduleWay, moduleWay, hway]

end ComponentBuild.Path
