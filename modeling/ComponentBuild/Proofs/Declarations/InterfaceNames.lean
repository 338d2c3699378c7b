import ComponentBuild.Proofs.Component.Name
import ComponentBuild.Proofs.Declarations.DeclaredNames

/-!
# The interfaces of different components

Each component in an artifact has an interface in the namespaces and one for its
element, both named by its tag.  Components with different tags have different
interfaces only if a dash that shows tells their tags apart, and nothing keeps
two interfaces of one name from being declared.
-/

namespace ComponentBuild

def elementNameChars : List Char :=
  "abcdefghijklmnopqrstuvwxyz0123456789-._".toList

/-- A name for a custom element, in ASCII: a letter first, a dash in it, and no
capitals. -/
def IsElementName (tag : String) : Prop :=
  tag.toList.head?.any Char.isLower = true ∧ '-' ∈ tag.toList ∧
    tag.toList.all elementNameChars.contains = true

instance (tag : String) : Decidable (IsElementName tag) :=
  inferInstanceAs (Decidable (_ ∧ _ ∧ _))

namespace Declarations

def tagLetters (components : List Component) : List Char :=
  (ownComponents components).flatMap (·.tag.toList)

private theorem capitalsApart_tagLetters {components : List Component}
    (h : ∀ c ∈ ownComponents components, IsElementName c.tag) :
    CapitalsApart (tagLetters components) := by
  have hlower :
      elementNameChars.all (fun c => c.toNat < 128 && !c.isUpper) = true := by
        decide
  refine capitalsApart_of_lowerCase fun letter hletter => ?_
  obtain ⟨c, hc, hmem⟩ := List.mem_flatMap.1 hletter
  have hallowed : letter ∈ elementNameChars :=
    List.contains_iff_mem.1 (List.all_eq_true.1 (h c hc).2.2 letter hmem)
  simpa using List.all_eq_true.1 hlower letter hallowed

/-- No two components in the artifact have an interface of one name, in the
namespaces or among the elements. -/
def InterfacesDistinct (components : List Component) : Prop :=
  ((ownComponents components).map (·.pascal)).Nodup ∧
    ((ownComponents components).map (·.elementName)).Nodup

private theorem elementName_eq_iff {c d : Component} :
    c.elementName = d.elementName ↔ c.pascal = d.pascal := by
  rw [Component.elementName, Component.elementName, String.append_left_inj,
    String.append_right_inj]

private theorem nodup_map_congr {α β γ : Type} {f : α → β} {g : α → γ}
    {l : List α} (h : ∀ x ∈ l, ∀ y ∈ l, (f x = f y ↔ g x = g y)) :
    (l.map f).Nodup ↔ (l.map g).Nodup := by
  unfold List.Nodup
  rw [List.pairwise_map, List.pairwise_map]
  exact List.Pairwise.iff_of_mem fun {x y} hx hy => not_congr (h x hx y hy)

/-- Interfaces are distinct exactly if the tags still are with only the dashes
that show.  If every dash shows, that is if the tags are.  Element names in
ASCII have letters as they are assumed, by `capitalsApart_tagLetters`. -/
theorem interfacesDistinct_iff (components : List Component)
    (hletters : CapitalsApart (tagLetters components)) :
    (InterfacesDistinct components ↔
      ((ownComponents components).map fun c => withShownDashes c.tag).Nodup) ∧
    ((∀ c ∈ ownComponents components, ShowsDashes c.tag) →
      (InterfacesDistinct components ↔
        ((ownComponents components).map (·.tag)).Nodup)) := by
  have hpascal : ((ownComponents components).map (·.pascal)).Nodup ↔
      ((ownComponents components).map fun c => withShownDashes c.tag).Nodup := by
    refine nodup_map_congr fun c hc d hd =>
      pascalName_eq_iff (hletters.mono fun letter hletter => ?_)
    rcases List.mem_append.1 hletter with hletter | hletter
    · exact List.mem_flatMap.2 ⟨c, hc, hletter⟩
    · exact List.mem_flatMap.2 ⟨d, hd, hletter⟩
  have helement : ((ownComponents components).map (·.elementName)).Nodup ↔
      ((ownComponents components).map (·.pascal)).Nodup :=
    nodup_map_congr fun _ _ _ _ => elementName_eq_iff
  have hshown : InterfacesDistinct components ↔
      ((ownComponents components).map fun c => withShownDashes c.tag).Nodup := by
    rw [InterfacesDistinct, helement, and_self, hpascal]
  refine ⟨hshown, fun hshows =>
    hshown.trans (nodup_map_congr fun c hc d hd => ?_)⟩
  rw [withShownDashes_of_shows (hshows c hc),
    withShownDashes_of_shows (hshows d hd), String.append_right_inj]

/-! ## Tags with and without a dash before a digit -/

def sizedCard (tag typeText : String) : Component where
  tag
  sourceFile := ⟨"/proj/src/card.tsx"⟩
  properties := [{ name := "size", typeText }]

theorem interfaces_distinct_cards :
    let components :=
      [sizedCard "my-card" "number", sizedCard "my-card-2" "string",
      sizedCard "my-card-list" "number"]
    CapitalsApart (tagLetters components) ∧ InterfacesDistinct components := by
  intro components
  have hnames : ∀ c ∈ ownComponents components, IsElementName c.tag := by
    decide +kernel
  have hletters := capitalsApart_tagLetters hnames
  exact ⟨hletters, (interfacesDistinct_iff components hletters).1.2
    (by decide +kernel)⟩

/-- Two elements of different names whose interfaces are one, with two types for
one property. -/
theorem interface_declared_twice :
    let components :=
      [sizedCard "my-card-2" "number", sizedCard "my-card2" "string"]
    (∀ c ∈ components, IsElementName c.tag) ∧ (components.map (·.tag)).Nodup ∧
      ¬ ((ownComponents components).map (·.pascal)).Nodup ∧
      ¬ ((ownComponents components).map (·.elementName)).Nodup ∧
      (ownComponents components).map
          (componentBlock (artifactTable components cardOptions)
            · cardOptions.internal) =
        ["    interface MyCard2 \x7b\n        \"size\": number;\n    \x7d",
          "    interface MyCard2 \x7b\n        \"size\": string;\n    \x7d"] := by
  refine ⟨?_, ?_, ?_, ?_, ?_⟩ <;> decide +kernel

end Declarations

end ComponentBuild
