import ComponentBuild.Proofs.Path.Parts

/-!
# The ending of a file name

Normalization keeps the name at the end of a path, so a normal path ends as the
path that it was made from.  A path that is normal already stays as it is.
-/

namespace ComponentBuild.Path

open PathPart

/-! ## Normal paths stay -/

theorem NormalStack.foldl_reverse {τ : Type} [DecidableEq τ] [NameText τ]
    {done : List (PathPart τ)} (h : NormalStack done) :
    done.reverse.foldl normalStep [] = done := by
  induction h with
  | climb n =>
      rw [List.reverse_replicate]
      induction n with
      | zero => rfl
      | succ n ih =>
          rw [List.replicate_succ', List.foldl_append, ih, List.foldl_cons,
            List.foldl_nil,
          normalStep_up_climb, List.replicate_succ']
  | root => rfl
  | name valid below ih =>
      rw [List.reverse_cons, List.foldl_append, ih]
      exact normalStep_name _ _

theorem IsNormal.normalParts_eq {p : Path} (h : p.IsNormal) :
    normalParts p.parts = p.parts := by
  obtain ⟨q, rfl⟩ := h
  have hstack := normalStack_of_readable q.parts_readable
  rw [parts_normalize, normalParts, normalParts, hstack.foldl_reverse]

theorem IsNormal.normalize_eq {p : Path} (h : p.IsNormal) : p.normalize = p := by
  rw [normalize, h.normalParts_eq]
  exact h.eq_ofParts.symm

theorem isNormal_iff {p : Path} : p.IsNormal ↔ p.normalize = p :=
  ⟨IsNormal.normalize_eq, fun h => ⟨p, h.symm⟩⟩

instance (p : Path) : Decidable p.IsNormal :=
  decidable_of_iff _ isNormal_iff.symm

theorem IsNormal.eq_of_same {p q : Path} (hp : p.IsNormal) (hq : q.IsNormal)
    (h : KeyOrder.same p q = true) : p = q :=
  hp.eq_of_parts hq (same_key_iff.1 h)

/-! ## Absolute paths -/

private theorem getLast?_normalStep {done : List (PathPart String)}
    (h : done.getLast? = some .root) (part : PathPart String) :
    (normalStep done part).getLast? = some .root := by
  have hcons (part : PathPart String) : (part :: done).getLast? = some .root := by
    rw [List.getLast?_cons, h]
    rfl
  cases part with
  | here => simpa [normalStep] using h
  | root => simpa [normalStep] using hcons .root
  | name text =>
      rw [normalStep_name]
      exact hcons _
  | up =>
      cases done with
      | nil => cases h
      | cons part done =>
          cases part with
          | name text =>
              cases done with
              | nil => cases h
              | cons part done => simpa [normalStep] using h
          | root | here | up => simp [normalStep, h]

theorem parts_normalize_ne_nil {p : Path} (h : p.isAbsolute = true) :
    p.normalize.parts ≠ [] := by
  rw [isAbsolute, beq_iff_eq] at h
  obtain ⟨rest, hrest⟩ := List.head?_eq_some_iff.1 h
  have hlast : (rest.foldl normalStep [.root]).getLast? = some .root :=
    List.foldlRecOn (motive := fun done : List (PathPart String) =>
      done.getLast? = some .root) _ _ rfl
      fun done hdone part _ => getLast?_normalStep hdone part
  have hstack : rest.foldl normalStep [.root] ≠ [] := by
    intro hnil
    rw [hnil] at hlast
    cases hlast
  rw [parts_normalize, hrest, normalParts, List.foldl_cons]
  simpa [normalStep] using hstack

/-! ## Endings -/

theorem endsWith_iff {p : Path} {ending : String} :
    p.endsWith ending = true ↔ ending.toList <:+ p.text.toList := by
  rw [endsWith, List.isPrefixOf_iff_prefix, List.reverse_prefix]

private theorem splitSlashes_append_plain {u v : List Char} (h : '/' ∉ v) :
    ∃ front last, splitSlashes '/' u = front ++ [last] ∧
      splitSlashes '/' (u ++ v) = front ++ [last ++ v] := by
  induction u with
  | nil => exact ⟨[], [], rfl, by simp [splitSlashes_of_not_mem h]⟩
  | cons c u ih =>
      obtain ⟨front, last, hu, huv⟩ := ih
      simp only [List.cons_append, splitSlashes, hu, huv]
      split
      · exact ⟨[] :: front, last, rfl, rfl⟩
      · cases front with
        | nil => exact ⟨[], c :: last, rfl, rfl⟩
        | cons piece front => exact ⟨(c :: piece) :: front, last, rfl, rfl⟩

private theorem readParts_append_name (front : List String) {name : String}
    (h : IsName name) :
    ∃ before, readParts (front ++ [name]) = before ++ [.name name] := by
  have hstep : (PathPart.name name).IsStep := h
  have hname : segmentPart? name = some (.name name) := segmentPart?_text hstep
  cases front with
  | nil =>
      refine ⟨[], ?_⟩
      rw [List.nil_append, readParts_plain h.1 h.2.1]
      simp [hname]
  | cons first front =>
      refine ⟨readParts (first :: front ++ [""]), ?_⟩
      rw [readParts_append (by simp) (by simp)]
      simp [hname]

structure IsEnding (ending : String) : Prop where
  long : 2 < ending.toList.length
  plain : '/' ∉ ending.toList

theorem IsEnding.isName {ending name : String} (h : IsEnding ending)
    (hname : ending.toList <:+ name.toList) (hslash : '/' ∉ name.toList) :
    IsName name := by
  have hlong : 2 < name.toList.length := Nat.lt_of_lt_of_le h.long hname.length_le
  refine ⟨?_, ?_, ?_, hslash⟩ <;> rintro rfl <;> exact absurd hlong (by decide)

private theorem exists_name_of_endsWith {p : Path} {ending : String}
    (he : IsEnding ending) (h : p.endsWith ending = true) :
    ∃ before name, p.parts = before ++ [.name name] ∧
      ending.toList <:+ name.toList := by
  obtain ⟨u, hu⟩ := endsWith_iff.1 h
  obtain ⟨front, last, -, hsplit⟩ := splitSlashes_append_plain (u := u) he.plain
  have hsegments :
      p.segments = front.map String.ofList ++
        [String.ofList (last ++ ending.toList)] := by
    simp [segments, ← hu, hsplit]
  have hsuffix :
      ending.toList <:+ (String.ofList (last ++ ending.toList)).toList := by simp
  have hslash : '/' ∉ (String.ofList (last ++ ending.toList)).toList := by
    apply slash_not_mem_segment (p := p)
    rw [hsegments]
    exact List.mem_append_right _ List.mem_cons_self
  obtain ⟨before, hparts⟩ := readParts_append_name (front.map String.ofList)
    (he.isName hsuffix hslash)
  exact ⟨before, _, by rw [parts_eq_readParts, hsegments, hparts], hsuffix⟩

theorem endsWith_child {base : Path} {name ending : String}
    (hname : IsName name) (h : ending.toList <:+ name.toList) :
    (base.child name).endsWith ending = true := by
  have hstep : (PathPart.name name).IsStep := hname
  have hrelative := isAbsolute_step hstep
  rw [PathPart.text] at hrelative
  rw [endsWith_iff, child, join, hrelative]
  obtain ⟨u, hu⟩ := h
  simp only [Bool.false_eq_true, if_false]
  split
  · exact ⟨base.text.toList ++ u, by simp [← hu]⟩
  · exact ⟨base.text.toList ++ '/' :: u, by simp [← hu]⟩

theorem endsWith_normalize {p : Path} {ending : String} (he : IsEnding ending)
    (h : p.endsWith ending = true) : p.normalize.endsWith ending = true := by
  obtain ⟨before, name, hparts, hname⟩ := exists_name_of_endsWith he h
  have hstep : IsName name := by
    obtain ⟨lead, steps, hread, hlead, hsteps⟩ := p.parts_readable
    have hmem : .name name ∈ lead ++ steps := by rw [← hread, hparts]; simp
    rcases List.mem_append.1 hmem with hmem | hmem
    · rcases hlead with rfl | rfl | rfl <;> simp at hmem
    · exact hsteps _ hmem
  have hnormal :
      normalParts p.parts = (before.foldl normalStep []).reverse ++
        [.name name] := by
    rw [hparts, normalParts, List.foldl_append]
    simp [normalStep_name]
  rw [normalize, hnormal, ofParts, List.foldl_append]
  exact endsWith_child hstep hname

end ComponentBuild.Path
