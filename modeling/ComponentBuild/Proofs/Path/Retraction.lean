import ComponentBuild.Proofs.Path.Ending
import ComponentBuild.Proofs.Path.Resolving

/-!
# Normalization and joining

A normal path is the root or a run of `..`, and names behind it.  Steps act on a
stack as their own normal form does, so it makes no difference whether paths are
normalized before they are joined or only afterwards.
-/

namespace ComponentBuild.Path

open PathPart

/-! ## The form of a normal path -/

private theorem parts_normalize_of_relative {p : Path}
    (h : p.isAbsolute = false) :
    p.normalize.parts = List.replicate p.climb .up ++ p.descent := by
  have hempty : ∀ part ∈ ([] : List (PathPart String)), part.isName = true := by
    simp
  obtain ⟨k, names, hnames, hfree, -⟩ :=
    foldl_normalStep_root (fun step => isStep_of_mem_segments (p := p)) hempty
  rw [← foldl_relative h] at hfree
  obtain ⟨hclimb, hdescent⟩ := climb_descent_of_stack hfree hnames
  rw [parts_normalize, normalParts, hfree, hclimb, hdescent, List.reverse_append,
    List.reverse_replicate]

private theorem isName_of_mem_descent {p : Path} {part : PathPart String}
    (h : part ∈ p.descent) :
    part.isName = true :=
  (List.mem_filter.1 h).2

private theorem part_cases {p : Path} {part : PathPart String}
    (h : part ∈ p.normalize.parts) :
    part.isName = true ∨ (p.isAbsolute = true ∧ part = .root) ∨
      (p.isAbsolute = false ∧ part = .up) := by
  cases hp : p.isAbsolute with
  | true =>
      rw [parts_normalize_of_isAbsolute hp] at h
      rcases List.mem_cons.1 h with h | h
      · exact .inr (.inl ⟨rfl, h⟩)
      · exact .inl (isName_of_mem_descent h)
  | false =>
      rw [parts_normalize_of_relative hp] at h
      rcases List.mem_append.1 h with h | h
      · exact .inr (.inr ⟨rfl, List.eq_of_mem_replicate h⟩)
      · exact .inl (isName_of_mem_descent h)

private theorem isAbsolute_normalize (p : Path) :
    p.normalize.isAbsolute = p.isAbsolute := by
  cases h : p.isAbsolute with
  | true =>
      rw [isAbsolute, parts_normalize_of_isAbsolute h]
      rfl
  | false =>
      rw [isAbsolute, beq_eq_false_iff_ne]
      intro hhead
      rcases part_cases (List.mem_of_mem_head? hhead) with hname |
        ⟨hroot, -⟩ | ⟨-, hup⟩
      · cases hname
      · rw [h] at hroot
        cases hroot
      · cases hup

private theorem here_not_mem_normalize (p : Path) :
    .here ∉ p.normalize.parts := by
  intro h
  rcases part_cases h with hname | ⟨-, hroot⟩ | ⟨-, hup⟩
  · cases hname
  · cases hroot
  · cases hup

private theorem relative_of_up_mem {p : Path} (h : .up ∈ p.normalize.parts) :
    p.isAbsolute = false := by
  rcases part_cases h with hname | ⟨-, hroot⟩ | ⟨hrelative, -⟩
  · cases hname
  · cases hroot
  · exact hrelative

theorem pairwise_up_normalize (p : Path) :
    p.normalize.parts.Pairwise fun earlier later => later = .up →
      earlier = .up := by
  by_cases hup : .up ∈ p.normalize.parts
  · rw [parts_normalize_of_relative (relative_of_up_mem hup),
      List.pairwise_append]
    refine ⟨List.pairwise_replicate.2 (.inr fun _ => rfl), ?_, ?_⟩
    · refine List.pairwise_of_forall_mem_list
        fun earlier _ later hlater hlast => ?_
      rw [hlast] at hlater
      cases isName_of_mem_descent hlater
    · intro earlier hearlier _ _ _
      exact List.eq_of_mem_replicate hearlier
  · refine List.pairwise_of_forall_mem_list fun earlier _ later hlater hlast => ?_
    rw [hlast] at hlater
    exact absurd hlater hup

/-! ## Steps and their normal form -/

theorem foldl_normalForm {steps : List (PathPart String)}
    (hsteps : ∀ step ∈ steps, step.IsStep) (done : List (PathPart String)) :
    (steps.foldl normalStep []).reverse.foldl normalStep done =
      steps.foldl normalStep done := by
  -- The last step works on the stack of those before it, so the list is taken
  -- apart from behind.
  induction steps using List.reverseRecOn with
  | nil => rfl
  | append_singleton steps step ih =>
      have hinit : ∀ s ∈ steps, s.IsStep :=
        fun s hs => hsteps s (List.mem_append_left _ hs)
      have hlast : step.IsStep :=
        hsteps step (List.mem_append_right _ List.mem_cons_self)
      have hempty : ∀ part ∈ ([] : List (PathPart String)),
          part.isName = true := by simp
      obtain ⟨k, names, hnames, hfree, -⟩ := foldl_normalStep_root hinit hempty
      specialize ih hinit
      rw [hfree] at ih
      simp only [List.foldl_append, List.foldl_cons, List.foldl_nil, hfree, ← ih]
      cases step with
      | root => exact hlast.elim
      | here => exact hlast.elim
      | name text =>
          rw [normalStep_name, List.reverse_cons, List.foldl_append]
          rfl
      | up =>
          cases names with
          | nil =>
              rw [List.nil_append, normalStep_up_climb, List.reverse_replicate,
                List.reverse_replicate, List.replicate_succ', List.foldl_append]
              rfl
          | cons part names =>
              cases part with
              | name text =>
                  rw [List.cons_append, List.reverse_cons, List.foldl_append,
                    List.foldl_cons, List.foldl_nil, normalStep_name]
                  rfl
              | root | here | up => cases hnames _ List.mem_cons_self

private theorem foldl_normalize (p : Path) :
    p.normalize.parts.foldl normalStep [] = p.parts.foldl normalStep [] := by
  rw [parts_normalize, normalParts]
  exact (normalStack_of_readable p.parts_readable).foldl_reverse

/-! ## Joining -/

theorem foldl_join (a : Path) {b : Path} (h : b.isAbsolute = false) :
    (a.join b).parts.foldl normalStep [] =
      (b.segments.filterMap segmentPart?).foldl normalStep
        (a.parts.foldl normalStep []) := by
  by_cases hempty : a.text = ""
  · obtain rfl : a = ⟨""⟩ := congrArg Path.mk hempty
    have hjoin : join ⟨""⟩ b = b := by simp [join, h]
    rw [hjoin]
    exact foldl_relative h
  · rw [parts_join hempty h, List.foldl_append]

private theorem foldl_steps_normalize {b : Path} (h : b.isAbsolute = false)
    (done : List (PathPart String)) :
    (b.normalize.segments.filterMap segmentPart?).foldl normalStep done =
      (b.segments.filterMap segmentPart?).foldl normalStep done := by
  have hnormal : b.normalize.isAbsolute = false := by rw [isAbsolute_normalize, h]
  rw [← foldl_normalForm (fun step => isStep_of_mem_segments (p := b.normalize)),
    ← foldl_normalForm (fun step => isStep_of_mem_segments (p := b)),
    ← foldl_relative hnormal, ← foldl_relative h, foldl_normalize]

private theorem normalize_eq_of_foldl {p q : Path}
    (h : p.parts.foldl normalStep [] = q.parts.foldl normalStep []) :
    p.normalize = q.normalize := by
  rw [normalize, normalize, normalParts, normalParts, h]

private theorem normalize_join_normalize (a b : Path) :
    (a.normalize.join b.normalize).normalize = (a.join b).normalize := by
  cases h : b.isAbsolute with
  | true =>
      have hnormal : b.normalize.isAbsolute = true := by
        rw [isAbsolute_normalize, h]
      rw [join, if_pos hnormal, join, if_pos h]
      exact b.isNormal_normalize.normalize_eq
  | false =>
      have hnormal : b.normalize.isAbsolute = false := by
        rw [isAbsolute_normalize, h]
      apply normalize_eq_of_foldl
      rw [foldl_join _ hnormal, foldl_join _ h, foldl_normalize,
        foldl_steps_normalize h]

/-- Normalization is a retraction that goes with joining.  It keeps a path
absolute or relative, leaves no `.`, and leaves `..` only at the front of a
relative path. -/
theorem normalize_retraction (a b : Path) :
    a.normalize.normalize = a.normalize ∧
      (a.join b).normalize = (a.normalize.join b.normalize).normalize ∧
      a.normalize.isAbsolute = a.isAbsolute ∧
      .here ∉ a.normalize.parts ∧
      (.up ∈ a.normalize.parts → a.isAbsolute = false) ∧
      a.normalize.parts.Pairwise fun earlier later => later = .up →
      earlier = .up := by
  refine ⟨a.isNormal_normalize.normalize_eq,
    (normalize_join_normalize a b).symm, ?_⟩
  exact ⟨a.isAbsolute_normalize, a.here_not_mem_normalize, relative_of_up_mem,
    a.pairwise_up_normalize⟩

/-- The second path climbs past the first one, and the first one is relative and
climbs itself. -/
example :
    (Path.join ⟨"../a/b/.."⟩ ⟨"./../../../c//"⟩).normalize = ⟨"../../../c"⟩ := by
  decide +kernel

end ComponentBuild.Path
