import ComponentBuild.Proofs.Path.Parts

/-!
# Parents and ancestors

The parent of a path is written from its segments, but it has all its parts
without the last.  So the ancestors of a path stand for the beginnings of its
parts.
-/

namespace ComponentBuild.Path

open PathPart

/-! ## Segments that stand for a part -/

private theorem isIdle_iff {segment : String} :
    isIdle segment = true ↔ segmentPart? segment = none := by
  simp only [isIdle, segmentPart?, Bool.or_eq_true, beq_iff_eq]
  split
  · simp_all
  · split <;> simp_all

def shorten (body : List String) : List String :=
  ((body.reverse.dropWhile isIdle).drop 1).dropWhile isIdle |>.reverse

def hasPart (body : List String) : Bool :=
  body.any fun segment => !isIdle segment

private theorem not_hasPart_iff {body : List String} :
    ¬ hasPart body = true ↔ body.filterMap segmentPart? = [] := by
  simp [hasPart, isIdle_iff]

private theorem filterMap_dropWhile_isIdle (body : List String) :
    (body.dropWhile isIdle).filterMap segmentPart? =
      body.filterMap segmentPart? := by
  induction body with
  | nil => rfl
  | cons segment body ih =>
      cases h : isIdle segment with
      | true =>
          rw [List.dropWhile_cons_of_pos h,
            List.filterMap_cons_none (isIdle_iff.1 h), ih]
      | false => rw [List.dropWhile_cons_of_neg (by simp [h])]

private theorem filterMap_shorten (body : List String) :
    (shorten body).filterMap segmentPart? =
      (body.filterMap segmentPart?).dropLast := by
  have hrest : ((body.reverse.dropWhile isIdle).drop 1).filterMap segmentPart? =
      ((body.reverse.dropWhile isIdle).filterMap segmentPart?).tail := by
    cases h : body.reverse.dropWhile isIdle with
    | nil => rfl
    | cons segment rest =>
        have hbusy : ¬ isIdle segment = true := by
          have hhead := List.head?_dropWhile_not isIdle body.reverse
          simpa [h] using hhead
        obtain ⟨part, hpart⟩ :=
          Option.ne_none_iff_exists'.1 (mt isIdle_iff.2 hbusy)
        simp [hpart]
  rw [shorten, List.filterMap_reverse, filterMap_dropWhile_isIdle, hrest,
    filterMap_dropWhile_isIdle,
    List.filterMap_reverse, List.tail_reverse, List.reverse_reverse]

private theorem shorten_isPrefix (body : List String) :
    shorten body <+: body := by
  rw [shorten, ← List.reverse_suffix, List.reverse_reverse]
  exact (List.dropWhile_suffix _).trans
    ((List.drop_suffix _ _).trans (List.dropWhile_suffix _))

/-! ## Writing segments -/

theorem segments_intercalate {segments : List String} (hne : segments ≠ [])
    (h : ∀ segment ∈ segments, '/' ∉ segment.toList) :
    Path.segments ⟨"/".intercalate segments⟩ = segments := by
  induction segments with
  | nil => exact absurd rfl hne
  | cons segment rest ih =>
      have hsegment := h segment List.mem_cons_self
      cases rest with
      | nil =>
          rw [String.intercalate_singleton]
          exact segments_of_not_mem hsegment
      | cons next rest =>
          have hrest := ih (by simp) fun s hs => h s (List.mem_cons_of_mem _ hs)
          rw [String.intercalate_cons_cons, segments_append,
            segments_of_not_mem hsegment, hrest]
          rfl

/-! ## Parents -/

def parentOf : List String → Option Path
  | "" :: second :: rest =>
      if hasPart (second :: rest) then
        match shorten (second :: rest) with
        | [] => some ⟨"/"⟩
        | kept => some ⟨"/".intercalate ("" :: kept)⟩
      else none
  | "." :: rest =>
      if hasPart rest then some ⟨"/".intercalate ("." :: shorten rest)⟩
        else some ⟨""⟩
  | body => if hasPart body then some ⟨"/".intercalate (shorten body)⟩ else none

private theorem parent_eq (p : Path) : p.parent = parentOf p.segments := rfl

/-- What the parent of a path is to its parts. -/
def IsParentOf (parent : Option Path) (parts : List (PathPart String)) : Prop :=
  match parent with
  | some q => q.parts = parts.dropLast ∧ parts ≠ [] ∧ parts ≠ [.root]
  | none => parts = [] ∨ parts = [.root]

section

variable {first : String} {kept rest : List String}

private theorem segments_kept (hslash : ∀ s ∈ first :: rest, '/' ∉ s.toList)
    (hkept : kept <+: rest) :
    Path.segments ⟨"/".intercalate (first :: kept)⟩ = first :: kept := by
  refine segments_intercalate (by simp) fun s hs => ?_
  rcases List.mem_cons.1 hs with rfl | hs
  · exact hslash s List.mem_cons_self
  · exact hslash s (List.mem_cons_of_mem _ (hkept.subset hs))

private theorem isParentOf_absolute {second : String}
    (hslash : ∀ s ∈ "" :: second :: rest, '/' ∉ s.toList) :
    IsParentOf (parentOf ("" :: second :: rest))
      (readParts ("" :: second :: rest)) := by
  have hread : readParts ("" :: second :: rest) =
    .root :: (second :: rest).filterMap segmentPart? := rfl
  simp only [parentOf]
  split
  · rename_i hpart
    have hparts := mt not_hasPart_iff.2 (not_not_intro hpart)
    have hlong : readParts ("" :: second :: rest) ≠ [.root] := by
      simpa [hread] using hparts
    have hdrop : (readParts ("" :: second :: rest)).dropLast =
        .root :: (shorten (second :: rest)).filterMap segmentPart? := by
      rw [hread, filterMap_shorten, List.dropLast_cons_of_ne_nil hparts]
    have hsegments := segments_kept hslash (shorten_isPrefix (second :: rest))
    cases hshort : shorten (second :: rest) with
    | nil =>
        rw [hshort] at hdrop
        exact ⟨hdrop.symm, by simp [hread], hlong⟩
    | cons name kept =>
        rw [hshort] at hdrop hsegments
        refine ⟨?_, by simp [hread], hlong⟩
        rw [parts_eq_readParts, hsegments, hdrop]
        rfl
  · rename_i hpart
    exact .inr (by rw [hread, not_hasPart_iff.1 hpart])

private theorem isParentOf_here (hslash : ∀ s ∈ "." :: rest, '/' ∉ s.toList) :
    IsParentOf (parentOf ("." :: rest)) (readParts ("." :: rest)) := by
  have hread : readParts ("." :: rest) = .here :: rest.filterMap segmentPart? :=
    rfl
  simp only [parentOf]
  split
  · rename_i hpart
    refine ⟨?_, by simp [hread], by simp [hread]⟩
    rw [parts_eq_readParts, segments_kept hslash (shorten_isPrefix rest), hread,
      List.dropLast_cons_of_ne_nil (mt not_hasPart_iff.2 (not_not_intro hpart)),
      ← filterMap_shorten]
    rfl
  · rename_i hpart
    refine ⟨?_, by simp [hread], by simp [hread]⟩
    rw [hread, not_hasPart_iff.1 hpart]
    rfl

private theorem isParentOf_plain {body : List String}
    (hslash : ∀ s ∈ body, '/' ∉ s.toList)
    (habsolute : ∀ second rest, body ≠ "" :: second :: rest)
    (hhere : ∀ rest, body ≠ "." :: rest) :
    IsParentOf (parentOf body) (readParts body) := by
  have hplain {kept : List String} (hkept : kept <+: body) :
      readParts kept = kept.filterMap segmentPart? := by
    obtain ⟨rest, rfl⟩ := hkept
    unfold readParts
    split
    · exact absurd rfl (habsolute _ _)
    · exact absurd rfl (hhere _)
    · rfl
  have hread := hplain (List.prefix_refl body)
  rw [parentOf.eq_3 body habsolute hhere]
  split
  · rename_i hpart
    refine ⟨?_, ?_, ?_⟩
    · rw [hread, ← filterMap_shorten]
      cases hshort : shorten body with
      | nil => rfl
      | cons first kept =>
          have hbegin := shorten_isPrefix body
          rw [hshort] at hbegin
          obtain ⟨rest, rfl⟩ := hbegin
          have hsegments := segments_kept hslash (List.prefix_append kept rest)
          rw [parts_eq_readParts, hsegments,
            hplain (List.prefix_append (first :: kept) rest)]
    · rw [hread]
      exact mt not_hasPart_iff.2 (not_not_intro hpart)
    · intro hroot
      have hmem : .root ∈ body.filterMap segmentPart? := by simp [← hread, hroot]
      obtain ⟨s, hs, hpart⟩ := List.mem_filterMap.1 hmem
      exact isStep_of_segmentPart? (hslash s hs) hpart
  · rename_i hpart
    exact .inl (hread.trans (not_hasPart_iff.1 hpart))

end

theorem isParentOf_parent (p : Path) : IsParentOf p.parent p.parts := by
  have hslash : ∀ s ∈ p.segments, '/' ∉ s.toList :=
    fun s hs => slash_not_mem_segment hs
  rw [parent_eq, parts_eq_readParts]
  revert hslash
  generalize p.segments = l
  intro hslash
  by_cases habsolute : ∃ second rest, l = "" :: second :: rest
  · obtain ⟨second, rest, rfl⟩ := habsolute
    exact isParentOf_absolute hslash
  · by_cases hhere : ∃ rest, l = "." :: rest
    · obtain ⟨rest, rfl⟩ := hhere
      exact isParentOf_here hslash
    · exact isParentOf_plain hslash (fun second rest h => habsolute ⟨second,
        rest, h⟩)
        fun rest h => hhere ⟨rest, h⟩

theorem parts_parent {p q : Path} (h : p.parent = some q) :
    q.parts = p.parts.dropLast := by
  have hparent := isParentOf_parent p
  rw [h] at hparent
  exact hparent.1

theorem exists_parent {p : Path} (h : p.parts.dropLast ≠ []) :
    ∃ q, p.parent = some q ∧ q.parts = p.parts.dropLast := by
  have hparent := isParentOf_parent p
  cases hp : p.parent with
  | none =>
      rw [hp] at hparent
      rcases hparent with hparts |
        hparts <;> rw [hparts] at h <;> exact absurd rfl h
  | some q => exact ⟨q, rfl, parts_parent hp⟩

theorem prefix_dropLast {as bs : List (PathPart String)} (h : as <+: bs)
    (hproper : as ≠ bs) :
    as <+: bs.dropLast := by
  obtain ⟨rest, rfl⟩ := h
  have hrest : rest ≠ [] := by
    rintro rfl
    exact hproper (List.append_nil as).symm
  rw [List.dropLast_append_of_ne_nil hrest]
  exact List.prefix_append _ _

/-! ## Ancestors -/

private theorem length_parts_le (p : Path) :
    p.parts.length ≤ p.segments.length := by
  rw [parts_eq_readParts]
  generalize p.segments = l
  unfold readParts
  split
  · exact Nat.succ_le_succ (List.length_filterMap_le _ _)
  · exact Nat.succ_le_succ (List.length_filterMap_le _ _)
  · exact List.length_filterMap_le _ _

theorem isEmpty_iff {p : Path} : p.isEmpty = true ↔ p.parts = [] := by
  constructor
  · intro h
    obtain rfl : p = ⟨""⟩ := congrArg Path.mk (String.isEmpty_iff.1 h)
    rfl
  · intro h
    have hsegments : p.segments = [""] := by
      rw [parts_eq_readParts] at h
      unfold readParts at h
      split at h
      · cases h
      · cases h
      · rename_i habsolute hhere
        obtain ⟨first, rest, hfirst⟩ :=
          List.exists_cons_of_ne_nil (segments_ne_nil p)
        have hidle : segmentPart? first = none :=
          List.filterMap_eq_nil_iff.1 h first (hfirst ▸ List.mem_cons_self)
        rw [← isIdle_iff, isIdle, Bool.or_eq_true, beq_iff_eq,
          beq_iff_eq] at hidle
        rcases hidle with rfl | rfl
        · cases rest with
          | nil => exact hfirst
          | cons second rest => exact absurd hfirst (habsolute second rest)
        · exact absurd hfirst (hhere rest)
    exact String.isEmpty_iff.2 (text_eq_empty_of_segments hsegments)

theorem isEmpty_eq_false_iff {p : Path} : p.isEmpty = false ↔ p.parts ≠ [] := by
  rw [Ne, ← isEmpty_iff, Bool.not_eq_true]

theorem isEmpty_congr {p q : Path} (h : p.parts = q.parts) :
    p.isEmpty = q.isEmpty := by
  rw [Bool.eq_iff_iff, isEmpty_iff, isEmpty_iff, h]

private theorem parts_of_mem_ancestors_go {fuel : Nat} {p q : Path}
    (h : q ∈ ancestors.go fuel p) :
    q.parts <+: p.parts := by
  induction fuel generalizing p with
  | zero =>
      obtain rfl := List.mem_singleton.1 h
      exact List.prefix_refl _
  | succ fuel ih =>
      unfold ancestors.go at h
      cases hp : p.parent with
      | none =>
          rw [hp] at h
          obtain rfl := List.mem_singleton.1 h
          exact List.prefix_refl _
      | some parent =>
          rw [hp] at h
          rcases List.mem_cons.1 h with rfl | h
          · exact List.prefix_refl _
          · have hparent := ih h
            rw [parts_parent hp] at hparent
            exact hparent.trans (List.dropLast_prefix _)

theorem parts_of_mem_ancestors {p q : Path} (h : q ∈ p.ancestors) :
    q.parts <+: p.parts :=
  parts_of_mem_ancestors_go h

private theorem ancestors_go_pairwise (fuel : Nat) (p : Path) :
    (ancestors.go fuel p).Pairwise fun q r =>
      r.parts.length < q.parts.length := by
  induction fuel generalizing p with
  | zero => exact List.pairwise_singleton _ _
  | succ fuel ih =>
      unfold ancestors.go
      have hparent := isParentOf_parent p
      cases hp : p.parent with
      | none => exact List.pairwise_singleton _ _
      | some parent =>
          rw [hp] at hparent
          refine List.pairwise_cons.2 ⟨fun q hq => ?_, ih parent⟩
          have hlength := (parts_of_mem_ancestors_go hq).length_le
          rw [hparent.1, List.length_dropLast] at hlength
          have hpos : 0 < p.parts.length := List.length_pos_iff.2 hparent.2.1
          omega

theorem ancestors_pairwise (p : Path) :
    p.ancestors.Pairwise fun q r => r.parts.length < q.parts.length :=
  ancestors_go_pairwise _ p

theorem exists_ancestors_eq_cons (p : Path) :
    ∃ rest, p.ancestors = p :: rest := by
  unfold ancestors
  cases p.segments.length with
  | zero => exact ⟨[], rfl⟩
  | succ fuel =>
      unfold ancestors.go
      cases p.parent with
      | none => exact ⟨[], rfl⟩
      | some parent => exact ⟨ancestors.go fuel parent, rfl⟩

theorem exists_mem_takeWhile_ancestors_go {fuel : Nat} {p : Path}
    (hfuel : p.parts.length ≤ fuel) {parts : List (PathPart String)}
    (hne : parts ≠ []) (h : parts <+: p.parts) {keep : Path → Bool}
    (hkeep : ∀ q : Path, parts <+: q.parts → q.parts <+: p.parts →
      keep q = true) :
    ∃ q ∈ (ancestors.go fuel p).takeWhile keep, q.parts = parts := by
  have hhead := hkeep p h (List.prefix_refl _)
  induction fuel generalizing p with
  | zero =>
      have hp : p.parts = [] :=
        List.eq_nil_of_length_eq_zero (Nat.le_zero.1 hfuel)
      rw [hp] at h
      exact absurd (List.prefix_nil.1 h) hne
  | succ fuel ih =>
      obtain ⟨rest, hrest⟩ := h
      have hparent := isParentOf_parent p
      unfold ancestors.go
      by_cases hlast : rest = []
      · rw [hlast, List.append_nil] at hrest
        refine ⟨p, ?_, hrest.symm⟩
        cases hp : p.parent <;> simp [hhead]
      · cases hp : p.parent with
        | none =>
            rw [hp] at hparent
            rcases hparent with hparts | hparts
            · simp [hparts, hne] at hrest
            · rw [hparts, List.append_eq_singleton_iff] at hrest
              simp [hne, hlast] at hrest
        | some q =>
            have hq := parts_parent hp
            rw [← hrest, List.dropLast_append_of_ne_nil hlast] at hq
            have hbegin : parts <+: q.parts := hq ▸ List.prefix_append parts _
            have hbelow : q.parts <+: p.parts :=
              parts_parent hp ▸ List.dropLast_prefix _
            have hshort : q.parts.length ≤ fuel := by
              have hlength := congrArg List.length (parts_parent hp)
              rw [List.length_dropLast] at hlength
              omega
            obtain ⟨r, hr, hparts⟩ := ih hshort hbegin
              (fun r hr hrq => hkeep r hr (hrq.trans hbelow))
                (hkeep q hbegin hbelow)
            exact ⟨r, by simp [hhead, hr], hparts⟩

theorem exists_mem_takeWhile_ancestors {p : Path}
    {parts : List (PathPart String)} (keep : Path → Bool) (hne : parts ≠ [])
    (h : parts <+: p.parts)
    (hkeep : ∀ q : Path, parts <+: q.parts → q.parts <+: p.parts →
      keep q = true) :
    ∃ q ∈ p.ancestors.takeWhile keep, q.parts = parts :=
  exists_mem_takeWhile_ancestors_go (length_parts_le p) hne h hkeep

theorem exists_mem_ancestors {p : Path} {parts : List (PathPart String)}
    (hne : parts ≠ []) (h : parts <+: p.parts) :
    ∃ q ∈ p.ancestors.takeWhile (fun q => !q.isEmpty), q.parts = parts := by
  refine exists_mem_takeWhile_ancestors _ hne h fun q hq _ => ?_
  rw [Bool.not_eq_true', isEmpty_eq_false_iff]
  exact hq.ne_nil hne

end ComponentBuild.Path
