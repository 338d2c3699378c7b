import ComponentBuild.Path.Normal
import ComponentBuild.Proofs.SortedMap.Separating

/-!
# The parts of a path

Writing parts out and reading the text again gives the same parts.  What can be
read is a lead, which is the root, a leading `.` or nothing, and steps after it,
each of which is `..` or a name.  A normal path is written in one way only.
-/

namespace ComponentBuild

namespace PathPart

private theorem key_injective : Function.Injective key := by
  intro a b h
  cases a <;> cases b <;> simp_all [key]

instance : KeyOrder.Separating (PathPart String) where
  eq_of_same h := key_injective ((KeyOrder.same_byKey_iff key).1 h)

end PathPart

namespace Path

open KeyOrder

theorem same_key_iff {p q : Path} :
    KeyOrder.same p q = true ↔ p.parts = q.parts :=
  same_byKey_iff parts

/-! ## Cutting a text at its slashes -/

private theorem splitSlashes_append (u v : List Char) :
    splitSlashes '/' (u ++ '/' :: v) = splitSlashes '/' u ++
      splitSlashes '/' v := by
  induction u with
  | nil => simp [splitSlashes]
  | cons c u ih =>
      simp only [List.cons_append, splitSlashes]
      split
      · rw [ih, List.cons_append]
      · rw [ih]
        cases hu : splitSlashes '/' u with
        | nil => exact absurd hu (splitSlashes_ne_nil u)
        | cons piece pieces => rfl

theorem splitSlashes_of_not_mem {u : List Char} (h : '/' ∉ u) :
    splitSlashes '/' u = [u] := by
  induction u with
  | nil => rfl
  | cons c u ih =>
      rw [List.mem_cons, not_or] at h
      simp [splitSlashes, Ne.symm h.1, ih h.2]

private theorem eq_nil_of_splitSlashes {u : List Char}
    (h : splitSlashes '/' u = [[]]) : u = [] := by
  cases u with
  | nil => rfl
  | cons c u =>
      simp only [splitSlashes] at h
      split at h
      · simp [splitSlashes_ne_nil] at h
      · cases hu : splitSlashes '/' u with
        | nil => exact absurd hu (splitSlashes_ne_nil u)
        | cons piece pieces => simp [hu] at h

theorem segments_ne_nil (p : Path) : p.segments ≠ [] := by
  simp [segments, splitSlashes_ne_nil]

theorem slash_not_mem_segment {p : Path} {segment : String}
    (h : segment ∈ p.segments) :
    '/' ∉ segment.toList := by
  obtain ⟨piece, hpiece, rfl⟩ := List.mem_map.1 h
  rw [String.toList_ofList]
  exact slash_not_mem_piece hpiece

theorem segments_append (u v : String) :
    segments ⟨u ++ "/" ++ v⟩ = segments ⟨u⟩ ++ segments ⟨v⟩ := by
  have h : (u ++ "/" ++ v).toList = u.toList ++ '/' :: v.toList := by simp
  simp only [segments, h, splitSlashes_append, List.map_append]

theorem segments_of_not_mem {text : String} (h : '/' ∉ text.toList) :
    segments ⟨text⟩ = [text] := by
  simp [segments, splitSlashes_of_not_mem h]

theorem text_eq_empty_of_segments {p : Path} (h : p.segments = [""]) :
    p.text = "" := by
  obtain ⟨piece, hsplit, hpiece⟩ := List.map_eq_singleton_iff.1 h
  obtain rfl : piece = [] := String.ofList_eq_empty_iff.1 hpiece
  exact String.toList_eq_nil_iff.1 (eq_nil_of_splitSlashes hsplit)

/-! ## Reading segments -/

def readParts : List String → List (PathPart String)
  | "" :: second :: rest => .root :: (second :: rest).filterMap segmentPart?
  | "." :: rest => .here :: rest.filterMap segmentPart?
  | segments => segments.filterMap segmentPart?

theorem parts_eq_readParts (p : Path) : p.parts = readParts p.segments := rfl

theorem isStep_of_segmentPart? {segment : String} {part : PathPart String}
    (hs : '/' ∉ segment.toList) (h : segmentPart? segment = some part) :
    part.IsStep := by
  unfold segmentPart? at h
  split at h
  · simp at h
  · rename_i h₁
    rw [not_or] at h₁
    split at h
    · cases h
      trivial
    · rename_i h₂
      cases h
      exact ⟨h₁.1, h₁.2, h₂, hs⟩

theorem segmentPart?_text {part : PathPart String} (h : part.IsStep) :
    segmentPart? part.text = some part := by
  cases part with
  | root => exact h.elim
  | here => exact h.elim
  | up => decide
  | name text =>
      obtain ⟨h₁, h₂, h₃, _⟩ := h
      simp [segmentPart?, PathPart.text, h₁, h₂, h₃]

private theorem filterMap_cons_append (a : String) (l m : List String) :
    (a :: (l ++ m)).filterMap segmentPart? =
      (a :: l).filterMap segmentPart? ++ m.filterMap segmentPart? := by
  rw [← List.cons_append, List.filterMap_append]

theorem readParts_plain {a : String} (h₁ : a ≠ "") (h₂ : a ≠ ".")
    (rest : List String) :
    readParts (a :: rest) = (a :: rest).filterMap segmentPart? := by
  unfold readParts
  split
  · simp_all
  · simp_all
  · rfl

theorem readParts_append {l m : List String} (hl : l ≠ []) (hm : m ≠ []) :
    readParts (l ++ m) = readParts (l ++ [""]) ++ m.filterMap segmentPart? := by
  have hblank : segmentPart? "" = none := by decide
  obtain ⟨a, l, rfl⟩ := List.exists_cons_of_ne_nil hl
  by_cases h₁ : a = ""
  · subst h₁
    cases l with
    | nil =>
        obtain ⟨b, m, rfl⟩ := List.exists_cons_of_ne_nil hm
        simp [readParts, hblank]
    | cons b l => simp [readParts, filterMap_cons_append, hblank]
  · by_cases h₂ : a = "."
    · subst h₂
      simp [readParts, hblank]
    · simp [readParts_plain h₁ h₂, filterMap_cons_append, hblank]

private theorem readParts_append_blank {l : List String} (hl : l ≠ [])
    (h : l ≠ [""]) :
    readParts (l ++ [""]) = readParts l := by
  have hblank : segmentPart? "" = none := by decide
  obtain ⟨a, l, rfl⟩ := List.exists_cons_of_ne_nil hl
  by_cases h₁ : a = ""
  · subst h₁
    cases l with
    | nil => exact absurd rfl h
    | cons b l => simp [readParts, filterMap_cons_append, hblank]
  · by_cases h₂ : a = "."
    · subst h₂
      simp [readParts, hblank]
    · simp [readParts_plain h₁ h₂, filterMap_cons_append, hblank]

/-! ## Parts that can be read -/

private theorem isStep_of_mem_filterMap {l : List String}
    (hl : ∀ s ∈ l, '/' ∉ s.toList) {part : PathPart String}
    (h : part ∈ l.filterMap segmentPart?) : part.IsStep := by
  obtain ⟨segment, hs, hp⟩ := List.mem_filterMap.1 h
  exact isStep_of_segmentPart? (hl segment hs) hp

theorem parts_readable (p : Path) : Readable p.parts := by
  have hslash : ∀ s ∈ p.segments, '/' ∉ s.toList :=
    fun s hs => slash_not_mem_segment hs
  rw [parts_eq_readParts]
  revert hslash
  generalize p.segments = l
  intro hslash
  unfold readParts
  split
  · rename_i second rest
    refine ⟨[.root], _, rfl, by simp, fun step hstep => ?_⟩
    exact isStep_of_mem_filterMap
      (fun s hs => hslash s (List.mem_cons_of_mem _ hs)) hstep
  · rename_i rest
    refine ⟨[.here], _, rfl, by simp, fun step hstep => ?_⟩
    exact isStep_of_mem_filterMap
      (fun s hs => hslash s (List.mem_cons_of_mem _ hs)) hstep
  · exact ⟨[], _, rfl, by simp,
      fun step hstep => isStep_of_mem_filterMap hslash hstep⟩

/-! ## Writing parts -/

theorem slash_not_mem_text {part : PathPart String} (h : part.IsStep) :
    '/' ∉ part.text.toList := by
  cases part with
  | root => exact h.elim
  | here => exact h.elim
  | up => decide
  | name text => exact h.2.2.2

theorem parts_step {part : PathPart String} (h : part.IsStep) :
    parts ⟨part.text⟩ = [part] := by
  have hsegment := segmentPart?_text h
  rw [parts_eq_readParts, segments_of_not_mem (slash_not_mem_text h)]
  rw [readParts_plain (fun h₁ => by simp [h₁, segmentPart?] at hsegment)
    (fun h₂ => by simp [h₂, segmentPart?] at hsegment)]
  simp [hsegment]

theorem isAbsolute_step {part : PathPart String} (h : part.IsStep) :
    isAbsolute ⟨part.text⟩ = false := by
  cases part with
  | root => exact h.elim
  | here => exact h.elim
  | up => rw [isAbsolute, parts_step h]; rfl
  | name text => rw [isAbsolute, parts_step h]; rfl

theorem parts_join {base p : Path} (hbase : base.text ≠ "")
    (h : p.isAbsolute = false) :
    (base.join p).parts = base.parts ++ p.segments.filterMap segmentPart? := by
  obtain ⟨text⟩ := base
  have hne : segments ⟨text⟩ ≠ [""] :=
    fun hblank => hbase (text_eq_empty_of_segments hblank)
  simp only [join, h, Bool.false_eq_true, if_false]
  split
  · rename_i hend
    rw [Bool.or_eq_true, beq_iff_eq] at hend
    rcases hend with hend | hend
    · exact absurd (by simpa using hend) hbase
    · obtain ⟨front, hfront⟩ := List.getLast?_eq_some_iff.1 hend
      obtain rfl : text = String.ofList front ++ "/" := by
        rw [← String.toList_inj]
        simp [hfront]
      have hsegments : segments ⟨String.ofList front ++ "/"⟩ =
          segments ⟨String.ofList front⟩ ++ [""] := by
        have hlast := segments_append (String.ofList front) ""
        rwa [String.append_empty] at hlast
      rw [parts_eq_readParts, parts_eq_readParts, hsegments, segments_append,
        readParts_append (segments_ne_nil _) (segments_ne_nil _)]
  · rw [parts_eq_readParts, parts_eq_readParts, segments_append,
      readParts_append (segments_ne_nil _) (segments_ne_nil _),
      readParts_append_blank (segments_ne_nil _) hne]

theorem parts_child (base : Path) {step : PathPart String} (h : step.IsStep) :
    (base.child step.text).parts = base.parts ++ [step] := by
  by_cases hbase : base.text = ""
  · obtain ⟨text⟩ := base
    obtain rfl : text = "" := hbase
    have hjoin : child ⟨""⟩ step.text = ⟨step.text⟩ := by
      simp [child, join, isAbsolute_step h]
    rw [hjoin, parts_step h]
    rfl
  · rw [child, parts_join hbase (isAbsolute_step h),
      segments_of_not_mem (slash_not_mem_text h)]
    simp [segmentPart?_text h]

private theorem parts_foldl_child {steps : List (PathPart String)}
    (h : ∀ step ∈ steps, step.IsStep) (base : Path) :
    (steps.foldl (fun p part => p.child part.text) base).parts =
      base.parts ++ steps := by
  induction steps generalizing base with
  | nil => simp
  | cons step steps ih =>
      rw [List.foldl_cons, ih (fun s hs => h s (List.mem_cons_of_mem _ hs)),
        parts_child base (h step List.mem_cons_self), List.append_assoc]
      rfl

theorem parts_ofParts {parts : List (PathPart String)} (h : Readable parts) :
    (ofParts parts).parts = parts := by
  obtain ⟨lead, steps, rfl, hlead, hsteps⟩ := h
  have hstart :
      (lead.foldl (fun p part => p.child part.text) (⟨""⟩ : Path)).parts =
        lead := by
    rcases hlead with rfl | rfl | rfl <;> decide
  rw [ofParts, List.foldl_append, parts_foldl_child hsteps, hstart]

/-! ## Normal paths -/

theorem parts_normalize (p : Path) : p.normalize.parts = normalParts p.parts :=
  parts_ofParts (normalParts_readable p.parts_readable)

def IsNormal (p : Path) : Prop :=
  ∃ q : Path, p = q.normalize

theorem isNormal_normalize (p : Path) : p.normalize.IsNormal :=
  ⟨p, rfl⟩

theorem isNormal_resolve (base p : Path) : (resolve base p).IsNormal := by
  unfold resolve
  split
  · exact isNormal_normalize p
  · exact isNormal_normalize (base.join p)

theorem IsNormal.eq_ofParts {p : Path} (h : p.IsNormal) :
    p = ofParts p.parts := by
  obtain ⟨q, rfl⟩ := h
  rw [parts_normalize]
  rfl

theorem IsNormal.eq_of_parts {p q : Path} (hp : p.IsNormal) (hq : q.IsNormal)
    (h : p.parts = q.parts) : p = q := by
  rw [hp.eq_ofParts, hq.eq_ofParts, h]

end Path

end ComponentBuild
