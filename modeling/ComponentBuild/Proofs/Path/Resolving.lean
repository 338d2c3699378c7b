import ComponentBuild.Proofs.Path.Parts
import Mathlib.Data.List.Induction

/-!
# Paths read in a directory

A relative path first leaves directories with `..` and then goes down by names.
Read in an absolute directory it takes away as many of the directory's names as
it leaves, as far as there are any, and puts its own names behind the rest.  An
absolute path takes away all of them.
-/

namespace ComponentBuild.Path

open PathPart

/-! ## Climbing and going down -/

def climb (p : Path) : Nat :=
  (normalParts p.parts).count .up

def descent (p : Path) : List (PathPart String) :=
  (normalParts p.parts).filter isName

/-- The names of the directory `dir` that stay when `p` is read in it. -/
def kept (dir p : Path) : List (PathPart String) :=
  if p.isAbsolute then [] else dir.descent.take (dir.descent.length - p.climb)

/-- The names of the directory `dir` that are taken away when `p` is read in it.
-/
def leaving (dir p : Path) : List (PathPart String) :=
  if p.isAbsolute then dir.descent
    else dir.descent.drop (dir.descent.length - p.climb)

private theorem kept_append_leaving (dir p : Path) :
    kept dir p ++ leaving dir p = dir.descent := by
  unfold kept leaving
  split
  · rfl
  · exact List.take_append_drop _ _

/-! ## Steps on a directory -/

section

variable {τ : Type} [NameText τ]

def Descends (names : List (PathPart τ)) : Prop :=
  ∀ part ∈ names, part.IsStep ∧ part.isName = true

variable [DecidableEq τ]

/-- From nothing, steps climb and go down; from a directory they do the same,
but climb no further than to the root. -/
theorem foldl_normalStep_root {steps : List (PathPart τ)}
    (hsteps : ∀ step ∈ steps, step.IsStep) {dirNames : List (PathPart τ)}
    (hdir : ∀ part ∈ dirNames, part.isName = true) :
    ∃ k names, (∀ part ∈ names, part.isName = true) ∧
      steps.foldl normalStep [] = names ++ List.replicate k .up ∧
      steps.foldl normalStep (dirNames ++ [.root]) =
        names ++ dirNames.drop k ++ [.root] := by
  -- The last step decides what becomes of the stack, so the list is taken apart
  -- from behind.
  induction steps using List.reverseRecOn with
  | nil => exact ⟨0, [], by simp⟩
  | append_singleton steps step ih =>
      have hinit : ∀ s ∈ steps, s.IsStep :=
        fun s hs => hsteps s (List.mem_append_left _ hs)
      have hlast : step.IsStep :=
        hsteps step (List.mem_append_right _ List.mem_cons_self)
      obtain ⟨k, names, hnames, hfree, hrooted⟩ := ih hinit
      rw [List.foldl_append, List.foldl_append, hfree, hrooted]
      cases step with
      | root => exact hlast.elim
      | here => exact hlast.elim
      | name text =>
          refine ⟨k, .name text :: names, List.forall_mem_cons.2 ⟨rfl, hnames⟩,
            ?_, ?_⟩
          · exact normalStep_name _ _
          · exact normalStep_name _ _
      | up =>
          cases names with
          | cons part names =>
              obtain ⟨hpart, hbelow⟩ := List.forall_mem_cons.1 hnames
              cases part with
              | name text => exact ⟨k, names, hbelow, rfl, rfl⟩
              | root | here | up => cases hpart
          | nil =>
              refine ⟨k + 1, [], by simp, normalStep_up_climb k, ?_⟩
              have hrest : ∀ part ∈ dirNames.drop k, part.isName = true :=
                fun part hmem => hdir part (List.mem_of_mem_drop hmem)
              rw [← List.tail_drop]
              cases hdrop : dirNames.drop k with
              | nil => rfl
              | cons part rest =>
                  have hpart : part.isName = true := hrest part (by simp [hdrop])
                  cases part with
                  | name text => rfl
                  | root | here | up => cases hpart

omit [DecidableEq τ] [NameText τ] in
theorem filter_isName_reverse {names above : List (PathPart τ)}
    (hnames : ∀ part ∈ names, part.isName = true)
    (habove : ∀ part ∈ above, part.isName = false) :
    (names ++ above).reverse.filter isName = names.reverse := by
  have hnone : above.reverse.filter isName = [] :=
    List.filter_eq_nil_iff.2 fun part hmem => by
      simp [habove part (List.mem_reverse.1 hmem)]
  have hall : names.reverse.filter isName = names.reverse :=
    List.filter_eq_self.2 fun part hmem => hnames part (List.mem_reverse.1 hmem)
  rw [List.reverse_append, List.filter_append, hnone, hall, List.nil_append]

theorem exists_names {parts : List (PathPart τ)} (hreadable : Readable parts)
    (habsolute : parts.head? = some .root) :
    ∃ names, parts.foldl normalStep [] = names.reverse ++ [.root] ∧
      Descends names := by
  have hnormal := (normalStack_of_readable hreadable).isStep_or_root
  obtain ⟨lead, steps, rfl, hlead, hsteps⟩ := hreadable
  have hroot : lead = [.root] := by
    rcases hlead with rfl | rfl | rfl
    · exact (hsteps .root (List.mem_of_mem_head? habsolute)).elim
    · rfl
    · cases habsolute
  obtain ⟨k, names, hnames, -, hrooted⟩ :=
    foldl_normalStep_root hsteps
      (fun part (h : part ∈ []) => absurd h List.not_mem_nil)
  have hstack : (lead ++ steps).foldl normalStep [] = names ++ [.root] := by
    rw [hroot, List.foldl_append]
    simpa [normalStep] using hrooted
  rw [hstack] at hnormal ⊢
  refine ⟨names.reverse, by rw [List.reverse_reverse], fun part hpart => ?_⟩
  rw [List.mem_reverse] at hpart
  refine ⟨?_, hnames part hpart⟩
  rcases hnormal with hall | ⟨names', heq, hall⟩
  · exact hall part (List.mem_append_left _ hpart)
  · rw [List.append_cancel_right heq] at hpart
    exact hall part hpart

end

theorem climb_descent_of_stack {p : Path} {k : Nat}
    {names : List (PathPart String)}
    (hstack : p.parts.foldl normalStep [] = names ++ List.replicate k .up)
    (hnames : ∀ part ∈ names, part.isName = true) :
    p.climb = k ∧ p.descent = names.reverse := by
  have hnone : names.count .up = 0 :=
    List.count_eq_zero.2 fun hmem => absurd (hnames _ hmem) (by decide)
  constructor
  · simp [climb, normalParts, hstack, List.count_append, hnone]
  · rw [descent, normalParts, hstack]
    exact filter_isName_reverse hnames fun part hmem => by
      rw [List.eq_of_mem_replicate hmem]; rfl

/-! ## Reading a path as a lead and steps -/

theorem isStep_of_mem_segments {p : Path} {step : PathPart String}
    (h : step ∈ p.segments.filterMap segmentPart?) : step.IsStep := by
  obtain ⟨segment, hsegment, hstep⟩ := List.mem_filterMap.1 h
  exact isStep_of_segmentPart? (slash_not_mem_segment hsegment) hstep

private theorem exists_lead (p : Path) :
    ∃ lead, p.parts = lead ++ p.segments.filterMap segmentPart? ∧
      (lead = [] ∨ lead = [.root] ∨ lead = [.here]) := by
  rw [parts_eq_readParts]
  generalize p.segments = segments
  unfold readParts
  split
  · exact ⟨[.root], rfl, by simp⟩
  · exact ⟨[.here], rfl, by simp⟩
  · exact ⟨[], rfl, by simp⟩

theorem parts_of_not_isAbsolute {p : Path} (h : p.isAbsolute = false) :
    p.parts = p.segments.filterMap segmentPart? ∨
      p.parts = .here :: p.segments.filterMap segmentPart? := by
  obtain ⟨lead, hparts, rfl | rfl | rfl⟩ := p.exists_lead
  · exact .inl hparts
  · rw [isAbsolute, hparts] at h
    cases h
  · exact .inr hparts

theorem foldl_relative {p : Path} (h : p.isAbsolute = false) :
    p.parts.foldl normalStep [] =
      (p.segments.filterMap segmentPart?).foldl normalStep [] := by
  rcases parts_of_not_isAbsolute h with hparts | hparts <;> rw [hparts]
  rfl

/-! ## Normal absolute paths -/

private theorem stack_of_isAbsolute {p : Path} (h : p.isAbsolute = true) :
    p.parts.foldl normalStep [] = p.descent.reverse ++ [.root] ∧
      Descends p.descent := by
  obtain ⟨names, hstack, hnames⟩ := exists_names p.parts_readable (beq_iff_eq.1 h)
  have hdescent : p.descent = names := by
    rw [descent, normalParts, hstack, filter_isName_reverse, List.reverse_reverse]
    · exact fun part hmem => (hnames part (List.mem_reverse.1 hmem)).2
    · simp [isName]
  rw [hdescent]
  exact ⟨hstack, hnames⟩

theorem parts_normalize_of_isAbsolute {p : Path} (h : p.isAbsolute = true) :
    p.normalize.parts = .root :: p.descent := by
  rw [parts_normalize, normalParts, (stack_of_isAbsolute h).1]
  simp

/-! ## Reading in a directory -/

theorem normalize_join (dir p : Path) :
    (dir.join p).normalize = resolve dir p := by
  unfold resolve
  split
  · rename_i h
    rw [join, if_pos h]
  · rfl

private theorem parts_resolve {dir : Path} (hdir : dir.isAbsolute = true)
    (p : Path) :
    (resolve dir p).parts = .root :: (kept dir p ++ p.descent) := by
  unfold resolve kept
  split
  · rename_i h
    exact parts_normalize_of_isAbsolute h
  · rename_i h
    rw [Bool.not_eq_true] at h
    obtain ⟨hstack, hnames⟩ := stack_of_isAbsolute hdir
    have hreverse : ∀ part ∈ dir.descent.reverse, part.isName = true :=
      fun part hmem => (hnames part (List.mem_reverse.1 hmem)).2
    obtain ⟨k, names, hbelow, hfree, hrooted⟩ :=
      foldl_normalStep_root (fun step => isStep_of_mem_segments (p := p)) hreverse
    rw [← foldl_relative h] at hfree
    obtain ⟨hclimb, hdescent⟩ := climb_descent_of_stack hfree hbelow
    have htext : dir.text ≠ "" := by
      intro hempty
      have hblank : dir = ⟨""⟩ := congrArg Path.mk hempty
      rw [hblank] at hdir
      exact absurd hdir (by decide)
    rw [parts_normalize, parts_join htext h, normalParts, List.foldl_append,
      hstack, hrooted, hclimb, hdescent, List.drop_reverse]
    simp

/-! ## Strictly below a directory -/

def IsBelow (p dir : Path) : Prop :=
  dir.parts <+: p.parts ∧ dir.parts ≠ p.parts

instance (p dir : Path) : Decidable (p.IsBelow dir) :=
  inferInstanceAs (Decidable (_ ∧ _))

/-- Read in `dir`, the path enters again the directories that it leaves, and
goes on. -/
def Enters (dir p : Path) : Prop :=
  leaving dir p <+: p.descent ∧ leaving dir p ≠ p.descent

instance (dir p : Path) : Decidable (Enters dir p) :=
  inferInstanceAs (Decidable (_ ∧ _))

def onward (dir p : Path) : List (PathPart String) :=
  p.descent.drop (leaving dir p).length

theorem isBelow_resolve_iff {dir p : Path} (hdir : dir.isAbsolute = true) :
    (resolve dir p).IsBelow dir.normalize ↔ Enters dir p := by
  have hnames := kept_append_leaving dir p
  rw [IsBelow, Enters, parts_resolve hdir, parts_normalize_of_isAbsolute hdir,
    ← hnames, List.cons_prefix_cons, List.prefix_append_right_inj]
  simp

theorem Enters.parts_resolve {dir p : Path} (h : Enters dir p)
    (hdir : dir.isAbsolute = true) :
    (resolve dir p).parts = dir.normalize.parts ++ onward dir p := by
  obtain ⟨rest, hrest⟩ := h.1
  have honward : onward dir p = rest := by rw [onward, ← hrest, List.drop_left]
  rw [Path.parts_resolve hdir, parts_normalize_of_isAbsolute hdir,
    honward, ← hrest,
    ← List.append_assoc, kept_append_leaving, List.cons_append]

theorem enters_name {dir : Path} {name : String} (h : IsName name) :
    Enters dir ⟨name⟩ ∧ onward dir ⟨name⟩ = [.name name] := by
  have hstep : (PathPart.name name).IsStep := h
  have hrelative := isAbsolute_step hstep
  have hparts := parts_step hstep
  rw [PathPart.text] at hrelative hparts
  have hnormal : normalParts (Path.mk name).parts = [.name name] := by
    rw [hparts]
    rfl
  have hclimb : climb ⟨name⟩ = 0 := by
    rw [climb, hnormal]
    rfl
  have hdescent : descent ⟨name⟩ = [.name name] := by
    rw [descent, hnormal]
    rfl
  have hleaving : leaving dir ⟨name⟩ = [] := by simp [leaving, hrelative, hclimb]
  rw [Enters, onward, hleaving, hdescent]
  exact ⟨⟨List.nil_prefix, by simp⟩, rfl⟩

end ComponentBuild.Path
