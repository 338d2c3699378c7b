import ComponentBuild.SortedMap.Basic
import ComponentBuild.Text.Utf8

/-!
The parts of a path.

A path is the root, a leading `.` or nothing, and steps behind it, each of which
is `..` or a name. Names are texts, or bytes where they need not be UTF-8.  A
path is normalized by its parts alone, without looking at any storage: `.` is
dropped and `..` removes the name before it.  Above a root `..` has no effect,
and at the front of a relative path it stays.
-/

namespace ComponentBuild

inductive PathPart (τ : Type) where
  | root
  | here
  | up
  | name (text : τ)
  deriving DecidableEq, Repr, Inhabited

class NameText (τ : Type) where
  IsName : τ → Prop

namespace PathPart

def text : PathPart String → String
  | root => "/"
  | here => "."
  | up => ".."
  | name text => text

def key : PathPart String → Nat × String
  | root => (0, "")
  | here => (1, "")
  | up => (2, "")
  | name text => (3, text)

instance : KeyOrder (PathPart String) := KeyOrder.byKey key

def IsName (text : String) : Prop :=
  text ≠ "" ∧ text ≠ "." ∧ text ≠ ".." ∧ '/' ∉ text.toList

instance : NameText String where
  IsName := IsName

instance : NameText Text.Bytes where
  IsName bytes :=
    bytes ≠ [] ∧ bytes ≠ [0x2E] ∧ bytes ≠ [0x2E, 0x2E] ∧ 0x2F ∉ bytes

variable {τ σ : Type}

def map (f : τ → σ) : PathPart τ → PathPart σ
  | root => root
  | here => here
  | up => up
  | name text => name (f text)

def isName : PathPart τ → Bool
  | name _ => true
  | _ => false

def IsStep [NameText τ] : PathPart τ → Prop
  | up => True
  | name text => NameText.IsName text
  | _ => False

end PathPart

namespace Path

open PathPart

/-! ## Cutting a text at its slashes -/

section

variable {α : Type} [DecidableEq α] {slash : α}

/-- The pieces of a text between its slashes; there is always at least one. -/
def splitSlashes (slash : α) : List α → List (List α)
  | [] => [[]]
  | c :: rest =>
      if c = slash then
        [] :: splitSlashes slash rest
      else
        match splitSlashes slash rest with
        | [] => [[c]]
        | piece :: pieces => (c :: piece) :: pieces

theorem splitSlashes_ne_nil (text : List α) : splitSlashes slash text ≠ [] := by
  cases text with
  | nil => simp [splitSlashes]
  | cons c rest =>
      simp only [splitSlashes]
      split
      · simp
      · split <;> simp

theorem slash_not_mem_piece {u piece : List α}
    (h : piece ∈ splitSlashes slash u) :
    slash ∉ piece := by
  induction u generalizing piece with
  | nil => simp_all [splitSlashes]
  | cons c u ih =>
      simp only [splitSlashes] at h
      split at h
      · rcases List.mem_cons.1 h with rfl | h
        · simp
        · exact ih h
      · rename_i hc
        cases hu : splitSlashes slash u with
        | nil => exact absurd hu (splitSlashes_ne_nil u)
        | cons first pieces =>
            rw [hu] at h ih
            rcases List.mem_cons.1 h with rfl | h
            · simp [Ne.symm hc, ih (List.mem_cons_self)]
            · exact ih (List.mem_cons_of_mem _ h)

end

variable {τ : Type}

section

variable [NameText τ]

/-- The root, a leading `.` or nothing, and steps behind it. -/
def Readable (parts : List (PathPart τ)) : Prop :=
  ∃ lead steps, parts = lead ++ steps ∧
  (lead = [] ∨ lead = [.root] ∨ lead = [.here]) ∧
    ∀ step ∈ steps, step.IsStep

/-- The stacks that normalization builds, the last part first. -/
inductive NormalStack : List (PathPart τ) → Prop
  | climb (n : Nat) : NormalStack (List.replicate n .up)
  | root : NormalStack [.root]
  | name {text : τ} {done : List (PathPart τ)} (valid : NameText.IsName text)
      (below : NormalStack done) : NormalStack (.name text :: done)

theorem NormalStack.isStep_or_root {done : List (PathPart τ)}
    (h : NormalStack done) :
    (∀ part ∈ done, part.IsStep) ∨
      ∃ names, done = names ++ [.root] ∧ ∀ part ∈ names, part.IsStep := by
  induction h with
  | climb n =>
      refine .inl fun part hp => ?_
      rw [List.eq_of_mem_replicate hp]
      trivial
  | root => exact .inr ⟨[], rfl, by simp⟩
  | name valid below ih =>
      rcases ih with ih | ⟨names, rfl, ih⟩
      · exact .inl (List.forall_mem_cons.2 ⟨valid, ih⟩)
      · exact .inr ⟨_ :: names, rfl, List.forall_mem_cons.2 ⟨valid, ih⟩⟩

theorem NormalStack.readable {done : List (PathPart τ)} (h : NormalStack done) :
    Readable done.reverse := by
  rcases h.isStep_or_root with hsteps | ⟨names, rfl, hnames⟩
  · exact ⟨[], done.reverse, rfl, by simp,
      fun s hs => hsteps s (List.mem_reverse.1 hs)⟩
  · refine ⟨[.root], names.reverse, by simp, by simp, fun s hs => ?_⟩
    exact hnames s (List.mem_reverse.1 hs)

end

/-! ## Normalization -/

variable [DecidableEq τ]

/-- One step of normalization, on the normal parts so far with the last one
first. -/
def normalStep (done : List (PathPart τ)) (part : PathPart τ) :
    List (PathPart τ) :=
  match part, done with
  | .here, _ => done
  | .up, .name _ :: rest => rest
  | .up, _ => if done.getLast? = some .root then done else .up :: done
  | part, _ => part :: done

def normalParts (parts : List (PathPart τ)) : List (PathPart τ) :=
  (parts.foldl normalStep []).reverse

theorem normalStep_name (done : List (PathPart τ)) (text : τ) :
    normalStep done (.name text) = .name text :: done := by
  cases done <;> rfl

theorem normalStep_up_climb (n : Nat) :
    normalStep (List.replicate n (.up : PathPart τ)) .up =
      List.replicate (n + 1) .up := by
  cases n with
  | zero => rfl
  | succ n =>
      have hlast :
          (List.replicate (n + 1) (PathPart.up : PathPart τ)).getLast? ≠
            some .root := by
        simp [List.getLast?_replicate]
      rw [List.replicate_succ] at hlast
      simp only [List.replicate_succ, normalStep, if_neg hlast]

variable [NameText τ]

theorem NormalStack.step {done : List (PathPart τ)} (h : NormalStack done)
    {part : PathPart τ} (hp : part.IsStep) :
    NormalStack (normalStep done part) := by
  cases part with
  | root => exact hp.elim
  | here => exact hp.elim
  | name text =>
      rw [normalStep_name]
      exact .name hp h
  | up =>
      cases h with
      | climb n =>
          rw [normalStep_up_climb]
          exact .climb (n + 1)
      | root => exact .root
      | name valid below => exact below

theorem NormalStack.foldl {steps done : List (PathPart τ)}
    (hs : ∀ step ∈ steps, step.IsStep) (h : NormalStack done) :
    NormalStack (steps.foldl normalStep done) := by
  induction steps generalizing done with
  | nil => exact h
  | cons step steps ih =>
      exact ih (fun s hm => hs s (List.mem_cons_of_mem _ hm))
        (h.step (hs step List.mem_cons_self))

theorem normalStack_of_readable {parts : List (PathPart τ)} (h : Readable parts) :
    NormalStack (parts.foldl normalStep []) := by
  obtain ⟨lead, steps, rfl, hlead, hsteps⟩ := h
  rw [List.foldl_append]
  refine NormalStack.foldl hsteps ?_
  rcases hlead with rfl | rfl | rfl
  · exact .climb 0
  · exact .root
  · exact .climb 0

theorem normalParts_readable {parts : List (PathPart τ)} (h : Readable parts) :
    Readable (normalParts parts) :=
  (normalStack_of_readable h).readable

private theorem normalParts_cases {parts : List (PathPart τ)}
    (h : Readable parts) :
    (∀ part ∈ normalParts parts, part.IsStep) ∨
      ∃ names, normalParts parts = .root :: names ∧ ∀ part ∈ names,
      part.IsStep := by
  rcases (normalStack_of_readable h).isStep_or_root with hsteps |
    ⟨names, hstack, hnames⟩
  · exact .inl fun part hpart => hsteps part (List.mem_reverse.1 hpart)
  · refine .inr ⟨names.reverse, by simp [normalParts, hstack],
      fun part hpart => ?_⟩
    exact hnames part (List.mem_reverse.1 hpart)

/-! ## Ways -/

def dropCommon {α : Type} [DecidableEq α] : List α → List α → List α × List α
  | a :: as, b :: bs => if a = b then dropCommon as bs else (a :: as, b :: bs)
  | as, bs => (as, bs)

theorem exists_common {α : Type} [DecidableEq α] (as bs : List α) :
    ∃ common, as = common ++ (dropCommon as bs).1 ∧
      bs = common ++ (dropCommon as bs).2 := by
  fun_induction dropCommon as bs with
  | case1 as b bs ih =>
      obtain ⟨common, has, hbs⟩ := ih
      exact ⟨b :: common, congrArg (b :: ·) has, congrArg (b :: ·) hbs⟩
  | case2 => exact ⟨[], rfl, rfl⟩
  | case3 => exact ⟨[], rfl, rfl⟩

/-- The steps up to what two normal paths share, and from there on to the second
one.  From a relative path a path from the root is its own way. -/
def relativeParts (source target : List (PathPart τ)) : List (PathPart τ) :=
  match dropCommon source target with
  | (_, .root :: below) => .root :: below
  | (above, below) => List.replicate above.length .up ++ below

theorem normalParts_rest {parts common below : List (PathPart τ)}
    (h : Readable parts) (hbelow : normalParts parts = common ++ below) :
    (∀ part ∈ below, part.IsStep) ∨
      ∃ names, below = .root :: names ∧ ∀ part ∈ names, part.IsStep := by
  rcases normalParts_cases h with hsteps | ⟨names, hparts, hnames⟩
  · exact .inl fun part hpart => hsteps part (by simp [hbelow, hpart])
  · rw [hparts] at hbelow
    cases common with
    | nil => exact .inr ⟨names, hbelow.symm, hnames⟩
    | cons first common =>
        obtain ⟨-, hrest⟩ := List.cons_eq_cons.1 hbelow
        exact .inl fun part hpart => hnames part (by simp [hrest, hpart])

theorem readable_relativeParts (source : List (PathPart τ))
    {target : List (PathPart τ)} (h : Readable target) :
    Readable (relativeParts source (normalParts target)) := by
  obtain ⟨common, -, hbelow⟩ := exists_common source (normalParts target)
  have hrest := normalParts_rest h hbelow
  unfold relativeParts
  split
  · rename_i names hdrop
    rw [hdrop] at hrest
    rcases hrest with hsteps | ⟨_, heq, hnames⟩
    · exact (hsteps .root List.mem_cons_self).elim
    · obtain ⟨-, rfl⟩ := List.cons_eq_cons.1 heq
      exact ⟨[.root], names, rfl, by simp, hnames⟩
  · rename_i above below hroot hdrop
    rw [hdrop] at hrest
    rcases hrest with hsteps | ⟨names, heq, -⟩
    · refine ⟨[], _, rfl, .inl rfl, fun step hstep => ?_⟩
      rcases List.mem_append.1 hstep with hstep | hstep
      · rw [List.eq_of_mem_replicate hstep]
        trivial
      · exact hsteps step hstep
    · exact absurd heq (hroot names)

end Path

end ComponentBuild
