import ComponentBuild.Scheduler.Guard

/-!
# One token at a time

Whoever uses the guard and in whatever order, at most one token is out, and
until the guard is terminated its state tells whether one is.  A token that is
given back does not say which pass it belonged to, so this rests on what ties
the state to the tokens, and every action keeps that.
-/

namespace ComponentBuild.PassGuard

/-- The situations that the users of a guard can bring it into; `ended` tells
whether one of them terminated it. -/
inductive Tied : Held → (ended : Bool) → Prop
  | idle : Tied ⟨.idle, 0⟩ false
  | building : Tied ⟨.building, 1⟩ false
  /-- The token of a pass that was on may still be out. -/
  | terminal {tokens : Nat} (h : tokens ≤ 1) : Tied ⟨.terminal, tokens⟩ true

theorem Tied.step {h : Held} {ended : Bool} (ht : Tied h ended)
    (action : Action) :
    Tied (h.step action) (ended || action = .terminate) := by
  cases ht with
  | idle =>
      cases action with
      | tryBegin => exact .building
      | dropToken => exact .idle
      | terminate => exact .terminal (by decide)
  | building =>
      cases action with
      | tryBegin => exact .building
      | dropToken => exact .idle
      | terminate => exact .terminal (by decide)
  | terminal htokens =>
      rw [Bool.true_or]
      cases action with
      | tryBegin => exact .terminal htokens
      | dropToken =>
          simp only [Held.step]
          split
          · exact .terminal htokens
          · exact .terminal (by omega)
      | terminate => exact .terminal htokens

theorem Tied.run {h : Held} {ended : Bool} (ht : Tied h ended)
    (actions : List Action) :
    Tied (h.run actions) (ended || decide (.terminate ∈ actions)) := by
  induction actions generalizing h ended with
  | nil => simpa [Held.run] using ht
  | cons action actions ih =>
      have hrest := ih (ht.step action)
      simpa [Held.run, Bool.or_assoc, eq_comm] using hrest

/-- However a guard is used, at most one token is out at any time; the state
tells whether one is until the guard is terminated, and from then on stays
terminal; a pass gets a token exactly from an idle guard. -/
theorem at_most_one_token (actions : List Action) :
    let h := Held.run {} actions
    h.tokens ≤ 1 ∧
      (h.guard = .building ↔ h.tokens = 1 ∧ .terminate ∉ actions) ∧
      (h.guard = .idle ↔ h.tokens = 0 ∧ .terminate ∉ actions) ∧
      (h.guard = .terminal ↔ .terminate ∈ actions) ∧
      (h.guard.tryBegin.1 = true ↔ h.guard = .idle) ∧
      ((h.step .tryBegin).tokens = h.tokens + 1 ↔ h.guard = .idle) := by
  intro h
  have ht : Tied h (decide (.terminate ∈ actions)) := Tied.idle.run actions
  by_cases hended : .terminate ∈ actions
  · obtain ⟨guard, tokens⟩ := h
    rw [decide_eq_true hended] at ht
    cases ht with
    | terminal htokens => simp [hended, htokens, tryBegin, Held.step]
  · rw [decide_eq_false hended] at ht
    generalize h = k at ht
    cases ht <;> simp [hended, tryBegin, Held.step]

end ComponentBuild.PassGuard
