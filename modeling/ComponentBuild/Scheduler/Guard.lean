/-!
The guard that lets one pass run at a time.

A pass begins by taking the token of an idle guard and ends by giving it back.
A terminated guard stays terminated and gives no token again.
-/

namespace ComponentBuild

inductive PassGuard where
  | idle
  | building
  | terminal
  deriving DecidableEq, Repr

namespace PassGuard

def label : PassGuard → String
  | idle => "Idle"
  | building => "Building"
  | terminal => "Terminal"

def tryBegin : PassGuard → Bool × PassGuard
  | idle => (true, building)
  | g => (false, g)

def release : PassGuard → PassGuard
  | building => idle
  | g => g

def terminate : PassGuard → PassGuard
  | _ => terminal

/-! ## Runs with tokens -/

structure Held where
  guard : PassGuard := idle
  tokens : Nat := 0
  deriving DecidableEq, Repr

inductive Action where
  | tryBegin
  | dropToken
  | terminate
  deriving DecidableEq, Repr

def Held.step (h : Held) : Action → Held
  | .tryBegin =>
      let (got, guard) := h.guard.tryBegin
      ⟨guard, if got then h.tokens + 1 else h.tokens⟩
  | .dropToken => if h.tokens = 0 then h else ⟨h.guard.release, h.tokens - 1⟩
  | .terminate => ⟨h.guard.terminate, h.tokens⟩

def Held.run (h : Held) (actions : List Action) : Held :=
  actions.foldl step h

end PassGuard

end ComponentBuild
