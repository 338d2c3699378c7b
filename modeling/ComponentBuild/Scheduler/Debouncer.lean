import ComponentBuild.Path.Basic

/-!
The timer that gathers changes.

Commands arrive in a queue: arm the timer with a delay, note a changed path,
cancel, shut down.  A deadline that has passed fires before the next command is
looked at.  A fire that finds the guard busy is dropped and keeps the noted
paths; otherwise it hands them all out.
-/

namespace ComponentBuild

inductive TimerCommand where
  /-- Sets the deadline, in place of any earlier one. -/
  | arm (delay : Nat)
  | note (path : Path)
  | cancel
  | shutdown
  deriving DecidableEq, Repr

structure Debouncer where
  deadline : Option Nat := none
  /-- The paths noted since the last fire that was not dropped. -/
  changed : SortedSet Path := ∅
  stopped : Bool := false
  deriving DecidableEq, Repr

namespace Debouncer

def isDue (d : Debouncer) (now : Nat) : Bool :=
  match d.deadline with
  | some at' => at' ≤ now && !d.stopped
  | none => false

def take (d : Debouncer) (now : Nat) : TimerCommand → Debouncer
  | .arm delay => { d with deadline := some (now + delay) }
  | .note path => { d with changed := d.changed.add path }
  | .cancel => { d with deadline := none }
  | .shutdown => { d with stopped := true }

def fire (d : Debouncer) (guardIdle : Bool) : Option (List Path) × Debouncer :=
  if guardIdle then (some d.changed.toList,
    { d with deadline := none, changed := ∅ })
  else (none, { d with deadline := none })

end Debouncer

end ComponentBuild
