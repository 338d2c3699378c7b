import ComponentBuild.BuildError

/-!
A slot for one result.

Any number of senders share the slot.  The first result that a sender completes
is kept for the receiver and all later ones are rejected.  The receiver takes at
most one result; when nobody is left to complete, that result is the error
`aborted`.
-/

namespace ComponentBuild

structure OneShot (α : Type) where
  waiting : Option (Except BuildError α) := none
  completed : Bool := false
  senders : Nat := 1
  taken : Bool := false

namespace OneShot

variable {α : Type}

def complete (c : OneShot α) (pass : Nat) (result : Except BuildError α) :
    Except BuildError Unit × OneShot α :=
  if c.completed then (.error (.lateResult pass), c)
  else (.ok (), { c with waiting := some result, completed := true })

def addSender (c : OneShot α) : OneShot α :=
  { c with senders := c.senders + 1 }

def dropSender (c : OneShot α) : OneShot α :=
  { c with senders := c.senders - 1 }

def isClosed (c : OneShot α) : Bool :=
  c.completed || c.senders == 0

/-- Takes the result if it is there; `none` when there is none yet or it was
taken before. -/
def poll (c : OneShot α) : Option (Except BuildError α) × OneShot α :=
  if c.taken then (none, c)
  else
    match c.waiting with
    | some result => (some result, { c with waiting := none, taken := true })
    | none =>
        if c.isClosed then (some (.error .aborted), { c with taken := true })
          else (none, c)

/-- The result that a receiver which waits to the end obtains; `none` when it
would wait on. -/
def final? (c : OneShot α) : Option (Except BuildError α) :=
  match c.waiting with
  | some result => some result
  | none => if c.isClosed then some (.error .aborted) else none

end OneShot

end ComponentBuild
