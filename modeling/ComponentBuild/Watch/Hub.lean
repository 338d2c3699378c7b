import ComponentBuild.Path.Basic

/-!
A hub that reports changes by hand.

Notifiers register for a path and hear of every change at or below it, in the
order in which they registered.  A notifier has at most one registration.
-/

namespace ComponentBuild

abbrev NotifierId := Nat

structure Registration where
  notifier : NotifierId
  path : Path
  deriving DecidableEq, Repr

structure NotifierHub where
  registrations : List Registration := []
  /-- How many notifiers were made; the next one has the number after it. -/
  made : Nat := 0
  deriving DecidableEq, Repr

namespace NotifierHub

def empty : NotifierHub := {}

def newNotifier (h : NotifierHub) : NotifierId × NotifierHub :=
  (h.made + 1, { h with made := h.made + 1 })

def close (h : NotifierHub) (notifier : NotifierId) : NotifierHub :=
  { h with registrations := h.registrations.filter (·.notifier != notifier) }

def isClosed (h : NotifierHub) (notifier : NotifierId) : Bool :=
  !h.registrations.any (·.notifier == notifier)

def observe (h : NotifierHub) (notifier : NotifierId) (path : Path) :
    NotifierHub :=
  let h := h.close notifier
  { h with registrations := h.registrations ++ [⟨notifier, path⟩] }

def listeners (h : NotifierHub) (path : Path) : List NotifierId :=
  (h.registrations.filter fun r => path.isWithin r.path).map (·.notifier)

/-- Reports a change.  The listeners are gathered first and then called one
after another, whatever the calls do to the hub.  The result is how many were
called. -/
def fire {σ : Type} (call : NotifierId → Path → NotifierHub × σ → NotifierHub × σ)
    (h : NotifierHub) (s : σ) (path : Path) : Nat × NotifierHub × σ :=
  let ids := h.listeners path
  (ids.length, ids.foldl (fun state id => call id path state) (h, s))

def observed (h : NotifierHub) : List Path :=
  Path.sorted (h.registrations.map (·.path))

end NotifierHub

end ComponentBuild
