import ComponentBuild.BuildError
import ComponentBuild.Scheduler.Debouncer
import ComponentBuild.Scheduler.Guard

/-!
The worker that owns the timer.

It takes one command at a time and fires when the deadline has passed.  A fire
that finds the guard idle hands the noted paths to the trigger; a trigger that
fails or breaks down is reported once, and the worker goes on.
-/

namespace ComponentBuild

inductive TriggerEnd where
  | done
  | failed (e : BuildError)
  | brokeDown (message : Option String)
  /-- It ended well, and terminated the guard while it ran. -/
  | terminated
  deriving DecidableEq, Repr

def TriggerEnd.fault? : TriggerEnd → Option BuildError
  | failed e => some e
  | brokeDown message => some (.ofBreakdown message)
  | done | terminated => none

structure TimerWorker where
  timer : Debouncer := {}
  guard : PassGuard := .idle
  clock : Nat := 0
  calls : List (List Path) := []
  faults : List BuildError := []
  deriving DecidableEq, Repr

namespace TimerWorker

def take (w : TimerWorker) (command : TimerCommand) : TimerWorker :=
  if w.timer.stopped then w else { w with timer := w.timer.take w.clock command }

/-- Fires.  The trigger holds the guard's token while it runs. -/
def fire (trigger : List Path → TriggerEnd) (w : TimerWorker) : TimerWorker :=
  match w.timer.fire (w.guard = .idle) with
  | (none, timer) => { w with timer }
  | (some changed, timer) =>
      let ending := trigger changed
      let during := w.guard.tryBegin.2
      let after := if ending = .terminated then during.terminate else during
      { w with
        timer
        guard := after.release
        calls := w.calls ++ [changed]
        faults := w.faults ++ ending.fault?.toList }

def wait (trigger : List Path → TriggerEnd) (time : Nat) (w : TimerWorker) :
    TimerWorker :=
  let w := { w with clock := w.clock + time }
  if w.timer.isDue w.clock then w.fire trigger else w

end TimerWorker

end ComponentBuild
