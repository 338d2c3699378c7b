import ComponentBuild.Proofs.Scheduler.Queue
import ComponentBuild.Scheduler.Worker

/-!
# Noted paths are neither lost nor handed out twice

A noted path waits with the worker until a call of the trigger gets it.
Whatever commands come, whenever the timer fires and whatever the guard does,
the noted paths are those that were handed out and those that wait; and a call
gets exactly those that were noted since the call before it.
-/

namespace ComponentBuild.TimerWorker

open KeyOrder SortedMap

inductive Move where
  | take (command : TimerCommand)
  | pass (time : Nat)
  /-- The worker looks at the deadline, and fires if it has passed. -/
  | fire (trigger : List Path → TriggerEnd)
  /-- Somebody else brings the guard into a state. -/
  | turn (guard : PassGuard)

def perform (w : TimerWorker) : Move → TimerWorker
  | .take command => w.take command
  | .pass time => { w with clock := w.clock + time }
  | .fire trigger => if w.timer.isDue w.clock then w.fire trigger else w
  | .turn guard => { w with guard }

/-- The path that a move notes.  A worker that was shut down takes no commands. -/
def noted? (w : TimerWorker) : Move → Option Path
  | .take (.note path) => if w.timer.stopped then none else some path
  | _ => none

def calling (w : TimerWorker) : Move → Bool
  | .fire _ => w.timer.isDue w.clock && w.guard = .idle
  | _ => false

/-! ## One move -/

variable {w : TimerWorker} {move : Move}

private theorem calls_of_calling (h : w.calling move = true) :
    (w.perform move).calls = w.calls ++ [w.timer.changed.toList] ∧
      (w.perform move).timer.changed = ∅ := by
  cases move with
  | take | pass | turn => cases h
  | fire trigger =>
      obtain ⟨hdue, hidle⟩ : w.timer.isDue w.clock = true ∧ w.guard = .idle := by
        simpa [calling] using h
      simp [perform, hdue, fire, Debouncer.fire, hidle]

private theorem calls_of_not_calling (h : w.calling move = false) :
    (w.perform move).calls = w.calls ∧
      (w.perform move).timer.changed =
        w.timer.changed.addAll (w.noted? move).toList := by
  cases move with
  | pass | turn => exact ⟨rfl, rfl⟩
  | take command =>
      cases hstopped : w.timer.stopped with
      | true =>
          cases command <;> simp [perform, take, noted?, hstopped,
            SortedSet.addAll]
      | false =>
          cases command <;>
            simp [perform, take, Debouncer.take, noted?, hstopped,
              SortedSet.addAll]
  | fire trigger =>
      cases hdue : w.timer.isDue w.clock with
      | false => simp [perform, hdue, noted?, SortedSet.addAll]
      | true =>
          have hbusy : w.guard ≠ .idle := by simpa [calling, hdue] using h
          simp [perform, hdue, fire, Debouncer.fire, hbusy, noted?,
            SortedSet.addAll]

/-! ## Runs -/

/-- A worker, the paths noted so far, and those noted since the last call of the
trigger. -/
structure Account where
  worker : TimerWorker
  noted : List Path := []
  fresh : List Path := []

namespace Account

def perform (a : Account) (move : Move) : Account where
  worker := a.worker.perform move
  noted := a.noted ++ (a.worker.noted? move).toList
  fresh := if a.worker.calling move then []
  else a.fresh ++ (a.worker.noted? move).toList

def run (a : Account) (moves : List Move) : Account :=
  moves.foldl perform a

end Account

def Holds (paths : List Path) (path : Path) : Prop :=
  ∃ p ∈ paths, same p path = true

private theorem holds_append {paths more : List Path} {path : Path} :
    Holds (paths ++ more) path ↔ Holds paths path ∨ Holds more path := by
  simp only [Holds, List.mem_append, or_and_right, exists_or]

/-- At the end of the account nothing is lost: the paths that wait are the fresh
ones. -/
structure Balanced (a : Account) : Prop where
  noted : ∀ path, Holds a.noted path ↔
    (∃ call ∈ a.worker.calls, Holds call path) ∨
    a.worker.timer.changed.contains path = true
  fresh : ∀ path, a.worker.timer.changed.contains path = true ↔ Holds a.fresh path

variable {a : Account}

theorem Balanced.perform (h : Balanced a) (move : Move) :
    Balanced (a.perform move) := by
  cases hcalling : a.worker.calling move with
  | true =>
      obtain ⟨hcalls, hchanged⟩ := calls_of_calling hcalling
      have hnone : a.worker.noted? move = none := by
        cases move with
        | fire trigger => rfl
        | take | pass | turn => cases hcalling
      have hempty (path : Path) : (∅ : SortedSet Path).contains path = false :=
        rfl
      constructor
      · intro path
        simp only [Account.perform, hnone, hcalls, hchanged, hempty,
          Option.toList_none,
          List.append_nil, List.mem_append, List.mem_singleton,
          or_and_right, exists_or, exists_eq_left, Bool.false_eq_true, or_false]
        rw [h.noted, Holds, SortedSet.exists_mem_toList_iff]
      · intro path
        simp [Account.perform, hcalling, hchanged, hempty, Holds]
  | false =>
      obtain ⟨hcalls, hchanged⟩ := calls_of_not_calling hcalling
      have hcontains (path : Path) :
          (a.worker.perform move).timer.changed.contains path = true ↔
          a.worker.timer.changed.contains path = true ∨
            Holds (a.worker.noted? move).toList path := by
        rw [hchanged, SortedSet.contains_addAll]
        rfl
      constructor
      · intro path
        simp only [Account.perform]
        rw [holds_append, h.noted, hcalls, hcontains, or_assoc]
      · intro path
        simp only [Account.perform, hcalling, Bool.false_eq_true, if_false]
        rw [hcontains, holds_append, h.fresh]

theorem Balanced.run (h : Balanced a) (moves : List Move) :
    Balanced (a.run moves) := by
  induction moves generalizing a with
  | nil => exact h
  | cons move moves ih => exact ih (h.perform move)

structure Conserving (a : Account) : Prop where
  conserved : ∀ path, Holds a.noted path ↔
    (∃ call ∈ a.worker.calls, Holds call path) ∨
    a.worker.timer.changed.contains path = true
  /-- A fire that is not dropped hands out, in order, what was noted since the
  call before. -/
  called : ∀ move, a.worker.calling move = true →
    ∃ call, (a.worker.perform move).calls = a.worker.calls ++ [call] ∧
      call.Pairwise (fun p q => before p q = true) ∧
      (∀ path, Holds call path ↔ Holds a.fresh path) ∧
      (a.worker.perform move).timer.changed = ∅
  /-- Any other move hands nothing out, and unless it notes a path it leaves the
  waiting ones as they are: a dropped fire, a cancellation, an arming, a
  shutdown. -/
  kept : ∀ move, a.worker.calling move = false →
    (a.worker.perform move).calls = a.worker.calls ∧
      (a.worker.noted? move = none →
        (a.worker.perform move).timer.changed = a.worker.timer.changed)

theorem Balanced.conserving (h : Balanced a) : Conserving a := by
  refine ⟨h.noted, fun move hcalling => ?_, fun move hcalling => ?_⟩
  · obtain ⟨hcalls, hchanged⟩ := calls_of_calling hcalling
    refine ⟨_, hcalls, keys_sorted _, fun path => ?_, hchanged⟩
    rw [← h.fresh, Holds, SortedSet.exists_mem_toList_iff]
  · obtain ⟨hcalls, hchanged⟩ := calls_of_not_calling hcalling
    refine ⟨hcalls, fun hnone => ?_⟩
    rw [hchanged, hnone]
    rfl

/-- However commands, time, fires and the guard follow on one another, no noted
path is lost and none is handed out twice. -/
theorem noted_paths_conserved (guard : PassGuard) (moves : List Move) :
    Conserving (Account.run { worker := { guard } } moves) := by
  have hstart : Balanced { worker := { guard } } := by
    constructor <;> simp [Holds, SortedMap.contains]
  exact (hstart.run moves).conserving

end ComponentBuild.TimerWorker
