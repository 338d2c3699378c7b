import ComponentBuild.Proofs.Path.Parts
import ComponentBuild.Proofs.SortedMap.Lookup
import ComponentBuild.Scheduler.Debouncer

/-!
# A queue of commands and the rounds it leads to

A timer that works off its queue at one moment and is then left alone hands its
paths out in rounds. An arming without delay closes a round at once, whatever
else waits in the queue; all others only move the one deadline.  So a queue
leads to a single round with all its paths exactly when nothing but known paths
follows such an arming.
-/

namespace ComponentBuild

open KeyOrder SortedMap

namespace TimerCommand

def isChange : TimerCommand → Bool
  | arm _ | note _ => true
  | cancel | shutdown => false

def isArming : TimerCommand → Bool
  | arm _ => true
  | _ => false

def notedPaths (commands : List TimerCommand) : List Path :=
  commands.filterMap fun
    | note path => some path
    | _ => none

theorem mem_notedPaths {commands : List TimerCommand} {path : Path} :
    path ∈ notedPaths commands ↔ .note path ∈ commands := by
  unfold notedPaths
  rw [List.mem_filterMap]
  constructor
  · rintro ⟨c, hc, hpath⟩
    cases c <;> simp_all
  · intro h
    exact ⟨_, h, rfl⟩

/-- The first arming without delay is followed by no other arming and by no path
that is new. -/
def Gathered (commands : List TimerCommand) : Prop :=
  ∀ earlier later, commands = earlier ++ .arm 0 :: later → .arm 0 ∉ earlier →
    ∀ c ∈ later, ∃ path, c = .note path ∧ ∃ p ∈ notedPaths earlier,
    same p path = true

/-- The calls are at most one, and it has all the noted paths. -/
def Coalesced (commands : List TimerCommand) (calls : List (List Path)) : Prop :=
  calls.length ≤ 1 ∧
    ∀ call ∈ calls, ∀ path ∈ notedPaths commands, ∃ p ∈ call, same p path = true

theorem Coalesced.of_prefix {commands : List TimerCommand}
    {calls more : List (List Path)} (h : Coalesced commands more)
    (hp : calls <+: more) : Coalesced commands calls :=
  ⟨Nat.le_trans hp.length_le h.1, fun call hcall => h.2 call (hp.subset hcall)⟩

end TimerCommand

open TimerCommand

namespace Debouncer

/-! ## Rounds -/

def rounds (changed : SortedSet Path) (armed : Bool) :
    List TimerCommand → List (List Path)
  | [] => if armed then [changed.toList] else []
  | .arm delay :: queue =>
      if delay = 0 then changed.toList :: rounds ∅ false queue
        else rounds changed true queue
  | .note path :: queue => rounds (changed.add path) armed queue
  | .cancel :: queue => rounds changed false queue
  | .shutdown :: _ => []

def owed (d : Debouncer) (now : Nat) (queue : List TimerCommand) :
    List (List Path) :=
  if d.stopped then []
  else if d.isDue now then d.changed.toList :: rounds ∅ false queue
  else rounds d.changed d.deadline.isSome queue

variable {d : Debouncer} {now : Nat}

theorem not_stopped_of_isDue (h : d.isDue now = true) : d.stopped = false := by
  unfold isDue at h
  split at h
  · simp only [Bool.and_eq_true, Bool.not_eq_true'] at h
    exact h.2
  · cases h

theorem owed_running (hs : d.stopped = false) (hd : d.isDue now = false)
    (queue : List TimerCommand) :
    d.owed now queue = rounds d.changed d.deadline.isSome queue := by
  simp [owed, hs, hd]

private theorem owed_due (hd : d.isDue now = true) (queue : List TimerCommand) :
    d.owed now queue = d.changed.toList :: rounds ∅ false queue := by
  simp [owed, not_stopped_of_isDue hd, hd]

/-- Taking a command before the deadline hands nothing out and leaves the same
rounds to come. -/
theorem owed_take (hs : d.stopped = false) (hd : d.isDue now = false)
    (c : TimerCommand) (queue : List TimerCommand) :
    (d.take now c).owed now queue = d.owed now (c :: queue) := by
  rw [owed_running hs hd]
  cases c with
  | arm delay =>
      by_cases hdelay : delay = 0
      · have hdue : (d.take now (.arm delay)).isDue now = true := by
          simp [take, isDue, hs, hdelay]
        rw [owed_due hdue]
        simp [take, rounds, hdelay]
      · have hlater : ¬ now + delay ≤ now := by omega
        have hstopped : (d.take now (.arm delay)).stopped = false := hs
        have hdue : (d.take now (.arm delay)).isDue now = false := by
          simp [take, isDue, hlater]
        rw [owed_running hstopped hdue]
        simp [take, rounds, hdelay]
  | note path =>
      have hstopped : (d.take now (.note path)).stopped = false := hs
      have hdue : (d.take now (.note path)).isDue now = false := hd
      rw [owed_running hstopped hdue]
      rfl
  | cancel => simp [take, owed, isDue, rounds, hs]
  | shutdown => simp [take, owed, rounds]

theorem owed_fire (hd : d.isDue now = true) (queue : List TimerCommand) :
    d.owed now queue = d.changed.toList :: (d.fire true).2.owed now queue := by
  have hstopped : d.stopped = false := not_stopped_of_isDue hd
  have hafter : (d.fire true).2.stopped = false := hstopped
  rw [owed_due hd, owed_running hafter rfl]
  rfl

/-- With nothing left in the queue the rounds to come do not depend on the time.
-/
theorem owed_nil (d : Debouncer) (now later : Nat) :
    d.owed now [] = d.owed later [] := by
  have hnil (t : Nat) : d.owed t [] =
      if d.stopped then [] else if d.deadline.isSome then [d.changed.toList]
        else [] := by
    unfold owed
    cases hs : d.stopped with
    | true => rfl
    | false =>
        cases hd : d.deadline with
        | none => simp [isDue, hd, rounds]
        | some deadline => cases hdue : d.isDue t <;> simp [rounds]
  rw [hnil, hnil]

/-! ## When there is one round -/

variable {changed : SortedSet Path} {armed : Bool} {commands : List TimerCommand}

theorem rounds_append (hchange : ∀ c ∈ commands, c.isChange = true)
    (hdelay : .arm 0 ∉ commands) (queue : List TimerCommand) :
    rounds changed armed (commands ++ queue) =
      rounds (changed.addAll (notedPaths commands)) (armed ||
        commands.any isArming) queue := by
  induction commands generalizing changed armed with
  | nil => simp [notedPaths, SortedSet.addAll]
  | cons c commands ih =>
      have hrest : ∀ c ∈ commands, c.isChange = true :=
        fun c hc => hchange c (List.mem_cons_of_mem _ hc)
      rw [List.mem_cons, not_or] at hdelay
      cases c with
      | arm delay =>
          have hne : delay ≠ 0 := fun h => hdelay.1 (by rw [h])
          rw [List.cons_append, rounds, if_neg hne, ih hrest hdelay.2]
          simp [notedPaths, isArming]
      | note path =>
          rw [List.cons_append, rounds, ih hrest hdelay.2]
          simp [notedPaths, isArming, SortedSet.addAll]
      | cancel => simp [isChange] at hchange
      | shutdown => simp [isChange] at hchange

private theorem rounds_eq_nil_iff (hchange : ∀ c ∈ commands, c.isChange = true) :
    rounds changed armed commands = [] ↔ armed = false ∧ ∀ c ∈ commands, ∃ path,
      c = .note path := by
  induction commands generalizing changed armed with
  | nil => cases armed <;> simp [rounds]
  | cons c commands ih =>
      have hrest : ∀ c ∈ commands, c.isChange = true :=
        fun c hc => hchange c (List.mem_cons_of_mem _ hc)
      cases c with
      | arm delay =>
          have hnote : ¬ ∃ path, TimerCommand.arm delay = .note path := by simp
          by_cases hdelay : delay = 0
          · simp [rounds, hdelay]
          · simp [rounds, hdelay, ih hrest]
      | note path => simp [rounds, ih hrest]
      | cancel => simp [isChange] at hchange
      | shutdown => simp [isChange] at hchange

private theorem rounds_at_first_due {earlier later : List TimerCommand}
    (hchange : ∀ c ∈ earlier, c.isChange = true) (hfirst : .arm 0 ∉ earlier) :
    rounds ∅ false (earlier ++ .arm 0 :: later) =
      (SortedSet.ofKeys (notedPaths earlier)).toList :: rounds ∅ false later := by
  rw [rounds_append hchange hfirst]
  rfl

theorem coalesced_rounds_iff (hchange : ∀ c ∈ commands, c.isChange = true) :
    Coalesced commands (rounds ∅ false commands) ↔ Gathered commands := by
  constructor
  · rintro ⟨hlength, hpaths⟩ earlier later rfl hfirst c hc
    have hearlier : ∀ c ∈ earlier, c.isChange = true :=
      fun c hc => hchange c (by simp [hc])
    have hlater : ∀ c ∈ later, c.isChange = true :=
      fun c hc => hchange c (by simp [hc])
    rw [rounds_at_first_due hearlier hfirst] at hlength hpaths
    have hnil : rounds ∅ false later = [] := by
      rw [List.length_cons] at hlength
      exact List.length_eq_zero_iff.1 (by omega)
    obtain ⟨path, rfl⟩ := ((rounds_eq_nil_iff hlater).1 hnil).2 c hc
    refine ⟨path, rfl, SortedSet.exists_mem_ofKeys.1
      (hpaths _ List.mem_cons_self path ?_)⟩
    rw [mem_notedPaths]
    simp [hc]
  · intro h
    by_cases hmem : .arm 0 ∈ commands
    · obtain ⟨earlier, later, rfl, hfirst⟩ := List.eq_append_cons_of_mem hmem
      have hearlier : ∀ c ∈ earlier, c.isChange = true :=
        fun c hc => hchange c (by simp [hc])
      have hlater : ∀ c ∈ later, c.isChange = true :=
        fun c hc => hchange c (by simp [hc])
      have hknown := h earlier later rfl hfirst
      have hnil : rounds ∅ false later = [] :=
        (rounds_eq_nil_iff hlater).2 ⟨rfl,
          fun c hc => ⟨_, (hknown c hc).choose_spec.1⟩⟩
      rw [rounds_at_first_due hearlier hfirst, hnil]
      refine ⟨by simp, fun call hcall path hpath => ?_⟩
      rw [List.mem_singleton.1 hcall, SortedSet.exists_mem_ofKeys]
      rw [mem_notedPaths, List.mem_append, List.mem_cons] at hpath
      rcases hpath with hpath | hpath | hpath
      · exact ⟨path, mem_notedPaths.2 hpath, same_refl path⟩
      · cases hpath
      · obtain ⟨_, heq, hp⟩ := hknown _ hpath
        cases heq
        exact hp
    · have hrounds : rounds ∅ false (commands ++ []) = _ :=
        rounds_append hchange hmem []
      rw [List.append_nil] at hrounds
      rw [hrounds, rounds]
      split
      · refine ⟨by simp, fun call hcall path hpath => ?_⟩
        rw [List.mem_singleton.1 hcall]
        exact SortedSet.exists_mem_ofKeys.2 ⟨path, hpath, same_refl path⟩
      · exact ⟨by simp, by simp⟩

end Debouncer

end ComponentBuild
