import ComponentBuild.Scheduler.OneShot

/-!
# What the receiver of a slot obtains

The first result that a sender completes is what the receiver is due, and the
error `aborted` when the last sender is dropped before that.  Polling and
waiting to the end both give what is due.  But waiting to the end does not ask
whether a poll gave it before: then it answers that the build was aborted, and
the receiver has two results.
-/

namespace ComponentBuild.OneShot

variable {α : Type}

/-! ## Runs -/

inductive Request (α : Type) where
  | complete (pass : Nat) (result : Except BuildError α)
  | addSender
  | dropSender
  /-- The receiver asks for the result and does not wait for it. -/
  | poll
  /-- The receiver begins to wait to the end, and can no longer poll. -/
  | wait
  /-- The waiting receiver looks whether its wait is over. -/
  | wake

inductive Receiver where
  | polling
  | waiting
  | gone
  deriving DecidableEq, Repr

structure Exchange (α : Type) where
  slot : OneShot α := {}
  receiver : Receiver := .polling
  sent : List (Except BuildError α) := []
  received : List (Except BuildError α) := []

namespace Exchange

def bySender (x y : Exchange α) : Exchange α :=
  if x.slot.senders = 0 then x else y

def perform (x : Exchange α) : Request α → Exchange α
  | .complete pass result =>
      x.bySender { x with
        slot := (x.slot.complete pass result).2
        sent := x.sent ++ [result] }
  | .addSender => x.bySender { x with slot := x.slot.addSender }
  | .dropSender => x.bySender { x with slot := x.slot.dropSender }
  | .poll =>
      if x.receiver = .polling then
        { x with
          slot := x.slot.poll.2
          received := x.received ++ x.slot.poll.1.toList }
      else x
  | .wait => if x.receiver = .polling then { x with receiver := .waiting } else x
  | .wake =>
      match x.receiver, x.slot.final? with
      | .waiting, some result =>
          { x with receiver := .gone, received := x.received ++ [result] }
      | _, _ => x

def run (x : Exchange α) (requests : List (Request α)) : Exchange α :=
  requests.foldl perform x

/-- What the receiver is due: the first result that was sent, and an error if
none can be sent. -/
def due? (x : Exchange α) : Option (Except BuildError α) :=
  match x.sent with
  | result :: _ => some result
  | [] => if x.slot.senders = 0 then some (.error .aborted) else none

/-- What the receiver has, by the ways in which it can have obtained it. -/
inductive Obtained (x : Exchange α) : List (Except BuildError α) → Prop
  | nothing (htaken : x.slot.taken = false) (hreceiver : x.receiver ≠ .gone) :
      Obtained x []
  | polled {result : Except BuildError α} (hdue : x.due? = some result)
      (htaken : x.slot.taken = true) (hreceiver : x.receiver ≠ .gone) :
      Obtained x [result]
  | waited {result : Except BuildError α} (hdue : x.due? = some result)
      (htaken : x.slot.taken = false) (hreceiver : x.receiver = .gone) :
      Obtained x [result]
  | twice {result : Except BuildError α} (hdue : x.due? = some result)
      (htaken : x.slot.taken = true) (hreceiver : x.receiver = .gone) :
      Obtained x [result, .error .aborted]

/-! ## One request -/

/-- The slot holds the first result until a poll takes it. -/
structure Accounted (x : Exchange α) : Prop where
  completed : x.slot.completed = !x.sent.isEmpty
  waiting : x.slot.waiting = if x.slot.taken then none else x.sent.head?
  obtained : Obtained x x.received

variable {x : Exchange α}

theorem Accounted.final? (h : Accounted x) (htaken : x.slot.taken = false) :
    x.slot.final? = x.due? := by
  have hwaiting : x.slot.waiting = x.sent.head? := by
    simpa [htaken] using h.waiting
  cases hsent : x.sent with
  | nil => simp [OneShot.final?, due?, isClosed, hwaiting, h.completed, hsent]
  | cons result later => simp [OneShot.final?, due?, hwaiting, hsent]

theorem Accounted.poll (h : Accounted x) (htaken : x.slot.taken = false) :
    x.slot.poll =
      match x.due? with
      | some result =>
          (some result, { x.slot with waiting := none, taken := true })
      | none => (none, x.slot) := by
  have hwaiting : x.slot.waiting = x.sent.head? := by
    simpa [htaken] using h.waiting
  cases hsent : x.sent with
  | nil =>
      by_cases hsenders : x.slot.senders = 0 <;>
        simp [OneShot.poll, due?, isClosed, htaken, hwaiting, h.completed,
          hsent, hsenders]
  | cons result later => simp [OneShot.poll, due?, htaken, hwaiting, hsent]

private theorem poll_taken (htaken : x.slot.taken = true) :
    x.slot.poll = (none, x.slot) := by
  simp [OneShot.poll, htaken]

theorem Accounted.complete (h : Accounted x) (pass : Nat)
    (result : Except BuildError α) :
    x.slot.complete pass result =
      if x.sent = [] then (.ok (),
        { x.slot with waiting := some result, completed := true })
      else (.error (.lateResult pass), x.slot) := by
  cases hsent : x.sent <;> simp [OneShot.complete, h.completed, hsent]

theorem Obtained.same {y : Exchange α} {received : List (Except BuildError α)}
    (h : Obtained x received) (htaken : y.slot.taken = x.slot.taken)
    (hgone : y.receiver = .gone ↔ x.receiver = .gone)
    (hdue : ∀ result, x.due? = some result → y.due? = some result) :
    Obtained y received := by
  cases h with
  | nothing ht hr => exact .nothing (htaken ▸ ht) (mt hgone.1 hr)
  | polled hd ht hr => exact .polled (hdue _ hd) (htaken ▸ ht) (mt hgone.1 hr)
  | waited hd ht hr => exact .waited (hdue _ hd) (htaken ▸ ht) (hgone.2 hr)
  | twice hd ht hr => exact .twice (hdue _ hd) (htaken ▸ ht) (hgone.2 hr)

theorem Obtained.eq_nil {received : List (Except BuildError α)}
    (h : Obtained x received) (htaken : x.slot.taken = false)
    (hreceiver : x.receiver ≠ .gone) : received = [] := by
  cases h with
  | nothing => rfl
  | polled _ ht | twice _ ht => simp [ht] at htaken
  | waited _ _ hr => exact absurd hr hreceiver

theorem Obtained.eq_due {received : List (Except BuildError α)}
    (h : Obtained x received) (htaken : x.slot.taken = true)
    (hreceiver : x.receiver ≠ .gone) :
    ∃ result, x.due? = some result ∧ received = [result] := by
  cases h with
  | polled hd => exact ⟨_, hd, rfl⟩
  | nothing ht | waited _ ht => simp [ht] at htaken
  | twice _ _ hr => exact absurd hr hreceiver

theorem Obtained.exists_due {received : List (Except BuildError α)}
    (h : Obtained x received) (htaken : x.slot.taken = true) :
    ∃ result, x.due? = some result := by
  cases h with
  | polled hd | twice hd => exact ⟨_, hd⟩
  | nothing ht | waited _ ht => simp [ht] at htaken

theorem Obtained.length_le_one_iff {received : List (Except BuildError α)}
    (h : Obtained x received) :
    received.length ≤ 1 ↔ ¬ (x.slot.taken = true ∧ x.receiver = .gone) := by
  cases h with
  | nothing htaken => simp [htaken]
  | polled _ _ hreceiver => simp [hreceiver]
  | waited _ htaken => simp [htaken]
  | twice _ htaken hreceiver => simp [htaken, hreceiver]

theorem Accounted.final?_taken (h : Accounted x) (htaken : x.slot.taken = true) :
    x.slot.final? = some (.error .aborted) := by
  have hwaiting : x.slot.waiting = none := by simpa [htaken] using h.waiting
  obtain ⟨result, hdue⟩ := h.obtained.exists_due htaken
  have hclosed : x.slot.isClosed = true := by
    cases hsent : x.sent with
    | nil =>
        have hlast :
            x.slot.senders = 0 ∧ Except.error BuildError.aborted = result := by
          simpa [due?, hsent] using hdue
        simp [isClosed, hlast.1]
    | cons first later => simp [isClosed, h.completed, hsent]
  simp [OneShot.final?, hwaiting, hclosed]

theorem Accounted.bySender {y : Exchange α} (h : Accounted x)
    (hy : x.slot.senders ≠ 0 → Accounted y) : Accounted (x.bySender y) := by
  unfold Exchange.bySender
  split
  · exact h
  · exact hy ‹_›

theorem Accounted.withSenders (h : Accounted x) (hsenders : x.slot.senders ≠ 0)
    (senders : Nat) :
    Accounted { x with slot := { x.slot with senders } } := by
  refine ⟨h.completed, h.waiting,
    h.obtained.same rfl Iff.rfl fun result hdue => ?_⟩
  cases hsent : x.sent with
  | nil => simp [due?, hsent, hsenders] at hdue
  | cons first later => simpa [due?, hsent] using hdue

theorem Accounted.performComplete (h : Accounted x) (pass : Nat)
    (result : Except BuildError α) :
    Accounted (x.perform (.complete pass result)) := by
  refine h.bySender fun hsenders => ?_
  cases hsent : x.sent with
  | nil =>
      have hnone : x.due? = none := by simp [due?, hsent, hsenders]
      have htaken : x.slot.taken = false := by
        cases htaken : x.slot.taken with
        | false => rfl
        | true => simpa [hnone] using h.obtained.exists_due htaken
      rw [h.complete, if_pos hsent]
      refine ⟨rfl, by simp [htaken], h.obtained.same rfl Iff.rfl fun _ hdue => ?_⟩
      rw [hnone] at hdue
      cases hdue
  | cons first later =>
      rw [h.complete, if_neg (by simp [hsent])]
      refine ⟨by simp [h.completed, hsent], by simp [h.waiting, hsent], ?_⟩
      refine h.obtained.same rfl Iff.rfl fun _ hdue => ?_
      simpa [due?, hsent] using hdue

theorem Accounted.performPoll (h : Accounted x)
    (hpolling : x.receiver = .polling) :
    Accounted (x.perform .poll) := by
  have hreceiver : x.receiver ≠ .gone := by simp [hpolling]
  simp only [perform, hpolling, if_true]
  cases htaken : x.slot.taken with
  | true => simpa [poll_taken htaken, ← hpolling] using h
  | false =>
      rw [h.poll htaken, h.obtained.eq_nil htaken hreceiver]
      cases hdue : x.due? with
      | none =>
          refine ⟨h.completed, h.waiting, .nothing htaken ?_⟩
          simp
      | some result =>
          refine ⟨h.completed, rfl, .polled hdue rfl ?_⟩
          simp

theorem Accounted.performWake (h : Accounted x)
    (hwaiting : x.receiver = .waiting) :
    Accounted (x.perform .wake) := by
  have hreceiver : x.receiver ≠ .gone := by simp [hwaiting]
  simp only [perform, hwaiting]
  cases hfinal : x.slot.final? with
  | none => exact h
  | some answer =>
      refine ⟨h.completed, h.waiting, ?_⟩
      cases htaken : x.slot.taken with
      | false =>
          rw [h.obtained.eq_nil htaken hreceiver]
          exact .waited ((h.final? htaken).symm.trans hfinal) htaken rfl
      | true =>
          obtain ⟨result, hdue, hreceived⟩ := h.obtained.eq_due htaken hreceiver
          obtain rfl :=
            Option.some.inj ((h.final?_taken htaken).symm.trans hfinal)
          rw [hreceived]
          exact .twice hdue htaken rfl

theorem Accounted.perform (h : Accounted x) (request : Request α) :
    Accounted (x.perform request) := by
  cases request with
  | complete pass result => exact h.performComplete pass result
  | addSender | dropSender =>
      exact h.bySender fun hsenders => h.withSenders hsenders _
  | poll =>
      by_cases hpolling : x.receiver = .polling
      · exact h.performPoll hpolling
      · simpa [Exchange.perform, hpolling] using h
  | wait =>
      by_cases hpolling : x.receiver = .polling
      · simp only [Exchange.perform, hpolling, if_true]
        exact ⟨h.completed, h.waiting,
          h.obtained.same rfl (by simp [hpolling]) fun _ hdue => hdue⟩
      · simpa [Exchange.perform, hpolling] using h
  | wake =>
      cases hreceiver : x.receiver with
      | waiting => exact h.performWake hreceiver
      | polling | gone => simpa [Exchange.perform, hreceiver] using h

/-! ## Runs -/

theorem Accounted.run (h : Accounted x) (requests : List (Request α)) :
    Accounted (x.run requests) := by
  induction requests generalizing x with
  | nil => exact h
  | cons request requests ih => exact ih (h.perform request)

private theorem taken_perform (htaken : x.slot.taken = true)
    (request : Request α) :
    (x.perform request).slot.taken = true := by
  cases request with
  | complete pass result =>
      simp only [Exchange.perform, Exchange.bySender, OneShot.complete]
      split
      · exact htaken
      · split <;> exact htaken
  | addSender | dropSender =>
      simp only [Exchange.perform, Exchange.bySender]
      split <;> exact htaken
  | poll => simp [Exchange.perform, poll_taken htaken, htaken]
  | wait =>
      simp only [Exchange.perform]
      split <;> exact htaken
  | wake =>
      simp only [Exchange.perform]
      split <;> exact htaken

private theorem taken_run (htaken : x.slot.taken = true)
    (requests : List (Request α)) :
    (x.run requests).slot.taken = true := by
  induction requests generalizing x with
  | nil => exact htaken
  | cons request requests ih => exact ih (taken_perform htaken request)

/-! ## What is delivered -/

structure Delivers (x : Exchange α) : Prop where
  /-- The first completion succeeds; a later one is rejected under its own pass
  and changes nothing. -/
  completion : ∀ pass result, x.slot.complete pass result =
    if x.sent = [] then (.ok (),
      { x.slot with waiting := some result, completed := true })
    else (.error (.lateResult pass), x.slot)
  /-- As long as no poll took the result, polling and waiting give what is due. -/
  answers : x.slot.taken = false → x.slot.poll.1 = x.due? ∧ x.slot.final? = x.due?
  /-- After a poll took the result, no poll gives one again, whatever happens. -/
  silent : x.slot.taken = true → ∀ requests,
    (x.run requests).slot.poll = (none, (x.run requests).slot)
  obtained : Obtained x x.received

theorem Accounted.delivers (h : Accounted x) : Delivers x := by
  refine ⟨h.complete, fun htaken => ⟨?_, h.final? htaken⟩,
    fun htaken requests => ?_, h.obtained⟩
  · rw [h.poll htaken]
    cases x.due? <;> rfl
  · exact poll_taken (taken_run htaken requests)

/-- In any order of completing, dropping, polling and waiting the first result
is delivered, or the error `aborted` when nobody is left to send one; and the
receiver has at most one result unless it took one by a poll and waited to the
end all the same. -/
theorem received_once_iff (requests : List (Request α)) :
    let x := Exchange.run {} requests
    Delivers x ∧
      (x.received.length ≤ 1 ↔ ¬ (x.slot.taken = true ∧ x.receiver = .gone)) := by
  intro x
  have hstart : Accounted ({} : Exchange α) := ⟨rfl, rfl, .nothing rfl (by simp)⟩
  have h : Accounted x := hstart.run requests
  exact ⟨h.delivers, h.obtained.length_le_one_iff⟩

/-- The result is polled, and a wait to the end answers that the build was
aborted. -/
theorem received_twice : ¬ ∀ requests : List (Request Nat),
    (Exchange.run {} requests).received.length ≤ 1 := by
  intro h
  have htwice := h [.complete 1 (.ok 7), .poll, .wait, .wake]
  revert htwice
  decide

end Exchange

end ComponentBuild.OneShot
