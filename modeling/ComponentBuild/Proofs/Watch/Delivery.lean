import ComponentBuild.Watch.Hub
import Mathlib.Data.List.Induction
import Mathlib.Data.List.Nodup
import Mathlib.Tactic.Tauto

/-!
# Whom a change reaches

A change is delivered to the notifiers that are registered for it when it comes,
each once and in the order in which they registered.  What the callbacks do to
the hub meanwhile makes no difference.  So a notifier that is closed while a
change is being delivered is still called if its turn has not come.  That is the
only way in which a closed notifier can be called.
-/

namespace ComponentBuild.NotifierHub

/-! ## Closed notifiers -/

private theorem isClosed_iff (h : NotifierHub) (id : NotifierId) :
    h.isClosed id = true ↔ ∀ r ∈ h.registrations, r.notifier ≠ id := by
  simp [isClosed]

private theorem isClosed_close (h : NotifierHub) (other id : NotifierId) :
    (h.close other).isClosed id = true ↔ id = other ∨ h.isClosed id = true := by
  rw [isClosed_iff, isClosed_iff]
  by_cases hid : id = other
  · simp [close, hid]
  · have hkept (r : Registration) (hr : r.notifier = id) :
        r.notifier ≠ other := by rwa [hr]
    simp only [close, List.mem_filter, bne_iff_ne, hid, false_or]
    exact ⟨fun h r hr heq => h r ⟨hr, hkept r heq⟩ heq, fun h r hr => h r hr.1⟩

theorem isClosed_observe (h : NotifierHub) (other id : NotifierId) (path : Path) :
    (h.observe other path).isClosed id = true ↔
      id ≠ other ∧ h.isClosed id = true := by
  have hclose := isClosed_close h other id
  rw [isClosed_iff] at hclose
  rw [isClosed_iff, observe, List.forall_mem_append, List.forall_mem_singleton,
    hclose]
  constructor
  · rintro ⟨hsame | hclosed, hother⟩
    · exact absurd hsame.symm hother
    · exact ⟨hother.symm, hclosed⟩
  · rintro ⟨hother, hclosed⟩
    exact ⟨.inr hclosed, hother.symm⟩

theorem isClosed_closeAll (h : NotifierHub) (ids : List NotifierId)
    (id : NotifierId) :
    (ids.foldl close h).isClosed id = true ↔ id ∈ ids ∨ h.isClosed id = true := by
  induction ids generalizing h with
  | nil => simp
  | cons other ids ih =>
      rw [List.foldl_cons, ih, isClosed_close, List.mem_cons]
      tauto

theorem made_closeAll (h : NotifierHub) (ids : List NotifierId) :
    (ids.foldl close h).made = h.made := by
  induction ids generalizing h with
  | nil => rfl
  | cons other ids ih => exact ih (h.close other)

/-! ## Calls on a hub -/

/-- What can be done to the notifiers of a hub.  One that is dropped is closed. -/
inductive HubCall where
  | make
  | observe (id : NotifierId) (path : Path)
  | close (id : NotifierId)
  deriving DecidableEq, Repr

namespace HubCall

def concerns (id : NotifierId) : HubCall → Bool
  | make => false
  | observe other _ | close other => id == other

def registers : HubCall → List Registration
  | observe id path => [⟨id, path⟩]
  | _ => []

end HubCall

def apply (h : NotifierHub) : HubCall → NotifierHub
  | .make => h.newNotifier.2
  | .observe id path => h.observe id path
  | .close id => h.close id

def applyAll (h : NotifierHub) (calls : List HubCall) : NotifierHub :=
  calls.foldl apply h

/-- The registrations that no later call has ended, in the order of the calls. -/
def standing : List HubCall → List Registration
  | [] => []
  | call :: calls =>
      (call.registers.filter fun r => !calls.any (·.concerns r.notifier)) ++
        standing calls

/-- The notifier was closed and has not observed anything since. -/
def LeftClosed (id : NotifierId) (calls : List HubCall) : Prop :=
  ∃ before after, calls = before ++ .close id :: after ∧ ∀ path,
  .observe id path ∉ after

/-! ## What happens on a hub -/

inductive HubEvent where
  /-- The call has returned. -/
  | did (call : HubCall)
  | called (id : NotifierId) (path : Path)
  deriving DecidableEq, Repr

def HubEvent.call? : HubEvent → Option HubCall
  | did call => some call
  | called _ _ => none

def HubEvent.listener? : HubEvent → Option NotifierId
  | did _ => none
  | called id _ => some id

def returned (log : List HubEvent) : List HubCall :=
  log.filterMap HubEvent.call?

def heard (log : List HubEvent) : List NotifierId :=
  log.filterMap HubEvent.listener?

/-- When the log comes after the calls, no notifier is called that was closed
and has not observed anything since. -/
def SilentAfter (calls : List HubCall) (log : List HubEvent) : Prop :=
  ∀ id path before after, log = before ++ .called id path :: after →
    ¬ LeftClosed id (calls ++ returned before)

def Silent (log : List HubEvent) : Prop :=
  SilentAfter [] log

/-- What the callback of each notifier does to the hub when it is called.  One
delivery calls a notifier at most once, and each delivery has reactions of its
own. -/
abbrev Reaction := NotifierId → List HubCall

inductive HubMove where
  | call (call : HubCall)
  | fire (path : Path) (react : Reaction)

def callBack (react : Reaction) (id : NotifierId) (path : Path) :
    NotifierHub × List HubEvent → NotifierHub × List HubEvent
  | (h, log) =>
      (h.applyAll (react id), log ++ .called id path :: (react id).map .did)

def perform : NotifierHub × List HubEvent → HubMove → NotifierHub × List HubEvent
  | (h, log), .call call => (h.apply call, log ++ [.did call])
  | (h, log), .fire path react => (h.fire (callBack react) log path).2

def run (moves : List HubMove) : NotifierHub × List HubEvent :=
  moves.foldl perform (empty, [])

def turns (path : Path) (react : Reaction) (ids : List NotifierId) :
    List HubEvent :=
  ids.flatMap fun id => .called id path :: (react id).map .did

/-! ## The registrations that stand -/

private theorem registrations_apply (h : NotifierHub) (call : HubCall) :
    (h.apply call).registrations =
      h.registrations.filter (fun r => !call.concerns r.notifier) ++
        call.registers := by
  cases call with
  | make => simp [apply, newNotifier, HubCall.concerns, HubCall.registers]
  | observe id path =>
      simp [apply, observe, close, bne, HubCall.concerns, HubCall.registers]
  | close id => simp [apply, close, bne, HubCall.concerns, HubCall.registers]

private theorem standing_snoc (calls : List HubCall) (call : HubCall) :
    standing (calls ++ [call]) =
      (standing calls).filter (fun r => !call.concerns r.notifier) ++
        call.registers := by
  induction calls with
  | nil => simp [standing]
  | cons first calls ih =>
      simp only [List.cons_append, standing, ih, List.filter_append,
        List.filter_filter, List.append_assoc]
      congr 2
      funext r
      simp [Bool.and_comm]

private theorem applyAll_append (h : NotifierHub) (calls more : List HubCall) :
    h.applyAll (calls ++ more) = (h.applyAll calls).applyAll more :=
  List.foldl_append

private theorem registrations_applyAll (calls : List HubCall) :
    (empty.applyAll calls).registrations = standing calls := by
  induction calls using List.reverseRecOn with
  | nil => rfl
  | append_singleton calls call ih =>
      rw [applyAll_append, standing_snoc, ← ih]
      exact registrations_apply (empty.applyAll calls) call

theorem nodup_standing (calls : List HubCall) :
    ((standing calls).map (·.notifier)).Nodup := by
  induction calls using List.reverseRecOn with
  | nil => exact List.nodup_nil
  | append_singleton calls call ih =>
      have hkept :
          (((standing calls).filter fun r => !call.concerns r.notifier).map
          (·.notifier)).Nodup :=
        ih.sublist (List.filter_sublist.map _)
      rw [standing_snoc, List.map_append]
      cases call with
      | make | close id => simpa [HubCall.registers] using hkept
      | observe id path =>
          apply hkept.append (List.nodup_singleton id)
          simp [HubCall.concerns]

/-! ## Notifiers that were left closed -/

theorem LeftClosed.after {id : NotifierId} {more : List HubCall}
    (hclosed : LeftClosed id more) (calls : List HubCall) :
    LeftClosed id (calls ++ more) := by
  obtain ⟨before, after, rfl, hafter⟩ := hclosed
  exact ⟨calls ++ before, after, by simp, hafter⟩

theorem LeftClosed.of_append {id : NotifierId} {calls more : List HubCall}
    (hclosed : LeftClosed id (calls ++ more)) :
    LeftClosed id calls ∨ LeftClosed id more := by
  obtain ⟨before, after, heq, hafter⟩ := hclosed
  obtain ⟨middle, rfl, hmore⟩ | ⟨middle, hcalls, hrest⟩ :=
    List.append_eq_append_iff.mp heq
  · exact .inr ⟨middle, after, hmore, hafter⟩
  · cases middle with
    | nil => exact .inr ⟨[], after, by simpa using hrest.symm, hafter⟩
    | cons call middle =>
        obtain ⟨rfl, rfl⟩ := List.cons.inj hrest
        exact .inl ⟨before, middle, hcalls,
          fun path hpath => hafter path (by simp [hpath])⟩

private theorem isClosed_applyAll {h : NotifierHub} {id : NotifierId}
    (hclosed : h.isClosed id = true) {calls : List HubCall}
    (hcalls : ∀ path, .observe id path ∉ calls) :
    (h.applyAll calls).isClosed id = true := by
  induction calls generalizing h with
  | nil => exact hclosed
  | cons call calls ih =>
      apply ih _ fun path hpath => hcalls path (.tail call hpath)
      cases call with
      | make => exact hclosed
      | observe other path =>
          have hother : id ≠ other := fun heq => hcalls path (by simp [heq])
          exact (isClosed_observe h other id path).mpr ⟨hother, hclosed⟩
      | close other => exact (isClosed_close h other id).mpr (.inr hclosed)

theorem LeftClosed.isClosed {id : NotifierId} {calls : List HubCall}
    (hclosed : LeftClosed id calls) (h : NotifierHub) :
    (h.applyAll calls).isClosed id = true := by
  obtain ⟨before, after, rfl, hafter⟩ := hclosed
  rw [applyAll_append]
  exact isClosed_applyAll ((isClosed_close _ id id).mpr (.inl rfl)) hafter

private theorem not_isClosed_of_mem_listeners {h : NotifierHub} {path : Path}
    {id : NotifierId} (hid : id ∈ h.listeners path) :
    ¬ h.isClosed id = true := by
  obtain ⟨r, hr, rfl⟩ := List.mem_map.mp hid
  exact fun hclosed => (isClosed_iff h _).mp hclosed r
    (List.mem_filter.mp hr).1 rfl

/-! ## One delivery -/

@[simp] theorem returned_did (call : HubCall) (log : List HubEvent) :
    returned (.did call :: log) = call :: returned log :=
  List.filterMap_cons_some rfl

@[simp] theorem returned_called (id : NotifierId) (path : Path)
    (log : List HubEvent) :
    returned (.called id path :: log) = returned log :=
  List.filterMap_cons_none rfl

@[simp] theorem heard_did (call : HubCall) (log : List HubEvent) :
    heard (.did call :: log) = heard log :=
  List.filterMap_cons_none rfl

@[simp] theorem heard_called (id : NotifierId) (path : Path)
    (log : List HubEvent) :
    heard (.called id path :: log) = id :: heard log :=
  List.filterMap_cons_some rfl

private theorem returned_append (log more : List HubEvent) :
    returned (log ++ more) = returned log ++ returned more :=
  List.filterMap_append

private theorem returned_done (calls : List HubCall) (log : List HubEvent) :
    returned (calls.map .did ++ log) = calls ++ returned log := by
  induction calls with
  | nil => rfl
  | cons call calls ih => simp [ih]

private theorem heard_done (calls : List HubCall) (log : List HubEvent) :
    heard (calls.map .did ++ log) = heard log := by
  induction calls with
  | nil => rfl
  | cons call calls ih => simp [ih]

private theorem turns_cons (path : Path) (react : Reaction) (id : NotifierId)
    (ids : List NotifierId) :
    turns path react (id :: ids) =
      .called id path :: ((react id).map .did ++ turns path react ids) := by
  simp [turns]

private theorem returned_turns (path : Path) (react : Reaction)
    (ids : List NotifierId) :
    returned (turns path react ids) = ids.flatMap react := by
  induction ids with
  | nil => rfl
  | cons id ids ih =>
      rw [turns_cons, returned_called, returned_done, ih, List.flatMap_cons]

private theorem heard_turns (path : Path) (react : Reaction)
    (ids : List NotifierId) :
    heard (turns path react ids) = ids := by
  induction ids with
  | nil => rfl
  | cons id ids ih => rw [turns_cons, heard_called, heard_done, ih]

private theorem foldl_callBack (path : Path) (react : Reaction)
    (ids : List NotifierId) (h : NotifierHub) (log : List HubEvent) :
    ids.foldl (fun state id => callBack react id path state) (h, log) =
      (h.applyAll (ids.flatMap react), log ++ turns path react ids) := by
  induction ids generalizing h log with
  | nil => simp [turns, applyAll]
  | cons id ids ih =>
      rw [List.foldl_cons, callBack, ih, List.flatMap_cons,
        applyAll_append, turns_cons]
      simp

theorem perform_fire (h : NotifierHub) (log : List HubEvent) (path : Path)
    (react : Reaction) :
    perform (h, log) (.fire path react) =
      (h.applyAll ((h.listeners path).flatMap react),
        log ++ turns path react (h.listeners path)) :=
  foldl_callBack path react (h.listeners path) h log

/-! ## Silence -/

private theorem silentAfter_nil (calls : List HubCall) :
    SilentAfter calls [] := by
  intro id path before after heq
  simp at heq

private theorem silentAfter_did (calls : List HubCall) (call : HubCall)
    (log : List HubEvent) :
    SilentAfter calls (.did call :: log) ↔ SilentAfter (calls ++ [call]) log := by
  constructor
  · intro h id path before after heq
    simpa using h id path (.did call :: before) after
      (congrArg (HubEvent.did call :: ·) heq)
  · intro h id path before after heq
    cases before with
    | nil => simp at heq
    | cons event before =>
        obtain ⟨rfl, rfl⟩ := List.cons.inj heq
        simpa using h id path before after rfl

private theorem silentAfter_called (calls : List HubCall) (id : NotifierId)
    (path : Path) (log : List HubEvent) :
    SilentAfter calls (.called id path :: log) ↔
      ¬ LeftClosed id calls ∧ SilentAfter calls log := by
  constructor
  · intro h
    have hid : ¬ LeftClosed id calls := by
      simpa [returned] using h id path [] log rfl
    refine ⟨hid, fun other path' before after heq => ?_⟩
    simpa using h other path' (.called id path :: before) after
      (congrArg (HubEvent.called id path :: ·) heq)
  · rintro ⟨hid, hlog⟩ other path' before after heq
    cases before with
    | nil =>
        obtain ⟨rfl, -⟩ := HubEvent.called.inj (List.cons.inj heq).1
        simpa [returned] using hid
    | cons event before =>
        obtain ⟨rfl, rfl⟩ := List.cons.inj heq
        simpa using hlog other path' before after rfl

private theorem silentAfter_append (calls : List HubCall)
    (log more : List HubEvent) :
    SilentAfter calls (log ++ more) ↔
      SilentAfter calls log ∧ SilentAfter (calls ++ returned log) more := by
  induction log generalizing calls with
  | nil => simp [silentAfter_nil, returned]
  | cons event log ih =>
      cases event with
      | did call => simp [silentAfter_did, ih]
      | called id path => simp [silentAfter_called, ih, and_assoc]

private theorem silentAfter_done (calls done : List HubCall)
    (log : List HubEvent) :
    SilentAfter calls (done.map .did ++ log) ↔
      SilentAfter (calls ++ done) log := by
  induction done generalizing calls with
  | nil => simp
  | cons call done ih => simp [silentAfter_did, ih]

/-- During a delivery a notifier is called that was left closed exactly if what
was done before, the callbacks that came first included, leaves it closed when
its turn comes. -/
theorem silentAfter_turns (calls : List HubCall) (path : Path) (react : Reaction)
    (ids : List NotifierId) :
    SilentAfter calls (turns path react ids) ↔
      ∀ first id rest, ids = first ++ id :: rest →
        ¬ LeftClosed id (calls ++ first.flatMap react) := by
  induction ids generalizing calls with
  | nil => simp [silentAfter_nil, turns]
  | cons id ids ih =>
      rw [turns_cons, silentAfter_called, silentAfter_done, ih]
      constructor
      · rintro ⟨hid, hids⟩ first other rest heq
        cases first with
        | nil =>
            obtain ⟨rfl, -⟩ := List.cons.inj heq
            simpa using hid
        | cons _ first =>
            obtain ⟨rfl, rfl⟩ := List.cons.inj heq
            simpa using hids first other rest rfl
      · intro h
        refine ⟨by simpa using h [] id ids rfl, fun first other rest heq => ?_⟩
        simpa using h (id :: first) other rest (congrArg (id :: ·) heq)

/-! ## Whole runs -/

private theorem run_snoc (moves : List HubMove) (move : HubMove) :
    run (moves ++ [move]) = perform (run moves) move := by
  simp [run]

theorem run_hub (moves : List HubMove) :
    (run moves).1 = empty.applyAll (returned (run moves).2) := by
  induction moves using List.reverseRecOn with
  | nil => rfl
  | append_singleton moves move ih =>
      rw [run_snoc]
      cases move with
      | call call =>
          rw [perform, returned_append, applyAll_append, ← ih]
          rfl
      | fire path react =>
          rw [perform_fire, returned_append, returned_turns,
            applyAll_append, ← ih]

private theorem run_fire (moves : List HubMove) (path : Path) (react : Reaction) :
    (run (moves ++ [.fire path react])).2 =
      (run moves).2 ++ turns path react ((run moves).1.listeners path) := by
  rw [run_snoc, perform_fire]

private theorem listeners_run (moves : List HubMove) (path : Path) :
    (run moves).1.listeners path =
      ((standing (returned (run moves).2)).filter fun r =>
        path.isWithin r.path).map
        (·.notifier) := by
  rw [run_hub, listeners, registrations_applyAll]

private theorem silent_run_snoc (moves : List HubMove) (move : HubMove) :
    Silent (run (moves ++ [move])).2 ↔
      Silent (run moves).2 ∧ ∀ path react, move = .fire path react →
        SilentAfter (returned (run moves).2)
          (turns path react ((run moves).1.listeners path)) := by
  cases move with
  | call call =>
      rw [run_snoc, perform, Silent, silentAfter_append]
      simp [Silent, silentAfter_did, silentAfter_nil]
  | fire path react =>
      rw [run_fire, Silent, silentAfter_append]
      simp [Silent]

theorem silent_run (moves : List HubMove) :
    Silent (run moves).2 ↔
      ∀ earlier path react later, moves = earlier ++ .fire path react :: later →
        SilentAfter (returned (run earlier).2)
          (turns path react ((run earlier).1.listeners path)) := by
  induction moves using List.reverseRecOn with
  | nil => simp [Silent, silentAfter_nil, run]
  | append_singleton moves move ih =>
      rw [silent_run_snoc, ih]
      constructor
      · rintro ⟨hmoves, hmove⟩ earlier path react later heq
        obtain rfl | ⟨later, last, rfl⟩ := later.eq_nil_or_concat
        · obtain ⟨rfl, hlast⟩ := List.append_inj' heq rfl
          exact hmove path react (List.singleton_inj.mp hlast)
        · have hsplit :
              moves ++ [move] = (earlier ++ .fire path react :: later) ++
                [last] := by
            simpa using heq
          exact hmoves earlier path react later (List.append_inj' hsplit rfl).1
      · intro h
        refine ⟨fun earlier path react later heq => ?_, fun path react heq => ?_⟩
        · exact h earlier path react (later ++ [move]) (by simp [heq])
        · exact h moves path react [] (by rw [heq])

theorem silentAfter_delivery (moves : List HubMove) (path : Path)
    (react : Reaction) :
    SilentAfter (returned (run moves).2)
      (turns path react ((run moves).1.listeners path)) ↔
      ∀ first id rest, (run moves).1.listeners path = first ++ id :: rest →
        ¬ LeftClosed id (first.flatMap react) := by
  rw [silentAfter_turns]
  refine forall₄_congr fun first id rest heq =>
    not_congr ⟨fun hclosed => ?_, fun h => h.after _⟩
  -- whoever listens now was not left closed before, so it was done since
  refine hclosed.of_append.resolve_left fun hbefore => ?_
  have hlistens : id ∈ (run moves).1.listeners path := by simp [heq]
  apply not_isClosed_of_mem_listeners hlistens
  rw [run_hub]
  exact hbefore.isClosed empty

/-- A closed notifier stays silent exactly if no delivery comes to a notifier
whose registration was ended, and not renewed, by the callbacks before it in the
same delivery.  A delivery calls each notifier whose registration stands for the
path when it begins, once and in the order of the registrations, and nobody
else. -/
theorem silent_iff (moves : List HubMove) :
    (Silent (run moves).2 ↔
      ∀ earlier path react later, moves = earlier ++ .fire path react :: later →
        ∀ first id rest, (run earlier).1.listeners path = first ++ id :: rest →
          ¬ LeftClosed id (first.flatMap react)) ∧
    ∀ path react, ∃ events,
      (run (moves ++ [.fire path react])).2 = (run moves).2 ++ events ∧
      heard events =
        ((standing (returned (run moves).2)).filter fun r =>
          path.isWithin r.path).map
          (·.notifier) ∧
      (heard events).Nodup := by
  refine ⟨?_, fun path react => ⟨_, run_fire moves path react, ?_, ?_⟩⟩
  · rw [silent_run]
    simp only [silentAfter_delivery]
  · rw [heard_turns, listeners_run]
  · rw [heard_turns, listeners_run]
    exact (nodup_standing _).sublist (List.filter_sublist.map _)

/-- Both notifiers listen, and the callback of the first closes the second,
which is called after that all the same. -/
theorem called_after_close :
    let calls : List HubCall :=
      [.make, .make, .observe 1 ⟨"/src"⟩, .observe 2 ⟨"/src"⟩]
    let change : Path := ⟨"/src/a.ts"⟩
    let moves : List HubMove :=
      calls.map .call ++ [.fire change fun id => if id = 1 then [.close 2]
        else []]
    (run moves).2 = calls.map .did ++ [.called 1 change, .did (.close 2),
      .called 2 change] ∧
      (run moves).1.isClosed 2 = true ∧ ¬ Silent (run moves).2 := by
  intro calls change moves
  have hlog : (run moves).2 =
      calls.map .did ++ [.called 1 change, .did (.close 2),
        .called 2 change] := by
    decide +kernel
  refine ⟨hlog, by decide +kernel, fun hsilent => ?_⟩
  -- the close has returned and nothing has happened since
  let before : List HubEvent :=
    calls.map .did ++ [.called 1 change, .did (.close 2)]
  have hclosed : LeftClosed 2 (returned before) := ⟨calls, [], rfl, by simp⟩
  exact hsilent 2 change before [] hlog hclosed

end ComponentBuild.NotifierHub
