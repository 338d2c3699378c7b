import ComponentBuild.Proofs.Session.Blocks

/-!
# The first completion of a watching session

Updates that report nothing and end well complete nothing.  The first other one
decides: its first snapshot gets the first pass, whose record is the result, and
without a snapshot its failure is.  A result that is there stays, and what is
completed later is only reported as an error.
-/

namespace ComponentBuild

/-- Reports nothing and ends well. -/
def UpdateResult.IsSilent (r : UpdateResult) : Prop :=
  r.snapshots = [] ∧ r.ending = .done

namespace Session

variable {υ σ : Type}

/-! ## The first completion -/

/-- The first result of a watching session, from whether the unit could be made
and what its updates reported: the first update that is not silent decides. -/
inductive FirstCompletion : Except BuildError Unit → List UpdateResult →
    Except BuildError PassRecord → Prop
  | uncreated (e : BuildError) : FirstCompletion (.error e) [] (.error e)
  | resolved {silent later : List UpdateResult} {r : UpdateResult}
      {first : Snapshot}
      {rest : List Snapshot} {record : PassRecord} (hsilent : ∀ r ∈ silent,
        r.IsSilent)
      (hr : r.snapshots = first :: rest) (hpass : record.pass = 1)
      (hphase : record.phase = .resolved) (hrebuild : record.isRebuild = false)
      (hcomponents : record.components = first.components) :
      FirstCompletion (.ok ()) (silent ++ r :: later) (.ok record)
  | failed {silent later : List UpdateResult} {r : UpdateResult}
      (hsilent : ∀ r ∈ silent,
        r.IsSilent) (hr : r.snapshots = []) (hend : r.ending ≠ .done) :
      FirstCompletion (.ok ()) (silent ++ r :: later) (.error r.ending.cause)

section

variable {updates : List UpdateResult} {answer : Except BuildError PassRecord}

theorem FirstCompletion.append (h : FirstCompletion (.ok ()) updates answer)
    (more : List UpdateResult) :
    FirstCompletion (.ok ()) (updates ++ more) answer := by
  cases h with
  | resolved hsilent hr hpass hphase hrebuild hcomponents =>
      rw [List.append_assoc, List.cons_append]
      exact .resolved hsilent hr hpass hphase hrebuild hcomponents
  | failed hsilent hr hend =>
      rw [List.append_assoc, List.cons_append]
      exact .failed hsilent hr hend

theorem not_firstCompletion_of_silent (hsilent : ∀ r ∈ updates, r.IsSilent) :
    ¬ FirstCompletion (.ok ()) updates answer := by
  intro h
  cases h with
  | @resolved silent later r first rest record _ hr =>
      have hnone := (hsilent r (by simp)).1
      simp [hr] at hnone
  | @failed silent later r _ hr hend => exact hend (hsilent r (by simp)).2

end

/-! ## A result that is there stays -/

section

variable {s t : Session υ σ}

private theorem frame_result :
    Frame fun s t : Session υ σ => s.result.completed = true →
      t.result = s.result where
  refl _ _ := rfl
  trans h h' hs := (h' (h hs ▸ hs)).trans (h hs)
  carryOut s task _ hs := by
    cases task with
    | complete pass result =>
        rw [Session.carryOut, complete_late hs]
        rfl
    | closeUnit => rw [Session.carryOut, closeUnit_eq]
    | _ => rfl

private theorem result_beginPass (s : Session υ σ) (snapshot : Snapshot)
    (before : Nat) (rest : List Snapshot) (ending : UpdateEnd) :
    (s.beginPass snapshot before rest ending).result = s.result := by
  by_cases hg : s.guard = .idle
  · rw [beginPass_idle hg]
    rfl
  · rw [beginPass_busy hg]
    rfl

theorem fire_keeps (frontend : Frontend υ (Workspace σ)) (s : Session υ σ) :
    (s.fire frontend).result = s.result ∧ (s.fire frontend).config = s.config ∧
      (s.fire frontend).closing = s.closing := by
  cases hu : s.unit with
  | none =>
      rw [fire_unmade frontend hu]
      exact ⟨rfl, rfl, rfl⟩
  | some unit =>
      by_cases hg : s.guard = .idle
      · rw [fire_idle frontend hg hu]
        exact ⟨rfl, rfl, rfl⟩
      · rw [fire_busy frontend hg]
        exact ⟨rfl, rfl, rfl⟩

variable [Storage σ] {frontend : Frontend υ (Workspace σ)}

theorem Worked.fixed (h : Worked frontend s t) :
    t.config = s.config ∧ t.closing = s.closing := by
  cases hr : s.activity.isRunning with
  | true =>
      obtain ⟨hinside, -⟩ := h.inside hr
      exact ⟨hinside.config, hinside.closing⟩
  | false =>
      obtain ⟨-, ⟨-, rfl⟩ | ⟨-, command, queue, -, rfl⟩⟩ := h.outside hr
      · exact (fire_keeps frontend s).2
      · exact ⟨rfl, rfl⟩

private theorem result_worked (h : s.result.completed = true)
    (hstep : Worked frontend s t) :
    t.result = s.result := by
  cases hstep with
  | fired hw hd => exact (fire_keeps frontend s).1
  | took hw hd hq => rfl
  | began ha => exact result_beginPass s _ _ _ _
  | ended ha => exact frame_result.finishUpdate s _ _ h
  | built ha => rfl
  | finished ha => exact frame_result.finishPass s _ _ h

end

section

variable {t : Trace υ σ} {answer : Except BuildError PassRecord}

theorem Delivered.received (h : Delivered answer t) :
    t.received = [] ∨ t.received = [answer] := by
  cases htaken : t.session.result.taken with
  | false => exact .inl (h.waiting htaken).2
  | true => exact .inr (h.taken htaken)

variable [Storage σ] {frontend : Frontend υ (Workspace σ)}

theorem Delivered.perform (h : Delivered answer t)
    (frontend : Frontend υ (Workspace σ)) (move : Move) :
    Delivered answer (t.perform frontend move) := by
  cases move with
  | work =>
      simp only [Trace.perform]
      split
      · exact h
      · rename_i s hwork
        exact h.same (result_worked h.completed (worked_of_work hwork)) rfl
  | wait time => exact h.same rfl rfl
  | notice path => exact h.same rfl rfl
  | poll => exact h.poll

theorem Delivered.run (h : Delivered answer t)
    (frontend : Frontend υ (Workspace σ)) (moves : List Move) :
    Delivered answer (t.run frontend moves) := by
  induction moves generalizing t with
  | nil => exact h
  | cons move moves ih => exact ih (h.perform frontend move)

end

/-! ## Until the first completion -/

section

variable {t : Trace υ σ}

inductive FirstPass (r : UpdateResult) (s : Session υ σ) : Prop
  | updating {before : Nat} (ha : s.activity =
      .updating before r.snapshots r.ending)
      (hp : s.passes = 0)
  | begun {record : PassRecord} {first : Snapshot} {rest : List Snapshot}
      {before : Nat}
      (ha : s.activity = .begun record first before rest r.ending)
      (hr : r.snapshots = first :: rest) (hrecord : FirstRecord record)
  | committed {record : PassRecord} {first : Snapshot} {rest : List Snapshot}
      {before version : Nat}
      (ha : s.activity = .committed record version before rest r.ending)
      (hr : r.snapshots = first :: rest) (hrecord : FirstRecord record)
      (hcomponents : record.components = first.components)

theorem FirstPass.running {r : UpdateResult} {s : Session υ σ}
    (h : FirstPass r s) :
    s.activity.isRunning = true := by
  cases h with
  | updating ha | begun ha | committed ha => rw [ha]; rfl

theorem FirstPass.same {r : UpdateResult} {s s' : Session υ σ}
    (h : FirstPass r s) (ha : s'.activity = s.activity)
    (hp : s'.passes = s.passes) : FirstPass r s' := by
  cases h with
  | updating ha' hp' => exact .updating (ha.trans ha') (hp.trans hp')
  | begun ha' hr hrecord => exact .begun (ha.trans ha') hr hrecord
  | committed ha' hr hrecord hcomponents =>
      exact .committed (ha.trans ha') hr hrecord hcomponents

/-- Nothing was completed: all updates were silent, up to the one that runs if
there is one. -/
inductive Unanswered (t : Trace υ σ) : Prop
  | outside (hr : t.session.activity.isRunning = false)
      (hp : t.session.passes = 0)
      (hsilent : ∀ r ∈ t.updates, r.IsSilent)
  | inside {silent : List UpdateResult} {r : UpdateResult}
      (hupdates : t.updates = silent ++ [r])
      (hsilent : ∀ r ∈ silent, r.IsSilent) (hfirst : FirstPass r t.session)

/-- What the owner of a session whose unit was made has received, or is to
receive. -/
inductive Answering (t : Trace υ σ) : Prop
  | awaiting (hresult : t.session.result = {})
      (hresolved : t.session.resolved = 0)
      (hreceived : t.received = []) (h : Unanswered t)
  | answered {answer : Except BuildError PassRecord} (h : Delivered answer t)
      (hfirst : FirstCompletion (.ok ()) t.updates answer)

/-- Only the activity, the passes, and what was completed and received matter. -/
theorem Answering.same (h : Answering t) {s : Session υ σ}
    (ha : s.activity = t.session.activity) (hp : s.passes = t.session.passes)
    (hresult : s.result = t.session.result)
    (hresolved : s.resolved = t.session.resolved) :
    Answering { t with session := s } := by
  cases h with
  | answered h hfirst => exact .answered (h.same hresult rfl) hfirst
  | awaiting hresult' hresolved' hreceived h =>
      refine .awaiting (hresult.trans hresult') (hresolved.trans hresolved')
        hreceived ?_
      cases h with
      | outside hr hp' hsilent =>
          refine .outside ?_ (hp.trans hp') hsilent
          rw [ha]
          exact hr
      | inside hupdates hsilent hfirst =>
          exact .inside hupdates hsilent (hfirst.same ha hp)

variable [Storage σ] {frontend : Frontend υ (Workspace σ)}

def Trace.next (frontend : Frontend υ (Workspace σ)) (t : Trace υ σ)
    (s : Session υ σ) :
    Trace υ σ :=
  { t with session := s, updates := t.updates ++
    (t.session.nextUpdate? frontend).toList }

theorem FirstPass.worked {r : UpdateResult} {s : Session υ σ}
    {silent : List UpdateResult} (h : FirstPass r t.session)
    (hwatching : t.session.Watching) (hopen : t.session.closing = false)
    (hresult : t.session.result = {}) (hresolved : t.session.resolved = 0)
    (hreceived : t.received = []) (hupdates : t.updates = silent ++ [r])
    (hsilent : ∀ r ∈ silent, r.IsSilent) (hstep : Worked frontend t.session s) :
    Answering { t with session := s } := by
  have hguard := hwatching.guard
  cases h with
  | @updating before ha hp =>
      rw [ha] at hguard
      cases hstep with
      | fired ha' | took ha' | built ha' | finished ha' => cases ha.symm.trans ha'
      | began ha' =>
          have hr := ha.symm.trans ha'
          rw [beginPass_idle hguard]
          injection hr with hbefore hr hending
          subst hbefore hending
          exact .awaiting hresult hresolved hreceived
            (.inside hupdates hsilent (.begun rfl hr (firstRecord_nextRecord hp)))
      | ended ha' =>
          have hr := ha.symm.trans ha'
          injection hr with hbefore hr hending
          subst hbefore hending
          rw [finishUpdate_watch hwatching.mode hguard]
          split
          · rename_i hdone
            refine .awaiting hresult hresolved hreceived (.outside rfl hp ?_)
            intro u hu
            rw [hupdates] at hu
            rcases List.mem_append.1 hu with hu | hu
            · exact hsilent u hu
            · rw [List.mem_singleton.1 hu]
              exact ⟨hr, hdone⟩
          · rename_i hfailed
            have hfresh :
                (t.session.emit (.error r.ending.cause.message)).result = {} :=
                  hresult
            rw [fault_watch hwatching.mode, if_pos hresolved,
              complete_fresh hfresh]
            refine .answered (.fresh rfl hreceived) ?_
            rw [hupdates]
            exact .failed hsilent hr hfailed
  | begun ha hr hrecord =>
      cases hstep with
      | fired ha' | took ha' | began ha' | ended ha' | finished ha' =>
          cases ha.symm.trans ha'
      | built ha' =>
          cases ha.symm.trans ha'
          exact .awaiting hresult hresolved hreceived (.inside hupdates hsilent
            (.committed rfl hr (hrecord.samePass (Pass.samePass_build _ _ _ _))
              (Pass.components_build _ _ _ _)))
  | @committed record first rest before version ha hr hrecord hcomponents =>
      cases hstep with
      | fired ha' | took ha' | began ha' | ended ha' | built ha' =>
          cases ha.symm.trans ha'
      | finished ha' =>
          cases ha.symm.trans ha'
          obtain ⟨hpass, hphase, hrebuild⟩ := hrecord.resolve t.session.clock
          have hfresh :
              (t.session.resolvedPass record).releaseToken.result = {} := hresult
          rw [finishPass_open hopen, hwatching.mode]
          dsimp only
          rw [if_pos hpass, complete_fresh hfresh]
          refine .answered (.fresh rfl hreceived) ?_
          rw [hupdates]
          exact .resolved hsilent hr hpass hphase hrebuild
            ((components_resolve record _).trans hcomponents)

theorem Answering.worked {s : Session υ σ} (h : Answering t)
    (hwatching : t.session.Watching) (hopen : t.session.closing = false)
    (hstep : Worked frontend t.session s) :
    Answering (t.next frontend s) := by
  cases h with
  | answered h hfirst =>
      exact .answered (h.same (result_worked h.completed hstep) rfl)
        (hfirst.append _)
  | awaiting hresult hresolved hreceived h =>
      cases h with
      | outside hr hp hsilent =>
          obtain ⟨hw, ⟨hd, rfl⟩ | ⟨hd, command, queue, -, rfl⟩⟩ :=
            hstep.outside hr
          · obtain ⟨unit, hu⟩ := Option.isSome_iff_exists.1 hwatching.unit
            have hguard := hwatching.guard
            rw [hw] at hguard
            have hnext := nextUpdate?_fire frontend hw hd hguard hu
            rw [Trace.next, hnext, fire_idle frontend hguard hu]
            exact .awaiting hresult hresolved hreceived
              (.inside rfl hsilent (.updating rfl hp))
          · have hnone : t.session.nextUpdate? frontend = none :=
              nextUpdate?_not_due hd
            rw [Trace.next, hnone, Option.toList_none, List.append_nil]
            refine .awaiting hresult hresolved hreceived (.outside ?_ hp hsilent)
            dsimp only
            split <;> rfl
      | inside hupdates hsilent hfirst =>
          rw [Trace.next, nextUpdate?_running hfirst.running,
            Option.toList_none, List.append_nil]
          exact hfirst.worked hwatching hopen hresult hresolved hreceived
            hupdates hsilent hstep

end

end Session

end ComponentBuild
