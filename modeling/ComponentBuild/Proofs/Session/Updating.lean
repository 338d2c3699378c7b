import ComponentBuild.Proofs.Session.Receipts

/-!
# The ledger follows the updates

When the timer fires, the unit reads what its update received, and the ledger
takes the same from the receipt.  All other steps leave the unit alone, so that
ledger and unit agree throughout a run.
-/

namespace ComponentBuild

open KeyOrder SortedMap Workspace ManifestUnit TimerCommand

namespace Session

variable {s t : Session ManifestUnit MemoryStore} {request : ProjectRequest}
    {l l' : Ledger}
  {owed : Path → Prop} {src p : Path} {r : Receipt}

private theorem record_done (l : Ledger) (h : r.result.ending = .done) :
    l.record src r =
      { known := some (received src l.known r.changed r.storage)
        lost :=
          if l.known.isNone || r.changed.isEmpty then []
          else l.lost.filter fun p => p ∉ relevant r.changed } := by
  simp [Ledger.record, h]

private theorem record_failed (l : Ledger) {e : BuildError}
    (h : r.result.ending = .failed e) :
    l.record src r = { l with lost := l.lost ++ relevant r.changed } := by
  simp [Ledger.record, h]

namespace Watched

private theorem clear (h : Watched request (fun _ => False) s l) :
    s.workspace.Clear request.srcDir.normalize :=
  ⟨h.manifests, h.pending, fun p hp hsrc => h.agrees p hp hsrc id⟩

/-! ## Where unit and storage differ -/

private theorem isManifestOf_relevant (h : Watched request owed s l)
    (hp : p ∈ relevant s.timer.changed.toList) :
    isManifestOf request.srcDir.normalize p = true := by
  obtain ⟨q, hq, hending, rfl⟩ := mem_relevant hp
  obtain ⟨hnormal, hbelow⟩ := h.noted q (.inl hq)
  rw [hnormal.normalize_eq, isManifestOf, hbelow hending, hending]
  rfl

private theorem get?_other (h : Watched request owed s l) (hp : p.IsNormal)
    (hother : isManifestOf request.srcDir.normalize p = false) :
    (s.workspace.storage.manifests request.srcDir.normalize).get? p = none := by
  rw [MemoryStore.get?_manifests h.manifests.normal _ hp, hother]
  rfl

private theorem isManifestOf_differ (h : Watched request owed s l)
    {files : FileMap} (hfiles : l.known = some files) (hp : p.IsNormal)
    (hdiffer : files.get? p ≠ (s.workspace.storage.manifests
      request.srcDir.normalize).get? p) :
    isManifestOf request.srcDir.normalize p = true := by
  cases hmanifest : isManifestOf request.srcDir.normalize p with
  | true => rfl
  | false =>
      rw [h.only files hfiles p hp hmanifest,
        h.get?_other hp hmanifest] at hdiffer
      exact absurd rfl hdiffer

private theorem mem_relevant_of_differ (h : Watched request owed s l)
    {files : FileMap} (hfiles : l.known = some files) (hp : p.IsNormal)
    (hdiffer : files.get? p ≠ (s.workspace.storage.manifests
      request.srcDir.normalize).get? p)
    (hchanged : p ∈ s.timer.changed.toList) :
    p ∈ relevant s.timer.changed.toList := by
  have hmanifest := h.isManifestOf_differ hfiles hp hdiffer
  rw [isManifestOf, Bool.and_eq_true] at hmanifest
  exact mem_relevant_of_mem hp hmanifest.2 hchanged

private theorem any_relevant_iff {changed : List Path} (hp : p.IsNormal) :
    (relevant changed).any (same · p) = true ↔ p ∈ relevant changed := by
  rw [List.any_eq_true]
  constructor
  · rintro ⟨q, hq, hsame⟩
    rwa [← (isNormal_of_mem_relevant hq).eq_of_same hp hsame]
  · exact fun hmem => ⟨p, hmem, same_refl p⟩

private theorem get?_received_other (h : Watched request owed s l)
    (hp : p.IsNormal) (hother : isManifestOf request.srcDir.normalize p = false) :
    (received request.srcDir.normalize l.known s.timer.changed.toList
      s.workspace.storage).get? p =
      none := by
  unfold received
  split
  · exact h.get?_other hp hother
  · rename_i files hfiles
    split
    · exact h.get?_other hp hother
    · rw [FileMap.get?_refresh, if_neg]
      · exact h.only files hfiles p hp hother
      · rw [any_relevant_iff hp]
        intro hmem
        rw [h.isManifestOf_relevant hmem] at hother
        cases hother

/-- A scan leaves no difference to storage, and another update none at the paths
that it reads. -/
theorem differ_of_received (h : Watched request (fun _ => False) s l)
    (hp : p.IsNormal)
    (hdiffer : (received request.srcDir.normalize l.known s.timer.changed.toList
      s.workspace.storage).get? p ≠
        (s.workspace.storage.manifests request.srcDir.normalize).get? p) :
    (l.known.isNone || s.timer.changed.toList.isEmpty) = false ∧
      p ∉ relevant s.timer.changed.toList ∧ (p ∈ l.lost ∨ .note p ∈ s.queue) := by
  unfold received at hdiffer
  split at hdiffer
  · exact absurd rfl hdiffer
  · rename_i files hfiles
    split at hdiffer
    · exact absurd rfl hdiffer
    · rename_i hpart
      have hunread : p ∉ relevant s.timer.changed.toList := by
        intro hmem
        refine hdiffer ?_
        rw [FileMap.get?_refresh, if_pos ((any_relevant_iff hp).2 hmem),
          MemoryStore.get?_manifests h.manifests.normal _ hp,
          h.isManifestOf_relevant hmem, if_pos rfl]
      have hold : files.get? p ≠
          (s.workspace.storage.manifests request.srcDir.normalize).get? p := by
        rwa [FileMap.get?_refresh,
          if_neg (mt (any_relevant_iff hp).1 hunread)] at hdiffer
      refine ⟨by simp [hfiles, Bool.eq_false_iff.2 hpart], hunread, ?_⟩
      rcases h.known files hfiles p hp id hold with hlost | hchanged | hnote
      · exact .inl hlost
      · exact absurd (h.mem_relevant_of_differ hfiles hp hold hchanged) hunread
      · exact .inr hnote

/-! ## Firing -/

private theorem updated (h : Watched request (fun _ => False) s l)
    (hqueue : t.queue = s.queue) (hchanged : t.timer.changed = ∅)
    (hread : ReadFrom s.workspace t.workspace)
    (hunit : ∃ unit, t.unit = some unit ∧ unit.Knows request l'.known)
    (honly : ∀ files, l'.known = some files → ∀ p : Path,
      p.IsNormal → isManifestOf request.srcDir.normalize p = false →
      files.get? p = none)
    (hknown : ∀ files, l'.known = some files → ∀ p : Path,
      p.IsNormal → files.get? p ≠
        (s.workspace.storage.manifests request.srcDir.normalize).get? p →
        p ∈ l'.lost ∨ .note p ∈ s.queue) :
    Watched request (fun _ => False) t l' where
  unit := hunit
  pending := hread.pending.trans h.pending
  closed := hread.storage ▸ h.closed
  manifests := hread.storage ▸ h.manifests
  agrees p hp hsrc _ := (hread.settled p).agrees (h.agrees p hp hsrc id)
  noted p hp := by
    rw [hqueue, hchanged] at hp
    exact h.noted p (.inr (hp.resolve_left List.not_mem_nil))
  only := honly
  known files hfiles p hp _ hdiffer := by
    rw [hread.storage] at hdiffer
    rw [hqueue, hchanged]
    exact (hknown files hfiles p hp hdiffer).imp_right .inr

theorem failed {e : BuildError} (h : Watched request (fun _ => False) s l)
    (hr : r.result.ending = .failed e)
    (hpaths : r.changed = s.timer.changed.toList) (hqueue : t.queue = s.queue)
    (hchanged : t.timer.changed = ∅) (hread : ReadFrom s.workspace t.workspace)
    (hunit : t.unit = s.unit) :
    Watched request (fun _ => False) t (l.record request.srcDir.normalize r) := by
  rw [record_failed l hr, hpaths]
  refine h.updated hqueue hchanged hread (by rw [hunit]; exact h.unit) h.only ?_
  intro files hfiles p hp hdiffer
  rcases h.known files hfiles p hp id hdiffer with hlost | hmem | hnote
  · exact .inl (List.mem_append_left _ hlost)
  · exact .inl (List.mem_append_right _
      (h.mem_relevant_of_differ hfiles hp hdiffer hmem))
  · exact .inr hnote

theorem succeeded (h : Watched request (fun _ => False) s l)
    (hr : r.result.ending = .done) (hpaths : r.changed = s.timer.changed.toList)
    (hstorage : r.storage = s.workspace.storage) (hqueue : t.queue = s.queue)
    (hchanged : t.timer.changed = ∅) (hread : ReadFrom s.workspace t.workspace)
    (hunit : ∃ unit, t.unit = some unit ∧
      unit.Knows request (some
        (received request.srcDir.normalize l.known r.changed r.storage))) :
    Watched request (fun _ => False) t (l.record request.srcDir.normalize r) := by
  rw [record_done l hr]
  refine h.updated hqueue hchanged hread hunit ?_ ?_
  · rintro files ⟨⟩ p hp hother
    rw [hpaths, hstorage]
    exact h.get?_received_other hp hother
  · rintro files ⟨⟩ p hp hdiffer
    rw [hpaths, hstorage] at hdiffer
    obtain ⟨hpart, hunread, hmissed⟩ := h.differ_of_received hp hdiffer
    refine hmissed.imp_left fun hlost => ?_
    have hkeep :
        (fun q => decide (q ∉ relevant s.timer.changed.toList)) p = true :=
      decide_eq_true hunread
    simp only [hpaths, hpart]
    exact List.mem_filter.2 ⟨hlost, hkeep⟩

end Watched

/-- What an update reports, if anything, shows what the unit has read by then. -/
def Receipt.Faithful (request : ProjectRequest) (l : Ledger) (r : Receipt) :
    Prop :=
  ∀ snapshot ∈ r.result.snapshots, ∃ files,
    (l.record request.srcDir.normalize r).known = some files ∧
      snapshot.SameContent (ManifestUnit.report request files)

def receiptOf (s : Session ManifestUnit MemoryStore) (unit : ManifestUnit) :
    Receipt where
  changed := s.timer.changed.toList
  waiting := notedPaths s.queue
  storage := s.workspace.storage
  result := (unit.update s.timer.changed.toList s.workspace).1

theorem receipt?_idle {unit : ManifestUnit} (hw : s.activity = .waiting)
    (hd : s.timer.isDue s.clock = true) (hg : s.guard = .idle)
    (hu : s.unit = some unit) :
    s.receipt? .work = some (s.receiptOf unit) := by
  simp only [receipt?, nextUpdate?, hw, hd, hg, hu, and_self, if_true,
    Option.map_some]
  rfl

theorem receipt?_none (h : s.nextUpdate? frontend = none) :
    s.receipt? .work = none := by
  rw [receipt?, h]
  rfl

theorem Watched.fire_idle (h : Watched request (fun _ => False) s l)
    (hroot : request.srcDir.normalize.parts ≠ []) (hg : s.guard = .idle)
    {unit : ManifestUnit} (hu : s.unit = some unit) :
    Watched request (fun _ => False) (s.fire frontend)
        (l.record request.srcDir.normalize (s.receiptOf unit)) ∧
      (s.receiptOf unit).Faithful request l := by
  obtain ⟨unit', hu', hknows⟩ := h.unit
  obtain rfl : unit = unit' := by rwa [hu, Option.some.injEq] at hu'
  have hfire := Session.fire_idle frontend hg hu
  have hread : ReadFrom s.workspace (s.fire frontend).workspace := by
    rw [hfire]
    exact readFrom_update unit _ s.workspace
  have hunit : (s.fire frontend).unit =
      some (unit.update s.timer.changed.toList s.workspace).2.1 := by
    rw [hfire]
    rfl
  have hchanged : (s.fire frontend).timer.changed = ∅ := by
    rw [hfire]
    rfl
  rcases hknows.update rfl h.clear h.closed hroot fun p hp =>
    h.isManifestOf_relevant hp with
    ⟨e, -, hresult, hsame⟩ | ⟨-, hnext, hresult⟩
  · have hending : (s.receiptOf unit).result = { ending := .failed e } := hresult
    refine ⟨h.failed (e := e) (by rw [hending]) rfl (queue_fire _ s)
      hchanged hread ?_, ?_⟩
    · rw [hunit, hsame, hu]
    · intro snapshot hmem
      rw [hending] at hmem
      cases hmem
  · have hending : (s.receiptOf unit).result.ending = .done := by
      rcases hresult with ⟨hsilent, -⟩ | ⟨snapshot, hone, -⟩
      · exact congrArg UpdateResult.ending hsilent
      · exact congrArg UpdateResult.ending hone
    refine ⟨h.succeeded hending rfl rfl (queue_fire _ s) hchanged hread ⟨_,
      hunit, hnext⟩, ?_⟩
    intro snapshot hmem
    rw [record_done l hending]
    refine ⟨_, rfl, ?_⟩
    rcases hresult with ⟨hsilent, -⟩ | ⟨only, hone, hcontent⟩
    · simp [receiptOf, hsilent] at hmem
    · simp only [receiptOf, hone, List.mem_singleton] at hmem
      rw [hmem]
      exact hcontent

theorem Watched.fire_busy (h : Watched request owed s l) (hg : s.guard ≠ .idle) :
    Watched request owed (s.fire frontend) l := by
  rw [Session.fire_busy frontend hg]
  exact { h with }

/-! ## One deed -/

theorem Watched.built (h : Watched request owed s l) {record : PassRecord}
    {snapshot : Snapshot} {activity : Activity}
    (hmanifests : (s.built record snapshot
      activity).workspace.storage.ManifestsReadable request.srcDir.normalize) :
    Watched request
      (fun p => owed p ∨ Altered request.srcDir.normalize s
        (s.built record snapshot activity) p)
      (s.built record snapshot activity) l := by
  refine h.workspace hmanifests rfl (fun p => Iff.rfl)
    (Pass.pending_build _ _ _ _) ?_ fun p _ => ?_
  · exact Pass.workspace_build (P := fun w : Workspace MemoryStore =>
      w.storage.Closed)
      (fun w call hcall hw => keeps_perform MemoryStore.keeps_closed hcall hw)
        _ _ _ h.closed
  · exact Pass.workspace_build (P := fun w : Workspace MemoryStore =>
      SettledAt s.workspace w p)
      (fun w call hcall hw => hw.trans (settledAt_perform w hcall p)) _ _
        _ (.refl _ _ p)

structure Receipt.Sound (request : ProjectRequest) (l : Ledger) (r : Receipt) :
    Prop where
  faithful : r.Faithful request l
  manifests : r.storage.ManifestsReadable request.srcDir.normalize
  closed : r.storage.Closed
  normal : ∀ files, (l.record request.srcDir.normalize r).known = some files →
    files.IsNormal
  missed : ∀ files, (l.record request.srcDir.normalize r).known = some files →
    ∀ p : Path, p.IsNormal →
      files.get? p ≠ (r.storage.manifests request.srcDir.normalize).get? p →
        isManifestOf request.srcDir.normalize p = true ∧
          (p ∈ (l.record request.srcDir.normalize r).lost ∨ p ∈ r.waiting)

theorem Watched.sound_receiptOf (h : Watched request (fun _ => False) s l)
    (hroot : request.srcDir.normalize.parts ≠ []) (hg : s.guard = .idle)
    {unit : ManifestUnit} (hu : s.unit = some unit) :
    (s.receiptOf unit).Sound request l := by
  obtain ⟨hnext, hfaithful⟩ := h.fire_idle hroot hg hu
  have hstorage : (s.fire frontend).workspace.storage = s.workspace.storage := by
    rw [Session.fire_idle frontend hg hu]
    exact (readFrom_update unit _ s.workspace).storage
  have hchanged : (s.fire frontend).timer.changed = ∅ := by
    rw [Session.fire_idle frontend hg hu]
    rfl
  refine ⟨hfaithful, h.manifests, h.closed, fun files hfiles => ?_,
    fun files hfiles p hp hdiffer => ?_⟩
  · obtain ⟨_, -, hknows⟩ := hnext.unit
    exact (hknows.texts files hfiles).1
  · have hdiffer' : files.get? p ≠
        ((s.fire frontend).workspace.storage.manifests
          request.srcDir.normalize).get? p := by
      rwa [hstorage]
    refine ⟨hnext.isManifestOf_differ hfiles hp hdiffer', ?_⟩
    have hmissed := hnext.known files hfiles p hp id hdiffer'
    rw [hchanged, queue_fire] at hmissed
    exact hmissed.imp_right fun hnote =>
      mem_notedPaths.2 (hnote.resolve_left List.not_mem_nil)

theorem gone_perform (h : s.unit = none) (deed : Deed) :
    (s.perform deed).unit = none ∧ s.receipt? deed = none := by
  cases deed with
  | wait time => exact ⟨h, rfl⟩
  | edit e => exact ⟨h, rfl⟩
  | work =>
      refine ⟨?_, by simp [receipt?, nextUpdate?, h]⟩
      rw [perform]
      cases hwork : s.work frontend with
      | none => exact h
      | some t =>
          show t.unit = none
          have hstep := worked_of_work hwork
          cases hr : s.activity.isRunning with
          | true =>
              rcases hstep.sameWorkspace hr with hsame | ⟨_, _, _, rfl⟩
              · rcases hsame.unit with hunit | hunit
                · rw [hunit, h]
                · exact hunit
              · exact h
          | false =>
              obtain ⟨-, ⟨-, rfl⟩ | ⟨-, _, _, -, rfl⟩⟩ := hstep.outside hr
              · rw [fire]
                split <;> simp [h]
              · exact h

theorem Watched.perform_work (h : Watched request owed s l)
    (hroot : request.srcDir.normalize.parts ≠ [])
    (hmanifests : (s.perform .work).workspace.storage.ManifestsReadable
      request.srcDir.normalize)
    (hpaid : s.receipt? .work ≠ none → ∀ p : Path, p.IsNormal → ¬ owed p) :
    ((s.perform .work).unit = none ∧ s.receipt? .work = none) ∨
      Watched request (fun p => owed p ∨
        Altered request.srcDir.normalize s (s.perform .work) p)
          (s.perform .work)
          ((s.receipt? .work).toList.foldl
            (Ledger.record request.srcDir.normalize) l) ∧
        ∀ r ∈ s.receipt? .work, r.Sound request l := by
  -- All steps but one: only a fire that finds the guard idle leaves a receipt.
  have hsilent {t : Session ManifestUnit MemoryStore}
      (hnext : s.nextUpdate? frontend = none)
      (ht : Watched request (fun p => owed p ∨
        Altered request.srcDir.normalize s t p) t l) :
      Watched request (fun p => owed p ∨ Altered request.srcDir.normalize s t p) t
          ((s.receipt? .work).toList.foldl
            (Ledger.record request.srcDir.normalize) l) ∧
        ∀ r ∈ s.receipt? .work, r.Sound request l := by
    rw [receipt?_none hnext]
    exact ⟨ht, by simp⟩
  unfold perform at hmanifests ⊢
  cases hwork : s.work frontend with
  | none =>
      have hnext : s.nextUpdate? frontend = none := by
        rcases work_eq_none_iff.1 hwork with hstopped | ⟨-, hd, -⟩
        · exact nextUpdate?_eq_none fun hw => by simp [hstopped] at hw
        · exact nextUpdate?_eq_none fun _ hdue => by simp [hd] at hdue
      exact .inr (hsilent hnext (h.mono fun _ _ => .inl))
  | some t =>
      rw [hwork] at hmanifests
      simp only [Option.getD_some] at hmanifests ⊢
      have hstep := worked_of_work hwork
      cases hr : s.activity.isRunning with
      | true =>
          have hnext : s.nextUpdate? frontend = none := nextUpdate?_running hr
          rcases hstep.sameWorkspace hr with hsame | ⟨_, _, _, rfl⟩
          · rcases h.inside (hstep.inside hr).1 hsame with hgone | ht
            · exact .inl ⟨hgone, receipt?_none hnext⟩
            · exact .inr (hsilent hnext ht)
          · exact .inr (hsilent hnext (h.built hmanifests))
      | false =>
          obtain ⟨hw, ⟨hd, rfl⟩ | ⟨hd, command, queue, hq, rfl⟩⟩ :=
            hstep.outside hr
          · by_cases hg : s.guard = .idle
            · obtain ⟨unit, hu, -⟩ := h.unit
              have hreceipt := receipt?_idle hw hd hg hu
              have hall := h.mono (hpaid (by simp [hreceipt]))
              rw [hreceipt]
              refine .inr ⟨(hall.fire_idle hroot hg hu).1.mono fun _ _ hnone =>
                hnone.elim, ?_⟩
              rintro r ⟨⟩
              exact hall.sound_receiptOf hroot hg hu
            · have hnext : s.nextUpdate? frontend = none :=
                nextUpdate?_eq_none fun _ _ => hg
              exact .inr (hsilent hnext ((h.fire_busy hg).mono fun _ _ => .inl))
          · have hnext : s.nextUpdate? frontend = none :=
              nextUpdate?_eq_none fun _ hdue => by simp [hd] at hdue
            exact .inr (hsilent hnext ((h.took hq).mono fun _ _ => .inl))

theorem Watched.perform (h : Watched request owed s l)
    (hroot : request.srcDir.normalize.parts ≠ []) (deed : Deed)
    (hmanifests : (s.perform deed).workspace.storage.ManifestsReadable
      request.srcDir.normalize)
    (hpaid : s.receipt? deed ≠ none → ∀ p : Path, p.IsNormal → ¬ owed p) :
    ((s.perform deed).unit = none ∧ s.receipt? deed = none) ∨
      Watched request (fun p => owed p ∨
        Altered request.srcDir.normalize s (s.perform deed) p)
          (s.perform deed)
          ((s.receipt? deed).toList.foldl
            (Ledger.record request.srcDir.normalize) l) ∧
        ∀ r ∈ s.receipt? deed, r.Sound request l := by
  cases deed with
  | work => exact h.perform_work hroot hmanifests hpaid
  | wait time =>
      have hwaited :
          Watched request owed { s with clock := s.clock + time } l := { h with }
      exact .inr ⟨hwaited.mono fun _ _ => .inl, by simp [receipt?]⟩
  | edit e =>
      refine .inr ⟨h.workspace hmanifests rfl (fun p => Iff.rfl) h.pending
        (h.closed.edit e) ?_, by simp [receipt?]⟩
      -- An edit leaves the cache alone, so an entry can only disagree where the
      -- file is another.
      exact fun p hfile => .inl ⟨rfl, hfile⟩

end Session

end ComponentBuild
