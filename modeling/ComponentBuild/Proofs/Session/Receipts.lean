import ComponentBuild.Proofs.Frontend.Updates
import ComponentBuild.Proofs.Pass.Build
import ComponentBuild.Proofs.Scheduler.Queue
import ComponentBuild.Proofs.Session.Trace

/-!
# What the updates of a session receive

A session updates a unit of manifests while storage is edited and the changes
are noted.  Each update is put down with what it was handed and what storage
had.  From these receipts alone follows what the unit has read: all manifests at
its last scan, and since then the paths that were handed to updates that did not
fail.  A path that an update received in vain is lost until it is handed out
again.
-/

namespace ComponentBuild

open KeyOrder SortedMap Workspace ManifestUnit TimerCommand

namespace Session

/-! ## Runs -/

inductive Deed where
  | work
  | wait (time : Nat)
  | edit (e : Edit)
  deriving DecidableEq, Repr

structure Turn where
  deed : Deed
  noted : List Path := []
  deriving DecidableEq, Repr

structure Receipt where
  changed : List Path
  /-- Noted, but still in the queue. -/
  waiting : List Path
  storage : MemoryStore
  result : UpdateResult

structure Ledger where
  /-- The manifests as the unit has read them; none before its first scan. -/
  known : Option FileMap := none
  lost : List Path := []

def Ledger.record (src : Path) (l : Ledger) (r : Receipt) : Ledger :=
  match r.result.ending with
  | .done =>
      { known := some (received src l.known r.changed r.storage)
        lost :=
          if l.known.isNone || r.changed.isEmpty then []
          else l.lost.filter fun p => p ∉ relevant r.changed }
  | _ => { l with lost := l.lost ++ relevant r.changed }

variable {s t : Session ManifestUnit MemoryStore}

def perform (s : Session ManifestUnit MemoryStore) :
    Deed → Session ManifestUnit MemoryStore
  | .work => (s.work frontend).getD s
  | .wait time => { s with clock := s.clock + time }
  | .edit e =>
      { s with workspace := { s.workspace
        with storage := s.workspace.storage.edit e } }

def noticeAll (s : Session ManifestUnit MemoryStore) (paths : List Path) :
    Session ManifestUnit MemoryStore :=
  paths.foldl notice s

def turn (s : Session ManifestUnit MemoryStore) (t : Turn) :
    Session ManifestUnit MemoryStore :=
  (s.perform t.deed).noticeAll t.noted

def receipt? (s : Session ManifestUnit MemoryStore) : Deed → Option Receipt
  | .work => (s.nextUpdate? frontend).map fun result =>
      { changed := s.timer.changed.toList
        waiting := notedPaths s.queue
        storage := s.workspace.storage
        result }
  | _ => none

def receipts (s : Session ManifestUnit MemoryStore) : List Turn → List Receipt
  | [] => []
  | t :: rest => (s.receipt? t.deed).toList ++ (s.turn t).receipts rest

/-! ## Steps that leave unit and workspace alone -/

section

variable {υ σ : Type} {s t u : Session υ σ}

/-- The workspace is the same, and the unit is the same or gone. -/
structure SameWorkspace (s t : Session υ σ) : Prop where
  workspace : t.workspace = s.workspace
  unit : t.unit = s.unit ∨ t.unit = none

namespace SameWorkspace

theorem of_eq (hworkspace : t.workspace = s.workspace) (hunit : t.unit = s.unit) :
    SameWorkspace s t :=
  ⟨hworkspace, .inl hunit⟩

private theorem trans (h : SameWorkspace s t) (h' : SameWorkspace t u) :
    SameWorkspace s u where
  workspace := h'.workspace.trans h.workspace
  unit := by
    rcases h'.unit with hunit | hunit
    · rw [hunit]
      exact h.unit
    · exact .inr hunit

theorem with_activity (h : SameWorkspace s t) (activity : Activity) :
    SameWorkspace s { t with activity } :=
  ⟨h.workspace, h.unit⟩

theorem frame : Frame (SameWorkspace (υ := υ) (σ := σ)) where
  refl _ := of_eq rfl rfl
  trans := trans
  carryOut s task hends := by
    cases task with
    | complete pass result =>
        rw [Session.carryOut, complete_eq]
        split <;> exact of_eq rfl rfl
    | closeUnit =>
        rw [Session.carryOut, closeUnit]
        split
        · exact ⟨rfl, .inr rfl⟩
        · exact of_eq rfl rfl
    | _ => exact of_eq rfl rfl

theorem beginPass (s : Session υ σ) (snapshot : Snapshot) (before : Nat)
    (rest : List Snapshot) (ending : UpdateEnd) :
    SameWorkspace s (s.beginPass snapshot before rest ending) := by
  obtain ⟨event, guard, passes, activity, heq, -⟩ :=
    exists_beginPass s snapshot before rest ending
  rw [heq]
  exact of_eq rfl rfl

end SameWorkspace

def built [Storage σ] (s : Session υ σ) (record : PassRecord)
    (snapshot : Snapshot) (activity : Activity) : Session υ σ :=
  { { s with workspace := (Pass.build s.config s.workspace record
    snapshot).workspace }.emitAll
      (Pass.build s.config s.workspace record snapshot).events with activity }

/-- Inside an update only the pass itself touches the workspace. -/
theorem Worked.sameWorkspace [Storage σ] {frontend : Frontend υ (Workspace σ)}
    (h : Worked frontend s t) (hr : s.activity.isRunning = true) :
    SameWorkspace s t ∨ ∃ record snapshot activity,
      t = s.built record snapshot activity := by
  cases h with
  | fired hw hd => simp [hw, Activity.isRunning] at hr
  | took hw hd hq => simp [hw, Activity.isRunning] at hr
  | began ha => exact .inl (.beginPass _ _ _ _ _)
  | ended ha =>
      exact .inl ((SameWorkspace.frame.finishUpdate _ _ _).with_activity _)
  | built ha => exact .inr ⟨_, _, _, rfl⟩
  | finished ha =>
      exact .inl ((SameWorkspace.frame.finishPass _ _ _).with_activity _)

end

/-! ## What holds between two turns -/

/-- The unit has read what the ledger says.  Apart from the paths that are still
owed a note, the cache hides no manifest, and each one that the unit has not
read as it is was lost or is noted. -/
structure Watched (request : ProjectRequest) (owed : Path → Prop)
    (s : Session ManifestUnit MemoryStore) (l : Ledger) : Prop where
  unit : ∃ unit, s.unit = some unit ∧ unit.Knows request l.known
  pending : s.workspace.pending = ∅
  closed : s.workspace.storage.Closed
  manifests : s.workspace.storage.ManifestsReadable request.srcDir.normalize
  agrees :
    ∀ p : Path, p.IsNormal → isManifestOf request.srcDir.normalize p = true →
    ¬ owed p →
    AgreesAt s.workspace.cache s.workspace.storage.files p
  noted : ∀ p : Path, p ∈ s.timer.changed.toList ∨ .note p ∈ s.queue →
    p.IsNormal ∧ (p.endsWith manifestEnding = true →
      p.isWithin request.srcDir.normalize = true)
  only : ∀ files, l.known = some files → ∀ p : Path, p.IsNormal →
    isManifestOf request.srcDir.normalize p = false → files.get? p = none
  known : ∀ files, l.known = some files → ∀ p : Path, p.IsNormal → ¬ owed p →
    files.get? p ≠ (s.workspace.storage.manifests request.srcDir.normalize).get?
      p →
      p ∈ l.lost ∨ p ∈ s.timer.changed.toList ∨ .note p ∈ s.queue

variable {request : ProjectRequest} {l : Ledger} {owed : Path → Prop}

def Altered (src : Path) (s t : Session ManifestUnit MemoryStore) (p : Path) :
    Prop :=
  (t.workspace.storage.manifests src).get? p ≠
    (s.workspace.storage.manifests src).get? p

/-! ## Notes -/

theorem Watched.notice (h : Watched request owed s l) {q : Path}
    (hq : q.normalize.endsWith manifestEnding = true →
      q.normalize.isWithin request.srcDir.normalize = true) :
    Watched request (fun p => owed p ∧ p ≠ q.normalize) (s.notice q) l := by
  have hnormal : q.normalize.IsNormal := q.isNormal_normalize
  have hqueue (p : Path) : .note p ∈ (s.notice q).queue ↔
      .note p ∈ s.queue ∨ p = q.normalize := by
    simp [Session.notice, send, emit]
  have hcache :
      (s.notice q).workspace.cache = s.workspace.cache.erase q.normalize :=
    congrArg s.workspace.cache.erase hnormal.normalize_eq
  constructor
  case unit => exact h.unit
  case pending => exact h.pending
  case closed => exact h.closed
  case manifests => exact h.manifests
  case only => exact h.only
  case agrees =>
    intro p hp hsrc howed
    rw [hcache]
    by_cases heq : p = q.normalize
    · exact .of_none (by rw [get?_erase, heq, if_pos (same_refl _)])
    · have hkept : ¬ owed p := fun hold => howed ⟨hold, heq⟩
      exact (Settled.erase_cache _ _ q.normalize p).agrees
        (h.agrees p hp hsrc hkept)
  case noted =>
    intro p hp
    rw [hqueue, ← or_assoc] at hp
    rcases hp with hp | rfl
    · exact h.noted p hp
    · exact ⟨hnormal, hq⟩
  case known =>
    intro files hfiles p hp howed hdiffer
    rw [hqueue]
    by_cases heq : p = q.normalize
    · exact .inr (.inr (.inr heq))
    · have hkept : ¬ owed p := fun hold => howed ⟨hold, heq⟩
      rcases h.known files hfiles p hp hkept hdiffer with hlost | hchanged | hnote
      · exact .inl hlost
      · exact .inr (.inl hchanged)
      · exact .inr (.inr (.inl hnote))

theorem Watched.mono {owed' : Path → Prop} (h : Watched request owed s l)
    (howed : ∀ p : Path, p.IsNormal → owed p → owed' p) :
    Watched request owed' s l where
  unit := h.unit
  pending := h.pending
  closed := h.closed
  manifests := h.manifests
  agrees p hp hsrc hkept := h.agrees p hp hsrc (mt (howed p hp) hkept)
  noted := h.noted
  only := h.only
  known files hfiles p hp hkept :=
    h.known files hfiles p hp (mt (howed p hp) hkept)

theorem Watched.noticeAll (h : Watched request owed s l) {noted : List Path}
    (hbelow : ∀ q ∈ noted, q.normalize.endsWith manifestEnding = true →
      q.normalize.isWithin request.srcDir.normalize = true) :
    Watched request (fun p => owed p ∧ p ∉ noted.map Path.normalize)
      (s.noticeAll noted) l := by
  induction noted generalizing s owed with
  | nil => exact h.mono fun p _ hold => ⟨hold, List.not_mem_nil⟩
  | cons q rest ih =>
      obtain ⟨hq, hrest⟩ := List.forall_mem_cons.1 hbelow
      refine (ih (h.notice hq) hrest).mono fun p _ hold => ⟨hold.1.1, ?_⟩
      -- The first note settles what is owed for its path, the others what is
      -- owed for theirs.
      rw [List.map_cons, List.mem_cons, not_or]
      exact ⟨hold.1.2, hold.2⟩

/-! ## Deeds -/

private theorem unaltered_iff {p : Path}
    (hs : s.workspace.storage.ManifestsReadable request.srcDir.normalize)
    (ht : t.workspace.storage.ManifestsReadable request.srcDir.normalize)
    (hp : p.IsNormal) (hsrc : isManifestOf request.srcDir.normalize p = true) :
    ¬ Altered request.srcDir.normalize s t p ↔
      t.workspace.storage.files.get? p = s.workspace.storage.files.get? p := by
  rw [Altered, Decidable.not_not, MemoryStore.get?_manifests hs.normal _ hp,
    MemoryStore.get?_manifests ht.normal _ hp, if_pos hsrc, if_pos hsrc]

theorem Watched.workspace (h : Watched request owed s l)
    (hmanifests : t.workspace.storage.ManifestsReadable request.srcDir.normalize)
    (hunit : t.unit = s.unit)
    (hnotes : ∀ p, p ∈ t.timer.changed.toList ∨ .note p ∈ t.queue ↔
      p ∈ s.timer.changed.toList ∨ .note p ∈ s.queue)
    (hpending : t.workspace.pending = ∅) (hclosed : t.workspace.storage.Closed)
    (hsettled : ∀ p, t.workspace.storage.files.get? p =
      s.workspace.storage.files.get? p → SettledAt s.workspace t.workspace p) :
    Watched request (fun p => owed p ∨
      Altered request.srcDir.normalize s t p) t l := by
  constructor
  case unit => rw [hunit]; exact h.unit
  case pending => exact hpending
  case closed => exact hclosed
  case manifests => exact hmanifests
  case only => exact h.only
  case agrees =>
    intro p hp hsrc hkept
    obtain ⟨hpaid, hsame⟩ := not_or.1 hkept
    rw [unaltered_iff h.manifests hmanifests hp hsrc] at hsame
    exact (hsettled p hsame).agrees (h.agrees p hp hsrc hpaid)
  case noted =>
    intro p hp
    rw [hnotes] at hp
    exact h.noted p hp
  case known =>
    intro files hfiles p hp hkept hdiffer
    obtain ⟨hpaid, hsame⟩ := not_or.1 hkept
    rw [Decidable.not_not.1 hsame] at hdiffer
    rw [hnotes]
    exact h.known files hfiles p hp hpaid hdiffer

theorem Watched.inside (h : Watched request owed s l) (hinside : Inside s t)
    (hsame : SameWorkspace s t) :
    t.unit = none ∨ Watched request (fun p => owed p ∨
      Altered request.srcDir.normalize s t p) t l := by
  obtain ⟨cancels, hqueue, hcancel, -⟩ := hinside.queue
  rcases hsame.unit with hunit | hunit
  · have hstorage := congrArg Workspace.storage hsame.workspace
    refine .inr (h.workspace (hstorage ▸ h.manifests) hunit (fun p => ?_) ?_
      (hstorage ▸ h.closed) ?_)
    · have hnone : .note p ∉ cancels := by
        intro hmem
        cases hcancel _ hmem
      simp [hinside.timer, hqueue, hnone]
    · rw [hsame.workspace]
      exact h.pending
    · intro p _
      rw [hsame.workspace]
      exact .refl _ _ p
  · exact .inl hunit

theorem Watched.took {command : TimerCommand} {queue : List TimerCommand}
    {activity : Activity} (h : Watched request owed s l)
    (hq : s.queue = command :: queue) :
    Watched request owed
      { s with queue, timer := s.timer.take s.clock command, activity } l := by
  have hnotes (p : Path) :
      p ∈ (s.timer.take s.clock command).changed.toList ∨ .note p ∈ queue ↔
      p ∈ s.timer.changed.toList ∨ .note p ∈ s.queue := by
    rw [hq, List.mem_cons]
    cases command with
    | note q =>
        have hnormal (q : Path) (hmem : q ∈ s.timer.changed.toList) :
            q.IsNormal :=
          (h.noted q (.inl hmem)).1
        have hq' : q.IsNormal :=
          (h.noted q (.inr (by rw [hq]; exact List.mem_cons_self))).1
        have hadd : p ∈ (s.timer.take s.clock (.note q)).changed.toList ↔
            p ∈ s.timer.changed.toList ∨ p = q :=
          SortedSet.mem_toList_add (fun _ _ ha hb => ha.eq_of_same hb) hnormal hq'
        rw [hadd, or_assoc, TimerCommand.note.injEq]
    | arm delay => simp [Debouncer.take]
    | cancel => simp [Debouncer.take]
    | shutdown => simp [Debouncer.take]
  have hnext : Watched request _
      { s with queue, timer := s.timer.take s.clock command, activity } l :=
    h.workspace h.manifests rfl hnotes h.pending h.closed fun p _ => .refl _ _ p
  exact hnext.mono fun p _ hold => hold.resolve_right fun haltered => haltered rfl

end Session

end ComponentBuild
