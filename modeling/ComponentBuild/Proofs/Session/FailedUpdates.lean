import ComponentBuild.Proofs.Session.Updating
import ComponentBuild.Session.Build

/-!
# Snapshots after updates that failed

The timer hands its paths out before the update looks at the project file, and
an update that fails there has read none of them.  Nobody keeps the paths, and
so a change can stay unread until its path is handed out once more or the unit
scans again.
-/

namespace ComponentBuild

open KeyOrder SortedMap Workspace ManifestUnit

def Snapshot.Agrees (s t : Snapshot) : Prop :=
  s.components = t.components ∧ s.diagnostics = t.diagnostics

theorem Snapshot.SameContent.agrees_iff {s s' t t' : Snapshot}
    (hs : s.SameContent s') (ht : t.SameContent t') :
    s.Agrees t ↔ s'.Agrees t' := by
  rw [Snapshot.Agrees, hs.components, hs.diagnostics, ht.components,
    ht.diagnostics]
  exact Iff.rfl

def ManifestUnit.rescan (request : ProjectRequest) (s : MemoryStore) : Snapshot :=
  let (diagnostics, u, _) :=
    ({ request } : ManifestUnit).scan (Workspace.ofStorage s)
  (u.snapshot diagnostics).1

theorem ManifestUnit.sameContent_rescan {request : ProjectRequest}
    {s : MemoryStore} (h : s.ManifestsReadable request.srcDir.normalize)
    (hclosed : s.Closed) (hroot : request.srcDir.normalize.parts ≠ []) :
    (rescan request s).SameContent
      (report request (s.manifests request.srcDir.normalize)) := by
  have hscan := scan_eq (u := { request }) rfl (clear_ofStorage h) hclosed hroot
  rcases hresult :
    ({ request } : ManifestUnit).scan (Workspace.ofStorage s)
      with ⟨diagnostics, u, w⟩
  rw [hresult] at hscan
  obtain ⟨rfl, rfl⟩ : diagnostics = [] ∧ u = _ := hscan
  rw [rescan, hresult]
  exact sameContent_snapshot rfl

namespace Session

variable {s t : Session ManifestUnit MemoryStore} {request : ProjectRequest}
    {l : Ledger}
  {owed : Path → Prop}

/-! ## Runs in which every change is noted -/

/-- Manifests that are not as they were and were not noted since. -/
def Turn.OwedAfter (src : Path) (owed : Path → Prop)
    (s : Session ManifestUnit MemoryStore) (t : Turn) (p : Path) : Prop :=
  (owed p ∨ Altered src s (s.perform t.deed) p) ∧ p ∉ t.noted.map Path.normalize

/-- An update begins only when every manifest that changed is noted.  File names
stay normal, manifests readable, and noted manifests are below the source
directory. -/
structure Turn.Orderly (src : Path) (owed : Path → Prop)
    (s : Session ManifestUnit MemoryStore) (t : Turn) : Prop where
  manifests : (s.perform t.deed).workspace.storage.ManifestsReadable src
  paid : s.receipt? t.deed ≠ none → ∀ p : Path, p.IsNormal → ¬ owed p
  below : ∀ q ∈ t.noted, q.normalize.endsWith manifestEnding = true →
    q.normalize.isWithin src = true

def Orderly (src : Path) (owed : Path → Prop)
    (s : Session ManifestUnit MemoryStore) :
    List Turn → Prop
  | [] => True
  | t :: rest =>
      t.Orderly src owed s ∧ Orderly src (t.OwedAfter src owed s) (s.turn t) rest

private theorem unit_noticeAll (s : Session ManifestUnit MemoryStore)
    (paths : List Path) :
    (s.noticeAll paths).unit = s.unit := by
  induction paths generalizing s with
  | nil => rfl
  | cons p paths ih => exact ih (s.notice p)

theorem receipts_of_gone (h : s.unit = none) (turns : List Turn) :
    s.receipts turns = [] := by
  induction turns generalizing s with
  | nil => rfl
  | cons t rest ih =>
      obtain ⟨hgone, hnone⟩ := gone_perform h t.deed
      have hnext : (s.turn t).unit = none := (unit_noticeAll _ _).trans hgone
      rw [receipts, hnone, ih hnext]
      rfl

theorem Watched.turn {turn : Turn} (h : Watched request owed s l)
    (hroot : request.srcDir.normalize.parts ≠ [])
    (horderly : turn.Orderly request.srcDir.normalize owed s) :
    ((s.turn turn).unit = none ∧ s.receipt? turn.deed = none) ∨
      Watched request (turn.OwedAfter request.srcDir.normalize owed s)
        (s.turn turn)
          ((s.receipt? turn.deed).toList.foldl
            (Ledger.record request.srcDir.normalize) l) ∧
        ∀ r ∈ s.receipt? turn.deed, r.Sound request l := by
  rcases h.perform hroot turn.deed horderly.manifests horderly.paid with ⟨hgone,
    hnone⟩ | ⟨hnext, hsound⟩
  · exact .inl ⟨(unit_noticeAll _ _).trans hgone, hnone⟩
  · exact .inr ⟨hnext.noticeAll horderly.below, hsound⟩

theorem Watched.receipts {turns : List Turn} (h : Watched request owed s l)
    (hroot : request.srcDir.normalize.parts ≠ [])
    (horderly : Orderly request.srcDir.normalize owed s turns)
    {before after : List Receipt} {r : Receipt}
    (hr : s.receipts turns = before ++ r :: after) :
    r.Sound request (before.foldl (Ledger.record request.srcDir.normalize)
      l) := by
  -- On the turns.  A turn with a receipt puts it on the ledger, and takes it
  -- off the front of `before`.
  induction turns generalizing s l owed before with
  | nil => simp [Session.receipts] at hr
  | cons turn rest ih =>
      obtain ⟨hturn, hrest⟩ := horderly
      rw [Session.receipts] at hr
      rcases h.turn hroot hturn with ⟨hgone, hnone⟩ | ⟨hnext, hsound⟩
      · rw [hnone, receipts_of_gone hgone] at hr
        simp at hr
      · cases hreceipt : s.receipt? turn.deed with
        | none =>
            rw [hreceipt] at hr hnext
            exact ih hnext hrest hr
        | some first =>
            rw [hreceipt] at hr hnext hsound
            rcases before with _ | ⟨head, before⟩
            · obtain ⟨rfl, -⟩ := List.cons.inj hr
              exact hsound _ rfl
            · obtain ⟨rfl, htail⟩ := List.cons.inj hr
              exact ih hnext hrest htail

/-! ## The start -/

structure Fresh (request : ProjectRequest) (storage : MemoryStore)
    (s : Session ManifestUnit MemoryStore) : Prop where
  unit : s.unit = some { request }
  timer : s.timer = {}
  queue : ∀ p, .note p ∉ s.queue
  workspace : ReadFrom (.ofStorage storage) s.workspace

section

variable {storage : MemoryStore}

theorem Fresh.observe (h : Fresh request storage s)
    (refuse : Path → Option BuildError) (p : Path) :
    Fresh request storage (s.observe refuse p).2 := by
  unfold Session.observe
  split <;> exact { h with }

theorem Fresh.armFirst (h : Fresh request storage s) :
    Fresh request storage s.armFirst := by
  refine { h with queue := fun p => ?_ }
  simp [Session.armFirst, send, h.queue]

theorem Fresh.watched (h : Fresh request storage s)
    (hmanifests : storage.ManifestsReadable request.srcDir.normalize)
    (hclosed : storage.Closed) : Watched request (fun _ => False) s {} where
  unit := ⟨_, h.unit, knows_new request⟩
  pending := h.workspace.pending
  closed := h.workspace.storage ▸ hclosed
  manifests := h.workspace.storage ▸ hmanifests
  agrees p hp hsrc _ :=
    (h.workspace.clear (clear_ofStorage hmanifests)).agrees p hp hsrc
  noted p hp := by
    rw [h.timer] at hp
    rcases hp with hchanged | hnote
    · cases hchanged
    · exact absurd hnote (h.queue p)
  only := by simp
  known := by simp

variable {config : Config} {mode : Mode} {hub : NotifierHub}

theorem fresh_createUnit
    (h : (initial config mode storage hub).createUnit frontend = (.ok (), s)) :
    Fresh config.request storage s := by
  unfold createUnit at h
  rcases hcreate :
    create config.request (Workspace.ofStorage storage) with ⟨e | unit, w⟩
  · simp [frontend, initial, hcreate] at h
  · obtain ⟨rfl, hread⟩ := readFrom_create hcreate
    simp only [frontend, initial, hcreate, Prod.mk.injEq, true_and] at h
    subst h
    exact ⟨rfl, rfl, by simp, hread⟩

private theorem gone_createUnit {e : BuildError}
    (h : (initial config mode storage hub).createUnit
      (frontend (τ := Workspace MemoryStore)) = (.error e, s)) :
    s.unit = none := by
  unfold createUnit at h
  split at h
  · cases h
    rfl
  · cases h

/-- What holds of a session whose unit cannot be made, or what holds when the
unit is made and observing and arming keep. -/
theorem start_induction {P Q : Session ManifestUnit MemoryStore → Prop}
    (refuse : Path → Option BuildError)
    (hfailed : ∀ e s, (initial config mode storage hub).createUnit frontend =
      (.error e, s) → Q (s.fault e))
    (hcreated : ∀ s, (initial config mode storage hub).createUnit frontend =
      (.ok (), s) → P s)
    (hobserve : ∀ s path, P s → P (s.observe refuse path).2)
    (harm : ∀ s, P s → P s.armFirst) :
    Q ((initial config mode storage hub).start frontend refuse).2 ∨
      P ((initial config mode storage hub).start frontend refuse).2 := by
  unfold start
  rcases hcreate :
    (initial config mode storage hub).createUnit frontend with ⟨e | _, s⟩
  · exact .inl (hfailed e s hcreate)
  · have hobserved :=
      hobserve s (Pass.sourceTypesPath s.config) (hcreated s hcreate)
    right
    dsimp only
    split
    · exact harm _ hobserved
    · have hsource := hobserve _
        (s.observe refuse (Pass.sourceTypesPath s.config)).2.config.sourceDir
          hobserved
      split
      · rename_i heq
        rw [heq] at hsource
        exact harm _ hsource
      · rename_i heq
        rwa [heq] at hsource

private theorem gone_or_fresh_start (config : Config) (mode : Mode)
    (storage : MemoryStore) (hub : NotifierHub)
    (refuse : Path → Option BuildError) :
    ((initial config mode storage hub).start frontend refuse).2.unit = none ∨
      Fresh config.request storage
        ((initial config mode storage hub).start frontend refuse).2 := by
  refine start_induction (Q := fun s => s.unit = none) refuse
    (fun e s hcreate => ?_)
    (fun _ => fresh_createUnit) (fun _ path h => h.observe refuse path)
      fun _ h => h.armFirst
  have hgone := gone_createUnit hcreate
  rcases (SameWorkspace.frame.fault s e).unit with hunit | hunit
  · exact hunit.trans hgone
  · exact hunit

end

/-! ## Snapshots against a full rescan -/

theorem Receipt.Sound.agrees_iff {r : Receipt} {snapshot : Snapshot}
    {files : FileMap} (h : r.Sound request l)
    (hroot : request.srcDir.normalize.parts ≠ [])
    (hcontent : snapshot.SameContent (ManifestUnit.report request files)) :
    snapshot.Agrees (rescan request r.storage) ↔
      (ManifestUnit.report request files).Agrees
        (ManifestUnit.report request
          (r.storage.manifests request.srcDir.normalize)) :=
  hcontent.agrees_iff (sameContent_rescan h.manifests h.closed hroot)

theorem Receipt.Sound.files_eq {r : Receipt} {files : FileMap}
    (h : r.Sound request l)
    (hfiles : (l.record request.srcDir.normalize r).known = some files)
    (hnone : ∀ p : Path, p.IsNormal →
      isManifestOf request.srcDir.normalize p = true →
      p ∉ (l.record request.srcDir.normalize r).lost ∧ p ∉ r.waiting) :
    files = r.storage.manifests request.srcDir.normalize := by
  refine (h.normal files hfiles).ext
    (MemoryStore.isNormal_manifests h.manifests.normal _) fun p hp => ?_
  refine Decidable.byContradiction fun hdiffer => ?_
  obtain ⟨hmanifest, hmissed⟩ := h.missed files hfiles p hp hdiffer
  obtain ⟨hlost, hwaiting⟩ := hnone p hp hmanifest
  exact hmissed.elim hlost hwaiting

def started (config : Config) (mode : Mode) (history : List Edit)
    (hub : NotifierHub) (refuse : Path → Option BuildError) :
    Session ManifestUnit MemoryStore :=
  ((initial config mode (MemoryStore.empty.editAll history) hub).start
    frontend refuse).2

section

variable {config : Config} {mode : Mode} {history : List Edit} {hub : NotifierHub}
  {refuse : Path → Option BuildError} {turns : List Turn}
    {before after : List Receipt} {r : Receipt}

private theorem sound_started (hsrc : config.sourceDir.isAbsolute = true)
    (hmanifests : (MemoryStore.empty.editAll history).ManifestsReadable
      config.sourceDir.normalize)
    (horderly : Orderly config.sourceDir.normalize (fun _ => False)
      (started config mode history hub refuse) turns)
    (hr : (started config mode history hub refuse).receipts turns =
      before ++ r :: after) :
    r.Sound config.request (before.foldl
      (Ledger.record config.sourceDir.normalize) {}) := by
  rcases gone_or_fresh_start config mode (MemoryStore.empty.editAll history)
    hub refuse with
    hgone | hfresh
  · rw [started, receipts_of_gone hgone] at hr
    simp at hr
  · have hwatched :=
      hfresh.watched hmanifests (MemoryStore.closed_editAll history)
    exact hwatched.receipts (Path.parts_normalize_ne_nil hsrc) horderly hr

end

/-- From the receipts up to a snapshot follow the manifests that it shows.  They
can be other than those on storage only where a change was lost or still waits,
and the snapshot has the components and diagnostics of a full rescan exactly if
these texts report the same as those on storage. -/
theorem snapshot_agrees_with_rescan_iff (config : Config) (mode : Mode)
    (history : List Edit) (hub : NotifierHub)
    (refuse : Path → Option BuildError)
    (hsrc : config.sourceDir.isAbsolute = true)
    (hmanifests : (MemoryStore.empty.editAll history).ManifestsReadable
      config.sourceDir.normalize)
    {turns : List Turn}
    (horderly : Orderly config.sourceDir.normalize (fun _ => False)
      (started config mode history hub refuse) turns)
    {before after : List Receipt} {r : Receipt}
    (hr : (started config mode history hub refuse).receipts turns =
      before ++ r :: after)
    {snapshot : Snapshot} (hsnapshot : snapshot ∈ r.result.snapshots) :
    let ledger :=
      (before ++ [r]).foldl (Ledger.record config.sourceDir.normalize) {}
    let stored := r.storage.manifests config.sourceDir.normalize
    ∃ files, ledger.known = some files ∧
      (∀ p : Path, p.IsNormal → files.get? p ≠ stored.get? p →
        isManifestOf config.sourceDir.normalize p = true ∧
        (p ∈ ledger.lost ∨ p ∈ r.waiting)) ∧
      (snapshot.Agrees (rescan config.request r.storage) ↔
        (ManifestUnit.report config.request files).Agrees
          (ManifestUnit.report config.request stored)) ∧
      ((∀ p : Path, p.IsNormal →
        isManifestOf config.sourceDir.normalize p = true →
          p ∉ ledger.lost ∧ p ∉ r.waiting) →
        snapshot.Agrees (rescan config.request r.storage)) := by
  intro ledger stored
  have hsound := sound_started hsrc hmanifests horderly hr
  have hledger :
      ledger = (before.foldl (Ledger.record config.sourceDir.normalize) {}).record
      config.sourceDir.normalize r := by
    simp [ledger]
  obtain ⟨files, hfiles, hcontent⟩ := hsound.faithful snapshot hsnapshot
  have hiff := hsound.agrees_iff (Path.parts_normalize_ne_nil hsrc) hcontent
  rw [hledger]
  refine ⟨files, hfiles, hsound.missed files hfiles, hiff, fun hnone => hiff.2 ?_⟩
  rw [hsound.files_eq hfiles hnone]
  exact ⟨rfl, rfl⟩

/-! ## Runs that can be evaluated -/

private theorem storage_noticeAll (s : Session ManifestUnit MemoryStore)
    (paths : List Path) :
    (s.noticeAll paths).workspace.storage = s.workspace.storage := by
  induction paths generalizing s with
  | nil => rfl
  | cons p paths ih => exact ih (s.notice p)

/-- The turn is orderly, as far as the files that are there can show. -/
def Turn.OrderlyByFiles (src : Path) (s : Session ManifestUnit MemoryStore)
    (t : Turn) : Prop :=
  let before := s.workspace.storage
  let after := (s.perform t.deed).workspace.storage
  (∀ p ∈ after.files.keys, p.normalize = p) ∧
    after.files.contains src = false ∧ after.failing = ∅ ∧
    (∀ p ∈ (before.manifests src).keys ++ (after.manifests src).keys,
      (after.manifests src).get? p = (before.manifests src).get? p ∨
      p ∈ t.noted.map Path.normalize) ∧
    ∀ q ∈ t.noted, q.normalize.endsWith manifestEnding = true →
    q.normalize.isWithin src = true

instance (src : Path) (s : Session ManifestUnit MemoryStore) (t : Turn) :
    Decidable (t.OrderlyByFiles src s) :=
  inferInstanceAs (Decidable (_ ∧ _ ∧ _ ∧ _ ∧ _))

def OrderlyByFiles (src : Path) (s : Session ManifestUnit MemoryStore) :
    List Turn → Prop
  | [] => True
  | t :: rest => t.OrderlyByFiles src s ∧ OrderlyByFiles src (s.turn t) rest

instance decidableOrderlyByFiles (src : Path) :
    (s : Session ManifestUnit MemoryStore) → (turns : List Turn) →
    Decidable (OrderlyByFiles src s turns)
  | _, [] => inferInstanceAs (Decidable True)
  | s, t :: rest =>
      have := decidableOrderlyByFiles src (s.turn t) rest
      inferInstanceAs (Decidable (t.OrderlyByFiles src s ∧
        OrderlyByFiles src (s.turn t) rest))

theorem Turn.OrderlyByFiles.manifests {src : Path} {turn : Turn}
    (h : turn.OrderlyByFiles src s) :
    (s.perform turn.deed).workspace.storage.ManifestsReadable src :=
  MemoryStore.manifestsReadable_of_keys h.1 h.2.1 h.2.2.1

theorem Turn.OrderlyByFiles.paid {src : Path} {turn : Turn}
    (h : turn.OrderlyByFiles src s)
    (hnormal : FileMap.IsNormal s.workspace.storage.files)
    (howed : ∀ p : Path, p.IsNormal → ¬ owed p) {p : Path} (hp : p.IsNormal) :
    ¬ turn.OwedAfter src owed s p := by
  rintro ⟨hold | haltered, hunnoted⟩
  · exact howed p hp hold
  · have hbefore := MemoryStore.isNormal_manifests hnormal src
    have hafter := MemoryStore.isNormal_manifests h.manifests.normal src
    by_cases hmem : p ∈ (s.workspace.storage.manifests src).keys ++
        ((s.perform turn.deed).workspace.storage.manifests src).keys
    · exact (h.2.2.2.1 p hmem).elim haltered hunnoted
    · -- A path that is in neither store cannot have changed.
      rw [List.mem_append, not_or] at hmem
      refine haltered ?_
      rw [hbefore.get?_eq_none hp hmem.1, hafter.get?_eq_none hp hmem.2]

theorem OrderlyByFiles.orderly {src : Path} {turns : List Turn}
    (h : OrderlyByFiles src s turns)
    (hnormal : FileMap.IsNormal s.workspace.storage.files)
    (howed : ∀ p : Path, p.IsNormal → ¬ owed p) : Orderly src owed s turns := by
  induction turns generalizing s owed with
  | nil => trivial
  | cons turn rest ih =>
      obtain ⟨hturn, hrest⟩ := h
      refine ⟨⟨hturn.manifests, fun _ => howed, hturn.2.2.2.2⟩,
        ih hrest ?_ fun p hp => ?_⟩
      · rw [Session.turn, storage_noticeAll]
        exact hturn.manifests.normal
      · exact hturn.paid hnormal howed hp

/-! ## A change that is lost -/

def lossConfig : Config where
  rootDir := ⟨"/"⟩
  srcDir := ⟨"s"⟩
  projectFile := ⟨"s/p"⟩
  watchTimeout := some 0

def projectPath : Path := ⟨"/s/p"⟩

def firstPath : Path := ⟨"/s/a.component.json"⟩

def secondPath : Path := ⟨"/s/b.component.json"⟩

def lossHistory : List Edit :=
  [.insert projectPath "[]", .insert firstPath "[\"a-a\", \"a\"]"]

def changeFile (p : Path) (text : String) : List Turn :=
  ⟨.edit (.insert p text), [p]⟩ :: List.replicate 4 ⟨.work, []⟩

/-- After a first pass the project file becomes invalid, a manifest changes, the
project file is as it was, and another manifest appears. -/
def lossTurns : List Turn :=
  List.replicate 6 ⟨.work, []⟩ ++ changeFile projectPath "" ++
    changeFile firstPath "[\"c-c\", \"a\"]" ++ changeFile projectPath "[]" ++
    changeFile secondPath "[\"b-b\", \"b\"]"

def lossWatch : Session ManifestUnit MemoryStore :=
  started lossConfig .watch lossHistory {} fun _ => none

def invalidProject : BuildError :=
  .passFailed "invalid /s/p: not a JSON value"

def Receipt.summary (request : ProjectRequest) (r : Receipt) :
    List Path × UpdateEnd × List (List String) × List String :=
  (r.changed, r.result.ending,
    r.result.snapshots.map fun s => s.components.map (·.tag),
    (ManifestUnit.report request
      (r.storage.manifests request.srcDir.normalize)).components.map (·.tag))

private theorem byFiles_and_summary_lossTurns :
    OrderlyByFiles lossConfig.sourceDir.normalize lossWatch lossTurns ∧
      (lossWatch.receipts lossTurns).map (Receipt.summary lossConfig.request) =
        [([], .done, [["a-a"]], ["a-a"]),
          ([projectPath], .failed invalidProject, [], ["a-a"]),
          ([firstPath], .failed invalidProject, [], ["c-c"]),
          ([projectPath], .done, [], ["c-c"]),
          ([secondPath], .done, [["a-a", "b-b"]], ["b-b", "c-c"])] := by
  decide +kernel

private theorem manifestsReadable_lossHistory :
    (MemoryStore.empty.editAll lossHistory).ManifestsReadable
      lossConfig.sourceDir.normalize :=
  MemoryStore.manifestsReadable_of_keys (by decide +kernel) (by decide +kernel)
    (by decide +kernel)

private theorem isAbsolute_lossConfig :
    lossConfig.sourceDir.isAbsolute = true := by
  decide +kernel

private theorem orderly_lossTurns :
    Orderly lossConfig.sourceDir.normalize (fun _ => False) lossWatch
      lossTurns := by
  refine byFiles_and_summary_lossTurns.1.orderly ?_ fun _ _ => id
  have hstorage :
      lossWatch.workspace.storage = MemoryStore.empty.editAll lossHistory := by
    decide +kernel
  rw [hstorage]
  exact manifestsReadable_lossHistory.normal

private theorem exists_stale_snapshot :
    ∃ before failed between r snapshot,
      lossWatch.receipts lossTurns = before ++ failed :: (between ++ [r]) ∧
        failed.result.ending = .failed invalidProject ∧
        (∀ q ∈ between, q.result.snapshots = []) ∧
        r.result.snapshots = [snapshot] ∧
        ¬ snapshot.Agrees (rescan lossConfig.request r.storage) := by
  have hsummary := byFiles_and_summary_lossTurns.2
  rcases hreceipts : lossWatch.receipts lossTurns with
    _ | ⟨r₀, _ | ⟨r₁, _ | ⟨r₂, _ | ⟨r₃, _ | ⟨r₄, _ | ⟨r₅, rest⟩⟩⟩⟩⟩⟩
  all_goals rw [hreceipts] at hsummary
  case cons.cons.cons.cons.cons.nil =>
    simp only [List.map_cons, List.map_nil, List.cons.injEq, and_true,
      Receipt.summary, Prod.mk.injEq] at hsummary
    obtain ⟨-, -, ⟨-, hfailed, -, -⟩, ⟨-, -, hsilent, -⟩,
        ⟨-, -, hreported, htags⟩⟩ := hsummary
    obtain ⟨snapshot, hone, hstale⟩ : ∃ snapshot,
        r₄.result.snapshots = [snapshot] ∧
        snapshot.components.map (·.tag) = ["a-a", "b-b"] := by
      simpa [List.map_eq_singleton_iff] using hreported
    have hlast : lossWatch.receipts lossTurns = [r₀, r₁, r₂, r₃] ++ r₄ :: [] :=
      hreceipts
    have hsound :=
      sound_started isAbsolute_lossConfig manifestsReadable_lossHistory orderly_lossTurns hlast
    have hrescan := sameContent_rescan hsound.manifests hsound.closed
      (Path.parts_normalize_ne_nil isAbsolute_lossConfig)
    refine ⟨[r₀, r₁], r₂, [r₃], r₄, snapshot, rfl, hfailed,
      by simpa using hsilent, hone, ?_⟩
    rintro ⟨hcomponents, -⟩
    rw [hcomponents, hrescan.components, htags] at hstale
    revert hstale
    decide
  all_goals simp at hsummary

/-- Though every change is noted, the snapshot after a failed update is not that
of a full rescan. -/
theorem change_lost_by_failed_update :
    Orderly lossConfig.sourceDir.normalize (fun _ => False) lossWatch lossTurns ∧
      (lossWatch.receipts lossTurns).map (Receipt.summary lossConfig.request) =
        [([], .done, [["a-a"]], ["a-a"]),
          ([projectPath], .failed invalidProject, [], ["a-a"]),
          ([firstPath], .failed invalidProject, [], ["c-c"]),
          ([projectPath], .done, [], ["c-c"]),
          ([secondPath], .done, [["a-a", "b-b"]], ["b-b", "c-c"])] ∧
      ¬ ∀ before failed between r after e snapshot,
        lossWatch.receipts lossTurns = before ++ failed ::
          (between ++ r :: after) →
          failed.result.ending = .failed e →
          (∀ q ∈ between, q.result.snapshots = []) →
            snapshot ∈ r.result.snapshots →
            snapshot.Agrees (rescan lossConfig.request r.storage) := by
  refine ⟨orderly_lossTurns, byFiles_and_summary_lossTurns.2, fun h => ?_⟩
  obtain ⟨before, failed, between, r, snapshot, hreceipts, hfailed, hsilent,
      hone, hstale⟩ :=
    exists_stale_snapshot
  have hmem : snapshot ∈ r.result.snapshots := by simp [hone]
  exact hstale (h before failed between r [] _ snapshot hreceipts
    hfailed hsilent hmem)

/-- What the stale snapshot misses was lost, or still waits. -/
theorem snapshot_agrees_with_rescan_stale :
    lossConfig.sourceDir.isAbsolute = true ∧
      (MemoryStore.empty.editAll lossHistory).ManifestsReadable
        lossConfig.sourceDir.normalize ∧
      Orderly lossConfig.sourceDir.normalize (fun _ => False)
        lossWatch lossTurns ∧
      ∃ before r snapshot files, lossWatch.receipts lossTurns = before ++ [r] ∧
        snapshot ∈ r.result.snapshots ∧
        ((before ++ [r]).foldl (Ledger.record lossConfig.sourceDir.normalize)
          {}).known = some files ∧
        ¬ (ManifestUnit.report lossConfig.request files).Agrees
          (ManifestUnit.report lossConfig.request
            (r.storage.manifests lossConfig.sourceDir.normalize)) ∧
        ∃ p : Path, p.IsNormal ∧
        isManifestOf lossConfig.sourceDir.normalize p = true ∧
          (p ∈ ((before ++ [r]).foldl
            (Ledger.record lossConfig.sourceDir.normalize) {}).lost ∨
            p ∈ r.waiting) := by
  refine ⟨isAbsolute_lossConfig, manifestsReadable_lossHistory, orderly_lossTurns, ?_⟩
  obtain ⟨before, failed, between, r, snapshot, hreceipts, -, -, hone, hstale⟩ :=
    exists_stale_snapshot
  have hlast :
      lossWatch.receipts lossTurns = (before ++ failed :: between) ++ r ::
        [] := by
    simpa using hreceipts
  have hmem : snapshot ∈ r.result.snapshots := by simp [hone]
  obtain ⟨files, hfiles, -, hiff, hnone⟩ :=
    snapshot_agrees_with_rescan_iff lossConfig .watch lossHistory {}
      (fun _ => none)
      isAbsolute_lossConfig manifestsReadable_lossHistory orderly_lossTurns hlast hmem
  refine ⟨_, r, snapshot, files, hlast, hmem, hfiles, mt hiff.2 hstale, ?_⟩
  by_contra hmissed
  push Not at hmissed
  exact hstale (hnone fun p hp hmanifest => hmissed p hp hmanifest)

end Session

end ComponentBuild
