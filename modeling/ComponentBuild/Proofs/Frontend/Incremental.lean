import ComponentBuild.Proofs.Frontend.Updates
import ComponentBuild.Proofs.Workspace.Edited

/-!
# Incremental updates against a new unit

A unit is updated from time to time while storage is edited.  If every manifest
that changes is cleared from the cache and named to the next update, then
between updates the unit knows the manifests that are on storage, and so it
reports what a new unit would.
-/

namespace ComponentBuild

open KeyOrder SortedMap Workspace

def MemoryStore.hasProject (file : Path) (s : MemoryStore) : Bool :=
  match s.read file.normalize with
  | .ok content => Json.isWellFormed content
  | .error _ => false

structure Round where
  acts : List Act
  changed : List Path

/-- A round in which every manifest that changes is cleared and named. -/
structure Round.Orderly (request : ProjectRequest) (w : Workspace MemoryStore)
    (r : Round) : Prop where
  staging : ∀ a ∈ r.acts, a.isImmediate = false
  project :
    ∀ done, done <+: r.acts → (w.acts done).storage.hasProject
      request.projectFile = true
  manifests : (w.acts r.acts).storage.ManifestsReadable request.srcDir.normalize
  pending : (w.acts r.acts).pending = ∅
  cleared :
    ∀ p : Path, p.IsNormal → isManifestOf request.srcDir.normalize p = true →
    w.Cleared r.acts p
  named :
    ∀ p : Path, p.IsNormal → isManifestOf request.srcDir.normalize p = true →
    (∃ before a after, r.acts = before ++ a :: after ∧
      (w.acts before).Changes a p) → p ∈ r.changed
  below : ∀ p ∈ r.changed, p.normalize.isWithin request.srcDir.normalize = true

namespace ManifestUnit

/-- The snapshots that a unit reports in rounds, each with the storage at that
time. -/
def reports (u : ManifestUnit) (w : Workspace MemoryStore) :
    List Round → List (MemoryStore × Snapshot)
  | [] => []
  | r :: rest =>
      let (result, u', v) := u.update r.changed (w.acts r.acts)
      result.snapshots.map ((w.acts r.acts).storage, ·) ++ u'.reports v rest

def Orderly (request : ProjectRequest) (u : ManifestUnit)
    (w : Workspace MemoryStore) :
    List Round → Prop
  | [] => True
  | r :: rest =>
      r.Orderly request w ∧
        Orderly request (u.update r.changed (w.acts r.acts)).2.1
          (u.update r.changed (w.acts r.acts)).2.2 rest

def freshSnapshots (request : ProjectRequest) (s : MemoryStore) : List Snapshot :=
  match create request (Workspace.ofStorage s) with
  | (.ok u, w) => (u.update [] w).1.snapshots
  | (.error _, _) => []

variable {request : ProjectRequest} {known : Option FileMap} {u : ManifestUnit}
  {w : Workspace MemoryStore}

/-! ## The project file -/

def ProjectCached (request : ProjectRequest) (w : Workspace MemoryStore) : Prop :=
  ∀ content, w.cache.get? request.projectFile.normalize = some content →
    Json.isWellFormed content = true

private theorem isWellFormed_of_hasProject {s : MemoryStore} {file : Path}
    (h : s.hasProject file = true) {content : String}
    (hc : s.files.get? file.normalize = some content) :
    Json.isWellFormed content = true := by
  unfold MemoryStore.hasProject at h
  split at h
  · rename_i text hread
    rw [MemoryStore.files_get?_of_read hread] at hc
    cases hc
    exact h
  · cases h

private theorem checkProject_ok (hpending : w.pending = ∅)
    (hcached : ProjectCached request w)
    (hstored : w.storage.hasProject request.projectFile = true) :
    (checkProject w request.projectFile).1 = .ok () := by
  have hknown : w.known? request.projectFile.normalize =
      (w.cache.get? request.projectFile.normalize).map .ok := by
    apply known?_unstaged
    rw [hpending]
    rfl
  have hread : ∃ content, (w.fetch request.projectFile).1 = .ok content ∧
      Json.isWellFormed content = true := by
    unfold Workspace.fetch Workspace.readAt
    rw [hknown]
    cases hcache : w.cache.get? request.projectFile.normalize with
    | some content => exact ⟨content, rfl, hcached content hcache⟩
    | none =>
        unfold MemoryStore.hasProject at hstored
        rw [Option.map_none, MemoryStore.storage_read]
        cases hfile : w.storage.read request.projectFile.normalize with
        | ok content => exact ⟨content, rfl, by simpa [hfile] using hstored⟩
        | error e => simp [hfile] at hstored
  obtain ⟨content, hfetch, hvalid⟩ := hread
  rw [Workspace.fetch] at hfetch
  rw [checkProject, fetch_eq]
  rcases hresult : w.readAt request.projectFile.normalize with ⟨result, v⟩
  rw [hresult] at hfetch
  obtain rfl : result = .ok content := hfetch
  simp [hvalid]

theorem ProjectCached.readFrom {v : Workspace MemoryStore}
    (h : ProjectCached request w) (hv : ReadFrom w v)
    (hstored : w.storage.hasProject request.projectFile = true) :
    ProjectCached request v := by
  intro content hcontent
  rcases hv.settled request.projectFile.normalize with ⟨hcache, -⟩ | hagrees
  · exact h content (hcache ▸ hcontent)
  · have hfile := hagrees content hcontent
    rw [hv.storage] at hfile
    exact isWellFormed_of_hasProject hstored hfile

/-! ## Between two updates -/

/-- The unit knows the manifests on storage, and the cache hides none of them. -/
structure Sound (request : ProjectRequest) (u : ManifestUnit)
    (w : Workspace MemoryStore) (known : Option FileMap) : Prop where
  knows : u.Knows request known
  current : ∀ files, known = some files →
    FileMap.IsNormal w.storage.files ∧
    files = w.storage.manifests request.srcDir.normalize
  agrees :
    ∀ p : Path, p.IsNormal → isManifestOf request.srcDir.normalize p = true →
    AgreesAt w.cache w.storage.files p
  project : ProjectCached request w
  closed : w.storage.Closed

theorem Sound.clear {r : Round} (h : Sound request u w known)
    (hr : r.Orderly request w) :
    (w.acts r.acts).Clear request.srcDir.normalize where
  manifests := hr.manifests
  pending := hr.pending
  agrees p hp hsrc :=
    agreesAt_acts hr.staging (hr.cleared p hp hsrc) (.inl (h.agrees p hp hsrc))

theorem Sound.projectCached {r : Round} (h : Sound request u w known)
    (hr : r.Orderly request w) :
    ProjectCached request (w.acts r.acts) :=
  cached_acts hr.staging (fun done hdone _ =>
    isWellFormed_of_hasProject (hr.project done hdone))
    h.project

private theorem isManifestOf_of_mem_relevant {r : Round}
    (hr : r.Orderly request w) {p : Path} (h : p ∈ relevant r.changed) :
    isManifestOf request.srcDir.normalize p = true := by
  have hending := endsWith_of_mem_relevant h
  obtain ⟨q, hq, -, rfl⟩ := mem_relevant h
  rw [isManifestOf, hr.below q hq, hending]
  rfl

theorem Sound.received_eq {r : Round} (h : Sound request u w known)
    (hr : r.Orderly request w) :
    received request.srcDir.normalize known r.changed (w.acts r.acts).storage =
      (w.acts r.acts).storage.manifests request.srcDir.normalize := by
  have hnormal := hr.manifests.normal
  cases known with
  | none => rfl
  | some files =>
      obtain ⟨hbefore, rfl⟩ := h.current files rfl
      simp only [received]
      split
      · rfl
      · refine FileMap.refresh_eq (MemoryStore.isNormal_manifests hbefore _)
          (MemoryStore.isNormal_manifests hnormal _)
            (fun p => isNormal_of_mem_relevant)
          (fun p hp => ?_) fun p hp hmem => ?_
        · rw [MemoryStore.get?_manifests hnormal _ (isNormal_of_mem_relevant hp),
            isManifestOf_of_mem_relevant hr hp, if_pos rfl]
        · rw [MemoryStore.get?_manifests hbefore _ hp,
            MemoryStore.get?_manifests hnormal _ hp]
          split
          · rename_i hsrc
            refine Decidable.byContradiction fun hdiffer => hmem ?_
            have hending : p.endsWith manifestEnding = true :=
              (Bool.and_eq_true_iff.1 hsrc).2
            exact mem_relevant_of_mem hp hending
              (hr.named p hp hsrc (exists_changes (Ne.symm hdiffer)))
          · rfl

theorem Sound.round {r : Round} (h : Sound request u w known)
    (hr : r.Orderly request w) (hroot : request.srcDir.normalize.parts ≠ []) :
    ∃ files, Sound request (u.update r.changed (w.acts r.acts)).2.1
        (u.update r.changed (w.acts r.acts)).2.2 (some files) ∧
      ∀ s ∈ (u.update r.changed (w.acts r.acts)).1.snapshots,
        s.SameContent (report request
          ((w.acts r.acts).storage.manifests request.srcDir.normalize)) := by
  have hclear := h.clear hr
  have hclosed := closed_acts h.closed hr.staging
  have hstored := hr.project r.acts (List.prefix_refl _)
  have hproject := h.projectCached hr
  have hcheck := checkProject_ok hr.pending hproject hstored
  have hread := readFrom_update u r.changed (w.acts r.acts)
  rcases h.knows.update rfl hclear hclosed hroot fun p =>
    isManifestOf_of_mem_relevant hr with
    ⟨e, hfailed, -⟩ | ⟨-, hknows, hreport⟩
  · rw [hcheck] at hfailed
    cases hfailed
  · rw [h.received_eq hr] at hknows hreport
    refine ⟨_, ⟨hknows, ?_, (hread.clear hclear).agrees,
      hproject.readFrom hread hstored, ?_⟩, ?_⟩
    · rintro files ⟨⟩
      rw [hread.storage]
      exact ⟨hr.manifests.normal, rfl⟩
    · rwa [hread.storage]
    · rcases hreport with ⟨hnone, -⟩ | ⟨s, hone, hs⟩
      · simp [hnone]
      · intro t ht
        rw [hone] at ht
        rwa [List.mem_singleton.1 ht]

/-! ## Against a new unit -/

private theorem create_eq {s : MemoryStore}
    (hs : s.hasProject request.projectFile = true) :
    ∃ v, create request (Workspace.ofStorage s) = (.ok { request }, v) ∧
      ReadFrom (Workspace.ofStorage s) v ∧ ProjectCached request v := by
  have hcached : ProjectCached request (Workspace.ofStorage s) := by
    intro content hcontent
    cases hcontent
  have hcheck := checkProject_ok (w := Workspace.ofStorage s) rfl hcached hs
  have hread := readFrom_checkProject (Workspace.ofStorage s) request.projectFile
  rcases hresult :
    checkProject (Workspace.ofStorage s) request.projectFile with ⟨result, v⟩
  rw [hresult] at hcheck hread
  obtain rfl : result = .ok () := hcheck
  refine ⟨v, ?_, hread, hcached.readFrom hread hs⟩
  rw [create, hresult]
  rfl

private theorem hasProject_of_create {s : MemoryStore} {v : Workspace MemoryStore}
    (h : create request (Workspace.ofStorage s) = (.ok u, v)) :
    s.hasProject request.projectFile = true := by
  unfold create checkProject at h
  rw [fetch_eq] at h
  unfold Workspace.readAt at h
  unfold MemoryStore.hasProject
  cases hread : s.read request.projectFile.normalize with
  | ok content =>
      cases hvalid : Json.isWellFormed content with
      | true => exact hvalid
      | false => simp [known?, ofStorage, hread, hvalid, Except.map] at h
  | error e => simp [known?, ofStorage, hread, Except.map] at h

private theorem freshSnapshots_eq {s : MemoryStore}
    (hs : s.hasProject request.projectFile = true)
    (hmanifests : s.ManifestsReadable request.srcDir.normalize)
    (hclosed : s.Closed) (hroot : request.srcDir.normalize.parts ≠ []) :
    ∃ fresh, freshSnapshots request s = [fresh] ∧
      fresh.SameContent (report request
        (s.manifests request.srcDir.normalize)) := by
  obtain ⟨v, hcreate, hv, hcached⟩ := create_eq hs
  have hstored : v.storage = s := hv.storage
  have hclear : v.Clear request.srcDir.normalize :=
    hv.clear (clear_ofStorage hmanifests)
  have hcheck := checkProject_ok hclear.pending hcached (by rwa [hstored])
  have hnone : ∀ p ∈ relevant [],
      isManifestOf request.srcDir.normalize p = true := by
    intro p hp
    obtain ⟨q, hq, -⟩ := mem_relevant hp
    cases hq
  have hupdate :=
    (knows_new request).update rfl hclear (by rwa [hstored]) hroot hnone
  rw [received, hstored] at hupdate
  rcases hupdate with ⟨e, hfailed, -⟩ |
    ⟨-, -, ⟨-, hknown, -⟩ | ⟨fresh, hone, hfresh⟩⟩
  · rw [hcheck] at hfailed
    cases hfailed
  · exact absurd rfl hknown
  · refine ⟨fresh, ?_, hfresh⟩
    rw [freshSnapshots, hcreate]
    simp only [hone]

theorem Sound.reports (h : Sound request u w known)
    (hroot : request.srcDir.normalize.parts ≠ []) {rounds : List Round}
    (hrounds : Orderly request u w rounds) :
    ∀ x ∈ u.reports w rounds, ∃ fresh,
      freshSnapshots request x.1 = [fresh] ∧ x.2.SameContent fresh := by
  induction rounds generalizing u w known with
  | nil => simp [ManifestUnit.reports]
  | cons r rest ih =>
      obtain ⟨hr, hrest⟩ := hrounds
      obtain ⟨files, hnext, hreport⟩ := h.round hr hroot
      obtain ⟨fresh, hfresh, hsame⟩ :=
        freshSnapshots_eq (hr.project r.acts (List.prefix_refl _))
        hr.manifests (closed_acts h.closed hr.staging) hroot
      intro x hx
      rcases List.mem_append.1 hx with hx | hx
      · obtain ⟨s, hs, rfl⟩ := List.mem_map.1 hx
        exact ⟨fresh, hfresh, (hreport s hs).trans hsame.symm⟩
      · exact ih hnext hrest x hx

/-- Over any edits, every snapshot of a unit that is told of all changed
manifests has the components, diagnostics and emitted files that a new unit
reports on the same storage. -/
theorem incremental_matches_fresh (request : ProjectRequest)
    (hsrc : request.srcDir.isAbsolute = true) (history : List Edit)
    {u : ManifestUnit} {w : Workspace MemoryStore}
    (hcreate : create request (Workspace.ofStorage
      (MemoryStore.empty.editAll history)) = (.ok u, w))
    {rounds : List Round} (hrounds : Orderly request u w rounds) :
    ∀ x ∈ u.reports w rounds, ∃ fresh,
      freshSnapshots request x.1 = [fresh] ∧ x.2.SameContent fresh := by
  have hproject := hasProject_of_create hcreate
  obtain ⟨v, hnew, hread, hcached⟩ := create_eq hproject
  obtain ⟨rfl, rfl⟩ : { request } = u ∧ v = w := by
    rw [hnew] at hcreate
    simpa using hcreate
  have hclosed : v.storage.Closed := by
    rw [hread.storage]
    exact MemoryStore.closed_editAll history
  have hsound : Sound request { request } v none :=
    ⟨knows_new request, by simp,
      fun p _ _ => (hread.settled p).agrees (.of_none rfl), hcached, hclosed⟩
  exact hsound.reports (Path.parts_normalize_ne_nil hsrc) hrounds

/-! ## A second manifest -/

def appRequest : ProjectRequest where
  projectFile := ⟨"/p"⟩
  srcDir := ⟨"/s"⟩
  outDir := some ⟨"/o"⟩

def oneManifest : List Edit :=
  [.insert ⟨"/p"⟩ "[]", .insert ⟨"/s/a.component.json"⟩ "[\"a-a\", \"a\"]"]

def appStorage : MemoryStore :=
  MemoryStore.empty.editAll oneManifest

def appWorkspace : Workspace MemoryStore :=
  (create appRequest (Workspace.ofStorage appStorage)).2

def secondPath : Path := ⟨"/s/b.component.json"⟩

def secondText : String := "[\"b-b\", \"b\"]"

def secondAppears : List Round :=
  [⟨[], []⟩, ⟨[.edit (.insert secondPath secondText), .call .clearCache],
    [secondPath]⟩]

private theorem orderly_nothing (hpending : w.pending = ∅)
    (hstorage : w.storage = appStorage) :
    Round.Orderly appRequest w ⟨[], []⟩ := by
  constructor
  case staging => simp
  case project =>
    intro done hdone
    have hnow : w.acts done = w := by rw [List.prefix_nil.1 hdone]; rfl
    rw [hnow, hstorage]
    decide +kernel
  case manifests =>
    have hnow : w.acts [] = w := rfl
    rw [hnow, hstorage]
    exact MemoryStore.manifestsReadable_of_keys (by decide +kernel)
      (by decide +kernel) rfl
  case pending => exact hpending
  case cleared =>
    intro p _ _ before a after heq
    simp at heq
  case named =>
    rintro p _ _ ⟨before, a, after, heq, -⟩
    simp at heq
  case below => simp

private theorem orderly_second (hpending : w.pending = ∅)
    (hstorage : w.storage = appStorage) :
    Round.Orderly appRequest w
      ⟨[.edit (.insert secondPath secondText), .call .clearCache],
        [secondPath]⟩ := by
  constructor
  case staging => simp [Act.isImmediate, Call.isImmediate]
  case project =>
    intro done hdone
    have hstored : (w.acts done).storage = appStorage ∨
        (w.acts done).storage = appStorage.insert secondPath secondText := by
      rw [← hstorage]
      match done, hdone with
      | [], _ => exact .inl rfl
      | [a], hdone =>
          obtain ⟨rfl, -⟩ := List.cons_prefix_cons.1 hdone
          exact .inr rfl
      | [a, b], hdone =>
          obtain ⟨rfl, hrest⟩ := List.cons_prefix_cons.1 hdone
          obtain ⟨rfl, -⟩ := List.cons_prefix_cons.1 hrest
          exact .inr rfl
      | _ :: _ :: _ :: _, hdone => simp at hdone
    rcases hstored with hstored | hstored <;> rw [hstored] <;> decide +kernel
  case manifests =>
    show (w.storage.insert secondPath secondText).ManifestsReadable _
    rw [hstorage]
    exact MemoryStore.manifestsReadable_of_keys (by decide +kernel)
      (by decide +kernel) rfl
  case pending => exact hpending
  case cleared => exact fun p _ _ => cleared_of_none rfl
  case named =>
    rintro p hp - ⟨before, a, after, heq, hchanges⟩
    rcases before with _ | ⟨first, _ | ⟨second, rest⟩⟩
    · obtain ⟨rfl, -⟩ := List.cons.inj heq
      have hkey : same secondPath p = true := by
        refine Decidable.byContradiction fun hother => ?_
        rw [Changes, acts, List.foldl_nil, act, MemoryStore.edit,
          MemoryStore.files_insert, get?_insert, if_neg hother] at hchanges
        exact hchanges rfl
      have hnormal : secondPath.IsNormal := by decide +kernel
      rw [← hnormal.eq_of_same hp hkey]
      exact List.mem_cons_self
    · obtain ⟨-, heq⟩ := List.cons.inj heq
      obtain ⟨rfl, -⟩ := List.cons.inj heq
      exact absurd rfl hchanges
    · simp at heq
  case below => decide +kernel

theorem incremental_matches_fresh_second :
    create appRequest (Workspace.ofStorage appStorage) =
      (.ok { request := appRequest }, appWorkspace) ∧
      Orderly appRequest { request := appRequest } appWorkspace secondAppears ∧
      (reports { request := appRequest } appWorkspace secondAppears).map
        (fun x => x.2.components.map (·.tag)) = [["a-a"], ["a-a", "b-b"]] ∧
      ∀ x ∈ reports { request := appRequest } appWorkspace secondAppears,
        ∃ fresh, freshSnapshots appRequest x.1 = [fresh] ∧
        x.2.SameContent fresh := by
  have hproject : appStorage.hasProject appRequest.projectFile = true := by
    decide +kernel
  obtain ⟨v, hcreate, hread, -⟩ := create_eq hproject
  have hworkspace : v = appWorkspace := by rw [appWorkspace, hcreate]
  rw [hworkspace] at hcreate hread
  have hupdate :=
    hread.trans (readFrom_update { request := appRequest } [] appWorkspace)
  have horderly :
      Orderly appRequest { request := appRequest } appWorkspace secondAppears :=
    ⟨orderly_nothing hread.pending hread.storage,
      orderly_second hupdate.pending hupdate.storage, trivial⟩
  exact ⟨hcreate, horderly, by decide +kernel,
    incremental_matches_fresh appRequest (by decide) oneManifest hcreate horderly⟩

end ManifestUnit

end ComponentBuild
