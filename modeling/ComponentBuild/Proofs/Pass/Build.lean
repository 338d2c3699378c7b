import ComponentBuild.Pass.Run
import ComponentBuild.Proofs.Workspace.Settling

/-!
# What a pass keeps of its record

Carrying a pass out fills its record in.  It neither renumbers the pass nor ends
it, and what it reports are the artifacts and the commit.
-/

namespace ComponentBuild

structure PassRecord.SamePass (r r' : PassRecord) : Prop where
  pass : r'.pass = r.pass
  isRebuild : r'.isRebuild = r.isRebuild
  phase : r'.phase = r.phase

namespace PassRecord.SamePass

variable {r r' r'' : PassRecord}

private theorem refl (r : PassRecord) : SamePass r r :=
  ⟨rfl, rfl, rfl⟩

theorem trans (h : SamePass r r') (h' : SamePass r' r'') : SamePass r r'' :=
  ⟨h'.pass.trans h.pass, h'.isRebuild.trans h.isRebuild, h'.phase.trans h.phase⟩

private theorem addDiagnostic (r : PassRecord) (d : Diagnostic) :
    SamePass r (r.addDiagnostic d) := by
  unfold PassRecord.addDiagnostic
  split <;> exact ⟨rfl, rfl, rfl⟩

theorem addDiagnostics (r : PassRecord) (ds : List Diagnostic) :
    SamePass r (r.addDiagnostics ds) := by
  induction ds generalizing r with
  | nil => exact refl r
  | cons d ds ih => exact (addDiagnostic r d).trans (ih (r.addDiagnostic d))

end PassRecord.SamePass

namespace BuildEvent

def isOfPass : BuildEvent → Bool
  | artifactGenerated .. | committed .. => true
  | _ => false

end BuildEvent

namespace Pass

open PassRecord

variable {σ : Type} {s t u : State σ}

structure Kept (s t : State σ) : Prop where
  record : SamePass s.record t.record
  events : (∀ e ∈ s.events, e.isOfPass = true) → ∀ e ∈ t.events, e.isOfPass = true

theorem Kept.trans (h : Kept s t) (h' : Kept t u) : Kept s u :=
  ⟨h.record.trans h'.record, h'.events ∘ h.events⟩

private theorem isOfPass_append {es : List BuildEvent} {e : BuildEvent}
    (he : e.isOfPass = true) (hes : ∀ e ∈ es, e.isOfPass = true) :
    ∀ e' ∈ es ++ [e], e'.isOfPass = true := by
  intro e' h
  rcases List.mem_append.1 h with h | h
  · exact hes e' h
  · rw [List.mem_singleton.1 h]
    exact he

variable [Storage σ]

private theorem kept_stageTypes (config : Config) (s : State σ) (dir : Path)
    (internal : Bool) :
    Kept s (stageTypes config s dir internal).2 := by
  simp only [stageTypes]
  split
  · exact ⟨.refl _, isOfPass_append rfl⟩
  · exact ⟨.addDiagnostic _ _, id⟩

theorem kept_generateTypes (config : Config) (s : State σ) :
    Kept s (generateTypes config s) := by
  have hfold (dirs : List Path) (t : State σ) (h : Kept s t) :
      Kept s (dirs.foldl (fun s dir => (stageTypes config s dir false).2) t) := by
    induction dirs generalizing t with
    | nil => exact h
    | cons dir dirs ih =>
        exact ih _ (h.trans (kept_stageTypes config t dir false))
  refine hfold _ _ ((kept_stageTypes config s config.sourceDir true).trans ?_)
  exact ⟨⟨rfl, rfl, rfl⟩, id⟩

private theorem kept_commit (config : Config) (s : State σ) :
    Kept s (commit config s) := by
  refine ⟨?_, isOfPass_append rfl⟩
  have hreport : SamePass s.record
      { s.record with
        written := s.workspace.commit.1.written
        deleted := s.workspace.commit.1.deleted
        dirsAdded := s.workspace.commit.1.dirsAdded
        dirsDeleted := s.workspace.commit.1.dirsDeleted
        declarationsChanged :=
          s.workspace.commit.1.wasWritten (sourceTypesPath config) } :=
    ⟨rfl, rfl, rfl⟩
  exact hreport.trans (.addDiagnostics _ _)

def opened (w : Workspace σ) (r : PassRecord) (snapshot : Snapshot) :
    State σ where
  workspace := stageSnapshot w snapshot
  record :=
    { r with components := snapshot.components }.addDiagnostics
      snapshot.diagnostics

private theorem kept_build (config : Config) (w : Workspace σ) (r : PassRecord)
    (snapshot : Snapshot) :
    Kept (opened w r snapshot) (build config w r snapshot) :=
  (kept_generateTypes config _).trans (kept_commit config _)

theorem samePass_build (config : Config) (w : Workspace σ) (r : PassRecord)
    (snapshot : Snapshot) :
    SamePass r (build config w r snapshot).record := by
  have hcomponents : SamePass r { r with components := snapshot.components } :=
    ⟨rfl, rfl, rfl⟩
  have hopened : SamePass r (opened w r snapshot).record :=
    hcomponents.trans (.addDiagnostics _ _)
  exact hopened.trans (kept_build config w r snapshot).record

theorem isOfPass_build (config : Config) (w : Workspace σ) (r : PassRecord)
    (snapshot : Snapshot) :
    ∀ e ∈ (build config w r snapshot).events, e.isOfPass = true :=
  (kept_build config w r snapshot).events (by simp [opened])

/-! ## The workspace of a pass -/

theorem workspace_build {P : Workspace σ → Prop}
    (hP : ∀ w call, call.isImmediate = false → P w → P (w.perform call))
    (config : Config) {w : Workspace σ} (r : PassRecord) (snapshot : Snapshot)
    (hw : P w) :
    P (build config w r snapshot).workspace := by
  have hstage : P (stageSnapshot w snapshot) := by
    have hwritten :
        P (snapshot.emitted.foldl
          (fun w file => w.stageWrite file.path file.content) w) :=
      List.foldlRecOn (motive := P) _ _ hw fun w h file _ =>
        hP w (.stageWrite file.path file.content) rfl h
    exact List.foldlRecOn (motive := P) _ _ hwritten fun w h path _ =>
      hP w (.stageRemove path) rfl h
  have htypes (s : State σ) (dir : Path) (internal : Bool) (h : P s.workspace) :
      P (stageTypes config s dir internal).2.workspace := by
    have hwrite := hP s.workspace (.writeFile (dir.child Declarations.fileName)
      (renderTypes config s.record.components dir internal) false) rfl h
    simp only [stageTypes]
    split
    · rename_i heq
      rwa [Workspace.perform, heq] at hwrite
    · rename_i heq
      rwa [Workspace.perform, heq] at hwrite
  have hgenerated (s : State σ) (h : P s.workspace) :
      P (generateTypes config s).workspace :=
    List.foldlRecOn (motive := fun s : State σ => P s.workspace) _ _
      (htypes s config.sourceDir true h)
      fun s h dir _ => htypes s dir false h
  exact hP _ .commit rfl (hgenerated _ hstage)

theorem pending_build (config : Config) (w : Workspace σ) (r : PassRecord)
    (snapshot : Snapshot) :
    (build config w r snapshot).workspace.pending = ∅ :=
  Workspace.pending_commit _

end Pass

end ComponentBuild
