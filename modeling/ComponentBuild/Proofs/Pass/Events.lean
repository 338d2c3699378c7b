import ComponentBuild.Proofs.Pass.Artifacts
import Mathlib.Data.List.Forall2

/-!
# What a pass reports

One artifact for the source tree, then one for each destination, then the
commit.  Each artifact is reported with the hash of what the components of the
snapshot are rendered to.
-/

namespace ComponentBuild.Pass

variable {σ : Type} {config : Config} {components : List Component}
    {s t u : State σ}

def targets (config : Config) : List (Path × Bool) :=
  (config.sourceDir, true) :: config.typeDestinations.map (·, false)

def Announces (config : Config) (components : List Component)
    (target : Path × Bool) (e : BuildEvent) : Prop :=
  ∃ changed, e = .artifactGenerated (artifactPath target.1)
    (ContentHash.ofContent (renderTypes config components target.1
      target.2)).short changed

structure Announced (config : Config) (components : List Component)
    (targets : List (Path × Bool)) (s t : State σ) : Prop where
  events :
    ∃ artifacts, List.Forall₂ (Announces config components) targets artifacts ∧
    t.events = s.events ++ artifacts

theorem Announced.trans {targets targets' : List (Path × Bool)}
    (h : Announced config components targets s t)
    (h' : Announced config components targets' t u) :
    Announced config components (targets ++ targets') s u := by
  obtain ⟨artifacts, hall, hevents⟩ := h.events
  obtain ⟨artifacts', hall', hevents'⟩ := h'.events
  refine ⟨artifacts ++ artifacts', List.rel_append hall hall', ?_⟩
  rw [hevents', hevents, List.append_assoc]

variable [Storage σ]

private theorem announced_stageTypes (config : Config) (s : State σ)
    (dir : Path) (internal : Bool) :
    Announced config s.record.components [(dir, internal)] s
      (stageTypes config s dir internal).2 := by
  obtain ⟨changed, hwrite⟩ :=
    exists_writeFile_staged s.workspace (artifactPath dir)
    (renderTypes config s.record.components dir internal)
  rw [artifactPath] at hwrite
  simp only [stageTypes, hwrite]
  exact ⟨_, .cons ⟨changed, rfl⟩ .nil, rfl⟩

private theorem announced_generateTypes (config : Config) (s : State σ) :
    Announced config s.record.components (targets config) s
      (generateTypes config s) := by
  have hfold (dirs : List Path) (t : State σ) (ht : t.record.components =
      s.record.components) :
      Announced config s.record.components (dirs.map (·, false)) t
        (dirs.foldl (fun s dir => (stageTypes config s dir false).2) t) := by
    induction dirs generalizing t with
    | nil => exact ⟨[], .nil, by simp⟩
    | cons dir dirs ih =>
        have hdir := announced_stageTypes config t dir false
        rw [ht] at hdir
        exact hdir.trans (ih _
          ((staged_stageTypes config t dir false).components.trans ht))
  have hsource : Announced config s.record.components [(config.sourceDir, true)] s
      { (stageTypes config s config.sourceDir true).2 with
        record.declarationsChanged :=
          (stageTypes config s config.sourceDir true).1 } :=
    ⟨(announced_stageTypes config s config.sourceDir true).events⟩
  exact hsource.trans
    (hfold _ _ (staged_stageTypes config s config.sourceDir true).components)

/-! ## A whole pass -/

theorem components_build (config : Config) (w : Workspace σ) (r : PassRecord)
    (snapshot : Snapshot) :
    (build config w r snapshot).record.components = snapshot.components := by
  have hgenerated :
      (generateTypes config (opened w r snapshot)).record.components =
      snapshot.components :=
    (staged_generateTypes config _).components.trans
      (components_opened w r snapshot)
  exact (components_addDiagnostics _ _).trans hgenerated

theorem exists_events_build (config : Config) (w : Workspace σ) (r : PassRecord)
    (snapshot : Snapshot) :
    ∃ artifacts report,
      List.Forall₂ (Announces config snapshot.components)
        (targets config) artifacts ∧
        (build config w r snapshot).events = artifacts ++
          [committedEvent r.pass report] := by
  obtain ⟨artifacts, hall, hevents⟩ :=
    (announced_generateTypes config (opened w r snapshot)).events
  rw [components_opened] at hall
  have hpass :
      (generateTypes config (opened w r snapshot)).record.pass = r.pass :=
    ((PassRecord.SamePass.addDiagnostics
      { r with components := snapshot.components }
      snapshot.diagnostics).trans
        (kept_generateTypes config (opened w r snapshot)).record).pass
  refine ⟨artifacts, (generateTypes config
    (opened w r snapshot)).workspace.commit.1, hall, ?_⟩
  have hcommit : (build config w r snapshot).events =
      (generateTypes config (opened w r snapshot)).events ++
        [committedEvent (generateTypes config (opened w r snapshot)).record.pass
          (generateTypes config (opened w r snapshot)).workspace.commit.1] := rfl
  rw [hcommit, hevents, hpass]
  rfl

end ComponentBuild.Pass
