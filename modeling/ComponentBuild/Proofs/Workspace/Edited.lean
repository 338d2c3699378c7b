import ComponentBuild.Proofs.Workspace.Settling

/-!
# Workspaces over a storage that is edited

Storage may be edited under a workspace, which then shows old contents until
they are cleared from the cache.  A path is shown as it is again once its cache
entry was empty at a moment after its last edit.
-/

namespace ComponentBuild

/-- An edit of storage that the workspace does not see, or a call of the
workspace. -/
inductive Act where
  | edit (e : Edit)
  | call (c : Call)
  deriving DecidableEq, Repr

def Act.isImmediate : Act → Bool
  | edit _ => false
  | call c => c.isImmediate

namespace Workspace

def act (w : Workspace MemoryStore) : Act → Workspace MemoryStore
  | .edit e => { w with storage := w.storage.edit e }
  | .call c => w.perform c

def acts (w : Workspace MemoryStore) (as : List Act) : Workspace MemoryStore :=
  as.foldl act w

variable {w : Workspace MemoryStore} {as : List Act} {p : Path}

def Changes (w : Workspace MemoryStore) (a : Act) (p : Path) : Prop :=
  (w.act a).storage.files.get? p ≠ w.storage.files.get? p

/-! ## One act -/

private theorem closed_act (h : w.storage.Closed) {a : Act}
    (ha : a.isImmediate = false) :
    (w.act a).storage.Closed := by
  cases a with
  | edit e => exact h.edit e
  | call c => exact keeps_perform MemoryStore.keeps_closed ha h

theorem settledAt_act (w : Workspace MemoryStore) {a : Act}
    (ha : a.isImmediate = false) (h : ¬ w.Changes a p) :
    SettledAt w (w.act a) p := by
  cases a with
  | edit e => exact .inl ⟨rfl, Decidable.not_not.1 h⟩
  | call c => exact settledAt_perform w ha p

/-! ## Acts one after another -/

theorem closed_acts (h : w.storage.Closed)
    (has : ∀ a ∈ as, a.isImmediate = false) :
    (w.acts as).storage.Closed := by
  induction as generalizing w with
  | nil => exact h
  | cons a as ih =>
      obtain ⟨ha, has⟩ := List.forall_mem_cons.1 has
      exact ih (closed_act h ha) has

theorem exists_changes
    (h : (w.acts as).storage.files.get? p ≠ w.storage.files.get? p) :
    ∃ before a after, as = before ++ a :: after ∧
      (w.acts before).Changes a p := by
  induction as generalizing w with
  | nil => exact absurd rfl h
  | cons a as ih =>
      by_cases ha : w.Changes a p
      · exact ⟨[], a, as, rfl, ha⟩
      · rw [← Decidable.not_not.1 ha] at h
        obtain ⟨before, b, after, rfl, hb⟩ := ih h
        exact ⟨a :: before, b, after, rfl, hb⟩

/-- Each change of the file is followed by a moment at which the cache has
nothing for it. -/
def Cleared (w : Workspace MemoryStore) (as : List Act) (p : Path) : Prop :=
  ∀ before a after, as = before ++ a :: after → (w.acts before).Changes a p →
    ∃ done, done <+: after ∧ (w.acts (before ++ a :: done)).cache.get? p = none

theorem Cleared.tail {a : Act} (h : w.Cleared (a :: as) p) :
    (w.act a).Cleared as p := by
  intro before b after heq hb
  exact h (a :: before) b after (by rw [heq]; rfl) hb

theorem cleared_of_none (h : (w.acts as).cache.get? p = none) :
    w.Cleared as p := by
  intro before a after heq _
  exact ⟨after, List.prefix_refl after, heq ▸ h⟩

theorem agreesAt_acts (has : ∀ a ∈ as, a.isImmediate = false)
    (hcleared : w.Cleared as p)
    (h : AgreesAt w.cache w.storage.files p ∨ ∃ done,
      done <+: as ∧ (w.acts done).cache.get? p = none) :
    AgreesAt (w.acts as).cache (w.acts as).storage.files p := by
  induction as generalizing w with
  | nil =>
      rcases h with h | ⟨done, hdone, hnone⟩
      · exact h
      · rw [List.prefix_nil.1 hdone] at hnone
        exact .of_none hnone
  | cons a as ih =>
      obtain ⟨ha, has⟩ := List.forall_mem_cons.1 has
      refine ih has hcleared.tail ?_
      by_cases hchanges : w.Changes a p
      · exact .inr (hcleared [] a as rfl hchanges)
      · have hsettled := settledAt_act w ha hchanges
        rcases h with h | ⟨done, hdone, hnone⟩
        · exact .inl (hsettled.agrees h)
        · cases done with
          | nil => exact .inl (hsettled.agrees (.of_none hnone))
          | cons b done =>
              obtain ⟨rfl, hrest⟩ := List.cons_prefix_cons.1 hdone
              exact .inr ⟨done, hrest, hnone⟩

/-! ## Contents of one kind -/

/-- What the cache holds for a path is of one kind, if all that storage has
there is. -/
theorem cached_acts {Q : String → Prop} (has : ∀ a ∈ as, a.isImmediate = false)
    (hstored : ∀ done, done <+: as → ∀ content,
      (w.acts done).storage.files.get? p = some content → Q content)
    (h : ∀ content, w.cache.get? p = some content → Q content) :
    ∀ content, (w.acts as).cache.get? p = some content → Q content := by
  induction as generalizing w with
  | nil => exact h
  | cons a as ih =>
      obtain ⟨ha, has⟩ := List.forall_mem_cons.1 has
      have hnow (content : String) (hc : (w.act a).storage.files.get? p =
          some content) : Q content :=
        hstored [a] (by simp) content hc
      refine ih has (fun done hdone => ?_) fun content hcontent => ?_
      · exact hstored (a :: done) (List.cons_prefix_cons.2 ⟨rfl, hdone⟩)
      · cases a with
        | edit e => exact h content hcontent
        | call c =>
            rcases settledAt_perform w ha p with ⟨hcache, -⟩ | hagrees
            · exact h content (hcache ▸ hcontent)
            · exact hnow content (hagrees content hcontent)

end Workspace

end ComponentBuild
