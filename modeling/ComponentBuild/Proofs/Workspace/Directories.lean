import ComponentBuild.Proofs.Storage.Rooted
import ComponentBuild.Proofs.Workspace.Commit

/-!
# The rounds of a commit on directories

Creating directories goes level by level from the outside in and reports each
level it made.  Removing them takes away one directory at a time and spares
those with something in them.  What a round adds or takes away is collected as a
list, and the lists of consecutive rounds are put together.
-/

namespace ComponentBuild.Commit

open KeyOrder SortedMap

/-! ## Missing levels -/

section MissingLevels

variable {s : MemoryStore} {dir level q : Path}

theorem of_mem_missingLevels (h : level ∈ missingLevels s dir) :
    s.isDir level = false ∧ level.parts ≠ [] ∧ level.parts <+: dir.parts := by
  have hlevel := List.mem_reverse.1 h
  have hkept := List.mem_takeWhile_imp hlevel
  rw [Bool.and_eq_true, Bool.not_eq_true', Bool.not_eq_true',
    Path.isEmpty_eq_false_iff] at hkept
  exact ⟨hkept.2, hkept.1, Path.parts_of_mem_ancestors
    ((List.takeWhile_prefix _).subset hlevel)⟩

private theorem self_mem_missingLevels (hne : dir.isEmpty = false)
    (hdir : s.isDir dir = false) :
    dir ∈ missingLevels s dir := by
  obtain ⟨rest, hrest⟩ := Path.exists_ancestors_eq_cons dir
  rw [missingLevels, hrest, List.mem_reverse]
  simp [hne, hdir]

theorem missingLevels_of_there (h : dir.isEmpty = true ∨ s.isDir dir = true) :
    missingLevels s dir = [] := by
  obtain ⟨rest, hrest⟩ := Path.exists_ancestors_eq_cons dir
  rw [missingLevels, hrest, List.reverse_eq_nil_iff]
  refine List.takeWhile_cons_of_neg ?_
  rcases h with h | h <;> simp [h]

theorem missingLevels_distinct (s : MemoryStore) (dir : Path) :
    (missingLevels s dir).Pairwise fun p q => same p q = false := by
  refine List.pairwise_reverse.2 (((Path.ancestors_pairwise dir).sublist
    (List.takeWhile_sublist _)).imp fun {p q} hlength => ?_)
  rw [Bool.eq_false_iff, Ne, Path.same_key_iff]
  intro hparts
  rw [hparts] at hlength
  exact Nat.lt_irrefl _ hlength

/-- Where the directories above a directory are known, no level that is missing
is passed over. -/
theorem exists_mem_missingLevels (h : s.Rooted) (hne : q.parts ≠ [])
    (hbegin : q.parts <+: dir.parts) (hq : s.isDir q = false) :
    ∃ level ∈ missingLevels s dir, same level q = true := by
  obtain ⟨level, hlevel, hparts⟩ := Path.exists_mem_takeWhile_ancestors
    (fun p => !p.isEmpty && !Storage.isDir s p) hne hbegin fun r hr _ => by
      have hlong : r.isEmpty = false :=
        Path.isEmpty_eq_false_iff.2 (hr.ne_nil hne)
      have hmissing : s.isDir r = false := by
        rw [Bool.eq_false_iff]
        intro hdir
        rw [h.isDir hdir hne hr] at hq
        cases hq
      simp [hlong, hmissing]
  exact ⟨level, List.mem_reverse.2 hlevel, Path.same_key_iff.2 hparts⟩

end MissingLevels

/-! ## Creating levels -/

section Creating

variable {c d e : Commit MemoryStore} {dir level : Path}

theorem createLevels_made (h : c.storage.failing.contains level = false)
    (rest : List Path) :
    c.createLevels (level :: rest) = createLevels
      { c with
        storage := c.storage.addLevels level
        report.dirsAdded := c.report.dirsAdded ++ [level] } rest := by
  simp [createLevels, MemoryStore.createDirs_eq h]

theorem createLevels_failing (h : c.storage.failing.contains level = true)
    (rest : List Path) :
    c.createLevels (level :: rest) =
      { c with report := c.report.fail level .createDir (.denied level) } := by
  simp [createLevels, MemoryStore.createDirs_failing h]

/-- The second commit knows the directories of the first one and reports its
errors. -/
structure Grows (c d : Commit MemoryStore) : Prop where
  dirs : ∀ q, c.storage.dirs.contains q = true → d.storage.dirs.contains q = true
  errors : c.report.errors <+: d.report.errors

theorem Grows.refl (c : Commit MemoryStore) : Grows c c :=
  ⟨fun _ => id, List.prefix_refl _⟩

theorem Grows.trans (h : Grows c d) (h' : Grows d e) : Grows c e :=
  ⟨fun q hq => h'.dirs q (h.dirs q hq), h.errors.trans h'.errors⟩

theorem Grows.isDir (h : Grows c d) {q : Path} (hq : c.storage.isDir q = true) :
    d.storage.isDir q = true :=
  MemoryStore.isDir_mono h.dirs hq

private theorem errors_fail (r : CommitReport) (p : Path) (op : CommitOp)
    (e : StorageError) :
    r.errors <+: (r.fail p op e).errors :=
  List.prefix_append _ _

theorem grows_foldl {α : Type} {f : Commit MemoryStore → α → Commit MemoryStore}
    (h : ∀ c a, Grows c (f c a)) (l : List α) (c : Commit MemoryStore) :
    Grows c (l.foldl f c) :=
  List.foldlRecOn (motive := Grows c) _ _ (.refl c) fun d hd a _ =>
  hd.trans (h d a)

private theorem grows_createLevels (levels : List Path) (c : Commit MemoryStore) :
    Grows c (c.createLevels levels) := by
  induction levels generalizing c with
  | nil => exact .refl c
  | cons level rest ih =>
      cases h : c.storage.failing.contains level with
      | true =>
          rw [createLevels_failing h]
          exact ⟨fun _ => id, errors_fail _ _ _ _⟩
      | false =>
          rw [createLevels_made h]
          have hstep : Grows c { c with
              storage := c.storage.addLevels level
              report.dirsAdded := c.report.dirsAdded ++ [level] } :=
            ⟨fun _ hq => MemoryStore.contains_addLevels_iff.2 (.inl hq),
              List.prefix_refl _⟩
          exact hstep.trans (ih _)

private theorem grows_ensureDir (c : Commit MemoryStore) (dir : Path) :
    Grows c (c.ensureDir dir) :=
  grows_createLevels _ c

theorem isDir_or_error_createLevels {levels : List Path}
    (hne : ∀ level ∈ levels, level.parts ≠ []) (c : Commit MemoryStore)
    (hdir : dir ∈ levels) :
    (c.createLevels levels).storage.isDir dir = true ∨
      ∃ error ∈ (c.createLevels levels).report.errors,
        error.op = .createDir ∧ error.path ∈ levels := by
  induction levels generalizing c with
  | nil => cases hdir
  | cons level rest ih =>
      cases h : c.storage.failing.contains level with
      | true =>
          rw [createLevels_failing h]
          exact .inr ⟨_, List.mem_append_right _ List.mem_cons_self, rfl,
            List.mem_cons_self⟩
      | false =>
          rw [createLevels_made h]
          rcases List.mem_cons.1 hdir with rfl | hdir
          · refine .inl ((grows_createLevels rest _).isDir
              (MemoryStore.isDir_iff.2 (.inr ?_)))
            exact MemoryStore.contains_addLevels_iff.2
              (.inr ⟨hne dir List.mem_cons_self, List.prefix_refl _⟩)
          · rcases ih (fun l hl => hne l (List.mem_cons_of_mem _ hl)) _ hdir
              with hmade | herror
            · exact .inl hmade
            · obtain ⟨error, hmem, hop, hpath⟩ := herror
              exact .inr ⟨error, hmem, hop, List.mem_cons_of_mem _ hpath⟩

private theorem isDir_or_error_ensureDir (c : Commit MemoryStore)
    (hne : dir.isEmpty = false) :
    (c.ensureDir dir).storage.isDir dir = true ∨
      ∃ error ∈ (c.ensureDir dir).report.errors,
        error.op = .createDir ∧ error.path.parts <+: dir.parts := by
  cases hdir : c.storage.isDir dir with
  | true => exact .inl ((grows_ensureDir c dir).isDir hdir)
  | false =>
      have hlevels : ∀ level ∈ missingLevels c.storage dir, level.parts ≠ [] :=
        fun level hlevel => (of_mem_missingLevels hlevel).2.1
      rcases isDir_or_error_createLevels hlevels c
        (self_mem_missingLevels hne hdir) with hmade | herror
      · exact .inl hmade
      · obtain ⟨error, hmem, hop, hpath⟩ := herror
        exact .inr ⟨error, hmem, hop, (of_mem_missingLevels hpath).2.2⟩

theorem isDir_or_error_foldl {dirs : List Path} (c : Commit MemoryStore)
    (hdir : dir ∈ dirs) (hne : dir.isEmpty = false) :
    (dirs.foldl ensureDir c).storage.isDir dir = true ∨
      ∃ error ∈ (dirs.foldl ensureDir c).report.errors,
        error.op = .createDir ∧ error.path.parts <+: dir.parts := by
  induction dirs generalizing c with
  | nil => cases hdir
  | cons first rest ih =>
      rcases List.mem_cons.1 hdir with rfl | hdir
      · have hrest := grows_foldl grows_ensureDir rest (c.ensureDir dir)
        rcases isDir_or_error_ensureDir c hne with hmade | ⟨error, hmem, herror⟩
        · exact .inl (hrest.isDir hmade)
        · exact .inr ⟨error, hrest.errors.subset hmem, herror⟩
      · exact ih _ hdir

end Creating

/-! ## Files and their directories -/

private theorem grows_writeFile (c : Commit MemoryStore) (e : Path × String) :
    Grows c (c.writeFile e.1 e.2) := by
  cases hf : c.storage.failing.contains e.1 with
  | true =>
      rw [writeFile_failing e.2 hf]
      exact ⟨fun _ => id, errors_fail _ _ _ _⟩
  | false =>
      by_cases hp : c.storage.files.get? e.1 = some e.2
      · rw [writeFile_unchanged hf hp]
        exact ⟨fun _ => id, List.prefix_refl _⟩
      · rw [writeFile_changed hf hp]
        exact ⟨fun _ hq => MemoryStore.contains_written_iff.2 (.inl hq),
          List.prefix_refl _⟩

theorem grows_removeFile (c : Commit MemoryStore) (p : Path) :
    Grows c (c.removeFile p) := by
  cases hf : c.storage.failing.contains p with
  | true =>
      rcases removeFile_failing c hf with hr | hr <;> rw [hr]
      · exact ⟨fun _ => id, List.prefix_refl _⟩
      · exact ⟨fun _ => id, errors_fail _ _ _ _⟩
  | false =>
      cases hp : c.storage.files.contains p with
      | false =>
          rw [removeFile_missing c hf hp]
          exact ⟨fun _ => id, List.prefix_refl _⟩
      | true =>
          rw [removeFile_present c hf hp]
          exact ⟨fun _ => id, List.prefix_refl _⟩

theorem grows_removalsDone (w : Workspace MemoryStore) :
    Grows (dirsDone w) (removalsDone w) :=
  (grows_foldl grows_writeFile _ _).trans (grows_foldl grows_removeFile _ _)

/-! ## Removing directories -/

inductive DirRemoval (c : Commit MemoryStore) (dir : Path) :
    Commit MemoryStore → Prop
  | absent (h : c.storage.isDir dir = false) : DirRemoval c dir c
  | occupied (h : c.storage.isDirEmpty dir = .ok false) : DirRemoval c dir c
  | failed (e : StorageError)
      (h : MemoryStore.isRoot dir = true ∨
        c.storage.failing.contains dir = true) :
      DirRemoval c dir { c with report := c.report.fail dir .removeDir e }
  | removed (hempty : c.storage.isDirEmpty dir = .ok true) :
      DirRemoval c dir
        { c with
          storage := { c.storage with dirs := c.storage.dirs.erase dir }
          report.dirsDeleted := c.report.dirsDeleted ++ [dir] }

theorem dirRemoval (c : Commit MemoryStore) (dir : Path) :
    DirRemoval c dir (c.removeDir dir) := by
  simp only [removeDir, MemoryStore.storage_isDir, MemoryStore.storage_isDirEmpty,
    MemoryStore.storage_removeDir]
  cases hdir : c.storage.isDir dir with
  | false => exact .absent hdir
  | true =>
      cases hempty : c.storage.isDirEmpty dir with
      | error e =>
          refine .failed e (.inl ?_)
          rw [MemoryStore.isDir, Bool.or_eq_true] at hdir
          refine hdir.resolve_right fun hknown => ?_
          rw [MemoryStore.isDirEmpty_eq hknown] at hempty
          cases hempty
      | ok empty =>
          cases empty with
          | false => exact .occupied hempty
          | true =>
              cases hf : c.storage.failing.contains dir with
              | true =>
                  simp only [MemoryStore.removeDir_failing hf hempty]
                  exact .failed (.denied dir) (.inr hf)
              | false =>
                  simp only [MemoryStore.removeDir_eq hf hempty]
                  exact .removed hempty

/-- Between the two commits the listed directories were removed, one after
another. -/
structure DirsRemoved (c d : Commit MemoryStore) (removed : List Path) :
    Prop where
  contains : ∀ q, d.storage.dirs.contains q = true ↔
    c.storage.dirs.contains q = true ∧ ∀ p ∈ removed, same p q = false
  present : ∀ p ∈ removed, c.storage.dirs.contains p = true
  distinct : removed.Pairwise fun p q => same p q = false
  files : d.storage.files = c.storage.files
  added : d.report.dirsAdded = c.report.dirsAdded
  deleted : d.report.dirsDeleted = c.report.dirsDeleted ++ removed
  errors : c.report.errors <+: d.report.errors

section Removing

variable {c d e : Commit MemoryStore} {removed removed' : List Path}

theorem DirsRemoved.none (hstorage : d.storage = c.storage)
    (hadded : d.report.dirsAdded = c.report.dirsAdded)
    (hdeleted : d.report.dirsDeleted = c.report.dirsDeleted)
    (herrors : c.report.errors <+: d.report.errors) : DirsRemoved c d [] := by
  refine ⟨fun q => ?_, by simp, .nil, by rw [hstorage], hadded,
    by simp [hdeleted], herrors⟩
  simp [hstorage]

theorem DirsRemoved.append (h : DirsRemoved c d removed)
    (h' : DirsRemoved d e removed') :
    DirsRemoved c e (removed ++ removed') where
  contains q := by
    rw [h'.contains, h.contains, and_assoc]
    simp only [List.mem_append, or_imp, forall_and]
  present p hp := by
    rcases List.mem_append.1 hp with hp | hp
    · exact h.present p hp
    · exact ((h.contains p).1 (h'.present p hp)).1
  distinct := by
    refine List.pairwise_append.2 ⟨h.distinct, h'.distinct, fun p hp q hq => ?_⟩
    exact ((h.contains q).1 (h'.present q hq)).2 p hp
  files := h'.files.trans h.files
  added := h'.added.trans h.added
  deleted := by rw [h'.deleted, h.deleted, List.append_assoc]
  errors := h.errors.trans h'.errors

private theorem exists_dirsRemoved_removeDir (c : Commit MemoryStore)
    (dir : Path) :
    ∃ removed, removed.Sublist [dir] ∧
      DirsRemoved c (c.removeDir dir) removed := by
  generalize hd : c.removeDir dir = d
  have houtcome := dirRemoval c dir
  rw [hd] at houtcome
  cases houtcome with
  | absent h =>
      exact ⟨[], List.nil_sublist _, .none rfl rfl rfl (List.prefix_refl _)⟩
  | occupied h =>
      exact ⟨[], List.nil_sublist _, .none rfl rfl rfl (List.prefix_refl _)⟩
  | failed e h =>
      exact ⟨[], List.nil_sublist _, .none rfl rfl rfl (errors_fail _ _ _ _)⟩
  | removed hempty =>
      refine ⟨[dir], List.Sublist.refl _, ?_⟩
      constructor
      case contains => simp [MemoryStore.contains_erase]
      case present => simpa using MemoryStore.contains_of_isDirEmpty hempty
      case errors => exact List.prefix_refl _
      all_goals simp

theorem exists_dirsRemoved_foldl (batch : List Path) (c : Commit MemoryStore) :
    ∃ removed, removed.Sublist batch ∧
      DirsRemoved c (batch.foldl removeDir c) removed := by
  induction batch generalizing c with
  | nil => exact ⟨[], .slnil, .none rfl rfl rfl (List.prefix_refl _)⟩
  | cons dir rest ih =>
      obtain ⟨first, hfirst, hstep⟩ := exists_dirsRemoved_removeDir c dir
      obtain ⟨others, hothers, hrest⟩ := ih (c.removeDir dir)
      exact ⟨first ++ others, hfirst.append hothers, hstep.append hrest⟩

end Removing

/-! ## Directories that are held -/

/-- A directory stays if it is not to be removed, or if there is a file or
another directory in it that stays. -/
theorem isDir_foldl_removeDir (kept : Path → Prop) {batch : List Path}
    {c : Commit MemoryStore} (hdirs : ∀ q, kept q → c.storage.isDir q = true)
    (hheld : ∀ q, kept q → (∀ p ∈ batch, same p q = false) ∨ ∃ r,
      MemoryStore.isChild q r = true ∧
      (c.storage.files.contains r = true ∨ kept r)) :
    ∀ q, kept q → (batch.foldl removeDir c).storage.isDir q = true := by
  induction batch generalizing c with
  | nil => exact hdirs
  | cons dir rest ih =>
      have hfiles := (filesKept_removeDir c dir).storage.files
      refine ih (c := c.removeDir dir) (fun q hq => ?_) fun q hq => ?_
      · generalize hd : c.removeDir dir = d
        have houtcome := dirRemoval c dir
        rw [hd] at houtcome
        cases houtcome with
        | absent h => exact hdirs q hq
        | occupied h => exact hdirs q hq
        | failed e h => exact hdirs q hq
        | removed hempty =>
            have hother : same dir q = false := by
              rw [Bool.eq_false_iff]
              intro hsame
              rcases hheld q hq with hspared | ⟨r, hchild, hr⟩
              · rw [hspared dir List.mem_cons_self] at hsame
                cases hsame
              · rw [MemoryStore.isChild_iff,
                  ← Path.same_key_iff.1 hsame] at hchild
                refine MemoryStore.not_holds_of_isDirEmpty hempty r
                  ⟨MemoryStore.isChild_iff.2 hchild, hr.imp_right fun hr => ?_⟩
                exact (MemoryStore.isDir_iff.1 (hdirs r hr)).resolve_left
                  hchild.2.2
            refine MemoryStore.isDir_iff.2
              ((MemoryStore.isDir_iff.1 (hdirs q hq)).imp_right ?_)
            exact fun hknown => MemoryStore.contains_erase.2 ⟨hknown, hother⟩
      · rcases hheld q hq with hspared | ⟨r, hchild, hr⟩
        · exact .inl fun p hp => hspared p (List.mem_cons_of_mem _ hp)
        · exact .inr ⟨r, hchild, by rwa [hfiles]⟩

/-! ## The order of removals -/

section Order

variable {pending : SortedMap Path Change}

def dirRemovals (pending : SortedMap Path Change) : List Path :=
  (pathsOf pending .removeDir).mergeSort deeperFirst

theorem finished_eq (w : Workspace MemoryStore) :
    finished w = (dirRemovals w.pending).foldl removeDir (removalsDone w) := rfl

theorem mem_dirRemovals {p : Path} :
    p ∈ dirRemovals pending ↔ (p, .removeDir) ∈ pending.entries := by
  rw [dirRemovals, List.mem_mergeSort, mem_pathsOf]

theorem deeperFirst_iff {p q : Path} : deeperFirst p q = true ↔
    q.parts.length < p.parts.length ∨ p.parts.length = q.parts.length ∧
      before p q = false := by
  simp [deeperFirst]

theorem deeperFirst_trans (p q r : Path) (hpq : deeperFirst p q = true)
    (hqr : deeperFirst q r = true) : deeperFirst p r = true := by
  rw [deeperFirst_iff] at hpq hqr ⊢
  rcases hpq with hpq | ⟨hpq, hbefore⟩
  · exact .inl (by omega)
  · rcases hqr with hqr | ⟨hqr, hbefore'⟩
    · exact .inl (by omega)
    · refine .inr ⟨hpq.trans hqr, ?_⟩
      rw [Bool.eq_false_iff]
      intro hpr
      rcases cotrans q hpr with h | h
      · rw [hbefore] at h
        cases h
      · rw [hbefore'] at h
        cases h

theorem deeperFirst_total (p q : Path) :
    (deeperFirst p q || deeperFirst q p) = true := by
  rw [Bool.or_eq_true, deeperFirst_iff, deeperFirst_iff]
  rcases Nat.lt_trichotomy p.parts.length q.parts.length with h | h | h
  · exact .inr (.inl h)
  · cases hpq : before p q with
    | false => exact .inl (.inr ⟨h, rfl⟩)
    | true => exact .inr (.inr ⟨h.symm, asymm hpq⟩)
  · exact .inl (.inl h)

theorem dirRemovals_distinct (pending : SortedMap Path Change) :
    (dirRemovals pending).Pairwise fun p q => same p q = false := by
  refine (List.mergeSort_perm _ _).symm.pairwise
    ((pathsOf_sorted pending .removeDir).imp not_same_of_before) fun h => ?_
  rwa [same_comm]

theorem not_deeper_of_dirRemovals {earlier later : List Path} {p : Path}
    (h : dirRemovals pending = earlier ++ p :: later) :
    ∀ q ∈ later, q.parts.length ≤ p.parts.length ∧ same p q = false := by
  intro q hq
  have hsorted : (dirRemovals pending).Pairwise fun p q =>
      deeperFirst p q = true :=
    List.pairwise_mergeSort deeperFirst_trans deeperFirst_total _
  have hdistinct := dirRemovals_distinct pending
  rw [h] at hsorted hdistinct
  have hdeeper :=
    List.rel_of_pairwise_cons (List.pairwise_append.1 hsorted).2.1 hq
  refine ⟨?_, List.rel_of_pairwise_cons (List.pairwise_append.1 hdistinct).2.1 hq⟩
  rcases deeperFirst_iff.1 hdeeper with hlength | ⟨hlength, -⟩
  · exact hlength.le
  · exact hlength.ge

end Order

/-! ## Directories that are needed -/

section Needed

variable {pending : SortedMap Path Change} {dir p : Path}

theorem mem_dirsNeeded (h : dir ∈ dirsNeeded pending) :
    (dir, .addDir) ∈ pending.entries ∨
      ∃ p content, (p, .write content) ∈ pending.entries ∧
      p.parent = some dir := by
  obtain ⟨⟨p, change⟩, he, hdir⟩ :=
    List.mem_filterMap.1 (SortedSet.mem_of_mem_ofKeys h)
  cases change with
  | write content =>
      exact .inr ⟨p, content, he, (Option.filter_eq_some_iff.1 hdir).1⟩
  | removeFile => cases hdir
  | addDir =>
      obtain rfl := Option.some.inj hdir
      exact .inl he
  | removeDir => cases hdir

theorem exists_dirsNeeded_of_addDir (h : (dir, .addDir) ∈ pending.entries) :
    ∃ needed ∈ dirsNeeded pending, same needed dir = true :=
  SortedSet.exists_mem_ofKeys.2 ⟨dir, List.mem_filterMap.2 ⟨_, h, rfl⟩,
    same_refl dir⟩

theorem exists_dirsNeeded_of_write {content : String}
    (h : (p, .write content) ∈ pending.entries) (hparent : p.parent = some dir)
    (hne : dir.isEmpty = false) :
    ∃ needed ∈ dirsNeeded pending, same needed dir = true := by
  refine SortedSet.exists_mem_ofKeys.2 ⟨dir, List.mem_filterMap.2 ⟨_, h, ?_⟩,
    same_refl dir⟩
  simp [hparent, hne]

end Needed

end ComponentBuild.Commit
