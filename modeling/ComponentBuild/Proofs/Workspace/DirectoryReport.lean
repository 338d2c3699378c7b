import ComponentBuild.Proofs.Workspace.Directories
import ComponentBuild.Proofs.Workspace.Report
import ComponentBuild.Proofs.Workspace.Settling

/-!
# The report of a commit on directories is exact

On a storage without failing paths the directories that a commit reports as
added or deleted are those that are there only afterwards or only before.  A
directory that was made is needed for something staged, and what is needed is
not removed in the same commit: there is a file or a directory in it.
-/

namespace ComponentBuild

open KeyOrder SortedMap

theorem Path.before_of_sorted {paths : List Path}
    (h : paths.Pairwise fun p q => KeyOrder.same p q = false) :
    (sorted paths).Pairwise fun p q => before p q = true := by
  have hsorted : (sorted paths).Pairwise fun p q => (!before q p) = true :=
    List.pairwise_mergeSort
      (fun p q r hpq hqr => by
        rw [Bool.not_eq_true', Bool.eq_false_iff] at *
        intro hrp
        exact (cotrans q hrp).elim hqr hpq)
      (fun p q => by
        cases hpq : before p q with
        | false => simp
        | true => simp [asymm hpq])
      _
  have hdistinct : (sorted paths).Pairwise fun p q => KeyOrder.same p q = false :=
    (List.mergeSort_perm _ _).symm.pairwise h fun hpq => by rwa [same_comm]
  refine hsorted.imp₂ (fun p q hqp hpq => ?_) hdistinct
  rw [Bool.not_eq_true'] at hqp
  simpa [KeyOrder.same, hqp] using hpq

theorem Path.mem_sorted {paths : List Path} {p : Path} :
    p ∈ sorted paths ↔ p ∈ paths :=
  List.mem_mergeSort

namespace Commit

/-- Between the two commits the listed directories were made, nothing failed and
none was removed. -/
structure DirsMade (c d : Commit MemoryStore) (made : List Path) : Prop where
  isDir : ∀ q, d.storage.isDir q = true ↔
    c.storage.isDir q = true ∨ ∃ p ∈ made, same p q = true
  fresh : ∀ p ∈ made, c.storage.isDir p = false
  distinct : made.Pairwise fun p q => same p q = false
  added : d.report.dirsAdded = c.report.dirsAdded ++ made
  deleted : d.report.dirsDeleted = c.report.dirsDeleted
  errors : d.report.errors = c.report.errors

section Made

variable {c d e : Commit MemoryStore} {made made' : List Path}

theorem DirsMade.none (hdirs : ∀ q, d.storage.isDir q = c.storage.isDir q)
    (hadded : d.report.dirsAdded = c.report.dirsAdded)
    (hdeleted : d.report.dirsDeleted = c.report.dirsDeleted)
    (herrors : d.report.errors = c.report.errors) : DirsMade c d [] :=
  ⟨by simp [hdirs], by simp, .nil, by simp [hadded], hdeleted, herrors⟩

theorem DirsMade.append (h : DirsMade c d made) (h' : DirsMade d e made') :
    DirsMade c e (made ++ made') where
  isDir q := by
    rw [h'.isDir, h.isDir, or_assoc]
    simp only [List.mem_append, or_and_right, exists_or]
  fresh p hp := by
    rcases List.mem_append.1 hp with hp | hp
    · exact h.fresh p hp
    · rw [Bool.eq_false_iff]
      intro hdir
      have hd := (h.isDir p).2 (.inl hdir)
      rw [h'.fresh p hp] at hd
      cases hd
  distinct := by
    refine List.pairwise_append.2 ⟨h.distinct, h'.distinct, fun p hp q hq => ?_⟩
    rw [Bool.eq_false_iff]
    intro hsame
    have hd := (h.isDir q).2 (.inr ⟨p, hp, hsame⟩)
    rw [h'.fresh q hq] at hd
    cases hd
  added := by rw [h'.added, h.added, List.append_assoc]
  deleted := h'.deleted.trans h.deleted
  errors := h'.errors.trans h.errors

private theorem dirsMade_foldl {α : Type}
    {f : Commit MemoryStore → α → Commit MemoryStore}
    {P : Commit MemoryStore → Prop} {batch : List α}
    (h : ∀ c, P c → ∀ a ∈ batch, DirsMade c (f c a) [] ∧ P (f c a)) (hc : P c) :
    DirsMade c (batch.foldl f c) [] ∧ P (batch.foldl f c) :=
  List.foldlRecOn (motive := fun d => DirsMade c d [] ∧ P d) _ _
    ⟨.none (fun _ => rfl) rfl rfl rfl, hc⟩
    fun d hd a ha => ⟨hd.1.append (h d hd.2 a ha).1, (h d hd.2 a ha).2⟩

end Made

/-! ## Making directories -/

section Making

variable {c : Commit MemoryStore}

private theorem createLevels_eq (h : c.storage.failing = ∅) (levels : List Path) :
    c.createLevels levels =
      { c with
        storage := levels.foldl MemoryStore.addLevels c.storage
        report.dirsAdded := c.report.dirsAdded ++ levels } := by
  induction levels generalizing c with
  | nil => simp [createLevels]
  | cons level rest ih =>
      rw [createLevels_made (MemoryStore.not_failing h level), ih (by exact h)]
      simp

theorem contains_foldl_addLevels (levels : List Path) (s : MemoryStore)
    (q : Path) :
    (levels.foldl MemoryStore.addLevels s).dirs.contains q = true ↔
      s.dirs.contains q = true ∨ ∃ level ∈ levels,
      q.parts ≠ [] ∧ q.parts <+: level.parts := by
  induction levels generalizing s with
  | nil => simp
  | cons level rest ih =>
      rw [List.foldl_cons, ih, MemoryStore.contains_addLevels_iff, or_assoc]
      simp only [List.mem_cons, exists_eq_or_imp]

/-- Only levels that were missing are made, for none was passed over. -/
theorem dirsMade_ensureDir (hrooted : c.storage.Rooted)
    (hfailing : c.storage.failing = ∅) (dir : Path) :
    DirsMade c (c.ensureDir dir) (missingLevels c.storage dir) := by
  rw [ensureDir, createLevels_eq hfailing]
  refine ⟨fun q => ?_, fun p hp => (of_mem_missingLevels hp).1,
    missingLevels_distinct _ _, rfl, rfl, rfl⟩
  rw [MemoryStore.isDir_iff, contains_foldl_addLevels, ← or_assoc,
    ← MemoryStore.isDir_iff]
  constructor
  · rintro (hq | ⟨level, hlevel, hne, hbegin⟩)
    · exact .inl hq
    · cases hq : c.storage.isDir q with
      | true => exact .inl rfl
      | false =>
          have hdir := hbegin.trans (of_mem_missingLevels hlevel).2.2
          exact .inr (exists_mem_missingLevels hrooted hne hdir hq)
  · rintro (hq | ⟨level, hlevel, hsame⟩)
    · exact .inl hq
    · have hparts := Path.same_key_iff.1 hsame
      exact .inr ⟨level, hlevel, hparts ▸ (of_mem_missingLevels hlevel).2.1,
        hparts ▸ List.prefix_refl _⟩

private theorem exists_dirsMade_foldl (hrooted : c.storage.Rooted)
    (hfailing : c.storage.failing = ∅) (dirs : List Path) :
    ∃ made, DirsMade c (dirs.foldl ensureDir c) made ∧
      ∀ p ∈ made, p.parts ≠ [] ∧ ∃ dir ∈ dirs, p.parts <+: dir.parts := by
  induction dirs generalizing c with
  | nil => exact ⟨[], .none (fun _ => rfl) rfl rfl rfl, by simp⟩
  | cons dir rest ih =>
      have hkept := (filesKept_ensureDir c dir).storage.failing
      obtain ⟨made, hmade, hneeded⟩ := ih (c := c.ensureDir dir)
        (keeps_createLevels MemoryStore.keeps_rooted _ hrooted)
          (hkept.trans hfailing)
      refine ⟨_, (dirsMade_ensureDir hrooted hfailing dir).append hmade,
        fun p hp => ?_⟩
      rcases List.mem_append.1 hp with hp | hp
      · obtain ⟨-, hne, hbegin⟩ := of_mem_missingLevels hp
        exact ⟨hne, dir, List.mem_cons_self, hbegin⟩
      · obtain ⟨hne, needed, hmem, hbegin⟩ := hneeded p hp
        exact ⟨hne, needed, List.mem_cons_of_mem _ hmem, hbegin⟩

/-! ## Files in their directories -/

private theorem dirsMade_writeFile (hfailing : c.storage.failing = ∅)
    {e : Path × String}
    (hparents : ∀ q : Path, q.parts ≠ [] → q.parts <+: e.1.parts.dropLast →
      c.storage.isDir q = true) :
    DirsMade c (c.writeFile e.1 e.2) [] := by
  have hf := MemoryStore.not_failing hfailing e.1
  by_cases hp : c.storage.files.get? e.1 = some e.2
  · rw [writeFile_unchanged hf hp]
    exact .none (fun _ => rfl) rfl rfl rfl
  · rw [writeFile_changed hf hp]
    refine .none (fun q => ?_) rfl rfl rfl
    rw [Bool.eq_iff_iff, MemoryStore.isDir_iff,
      MemoryStore.contains_written_iff, ← or_assoc, ← MemoryStore.isDir_iff]
    exact or_iff_left_of_imp fun h => hparents q h.1 h.2

private theorem dirsMade_removeFile (hfailing : c.storage.failing = ∅)
    (p : Path) :
    DirsMade c (c.removeFile p) [] := by
  have hf := MemoryStore.not_failing hfailing p
  cases hp : c.storage.files.contains p with
  | false =>
      rw [removeFile_missing c hf hp]
      exact .none (fun _ => rfl) rfl rfl rfl
  | true =>
      rw [removeFile_present c hf hp]
      exact .none (fun _ => rfl) rfl rfl rfl

end Making

/-! ## What is needed -/

def Needed (pending : SortedMap Path Change) (q : Path) : Prop :=
  q.parts ≠ [] ∧ ∃ dir ∈ dirsNeeded pending, q.parts <+: dir.parts

private theorem needed_of_write {pending : SortedMap Path Change} {p q : Path}
    {content : String} (h : (p, .write content) ∈ pending.entries)
    (hne : q.parts ≠ []) (hbegin : q.parts <+: p.parts.dropLast) :
    Needed pending q := by
  obtain ⟨dir, hparent, hparts⟩ := Path.exists_parent (hbegin.ne_nil hne)
  have hlong : dir.isEmpty = false := by
    rw [Path.isEmpty_eq_false_iff, hparts]
    exact hbegin.ne_nil hne
  obtain ⟨needed, hmem, hsame⟩ := exists_dirsNeeded_of_write h hparent hlong
  exact ⟨hne, needed, hmem, by rwa [Path.same_key_iff.1 hsame, hparts]⟩

section

variable {w : Workspace MemoryStore}

private theorem contains_finished_of_write (hfailing : w.storage.failing = ∅)
    {p : Path} {content : String} (h : (p, .write content) ∈ w.pending.entries) :
    (removalsDone w).storage.files.contains p = true := by
  have hcontent := content_applied w (MemoryStore.not_failing hfailing p)
  rw [(filesKept_finished w).storage.files, get?_eq_some_of_mem h] at hcontent
  rw [contains_eq_isSome, hcontent]
  rfl

theorem held_of_dirsNeeded (hfailing : w.storage.failing = ∅) {dir q : Path}
    (hdir : dir ∈ dirsNeeded w.pending) (hq : same q dir = true) :
    (∀ p ∈ dirRemovals w.pending, same p q = false) ∨
      ∃ r, MemoryStore.isChild q r = true ∧
      (removalsDone w).storage.files.contains r = true := by
  rcases mem_dirsNeeded hdir with hadd | ⟨p, content, hwrite, hparent⟩
  · refine .inl fun p hp => ?_
    rw [same_right_congr hq]
    exact not_same_of_kinds (mem_dirRemovals.1 hp) hadd (by simp)
  · have hparts := Path.isParentOf_parent p
    rw [hparent] at hparts
    refine .inr ⟨p, MemoryStore.isChild_iff.2 ⟨?_, hparts.2⟩,
      contains_finished_of_write hfailing hwrite⟩
    rw [← hparts.1, Path.same_key_iff.1 hq]

private theorem held_of_needed (hfailing : w.storage.failing = ∅) {q : Path}
    (hq : Needed w.pending q) :
    (∀ p ∈ dirRemovals w.pending, same p q = false) ∨
      ∃ r, MemoryStore.isChild q r = true ∧
        ((removalsDone w).storage.files.contains r = true ∨
          Needed w.pending r) := by
  obtain ⟨hne, dir, hdir, hbegin⟩ := hq
  by_cases hparts : q.parts = dir.parts
  · refine (held_of_dirsNeeded hfailing hdir
      (Path.same_key_iff.2 hparts)).imp_right ?_
    exact fun ⟨r, hchild, hr⟩ => ⟨r, hchild, .inl hr⟩
  · obtain ⟨r, hchild, hlong, hbelow⟩ :=
      MemoryStore.exists_child hne hbegin hparts
    exact .inr ⟨r, hchild, .inr ⟨hlong, dir, hdir, hbelow⟩⟩

/-! ## Before directories are removed -/

private theorem errors_foldl_ensureDir {c : Commit MemoryStore}
    (hfailing : c.storage.failing = ∅) (dirs : List Path) :
    (dirs.foldl ensureDir c).report.errors = c.report.errors := by
  have hboth : (dirs.foldl ensureDir c).storage.failing = ∅ ∧
      (dirs.foldl ensureDir c).report.errors = c.report.errors :=
    List.foldlRecOn (motive := fun d : Commit MemoryStore =>
        d.storage.failing = ∅ ∧ d.report.errors = c.report.errors) _ _
          ⟨hfailing, rfl⟩
      fun d hd dir _ => by
        refine ⟨(filesKept_ensureDir d dir).storage.failing.trans hd.1, ?_⟩
        rw [ensureDir, createLevels_eq hd.1]
        exact hd.2
  exact hboth.2

theorem isDir_dirsDone (hfailing : w.storage.failing = ∅) {dir : Path}
    (hdir : dir ∈ dirsNeeded w.pending) (hne : dir.isEmpty = false) :
    (dirsDone w).storage.isDir dir = true := by
  let start : Commit MemoryStore := { storage := w.storage, cache := w.cache }
  rcases isDir_or_error_foldl start hdir hne with hthere | ⟨error, hmem, -⟩
  · exact hthere
  · rw [errors_foldl_ensureDir (c := start) hfailing] at hmem
    cases hmem

private theorem isDir_dirsDone_of_needed (hrooted : w.storage.Rooted)
    (hfailing : w.storage.failing = ∅) {q : Path} (hq : Needed w.pending q) :
    (dirsDone w).storage.isDir q = true := by
  have hkept : (dirsDone w).storage.Rooted :=
    List.foldlRecOn (motive := fun c : Commit MemoryStore => c.storage.Rooted) _
      _ hrooted
      fun c hc dir _ => keeps_createLevels MemoryStore.keeps_rooted _ hc
  obtain ⟨hne, dir, hdir, hbegin⟩ := hq
  have hlong : dir.isEmpty = false :=
    Path.isEmpty_eq_false_iff.2 (hbegin.ne_nil hne)
  exact hkept.isDir (isDir_dirsDone hfailing hdir hlong) hne hbegin

private theorem exists_dirsMade_removalsDone (hrooted : w.storage.Rooted)
    (hfailing : w.storage.failing = ∅) :
    ∃ made,
      DirsMade { storage := w.storage, cache := w.cache } (removalsDone w) made ∧
      (∀ p ∈ made, Needed w.pending p) ∧
      ∀ q, Needed w.pending q → (removalsDone w).storage.isDir q = true := by
  let start : Commit MemoryStore := { storage := w.storage, cache := w.cache }
  obtain ⟨made, hmade, hneeded⟩ :=
    exists_dirsMade_foldl (c := start) hrooted hfailing (dirsNeeded w.pending)
  have hdone : (dirsDone w).storage.failing = ∅ :=
    ((filesKept_dirsDone w).storage.failing).trans hfailing
  have hwrites :
      DirsMade (dirsDone w) (writesDone w) [] ∧
      (writesDone w).storage.failing = ∅ ∧
      ∀ q, Needed w.pending q → (writesDone w).storage.isDir q = true := by
    refine dirsMade_foldl (P := fun c => c.storage.failing = ∅ ∧
      ∀ q, Needed w.pending q → c.storage.isDir q = true) (fun c hc e he => ?_)
      ⟨hdone, fun q => isDir_dirsDone_of_needed hrooted hfailing⟩
    have hstep : DirsMade c (c.writeFile e.1 e.2) [] :=
      dirsMade_writeFile hc.1 fun q hne hbegin =>
        hc.2 q (needed_of_write (mem_writesOf.1 he) hne hbegin)
    refine ⟨hstep, (written_writeFile c e).failing.trans hc.1, fun q hq => ?_⟩
    exact (hstep.isDir q).2 (.inl (hc.2 q hq))
  obtain ⟨hwritten, hfailing', hthere⟩ := hwrites
  have hremovals : DirsMade (writesDone w) (removalsDone w) [] :=
    (dirsMade_foldl (P := fun c => c.storage.failing = ∅)
      (fun c hc p _ => ⟨dirsMade_removeFile hc p,
        (removed_removeFile c p).failing.trans hc⟩)
      hfailing').1
  refine ⟨made ++ ([] ++ []), hmade.append (hwritten.append hremovals),
    fun p hp => ?_, fun q hq => ?_⟩
  · rw [List.append_nil, List.append_nil] at hp
    exact hneeded p hp
  · exact (hremovals.isDir q).2 (.inl (hthere q hq))

/-! ## Removing directories -/

theorem DirsRemoved.isDir {c d : Commit MemoryStore} {removed : List Path}
    (h : DirsRemoved c d removed)
    (hroot : ∀ p ∈ removed, MemoryStore.isRoot p = false) (q : Path) :
    d.storage.isDir q = true ↔
      c.storage.isDir q = true ∧ ∀ p ∈ removed, same p q = false := by
  rw [MemoryStore.isDir_iff, MemoryStore.isDir_iff, h.contains]
  constructor
  · rintro (hq | ⟨hknown, hspared⟩)
    · refine ⟨.inl hq, fun p hp => ?_⟩
      rw [Bool.eq_false_iff, Ne, Path.same_key_iff, hq,
        ← MemoryStore.isRoot_iff, hroot p hp]
      exact Bool.false_ne_true
    · exact ⟨.inr hknown, hspared⟩
  · rintro ⟨hq | hknown, hspared⟩
    · exact .inl hq
    · exact .inr ⟨hknown, hspared⟩

private theorem errors_foldl_removeDir {batch : List Path}
    {c : Commit MemoryStore} (hfailing : c.storage.failing = ∅)
    (hroot : ∀ p ∈ batch, MemoryStore.isRoot p = false) :
    (batch.foldl removeDir c).report.errors = c.report.errors := by
  have hboth : (batch.foldl removeDir c).storage.failing = ∅ ∧
      (batch.foldl removeDir c).report.errors = c.report.errors :=
    List.foldlRecOn (motive := fun d : Commit MemoryStore =>
        d.storage.failing = ∅ ∧ d.report.errors = c.report.errors) _ _
          ⟨hfailing, rfl⟩
      fun d hd p hp => by
        refine ⟨(filesKept_removeDir d p).storage.failing.trans hd.1, ?_⟩
        generalize hd' : d.removeDir p = d'
        have houtcome := dirRemoval d p
        rw [hd'] at houtcome
        cases houtcome with
        | absent h => exact hd.2
        | occupied h => exact hd.2
        | failed e h =>
            rw [hroot p hp, MemoryStore.not_failing hd.1] at h
            simp at h
        | removed h => exact hd.2
  exact hboth.2

/-! ## Before and after a commit -/

/-- From the store `s` to `t` the directories `made` came and the directories
`removed` went. -/
structure DirsChanged (s t : MemoryStore) (made removed : List Path) : Prop where
  fresh : ∀ p ∈ made, s.isDir p = false
  stays : ∀ p ∈ made, t.isDir p = true
  old : ∀ p ∈ removed, s.isDir p = true
  isDir : ∀ q, t.isDir q = true ↔
    (s.isDir q = true ∨ ∃ p ∈ made, same p q = true) ∧ ∀ p ∈ removed,
    same p q = false

section Changed

variable {s t : MemoryStore} {made removed : List Path}

theorem DirsChanged.made_iff (h : DirsChanged s t made removed) (p : Path) :
    (∃ q ∈ made, same q p = true) ↔ t.isDir p = true ∧ s.isDir p = false := by
  constructor
  · rintro ⟨q, hq, hsame⟩
    rw [← MemoryStore.isDir_congr _ hsame, ← MemoryStore.isDir_congr _ hsame]
    exact ⟨h.stays q hq, h.fresh q hq⟩
  · rintro ⟨hafter, hbefore⟩
    refine ((h.isDir p).1 hafter).1.resolve_left ?_
    rw [hbefore]
    exact Bool.false_ne_true

theorem DirsChanged.removed_iff (h : DirsChanged s t made removed) (p : Path) :
    (∃ q ∈ removed, same q p = true) ↔ s.isDir p = true ∧ t.isDir p = false := by
  constructor
  · rintro ⟨q, hq, hsame⟩
    refine ⟨by rw [← MemoryStore.isDir_congr _ hsame, h.old q hq], ?_⟩
    rw [Bool.eq_false_iff]
    intro hafter
    rw [((h.isDir p).1 hafter).2 q hq] at hsame
    cases hsame
  · rintro ⟨hbefore, hafter⟩
    by_contra hnone
    rw [Bool.eq_false_iff] at hafter
    refine hafter ((h.isDir p).2 ⟨.inl hbefore, fun q hq => ?_⟩)
    rw [Bool.eq_false_iff]
    exact fun hsame => hnone ⟨q, hq, hsame⟩

theorem DirsChanged.apart (h : DirsChanged s t made removed) :
    ∀ p ∈ made, ∀ q ∈ removed, same p q = false := by
  intro p hp q hq
  rw [same_comm]
  exact ((h.isDir p).1 (h.stays p hp)).2 q hq

end Changed

private theorem errors_finished_eq_nil (hfailing : w.storage.failing = ∅)
    (hroot : ∀ p, (p, .removeDir) ∈ w.pending.entries →
      MemoryStore.isRoot p = false)
    (hdone : (removalsDone w).report.errors = []) :
    (finished w).report.errors = [] := by
  have hunfailing : (removalsDone w).storage.failing = ∅ := by
    rw [← (filesKept_finished w).storage.failing, failing_finished, hfailing]
  rw [finished_eq, errors_foldl_removeDir hunfailing fun p hp =>
    hroot p (mem_dirRemovals.1 hp), hdone]

/-- A directory that was made stays, for it is needed.  So what was removed was
there before. -/
theorem dirsChanged_finished (hrooted : w.storage.Rooted)
    (hfailing : w.storage.failing = ∅)
    (hroot : ∀ p, (p, .removeDir) ∈ w.pending.entries →
      MemoryStore.isRoot p = false) :
    DirsChanged w.storage (finished w).storage (finished w).report.dirsAdded
        (finished w).report.dirsDeleted ∧
      ((finished w).report.dirsAdded.Pairwise fun p q => same p q = false) ∧
      ((finished w).report.dirsDeleted.Pairwise fun p q => same p q = false) ∧
      (finished w).report.errors = [] := by
  obtain ⟨made, hmade, hneeded, hthere⟩ :=
    exists_dirsMade_removalsDone hrooted hfailing
  obtain ⟨removed, hsublist, hremoved⟩ :=
    exists_dirsRemoved_foldl (dirRemovals w.pending) (removalsDone w)
  have hdirs :=
    hremoved.isDir fun p hp => hroot p (mem_dirRemovals.1 (hsublist.subset hp))
  rw [← finished_eq] at hremoved hdirs
  have hadded : (finished w).report.dirsAdded = made :=
    hremoved.added.trans hmade.added
  have hdeleted : (finished w).report.dirsDeleted = removed := by
    rw [hremoved.deleted, hmade.deleted]
    rfl
  have hstays : ∀ p ∈ made, (finished w).storage.isDir p = true := fun p hp =>
    isDir_foldl_removeDir _ hthere (fun q => held_of_needed hfailing) p
      (hneeded p hp)
  have hold : ∀ p ∈ removed, w.storage.isDir p = true := by
    intro p hp
    rcases (hmade.isDir p).1 (MemoryStore.isDir_iff.2
      (.inr (hremoved.present p hp))) with
      h | ⟨q, hq, hsame⟩
    · exact h
    · have hgone := ((hdirs q).1 (hstays q hq)).2 p hp
      rw [same_comm, hsame] at hgone
      cases hgone
  rw [hadded, hdeleted]
  refine ⟨⟨hmade.fresh, hstays, hold, fun q => ?_⟩, hmade.distinct,
    hremoved.distinct,
    errors_finished_eq_nil hfailing hroot hmade.errors⟩
  rw [hdirs, hmade.isDir]

end

end Commit

/-! ## The report -/

/-- A report `r` says exactly which directories committing the changes staged in
`w` adds and takes away, with the store `s` as its outcome, and that nothing
fails. -/
structure DirsCommitted (w : Workspace MemoryStore) (r : CommitReport)
    (s : MemoryStore) : Prop where
  errors : r.errors = []
  added_sorted : r.dirsAdded.Pairwise fun p q => before p q = true
  added : ∀ p, (∃ q ∈ r.dirsAdded, same q p = true) ↔
    s.isDir p = true ∧ w.storage.isDir p = false
  deleted_sorted : r.dirsDeleted.Pairwise fun p q => before p q = true
  deleted : ∀ p, (∃ q ∈ r.dirsDeleted, same q p = true) ↔
    w.storage.isDir p = true ∧ s.isDir p = false
  apart : ∀ p ∈ r.dirsAdded, ∀ q ∈ r.dirsDeleted, same p q = false

/-- On a store that edits lead to, without failing paths, a commit reports
exactly the directories by which the store differs afterwards. -/
theorem Workspace.commit_directories (w : Workspace MemoryStore)
    {edits : List Edit} (hstorage : w.storage = MemoryStore.empty.editAll edits)
    (hfailing : w.storage.failing = ∅)
    (hroot : ∀ p, (p, .removeDir) ∈ w.pending.entries →
      MemoryStore.isRoot p = false) :
    DirsCommitted w w.commit.1 w.commit.2.storage := by
  have hrooted : w.storage.Rooted := hstorage ▸ MemoryStore.rooted_editAll edits
  obtain ⟨hchanged, hadded, hdeleted, herrors⟩ :=
    Commit.dirsChanged_finished hrooted hfailing hroot
  rw [Commit.commit_eq]
  constructor
  case errors => exact herrors
  case added_sorted => exact Path.before_of_sorted hadded
  case added =>
    simp only [CommitReport.sorted, Path.mem_sorted]
    exact hchanged.made_iff
  case deleted_sorted => exact Path.before_of_sorted hdeleted
  case deleted =>
    simp only [CommitReport.sorted, Path.mem_sorted]
    exact hchanged.removed_iff
  case apart =>
    simp only [CommitReport.sorted, Path.mem_sorted]
    exact hchanged.apart

/-! ## A file that moves -/

def nestedEdits : List Edit :=
  [.insert ⟨"/a/old/f"⟩ "text"]

def movingWorkspace : Workspace MemoryStore :=
  (((Workspace.ofStorage (MemoryStore.empty.editAll nestedEdits)).stageWrite
    ⟨"/a/new/f"⟩
    "text").stageRemove ⟨"/a/old/f"⟩).stageRemoveDir ⟨"/a/old"⟩

private theorem entries_movingWorkspace : movingWorkspace.pending.entries =
    [(⟨"/a/new/f"⟩, .write "text"), (⟨"/a/old"⟩, .removeDir),
      (⟨"/a/old/f"⟩, .removeFile)] := by
  decide +kernel

theorem commit_directories_moving :
    let r := movingWorkspace.commit.1
    let s := movingWorkspace.commit.2.storage
    movingWorkspace.storage = MemoryStore.empty.editAll nestedEdits ∧
      movingWorkspace.storage.failing = ∅ ∧
      (∀ p, (p, .removeDir) ∈ movingWorkspace.pending.entries →
        MemoryStore.isRoot p = false) ∧
      r.dirsAdded = [⟨"/a/new"⟩] ∧ r.dirsDeleted = [⟨"/a/old"⟩] ∧
      ∀ p, s.isDir p = true ↔
        movingWorkspace.storage.isDir p = true ∧ same ⟨"/a/old"⟩ p = false ∨
          same ⟨"/a/new"⟩ p = true := by
  intro r s
  have hroot : ∀ p, (p, .removeDir) ∈ movingWorkspace.pending.entries →
      MemoryStore.isRoot p = false := by
    intro p hp
    rw [entries_movingWorkspace] at hp
    obtain rfl : p = ⟨"/a/old"⟩ := by simpa using hp
    decide +kernel
  have hadded : r.dirsAdded = [⟨"/a/new"⟩] := by decide +kernel
  have hdeleted : r.dirsDeleted = [⟨"/a/old"⟩] := by decide +kernel
  have hcommitted : DirsCommitted movingWorkspace r s :=
    Workspace.commit_directories movingWorkspace rfl rfl hroot
  refine ⟨rfl, rfl, hroot, hadded, hdeleted, fun p => ?_⟩
  have hnew := hcommitted.added p
  have hold := hcommitted.deleted p
  rw [hadded] at hnew
  rw [hdeleted] at hold
  simp only [List.mem_singleton, exists_eq_left] at hnew hold
  rw [hnew, Bool.eq_false_iff (b := same _ _), Ne, hold]
  cases movingWorkspace.storage.isDir p <;> cases s.isDir p <;> simp

end ComponentBuild
