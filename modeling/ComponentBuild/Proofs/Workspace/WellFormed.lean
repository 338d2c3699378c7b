import ComponentBuild.Proofs.Workspace.Tree
import Mathlib.Data.List.Pairwise

/-!
# When the report of a commit is well formed

Each list of a report is sorted and names no path twice.  Two lists share a path
exactly if a directory that is made is also written or removed as a file, or is
removed again.  Two errors share path and operation exactly if two needed
directories stop at one level.
-/

namespace ComponentBuild

open KeyOrder SortedMap

namespace CommitReport

def IsOrdered (r : CommitReport) : Prop :=
  ∀ paths ∈ [r.written, r.deleted, r.dirsAdded, r.dirsDeleted],
    paths.Pairwise fun p q => before p q = true

def IsDisjoint (r : CommitReport) : Prop :=
  [r.written, r.deleted, r.dirsAdded, r.dirsDeleted].Pairwise fun ps qs =>
    ∀ p ∈ ps, ∀ q ∈ qs, same p q = false

instance (r : CommitReport) : Decidable r.IsDisjoint :=
  inferInstanceAs (Decidable (List.Pairwise _ _))

end CommitReport

def CommitError.Repeats (e e' : CommitError) : Prop :=
  e.op = e'.op ∧ same e.path e'.path = true

instance (e e' : CommitError) : Decidable (e.Repeats e') :=
  inferInstanceAs (Decidable (_ ∧ _))

def SingleErrors (errors : List CommitError) : Prop :=
  errors.Pairwise fun e e' => ¬ e.Repeats e'

instance (errors : List CommitError) : Decidable (SingleErrors errors) :=
  inferInstanceAs (Decidable (errors.Pairwise _))

namespace Commit

variable {w : Workspace MemoryStore} {p q : Path}

/-! ## Errors of the rounds -/

/-- From `c` to `d` errors of the operation were added, for some of the paths
and once for each. -/
def Noted (op : CommitOp) (paths : List Path) (c d : Commit MemoryStore) : Prop :=
  ∃ failed, d.report.errors = c.report.errors ++ failed ∧
    (failed.map (·.path)).Sublist paths ∧ ∀ e ∈ failed, e.op = op

section Noted

variable {c d e : Commit MemoryStore} {op : CommitOp} {paths paths' : List Path}

theorem Noted.none (h : d.report.errors = c.report.errors) : Noted op paths c d :=
  ⟨[], by simp [h], List.nil_sublist _, by simp⟩

theorem Noted.one {error : StorageError}
    (h : d.report.errors = c.report.errors ++ [⟨p, op, error.message⟩]) :
    Noted op [p] c d :=
  ⟨_, h, List.Sublist.refl _, by simp⟩

theorem Noted.append (h : Noted op paths c d) (h' : Noted op paths' d e) :
    Noted op (paths ++ paths') c e := by
  obtain ⟨failed, herrors, hpaths, hop⟩ := h
  obtain ⟨failed', herrors', hpaths', hop'⟩ := h'
  refine ⟨failed ++ failed', ?_, ?_, ?_⟩
  · rw [herrors', herrors, List.append_assoc]
  · rw [List.map_append]
    exact hpaths.append hpaths'
  · exact fun e he => (List.mem_append.1 he).elim (hop e) (hop' e)

private theorem noted_foldl {α : Type}
    {f : Commit MemoryStore → α → Commit MemoryStore} {path : α → Path}
    (h : ∀ c a, Noted op [path a] c (f c a)) (batch : List α)
    (c : Commit MemoryStore) :
    Noted op (batch.map path) c (batch.foldl f c) := by
  induction batch generalizing c with
  | nil => exact .none rfl
  | cons a batch ih => exact (h c a).append (ih (f c a))

theorem Noted.single_iff (h : Noted op paths c d)
    (hdistinct : paths.Pairwise fun p q => same p q = false)
    (hnew : ∀ e ∈ c.report.errors, e.op ≠ op) :
    SingleErrors d.report.errors ↔ SingleErrors c.report.errors := by
  obtain ⟨failed, herrors, hpaths, hop⟩ := h
  have hsingle : SingleErrors failed := by
    refine (List.pairwise_map.1 (hdistinct.sublist hpaths)).imp
      fun {e e'} hother hrepeats => ?_
    rw [hrepeats.2] at hother
    cases hother
  have hapart : ∀ e ∈ c.report.errors, ∀ e' ∈ failed, ¬ e.Repeats e' := by
    intro e he e' he' hrepeats
    exact hnew e he (hrepeats.1.trans (hop e' he'))
  rw [SingleErrors, herrors, List.pairwise_append]
  exact and_iff_left ⟨hsingle, hapart⟩

theorem Noted.ops (h : Noted op paths c d) {error : CommitError}
    (he : error ∈ d.report.errors) :
    error ∈ c.report.errors ∨ error.op = op := by
  obtain ⟨failed, herrors, -, hop⟩ := h
  rw [herrors, List.mem_append] at he
  exact he.imp_right (hop error)

end Noted

private theorem noted_writeFile (c : Commit MemoryStore) (e : Path × String) :
    Noted .write [e.1] c (c.writeFile e.1 e.2) := by
  cases hf : c.storage.failing.contains e.1 with
  | true =>
      rw [writeFile_failing e.2 hf]
      exact .one rfl
  | false =>
      by_cases hp : c.storage.files.get? e.1 = some e.2
      · rw [writeFile_unchanged hf hp]
        exact .none rfl
      · rw [writeFile_changed hf hp]
        exact .none rfl

private theorem noted_removeFile (c : Commit MemoryStore) (p : Path) :
    Noted .removeFile [p] c (c.removeFile p) := by
  cases hf : c.storage.failing.contains p with
  | true =>
      rcases removeFile_failing c hf with hr | hr <;> rw [hr]
      · exact .none rfl
      · exact .one rfl
  | false =>
      cases hp : c.storage.files.contains p with
      | false =>
          rw [removeFile_missing c hf hp]
          exact .none rfl
      | true =>
          rw [removeFile_present c hf hp]
          exact .none rfl

private theorem noted_removeDir (c : Commit MemoryStore) (dir : Path) :
    Noted .removeDir [dir] c (c.removeDir dir) := by
  generalize hd : c.removeDir dir = d
  have houtcome := dirRemoval c dir
  rw [hd] at houtcome
  cases houtcome with
  | absent h | occupied h | removed h => exact .none rfl
  | failed e h => exact .one rfl

private theorem noted_writesDone (w : Workspace MemoryStore) :
    Noted .write ((writesOf w.pending).map (·.1)) (dirsDone w) (writesDone w) :=
  noted_foldl noted_writeFile _ _

private theorem noted_removalsDone (w : Workspace MemoryStore) :
    Noted .removeFile (pathsOf w.pending .removeFile) (writesDone w)
      (removalsDone w) := by
  have hround :
      Noted .removeFile ((pathsOf w.pending .removeFile).map id) (writesDone w)
      (removalsDone w) := noted_foldl noted_removeFile _ _
  rwa [List.map_id] at hround

private theorem noted_finished (w : Workspace MemoryStore) :
    Noted .removeDir (dirRemovals w.pending) (removalsDone w) (finished w) := by
  have hround :
      Noted .removeDir ((dirRemovals w.pending).map id) (removalsDone w)
        (finished w) :=
    noted_foldl noted_removeDir _ _
  rwa [List.map_id] at hround

/-- After the first round each round has errors of its own operation, and one at
most for a path. -/
theorem singleErrors_finished
    (hfirst : ∀ e ∈ (dirsDone w).report.errors, e.op = .createDir) :
    SingleErrors (finished w).report.errors ↔
      SingleErrors (dirsDone w).report.errors := by
  have hwrites : ∀ e ∈ (writesDone w).report.errors,
      e.op = .createDir ∨ e.op = .write :=
    fun e he => ((noted_writesDone w).ops he).imp_left (hfirst e)
  have hremovals : ∀ e ∈ (removalsDone w).report.errors,
      (e.op = .createDir ∨ e.op = .write) ∨ e.op = .removeFile :=
    fun e he => ((noted_removalsDone w).ops he).imp_left (hwrites e)
  rw [(noted_finished w).single_iff (dirRemovals_distinct _) ?_,
    (noted_removalsDone w).single_iff
      ((pathsOf_sorted _ _).imp not_same_of_before) ?_,
    (noted_writesDone w).single_iff
      (List.pairwise_map.2 ((writesOf_sorted _).imp not_same_of_before)) ?_]
  · intro e he
    simp [hfirst e he]
  · intro e he
    rcases hwrites e he with hop | hop <;> simp [hop]
  · intro e he
    rcases hremovals e he with (hop | hop) | hop <;> simp [hop]

/-! ## Levels at which directories stop -/

private theorem pairwise_iff_of_distinct {paths : List Path}
    {R : Path → Path → Prop}
    (hdistinct : paths.Pairwise fun p q => same p q = false)
    (hsymm : ∀ p q, R p q → R q p) :
    paths.Pairwise R ↔ ∀ p ∈ paths, ∀ q ∈ paths, same p q = false → R p q := by
  constructor
  · intro h p hp q hq hother
    have : Std.Symm R := ⟨hsymm⟩
    refine h.forall hp hq ?_
    rintro rfl
    rw [same_refl] at hother
    cases hother
  · intro h
    exact hdistinct.imp_of_mem fun hp hq hother => h _ hp _ hq hother

/-- No two needed directories share a level that stops them. -/
def ObstaclesApart (w : Workspace MemoryStore) : Prop :=
  ∀ dir ∈ dirsNeeded w.pending, ∀ dir' ∈ dirsNeeded w.pending,
  same dir dir' = false →
    ∀ q, Obstacle w.storage dir q → ¬ Obstacle w.storage dir' q

private theorem singleErrors_dirsDone (hrooted : w.storage.Rooted) :
    SingleErrors (dirsDone w).report.errors ↔ ObstaclesApart w := by
  have hdistinct : (dirsNeeded w.pending).Pairwise fun p q => same p q = false :=
    (SortedMap.keys_sorted _).imp not_same_of_before
  rw [SingleErrors, (ensured_dirsDone hrooted).errors, List.pairwise_filterMap,
    ObstaclesApart,
    ← pairwise_iff_of_distinct hdistinct fun dir dir' h q hq hq' => h q hq' hq]
  refine List.Pairwise.iff fun dir dir' => ?_
  constructor
  · intro h q hq hq'
    obtain ⟨level, level', hlevel, hlevel', hsame⟩ :=
      (same_blocked?_iff hrooted).2 ⟨q, hq, hq'⟩
    exact h (deniedLevel level) (by simp [hlevel]) (deniedLevel level')
      (by simp [hlevel'])
      ⟨rfl, hsame⟩
  · intro h e he e' he' hrepeats
    obtain ⟨level, hlevel, rfl⟩ := Option.map_eq_some_iff.1 he
    obtain ⟨level', hlevel', rfl⟩ := Option.map_eq_some_iff.1 he'
    obtain ⟨q, hq, hq'⟩ :=
      (same_blocked?_iff hrooted).1 ⟨level, level', hlevel, hlevel', hrepeats.2⟩
    exact h q hq hq'

private theorem op_dirsDone (hrooted : w.storage.Rooted) :
    ∀ e ∈ (dirsDone w).report.errors, e.op = .createDir := by
  intro e he
  rw [(ensured_dirsDone hrooted).errors] at he
  obtain ⟨dir, -, he⟩ := List.mem_filterMap.1 he
  obtain ⟨level, -, rfl⟩ := Option.map_eq_some_iff.1 he
  rfl

/-! ## The lists of directories -/

def SameDirLists (c d : Commit MemoryStore) : Prop :=
  d.report.dirsAdded = c.report.dirsAdded ∧
  d.report.dirsDeleted = c.report.dirsDeleted

private theorem sameDirLists_writeFile (c : Commit MemoryStore)
    (e : Path × String) :
    SameDirLists c (c.writeFile e.1 e.2) := by
  cases hf : c.storage.failing.contains e.1 with
  | true =>
      rw [writeFile_failing e.2 hf]
      exact ⟨rfl, rfl⟩
  | false =>
      by_cases hp : c.storage.files.get? e.1 = some e.2
      · rw [writeFile_unchanged hf hp]
        exact ⟨rfl, rfl⟩
      · rw [writeFile_changed hf hp]
        exact ⟨rfl, rfl⟩

private theorem sameDirLists_removeFile (c : Commit MemoryStore) (p : Path) :
    SameDirLists c (c.removeFile p) := by
  cases hf : c.storage.failing.contains p with
  | true =>
      rcases removeFile_failing c hf with hr | hr <;> rw [hr] <;> exact ⟨rfl, rfl⟩
  | false =>
      cases hp : c.storage.files.contains p with
      | false =>
          rw [removeFile_missing c hf hp]
          exact ⟨rfl, rfl⟩
      | true =>
          rw [removeFile_present c hf hp]
          exact ⟨rfl, rfl⟩

private theorem sameDirLists_removalsDone (w : Workspace MemoryStore) :
    SameDirLists (dirsDone w) (removalsDone w) := by
  have hwrites : SameDirLists (dirsDone w) (writesDone w) :=
    List.foldlRecOn (motive := SameDirLists (dirsDone w)) _ _ ⟨rfl,
      rfl⟩ fun c hc e _ =>
      ⟨(sameDirLists_writeFile c e).1.trans hc.1,
        (sameDirLists_writeFile c e).2.trans hc.2⟩
  exact List.foldlRecOn (motive := SameDirLists (dirsDone w)) _ _ hwrites
    fun c hc p _ =>
    ⟨(sameDirLists_removeFile c p).1.trans hc.1,
      (sameDirLists_removeFile c p).2.trans hc.2⟩

theorem dirsAdded_finished (hrooted : w.storage.Rooted) :
    (∀ q, (∃ p ∈ (finished w).report.dirsAdded, same p q = true) ↔ Made w q) ∧
      (finished w).report.dirsAdded.Pairwise fun p q => same p q = false := by
  obtain ⟨removed, -, hremoved⟩ :=
    exists_dirsRemoved_foldl (dirRemovals w.pending) (removalsDone w)
  have hadded : (finished w).report.dirsAdded = (dirsDone w).report.dirsAdded :=
    hremoved.added.trans (sameDirLists_removalsDone w).1
  have hensured := ensured_dirsDone (w := w) hrooted
  rw [hadded]
  exact ⟨hensured.added, hensured.distinct⟩

theorem dirsRemoved_finished (hrooted : w.storage.Rooted) :
    DirsRemoved (removalsDone w) (finished w) (finished w).report.dirsDeleted ∧
      ∀ p ∈ (finished w).report.dirsDeleted,
      w.pending.get? p = some .removeDir := by
  obtain ⟨removed, hsublist, hremoved⟩ :=
    exists_dirsRemoved_foldl (dirRemovals w.pending) (removalsDone w)
  rw [← finished_eq] at hremoved
  have hdeleted : (finished w).report.dirsDeleted = removed := by
    rw [hremoved.deleted, (sameDirLists_removalsDone w).2,
      (ensured_dirsDone hrooted).deleted, List.nil_append]
  rw [hdeleted]
  exact ⟨hremoved, fun p hp =>
    get?_eq_some_of_mem (mem_dirRemovals.1 (hsublist.subset hp))⟩

theorem DirsRemoved.removed_iff {c d : Commit MemoryStore} {removed : List Path}
    (h : DirsRemoved c d removed) (q : Path) :
    (∃ p ∈ removed, same p q = true) ↔
      c.storage.dirs.contains q = true ∧ d.storage.dirs.contains q = false := by
  rw [Bool.eq_false_iff, Ne, h.contains]
  constructor
  · rintro ⟨p, hp, hsame⟩
    refine ⟨by rw [← contains_congr _ hsame, h.present p hp],
      fun ⟨_, hkept⟩ => ?_⟩
    rw [hkept p hp] at hsame
    cases hsame
  · rintro ⟨hthere, hgone⟩
    by_contra hnone
    refine hgone ⟨hthere, fun p hp => ?_⟩
    rw [Bool.eq_false_iff]
    exact fun hsame => hnone ⟨p, hp, hsame⟩

theorem dirsDeleted_finished (hrooted : w.storage.Rooted)
    (hclosed : w.storage.Closed) :
    (∀ p ∈ (finished w).report.dirsDeleted, w.pending.get? p = some .removeDir) ∧
      (∀ q, q.parts ≠ [] → ((∃ p ∈ (finished w).report.dirsDeleted,
        same p q = true) ↔
        (removalsDone w).storage.dirs.contains q = true ∧ Cleared w q)) ∧
      (finished w).report.dirsDeleted.Pairwise fun p q => same p q = false := by
  obtain ⟨hremoved, hstaged⟩ := dirsRemoved_finished hrooted
  refine ⟨hstaged, fun q hlong => ?_, hremoved.distinct⟩
  rw [hremoved.removed_iff, Bool.eq_false_iff, Ne,
    contains_finished hrooted hclosed hlong]
  refine and_congr_right fun hthere => ?_
  simp [hthere]

/-! ## Levels that are made and removed again -/

theorem Made.not_failing (h : Made w q) : w.storage.failing.contains q = false :=
  h.free q h.long (List.prefix_refl _) h.missing

theorem Made.contains_removalsDone (h : Made w q) (hrooted : w.storage.Rooted)
    (hclosed : w.storage.Closed) :
    (removalsDone w).storage.dirs.contains q = true :=
  (Commit.contains_removalsDone hrooted hclosed).2
    (.inr (.inl ⟨q, h, h.long, List.prefix_refl _⟩))

theorem Made.nothing_below (h : Made w q) (hrooted : w.storage.Rooted)
    (hbelow : q.parts <+: p.parts) :
    w.storage.isDir p = false := by
  rw [Bool.eq_false_iff]
  intro hdir
  have hthere := hrooted.isDir hdir h.long hbelow
  rw [h.missing] at hthere
  cases hthere

/-- The staged changes keep something below: a file that is written, or another
made level that is not to be removed. -/
def Upheld (w : Workspace MemoryStore) (q : Path) : Prop :=
  ∃ r, Below r q ∧
    ((∃ content, w.pending.get? r = some (.write content)) ∧
      w.storage.failing.contains r = false ∨
      Made w r ∧ w.pending.get? r ≠ some .removeDir)

theorem Made.cleared_iff (h : Made w q) (hrooted : w.storage.Rooted)
    (hclosed : w.storage.Closed) :
    Cleared w q ↔ w.pending.get? q = some .removeDir ∧ ¬ Upheld w q := by
  constructor
  · rintro ⟨hfiles, hdirs⟩
    have hstaged (r : Path) (hr : Made w r) (hbelow : q.parts <+: r.parts) :
        w.pending.get? r = some .removeDir :=
      exists_dirRemovals_iff.1
        (hdirs r (hr.contains_removalsDone hrooted hclosed) hbelow).1
    refine ⟨hstaged q h (List.prefix_refl _), ?_⟩
    rintro ⟨r, hbelow, hwritten | ⟨hr, hkept⟩⟩
    · refine hfiles r ?_ hbelow
      rw [files_removalsDone]
      exact contains_files_finished.2 (.inl hwritten)
    · exact hkept (hstaged r hr hbelow.1)
  · rintro ⟨hq, hnone⟩
    have hunwritten (r : Path) (hbelow : Below r q) (content : String)
        (hr : w.pending.get? r = some (.write content)) :
        w.storage.failing.contains r = true := by
      by_contra hfree
      exact hnone ⟨r, hbelow, .inl ⟨⟨content, hr⟩, Bool.eq_false_iff.2 hfree⟩⟩
    constructor
    · intro file hfile hbelow
      rw [files_removalsDone, contains_files_finished] at hfile
      rcases hfile with ⟨⟨content, hfile⟩, hfree⟩ | ⟨hfile, -⟩
      · rw [hunwritten file hbelow content hfile] at hfree
        cases hfree
      · have hknown := hclosed file q hfile h.long hbelow.1 hbelow.2
        have hmissing := h.missing
        rw [MemoryStore.isDir_iff.2 (.inr hknown)] at hmissing
        cases hmissing
    · intro r hr hbelow
      have hmissing : w.storage.isDir r = false := h.nothing_below hrooted hbelow
      have hmade : Made w r := by
        rcases (Commit.contains_removalsDone hrooted hclosed).1 hr with
          hold | ⟨r', hr', hlong, habove⟩ | ⟨p, content, hp, hfree, hlong, habove⟩
        · rw [MemoryStore.isDir_iff.2 (.inr hold)] at hmissing
          cases hmissing
        · exact hr'.above hlong habove hmissing
        · rw [hunwritten p (habove.above hbelow) content
            (get?_eq_some_of_mem hp)] at hfree
          cases hfree
      rw [failing_removalsDone]
      refine ⟨exists_dirRemovals_iff.2 ?_, hmade.not_failing⟩
      by_cases hparts : q.parts = r.parts
      · rw [← get?_congr _ (Path.same_key_iff.2 hparts), hq]
      · by_contra hkept
        exact hnone ⟨r, ⟨hbelow, hparts⟩, .inr ⟨hmade, hkept⟩⟩

/-! ## Lists without a common path -/

/-- No made level is written or removed as a file. -/
def FilesApart (w : Workspace MemoryStore) : Prop :=
  ∀ q, Made w q →
    (∀ content, w.pending.get? q = some (.write content) →
      w.storage.files.get? q = some content) ∧
    (w.pending.get? q = some .removeFile → w.storage.files.contains q = false)

/-- Every made level that is to be removed is upheld. -/
def MadeStays (w : Workspace MemoryStore) : Prop :=
  ∀ q, Made w q → w.pending.get? q = some .removeDir → Upheld w q

private theorem filesApart_iff (hrooted : w.storage.Rooted) :
    FilesApart w ↔
      (∀ p ∈ (finished w).report.written, ∀ q ∈ (finished w).report.dirsAdded,
        same p q = false) ∧
      ∀ p ∈ (finished w).report.deleted, ∀ q ∈ (finished w).report.dirsAdded,
      same p q = false := by
  obtain ⟨hadded, -⟩ := dirsAdded_finished hrooted
  constructor
  · intro h
    have hmade (p q : Path) (hq : q ∈ (finished w).report.dirsAdded)
        (hsame : same p q = true) :
        Made w p := (hadded p).1 ⟨q, hq, same_symm hsame⟩
    constructor
    · intro p hp q hq
      obtain ⟨content, hstaged, -, hchanged⟩ := (mem_written_finished w).1 hp
      rw [Bool.eq_false_iff]
      exact fun hsame =>
        hchanged ((h p (hmade p q hq hsame)).1 content
          (get?_eq_some_of_mem hstaged))
    · intro p hp q hq
      obtain ⟨hstaged, -, hthere⟩ := (mem_deleted_finished w).1 hp
      rw [Bool.eq_false_iff]
      intro hsame
      rw [(h p (hmade p q hq hsame)).2 (get?_eq_some_of_mem hstaged)] at hthere
      cases hthere
  · rintro ⟨hwritten, hdeleted⟩ q hq
    obtain ⟨dir, hdir, hdir'⟩ := (hadded q).2 hq
    have happart (p : Path) (hp : same p q = true) : same p dir = true :=
      same_trans hp (same_symm hdir')
    constructor
    · intro content hstaged
      obtain ⟨p, hp, hsame⟩ := get?_eq_some_iff.1 hstaged
      by_contra hchanged
      have hreported : p ∈ (finished w).report.written := by
        refine (mem_written_finished w).2 ⟨content, hp, ?_, ?_⟩
        · rw [contains_congr _ hsame, hq.not_failing]
        · rwa [get?_congr _ hsame]
      have hother := hwritten p hreported dir hdir
      rw [happart p hsame] at hother
      cases hother
    · intro hstaged
      obtain ⟨p, hp, hsame⟩ := get?_eq_some_iff.1 hstaged
      rw [Bool.eq_false_iff]
      intro hthere
      have hreported : p ∈ (finished w).report.deleted := by
        refine (mem_deleted_finished w).2 ⟨hp, ?_, ?_⟩
        · rw [contains_congr _ hsame, hq.not_failing]
        · rw [contains_congr _ hsame, hthere]
      have hother := hdeleted p hreported dir hdir
      rw [happart p hsame] at hother
      cases hother

private theorem madeStays_iff (hrooted : w.storage.Rooted)
    (hclosed : w.storage.Closed) :
    MadeStays w ↔
      ∀ p ∈ (finished w).report.dirsAdded, ∀ q ∈ (finished w).report.dirsDeleted,
        same p q = false := by
  obtain ⟨hadded, -⟩ := dirsAdded_finished hrooted
  obtain ⟨hstaged, hdeleted, -⟩ := dirsDeleted_finished hrooted hclosed
  constructor
  · intro h p hp q hq
    rw [Bool.eq_false_iff]
    intro hsame
    have hmade : Made w q := (hadded q).1 ⟨p, hp, hsame⟩
    have hcleared := ((hdeleted q hmade.long).1 ⟨q, hq, same_refl q⟩).2
    exact ((hmade.cleared_iff hrooted hclosed).1 hcleared).2
      (h q hmade (hstaged q hq))
  · intro h q hq hremoved
    by_contra hfree
    have hcleared : Cleared w q :=
      (hq.cleared_iff hrooted hclosed).2 ⟨hremoved, hfree⟩
    obtain ⟨dir, hdir, hsame⟩ :=
      (hdeleted q hq.long).2 ⟨hq.contains_removalsDone hrooted hclosed, hcleared⟩
    obtain ⟨dir', hdir', hsame'⟩ := (hadded q).2 hq
    have hother := h dir' hdir' dir hdir
    rw [same_trans hsame' (same_symm hsame)] at hother
    cases hother

private theorem isDisjoint_finished (hrooted : w.storage.Rooted)
    (hclosed : w.storage.Closed) :
    (finished w).report.IsDisjoint ↔ FilesApart w ∧ MadeStays w := by
  obtain ⟨hstaged, -, -⟩ := dirsDeleted_finished hrooted hclosed
  have hkinds {p q : Path} {k₁ k₂ : Change} (hp : (p, k₁) ∈ w.pending.entries)
      (hq : w.pending.get? q = some k₂) (hne : k₁ ≠ k₂) : same p q = false := by
    obtain ⟨q', hq', hsame⟩ := get?_eq_some_iff.1 hq
    rw [← same_right_congr hsame]
    exact not_same_of_kinds hp hq' hne
  have hwritten : ∀ p ∈ (finished w).report.written,
      ∃ content, (p, .write content) ∈ w.pending.entries := fun p hp =>
    ((mem_written_finished w).1 hp).imp fun _ h => h.1
  have hdeleted : ∀ p ∈ (finished w).report.deleted,
      (p, .removeFile) ∈ w.pending.entries :=
    fun p hp => ((mem_deleted_finished w).1 hp).1
  rw [filesApart_iff hrooted, madeStays_iff hrooted hclosed,
    CommitReport.IsDisjoint]
  simp only [List.pairwise_cons, List.mem_cons, List.not_mem_nil, or_false,
    forall_eq_or_imp,
    forall_eq, List.Pairwise.nil, false_imp_iff, implies_true, and_true]
  constructor
  · rintro ⟨⟨-, hwa, -⟩, ⟨hda, -⟩, har⟩
    exact ⟨⟨hwa, hda⟩, har⟩
  · rintro ⟨⟨hwa, hda⟩, har⟩
    refine ⟨⟨fun p hp q hq => ?_, hwa, fun p hp q hq => ?_⟩,
      ⟨hda, fun p hp q hq => ?_⟩, har⟩
    · obtain ⟨content, hp⟩ := hwritten p hp
      exact not_same_of_kinds hp (hdeleted q hq) (by simp)
    · obtain ⟨content, hp⟩ := hwritten p hp
      exact hkinds hp (hstaged q hq) (by simp)
    · exact hkinds (hdeleted p hp) (hstaged q hq) (by simp)

end Commit

theorem CommitReport.isDisjoint_sorted {r : CommitReport} :
    r.sorted.IsDisjoint ↔ r.IsDisjoint := by
  simp only [IsDisjoint, CommitReport.sorted, List.pairwise_cons, List.mem_cons,
    List.not_mem_nil, or_false, forall_eq_or_imp, forall_eq, Path.mem_sorted]

namespace Workspace

/-- The lists of a report are sorted, whatever fails.  They share no path
exactly if no directory is made where a file is written or removed, or where a
directory is then removed; and no two errors are of one operation on one path
exactly if no two directories that are needed stop at one level. -/
theorem commit_wellFormed_iff (w : Workspace MemoryStore) {edits : List Edit}
    (hstorage : w.storage = MemoryStore.empty.editAll edits) :
    w.commit.1.IsOrdered ∧
      (w.commit.1.IsDisjoint ↔ Commit.FilesApart w ∧ Commit.MadeStays w) ∧
      (SingleErrors w.commit.1.errors ↔ Commit.ObstaclesApart w) := by
  have hrooted : w.storage.Rooted := hstorage ▸ MemoryStore.rooted_editAll edits
  have hclosed : w.storage.Closed := hstorage ▸ MemoryStore.closed_editAll edits
  rw [Commit.commit_eq]
  refine ⟨?_, ?_, ?_⟩
  · have hwritten := Commit.written_sorted w
    have hdeleted := Commit.deleted_sorted w
    rw [← Path.sorted_of_before hwritten] at hwritten
    rw [← Path.sorted_of_before hdeleted] at hdeleted
    have hadded := Path.before_of_sorted (Commit.dirsAdded_finished hrooted).2
    have hremoved :=
      Path.before_of_sorted (Commit.dirsDeleted_finished hrooted hclosed).2.2
    simp only [CommitReport.IsOrdered, List.mem_cons, List.not_mem_nil, or_false,
      forall_eq_or_imp, forall_eq]
    exact ⟨hwritten, hdeleted, hadded, hremoved⟩
  · exact CommitReport.isDisjoint_sorted.trans
      (Commit.isDisjoint_finished hrooted hclosed)
  · exact (Commit.singleErrors_finished (Commit.op_dirsDone hrooted)).trans
      (Commit.singleErrors_dirsDone hrooted)

end Workspace

/-! ## Directories that are made where paths fail -/

def deniedEdits : List Edit :=
  [.failOn ⟨"/a"⟩, .failOn ⟨"/d/f"⟩]

/-- The directory that is made for one file and is to be removed is upheld by
the other file. -/
def upheldWorkspace : Workspace MemoryStore :=
  ((((Workspace.ofStorage (MemoryStore.empty.editAll deniedEdits)).stageWrite
    ⟨"/a/b/x"⟩
    "text").stageWrite ⟨"/d/f"⟩ "text").stageWrite ⟨"/d/g"⟩
      "text").stageRemoveDir ⟨"/d"⟩

theorem commit_wellFormed_upheld :
    let r := upheldWorkspace.commit.1
    upheldWorkspace.storage = MemoryStore.empty.editAll deniedEdits ∧
    r.IsOrdered ∧
      r.dirsAdded = [⟨"/d"⟩] ∧ r.errors.length = 2 ∧
      Commit.FilesApart upheldWorkspace ∧
      Commit.MadeStays upheldWorkspace ∧
      Commit.ObstaclesApart upheldWorkspace := by
  intro r
  have hstorage :
      upheldWorkspace.storage = MemoryStore.empty.editAll deniedEdits := rfl
  obtain ⟨hordered, hdisjoint, hsingle⟩ :=
    Workspace.commit_wellFormed_iff upheldWorkspace hstorage
  have hapart : upheldWorkspace.commit.1.IsDisjoint := by
    rw [Commit.commit_eq, CommitReport.isDisjoint_sorted]
    decide +kernel
  obtain ⟨hfiles, hmade⟩ := hdisjoint.1 hapart
  refine ⟨hstorage, hordered, ?_, ?_, hfiles, hmade,
    hsingle.1 (by decide +kernel)⟩
  · decide +kernel
  · decide +kernel

/-- Without the other file the directory is reported as added and as deleted.  A
second directory below the one that cannot be made has the same error again. -/
def strandedWorkspace : Workspace MemoryStore :=
  ((((Workspace.ofStorage (MemoryStore.empty.editAll deniedEdits)).stageWrite
    ⟨"/a/b/x"⟩
    "text").stageWrite ⟨"/a/c/y"⟩ "text").stageWrite ⟨"/d/f"⟩
      "text").stageRemoveDir ⟨"/d"⟩

theorem commit_report_stranded :
    strandedWorkspace.storage = MemoryStore.empty.editAll deniedEdits ∧
      ¬ strandedWorkspace.commit.1.IsDisjoint ∧
      ¬ SingleErrors strandedWorkspace.commit.1.errors := by
  refine ⟨rfl, ?_, ?_⟩
  · decide +kernel
  · decide +kernel

end ComponentBuild
