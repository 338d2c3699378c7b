import ComponentBuild.Proofs.Path.Ending
import ComponentBuild.Proofs.SortedMap.Entries
import ComponentBuild.Proofs.Workspace.Tree

/-!
# Files that are listed before and after a commit

A workspace lists what storage has, without the files staged for removal and
with those staged for writing.  The commit leaves just these files, with one
difference: a file that is overwritten keeps the path under which it was first
stored, and its ending is looked for in that path.
-/

namespace ComponentBuild

open KeyOrder SortedMap

/-! ## Stored paths after a commit -/

namespace Commit

section Rounds

variable {c : Commit MemoryStore} {p : Path}

private theorem mem_keys_writeFile (hfree : c.storage.failing = ∅)
    (e : Path × String) :
    p ∈ (c.writeFile e.1 e.2).storage.files.keys ↔
      p ∈ c.storage.files.keys ∨
      p = e.1 ∧ c.storage.files.contains e.1 = false := by
  have hf := MemoryStore.not_failing hfree e.1
  by_cases hp : c.storage.files.get? e.1 = some e.2
  · have hthere : c.storage.files.contains e.1 = true := by
      rw [contains_eq_isSome, hp]; rfl
    rw [writeFile_unchanged hf hp]
    simp [hthere]
  · rw [writeFile_changed hf hp, MemoryStore.files_written]
    exact mem_keys_insert_iff

private theorem mem_keys_foldl_writeFile (hfree : c.storage.failing = ∅)
    {batch : List (Path × String)}
    (hdistinct : batch.Pairwise fun a b => same a.1 b.1 = false) :
    p ∈ (batch.foldl (fun c e => c.writeFile e.1 e.2) c).storage.files.keys ↔
      p ∈ c.storage.files.keys ∨
        ∃ content, (p, content) ∈ batch ∧ c.storage.files.contains p = false := by
  induction batch generalizing c with
  | nil => simp
  | cons e batch ih =>
      obtain ⟨hfirst, hrest⟩ := List.pairwise_cons.1 hdistinct
      have hwritten := written_writeFile c e
      have hfree' : (c.writeFile e.1 e.2).storage.failing = ∅ :=
        hwritten.failing.trans hfree
      have hothers (content : String) (hp : (p, content) ∈ batch) :
          (c.writeFile e.1 e.2).storage.files.contains p =
            c.storage.files.contains p := by
        have hother : ∀ e' ∈ [e], same e'.1 p = false := by
          intro e' he'
          rw [List.mem_singleton.1 he']
          exact hfirst (p, content) hp
        rw [contains_eq_isSome, contains_eq_isSome, hwritten.kept hother]
      rw [List.foldl_cons, ih hfree' hrest, mem_keys_writeFile hfree, or_assoc]
      refine or_congr_right ⟨?_, ?_⟩
      · rintro (⟨rfl, hnew⟩ | ⟨content, hp, hnew⟩)
        · exact ⟨e.2, List.mem_cons_self, hnew⟩
        · exact ⟨content, List.mem_cons_of_mem _ hp,
            by rwa [← hothers content hp]⟩
      · rintro ⟨content, hp, hnew⟩
        rcases List.mem_cons.1 hp with rfl | hp
        · exact .inl ⟨rfl, hnew⟩
        · exact .inr ⟨content, hp, by rwa [hothers content hp]⟩

private theorem mem_keys_removeFile (hfree : c.storage.failing = ∅) (q : Path) :
    p ∈ (c.removeFile q).storage.files.keys ↔
      p ∈ c.storage.files.keys ∧ same p q = false := by
  have hf := MemoryStore.not_failing hfree q
  cases hq : c.storage.files.contains q with
  | true =>
      rw [removeFile_present c hf hq]
      exact mem_keys_erase_iff
  | false =>
      rw [removeFile_missing c hf hq]
      refine ⟨fun hp => ⟨hp, ?_⟩, And.left⟩
      rw [Bool.eq_false_iff]
      intro hsame
      rw [← contains_congr _ hsame, contains_of_mem_keys hp] at hq
      cases hq

private theorem mem_keys_foldl_removeFile (hfree : c.storage.failing = ∅)
    (batch : List Path) :
    p ∈ (batch.foldl removeFile c).storage.files.keys ↔
      p ∈ c.storage.files.keys ∧ ∀ q ∈ batch, same p q = false := by
  induction batch generalizing c with
  | nil => simp
  | cons q batch ih =>
      have hfree' : (c.removeFile q).storage.failing = ∅ :=
        (removed_removeFile c q).failing.trans hfree
      rw [List.foldl_cons, ih hfree', mem_keys_removeFile hfree,
        List.forall_mem_cons, and_assoc]

end Rounds

theorem mem_keys_finished {w : Workspace MemoryStore}
    (hfree : w.storage.failing = ∅) {p : Path} :
    p ∈ (finished w).storage.files.keys ↔
      p ∈ w.storage.files.keys ∧ w.pending.get? p ≠ some .removeFile ∨
        ∃ content, (p, .write content) ∈ w.pending.entries ∧
        w.storage.files.contains p = false := by
  have hdirs := (filesKept_dirsDone w).storage
  have hfree' : (dirsDone w).storage.failing = ∅ := hdirs.failing.trans hfree
  have hfree'' : (writesDone w).storage.failing = ∅ :=
    (written_writesDone w).failing.trans hfree'
  have hremoved : (∀ q ∈ pathsOf w.pending .removeFile, same p q = false) ↔
      w.pending.get? p ≠ some .removeFile := by
    rw [Ne, get?_eq_some_iff]
    simp only [mem_pathsOf, not_exists, not_and, Bool.not_eq_true, same_comm p]
  rw [(filesKept_finished w).storage.files, removalsDone,
    mem_keys_foldl_removeFile hfree'', hremoved,
    writesDone, mem_keys_foldl_writeFile hfree'
      ((writesOf_sorted w.pending).imp not_same_of_before),
    hdirs.files, or_and_right]
  simp only [mem_writesOf]
  refine or_congr_right (and_iff_left_of_imp ?_)
  rintro ⟨content, hp, -⟩
  rw [get?_eq_some_of_mem hp]
  simp

end Commit

namespace Workspace

variable {w : Workspace MemoryStore} {dir p : Path} {ending : String}

/-! ## What a workspace lists -/

def keptFiles (w : Workspace MemoryStore) (dir : Path) (ending : String) :
    List Path :=
  (w.storage.listed dir ending).filter fun p =>
  w.pending.get? p != some .removeFile

def newFiles (w : Workspace MemoryStore) (dir : Path) (ending : String) :
    List Path :=
  ((Commit.writesOf w.pending).map (·.1)).filter fun p =>
    p.isWithin dir && p.endsWith ending && !(w.keptFiles dir ending).any p.same

private theorem mem_keptFiles : p ∈ w.keptFiles dir ending ↔
    (p.isWithin dir = true ∧ p.endsWith ending = true) ∧
      p ∈ w.storage.files.keys ∧ w.pending.get? p ≠ some .removeFile := by
  rw [keptFiles, MemoryStore.listed, List.mem_filter, List.mem_filter,
    Bool.and_eq_true, bne_iff_ne, and_assoc]
  exact and_left_comm

private theorem mem_newFiles : p ∈ w.newFiles dir ending ↔
    (p.isWithin dir = true ∧ p.endsWith ending = true) ∧
      (∃ content, (p, .write content) ∈ w.pending.entries) ∧
        ∀ k ∈ w.keptFiles dir ending, same k p = false := by
  have hstaged : p ∈ (Commit.writesOf w.pending).map (·.1) ↔
      ∃ content, (p, .write content) ∈ w.pending.entries := by
    simp [Commit.mem_writesOf]
  have hnone : ((w.keptFiles dir ending).any p.same) = false ↔
      ∀ k ∈ w.keptFiles dir ending, same k p = false := by
    rw [List.any_eq_false]
    simp only [Path.same_eq_same_key, same_comm p, Bool.not_eq_true]
  rw [newFiles, List.mem_filter, hstaged, Bool.and_eq_true, Bool.and_eq_true,
    Bool.not_eq_true', hnone]
  exact and_left_comm

private theorem listed_distinct (w : Workspace MemoryStore) (dir : Path)
    (ending : String) :
    (w.keptFiles dir ending ++ w.newFiles dir ending).Pairwise fun p q =>
      same p q = false := by
  have hstaged : ((Commit.writesOf w.pending).map (·.1)).Pairwise fun p q =>
      same p q = false :=
    List.pairwise_map.2 ((Commit.writesOf_sorted w.pending).imp
      not_same_of_before)
  refine List.pairwise_append.2 ⟨?_, hstaged.filter _,
    fun k hk p hp => (mem_newFiles.1 hp).2.2 k hk⟩
  exact ((w.storage.files.keys_sorted.filter _).filter _).imp not_same_of_before

private theorem filterMap_write (pending : SortedMap Path Change)
    (test : Path → Bool) :
    (pending.entries.filterMap fun
      | (p, .write _) => if test p then some p else none
      | _ => none) = ((Commit.writesOf pending).map (·.1)).filter test := by
  rw [Commit.writesOf, List.map_filterMap, List.filter_filterMap]
  refine List.filterMap_congr fun e _ => ?_
  obtain ⟨p, change⟩ := e
  cases change with
  | write content => cases htest : test p <;> simp [Option.filter, htest]
  | removeFile | addDir | removeDir => rfl

private theorem findFiles_eq (hclosed : w.storage.Closed) (hdir : dir.IsNormal)
    (hlong : dir.parts ≠ []) (hfile : w.storage.files.contains dir = false)
    (ending : String) :
    w.findFiles dir ending = .ok
      (Path.sorted (w.keptFiles dir ending ++ w.newFiles dir ending)) := by
  have hstored :
      Storage.findFiles w.storage dir ending = w.storage.findFiles dir ending :=
        rfl
  unfold findFiles
  rw [hdir.normalize_eq]
  dsimp only
  rw [hstored]
  rcases hclosed.findFiles hlong hfile ending with hfound | ⟨hmissing, hnone⟩
  · rw [hfound, newFiles, ← filterMap_write]
    rfl
  · rw [hmissing, newFiles, ← filterMap_write, keptFiles, hnone]
    rfl

/-- The list of files with the ending at and below the normal path `dir`.  A
staged write is left out if storage has its file under a path with the ending:
that path is listed. -/
structure Lists (w : Workspace MemoryStore) (dir : Path) (ending : String)
    (found : List Path) :
    Prop where
  result : w.findFiles dir ending = .ok found
  sorted : found.Pairwise fun p q => before p q = true
  mem : ∀ p, p ∈ found ↔ (p.isWithin dir = true ∧ p.endsWith ending = true) ∧
    (p ∈ w.storage.files.keys ∧ w.pending.get? p ≠ some .removeFile ∨
      ∃ content, (p, .write content) ∈ w.pending.entries ∧
        ∀ k ∈ w.storage.files.keys, same k p = true → k.endsWith ending = false)

private theorem exists_lists (hclosed : w.storage.Closed) (hdir : dir.IsNormal)
    (hlong : dir.parts ≠ []) (hfile : w.storage.files.contains dir = false)
    (ending : String) :
    ∃ found, w.Lists dir ending found := by
  refine ⟨_, findFiles_eq hclosed hdir hlong hfile ending,
    Path.before_of_sorted (listed_distinct w dir ending), fun p => ?_⟩
  rw [Path.mem_sorted, List.mem_append, mem_keptFiles, mem_newFiles,
    ← and_or_left]
  refine and_congr_right fun ⟨hwithin, hends⟩ => or_congr_right ?_
  constructor
  · rintro ⟨⟨content, hp⟩, hnew⟩
    refine ⟨content, hp, fun k hk hsame => ?_⟩
    rw [Bool.eq_false_iff]
    intro hkends
    have hstaged : w.pending.get? k ≠ some .removeFile := by
      rw [get?_congr _ hsame, get?_eq_some_of_mem hp]
      simp
    have hkwithin : k.isWithin dir = true := by
      rwa [Path.isWithin, Path.same_key_iff.1 hsame]
    have hother := hnew k (mem_keptFiles.2 ⟨⟨hkwithin, hkends⟩, hk, hstaged⟩)
    rw [hsame] at hother
    cases hother
  · rintro ⟨content, hp, hunlisted⟩
    refine ⟨⟨content, hp⟩, fun k hk => ?_⟩
    obtain ⟨⟨-, hkends⟩, hk, -⟩ := mem_keptFiles.1 hk
    rw [Bool.eq_false_iff]
    intro hsame
    rw [hunlisted k hk hsame] at hkends
    cases hkends

/-! ## Listing again after a commit -/

/-- What is staged for writing and has the ending is not stored under a path
without it. -/
def KeepsEndings (w : Workspace MemoryStore) (dir : Path) (ending : String) :
    Prop :=
  ∀ p content, (p, .write content) ∈ w.pending.entries → p.isWithin dir = true →
    p.endsWith ending = true → ∀ k ∈ w.storage.files.keys, same k p = true →
      k.endsWith ending = true

theorem Lists.eq_iff {shown stored : List Path} (h : w.Lists dir ending shown)
    (h' : w.commit.2.Lists dir ending stored) (hfree : w.storage.failing = ∅) :
    shown = stored ↔ w.KeepsEndings dir ending := by
  have hstored (p : Path) :
      p ∈ stored ↔ (p.isWithin dir = true ∧ p.endsWith ending = true) ∧
      p ∈ (Commit.finished w).storage.files.keys := by
    rw [h'.mem, Commit.commit_eq]
    simp
  constructor
  · rintro rfl p content hp hwithin hends k hk hsame
    by_contra hkends
    have hlisted : p ∈ shown := by
      refine (h.mem p).2 ⟨⟨hwithin, hends⟩,
        .inr ⟨content, hp, fun k' hk' hsame' => ?_⟩⟩
      rw [eq_of_mem_keys hk' hk (same_trans hsame' (same_symm hsame))]
      exact Bool.eq_false_iff.2 hkends
    rcases (Commit.mem_keys_finished hfree).1 ((hstored p).1 hlisted).2 with
      ⟨hthere, -⟩ | ⟨-, -, hmissing⟩
    · rw [eq_of_mem_keys hk hthere hsame] at hkends
      exact hkends hends
    · rw [← contains_congr _ hsame, contains_of_mem_keys hk] at hmissing
      cases hmissing
  · intro hkeeps
    refine eq_of_mem_iff (fun _ _ => not_before_of_before) h.sorted h'.sorted
      fun p => ?_
    rw [h.mem, hstored, Commit.mem_keys_finished hfree]
    refine and_congr_right fun ⟨hwithin, hends⟩ =>
      or_congr_right (exists_congr fun content =>
      and_congr_right fun hp =>
      ⟨fun hunlisted => ?_, fun hmissing k hk hsame => ?_⟩)
    · rw [Bool.eq_false_iff]
      intro hthere
      obtain ⟨k, hk, hsame⟩ := exists_mem_keys_of_contains hthere
      have hkends := hkeeps p content hp hwithin hends k hk hsame
      rw [hunlisted k hk hsame] at hkends
      cases hkends
    · rw [← contains_congr _ hsame, contains_of_mem_keys hk] at hmissing
      cases hmissing

private theorem findFiles_normalize (w : Workspace MemoryStore) (dir : Path)
    (ending : String) :
    w.findFiles dir ending = w.findFiles dir.normalize ending := by
  unfold findFiles
  rw [dir.isNormal_normalize.normalize_eq]

/-- Listing a directory gives a sorted list before and after a commit.  Nothing
is listed anew, removed or left out by the commit, unless what a staged write
overwrites is stored under a path without the ending. -/
theorem findFiles_commit_iff (w : Workspace MemoryStore) {edits : List Edit}
    (hstorage : w.storage = MemoryStore.empty.editAll edits)
    (hfree : w.storage.failing = ∅) (dir : Path) (ending : String)
    (hlong : dir.normalize.parts ≠ [])
    (hfile : w.storage.files.contains dir.normalize = false)
    (hwrite : ∀ content, w.pending.get? dir.normalize ≠ some (.write content)) :
    ∃ shown stored,
      w.findFiles dir ending = .ok shown ∧
      w.commit.2.findFiles dir ending = .ok stored ∧
      shown.Pairwise (fun p q => before p q = true) ∧
      stored.Pairwise (fun p q => before p q = true) ∧
      (shown = stored ↔ w.KeepsEndings dir.normalize ending) := by
  have hclosed : w.storage.Closed := hstorage ▸ MemoryStore.closed_editAll edits
  have hclosed' : w.commit.2.storage.Closed := by
    rw [Commit.commit_eq]
    exact Commit.keeps_finished MemoryStore.keeps_closed hclosed
  have hfile' : w.commit.2.storage.files.contains dir.normalize = false := by
    rw [Commit.commit_eq, Bool.eq_false_iff, Ne, Commit.contains_files_finished]
    rintro (⟨⟨content, hp⟩, -⟩ | ⟨hthere, -⟩)
    · exact hwrite content hp
    · rw [hfile] at hthere
      cases hthere
  obtain ⟨shown, hshown⟩ :=
    exists_lists hclosed dir.isNormal_normalize hlong hfile ending
  obtain ⟨stored, hstored⟩ :=
    exists_lists hclosed' dir.isNormal_normalize hlong hfile' ending
  refine ⟨shown, stored, ?_, ?_, hshown.sorted, hstored.sorted,
    hshown.eq_iff hstored hfree⟩
  · rw [findFiles_normalize, hshown.result]
  · rw [findFiles_normalize, hstored.result]

end Workspace

/-! ## A file that is listed and one that is not listed again -/

def siblingEdits : List Edit :=
  [.insert ⟨"/a/b"⟩ "text", .insert ⟨"/a/old.b"⟩ "text"]

/-- One file is overwritten, one removed and one new. -/
def siblingWorkspace : Workspace MemoryStore :=
  (((Workspace.ofStorage (MemoryStore.empty.editAll siblingEdits)).stageWrite
    ⟨"/a/b"⟩
    "more").stageRemove ⟨"/a/old.b"⟩).stageWrite ⟨"/a/c/new.b"⟩ "text"

theorem findFiles_commit_siblings :
    siblingWorkspace.storage = MemoryStore.empty.editAll siblingEdits ∧
      siblingWorkspace.storage.failing = ∅ ∧
      (⟨"/a"⟩ : Path).normalize.parts ≠ [] ∧
      siblingWorkspace.storage.files.contains (⟨"/a"⟩ : Path).normalize = false ∧
      (∀ content, siblingWorkspace.pending.get? (⟨"/a"⟩ : Path).normalize ≠
        some (.write content)) ∧
      siblingWorkspace.KeepsEndings (⟨"/a"⟩ : Path).normalize "b" ∧
      ∃ found, siblingWorkspace.findFiles ⟨"/a"⟩ "b" = .ok found ∧
        siblingWorkspace.commit.2.findFiles ⟨"/a"⟩ "b" = .ok found := by
  have hstorage :
      siblingWorkspace.storage = MemoryStore.empty.editAll siblingEdits := rfl
  have hlong : (⟨"/a"⟩ : Path).normalize.parts ≠ [] := by decide +kernel
  have hfile :
      siblingWorkspace.storage.files.contains (⟨"/a"⟩ : Path).normalize =
        false := by
    decide +kernel
  have hunstaged :
      siblingWorkspace.pending.get? (⟨"/a"⟩ : Path).normalize = none := by
    decide +kernel
  have hwrite : ∀ content,
      siblingWorkspace.pending.get? (⟨"/a"⟩ : Path).normalize ≠
        some (.write content) := by
    rw [hunstaged]
    simp
  have hkeeps : siblingWorkspace.KeepsEndings (⟨"/a"⟩ : Path).normalize "b" := by
    have hkeys : ∀ k ∈ siblingWorkspace.storage.files.keys,
        k.endsWith "b" = true := by
      decide +kernel
    exact fun p content _ _ _ k hk _ => hkeys k hk
  obtain ⟨shown, stored, hshown, hstored, -, -, heq⟩ :=
    Workspace.findFiles_commit_iff siblingWorkspace hstorage rfl ⟨"/a"⟩ "b"
      hlong hfile hwrite
  rw [← heq.2 hkeeps] at hstored
  exact ⟨hstorage, rfl, hlong, hfile, hwrite, hkeeps, shown, hshown, hstored⟩

/-- The file is stored under a path that ends in a slash and then overwritten. -/
def slashWorkspace : Workspace MemoryStore :=
  (Workspace.ofStorage (MemoryStore.empty.editAll
    [.insert ⟨"/a/b/"⟩ "old"])).stageWrite ⟨"/a/b"⟩ "new"

theorem findFiles_forgotten :
    slashWorkspace.storage = MemoryStore.empty.editAll [.insert ⟨"/a/b/"⟩ "old"] ∧
      slashWorkspace.storage.failing = ∅ ∧ (⟨"/a"⟩ : Path).normalize.parts ≠ [] ∧
      slashWorkspace.storage.files.contains (⟨"/a"⟩ : Path).normalize = false ∧
      slashWorkspace.pending.get? (⟨"/a"⟩ : Path).normalize = none ∧
      slashWorkspace.findFiles ⟨"/a"⟩ "b" = .ok [⟨"/a/b"⟩] ∧
      slashWorkspace.commit.2.findFiles ⟨"/a"⟩ "b" = .ok [] := by
  refine ⟨rfl, rfl, ?_, ?_, ?_, ?_, ?_⟩
  all_goals decide +kernel

end ComponentBuild
