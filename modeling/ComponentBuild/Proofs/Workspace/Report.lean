import ComponentBuild.Proofs.Workspace.Commit

/-!
# The report of a commit on files is exact

Whatever is staged and whichever paths fail, the report names the files that the
commit changed and no others.
-/

namespace ComponentBuild

open KeyOrder SortedMap

namespace Path

theorem same_eq_same_key (p q : Path) : p.same q = KeyOrder.same p q := by
  rw [Bool.eq_iff_iff, same_key_iff, Path.same, beq_iff_eq]

theorem sorted_of_before {paths : List Path}
    (h : paths.Pairwise fun p q => before p q = true) : sorted paths = paths :=
  List.mergeSort_of_pairwise (h.imp fun hpq => by simp [asymm hpq])

end Path

namespace Commit

private theorem filter_same_eq_singleton {batch : List (Path × String)}
    {e : Path × String}
    (hdistinct : batch.Pairwise fun a b => same a.1 b.1 = false)
    (he : e ∈ batch) :
    batch.filter (fun a => same a.1 e.1) = [e] := by
  induction batch with
  | nil => simp at he
  | cons a rest ih =>
      obtain ⟨ha, hrest⟩ := List.pairwise_cons.1 hdistinct
      rcases List.mem_cons.1 he with rfl | he
      · have hnone : rest.filter (fun b => same b.1 e.1) = [] := by
          rw [List.filter_eq_nil_iff]
          intro b hb
          simp [same_comm b.1, ha b hb]
        rw [List.filter_cons, if_pos (same_refl e.1), hnone]
      · rw [List.filter_cons, if_neg (by simp [ha e he]), ih hrest he]

end Commit

/-- A report `r` and a store `s` say exactly what committing the changes staged
in `w` does to files. -/
structure FilesCommitted (w : Workspace MemoryStore) (r : CommitReport)
    (s : MemoryStore) :
    Prop where
  denied : ∀ p, w.storage.failing.contains p = true →
    s.files.get? p = w.storage.files.get? p
  content : ∀ p, w.storage.failing.contains p = false →
    s.files.get? p = Change.applied (w.pending.get? p) (w.storage.files.get? p)
  written_sorted : r.written.Pairwise fun p q => before p q = true
  written : ∀ p, p ∈ r.written ↔ ∃ content,
    (p, .write content) ∈ w.pending.entries ∧
    w.storage.failing.contains p = false ∧ w.storage.files.get? p ≠ some content
  deleted_sorted : r.deleted.Pairwise fun p q => before p q = true
  deleted : ∀ p, p ∈ r.deleted ↔ (p, .removeFile) ∈ w.pending.entries ∧
    w.storage.failing.contains p = false ∧ w.storage.files.contains p = true
  changes : r.changes.map (·.path) = r.written
  created : ∀ change ∈ r.changes,
    change.created = true ↔ w.storage.files.contains change.path = false
  writes : s.writes = w.storage.writes + r.written.length
  errors : ∀ p content, (p, .write content) ∈ w.pending.entries →
    w.storage.failing.contains p = true →
    r.errors.filter (fun e => e.op = .write && e.path.same p) =
      [⟨p, .write, (StorageError.denied p).message⟩]

namespace Commit

variable (w : Workspace MemoryStore)

theorem mem_written_finished {p : Path} : p ∈ (finished w).report.written ↔
    ∃ content, (p, .write content) ∈ w.pending.entries ∧
      w.storage.failing.contains p = false ∧
      w.storage.files.get? p ≠ some content := by
  rw [written_finished, List.mem_map]
  constructor
  · rintro ⟨⟨q, content⟩, he, rfl⟩
    obtain ⟨hmem, hchanges⟩ := List.mem_filter.1 he
    simp only [changesFile, Bool.and_eq_true, Bool.not_eq_true',
      bne_iff_ne] at hchanges
    exact ⟨content, mem_writesOf.1 hmem, hchanges⟩
  · rintro ⟨content, hmem, hfailing, hnew⟩
    refine ⟨(p, content), List.mem_filter.2 ⟨mem_writesOf.2 hmem, ?_⟩, rfl⟩
    simp [changesFile, hfailing, hnew]

theorem mem_deleted_finished {p : Path} : p ∈ (finished w).report.deleted ↔
    (p, .removeFile) ∈ w.pending.entries ∧ w.storage.failing.contains p = false ∧
      w.storage.files.contains p = true := by
  rw [deleted_finished, List.mem_filter, mem_pathsOf]
  simp [removesFile]

private theorem changes_paths_finished :
    (finished w).report.changes.map (·.path) = (finished w).report.written := by
  rw [changes_finished, written_finished, List.map_map]
  rfl

private theorem created_finished {change : FileChange}
    (h : change ∈ (finished w).report.changes) :
    change.created = true ↔ w.storage.files.contains change.path = false := by
  rw [changes_finished] at h
  obtain ⟨e, _, rfl⟩ := List.mem_map.1 h
  rw [contains_eq_isSome]
  cases hstored : w.storage.files.get? e.1 <;> simp [fileChange, hstored]

theorem errors_finished {p : Path} {content : String}
    (hp : (p, .write content) ∈ w.pending.entries)
    (hf : w.storage.failing.contains p = true) :
    (finished w).report.errors.filter (fun e => e.op = .write && e.path.same p) =
      [⟨p, .write, (StorageError.denied p).message⟩] := by
  have hdistinct := (writesOf_sorted w.pending).imp not_same_of_before
  have hmem : (p, content) ∈ writesOf w.pending := mem_writesOf.2 hp
  have hbatch := filter_same_eq_singleton hdistinct hmem
  calc (finished w).report.errors.filter (fun e => e.op = .write && e.path.same p)
      = (writeErrors (finished w).report).filter fun e => e.path.same p := by
        rw [writeErrors, List.filter_filter]
        exact List.filter_congr fun e _ => Bool.and_comm _ _
    _ = (((writesOf w.pending).filter fun e =>
      w.storage.failing.contains e.1).filter
          fun e => same e.1 p).map writeError := by
        rw [writeErrors_finished, List.filter_map]
        congr 1
        exact List.filter_congr fun e _ => Path.same_eq_same_key e.1 p
    _ = (((writesOf w.pending).filter fun e => same e.1 p).filter
          fun e => w.storage.failing.contains e.1).map writeError := by
        rw [List.filter_filter, List.filter_filter]
        congr 1
        exact List.filter_congr fun e _ => Bool.and_comm _ _
    _ = [⟨p, .write, (StorageError.denied p).message⟩] := by
        rw [hbatch]
        simp [hf, writeError]

end Commit

/-- A commit changes exactly the files it should and reports exactly these, for
every mixture of staged changes and failing paths. -/
theorem Workspace.commit_exact (w : Workspace MemoryStore) :
    FilesCommitted w w.commit.1 w.commit.2.storage := by
  rw [Commit.commit_eq]
  have hwritten := Path.sorted_of_before (Commit.written_sorted w)
  have hdeleted := Path.sorted_of_before (Commit.deleted_sorted w)
  simp only [CommitReport.sorted, hwritten, hdeleted]
  exact {
    denied := fun _ h => Commit.content_denied w h
    content := fun _ h => Commit.content_applied w h
    written_sorted := Commit.written_sorted w
    written := fun _ => Commit.mem_written_finished w
    deleted_sorted := Commit.deleted_sorted w
    deleted := fun _ => Commit.mem_deleted_finished w
    changes := Commit.changes_paths_finished w
    created := fun _ h => Commit.created_finished w h
    writes := Commit.writes_finished w
    errors := fun _ _ hp hf => Commit.errors_finished w hp hf }

end ComponentBuild
