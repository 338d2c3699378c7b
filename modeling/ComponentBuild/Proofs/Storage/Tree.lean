import ComponentBuild.Proofs.Storage.Rooted

/-!
# A memory store is a tree

Whatever is done to a store that starts out empty, one step up from a file or a
known directory leads to a known directory, unless it leads to the empty path.
Operations may fail in between: one that answers with an error leaves the store
as it was.
-/

namespace ComponentBuild.MemoryStore

variable {s : MemoryStore} {p parent : Path}

/-! ## One step up -/

/-- The parent of every file and of every known directory is known, unless it is
the empty path. -/
def IsTree (s : MemoryStore) : Prop :=
  ∀ p parent : Path, s.files.contains p = true ∨ s.dirs.contains p = true →
    p.parent = some parent → parent.isEmpty = false →
    s.dirs.contains parent = true

private theorem parts_ne_of_parent (hparent : p.parent = some parent)
    (hne : parent.parts ≠ []) :
    parent.parts ≠ p.parts := by
  intro heq
  have hparts := Path.parts_parent hparent
  have hlength := congrArg List.length hparts
  have hpos := List.length_pos_iff.2 hne
  rw [← heq, List.length_dropLast] at hlength
  omega

private theorem isTree_of_closed_of_rooted (hclosed : s.Closed)
    (hrooted : s.Rooted) : s.IsTree := by
  intro p parent hp hparent hne
  rw [Path.isEmpty_eq_false_iff] at hne
  have hbegin : parent.parts <+: p.parts :=
    Path.parts_parent hparent ▸ List.dropLast_prefix p.parts
  rcases hp with hfile | hdir
  · exact hclosed p parent hfile hne hbegin (parts_ne_of_parent hparent hne)
  · exact hrooted p parent hdir hne hbegin

/-! ## Operations that fail -/

def answer (s : MemoryStore) : Edit → Except StorageError Unit
  | .insert _ _ => .ok ()
  | .failOn _ => .ok ()
  | .write path content => (s.write path content).1
  | .removeFile path => (s.removeFile path).1
  | .createDirs path => (s.createDirs path).1
  | .removeDir path => (s.removeDir path).1

private theorem changed_of_error {run : Except StorageError MemoryStore}
    {e : StorageError} (h : (s.changed p run).1 = .error e) :
    (s.changed p run).2 = s := by
  unfold changed at h ⊢
  split at h
  · cases h
  · rfl

private theorem removeDir_of_error {e : StorageError}
    (h : (s.removeDir p).1 = .error e) :
    (s.removeDir p).2 = s := by
  unfold removeDir at h ⊢
  split at h
  · rfl
  · rfl
  · exact changed_of_error h

private theorem edit_of_error {e : Edit} {error : StorageError}
    (h : s.answer e = .error error) :
    s.edit e = s := by
  cases e with
  | insert path content => cases h
  | failOn path => cases h
  | write path content => exact changed_of_error h
  | removeFile path => exact changed_of_error h
  | createDirs path => exact changed_of_error h
  | removeDir path => exact removeDir_of_error h

/-- After any operations on an empty store, failed ones among them, the store is
a tree, and an operation that then fails changes nothing. -/
theorem tree_over_edits (edits : List Edit) :
    let s := MemoryStore.empty.editAll edits
    s.IsTree ∧ ∀ e error, s.answer e = .error error → s.edit e = s :=
  ⟨isTree_of_closed_of_rooted (closed_editAll edits) (rooted_editAll edits),
    fun _ _ => edit_of_error⟩

/-- A failing path in the middle of a tree does not keep the directories above a
new file away. -/
example : ((MemoryStore.empty.editAll [.failOn ⟨"/a/b"⟩, .createDirs ⟨"/a/b"⟩,
    .write ⟨"/a/b/c"⟩ "text", .removeDir ⟨"/a"⟩]).dirs.toList.map (·.text)) =
      ["/", "/a", "/a/b"] := by
  decide +kernel

end ComponentBuild.MemoryStore
