import ComponentBuild.Proofs.Workspace.DirectoryReport

/-!
# Directories made where paths may fail

Making the directories that are needed goes on after a failure.  Which levels
come of it, and where it stops for each needed directory, depends on the store
before the commit alone: a level at which one of them stops is missing for all
of them.
-/

namespace ComponentBuild.Commit

open KeyOrder SortedMap

/-! ## Levels in a row -/

section Rows

variable {α : Type} {keep : α → Bool} {l : List α}

private theorem takeWhile_eq_filter
    (h : l.Pairwise fun a b => keep b = true → keep a = true) :
    l.takeWhile keep = l.filter keep := by
  induction l with
  | nil => rfl
  | cons a l ih =>
      obtain ⟨hfirst, hrest⟩ := List.pairwise_cons.1 h
      cases ha : keep a with
      | true =>
          rw [List.takeWhile_cons_of_pos ha, List.filter_cons_of_pos ha, ih hrest]
      | false =>
          have hdrop : ¬ keep a = true := by simp [ha]
          have hnone : l.filter keep = [] :=
            List.filter_eq_nil_iff.2 fun b hb hkept => hdrop (hfirst b hb hkept)
          rw [List.takeWhile_cons_of_neg hdrop, List.filter_cons_of_neg hdrop,
            hnone]

theorem mem_takeWhile_iff {size : α → Nat}
    (h : l.Pairwise fun a b => size a < size b) {a : α} :
    a ∈ l.takeWhile keep ↔ a ∈ l ∧ ∀ b ∈ l, size b ≤ size a → keep b = true := by
  induction l with
  | nil => simp
  | cons first l ih =>
      obtain ⟨hfirst, hrest⟩ := List.pairwise_cons.1 h
      cases hkept : keep first with
      | false =>
          have hdrop : ¬ keep first = true := by simp [hkept]
          rw [List.takeWhile_cons_of_neg hdrop]
          refine iff_of_false List.not_mem_nil ?_
          rintro ⟨ha, hall⟩
          refine hdrop (hall first List.mem_cons_self ?_)
          rcases List.mem_cons.1 ha with rfl | ha
          · exact le_rfl
          · exact (hfirst a ha).le
      | true =>
          rw [List.takeWhile_cons_of_pos hkept, List.mem_cons,
            List.mem_cons, ih hrest]
          constructor
          · rintro (rfl | ⟨ha, hall⟩)
            · refine ⟨.inl rfl, fun b hb hle => ?_⟩
              rcases List.mem_cons.1 hb with rfl | hb
              · exact hkept
              · exact absurd (hfirst b hb) (Nat.not_lt.2 hle)
            · refine ⟨.inr ha, fun b hb hle => ?_⟩
              rcases List.mem_cons.1 hb with rfl | hb
              · exact hkept
              · exact hall b hb hle
          · rintro ⟨rfl | ha, hall⟩
            · exact .inl rfl
            · exact .inr ⟨ha, fun b hb => hall b (List.mem_cons_of_mem _ hb)⟩

end Rows

section MissingLevels

variable {s : MemoryStore} {dir level q : Path}

private theorem missingLevels_grow (s : MemoryStore) (dir : Path) :
    (missingLevels s dir).Pairwise fun p q => p.parts.length < q.parts.length :=
  List.pairwise_reverse.2 ((Path.ancestors_pairwise dir).sublist
    (List.takeWhile_sublist _))

theorem missingLevels_eq_filter (h : s.Rooted) (dir : Path) :
    missingLevels s dir = dir.ancestors.reverse.filter fun p =>
      !p.isEmpty && !s.isDir p := by
  rw [List.filter_reverse, missingLevels]
  refine congrArg List.reverse (takeWhile_eq_filter ?_)
  refine (Path.ancestors_pairwise dir).imp_of_mem
    fun {p q} hp hq hshort hkept => ?_
  rw [Bool.and_eq_true, Bool.not_eq_true', Bool.not_eq_true',
    Path.isEmpty_eq_false_iff] at hkept ⊢
  have hbelow : q.parts <+: p.parts := List.prefix_of_prefix_length_le
    (Path.parts_of_mem_ancestors hq) (Path.parts_of_mem_ancestors hp) hshort.le
  refine ⟨hbelow.ne_nil hkept.1, ?_⟩
  rw [Bool.eq_false_iff]
  intro hdir
  have hthere : s.isDir q = true := h.isDir hdir hkept.1 hbelow
  have hmissing : s.isDir q = false := hkept.2
  rw [hthere] at hmissing
  cases hmissing

private theorem find?_missingLevels (h : s.Rooted) (dir : Path)
    (stop : Path → Bool) :
    (missingLevels s dir).find? stop =
      dir.ancestors.reverse.find? fun p =>
      (!p.isEmpty && !s.isDir p) && stop p := by
  rw [missingLevels_eq_filter h, List.find?_filter]
  simp only [Bool.decide_and, Bool.decide_eq_true]

/-! ## Where it stops -/

def blocked? (s : MemoryStore) (dir : Path) : Option Path :=
  (missingLevels s dir).find? fun level => s.failing.contains level

/-- A level of a directory that is missing and cannot be made. -/
structure Obstacle (s : MemoryStore) (dir level : Path) : Prop where
  long : level.parts ≠ []
  above : level.parts <+: dir.parts
  missing : s.isDir level = false
  failing : s.failing.contains level = true

private theorem exists_level (h : s.Rooted) (hq : Obstacle s dir q) :
    ∃ level ∈ missingLevels s dir,
      s.failing.contains level = true ∧ level.parts = q.parts := by
  obtain ⟨level, hlevel, hsame⟩ :=
    exists_mem_missingLevels h hq.long hq.above hq.missing
  exact ⟨level, hlevel, (contains_congr _ hsame).trans hq.failing,
    Path.same_key_iff.1 hsame⟩

theorem blocked?_eq_some (h : s.Rooted) (hlevel : blocked? s dir = some level) :
    Obstacle s dir level ∧ ∀ q, Obstacle s dir q → level.parts <+: q.parts := by
  obtain ⟨hfailing, outer, inner, hlevels, houter⟩ :=
    List.find?_eq_some_iff_append.1 hlevel
  have hmem : level ∈ missingLevels s dir := by simp [hlevels]
  obtain ⟨hmissing, hlong, habove⟩ := of_mem_missingLevels hmem
  refine ⟨⟨hlong, habove, hmissing, hfailing⟩, fun q hq => ?_⟩
  obtain ⟨other, hother, hstops, hparts⟩ := exists_level h hq
  have hgrow := missingLevels_grow s dir
  rw [hlevels] at hother hgrow
  rw [← hparts]
  rcases List.mem_append.1 hother with hother | hother
  · have hpassed := houter other hother
    rw [hstops] at hpassed
    cases hpassed
  · rcases List.mem_cons.1 hother with rfl | hother
    · exact List.prefix_refl _
    · have hshort :=
        List.rel_of_pairwise_cons (List.pairwise_append.1 hgrow).2.1 hother
      exact List.prefix_of_prefix_length_le habove (hparts ▸ hq.above) hshort.le

private theorem isSome_blocked? (h : s.Rooted) (hq : Obstacle s dir q) :
    (blocked? s dir).isSome = true := by
  obtain ⟨level, hlevel, hstops, -⟩ := exists_level h hq
  rw [blocked?, List.find?_isSome]
  exact ⟨level, hlevel, hstops⟩

theorem same_blocked?_iff (h : s.Rooted) {dir' : Path} :
    (∃ level level', blocked? s dir = some level ∧ blocked? s dir' = some level' ∧
        same level level' = true) ↔
      ∃ q, Obstacle s dir q ∧ Obstacle s dir' q := by
  constructor
  · rintro ⟨level, level', hlevel, hlevel', hsame⟩
    have hparts := Path.same_key_iff.1 hsame
    have hobstacle := (blocked?_eq_some h hlevel).1
    have habove' := (blocked?_eq_some h hlevel').1.above
    rw [← hparts] at habove'
    exact ⟨level, hobstacle, hobstacle.long, habove', hobstacle.missing,
      hobstacle.failing⟩
  · rintro ⟨q, hq, hq'⟩
    obtain ⟨level, hlevel⟩ := Option.isSome_iff_exists.1 (isSome_blocked? h hq)
    obtain ⟨level', hlevel'⟩ := Option.isSome_iff_exists.1 (isSome_blocked? h hq')
    obtain ⟨hobstacle, houter⟩ := blocked?_eq_some h hlevel
    obtain ⟨hobstacle', houter'⟩ := blocked?_eq_some h hlevel'
    have hle : level.parts <+: level'.parts :=
      houter level' ⟨hobstacle'.long, (houter' q hq').trans hq.above,
        hobstacle'.missing, hobstacle'.failing⟩
    have hge : level'.parts <+: level.parts :=
      houter' level ⟨hobstacle.long, (houter q hq).trans hq'.above,
        hobstacle.missing, hobstacle.failing⟩
    refine ⟨level, level', hlevel, hlevel', Path.same_key_iff.2 ?_⟩
    exact hle.eq_of_length (le_antisymm hle.length_le hge.length_le)

end MissingLevels

/-! ## What comes of it -/

/-- A level of a needed directory that is missing and can be made, as all
missing ones above it. -/
structure Reached (s : MemoryStore) (dirs : List Path) (q : Path) : Prop where
  missing : s.isDir q = false
  long : q.parts ≠ []
  needed : ∃ dir ∈ dirs, q.parts <+: dir.parts
  free : ∀ r : Path, r.parts ≠ [] → r.parts <+: q.parts → s.isDir r = false →
    s.failing.contains r = false

section Reached

variable {s : MemoryStore} {dirs : List Path} {q r : Path}

theorem Reached.above (h : Reached s dirs q) (hlong : r.parts ≠ [])
    (habove : r.parts <+: q.parts) (hmissing : s.isDir r = false) :
    Reached s dirs r := by
  obtain ⟨dir, hdir, hbegin⟩ := h.needed
  exact ⟨hmissing, hlong, ⟨dir, hdir, habove.trans hbegin⟩,
    fun r' hlong' habove' => h.free r' hlong' (habove'.trans habove)⟩

theorem Reached.mono {dirs' : List Path} (h : Reached s dirs q)
    (hsub : ∀ dir ∈ dirs, dir ∈ dirs') :
    Reached s dirs' q := by
  obtain ⟨dir, hdir, hbegin⟩ := h.needed
  exact ⟨h.missing, h.long, ⟨dir, hsub dir hdir, hbegin⟩, h.free⟩

private theorem reached_congr {p : Path} (h : same p q = true) :
    Reached s dirs p ↔ Reached s dirs q := by
  have hforward {p q : Path} (h : same p q = true) (hp : Reached s dirs p) :
      Reached s dirs q := by
    have hparts := Path.same_key_iff.1 h
    obtain ⟨hmissing, hlong, hneeded, hfree⟩ := hp
    rw [hparts] at hlong hneeded
    exact ⟨(MemoryStore.isDir_congr s h).symm.trans hmissing, hlong, hneeded,
      fun r hr habove => hfree r hr (hparts ▸ habove)⟩
  exact ⟨hforward h, hforward (by rwa [same_comm])⟩

end Reached

section Ensuring

variable {s : MemoryStore} {c : Commit MemoryStore} {dirs : List Path}
    {dir q : Path}

def deniedLevel (level : Path) : CommitError :=
  ⟨level, .createDir, (StorageError.denied level).message⟩

def madeLevels (s : MemoryStore) (levels : List Path) : List Path :=
  levels.takeWhile fun level => !s.failing.contains level

private theorem createLevels_cut (c : Commit MemoryStore) (levels : List Path) :
    c.createLevels levels =
      { c with
        storage :=
  (madeLevels c.storage levels).foldl MemoryStore.addLevels c.storage
        report.dirsAdded := c.report.dirsAdded ++ madeLevels c.storage levels
        report.errors := c.report.errors ++
          ((levels.find? fun level => c.storage.failing.contains level).map
            deniedLevel).toList } := by
  induction levels generalizing c with
  | nil => simp [createLevels, madeLevels]
  | cons level rest ih =>
      cases h : c.storage.failing.contains level with
      | true =>
          simp [createLevels_failing h, madeLevels, h,
            CommitReport.fail, deniedLevel]
      | false =>
          have hfailing :
              (c.storage.addLevels level).failing = c.storage.failing := rfl
          rw [createLevels_made h, ih]
          simp [madeLevels, h, hfailing]

private theorem mem_madeLevels_iff (h : s.Rooted) :
    (∃ p ∈ madeLevels s (missingLevels s dir), same p q = true) ↔
      Reached s [dir] q := by
  constructor
  · rintro ⟨p, hp, hsame⟩
    rw [← reached_congr hsame]
    obtain ⟨hmem, hfree⟩ := (mem_takeWhile_iff (missingLevels_grow s dir)).1 hp
    obtain ⟨hmissing, hlong, habove⟩ := of_mem_missingLevels hmem
    refine ⟨hmissing, hlong, ⟨dir, List.mem_singleton_self dir, habove⟩,
      fun r hr hbelow hnone => ?_⟩
    obtain ⟨level, hlevel, hlevel'⟩ :=
      exists_mem_missingLevels h hr (hbelow.trans habove) hnone
    have hshort : level.parts.length ≤ p.parts.length := by
      rw [Path.same_key_iff.1 hlevel']
      exact hbelow.length_le
    rw [← contains_congr _ hlevel']
    simpa using hfree level hlevel hshort
  · rintro ⟨hmissing, hlong, ⟨_, hdir, habove⟩, hfree⟩
    rw [List.mem_singleton.1 hdir] at habove
    obtain ⟨level, hlevel, hsame⟩ :=
      exists_mem_missingLevels h hlong habove hmissing
    refine ⟨level, (mem_takeWhile_iff (missingLevels_grow s dir)).2 ⟨hlevel,
      fun r hr hshort => ?_⟩, hsame⟩
    obtain ⟨hnone, hlong', habove'⟩ := of_mem_missingLevels hr
    rw [Path.same_key_iff.1 hsame] at hshort
    rw [Bool.not_eq_true']
    exact hfree r hlong' (List.prefix_of_prefix_length_le habove' habove hshort)
      hnone

/-- What the commit has after making the given directories in the store `s`. -/
structure Ensured (s : MemoryStore) (dirs : List Path) (c : Commit MemoryStore) :
    Prop where
  failing : c.storage.failing = s.failing
  rooted : c.storage.Rooted
  contains : ∀ q, c.storage.dirs.contains q = true ↔
    s.dirs.contains q = true ∨ ∃ r,
    Reached s dirs r ∧ q.parts ≠ [] ∧ q.parts <+: r.parts
  added : ∀ q, (∃ p ∈ c.report.dirsAdded, same p q = true) ↔ Reached s dirs q
  distinct : c.report.dirsAdded.Pairwise fun p q => same p q = false
  deleted : c.report.dirsDeleted = []
  errors : c.report.errors = dirs.filterMap fun dir =>
    (blocked? s dir).map deniedLevel

theorem Ensured.isDir_iff (h : Ensured s dirs c) (q : Path) :
    c.storage.isDir q = true ↔ s.isDir q = true ∨ Reached s dirs q := by
  rw [MemoryStore.isDir_iff, h.contains, ← or_assoc, ← MemoryStore.isDir_iff]
  constructor
  · rintro (hq | ⟨r, hr, hlong, habove⟩)
    · exact .inl hq
    · cases hq : s.isDir q with
      | true => exact .inl rfl
      | false => exact .inr (hr.above hlong habove hq)
  · rintro (hq | hq)
    · exact .inl hq
    · exact .inr ⟨q, hq, hq.long, List.prefix_refl _⟩

theorem Ensured.isDir_eq_false_iff (h : Ensured s dirs c) (q : Path) :
    c.storage.isDir q = false ↔ s.isDir q = false ∧ ¬ Reached s dirs q := by
  rw [← Bool.not_eq_true, h.isDir_iff, not_or, Bool.not_eq_true]

theorem Ensured.reached_concat (h : Ensured s dirs c) :
    Reached s (dirs ++ [dir]) q ↔
      Reached s dirs q ∨ Reached c.storage [dir] q := by
  constructor
  · intro hq
    cases hdir : c.storage.isDir q with
    | true =>
        rcases (h.isDir_iff q).1 hdir with hold | hreached
        · rw [hq.missing] at hold
          cases hold
        · exact .inl hreached
    | false =>
        obtain ⟨needed, hneeded, habove⟩ := hq.needed
        rcases List.mem_append.1 hneeded with hneeded | hneeded
        · exact .inl ⟨hq.missing, hq.long, ⟨needed, hneeded, habove⟩, hq.free⟩
        · refine .inr ⟨hdir, hq.long, ⟨needed, hneeded, habove⟩,
            fun r hlong hbelow hmissing => ?_⟩
          rw [h.failing]
          exact hq.free r hlong hbelow ((h.isDir_eq_false_iff r).1 hmissing).1
  · rintro (hq | hq)
    · exact hq.mono fun _ => List.mem_append_left _
    · obtain ⟨needed, hneeded, habove⟩ := hq.needed
      refine ⟨((h.isDir_eq_false_iff q).1 hq.missing).1, hq.long,
        ⟨needed, List.mem_append_right _ hneeded, habove⟩,
        fun r hlong hbelow hmissing => ?_⟩
      by_cases hr : Reached s dirs r
      · exact hr.free r hlong (List.prefix_refl _) hmissing
      · rw [← h.failing]
        exact hq.free r hlong hbelow ((h.isDir_eq_false_iff r).2 ⟨hmissing, hr⟩)

theorem Ensured.blocked?_eq (h : Ensured s dirs c) (hs : s.Rooted) (dir : Path) :
    blocked? c.storage dir = blocked? s dir := by
  rw [blocked?, blocked?, find?_missingLevels h.rooted,
    find?_missingLevels hs, h.failing]
  congr 1
  funext p
  cases hp : s.failing.contains p with
  | false => simp
  | true =>
      have hunreached : ¬ Reached s dirs p := by
        intro hreached
        have hfree :=
          hreached.free p hreached.long (List.prefix_refl _) hreached.missing
        rw [hp] at hfree
        cases hfree
      have hdir : c.storage.isDir p = s.isDir p := by
        rw [Bool.eq_iff_iff, h.isDir_iff]
        exact or_iff_left hunreached
      rw [hdir]

theorem Ensured.ensureDir (h : Ensured s dirs c) (hs : s.Rooted) (dir : Path) :
    Ensured s (dirs ++ [dir]) (c.ensureDir dir) := by
  have hmade (q : Path) :
      (∃ p ∈ madeLevels c.storage (missingLevels c.storage dir),
      same p q = true) ↔ Reached c.storage [dir] q := mem_madeLevels_iff h.rooted
  have hrooted : (c.ensureDir dir).storage.Rooted :=
    keeps_createLevels MemoryStore.keeps_rooted _ h.rooted
  have hfailing := (filesKept_ensureDir c dir).storage.failing
  rw [Commit.ensureDir, createLevels_cut] at hrooted hfailing ⊢
  refine ⟨hfailing.trans h.failing, hrooted, fun q => ?_, fun q => ?_, ?_,
    h.deleted, ?_⟩
  · rw [contains_foldl_addLevels, h.contains, or_assoc]
    refine or_congr_right ?_
    simp only [h.reached_concat, or_and_right, exists_or]
    refine or_congr_right ⟨?_, ?_⟩
    · rintro ⟨level, hlevel, hlong, habove⟩
      exact ⟨level, (hmade level).1 ⟨level, hlevel, same_refl level⟩,
        hlong, habove⟩
    · rintro ⟨r, hr, hlong, habove⟩
      obtain ⟨level, hlevel, hsame⟩ := (hmade r).2 hr
      exact ⟨level, hlevel, hlong, Path.same_key_iff.1 hsame ▸ habove⟩
  · simp only [List.mem_append, or_and_right, exists_or, h.added, hmade,
      h.reached_concat]
  · refine List.pairwise_append.2 ⟨h.distinct,
      (missingLevels_distinct _ _).sublist (List.takeWhile_sublist _),
      fun p hp q hq => ?_⟩
    rw [Bool.eq_false_iff]
    intro hsame
    have hbefore : Reached s dirs q := (h.added q).1 ⟨p, hp, hsame⟩
    have hnow : Reached c.storage [dir] q := (hmade q).1 ⟨q, hq, same_refl q⟩
    exact ((h.isDir_eq_false_iff q).1 hnow.missing).2 hbefore
  · have hstop : ((missingLevels c.storage dir).find? fun level =>
        c.storage.failing.contains level) = blocked? s dir := h.blocked?_eq hs dir
    rw [hstop, h.errors, List.filterMap_append]
    cases hb : blocked? s dir <;> simp [hb]

private theorem ensured_foldl (hs : s.Rooted) (h : Ensured s dirs c)
    (more : List Path) :
    Ensured s (dirs ++ more) (more.foldl Commit.ensureDir c) := by
  induction more generalizing dirs c with
  | nil => simpa using h
  | cons dir more ih =>
      have hrest := ih (h.ensureDir hs dir)
      rwa [List.append_assoc, List.singleton_append] at hrest

theorem ensured_dirsDone {w : Workspace MemoryStore} (hs : w.storage.Rooted) :
    Ensured w.storage (dirsNeeded w.pending) (dirsDone w) := by
  have hstart :
      Ensured w.storage [] { storage := w.storage, cache := w.cache } := by
    have hnothing (q : Path) : ¬ Reached w.storage [] q := by
      rintro ⟨-, -, ⟨dir, hdir, -⟩, -⟩
      cases hdir
    exact ⟨rfl, hs, fun q => by simp [hnothing], fun q => by simp [hnothing],
      .nil, rfl, rfl⟩
  exact ensured_foldl hs hstart _

end Ensuring

end ComponentBuild.Commit
