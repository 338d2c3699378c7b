import ComponentBuild.Proofs.Path.Ending
import ComponentBuild.Proofs.SortedMap.Lookup
import ComponentBuild.Proofs.Workspace.Reading
import Mathlib.Data.List.Induction

/-!
# Readings that overlap with changes

A reading takes three steps: it looks up what is known, asks storage if nothing
is, and keeps the answer.  Between them storage may change and the cache be
cleared.  A reading that begins when the last change of its path has been
cleared answers as storage does, unless a content that was read before the
change was kept after the clearing.  Then the clearing is lost.
-/

namespace ComponentBuild

open KeyOrder SortedMap

inductive Reading.Progress where
  /-- Nothing is known, and storage is to be asked. -/
  | asking
  /-- Storage has answered, and the content is to be kept. -/
  | holding (content : String)
  | answered (result : Except StorageError String)

structure Reading where
  path : Path
  progress : Reading.Progress

/-- A workspace with the readings that go on in it. -/
structure Shared (σ : Type) where
  workspace : Workspace σ
  /-- In the order in which they began. -/
  readings : List Reading := []
  /-- The normal paths that were changed and not cleared since. -/
  changed : Path → Bool := fun _ => false

namespace Shared

inductive Move (σ : Type) where
  /-- A new reading looks up what is known. -/
  | look (path : Path)
  | ask (n : Nat)
  | keep (n : Nat)
  | edit (storage : σ)
  | clear (path : Path)

section

variable {σ : Type}

def answer? (s : Shared σ) (n : Nat) : Option (Except StorageError String) :=
  match s.readings[n]? with
  | some ⟨_, .answered result⟩ => some result
  | _ => none

variable [Storage σ]

def perform (s : Shared σ) : Move σ → Shared σ
  | .look path =>
      let progress : Reading.Progress :=
        match s.workspace.known? path.normalize with
        | some result => .answered result
        | none => .asking
      { s with readings := s.readings ++ [⟨path, progress⟩] }
  | .ask n =>
      match s.readings[n]? with
      | some ⟨path, .asking⟩ =>
          let progress : Reading.Progress :=
            match Storage.read s.workspace.storage path.normalize with
            | .ok content => .holding content
            | .error e => .answered (.error e)
          { s with readings := s.readings.set n ⟨path, progress⟩ }
      | _ => s
  | .keep n =>
      match s.readings[n]? with
      | some ⟨path, .holding content⟩ =>
          { s with
            workspace := { s.workspace with
              cache := s.workspace.cache.insert path.normalize content }
            readings := s.readings.set n ⟨path, .answered (.ok content)⟩ }
      | _ => s
  | .edit storage =>
      { s with
        workspace := { s.workspace with storage }
        changed := fun p => s.changed p ||
          decide (Storage.read storage p ≠ Storage.read s.workspace.storage p) }
  | .clear path =>
      { s with
        workspace := s.workspace.clearFileCache path
        changed := fun p => s.changed p && p != path.normalize }

def run (s : Shared σ) (moves : List (Move σ)) : Shared σ :=
  moves.foldl perform s

private theorem run_append (s : Shared σ) (moves more : List (Move σ)) :
    s.run (moves ++ more) = (s.run moves).run more :=
  List.foldl_append

/-- The three steps in a row are one reading of the workspace. -/
theorem run_fetch (s : Shared σ) (path : Path) :
    let n := s.readings.length
    let t := s.run [.look path, .ask n, .keep n]
    t.workspace = (s.workspace.fetch path).2 ∧
    t.answer? n = some (s.workspace.fetch path).1 := by
  cases hknown : s.workspace.known? path.normalize with
  | some result =>
      simp [run, perform, answer?, Workspace.fetch, Workspace.readAt, hknown]
  | none =>
      cases hread : Storage.read s.workspace.storage path.normalize with
      | ok content =>
          simp [run, perform, answer?, Workspace.fetch, Workspace.readAt,
            hknown, hread]
      | error e =>
          simp [run, perform, answer?, Workspace.fetch, Workspace.readAt,
            hknown, hread]

/-! ## The cache -/

/-- A reading is about to keep a content of the path. -/
def Keeps (s : Shared σ) (p : Path) (n : Nat) : Prop :=
  ∃ path content, s.readings[n]? = some ⟨path, .holding content⟩ ∧
  path.normalize = p

/-- It is about to keep what storage does not hold, although the path is
cleared. -/
def Outdates (s : Shared σ) (p : Path) (n : Nat) : Prop :=
  s.changed p = false ∧ ∃ path content,
  s.readings[n]? = some ⟨path, .holding content⟩ ∧
    path.normalize = p ∧ Storage.read s.workspace.storage p ≠ .ok content

/-- The move takes the path's content out of the cache or puts another one
there. -/
def Touches (s : Shared σ) (p : Path) : Move σ → Prop
  | .clear path => path.normalize = p
  | .keep n => s.Keeps p n
  | _ => False

/-- The cache has for the path what storage does not hold. -/
def Stale (s : Shared σ) (p : Path) : Prop :=
  ∃ content, s.workspace.cache.get? p = some content ∧
    Storage.read s.workspace.storage p ≠ .ok content

/-- A reading kept an outdated content of the path, and nothing has replaced it
since. -/
def Lost (s : Shared σ) (moves : List (Move σ)) (p : Path) : Prop :=
  ∃ first n rest, moves = first ++ .keep n :: rest ∧ (s.run first).Outdates p n ∧
    ∀ front move, front ++ [move] <+: rest →
      ¬ (s.run (first ++ .keep n :: front)).Touches p move

theorem Outdates.keeps {s : Shared σ} {p : Path} {n : Nat} (h : s.Outdates p n) :
    s.Keeps p n := by
  obtain ⟨-, path, content, hreading, hpath, -⟩ := h
  exact ⟨path, content, hreading, hpath⟩

/-- The last move decides where it touches the path, and changes nothing
elsewhere. -/
theorem lost_append_iff {s : Shared σ} {moves : List (Move σ)} {move : Move σ}
    {p : Path} :
    s.Lost (moves ++ [move]) p ↔
      (∃ n, move = .keep n ∧ (s.run moves).Outdates p n) ∨
        (¬ (s.run moves).Touches p move ∧ s.Lost moves p) := by
  constructor
  · rintro ⟨first, n, rest, hsplit, houtdates, hrest⟩
    rcases List.eq_nil_or_concat rest with rfl | ⟨front, last, rfl⟩
    · obtain ⟨rfl, hmove⟩ := List.append_singleton_inj.1 hsplit
      exact .inl ⟨n, hmove, houtdates⟩
    · rw [List.concat_eq_append] at hsplit hrest
      rw [← List.cons_append, ← List.append_assoc] at hsplit
      obtain ⟨rfl, rfl⟩ := List.append_singleton_inj.1 hsplit
      exact .inr ⟨hrest front move (List.prefix_refl _), first, n, front,
        rfl, houtdates,
        fun before other hbefore =>
        hrest before other (hbefore.trans (List.prefix_append _ _))⟩
  · rintro (⟨n, rfl, houtdates⟩ |
      ⟨htouches, first, n, rest, rfl, houtdates, hrest⟩)
    · refine ⟨moves, n, [], rfl, houtdates, fun front move hfront => ?_⟩
      exact absurd (List.prefix_nil.1 hfront) (by simp)
    · refine ⟨first, n, rest ++ [move], by simp, houtdates,
        fun front other hfront => ?_⟩
      rcases List.prefix_concat_iff.1 hfront with heq | hbefore
      · obtain ⟨rfl, rfl⟩ := List.append_singleton_inj.1 heq
        exact htouches
      · exact hrest front other hbefore

private theorem eq_of_same_normalize {p q : Path} (hp : p.IsNormal)
    (h : same q.normalize p = true) :
    q.normalize = p :=
  (Path.isNormal_normalize q).eq_of_same hp h

private theorem perform_keep {s : Shared σ} {n : Nat} {path : Path}
    {content : String} (h : s.readings[n]? = some ⟨path, .holding content⟩) :
    s.perform (.keep n) = { s with
      workspace := { s.workspace with
        cache := s.workspace.cache.insert path.normalize content }
      readings := s.readings.set n ⟨path, .answered (.ok content)⟩ } := by
  simp only [perform, h]

private theorem stale_keep_iff {s : Shared σ} {p : Path} (hp : p.IsNormal)
    {n : Nat} (hclear : s.changed p = false) :
    (s.perform (.keep n)).Stale p ↔
      s.Outdates p n ∨ (¬ s.Keeps p n ∧ s.Stale p) := by
  by_cases hholding : ∃ path content,
    s.readings[n]? = some ⟨path, .holding content⟩
  · obtain ⟨path, content, hreading⟩ := hholding
    have hone {other : Path} {text : String}
        (h : s.readings[n]? = some ⟨other, .holding text⟩) :
        path = other ∧ content = text := by
      simpa [hreading] using h
    rw [perform_keep hreading, Stale]
    dsimp only
    rw [get?_insert]
    by_cases hpath : path.normalize = p
    · have hkeeps : s.Keeps p n := ⟨path, content, hreading, hpath⟩
      rw [if_pos (hpath ▸ same_refl _)]
      constructor
      · rintro ⟨text, htext, hread⟩
        cases htext
        exact .inl ⟨hclear, path, content, hreading, hpath, hread⟩
      · rintro (⟨-, other, text, hother, -, hread⟩ | ⟨hnot, -⟩)
        · obtain ⟨-, rfl⟩ := hone hother
          exact ⟨content, rfl, hread⟩
        · exact absurd hkeeps hnot
    · have hnot : ¬ s.Keeps p n := by
        rintro ⟨other, text, hother, heq⟩
        obtain ⟨rfl, -⟩ := hone hother
        exact hpath heq
      rw [if_neg (mt (eq_of_same_normalize hp) hpath)]
      constructor
      · exact fun h => .inr ⟨hnot, h⟩
      · rintro (h | ⟨-, h⟩)
        · exact absurd h.keeps hnot
        · exact h
  · have hnot : ¬ s.Keeps p n := by
      rintro ⟨path, content, hreading, -⟩
      exact hholding ⟨path, content, hreading⟩
    have hsame : s.perform (.keep n) = s := by
      simp only [perform]
      split
      · rename_i path content hreading
        exact absurd ⟨path, content, hreading⟩ hholding
      · rfl
    rw [hsame]
    constructor
    · exact fun h => .inr ⟨hnot, h⟩
    · rintro (h | ⟨-, h⟩)
      · exact absurd h.keeps hnot
      · exact h

private theorem changed_of_untouched {s : Shared σ} {p : Path} {move : Move σ}
    (hclear : (s.perform move).changed p = false)
    (htouches : ¬ s.Touches p move) :
    s.changed p = false := by
  cases move with
  | look path => exact hclear
  | ask n | keep n =>
      simp only [perform] at hclear
      split at hclear <;> exact hclear
  | edit storage => exact (Bool.or_eq_false_iff.1 hclear).1
  | clear path =>
      have hchanged : (s.changed p && p != path.normalize) = false := hclear
      simpa [Ne.symm htouches] using hchanged

theorem stale_perform_iff {s : Shared σ} {p : Path} (hp : p.IsNormal)
    {move : Move σ} (hclear : (s.perform move).changed p = false) :
    (s.perform move).Stale p ↔
      (∃ n, move = .keep n ∧ s.Outdates p n) ∨
      (¬ s.Touches p move ∧ s.Stale p) := by
  have hplain (hstale : (s.perform move).Stale p ↔ s.Stale p) (hmove : ∀ n,
      move ≠ .keep n)
      (htouches : ¬ s.Touches p move) :
      (s.perform move).Stale p ↔
        (∃ n, move = .keep n ∧ s.Outdates p n) ∨
        (¬ s.Touches p move ∧ s.Stale p) := by
    rw [hstale]
    constructor
    · exact fun h => .inr ⟨htouches, h⟩
    · rintro (⟨n, hn, -⟩ | ⟨-, h⟩)
      · exact absurd hn (hmove n)
      · exact h
  cases move with
  | look path => exact hplain Iff.rfl (by simp) (by simp [Touches])
  | ask n =>
      have hsame : (s.perform (.ask n)).workspace = s.workspace := by
        simp only [perform]
        split <;> rfl
      exact hplain (by rw [Stale, Stale, hsame]) (by simp) (by simp [Touches])
  | keep n =>
      have hsame : (s.perform (.keep n)).changed = s.changed := by
        simp only [perform]
        split <;> rfl
      rw [hsame] at hclear
      rw [stale_keep_iff hp hclear]
      simp [Touches]
  | edit storage =>
      have hstorage :
          Storage.read storage p = Storage.read s.workspace.storage p := by
        simpa using (Bool.or_eq_false_iff.1 hclear).2
      refine hplain ?_ (by simp) (by simp [Touches])
      simp only [perform, Stale, hstorage]
  | clear path =>
      by_cases hpath : path.normalize = p
      · have hgone : ¬ (s.perform (.clear path)).Stale p := by
          rintro ⟨content, hcontent, -⟩
          have hcache :
              (s.workspace.cache.erase path.normalize).get? p = some content :=
                hcontent
          rw [get?_erase, if_pos (hpath ▸ same_refl _)] at hcache
          cases hcache
        simp [hgone, Touches, hpath]
      · have hcache : (s.workspace.cache.erase path.normalize).get? p =
            s.workspace.cache.get? p := by
          rw [get?_erase, if_neg (mt (eq_of_same_normalize hp) hpath)]
        refine hplain ?_ (by simp) hpath
        simp only [perform, Stale, Workspace.clearFileCache, hcache]

theorem stale_run_iff {s : Shared σ} {p : Path} (hp : p.IsNormal)
    (hfresh : ¬ s.Stale p) {moves : List (Move σ)}
    (hclear : (s.run moves).changed p = false) :
    (s.run moves).Stale p ↔ s.Lost moves p := by
  induction moves using List.reverseRecOn with
  | nil =>
      refine iff_of_false hfresh ?_
      rintro ⟨first, n, rest, hsplit, -⟩
      simp at hsplit
  | append_singleton moves move ih =>
      rw [run_append] at hclear ⊢
      have hstep := stale_perform_iff hp (s := s.run moves) hclear
      rw [lost_append_iff]
      refine hstep.trans (or_congr_right (and_congr_right fun htouches => ?_))
      exact ih (changed_of_untouched (s := s.run moves) hclear htouches)

/-! ## One reading -/

inductive Leads (answer : Except StorageError String) : Reading.Progress → Prop
  | asking : Leads answer .asking
  | holding {content : String} (h : answer = .ok content) : Leads answer
      (.holding content)
  | answered : Leads answer (.answered answer)

def LeadsAt (s : Shared σ) (n : Nat) (path : Path)
    (answer : Except StorageError String) : Prop :=
  Storage.read s.workspace.storage path.normalize = answer ∧
    ∃ progress, s.readings[n]? = some ⟨path, progress⟩ ∧ Leads answer progress

theorem exists_leads_set {readings : List Reading} {n m : Nat}
    {path other : Path} {answer : Except StorageError String}
    {progress before after : Reading.Progress}
    (hreading : readings[n]? = some ⟨path, progress⟩)
    (hleads : Leads answer progress)
    (hother : readings[m]? = some ⟨other, before⟩)
    (hstep : other = path → Leads answer before → Leads answer after) :
    ∃ progress, (readings.set m ⟨other, after⟩)[n]? = some ⟨path, progress⟩ ∧
      Leads answer progress := by
  by_cases hsame : m = n
  · subst hsame
    obtain ⟨rfl, rfl⟩ : path = other ∧ progress = before := by
      simpa [hreading] using hother
    have hlength : m < readings.length := (List.getElem?_eq_some_iff.1 hreading).1
    exact ⟨after, List.getElem?_set_self hlength, hstep rfl hleads⟩
  · exact ⟨progress, (List.getElem?_set_ne hsame).trans hreading, hleads⟩

theorem LeadsAt.perform {s : Shared σ} {n : Nat} {path : Path}
    {answer : Except StorageError String} (h : s.LeadsAt n path answer)
    {move : Move σ}
    (hedit : ∀ storage, move = .edit storage →
      Storage.read storage path.normalize = answer) :
    (s.perform move).LeadsAt n path answer := by
  obtain ⟨hread, progress, hreading, hleads⟩ := h
  cases move with
  | look other =>
      have hlength : n < s.readings.length :=
        (List.getElem?_eq_some_iff.1 hreading).1
      exact ⟨hread, progress, (List.getElem?_append_left hlength).trans
        hreading, hleads⟩
  | ask m =>
      simp only [Shared.perform]
      split
      · rename_i other hother
        refine ⟨hread, exists_leads_set hreading hleads hother ?_⟩
        rintro rfl -
        rw [hread]
        cases answer with
        | ok content => exact .holding rfl
        | error e => exact .answered
      · exact ⟨hread, progress, hreading, hleads⟩
  | keep m =>
      simp only [Shared.perform]
      split
      · rename_i other content hother
        refine ⟨hread, exists_leads_set hreading hleads hother ?_⟩
        rintro - (_ | h)
        rw [h]
        exact .answered
      · exact ⟨hread, progress, hreading, hleads⟩
  | edit storage => exact ⟨hedit storage rfl, progress, hreading, hleads⟩
  | clear other => exact ⟨hread, progress, hreading, hleads⟩

theorem LeadsAt.run {s : Shared σ} {n : Nat} {path : Path}
    {answer : Except StorageError String} (h : s.LeadsAt n path answer)
    {moves : List (Move σ)}
    (hedit : ∀ storage, .edit storage ∈ moves →
      Storage.read storage path.normalize = answer) :
    (s.run moves).LeadsAt n path answer := by
  induction moves generalizing s with
  | nil => exact h
  | cons move moves ih =>
      have hfirst : (s.perform move).LeadsAt n path answer :=
        h.perform fun storage hmove =>
        hedit storage (hmove ▸ List.mem_cons_self)
      exact ih hfirst fun storage hmem =>
        hedit storage (List.mem_cons_of_mem _ hmem)

theorem LeadsAt.answer {s : Shared σ} {n : Nat} {path : Path}
    {answer : Except StorageError String} (h : s.LeadsAt n path answer) :
    (s.run [.ask n, .keep n]).answer? n = some answer := by
  obtain ⟨hread, progress, hreading, hleads⟩ := h
  have hlength : n < s.readings.length := (List.getElem?_eq_some_iff.1 hreading).1
  cases hleads with
  | asking =>
      cases answer with
      | ok content =>
          simp only [Shared.run, List.foldl_cons, List.foldl_nil,
            Shared.perform, hreading, hread,
            List.getElem?_set_self hlength, answer?, List.set_set]
      | error e =>
          simp only [Shared.run, List.foldl_cons, List.foldl_nil,
            Shared.perform, hreading, hread,
            List.getElem?_set_self hlength, answer?]
  | holding h =>
      simp only [Shared.run, List.foldl_cons, List.foldl_nil,
        Shared.perform, hreading, List.getElem?_set_self hlength, answer?, h]
  | answered =>
      simp only [Shared.run, List.foldl_cons, List.foldl_nil, Shared.perform,
        hreading, answer?]

private theorem pending_run (s : Shared σ) (moves : List (Move σ)) :
    (s.run moves).workspace.pending = s.workspace.pending := by
  have hperform (s : Shared σ) (move : Move σ) :
      (s.perform move).workspace.pending = s.workspace.pending := by
    cases move with
    | ask n | keep n => simp only [perform]; split <;> rfl
    | look path | edit storage | clear path => rfl
  induction moves generalizing s with
  | nil => rfl
  | cons move moves ih => exact (ih (s.perform move)).trans (hperform s move)

/-! ## Readings after a clearing -/

theorem leadsAt_look {s : Shared σ} {path : Path} (h : ¬ s.Stale path.normalize)
    (hstaged : (s.workspace.pending.get? path.normalize).any Change.onFile =
      false) :
    (s.perform (.look path)).LeadsAt s.readings.length path
      (Storage.read s.workspace.storage path.normalize) := by
  refine ⟨rfl, _, List.getElem?_concat_length, ?_⟩
  rw [Workspace.known?_unstaged hstaged]
  cases hcache : s.workspace.cache.get? path.normalize with
  | none => exact .asking
  | some content =>
      have hread :
          Storage.read s.workspace.storage path.normalize = .ok content := by
        by_contra hother
        exact h ⟨content, hcache, hother⟩
      rw [hread]
      exact .answered

private theorem answered_look {s : Shared σ} {path : Path} {content : String}
    (hstaged : (s.workspace.pending.get? path.normalize).any Change.onFile =
      false)
    (hcache : s.workspace.cache.get? path.normalize = some content) :
    (s.perform (.look path)).readings[s.readings.length]? =
      some ⟨path, .answered (.ok content)⟩ := by
  simp only [perform, Workspace.known?_unstaged hstaged, hcache,
    List.getElem?_concat_length, Option.map_some]

private theorem answered_perform {s : Shared σ} {n : Nat} {path : Path}
    {result : Except StorageError String}
    (h : s.readings[n]? = some ⟨path, .answered result⟩) (move : Move σ) :
    (s.perform move).readings[n]? = some ⟨path, .answered result⟩ := by
  have hset {m : Nat} {other : Path} {before after : Reading.Progress}
      (hother : s.readings[m]? = some ⟨other, before⟩) (hgoing : ∀ r,
        before ≠ .answered r) :
      (s.readings.set m ⟨other, after⟩)[n]? = some ⟨path, .answered result⟩ := by
    have hne : m ≠ n := by
      rintro rfl
      simp only [h, Option.some.injEq, Reading.mk.injEq] at hother
      exact hgoing result hother.2.symm
    exact (List.getElem?_set_ne hne).trans h
  cases move with
  | look other =>
      exact (List.getElem?_append_left (List.getElem?_eq_some_iff.1 h).1).trans h
  | ask m =>
      simp only [perform]
      split
      · rename_i hother
        exact hset hother (by simp)
      · exact h
  | keep m =>
      simp only [perform]
      split
      · rename_i hother
        exact hset hother (by simp)
      · exact h
  | edit storage | clear other => exact h

private theorem answer?_run_of_answered {s : Shared σ} {n : Nat} {path : Path}
    {result : Except StorageError String}
    (h : s.readings[n]? = some ⟨path, .answered result⟩) (moves : List (Move σ)) :
    (s.run moves).answer? n = some result := by
  have hrun : (s.run moves).readings[n]? = some ⟨path, .answered result⟩ := by
    induction moves generalizing s with
    | nil => exact h
    | cons move moves ih => exact ih (answered_perform h move)
  simp only [answer?, hrun]

/-- Nothing was read yet; changes of any paths may be staged. -/
def unread (storage : σ) (pending : SortedMap Path Change) : Shared σ where
  workspace := { storage, pending }

/-- A reading of a path without a staged change of its file, which begins when
the last change of the path has been cleared, answers what storage answers then,
exactly if the clearing was not lost. -/
theorem answer_iff_not_lost (storage : σ) (pending : SortedMap Path Change)
    (path : Path) {moves later : List (Move σ)}
    (hstaged : (pending.get? path.normalize).any Change.onFile = false)
    (hclear : ((unread storage pending).run moves).changed path.normalize = false)
    (hlater : ∀ edited, .edit edited ∈ later →
      Storage.read edited path.normalize =
        Storage.read ((unread storage pending).run moves).workspace.storage
          path.normalize) :
    let s := (unread storage pending).run moves
    let n := s.readings.length
    (s.run (.look path :: later ++ [.ask n, .keep n])).answer? n =
        some (Storage.read s.workspace.storage path.normalize) ↔
      ¬ (unread storage pending).Lost moves path.normalize := by
  intro s n
  have hempty : ¬ (unread storage pending).Stale path.normalize := by
    rintro ⟨content, hcontent, -⟩
    cases hcontent
  have hunstaged :
      (s.workspace.pending.get? path.normalize).any Change.onFile = false := by
    rw [pending_run]
    exact hstaged
  rw [← stale_run_iff (Path.isNormal_normalize path) hempty hclear, run_append]
  constructor
  · rintro hanswer ⟨content, hcache, hread⟩
    have hlook := answered_look hunstaged hcache
    have hkept := answer?_run_of_answered hlook (later ++ [.ask n, .keep n])
    rw [run_append] at hkept
    exact hread (Option.some.inj (hanswer.symm.trans hkept))
  · intro hstale
    exact ((leadsAt_look hstale hunstaged).run hlater).answer

end

def stored (content : String) : MemoryStore :=
  MemoryStore.empty.insert ⟨"/a"⟩ content

/-- While the old content is in flight, the new one is stored and the cache is
cleared. -/
def crossing : List (Move MemoryStore) :=
  [.look ⟨"/a"⟩, .ask 0, .edit (stored "new"), .clear ⟨"/a"⟩]

/-- A reading that begins before the old content is kept answers the new one. -/
theorem answer_before_old_kept :
    let s := (unread (stored "old") ∅).run crossing
    let n := s.readings.length
    s.changed ⟨"/a"⟩ = false ∧
      (s.run (.look ⟨"/a"⟩ :: [.keep 0] ++ [.ask n, .keep n])).answer? n =
        some (.ok "new") := by
  intro s n
  have hlost :
      ¬ (unread (stored "old") ∅).Lost crossing (Path.mk "/a").normalize := by
    rintro ⟨first, n, rest, hsplit, -⟩
    have hmem : .keep n ∈ crossing := by simp [hsplit]
    simp [crossing] at hmem
  have hclear : s.changed (Path.mk "/a").normalize = false := by decide +kernel
  have hnormal : (Path.mk "/a").normalize = ⟨"/a"⟩ := by decide +kernel
  have hlater : ∀ edited : MemoryStore, .edit edited ∈ [Move.keep 0] →
      Storage.read edited (Path.mk "/a").normalize =
        Storage.read s.workspace.storage (Path.mk "/a").normalize := by
    simp
  have hanswer :=
    (answer_iff_not_lost (stored "old") ∅ ⟨"/a"⟩ (by decide +kernel)
      hclear hlater).2
  have hread :
      Storage.read s.workspace.storage (Path.mk "/a").normalize = .ok "new" := by
    decide +kernel
  exact ⟨hnormal ▸ hclear, (hanswer hlost).trans (congrArg some hread)⟩

def crossed : Shared MemoryStore :=
  (unread (stored "old") ∅).run (crossing ++ [.keep 0, .look ⟨"/a"⟩,
    .ask 1, .keep 1])

/-- The second reading begins after the clearing and answers what storage held
before the change. -/
theorem old_content_answered :
    crossed.changed ⟨"/a"⟩ = false ∧
      crossed.workspace.storage.get? ⟨"/a"⟩ = some "new" ∧
      crossed.answer? 1 = some (.ok "old") := by
  decide +kernel

end Shared

end ComponentBuild
