import ComponentBuild.SortedMap.Order

/-!
Finite maps kept in the order of their keys.

A map is its list of entries with strictly increasing keys, so listing a map is
reading it off. Inserting at a key that is already there keeps the key as it was
first written and replaces the value.
-/

namespace ComponentBuild

structure SortedMap (κ α : Type) [KeyOrder κ] where
  entries : List (κ × α)
  sorted : entries.Pairwise fun a b => KeyOrder.before a.1 b.1 = true

namespace SortedMap

open KeyOrder

variable {κ α : Type} [KeyOrder κ]

/-! ## Operations on sorted lists of entries -/

def insertEntry (k : κ) (v : α) : List (κ × α) → List (κ × α)
  | [] => [(k, v)]
  | e :: rest =>
      if before k e.1 then (k, v) :: e :: rest
      else if before e.1 k then e :: insertEntry k v rest
      else (e.1, v) :: rest

theorem mem_insertEntry {k : κ} {v : α} {e : κ × α} {l : List (κ × α)}
    (h : e ∈ insertEntry k v l) :
    e = (k, v) ∨ e ∈ l ∨ ∃ f ∈ l, same f.1 k = true ∧ e = (f.1, v) := by
  induction l with
  | nil => simpa [insertEntry] using h
  | cons f rest ih =>
      simp only [insertEntry] at h
      split at h
      · simp only [List.mem_cons] at h ⊢
        rcases h with h | h | h <;> simp [h]
      · split at h
        · simp only [List.mem_cons] at h ⊢
          rcases h with h | h
          · simp [h]
          · rcases ih h with h | h | ⟨g, hg, h⟩
            · exact .inl h
            · exact .inr (.inl (.inr h))
            · exact .inr (.inr ⟨g, .inr hg, h⟩)
        · rename_i h₁ h₂
          simp only [List.mem_cons] at h ⊢
          rcases h with h | h
          · refine .inr (.inr ⟨f, .inl rfl, ?_, h⟩)
            simp [same, h₁, h₂]
          · exact .inr (.inl (.inr h))

private theorem sorted_insertEntry (k : κ) (v : α) {l : List (κ × α)}
    (h : l.Pairwise fun a b => before a.1 b.1 = true) :
    (insertEntry k v l).Pairwise fun a b => before a.1 b.1 = true := by
  induction l with
  | nil => simp [insertEntry]
  | cons e rest ih =>
      obtain ⟨he, hrest⟩ := List.pairwise_cons.1 h
      simp only [insertEntry]
      split
      · rename_i hk
        refine List.pairwise_cons.2 ⟨fun a ha => ?_, h⟩
        rcases List.mem_cons.1 ha with rfl | ha
        · exact hk
        · exact trans hk (he a ha)
      · split
        · rename_i hk
          refine List.pairwise_cons.2 ⟨fun a ha => ?_, ih hrest⟩
          rcases mem_insertEntry ha with rfl | ha | ⟨f, hf, _, rfl⟩
          · exact hk
          · exact he a ha
          · exact he f hf
        · exact List.pairwise_cons.2 ⟨fun a ha => he a ha, hrest⟩

/-! ## The map operations -/

def empty : SortedMap κ α :=
  ⟨[], .nil⟩

@[ext] theorem ext {m n : SortedMap κ α} (h : m.entries = n.entries) : m = n := by
  cases m; cases n; cases h; rfl

instance [DecidableEq κ] [DecidableEq α] :
    DecidableEq (SortedMap κ α) := fun m n =>
  decidable_of_iff (m.entries = n.entries) ⟨ext, congrArg entries⟩

instance [Repr κ] [Repr α] : Repr (SortedMap κ α) := ⟨fun m => reprPrec m.entries⟩

instance : EmptyCollection (SortedMap κ α) := ⟨empty⟩

instance : Inhabited (SortedMap κ α) := ⟨empty⟩

def get? (m : SortedMap κ α) (k : κ) : Option α :=
  (m.entries.find? fun e => same e.1 k).map (·.2)

def contains (m : SortedMap κ α) (k : κ) : Bool :=
  m.entries.any fun e => same e.1 k

def insert (m : SortedMap κ α) (k : κ) (v : α) : SortedMap κ α :=
  ⟨insertEntry k v m.entries, sorted_insertEntry k v m.sorted⟩

def erase (m : SortedMap κ α) (k : κ) : SortedMap κ α :=
  ⟨m.entries.filter fun e => !same e.1 k, m.sorted.filter _⟩

def filter (m : SortedMap κ α) (keep : κ → α → Bool) : SortedMap κ α :=
  ⟨m.entries.filter fun e => keep e.1 e.2, m.sorted.filter _⟩

def ofList (entries : List (κ × α)) : SortedMap κ α :=
  entries.foldl (fun m e => m.insert e.1 e.2) empty

def keys (m : SortedMap κ α) : List κ :=
  m.entries.map (·.1)

def values (m : SortedMap κ α) : List α :=
  m.entries.map (·.2)

def size (m : SortedMap κ α) : Nat :=
  m.entries.length

def isEmpty (m : SortedMap κ α) : Bool :=
  m.entries.isEmpty

theorem keys_sorted (m : SortedMap κ α) :
    m.keys.Pairwise fun a b => before a b = true :=
  List.pairwise_map.2 m.sorted

end SortedMap

abbrev SortedSet (κ : Type) [KeyOrder κ] := SortedMap κ Unit

namespace SortedSet

variable {κ : Type} [KeyOrder κ]

def add (s : SortedSet κ) (k : κ) : SortedSet κ :=
  s.insert k ()

def addAll (s : SortedSet κ) (ks : List κ) : SortedSet κ :=
  ks.foldl add s

def ofKeys (ks : List κ) : SortedSet κ :=
  addAll (SortedMap.empty : SortedSet κ) ks

def toList (s : SortedSet κ) : List κ :=
  s.keys

end SortedSet

end ComponentBuild
