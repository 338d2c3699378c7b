import ComponentBuild.SortedMap.Basic
import Mathlib.Data.List.Nodup

/-!
# Looking up keys in sorted maps

Reading a map never tells two keys apart that the order takes for the same.
Each operation is described by what a lookup gives afterwards; the entries
themselves matter only where a map is listed.
-/

namespace ComponentBuild

namespace KeyOrder

variable {κ : Type} [KeyOrder κ]

theorem same_comm (a b : κ) : same a b = same b a := by
  simp [same, Bool.and_comm]

theorem same_left_congr {a b : κ} (h : same a b = true) (c : κ) :
    same a c = same b c := by
  cases hb : same b c with
  | true => exact same_trans h hb
  | false =>
      cases ha : same a c with
      | false => rfl
      | true => simp [same_trans (same_symm h) ha] at hb

theorem same_right_congr {a b : κ} (h : same a b = true) (c : κ) :
    same c a = same c b := by
  rw [same_comm c a, same_comm c b, same_left_congr h]

theorem not_same_of_before {a b : κ} (h : before a b = true) :
    same a b = false := by
  simp [same, h]

end KeyOrder

namespace SortedMap

open KeyOrder

variable {κ α : Type} [KeyOrder κ]

/-! ## Entries -/

theorem entries_distinct (m : SortedMap κ α) :
    m.entries.Pairwise fun a b => same a.1 b.1 = false :=
  m.sorted.imp not_same_of_before

theorem get?_eq_some_of_mem {m : SortedMap κ α} {k : κ} {v : α}
    (h : (k, v) ∈ m.entries) :
    m.get? k = some v := by
  have hd := m.entries_distinct
  unfold get?
  generalize m.entries = l at h hd
  induction l with
  | nil => simp at h
  | cons e rest ih =>
      obtain ⟨he, hrest⟩ := List.pairwise_cons.1 hd
      rcases List.mem_cons.1 h with rfl | h
      · simp [same_refl]
      · rw [List.find?_cons, he _ h]
        exact ih h hrest

theorem get?_congr (m : SortedMap κ α) {j k : κ} (h : same j k = true) :
    m.get? j = m.get? k := by
  simp only [get?, same_right_congr h]

theorem get?_eq_some_iff {m : SortedMap κ α} {k : κ} {v : α} :
    m.get? k = some v ↔ ∃ j, (j, v) ∈ m.entries ∧ same j k = true := by
  constructor
  · intro h
    obtain ⟨⟨j, w⟩, he, rfl⟩ := Option.map_eq_some_iff.1 h
    exact ⟨j, List.mem_of_find?_eq_some he, by simpa using List.find?_some he⟩
  · rintro ⟨j, hj, hsame⟩
    rw [← get?_congr m hsame, get?_eq_some_of_mem hj]

theorem contains_eq_isSome (m : SortedMap κ α) (k : κ) :
    m.contains k = (m.get? k).isSome := by
  rw [Bool.eq_iff_iff, get?, Option.isSome_map, List.find?_isSome, contains,
    List.any_eq_true]

theorem contains_congr (m : SortedMap κ α) {j k : κ} (h : same j k = true) :
    m.contains j = m.contains k := by
  rw [contains_eq_isSome, contains_eq_isSome, get?_congr m h]

theorem contains_of_mem_keys {m : SortedMap κ α} {k : κ} (h : k ∈ m.keys) :
    m.contains k = true := by
  obtain ⟨⟨j, v⟩, he, rfl⟩ := List.mem_map.1 h
  rw [contains_eq_isSome, get?_eq_some_of_mem he]
  rfl

theorem exists_mem_keys_of_contains {m : SortedMap κ α} {k : κ}
    (h : m.contains k = true) :
    ∃ j ∈ m.keys, same j k = true := by
  obtain ⟨e, he, hsame⟩ := List.any_eq_true.1 h
  exact ⟨e.1, List.mem_map_of_mem he, hsame⟩

theorem nodup_keys (m : SortedMap κ α) : m.keys.Nodup := by
  refine m.keys_sorted.imp ?_
  rintro k j hbefore rfl
  rw [KeyOrder.irrefl] at hbefore
  cases hbefore

/-- A function of the keys tells the listed ones apart when it tells different
keys apart. -/
theorem nodup_map_keys_iff {β : Type} {m : SortedMap κ α} {f : κ → β}
    (hf : ∀ a b, same a b = true → f a = f b) :
    (m.keys.map f).Nodup ↔
      ∀ a b, m.contains a = true → m.contains b = true → f a = f b →
      same a b = true := by
  constructor
  · intro h a b ha hb heq
    obtain ⟨j, hj, hja⟩ := exists_mem_keys_of_contains ha
    obtain ⟨k, hk, hkb⟩ := exists_mem_keys_of_contains hb
    have hjk : j = k :=
      List.inj_on_of_nodup_map h hj hk (by rw [hf j a hja, hf k b hkb, heq])
    rw [hjk] at hja
    exact same_trans (same_symm hja) hkb
  · intro h
    refine List.pairwise_map.2 (m.keys_sorted.imp_of_mem ?_)
    intro a b ha hb hbefore heq
    have hsame := h a b (contains_of_mem_keys ha) (contains_of_mem_keys hb) heq
    rw [not_same_of_before hbefore] at hsame
    cases hsame

/-! ## The operations as lookups see them -/

@[simp] theorem entries_empty : (∅ : SortedMap κ α).entries = [] := rfl

@[simp] theorem get?_empty (k : κ) : (∅ : SortedMap κ α).get? k = none := rfl

private theorem find?_insertEntry (k j : κ) (v : α) (l : List (κ × α)) :
    ((insertEntry k v l).find? fun e => same e.1 j).map (·.2) =
      if same k j then some v else (l.find? fun e => same e.1 j).map (·.2) := by
  induction l with
  | nil => cases h : same k j <;> simp [insertEntry, h]
  | cons e rest ih =>
      simp only [insertEntry]
      split
      · cases h : same k j <;> simp [h]
      · split
        · rename_i hek
          cases he : same e.1 j with
          | true =>
              have hkj : same k j = false := by
                rw [same_comm, ← same_left_congr he, not_same_of_before hek]
              simp [he, hkj]
          | false => simp only [List.find?_cons, he, ih]
        · rename_i h₁ h₂
          have hek : same e.1 k = true := by simp [same, h₁, h₂]
          rw [← same_left_congr hek j]
          cases he : same e.1 j <;> simp [he]

theorem get?_insert (m : SortedMap κ α) (k j : κ) (v : α) :
    (m.insert k v).get? j = if same k j then some v else m.get? j :=
  find?_insertEntry k j v m.entries

/-- Of the entries that are inserted at a key the last one stays; here all of
them have one value. -/
theorem get?_foldl_insert {β : Type} {key : β → κ} {value : β → α} {k : κ}
    {v : α} {xs : List β}
    (hvalue : ∀ x ∈ xs, same (key x) k = true → value x = v) {m : SortedMap κ α}
    (h : m.get? k = some v ∨ ∃ x ∈ xs, same (key x) k = true) :
    (xs.foldl (fun m x => m.insert (key x) (value x)) m).get? k = some v := by
  induction xs generalizing m with
  | nil => simpa using h
  | cons x xs ih =>
      obtain ⟨hx, hrest⟩ := List.forall_mem_cons.1 hvalue
      refine ih hrest ?_
      rw [get?_insert]
      cases hsame : same (key x) k with
      | true => exact .inl (by simp [hx hsame])
      | false =>
          rcases h with h | ⟨y, hy, hk⟩
          · exact .inl (by simpa using h)
          · rcases List.mem_cons.1 hy with rfl | hy
            · rw [hsame] at hk
              cases hk
            · exact .inr ⟨y, hy, hk⟩

/-- Insertions into a map hide what it held with the last one of each key. -/
theorem get?_foldl_insert_eq (xs : List (κ × α)) (m : SortedMap κ α) (k : κ) :
    (xs.foldl (fun m x => m.insert x.1 x.2) m).get? k =
      ((xs.reverse.find? fun x => same x.1 k).map (·.2)).or (m.get? k) := by
  induction xs generalizing m with
  | nil => rfl
  | cons x xs ih =>
      rw [List.foldl_cons, ih, get?_insert, List.reverse_cons,
        List.find?_append, Option.map_or, Option.or_assoc]
      cases h : same x.1 k <;> simp [h]

theorem get?_erase (m : SortedMap κ α) (k j : κ) :
    (m.erase k).get? j = if same k j then none else m.get? j := by
  simp only [erase, get?]
  induction m.entries with
  | nil => simp
  | cons e rest ih =>
      cases hek : same e.1 k with
      | true =>
          cases hkj : same k j with
          | true => simpa [hek, hkj] using ih
          | false =>
              have hej : same e.1 j = false := by rw [same_left_congr hek, hkj]
              simpa [hek, hkj, hej] using ih
      | false =>
          cases hej : same e.1 j with
          | true =>
              have hkj : same k j = false := by
                rw [same_comm, ← same_left_congr hej, hek]
              simp [hek, hej, hkj]
          | false => simpa [hek, hej] using ih

theorem contains_insert (m : SortedMap κ α) (k j : κ) (v : α) :
    (m.insert k v).contains j = (same k j || m.contains j) := by
  rw [contains_eq_isSome, contains_eq_isSome, get?_insert]
  cases same k j <;> simp

end SortedMap

/-! ## Sets -/

namespace SortedSet

open KeyOrder SortedMap

variable {κ : Type} [KeyOrder κ]

theorem contains_addAll (s : SortedSet κ) (ks : List κ) (j : κ) :
    SortedMap.contains (s.addAll ks) j = true ↔
      SortedMap.contains s j = true ∨ ∃ k ∈ ks, same k j = true := by
  induction ks generalizing s with
  | nil => simp [addAll]
  | cons k ks ih =>
      have hadd :
          SortedMap.contains (s.add k) j = (same k j || SortedMap.contains s j) :=
        contains_insert s k j ()
      rw [addAll, List.foldl_cons, ← addAll, ih, hadd]
      simp only [Bool.or_eq_true, List.mem_cons, exists_eq_or_imp]
      rw [or_assoc, or_left_comm]

theorem exists_mem_toList_iff (s : SortedSet κ) (j : κ) :
    (∃ k ∈ s.toList, same k j = true) ↔ SortedMap.contains s j = true := by
  constructor
  · rintro ⟨k, hk, hsame⟩
    rw [← contains_congr s hsame]
    exact contains_of_mem_keys hk
  · exact exists_mem_keys_of_contains

theorem exists_mem_ofKeys {ks : List κ} {j : κ} :
    (∃ k ∈ (ofKeys ks).toList, same k j = true) ↔ ∃ k ∈ ks, same k j = true := by
  rw [exists_mem_toList_iff, ofKeys, contains_addAll]
  exact ⟨fun h => h.resolve_left Bool.false_ne_true, .inr⟩

end SortedSet

end ComponentBuild
