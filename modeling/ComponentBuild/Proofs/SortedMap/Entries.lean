import ComponentBuild.Proofs.SortedMap.Lookup
import Mathlib.Data.List.Pairwise
import Mathlib.Data.List.Sort

/-!
# Sorted maps with one text for each key

Lookups do not see how a key is written.  Where every key is written in one way
only, a map is determined by its lookups, and a test of the keys filters it as
lookups see it.
-/

namespace ComponentBuild.SortedMap

open KeyOrder

variable {κ α β : Type} [KeyOrder κ]

/-! ## Lists in order -/

theorem eq_of_mem_iff {R : β → β → Prop} (hasymm : ∀ a b, R a b → ¬ R b a)
    {l l' : List β} (h : l.Pairwise R) (h' : l'.Pairwise R)
    (hmem : ∀ b, b ∈ l ↔ b ∈ l') : l = l' := by
  have hne {a b : β} (hab : R a b) : a ≠ b := by
    rintro rfl
    exact hasymm a a hab hab
  have hperm : l.Perm l' :=
    (List.perm_ext_iff_of_nodup (h.imp hne) (h'.imp hne)).2 hmem
  exact hperm.eq_of_pairwise (fun a b _ _ hab hba =>
    absurd hba (hasymm a b hab)) h h'

theorem not_before_of_before {a b : κ} (h : before a b = true) :
    ¬ before b a = true := by
  rw [asymm h]
  exact Bool.false_ne_true

/-! ## Keys -/

theorem mem_map_insertEntry_iff {j k : κ} {v : α} {l : List (κ × α)}
    (h : l.Pairwise fun a b => before a.1 b.1 = true) :
    j ∈ (insertEntry k v l).map (·.1) ↔
      j ∈ l.map (·.1) ∨ j = k ∧ (l.any fun e => same e.1 k) = false := by
  induction l with
  | nil => simp [insertEntry]
  | cons e l ih =>
      obtain ⟨hfirst, hrest⟩ := List.pairwise_cons.1 h
      have hstep := ih hrest
      cases hk : before k e.1 with
      | true =>
          have hnone : ((e :: l).any fun e => same e.1 k) = false := by
            rw [List.any_eq_false]
            intro f hf
            have hbefore : before k f.1 = true := by
              rcases List.mem_cons.1 hf with rfl | hf
              · exact hk
              · exact KeyOrder.trans hk (hfirst f hf)
            simp [same, hbefore]
          simp only [insertEntry, hk, if_true, List.map_cons, List.mem_cons,
            hnone, and_true]
          exact or_comm
      | false =>
          cases hk' : before e.1 k with
          | true =>
              have hother : same e.1 k = false := by simp [same, hk']
              simp only [insertEntry, hk, hk', Bool.false_eq_true,
                if_true, if_false,
                List.map_cons, List.mem_cons, hstep, List.any_cons, hother,
                Bool.false_or]
              exact or_assoc.symm
          | false =>
              have hsame : same e.1 k = true := by simp [same, hk, hk']
              simp [insertEntry, hk, hk', hsame]

theorem mem_keys_insert_iff {m : SortedMap κ α} {j k : κ} {v : α} :
    j ∈ (m.insert k v).keys ↔ j ∈ m.keys ∨ j = k ∧ m.contains k = false :=
  mem_map_insertEntry_iff m.sorted

theorem mem_keys_insert {m : SortedMap κ α} {j k : κ} {v : α}
    (h : j ∈ (m.insert k v).keys) :
    j = k ∨ j ∈ m.keys :=
  (mem_keys_insert_iff.1 h).elim .inr fun hnew => .inl hnew.1

theorem mem_keys_erase_iff {m : SortedMap κ α} {j k : κ} :
    j ∈ (m.erase k).keys ↔ j ∈ m.keys ∧ same j k = false := by
  simp only [keys, erase, List.mem_map, List.mem_filter, Bool.not_eq_true']
  constructor
  · rintro ⟨e, ⟨he, hother⟩, rfl⟩
    exact ⟨⟨e, he, rfl⟩, hother⟩
  · rintro ⟨⟨e, he, rfl⟩, hother⟩
    exact ⟨e, ⟨he, hother⟩, rfl⟩

theorem mem_keys_erase {m : SortedMap κ α} {j k : κ} (h : j ∈ (m.erase k).keys) :
    j ∈ m.keys :=
  (mem_keys_erase_iff.1 h).1

theorem exists_mem_entries_of_mem_keys {m : SortedMap κ α} {k : κ}
    (h : k ∈ m.keys) :
    ∃ v, (k, v) ∈ m.entries := by
  obtain ⟨⟨k, v⟩, he, rfl⟩ := List.mem_map.1 h
  exact ⟨v, he⟩

/-- A key is written in one way in a map. -/
theorem eq_of_mem_keys {m : SortedMap κ α} {j k : κ} (hj : j ∈ m.keys)
    (hk : k ∈ m.keys) (h : same j k = true) : j = k := by
  have hdistinct : m.keys.Pairwise fun j k => same j k = false :=
    m.keys_sorted.imp not_same_of_before
  have hsymm : Std.Symm fun j k : κ => same j k = false :=
    ⟨fun j k hjk => by rwa [same_comm]⟩
  by_contra hne
  rw [hdistinct.forall hj hk hne] at h
  cases h

theorem mem_entries_iff_of_mem_keys {m : SortedMap κ α} {k : κ}
    (hk : k ∈ m.keys) {v : α} :
    (k, v) ∈ m.entries ↔ m.get? k = some v := by
  constructor
  · exact get?_eq_some_of_mem
  · intro h
    obtain ⟨w, hw⟩ := exists_mem_entries_of_mem_keys hk
    rw [get?_eq_some_of_mem hw] at h
    cases h
    exact hw

def put (m : SortedMap κ α) (k : κ) : Option α → SortedMap κ α
  | some v => m.insert k v
  | none => m.erase k

theorem get?_put (m : SortedMap κ α) (k j : κ) (value : Option α) :
    (m.put k value).get? j = if same k j then value else m.get? j := by
  cases value with
  | none => exact get?_erase m k j
  | some v => exact get?_insert m k j v

theorem mem_keys_put {m : SortedMap κ α} {j k : κ} {value : Option α}
    (h : j ∈ (m.put k value).keys) :
    j = k ∨ j ∈ m.keys := by
  cases value with
  | none => exact .inr (mem_keys_erase h)
  | some v => exact mem_keys_insert h

/-! ## A new key -/

theorem perm_insertEntry {k : κ} {v : α} {l : List (κ × α)}
    (h : ∀ e ∈ l, same e.1 k = false) :
    (insertEntry k v l).Perm ((k, v) :: l) := by
  induction l with
  | nil => exact .refl _
  | cons e l ih =>
      obtain ⟨he, hl⟩ := List.forall_mem_cons.1 h
      cases hk : before k e.1 with
      | true => simp [insertEntry, hk]
      | false =>
          have hk' : before e.1 k = true := by simpa [same, hk] using he
          simp only [insertEntry, hk, hk', Bool.false_eq_true, if_true, if_false]
          exact ((ih hl).cons e).trans (.swap _ _ l)

theorem perm_entries_insert {m : SortedMap κ α} {k : κ} (h : m.get? k = none)
    (v : α) :
    (m.insert k v).entries.Perm ((k, v) :: m.entries) := by
  refine perm_insertEntry fun e he => ?_
  rw [get?, Option.map_eq_none_iff, List.find?_eq_none] at h
  exact Bool.eq_false_iff.2 (h e he)

/-! ## A map made of the entries of another -/

theorem insertEntry_of_all_before {k : κ} {v : α} {l : List (κ × α)}
    (h : ∀ e ∈ l, before e.1 k = true) : insertEntry k v l = l ++ [(k, v)] := by
  induction l with
  | nil => rfl
  | cons e l ih =>
      obtain ⟨he, hl⟩ := List.forall_mem_cons.1 h
      simp [insertEntry, asymm he, he, ih hl]

theorem entries_foldl_insert {l : List (κ × α)} {m : SortedMap κ α}
    (h : (m.entries ++ l).Pairwise fun a b => before a.1 b.1 = true) :
    (l.foldl (fun m e => m.insert e.1 e.2) m).entries = m.entries ++ l := by
  induction l generalizing m with
  | nil => simp
  | cons e l ih =>
      have hlast : (m.insert e.1 e.2).entries = m.entries ++ [e] :=
        insertEntry_of_all_before fun f hf =>
          (List.pairwise_append.1 h).2.2 f hf e List.mem_cons_self
      rw [List.foldl_cons, ih (by rwa [hlast, List.append_assoc]), hlast,
        List.append_assoc]
      rfl

theorem entries_ofList {l : List (κ × α)}
    (h : l.Pairwise fun a b => before a.1 b.1 = true) :
    (ofList l).entries = l :=
  entries_foldl_insert h

theorem ofList_entries (m : SortedMap κ α) : ofList m.entries = m :=
  ext (entries_ofList m.sorted)

/-! ## Maps with keys of one kind -/

section

variable {P : κ → Prop} (hP : ∀ a b, P a → P b → same a b = true → a = b)

include hP

theorem mem_entries_iff {m : SortedMap κ α} (hm : ∀ k ∈ m.keys, P k) {k : κ}
    (hk : P k) {v : α} :
    (k, v) ∈ m.entries ↔ m.get? k = some v := by
  constructor
  · exact get?_eq_some_of_mem
  · intro h
    obtain ⟨j, hj, hsame⟩ := get?_eq_some_iff.1 h
    rw [← hP j k (hm j (List.mem_map_of_mem hj)) hk hsame]
    exact hj

theorem get?_eq_none {m : SortedMap κ α} (hm : ∀ k ∈ m.keys, P k) {k : κ}
    (hk : P k) (h : k ∉ m.keys) : m.get? k = none := by
  rw [Option.eq_none_iff_forall_not_mem]
  intro v hv
  exact h (List.mem_map_of_mem ((mem_entries_iff hP hm hk).2 hv))

theorem eq_of_get? {m n : SortedMap κ α} (hm : ∀ k ∈ m.keys, P k)
    (hn : ∀ k ∈ n.keys, P k) (h : ∀ k, P k → m.get? k = n.get? k) : m = n := by
  refine ext (eq_of_mem_iff (fun _ _ => not_before_of_before)
    m.sorted n.sorted ?_)
  rintro ⟨k, v⟩
  constructor
  · intro he
    have hk := hm k (List.mem_map_of_mem he)
    rw [mem_entries_iff hP hn hk, ← h k hk]
    exact get?_eq_some_of_mem he
  · intro he
    have hk := hn k (List.mem_map_of_mem he)
    rw [mem_entries_iff hP hm hk, h k hk]
    exact get?_eq_some_of_mem he

theorem get?_filter {m : SortedMap κ α} (hm : ∀ k ∈ m.keys, P k) {k : κ}
    (hk : P k) (test : κ → Bool) :
    (m.filter fun j _ => test j).get? k = if test k then m.get? k else none := by
  have hkeys : ∀ j ∈ (m.filter fun j _ => test j).keys, P j := by
    intro j hj
    obtain ⟨v, he⟩ := exists_mem_entries_of_mem_keys hj
    exact hm j (List.mem_map_of_mem (List.mem_of_mem_filter he))
  ext v
  rw [← mem_entries_iff hP hkeys hk]
  cases htest : test k with
  | true => simp [filter, htest, mem_entries_iff hP hm hk]
  | false => simp [filter, htest]

end

/-! ## Values changed by key -/

def mapWithKey (f : κ → α → β) (m : SortedMap κ α) : SortedMap κ β where
  entries := m.entries.map fun e => (e.1, f e.1 e.2)
  sorted := List.pairwise_map.2 m.sorted

@[simp] theorem keys_mapWithKey (f : κ → α → β) (m : SortedMap κ α) :
    (m.mapWithKey f).keys = m.keys := by
  simp [mapWithKey, keys]

theorem get?_mapWithKey {P : κ → Prop}
    (hP : ∀ a b, P a → P b → same a b = true → a = b) {m : SortedMap κ α}
    (hm : ∀ k ∈ m.keys, P k) {k : κ} (hk : P k) (f : κ → α → β) :
    (m.mapWithKey f).get? k = (m.get? k).map (f k) := by
  have hkeys : ∀ j ∈ (m.mapWithKey f).keys, P j := by rwa [keys_mapWithKey]
  ext w
  rw [← mem_entries_iff hP hkeys hk, Option.map_eq_some_iff]
  simp only [mapWithKey, List.mem_map, Prod.mk.injEq, ← mem_entries_iff hP hm hk]
  constructor
  · rintro ⟨⟨j, v⟩, he, rfl, rfl⟩
    exact ⟨v, he, rfl⟩
  · rintro ⟨v, he, rfl⟩
    exact ⟨(k, v), he, rfl, rfl⟩

theorem get?_ofList_filterMap {P : κ → Prop}
    (hP : ∀ a b, P a → P b → same a b = true → a = b) {m : SortedMap κ α}
    (hm : ∀ k ∈ m.keys, P k) {k : κ} (hk : P k) (f : κ → α → Option β) :
    (ofList (m.entries.filterMap fun e => (f e.1 e.2).map fun w => (e.1,
      w))).get? k =
      (m.get? k).bind (f k) := by
  have hsorted :
      (m.entries.filterMap fun e => (f e.1 e.2).map fun w => (e.1, w)).Pairwise
      fun a b => before a.1 b.1 = true := by
    refine List.pairwise_filterMap.2
      (m.sorted.imp fun {a b} hbefore x hx y hy => ?_)
    obtain ⟨_, -, rfl⟩ := Option.map_eq_some_iff.1 hx
    obtain ⟨_, -, rfl⟩ := Option.map_eq_some_iff.1 hy
    exact hbefore
  have hkeys :
      ∀ j ∈ (ofList (m.entries.filterMap fun e => (f e.1 e.2).map fun w => (e.1,
        w))).keys,
      P j := by
    intro j hj
    obtain ⟨w, he⟩ := exists_mem_entries_of_mem_keys hj
    rw [entries_ofList hsorted, List.mem_filterMap] at he
    obtain ⟨e, he, hw⟩ := he
    obtain ⟨_, -, heq⟩ := Option.map_eq_some_iff.1 hw
    cases heq
    exact hm _ (List.mem_map_of_mem he)
  ext w
  rw [← mem_entries_iff hP hkeys hk, entries_ofList hsorted, List.mem_filterMap,
    Option.bind_eq_some_iff]
  simp only [Option.map_eq_some_iff, Prod.mk.injEq, ← mem_entries_iff hP hm hk]
  constructor
  · rintro ⟨⟨j, v⟩, he, w, hw, rfl, rfl⟩
    exact ⟨v, he, hw⟩
  · rintro ⟨v, he, hw⟩
    exact ⟨(k, v), he, w, hw, rfl, rfl⟩

/-! ## Values changed alone -/

def mapValues (f : α → β) (m : SortedMap κ α) : SortedMap κ β :=
  m.mapWithKey fun _ => f

theorem get?_mapValues (f : α → β) (m : SortedMap κ α) (k : κ) :
    (m.mapValues f).get? k = (m.get? k).map f := by
  simp [get?, mapValues, mapWithKey, List.find?_map, Function.comp_def]

theorem map_insertEntry (f : α → β) (k : κ) (v : α) (l : List (κ × α)) :
    (insertEntry k v l).map (fun e => (e.1, f e.2)) =
      insertEntry k (f v) (l.map fun e => (e.1, f e.2)) := by
  induction l with
  | nil => rfl
  | cons e rest ih =>
      simp only [insertEntry, List.map_cons]
      split
      · rfl
      · split
        · rw [List.map_cons, ih]
        · rfl

theorem mapValues_insert (f : α → β) (m : SortedMap κ α) (k : κ) (v : α) :
    (m.insert k v).mapValues f = (m.mapValues f).insert k (f v) :=
  ext (map_insertEntry f k v m.entries)

end ComponentBuild.SortedMap

namespace ComponentBuild.SortedSet

open KeyOrder

variable {κ : Type} [KeyOrder κ]

theorem mem_toList_add {P : κ → Prop}
    (hP : ∀ a b, P a → P b → same a b = true → a = b) {s : SortedSet κ}
    (hs : ∀ k ∈ s.toList, P k) {k : κ} (hk : P k) {j : κ} :
    j ∈ (s.add k).toList ↔ j ∈ s.toList ∨ j = k := by
  constructor
  · exact fun h => (SortedMap.mem_keys_insert h).symm
  · intro h
    have hj : P j := by
      rcases h with h | rfl
      · exact hs j h
      · exact hk
    have hcontains : SortedMap.contains (s.add k) j = true := by
      rw [add, SortedMap.contains_insert, Bool.or_eq_true]
      rcases h with h | rfl
      · exact .inr (SortedMap.contains_of_mem_keys h)
      · exact .inl (same_refl _)
    obtain ⟨i, hi, hsame⟩ := SortedMap.exists_mem_keys_of_contains hcontains
    have hi' : P i := by
      rcases SortedMap.mem_keys_insert hi with rfl | hi
      · exact hk
      · exact hs i hi
    rwa [← hP i j hi' hj hsame]

theorem mem_of_mem_ofKeys {ks : List κ} {k : κ}
    (h : k ∈ (ofKeys ks).toList) : k ∈ ks := by
  have hall (ks : List κ) (s : SortedSet κ) (h : k ∈ (s.addAll ks).toList) :
      k ∈ ks ∨ k ∈ s.toList := by
    induction ks generalizing s with
    | nil => exact .inr h
    | cons j ks ih =>
        rcases ih (s.add j) h with hmem | hmem
        · exact .inl (List.mem_cons_of_mem j hmem)
        · rcases SortedMap.mem_keys_insert hmem with rfl | hmem
          · exact .inl List.mem_cons_self
          · exact .inr hmem
  exact (hall ks SortedMap.empty h).resolve_right (by simp [toList,
    SortedMap.keys, SortedMap.empty])

end ComponentBuild.SortedSet
