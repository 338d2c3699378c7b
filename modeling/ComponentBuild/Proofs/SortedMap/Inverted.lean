import ComponentBuild.Proofs.SortedMap.Lookup
import ComponentBuild.Proofs.SortedMap.Separating

/-!
# The inverse of a sorted map

A map in which no value has two keys can be read backwards.
-/

namespace ComponentBuild

namespace SortedMap

open KeyOrder

variable {κ α : Type} [KeyOrder κ]

def IsInjective (m : SortedMap κ α) : Prop :=
  ∀ j k v, m.get? j = some v → m.get? k = some v → j = k

theorem mem_entries_of_get? [Separating κ] {m : SortedMap κ α} {k : κ} {v : α}
    (h : m.get? k = some v) : (k, v) ∈ m.entries := by
  obtain ⟨j, hj, hsame⟩ := get?_eq_some_iff.1 h
  rwa [← same_iff_eq.1 hsame]

theorem isInjective_of_nodup [Separating κ] {m : SortedMap κ α}
    (h : (m.entries.map (·.2)).Nodup) :
    m.IsInjective := fun _ _ _ hj hk =>
  congrArg Prod.fst (List.inj_on_of_nodup_map h (mem_entries_of_get? hj)
    (mem_entries_of_get? hk) rfl)

variable [KeyOrder α]

def inverted (m : SortedMap κ α) : SortedMap α κ :=
  .ofList (m.entries.map fun e => (e.2, e.1))

theorem get?_inverted [Separating κ] [Separating α] {m : SortedMap κ α}
    (h : m.IsInjective) {k : κ} {v : α} :
    m.inverted.get? v = some k ↔ m.get? k = some v := by
  have hget : m.inverted.get? v =
      ((m.entries.map fun e => (e.2, e.1)).reverse.find? fun x =>
        same x.1 v).map (·.2) := by
    rw [inverted, ofList, get?_foldl_insert_eq]
    exact Option.or_none
  have hfound {x : α × κ}
      (hx : (m.entries.map fun e => (e.2, e.1)).reverse.find?
        (fun x => same x.1 v) = some x) :
      m.get? x.2 = some v := by
    have hsame : same x.1 v = true := by simpa using List.find?_some hx
    obtain ⟨e, he, rfl⟩ :=
      List.mem_map.1 (List.mem_reverse.1 (List.mem_of_find?_eq_some hx))
    rw [← same_iff_eq.1 hsame]
    exact get?_eq_some_of_mem he
  rw [hget, Option.map_eq_some_iff]
  constructor
  · rintro ⟨x, hx, rfl⟩
    exact hfound hx
  · intro hk
    have hmem : (v, k) ∈ (m.entries.map fun e => (e.2, e.1)).reverse :=
      List.mem_reverse.2 (List.mem_map.2 ⟨(k, v), mem_entries_of_get? hk, rfl⟩)
    have hsome :
        ((m.entries.map fun e => (e.2, e.1)).reverse.find? fun x =>
          same x.1 v).isSome = true := by
      rw [List.find?_isSome]
      exact ⟨(v, k), hmem, same_refl v⟩
    obtain ⟨x, hx⟩ := Option.isSome_iff_exists.1 hsome
    exact ⟨x, hx, h _ _ v (hfound hx) hk⟩

end SortedMap

end ComponentBuild
