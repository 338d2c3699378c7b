import ComponentBuild.Proofs.Imports.Reserving

/-!
# What a table has taken

Only reserving a name and giving it as an alias take a name.  So the names that
are taken after a run are the reserved ones and the aliases, and every imported
name is among them.
-/

namespace ComponentBuild.ImportTable

open KeyOrder SortedMap

/-! ## One call -/

private theorem contains_taken_insert {t : ImportTable} {s : ImportSource}
    {n name : String} (h : (t.insert s n).2.taken.contains name = true) :
    t.taken.contains name = true ∨ (t.insert s n).2.aliasOf? s n = some name := by
  cases halias : t.aliasOf? s n with
  | some given =>
      rw [insert_present halias] at h
      exact .inl h
  | none =>
      rw [aliasOf?_insert, if_pos rfl]
      rw [insert_absent halias, contains_taken_added] at h
      rw [insert_absent halias]
      rcases h with rfl | h
      · exact .inr rfl
      · exact .inl h

theorem contains_taken_takeAlias (t : ImportTable) (name : String) :
    (t.takeAlias name).2.taken.contains name = true := by
  rw [taken_takeAlias, SortedSet.add, SortedMap.contains_insert,
    Bool.or_eq_true, same_iff_eq]
  cases htaken : t.taken.contains name with
  | true => exact .inr rfl
  | false => exact .inl (by rw [takeAlias_of_free htaken])

/-! ## Runs of calls -/

private theorem taken_of_contains_run {t : ImportTable} {calls : List Call}
    {name : String} (h : (t.run calls).taken.contains name = true) :
    t.taken.contains name = true ∨ name ∈ calls.filterMap Call.reserved? ∨
      ∃ s n, (t.run calls).aliasOf? s n = some name := by
  induction calls generalizing t with
  | nil => exact .inl h
  | cons call calls ih =>
      rcases ih h with htaken | hreserved | halias
      · cases call with
        | reserve name' =>
            rw [perform, reserve, SortedSet.add, SortedMap.contains_insert,
              Bool.or_eq_true, same_iff_eq] at htaken
            rcases htaken with rfl | htaken
            · exact .inr (.inl List.mem_cons_self)
            · exact .inl htaken
        | insert s n =>
            rcases contains_taken_insert htaken with htaken | hgiven
            · exact .inl htaken
            · exact .inr (.inr ⟨s, n, aliasOf?_run_of_some hgiven calls⟩)
      · refine .inr (.inl ?_)
        rw [List.filterMap_cons]
        cases call with
        | reserve name' => exact List.mem_cons_of_mem _ hreserved
        | insert s n => exact hreserved
      · exact .inr (.inr halias)

theorem contains_taken_of_inserted {t : ImportTable}
    (ht : ∀ s n given, t.aliasOf? s n = some given → t.taken.contains n = true)
    (calls : List Call) {s : ImportSource} {n given : String}
    (h : (t.run calls).aliasOf? s n = some given) :
    (t.run calls).taken.contains n = true := by
  induction calls generalizing t with
  | nil => exact ht s n given h
  | cons call calls ih =>
      refine ih (fun s' n' given' halias => ?_) h
      cases call with
      | reserve name =>
          exact contains_taken_perform (ht s' n' given' halias) (.reserve name)
      | insert s₁ n₁ =>
          rw [perform, aliasOf?_insert] at halias
          rw [perform]
          split at halias
          · rename_i heq
            obtain ⟨-, rfl⟩ := pairKey_eq_iff.1 heq
            cases hold : t.aliasOf? s₁ n₁ with
            | some given₁ =>
                rw [insert_present hold]
                exact ht s₁ n₁ given₁ hold
            | none =>
                rw [insert_absent hold]
                exact contains_taken_takeAlias t n₁
          · exact contains_taken_perform (ht s' n' given' halias) (.insert s₁ n₁)

section

variable {names : List String} {calls : List Call}

theorem contains_taken_run_iff {name : String} :
    ((withReserved names).run calls).taken.contains name = true ↔
      name ∈ names ++ calls.filterMap Call.reserved? ∨
        ∃ s n, ((withReserved names).run calls).aliasOf? s n = some name := by
  rw [List.mem_append]
  constructor
  · intro h
    rcases taken_of_contains_run h with htaken | hreserved | halias
    · exact .inl (.inl ((contains_taken_withReserved names name).1 htaken))
    · exact .inl (.inr hreserved)
    · exact .inr halias
  · rintro ((hname | hreserved) | ⟨s, n, halias⟩)
    · exact contains_taken_run
        ((contains_taken_withReserved names name).2 hname) calls
    · exact contains_taken_of_reserved hreserved _
    · exact ((wellFormed_withReserved names).run calls).taken halias

theorem exists_aliasOf?_of_inserted {s : ImportSource} {n : String}
    (h : pairKey (s, n) ∈ insertedKeys calls)
    (hfree : n ∉ names ++ calls.filterMap Call.reserved?) :
    ∃ s' n', ((withReserved names).run calls).aliasOf? s' n' = some n := by
  obtain ⟨given, hgiven⟩ :=
    Option.isSome_iff_exists.1 ((isSome_aliasOf?_iff names calls s n).2 h)
  have hnone : ∀ s n given, (withReserved names).aliasOf? s n = some given →
      (withReserved names).taken.contains n = true := by
    intro s n given halias
    rw [aliasOf?_withReserved] at halias
    cases halias
  exact (contains_taken_run_iff.1
    (contains_taken_of_inserted hnone calls hgiven)).resolve_left hfree

end

end ComponentBuild.ImportTable
