import ComponentBuild.Proofs.Imports.Calls
import ComponentBuild.Proofs.SortedMap.Entries

/-!
# What reserving more names changes

Reserving a name matters to a run of calls only if the run would give the name
away as an alias.  So two runs of the same calls import the same, alias by
alias, exactly if neither gives an alias that is reserved in the other.  What is
imported from where is the same in any case.
-/

namespace ComponentBuild.ImportTable

open KeyOrder SortedMap

/-! ## Tables with more names taken -/

structure Widened (extra : List String) (t u : ImportTable) : Prop where
  imports : u.imports = t.imports
  suffixes : u.suffixes = t.suffixes
  taken : ∀ name, u.taken.contains name = true ↔
    name ∈ extra ∨ t.taken.contains name = true

private theorem widened_withReserved {names extra all : List String}
    (hall : ∀ name, name ∈ all ↔ name ∈ extra ∨ name ∈ names) :
    Widened extra (withReserved names) (withReserved all) where
  imports := by rw [imports_withReserved, imports_withReserved]
  suffixes := by rw [suffixes_withReserved, suffixes_withReserved]
  taken name := by simp [contains_taken_withReserved, hall]

variable {extra : List String} {t u : ImportTable}

theorem Widened.aliasOf? (h : Widened extra t u) (s : ImportSource) (n : String) :
    u.aliasOf? s n = t.aliasOf? s n := by
  rw [ImportTable.aliasOf?, ImportTable.aliasOf?, h.imports]

theorem Widened.contains_of_taken (h : Widened extra t u) {name : String}
    (htaken : t.taken.contains name = true) : u.taken.contains name = true :=
  (h.taken name).2 (.inr htaken)

theorem Widened.not_contains (h : Widened extra t u) {name : String}
    (hextra : name ∉ extra) (hfree : t.taken.contains name = false) :
    u.taken.contains name = false := by
  rw [Bool.eq_false_iff, Ne, h.taken, not_or, Bool.not_eq_true]
  exact ⟨hextra, hfree⟩

theorem Widened.lastNumber (h : Widened extra t u) (name : String) :
    u.lastNumber name = t.lastNumber name := by
  rw [ImportTable.lastNumber, ImportTable.lastNumber, h.suffixes]

/-- The least free number stays the least as long as its own name is not among
the extra ones. -/
theorem Widened.nextNumber (h : Widened extra t u) {name : String}
    (htaken : t.taken.contains name = true)
    (havoid : numbered name (t.nextNumber name) ∉ extra) :
    u.nextNumber name = t.nextNumber name := by
  have hleast := leastFree_nextNumber htaken
  have hwider :
      LeastFree u.taken name (u.lastNumber name + 1) (t.nextNumber name) := by
    rw [h.lastNumber]
    exact ⟨hleast.le, fun j hj hlt => h.contains_of_taken (hleast.below j hj hlt),
      h.not_contains havoid hleast.free⟩
  exact (leastFree_nextNumber (h.contains_of_taken htaken)).unique hwider

theorem Widened.takeAlias (h : Widened extra t u) {name : String}
    (havoid : (t.takeAlias name).1 ∉ extra) :
    (u.takeAlias name).1 = (t.takeAlias name).1 ∧
      (u.takeAlias name).2.suffixes = (t.takeAlias name).2.suffixes := by
  cases htaken : t.taken.contains name with
  | true =>
      rw [takeAlias_of_taken htaken] at havoid ⊢
      rw [takeAlias_of_taken (h.contains_of_taken htaken),
        h.nextNumber htaken havoid, h.suffixes]
      exact ⟨rfl, rfl⟩
  | false =>
      rw [takeAlias_of_free htaken] at havoid ⊢
      rw [takeAlias_of_free (h.not_contains havoid htaken)]
      exact ⟨rfl, h.suffixes⟩

theorem Widened.added (h : Widened extra t u) (s : ImportSource) {n : String}
    (havoid : (t.takeAlias n).1 ∉ extra) :
    Widened extra (t.added s n) (u.added s n) := by
  obtain ⟨hgiven, hsuffixes⟩ := h.takeAlias havoid
  refine ⟨?_, hsuffixes, fun name => ?_⟩
  · simp only [ImportTable.added, h.imports, hgiven]
  · rw [contains_taken_added, contains_taken_added, hgiven, h.taken, or_left_comm]

theorem Widened.reserve (h : Widened extra t u) (name : String) :
    Widened extra (t.reserve name) (u.reserve name) := by
  refine ⟨h.imports, h.suffixes, fun name' => ?_⟩
  simp only [ImportTable.reserve, SortedSet.add, SortedMap.contains_insert,
    Bool.or_eq_true, h.taken, or_left_comm]

theorem Widened.run (h : Widened extra t u) {calls : List Call}
    (havoid : ∀ s n given, (t.run calls).aliasOf? s n = some given →
      given ∉ extra) :
    Widened extra (t.run calls) (u.run calls) := by
  induction calls generalizing t u with
  | nil => exact h
  | cons call calls ih =>
      cases call with
      | reserve name => exact ih (h.reserve name) havoid
      | insert s n =>
          have hnow : ∀ given, (t.insert s n).2.aliasOf? s n = some given →
              given ∉ extra :=
            fun given hgiven =>
            havoid s n given (aliasOf?_run_of_some hgiven calls)
          rw [aliasOf?_insert, if_pos rfl] at hnow
          change ∀ s' n' given,
            ((t.insert s n).2.run calls).aliasOf? s' n' = some given → _ at havoid
          change Widened extra ((t.insert s n).2.run calls)
            ((u.insert s n).2.run calls)
          cases halias : t.aliasOf? s n with
          | some given =>
              rw [insert_present halias] at havoid ⊢
              rw [insert_present ((h.aliasOf? s n).trans halias)]
              exact ih h havoid
          | none =>
              rw [insert_absent halias] at hnow havoid ⊢
              rw [insert_absent ((h.aliasOf? s n).trans halias)]
              exact ih (h.added s (hnow _ rfl)) havoid

/-! ## Aliases that are new -/

theorem not_taken_of_aliasOf?_run {calls : List Call} {s : ImportSource}
    {n given : String} (h : (t.run calls).aliasOf? s n = some given) :
    t.aliasOf? s n = some given ∨ t.taken.contains given = false := by
  induction calls generalizing t with
  | nil => exact .inl h
  | cons call calls ih =>
      rcases ih h with hold | hfree
      · cases call with
        | reserve name => exact .inl hold
        | insert s' n' =>
            rw [perform] at hold
            cases halias : t.aliasOf? s' n' with
            | some given' =>
                rw [insert_present halias] at hold
                exact .inl hold
            | none =>
                rw [insert_absent halias, aliasOf?_added] at hold
                split at hold
                · rw [← Option.some.inj hold]
                  exact .inr (takeAlias_fresh t n')
                · exact .inl hold
      · refine .inr (Bool.eq_false_iff.2 fun htaken => ?_)
        rw [contains_taken_perform htaken call] at hfree
        cases hfree

theorem not_mem_reserved_of_aliasOf? {names : List String} {calls : List Call}
    {s : ImportSource} {n given : String}
    (h : ((withReserved names).run calls).aliasOf? s n = some given) :
    given ∉ names := by
  rcases not_taken_of_aliasOf?_run h with hold | hfree
  · rw [aliasOf?_withReserved] at hold
    cases hold
  · intro hmem
    rw [(contains_taken_withReserved names given).2 hmem] at hfree
    cases hfree

/-! ## Two reservations -/

def Avoids (t : ImportTable) (names : List String) : Prop :=
  ∀ s n given, t.aliasOf? s n = some given → given ∉ names

private theorem avoids_iff {t : ImportTable} {names : List String} :
    t.Avoids names ↔ ∀ group ∈ t.sortedImports, ∀ n ∈ group.2,
      n.given ∉ names := by
  constructor
  · exact fun h group hgroup n hn =>
      h _ _ _ (aliasOf?_of_mem_sortedImports hgroup hn)
  · intro h s n given hgiven
    obtain ⟨group, hgroup, hn, -⟩ := exists_mem_sortedImports hgiven
    exact h group hgroup _ hn

instance (t : ImportTable) (names : List String) : Decidable (t.Avoids names) :=
  decidable_of_iff _ avoids_iff.symm

theorem run_imports_eq_iff (names others : List String) (calls : List Call) :
    ((withReserved names).run calls).imports =
      ((withReserved others).run calls).imports ↔
      ((withReserved names).run calls).Avoids others ∧
        ((withReserved others).run calls).Avoids names := by
  constructor
  · intro h
    have halias (s : ImportSource) (n : String) :
        ((withReserved names).run calls).aliasOf? s n =
        ((withReserved others).run calls).aliasOf? s n := by
      rw [ImportTable.aliasOf?, ImportTable.aliasOf?, h]
    exact ⟨fun s n given hgiven =>
      not_mem_reserved_of_aliasOf? ((halias s n).symm.trans hgiven),
      fun s n given hgiven => not_mem_reserved_of_aliasOf?
        ((halias s n).trans hgiven)⟩
  · -- Both runs go the way of the run with all names reserved.
    rintro ⟨hnames, hothers⟩
    have hfirst :
        Widened others (withReserved names) (withReserved (names ++ others)) :=
      widened_withReserved fun name => by rw [List.mem_append, or_comm]
    have hsecond :
        Widened names (withReserved others) (withReserved (names ++ others)) :=
      widened_withReserved fun name => List.mem_append
    rw [← (hfirst.run hnames).imports, (hsecond.run hothers).imports]

/-! ## What is imported from where -/

def names (t : ImportTable) : SortedMap ImportSource (SortedSet String) :=
  t.imports.mapValues fun imported => imported.mapValues fun _ => ()

private theorem isSome_aliasOf? (t : ImportTable) (s : ImportSource)
    (n : String) :
    (t.aliasOf? s n).isSome = ((t.names.get? s).bind (·.get? n)).isSome := by
  rw [ImportTable.aliasOf?, names, get?_mapValues]
  cases t.imports.get? s with
  | none => rfl
  | some imported =>
      rw [Option.map_some, Option.bind_some, Option.bind_some, get?_mapValues,
        Option.isSome_map]

private theorem names_added (t : ImportTable) (s : ImportSource) (n : String) :
    (t.added s n).names = t.names.insert s
      (((t.names.get? s).getD ∅).insert n ()) := by
  rw [names, ImportTable.added, mapValues_insert, mapValues_insert, ← names]
  have hold :
      ((t.imports.get? s).getD ∅).mapValues (fun _ => ()) =
        (t.names.get? s).getD ∅ := by
    rw [names, get?_mapValues]
    cases t.imports.get? s <;> rfl
  rw [hold]

theorem names_run (h : t.names = u.names) (calls : List Call) :
    (t.run calls).names = (u.run calls).names := by
  induction calls generalizing t u with
  | nil => exact h
  | cons call calls ih =>
      refine ih ?_
      cases call with
      | reserve name => exact h
      | insert s n =>
          have hsome : (t.aliasOf? s n).isSome = (u.aliasOf? s n).isSome := by
            rw [isSome_aliasOf?, isSome_aliasOf?, h]
          rw [perform, perform]
          cases halias : t.aliasOf? s n with
          | some given =>
              rw [halias] at hsome
              obtain ⟨given', halias'⟩ := Option.isSome_iff_exists.1 hsome.symm
              rw [insert_present halias, insert_present halias']
              exact h
          | none =>
              rw [halias] at hsome
              rw [insert_absent halias,
                insert_absent (Option.isSome_eq_false_iff.1 hsome.symm |>
                Option.isNone_iff_eq_none.1), names_added, names_added, h]

theorem names_sortedImports_eq (t : ImportTable) :
    t.sortedImports.map (fun group => (group.1, group.2.map (·.name))) =
      t.names.entries.map fun e => (e.1, e.2.keys) := by
  simp [sortedImports, names, mapValues, mapWithKey, SortedMap.keys,
    Function.comp_def]

theorem eq_of_sortedImports_eq {t u : ImportTable}
    (h : t.sortedImports = u.sortedImports) :
    t.imports = u.imports := by
  have hinjective :
      Function.Injective fun e : ImportSource × SortedMap String String =>
      (e.1, e.2.entries.map fun e => ImportedName.mk e.1 e.2) := by
    rintro ⟨s, m⟩ ⟨s', m'⟩ heq
    obtain ⟨rfl, hentries⟩ := Prod.mk.inj heq
    refine Prod.ext rfl (SortedMap.ext (List.map_injective_iff.2 ?_ hentries))
    rintro ⟨n, given⟩ ⟨n', given'⟩ hname
    obtain ⟨rfl, rfl⟩ := ImportedName.mk.inj hname
    rfl
  exact SortedMap.ext (List.map_injective_iff.2 hinjective h)

end ComponentBuild.ImportTable
