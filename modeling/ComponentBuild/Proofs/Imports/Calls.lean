import ComponentBuild.Proofs.Imports.Alias
import ComponentBuild.Proofs.Imports.Filling
import ComponentBuild.Proofs.SortedMap.Entries
import Mathlib.Data.List.Dedup

/-!
# Import tables over any calls

A table is made by reserving names and inserting pairs of a source and a name,
in any order.  Pairs are told apart by the key of the source and the name.  An
alias is taken when it is given and nothing ever gives it up, so every alias
stays with its pair and no two pairs share one.
-/

namespace ComponentBuild.ImportTable

open KeyOrder SortedMap

/-! ## Pairs -/

/-- A pair as a table knows it; a file is one source however its path is
written. -/
def pairKey (p : ImportSource × String) :
    (Nat × List (PathPart String) × String) × String :=
  (p.1.key, p.2)

theorem pairKey_eq_iff {s s' : ImportSource} {n n' : String} :
    pairKey (s, n) = pairKey (s', n') ↔ same s s' = true ∧ n = n' := by
  rw [ImportSource.same_key_iff]
  exact Prod.mk.injEq _ _ _ _ ▸ Iff.rfl

private theorem aliasOf?_congr (t : ImportTable) {s s' : ImportSource}
    {n n' : String} (h : pairKey (s, n) = pairKey (s', n')) :
    t.aliasOf? s n = t.aliasOf? s' n' := by
  obtain ⟨hsame, rfl⟩ := pairKey_eq_iff.1 h
  rw [aliasOf?, aliasOf?, get?_congr t.imports hsame]

/-! ## One insertion -/

theorem insert_present {t : ImportTable} {s : ImportSource} {n given : String}
    (h : t.aliasOf? s n = some given) : t.insert s n = (given, t) := by
  simp [insert, h]

def added (t : ImportTable) (s : ImportSource) (n : String) : ImportTable :=
  { (t.takeAlias n).2 with
    imports :=
      t.imports.insert s (((t.imports.get? s).getD ∅).insert n
        (t.takeAlias n).1) }

theorem insert_absent {t : ImportTable} {s : ImportSource} {n : String}
    (h : t.aliasOf? s n = none) :
    t.insert s n = ((t.takeAlias n).1, t.added s n) := by
  simp [insert, h, added, imports_takeAlias]

theorem aliasOf?_added (t : ImportTable) (s s' : ImportSource) (n n' : String) :
    (t.added s n).aliasOf? s' n' =
      if pairKey (s, n) = pairKey (s', n') then some (t.takeAlias n).1
        else t.aliasOf? s' n' := by
  rw [aliasOf?, added, get?_insert]
  by_cases hsame : same s s' = true
  · by_cases hname : n = n'
    · rw [if_pos hsame, if_pos (pairKey_eq_iff.2 ⟨hsame, hname⟩),
        Option.bind_some, get?_insert, if_pos (same_iff_eq.2 hname)]
    · rw [if_pos hsame, if_neg fun h => hname (pairKey_eq_iff.1 h).2,
        Option.bind_some, get?_insert,
        if_neg fun h => hname (same_iff_eq.1 h), aliasOf?,
        get?_congr t.imports hsame]
      cases t.imports.get? s' <;> rfl
  · rw [if_neg hsame, if_neg fun h => hsame (pairKey_eq_iff.1 h).1]
    rfl

theorem aliasOf?_insert (t : ImportTable) (s s' : ImportSource) (n n' : String) :
    (t.insert s n).2.aliasOf? s' n' =
      if pairKey (s, n) = pairKey (s', n') then some (t.insert s n).1
        else t.aliasOf? s' n' := by
  cases halias : t.aliasOf? s n with
  | some given =>
      rw [insert_present halias]
      split
      · rename_i heq
        rw [← aliasOf?_congr t heq, halias]
      · rfl
  | none =>
      rw [insert_absent halias]
      exact aliasOf?_added t s s' n n'

theorem contains_taken_added (t : ImportTable) (s : ImportSource)
    (n name : String) :
    (t.added s n).taken.contains name = true ↔
      (t.takeAlias n).1 = name ∨ t.taken.contains name = true := by
  have htaken : (t.added s n).taken = t.taken.add (t.takeAlias n).1 :=
    taken_takeAlias t n
  rw [htaken, SortedSet.add, SortedMap.contains_insert,
    Bool.or_eq_true, same_iff_eq]

/-! ## Runs of calls -/

inductive Call where
  | insert (source : ImportSource) (name : String)
  | reserve (name : String)
  deriving DecidableEq, Repr

def perform (t : ImportTable) : Call → ImportTable
  | .insert source name => (t.insert source name).2
  | .reserve name => t.reserve name

def run (t : ImportTable) (calls : List Call) : ImportTable :=
  calls.foldl perform t

private theorem run_append (t : ImportTable) (before after : List Call) :
    t.run (before ++ after) = (t.run before).run after :=
  List.foldl_append

def Call.pair? : Call → Option (ImportSource × String)
  | .insert source name => some (source, name)
  | .reserve _ => none

def Call.reserved? : Call → Option String
  | .insert _ _ => none
  | .reserve name => some name

def insertedKeys (calls : List Call) :
    List ((Nat × List (PathPart String) × String) × String) :=
  (calls.filterMap Call.pair?).map pairKey

theorem mem_insertedKeys_iff {calls : List Call} {s : ImportSource} {n : String} :
    pairKey (s, n) ∈ insertedKeys calls ↔ ∃ s',
      .insert s' n ∈ calls ∧ same s' s = true := by
  simp only [insertedKeys, List.mem_map, List.mem_filterMap]
  constructor
  · rintro ⟨⟨s', n'⟩, ⟨call, hcall, hpair⟩, hkey⟩
    obtain ⟨hsame, rfl⟩ := pairKey_eq_iff.1 hkey
    cases call with
    | reserve name => cases hpair
    | insert s'' n'' =>
        cases hpair
        exact ⟨s', hcall, hsame⟩
  · rintro ⟨s', hcall, hsame⟩
    exact ⟨(s', n), ⟨_, hcall, rfl⟩, pairKey_eq_iff.2 ⟨hsame, rfl⟩⟩

private theorem aliasOf?_perform_of_some {t : ImportTable} {s : ImportSource}
    {n given : String} (h : t.aliasOf? s n = some given) (call : Call) :
    (t.perform call).aliasOf? s n = some given := by
  cases call with
  | reserve name => exact h
  | insert s' n' =>
      rw [perform, aliasOf?_insert]
      split
      · rename_i heq
        rw [insert_present (aliasOf?_congr t heq ▸ h)]
      · exact h

/-- An alias stays with its pair. -/
theorem aliasOf?_run_of_some {t : ImportTable} {s : ImportSource}
    {n given : String} (h : t.aliasOf? s n = some given) (calls : List Call) :
    (t.run calls).aliasOf? s n = some given :=
  List.foldlRecOn (motive := fun t : ImportTable => t.aliasOf? s n = some given)
    _ _ h
    fun _ h call _ => aliasOf?_perform_of_some h call

private theorem isSome_aliasOf?_run (t : ImportTable) (calls : List Call)
    (s : ImportSource) (n : String) :
    ((t.run calls).aliasOf? s n).isSome = true ↔
      pairKey (s, n) ∈ insertedKeys calls ∨ (t.aliasOf? s n).isSome = true := by
  induction calls generalizing t with
  | nil => simp [run, insertedKeys]
  | cons call calls ih =>
      rw [run, List.foldl_cons, ← run, ih]
      cases call with
      | reserve name => rfl
      | insert s' n' =>
          have hkeys : insertedKeys (.insert s' n' :: calls) =
            pairKey (s', n') :: insertedKeys calls := rfl
          rw [hkeys, List.mem_cons, perform, aliasOf?_insert]
          by_cases heq : pairKey (s', n') = pairKey (s, n)
          · simp [heq]
          · simp [heq, Ne.symm heq]

/-! ## What calls keep -/

section

variable {P : ImportTable → Prop} (hreserve : ∀ {t}, P t → ∀ name,
    P (t.reserve name))
  (hadded : ∀ {t}, P t → ∀ s n, P (t.added s n))

include hreserve hadded

theorem keeps_perform {t : ImportTable} (h : P t) (call : Call) :
    P (t.perform call) := by
  cases call with
  | reserve name => exact hreserve h name
  | insert s n =>
      rw [perform]
      cases halias : t.aliasOf? s n with
      | some given =>
          rw [insert_present halias]
          exact h
      | none =>
          rw [insert_absent halias]
          exact hadded h s n

theorem keeps_run {t : ImportTable} (h : P t) (calls : List Call) :
    P (t.run calls) :=
  List.foldlRecOn (motive := P) _ _ h fun _ h call _ =>
  keeps_perform hreserve hadded h call

end

theorem contains_taken_reserve {t : ImportTable} {name : String}
    (h : t.taken.contains name = true) (name' : String) :
    (t.reserve name').taken.contains name = true := by
  rw [reserve, SortedSet.add, SortedMap.contains_insert, h, Bool.or_true]

private theorem contains_taken_of_added {t : ImportTable} {name : String}
    (h : t.taken.contains name = true) (s : ImportSource) (n : String) :
    (t.added s n).taken.contains name = true :=
  (contains_taken_added t s n name).2 (.inr h)

theorem contains_taken_perform {t : ImportTable} {name : String}
    (h : t.taken.contains name = true) (call : Call) :
    (t.perform call).taken.contains name = true :=
  keeps_perform (P := fun t => t.taken.contains name = true)
    contains_taken_reserve
    contains_taken_of_added h call

theorem contains_taken_run {t : ImportTable} {name : String}
    (h : t.taken.contains name = true) (calls : List Call) :
    (t.run calls).taken.contains name = true :=
  keeps_run (P := fun t => t.taken.contains name = true) contains_taken_reserve
    contains_taken_of_added h calls

theorem contains_taken_of_reserved {calls : List Call} {name : String}
    (h : name ∈ calls.filterMap Call.reserved?) (t : ImportTable) :
    (t.run calls).taken.contains name = true := by
  obtain ⟨call, hcall, hname⟩ := List.mem_filterMap.1 h
  obtain ⟨before, after, rfl⟩ := List.append_of_mem hcall
  cases call with
  | insert s n => cases hname
  | reserve name' =>
      obtain rfl := Option.some.inj hname
      rw [run_append]
      refine contains_taken_run ?_ after
      rw [perform, reserve, SortedSet.add, SortedMap.contains_insert,
        same_refl, Bool.true_or]

theorem contains_taken_withReserved (names : List String) (name : String) :
    (withReserved names).taken.contains name = true ↔ name ∈ names := by
  suffices h : ∀ t : ImportTable,
      (names.foldl reserve t).taken.contains name = true ↔
      name ∈ names ∨ t.taken.contains name = true by
    exact (h empty).trans (or_iff_left Bool.false_ne_true)
  induction names with
  | nil => simp
  | cons first names ih =>
      intro t
      rw [List.foldl_cons, ih, reserve, SortedSet.add,
        SortedMap.contains_insert, Bool.or_eq_true,
        same_iff_eq, List.mem_cons, eq_comm (a := first), or_assoc, or_left_comm]

theorem aliasOf?_withReserved (names : List String) (s : ImportSource)
    (n : String) :
    (withReserved names).aliasOf? s n = none := by
  rw [aliasOf?, imports_withReserved]
  rfl

/-! ## Aliases and what is taken -/

/-- Aliases are taken, belong to one pair each, and are made from the names of
their pairs. -/
structure WellFormed (t : ImportTable) : Prop where
  taken : ∀ {s n given}, t.aliasOf? s n = some given →
    t.taken.contains given = true
  distinct : ∀ {s n s' n' given}, t.aliasOf? s n = some given →
    t.aliasOf? s' n' = some given →
    pairKey (s, n) = pairKey (s', n')
  form : ∀ {s n given}, t.aliasOf? s n = some given → IsAliasFor n given

theorem wellFormed_withReserved (names : List String) :
    WellFormed (withReserved names) := by
  constructor <;> simp [aliasOf?_withReserved]

theorem WellFormed.added {t : ImportTable} (h : WellFormed t) (s : ImportSource)
    (n : String) :
    WellFormed (t.added s n) := by
  have hfresh : ∀ {s' n'}, t.aliasOf? s' n' ≠ some (t.takeAlias n).1 := by
    intro s' n' halias
    have htaken := h.taken halias
    rw [takeAlias_fresh] at htaken
    cases htaken
  constructor
  case taken =>
    intro s' n' given halias
    rw [aliasOf?_added] at halias
    rw [contains_taken_added]
    split at halias
    · exact .inl (Option.some.inj halias)
    · exact .inr (h.taken halias)
  case distinct =>
    intro s₁ n₁ s₂ n₂ given h₁ h₂
    rw [aliasOf?_added] at h₁ h₂
    split at h₁
    · rename_i heq₁
      split at h₂
      · rename_i heq₂
        exact heq₁.symm.trans heq₂
      · exact absurd (h₂.trans h₁.symm) hfresh
    · split at h₂
      · exact absurd (h₁.trans h₂.symm) hfresh
      · exact h.distinct h₁ h₂
  case form =>
    intro s' n' given halias
    rw [aliasOf?_added] at halias
    split at halias
    · rename_i heq
      obtain ⟨-, rfl⟩ := pairKey_eq_iff.1 heq
      rw [← Option.some.inj halias]
      exact isAliasFor_takeAlias t n
    · exact h.form halias

theorem WellFormed.reserve {t : ImportTable} (h : WellFormed t) (name : String) :
    WellFormed (t.reserve name) :=
  ⟨fun halias => contains_taken_reserve (h.taken halias) name, h.distinct, h.form⟩

theorem WellFormed.run {t : ImportTable} (h : WellFormed t) (calls : List Call) :
    WellFormed (t.run calls) :=
  keeps_run WellFormed.reserve WellFormed.added h calls

/-! ## Listing a table -/

def listedPairs (t : ImportTable) : List (ImportSource × String) :=
  t.sortedImports.flatMap fun group => group.2.map fun imported =>
  (group.1, imported.name)

private theorem length_listedPairs (t : ImportTable) :
    t.listedPairs.length = t.size := by
  simp [listedPairs, sortedImports, size, SortedMap.values, SortedMap.size,
    List.length_flatMap, List.sum_eq_foldr, Function.comp_def]

theorem aliasOf?_of_mem_sortedImports {t : ImportTable}
    {group : ImportSource × List ImportedName}
    (hgroup : group ∈ t.sortedImports) {imported : ImportedName}
    (h : imported ∈ group.2) :
    t.aliasOf? group.1 imported.name = some imported.given := by
  obtain ⟨⟨s, names⟩, hentry, rfl⟩ := List.mem_map.1 hgroup
  obtain ⟨⟨n, given⟩, hname, rfl⟩ := List.mem_map.1 h
  rw [aliasOf?, get?_eq_some_of_mem hentry, Option.bind_some,
    get?_eq_some_of_mem hname]

theorem exists_mem_sortedImports {t : ImportTable} {s : ImportSource}
    {n given : String} (h : t.aliasOf? s n = some given) :
    ∃ group ∈ t.sortedImports, ⟨n, given⟩ ∈ group.2 ∧ same group.1 s = true := by
  obtain ⟨names, hnames, hgiven⟩ := Option.bind_eq_some_iff.1 h
  obtain ⟨j, hj, hsame⟩ := get?_eq_some_iff.1 hnames
  obtain ⟨m, hm, hname⟩ := get?_eq_some_iff.1 hgiven
  obtain rfl : m = n := same_iff_eq.1 hname
  refine ⟨_, List.mem_map.2 ⟨(j, names), hj, rfl⟩, ?_, hsame⟩
  exact List.mem_map.2 ⟨(m, given), hm, rfl⟩

theorem mem_listedPairs_iff {t : ImportTable} {s : ImportSource} {n : String} :
    pairKey (s, n) ∈ t.listedPairs.map pairKey ↔
      (t.aliasOf? s n).isSome = true := by
  constructor
  · intro h
    obtain ⟨p, hp, hkey⟩ := List.mem_map.1 h
    obtain ⟨group, hgroup, hp⟩ := List.mem_flatMap.1 hp
    obtain ⟨imported, himported, rfl⟩ := List.mem_map.1 hp
    rw [← aliasOf?_congr t hkey, aliasOf?_of_mem_sortedImports hgroup himported]
    rfl
  · intro h
    obtain ⟨given, halias⟩ := Option.isSome_iff_exists.1 h
    obtain ⟨group, hgroup, himported, hsame⟩ := exists_mem_sortedImports halias
    refine List.mem_map.2 ⟨(group.1, n), ?_, pairKey_eq_iff.2 ⟨hsame, rfl⟩⟩
    exact List.mem_flatMap.2 ⟨group, hgroup, List.mem_map.2 ⟨_, himported, rfl⟩⟩

private theorem mem_keys_of_listed {t : ImportTable} {s : ImportSource}
    {n : String} (h : (s, n) ∈ t.listedPairs) : s ∈ t.imports.keys := by
  obtain ⟨group, hgroup, hpair⟩ := List.mem_flatMap.1 h
  obtain ⟨e, he, rfl⟩ := List.mem_map.1 hgroup
  obtain ⟨_, -, hpair⟩ := List.mem_map.1 hpair
  obtain ⟨rfl, rfl⟩ := Prod.mk.inj hpair
  exact List.mem_map_of_mem he

private theorem sources_sortedImports (t : ImportTable) :
    t.sortedImports.Pairwise fun a b => before a.1 b.1 = true :=
  List.pairwise_map.2 t.imports.sorted

private theorem names_sortedImports {t : ImportTable}
    {group : ImportSource × List ImportedName} (h : group ∈ t.sortedImports) :
    group.2.Pairwise fun a b => a.name < b.name := by
  obtain ⟨⟨s, names⟩, -, rfl⟩ := List.mem_map.1 h
  refine List.pairwise_map.2 (names.sorted.imp fun {a b} hbefore => ?_)
  exact of_decide_eq_true hbefore

private theorem nodup_listedPairs (t : ImportTable) :
    (t.listedPairs.map pairKey).Nodup := by
  refine List.pairwise_map.2 (List.pairwise_flatMap.2 ⟨fun group hgroup => ?_,
    ?_⟩)
  · refine List.pairwise_map.2
      ((names_sortedImports hgroup).imp fun {a b} hlt heq => ?_)
    rw [(pairKey_eq_iff.1 heq).2] at hlt
    exact String.lt_irrefl _ hlt
  · refine t.sources_sortedImports.imp fun {a b} hbefore p hp q hq heq => ?_
    obtain ⟨_, -, rfl⟩ := List.mem_map.1 hp
    obtain ⟨_, -, rfl⟩ := List.mem_map.1 hq
    have hsame := (pairKey_eq_iff.1 heq).1
    rw [not_same_of_before hbefore] at hsame
    cases hsame

/-! ## The laws of a table -/

section

variable (reserved : List String) (calls : List Call)

theorem isSome_aliasOf?_iff (s : ImportSource) (n : String) :
    (((withReserved reserved).run calls).aliasOf? s n).isSome = true ↔
      pairKey (s, n) ∈ insertedKeys calls := by
  rw [isSome_aliasOf?_run, aliasOf?_withReserved]
  exact or_iff_left Bool.false_ne_true

private theorem mem_listedPairs_run_iff
    (key : (Nat × List (PathPart String) × String) × String) :
    key ∈ ((withReserved reserved).run calls).listedPairs.map pairKey ↔
      key ∈ insertedKeys calls := by
  constructor
  · intro h
    obtain ⟨⟨s, n⟩, -, rfl⟩ := List.mem_map.1 h
    exact (isSome_aliasOf?_iff reserved calls s n).1 (mem_listedPairs_iff.1 h)
  · intro h
    obtain ⟨⟨s, n⟩, -, rfl⟩ := List.mem_map.1 h
    exact mem_listedPairs_iff.2 ((isSome_aliasOf?_iff reserved calls s n).2 h)

private theorem size_run :
    ((withReserved reserved).run calls).size =
      (insertedKeys calls).dedup.length := by
  rw [← length_listedPairs, ← List.length_map (f := pairKey)]
  refine List.Perm.length_eq ((List.perm_ext_iff_of_nodup (nodup_listedPairs _)
    (List.nodup_dedup _)).2 fun key => ?_)
  rw [mem_listedPairs_run_iff, List.mem_dedup]

private theorem insert_again {s : ImportSource} {n : String}
    (h : pairKey (s, n) ∈ insertedKeys calls) :
    (((withReserved reserved).run calls).insert s n).2 =
      (withReserved reserved).run calls := by
  obtain ⟨given, hgiven⟩ :=
    Option.isSome_iff_exists.1 ((isSome_aliasOf?_iff reserved calls s n).2 h)
  rw [insert_present hgiven]

theorem aliasOf?_eq_none {s : ImportSource} {n : String}
    (h : pairKey (s, n) ∉ insertedKeys calls) :
    ((withReserved reserved).run calls).aliasOf? s n = none := by
  rw [← Option.not_isSome_iff_eq_none]
  exact mt (isSome_aliasOf?_iff reserved calls s n).1 h

theorem insert_new {s : ImportSource} {n : String}
    (h : pairKey (s, n) ∉ insertedKeys calls) :
    (((withReserved reserved).run calls).insert s n).1 ∉
      reserved ++ calls.filterMap Call.reserved? := by
  have habsent := aliasOf?_eq_none reserved calls h
  have hfresh := takeAlias_fresh ((withReserved reserved).run calls) n
  rw [insert_absent habsent, List.mem_append, not_or]
  refine ⟨fun hmem => ?_, fun hmem => ?_⟩
  · have htaken :=
      contains_taken_run ((contains_taken_withReserved reserved _).2 hmem) calls
    exact absurd htaken (by simp [hfresh])
  · have htaken := contains_taken_of_reserved hmem (withReserved reserved)
    exact absurd htaken (by simp [hfresh])

end

/-! ## Pairs with valid sources -/

theorem valid_of_mem_keys {reserved : List String} {calls : List Call}
    (hvalid : ∀ s n, .insert s n ∈ calls → s.Valid) :
    ∀ s ∈ ((withReserved reserved).run calls).imports.keys, s.Valid := by
  refine List.foldlRecOn (motive := fun t : ImportTable => ∀ s ∈ t.imports.keys,
    s.Valid) _ _ ?_ ?_
  · intro s hs
    rw [imports_withReserved] at hs
    cases hs
  · intro t ht call hcall
    cases call with
    | reserve name => exact ht
    | insert s n =>
        rw [perform]
        cases halias : t.aliasOf? s n with
        | some given =>
            rw [insert_present halias]
            exact ht
        | none =>
            rw [insert_absent halias]
            intro s' hs'
            rcases mem_keys_insert hs' with rfl | hs'
            · exact hvalid s' n hcall
            · exact ht s' hs'

/-- With valid sources a table lists the very pairs that were inserted. -/
theorem mem_listedPairs_run {reserved : List String} {calls : List Call}
    (hvalid : ∀ s n, .insert s n ∈ calls → s.Valid) {s : ImportSource}
    {n : String} :
    (s, n) ∈ ((withReserved reserved).run calls).listedPairs ↔
      .insert s n ∈ calls := by
  have hkeys := mem_listedPairs_run_iff reserved calls
  have hlisted : ∀ s ∈ ((withReserved reserved).run calls).imports.keys,
      s.Valid :=
    valid_of_mem_keys hvalid
  constructor
  · intro h
    obtain ⟨s', hcall, hsame⟩ :=
      mem_insertedKeys_iff.1 ((hkeys _).1 (List.mem_map_of_mem h))
    obtain rfl :=
      (hvalid s' n hcall).eq_of_same (hlisted s (mem_keys_of_listed h)) hsame
    exact hcall
  · intro h
    obtain ⟨⟨s', n'⟩, hpair, hkey⟩ :=
      List.mem_map.1 ((hkeys _).2 (mem_insertedKeys_iff.2 ⟨s, h, same_refl s⟩))
    obtain ⟨hsame, rfl⟩ := pairKey_eq_iff.1 hkey
    obtain rfl :=
      (hlisted s' (mem_keys_of_listed hpair)).eq_of_same (hvalid s n' h) hsame
    exact hpair

/-- Over any calls on a table with reserved names, two pairs with one alias are
one pair.  What an insertion returns is the alias of its pair ever after;
inserting the pair again changes nothing, and the alias of a new pair is none of
the names reserved so far.  The table counts and lists each inserted pair once,
with its alias, the sources and the names of each source in strict order. -/
theorem aliases_over_calls (reserved : List String) (calls : List Call) :
    let t := (withReserved reserved).run calls
    (∀ s n s' n' given, t.aliasOf? s n = some given →
      t.aliasOf? s' n' = some given →
      pairKey (s, n) = pairKey (s', n')) ∧
    (∀ before s n after, calls = before ++ .insert s n :: after →
      let earlier := (withReserved reserved).run before
      t.aliasOf? s n = some (earlier.insert s n).1 ∧
      (pairKey (s, n) ∈ insertedKeys before → (earlier.insert s n).2 = earlier) ∧
      (pairKey (s, n) ∉ insertedKeys before →
        (earlier.insert s n).1 ∉ reserved ++ before.filterMap Call.reserved?)) ∧
    t.size = (insertedKeys calls).dedup.length ∧
    (∀ key, key ∈ t.listedPairs.map pairKey ↔ key ∈ insertedKeys calls) ∧
    (t.listedPairs.map pairKey).Nodup ∧
    t.sortedImports.Pairwise (fun group later => before group.1 later.1 = true) ∧
    ∀ group ∈ t.sortedImports,
      group.2.Pairwise (fun imported later => imported.name < later.name) ∧
      ∀ imported ∈ group.2, t.aliasOf? group.1 imported.name =
        some imported.given := by
  intro t
  refine ⟨fun s n s' n' given =>
    ((wellFormed_withReserved reserved).run calls).distinct, ?_,
    size_run reserved calls, mem_listedPairs_run_iff reserved calls,
    t.nodup_listedPairs, t.sources_sortedImports, fun group hgroup =>
      ⟨names_sortedImports hgroup,
        fun imported => aliasOf?_of_mem_sortedImports hgroup⟩⟩
  rintro before s n after rfl earlier
  have hreturned :
      (earlier.insert s n).2.aliasOf? s n = some (earlier.insert s n).1 := by
    rw [aliasOf?_insert, if_pos rfl]
  have hlater : t = (earlier.insert s n).2.run after := run_append _ before _
  rw [hlater]
  exact ⟨aliasOf?_run_of_some hreturned after, insert_again reserved before,
    insert_new reserved before⟩

example :
    ((withReserved []).run [.insert (.package "x") "Item1",
      .insert (.package "a") "Item",
    .insert (.package "b") "Item"]).aliasOf? (.package "b") "Item" =
      some "Item2" := by
  decide +kernel

end ComponentBuild.ImportTable
