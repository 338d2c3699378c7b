import ComponentBuild.Pass.Record
import Mathlib.Data.List.Destutter

/-!
# The life of a pass record

A record is used by calls in any order and number.  It goes from idle to
building with the first start and to resolved or superseded with the first of
these calls after it, and it keeps exactly the diagnostics that are given in
between.
-/

namespace ComponentBuild.PassRecord

/-! ## Calls -/

inductive Call where
  | start (now : Nat)
  | resolve (now : Nat)
  | supersede (now : Nat)
  | push (d : Diagnostic)
  | extend (ds : List Diagnostic)
  deriving DecidableEq, Repr

namespace Call

def isStart : Call → Bool
  | start _ => true
  | _ => false

def isEnd : Call → Bool
  | resolve _ | supersede _ => true
  | _ => false

def given : Call → List Diagnostic
  | push d => [d]
  | extend ds => ds
  | _ => []

end Call

def perform (r : PassRecord) : Call → PassRecord
  | .start now => r.start now
  | .resolve now => r.resolve now
  | .supersede now => r.supersede now
  | .push d => r.addDiagnostic d
  | .extend ds => r.addDiagnostics ds

def run (r : PassRecord) (calls : List Call) : PassRecord :=
  calls.foldl perform r

def phases (r : PassRecord) : List Call → List Phase
  | [] => [r.phase]
  | call :: calls => r.phase :: (r.perform call).phases calls

/-- The phases that the calls lead through, each as often as it is entered. -/
def visited (r : PassRecord) (calls : List Call) : List Phase :=
  (r.phases calls).destutter (· ≠ ·)

def untilEnd (calls : List Call) : List Call :=
  calls.takeWhile fun call => !call.isEnd

/-- The calls between the first start and the first end after it. -/
def whileBuilding (calls : List Call) : List Call :=
  untilEnd ((calls.dropWhile fun call => !call.isStart).drop 1)

def accepted (calls : List Call) : List Diagnostic :=
  (whileBuilding calls).flatMap Call.given

/-! ## One call -/

variable {r : PassRecord}

private theorem addDiagnostics_of_inactive (h : r.phase ≠ .building)
    (ds : List Diagnostic) :
    r.addDiagnostics ds = r := by
  induction ds with
  | nil => rfl
  | cons d ds ih =>
      have hskip : r.addDiagnostic d = r := by simp [addDiagnostic, isActive, h]
      rw [addDiagnostics, List.foldl_cons, hskip]
      exact ih

private theorem addDiagnostics_of_building (h : r.phase = .building)
    (ds : List Diagnostic) :
    r.addDiagnostics ds = { r with diagnostics := r.diagnostics ++ ds } := by
  induction ds generalizing r with
  | nil => simp [addDiagnostics]
  | cons d ds ih =>
      have hadd :
          r.addDiagnostic d = { r with diagnostics := r.diagnostics ++ [d] } := by
        simp [addDiagnostic, isActive, h]
      have hrest := ih (r := { r with diagnostics := r.diagnostics ++ [d] }) h
      rw [addDiagnostics, List.foldl_cons, hadd]
      rw [addDiagnostics] at hrest
      rw [hrest, List.append_assoc]
      rfl

theorem perform_of_not_building (hbuilding : r.phase ≠ .building) {call : Call}
    (hstart : call.isStart = true → r.phase ≠ .idle) : r.perform call = r := by
  cases call with
  | start now => simp [perform, PassRecord.start, hstart rfl]
  | resolve now => simp [perform, PassRecord.resolve, finish, hbuilding]
  | supersede now => simp [perform, PassRecord.supersede, finish, hbuilding]
  | push d => simp [perform, addDiagnostic, isActive, hbuilding]
  | extend ds => exact addDiagnostics_of_inactive hbuilding ds

private theorem perform_of_final (h : r.phase.isFinal = true) (call : Call) :
    r.perform call = r := by
  apply perform_of_not_building
  · intro hphase
    rw [hphase] at h
    cases h
  · intro _ hphase
    rw [hphase] at h
    cases h

private theorem perform_of_idle (h : r.phase = .idle) {call : Call}
    (hcall : call.isStart = false) :
    r.perform call = r := by
  apply perform_of_not_building
  · simp [h]
  · simp [hcall]

private theorem perform_start (h : r.phase = .idle) {call : Call}
    (hcall : call.isStart = true) :
    ∃ now, r.perform call =
      { r with phase := .building, startedAt := some now } := by
  cases call with
  | start now => exact ⟨now, by simp [perform, PassRecord.start, h]⟩
  | resolve | supersede | push | extend => cases hcall

private theorem perform_of_building (h : r.phase = .building) {call : Call}
    (hcall : call.isEnd = false) :
    r.perform call = { r with diagnostics := r.diagnostics ++ call.given } := by
  have hidle : r.phase ≠ .idle := by simp [h]
  cases call with
  | start now => simp [perform, PassRecord.start, Call.given, hidle]
  | resolve now => cases hcall
  | supersede now => cases hcall
  | push d => simp [perform, addDiagnostic, isActive, Call.given, h]
  | extend ds => exact addDiagnostics_of_building h ds

private theorem perform_end (h : r.phase = .building) {call : Call}
    (hcall : call.isEnd = true) :
    ∃ (last : Phase) (now : Nat), last.isFinal = true ∧
      r.perform call =
        { r with phase := last, duration := r.startedAt.map (now - ·) } := by
  cases call with
  | resolve now =>
      exact ⟨.resolved, now, rfl,
        by simp [perform, PassRecord.resolve, finish, h]⟩
  | supersede now =>
      exact ⟨.superseded, now, rfl,
        by simp [perform, PassRecord.supersede, finish, h]⟩
  | start | push | extend => cases hcall

/-- What one call makes of a record. -/
theorem perform_cases (r : PassRecord) (call : Call) :
    r.perform call = r ∨
      (r.phase = .building ∧
        r.perform call = { r with diagnostics := r.diagnostics ++ call.given }) ∨
      (r.phase = .idle ∧
        ∃ now, r.perform call =
          { r with phase := .building, startedAt := some now }) ∨
      (r.phase = .building ∧ ∃ (last : Phase) (now : Nat), last.isFinal = true ∧
        r.perform call =
          { r with phase := last, duration := r.startedAt.map (now - ·) }) := by
  cases hphase : r.phase with
  | idle =>
      cases hcall : call.isStart with
      | false => exact .inl (perform_of_idle hphase hcall)
      | true => exact .inr (.inr (.inl ⟨rfl, perform_start hphase hcall⟩))
  | building =>
      cases hcall : call.isEnd with
      | false =>
          have hsame := perform_of_building hphase hcall
          exact .inr (.inl ⟨rfl, by rw [hsame, hphase]⟩)
      | true => exact .inr (.inr (.inr ⟨rfl, perform_end hphase hcall⟩))
  | resolved | superseded =>
      exact .inl (perform_of_final (by rw [hphase]; rfl) call)

/-! ## Phases -/

private theorem exists_phases_eq (r : PassRecord) (calls : List Call) :
    ∃ later, r.phases calls = r.phase :: later := by
  cases calls with
  | nil => exact ⟨[], rfl⟩
  | cons call calls => exact ⟨_, rfl⟩

private theorem visited_cons_same {call : Call}
    (h : (r.perform call).phase = r.phase) (calls : List Call) :
    r.visited (call :: calls) = (r.perform call).visited calls := by
  obtain ⟨later, hlater⟩ := exists_phases_eq (r.perform call) calls
  have hsame : ¬ r.phase ≠ (r.perform call).phase := by simp [h]
  rw [visited, visited, phases, hlater, List.destutter_cons_cons, if_neg hsame,
    List.destutter_cons', h]

private theorem visited_cons_new {call : Call}
    (h : (r.perform call).phase ≠ r.phase) (calls : List Call) :
    r.visited (call :: calls) = r.phase :: (r.perform call).visited calls := by
  obtain ⟨later, hlater⟩ := exists_phases_eq (r.perform call) calls
  rw [visited, visited, phases, hlater, List.destutter_cons_cons, if_pos h.symm,
    List.destutter_cons']

private theorem visited_of_final (h : r.phase.isFinal = true)
    (calls : List Call) :
    r.visited calls = [r.phase] := by
  induction calls with
  | nil => rfl
  | cons call calls ih =>
      have hsame := perform_of_final h call
      rw [visited_cons_same (by rw [hsame]), hsame, ih]

private theorem visited_of_building (h : r.phase = .building)
    (calls : List Call) :
    r.visited calls = [.building] ∨
      ∃ last : Phase, last.isFinal = true ∧
      r.visited calls = [.building, last] := by
  induction calls generalizing r with
  | nil =>
      left
      rw [← h]
      rfl
  | cons call calls ih =>
      cases hcall : call.isEnd with
      | false =>
          have hphase : (r.perform call).phase = .building := by
            rw [perform_of_building h hcall]
            exact h
          rw [visited_cons_same (by rw [hphase, h])]
          exact ih hphase
      | true =>
          obtain ⟨last, now, hfinal, hended⟩ := perform_end h hcall
          have hnew : (r.perform call).phase ≠ r.phase := by
            rw [hended, h]
            rintro rfl
            cases hfinal
          right
          refine ⟨last, hfinal, ?_⟩
          rw [visited_cons_new hnew, hended, visited_of_final hfinal, h]

private theorem visited_of_idle (h : r.phase = .idle) (calls : List Call) :
    r.visited calls = [.idle] ∨ r.visited calls = [.idle, .building] ∨
      ∃ last : Phase, last.isFinal = true ∧
        r.visited calls = [.idle, .building, last] := by
  induction calls with
  | nil =>
      left
      rw [← h]
      rfl
  | cons call calls ih =>
      cases hcall : call.isStart with
      | false =>
          have hsame := perform_of_idle h hcall
          rw [visited_cons_same (by rw [hsame]), hsame]
          exact ih
      | true =>
          obtain ⟨now, hstarted⟩ := perform_start h hcall
          have hbuilding : (r.perform call).phase = .building := by rw [hstarted]
          rw [visited_cons_new (by simp [hbuilding, h]), h]
          right
          rcases visited_of_building hbuilding calls with
            hrest | ⟨last, hfinal, hrest⟩
          · left
            rw [hrest]
          · right
            exact ⟨last, hfinal, by rw [hrest]⟩

/-! ## Diagnostics -/

private theorem run_of_final (h : r.phase.isFinal = true) (calls : List Call) :
    r.run calls = r := by
  induction calls with
  | nil => rfl
  | cons call calls ih =>
      rw [run, List.foldl_cons, perform_of_final h]
      exact ih

private theorem diagnostics_run_of_building (h : r.phase = .building)
    (calls : List Call) :
    (r.run calls).diagnostics = r.diagnostics ++
      (untilEnd calls).flatMap Call.given := by
  induction calls generalizing r with
  | nil => simp [run, untilEnd]
  | cons call calls ih =>
      rw [run, List.foldl_cons, ← run]
      cases hcall : call.isEnd with
      | false =>
          have hphase : (r.perform call).phase = .building := by
            rw [perform_of_building h hcall]
            exact h
          rw [ih hphase, perform_of_building h hcall]
          simp [untilEnd, hcall]
      | true =>
          obtain ⟨last, now, hfinal, hended⟩ := perform_end h hcall
          rw [hended, run_of_final hfinal]
          simp [untilEnd, hcall]

private theorem diagnostics_run_of_idle (h : r.phase = .idle)
    (calls : List Call) :
    (r.run calls).diagnostics = r.diagnostics ++ accepted calls := by
  induction calls with
  | nil => simp [run, accepted, whileBuilding, untilEnd]
  | cons call calls ih =>
      rw [run, List.foldl_cons, ← run]
      cases hcall : call.isStart with
      | false =>
          rw [perform_of_idle h hcall, ih]
          simp [accepted, whileBuilding, hcall]
      | true =>
          obtain ⟨now, hstarted⟩ := perform_start h hcall
          rw [hstarted, diagnostics_run_of_building rfl]
          simp [accepted, whileBuilding, hcall]

private theorem diagnostics_prefix_perform (r : PassRecord) (call : Call) :
    r.diagnostics <+: (r.perform call).diagnostics := by
  rcases r.perform_cases call with h | ⟨-, h⟩ | ⟨-, now, h⟩ | ⟨-, last, now, -, h⟩
  · simp [h]
  · simp [h]
  · simp [h]
  · simp [h]

private theorem diagnostics_prefix_run (r : PassRecord) (calls : List Call) :
    r.diagnostics <+: (r.run calls).diagnostics := by
  induction calls generalizing r with
  | nil => exact List.prefix_rfl
  | cons call calls ih =>
      exact (diagnostics_prefix_perform r call).trans (ih (r.perform call))

/-! ## Times -/

/-- The times that a record has go with its phase. -/
structure Timed (r : PassRecord) : Prop where
  started : r.startedAt.isSome = true ↔ r.phase ≠ .idle
  ended : r.duration.isSome = true ↔ r.phase.isFinal = true

theorem Timed.perform (h : Timed r) (call : Call) : Timed (r.perform call) := by
  obtain ⟨hstarted, hended⟩ := h
  rcases r.perform_cases call with hcall | ⟨-, hcall⟩ | ⟨hphase, now, hcall⟩ |
    ⟨hphase, last, now, hfinal, hcall⟩
  · rw [hcall]
    exact ⟨hstarted, hended⟩
  · rw [hcall]
    exact ⟨hstarted, hended⟩
  · rw [hcall]
    rw [hphase] at hended
    exact ⟨by simp, hended⟩
  · have hnew : last ≠ .idle := by
      rintro rfl
      cases hfinal
    rw [hphase] at hstarted
    rw [hcall]
    constructor
    · simpa [hnew] using hstarted
    · simpa [hfinal] using hstarted

theorem Timed.run (h : Timed r) (calls : List Call) : Timed (r.run calls) := by
  induction calls generalizing r with
  | nil => exact h
  | cons call calls ih => exact ih (h.perform call)

/-! ## The whole life -/

/-- However a new record is used, it goes from idle to building and on to one
final phase at most.  Its diagnostics are those given while it was building, in
order, and none is lost or changed later.  It has a start time exactly if it is
not idle and a duration exactly if it is final. -/
theorem life_cycle {r : PassRecord} {pass : Nat}
    (hnew : r = fullBuild pass ∨ r = rebuild pass) (calls : List Call) :
    r.visited calls ∈
        [[.idle], [.idle, .building], [.idle, .building, .resolved],
          [.idle, .building, .superseded]] ∧
      (r.run calls).diagnostics = accepted calls ∧
      (∀ earlier later, calls = earlier ++ later →
        (r.run earlier).diagnostics <+: (r.run calls).diagnostics) ∧
      ((r.run calls).startedAt.isSome = true ↔ (r.run calls).phase ≠ .idle) ∧
      ((r.run calls).duration.isSome = true ↔
        (r.run calls).phase.isFinal = true) ∧
      ((r.run calls).hasError = true ↔ ∃ d ∈ accepted calls,
        d.severity = .error) := by
  have hidle : r.phase = .idle := by rcases hnew with rfl | rfl <;> rfl
  have hnone : r.diagnostics = [] := by rcases hnew with rfl | rfl <;> rfl
  have htimed : Timed r := by
    rcases hnew with rfl | rfl
    · exact ⟨by simp [fullBuild], by simp [fullBuild, Phase.isFinal]⟩
    · exact ⟨by simp [rebuild], by simp [rebuild, Phase.isFinal]⟩
  have hdiagnostics : (r.run calls).diagnostics = accepted calls := by
    rw [diagnostics_run_of_idle hidle, hnone, List.nil_append]
  refine ⟨?_, hdiagnostics, ?_, (htimed.run calls).started,
    (htimed.run calls).ended, ?_⟩
  · rcases visited_of_idle hidle calls with hpath | hpath | ⟨last, hfinal, hpath⟩
    · simp [hpath]
    · simp [hpath]
    · cases last with
      | idle | building => cases hfinal
      | resolved | superseded => simp [hpath]
  · rintro earlier later rfl
    rw [run, run, List.foldl_append]
    exact diagnostics_prefix_run _ later
  · simp [hasError, hdiagnostics, Diagnostic.isError]

def callsAtAllTimes : List Call :=
  [.push ⟨.error, "too early", none⟩, .resolve 3, .start 5,
    .push ⟨.warning, "first", none⟩, .start 6,
    .extend [⟨.info, "second", none⟩, ⟨.error, "third", none⟩],
    .supersede 9, .resolve 10, .extend [⟨.error, "too late", none⟩], .start 11]

theorem life_cycle_superseded :
    (rebuild 2).visited callsAtAllTimes = [.idle, .building, .superseded] ∧
      ((rebuild 2).run callsAtAllTimes).diagnostics.map (·.message) = ["first",
        "second", "third"] ∧
      ((rebuild 2).run callsAtAllTimes).startedAt = some 5 ∧
      ((rebuild 2).run callsAtAllTimes).duration = some 4 ∧
      ((rebuild 2).run callsAtAllTimes).hasError = true := by
  have hnew : rebuild 2 = fullBuild 2 ∨ rebuild 2 = rebuild 2 := .inr rfl
  obtain ⟨-, hdiagnostics, -, -, -, herror⟩ := life_cycle hnew callsAtAllTimes
  refine ⟨by decide, ?_, by decide, by decide, herror.2 ?_⟩
  · rw [hdiagnostics]
    decide
  · exact ⟨⟨.error, "third", none⟩, by decide, rfl⟩

end ComponentBuild.PassRecord
