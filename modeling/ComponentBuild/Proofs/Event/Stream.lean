import ComponentBuild.Component.Manifest
import ComponentBuild.Event.Basic
import ComponentBuild.Proofs.Json.Compact
import ComponentBuild.Text.Lines

/-!
# Reading events back

An event is one object on a line of its own, whatever texts are in it.  The
fields of each kind of event have names of their own, so their order does not
matter, and the line tells which command reported which event.
-/

namespace ComponentBuild

/-! ## Fields in any order -/

namespace Json

private theorem lookup_eq_some_iff {fields : List (String × Json)}
    (h : (fields.map (·.1)).Nodup) {name : String} {v : Json} :
    fields.lookup name = some v ↔ (name, v) ∈ fields := by
  induction fields with
  | nil => simp
  | cons f fields ih =>
      obtain ⟨key, w⟩ := f
      rw [List.map_cons, List.nodup_cons] at h
      rw [List.lookup_cons, List.mem_cons]
      by_cases hname : name = key
      · subst hname
        have hnot : (name, v) ∉ fields :=
          fun hv => h.1 (List.mem_map.2 ⟨_, hv, rfl⟩)
        simp [hnot, eq_comm]
      · have hbeq : (name == key) = false := beq_eq_false_iff_ne.2 hname
        simp [hbeq, hname, ih h.2]

/-- Sorting the fields of an object changes none of them. -/
theorem field_sortedObject {fields : List (String × Json)}
    (h : (fields.map (·.1)).Nodup) (name : String) :
    (sortedObject fields).field name = (object fields).field name := by
  have hperm := List.mergeSort_perm fields fun a b => !decide (b.1 < a.1)
  have hsorted := (hperm.map (·.1)).nodup_iff.2 h
  have hlookup : (fields.mergeSort fun a b => !decide (b.1 < a.1)).lookup name =
      fields.lookup name := by
    ext v
    rw [lookup_eq_some_iff hsorted, lookup_eq_some_iff h, hperm.mem_iff]
  simp only [field, sortedObject, Json.fields, hlookup]

private theorem isCounted_sortedObject {fields : List (String × Json)}
    (h : ∀ f ∈ fields, f.2.IsCounted) : (sortedObject fields).IsCounted := by
  refine fieldsCounted_iff.2 fun f hf => h f ?_
  exact (List.mergeSort_perm fields _).mem_iff.1 hf

end Json

/-! ## Lines -/

namespace Text

private theorem cutLine?_append {line : List Char} (h : '\n' ∉ line)
    (after : List Char) :
    cutLine? (line ++ '\n' :: after) = some (line, after) := by
  induction line with
  | nil => rfl
  | cons c line ih =>
      rw [List.mem_cons, not_or] at h
      simp [cutLine?, ne_comm.1 h.1, ih h.2]

private theorem lines_append {line : List Char} (hline : Json.NoControl line)
    (after : List Char) :
    lines (line ++ '\n' :: after) = line :: lines after := by
  have hfeed : '\n' ∉ line := fun h => absurd (hline _ h) (by decide)
  have hreturn : line.getLast? ≠ some '\r' :=
    fun h => absurd (hline _ (List.mem_of_getLast? h)) (by decide)
  have hdrop : dropCarriageReturn line = line := if_neg hreturn
  rw [lines]
  split
  · next hcut => simp [cutLine?_append hfeed] at hcut
  · next l a hcut =>
      rw [cutLine?_append hfeed, Option.some.injEq, Prod.mk.injEq] at hcut
      rw [← hcut.1, ← hcut.2, hdrop]

end Text

namespace BuildEvent

/-! ## Decoding -/

def textAt? (v : Json) (name : String) : Option String :=
  (v.field name).asText?

def pathAt? (v : Json) (name : String) : Option Path :=
  (textAt? v name).map Path.mk

def flagAt? (v : Json) (name : String) : Option Bool :=
  (v.field name).asBool?

def countAt? (v : Json) (name : String) : Option Nat :=
  match v.field name with
  | .number literal => some (Nat.ofDigitChars 10 literal.toList 0)
  | _ => none

def failedAt? (v : Json) (name : String) : Option Bool :=
  match textAt? v name with
  | some "failed" => some true
  | some "success" => some false
  | _ => none

def ofKind? (v : Json) : (kind : String) → Option BuildEvent
  | "start" => return .started (← pathAt? v "root") (← flagAt? v "watch")
  | "file_changed" => return .fileChanged (← pathAt? v "path")
  | "pass_start" =>
      return .passStarted (← countAt? v "pass") (← flagAt? v "rebuild")
  | "artifact" =>
      return .artifactGenerated (← pathAt? v "path") (← textAt? v "hash")
        (← flagAt? v "changed")
  | "committed" =>
      return .committed (← countAt? v "pass") (← countAt? v "written")
        (← countAt? v "deleted")
        (← countAt? v "dirs_added") (← countAt? v "dirs_deleted")
          (← countAt? v "errors")
  | "pass_complete" =>
      return .passFinished (← countAt? v "pass") (← countAt? v "components")
        (← countAt? v "diagnostics") (← failedAt? v "status")
          (← countAt? v "duration_ms")
  | "superseded" => return .superseded (← countAt? v "snapshot_version")
  | "error" => return .error (← textAt? v "message")
  | "shutdown" => some .shutdown
  | _ => none

def ofLine? (line : String) : Option (String × BuildEvent) := do
  let v ← Json.read? line
  return (← textAt? v "command", ← ofKind? v (← textAt? v "event"))

/-! ## One event -/

variable (command : String) (e : BuildEvent)

private theorem isCounted_json : (e.json command).IsCounted := by
  apply Json.isCounted_sortedObject
  cases e <;> simp [fields, Json.isCounted_ofNat, Json.IsCounted]

def told : Json :=
  .object (("event", .text e.kind) :: ("command", .text command) :: e.fields)

private theorem field_json (name : String) :
    (e.json command).field name = (e.told command).field name := by
  apply Json.field_sortedObject
  cases e <;> simp [fields]

private theorem textAt?_json (name : String) :
    textAt? (e.json command) name = textAt? (e.told command) name := by
  simp only [textAt?, field_json]

private theorem ofKind?_json (kind : String) :
    ofKind? (e.json command) kind = ofKind? (e.told command) kind := by
  unfold ofKind?
  simp only [pathAt?, failedAt?, textAt?, flagAt?, countAt?, field_json]

private theorem ofKind?_told : ofKind? (e.told command) e.kind = some e := by
  cases e with
  | passFinished pass components diagnostics hasError duration =>
      cases hasError <;>
        simp [told, kind, fields, ofKind?, failedAt?, textAt?, countAt?,
          Json.field, Json.fields, Json.asText?, Json.ofNat, List.lookup_cons]
  | _ =>
      simp [told, kind, fields, ofKind?, pathAt?, textAt?, flagAt?,
        countAt?, Json.field,
        Json.fields, Json.asText?, Json.asBool?, Json.ofNat, List.lookup_cons]

private theorem read?_jsonLine :
    Json.read? (e.jsonLine command) = some (e.json command) :=
  Json.read?_compact (isCounted_json command e)

private theorem noControl_jsonLine :
    Json.NoControl (e.jsonLine command).toList := by
  rw [jsonLine, Json.compact, String.toList_ofList]
  exact Json.noControl_compact _ (isCounted_json command e)

private theorem ofLine?_jsonLine :
    ofLine? (e.jsonLine command) = some (command, e) := by
  have hcommand : textAt? (e.told command) "command" = some command := rfl
  have hevent : textAt? (e.told command) "event" = some e.kind := rfl
  simp [ofLine?, read?_jsonLine, textAt?_json, hcommand, hevent,
    ofKind?_json, ofKind?_told]

/-! ## The whole output -/

private theorem jsonStream_cons (events : List BuildEvent) :
    (jsonStream command (e :: events)).toList =
      (e.jsonLine command).toList ++ '\n' ::
        (jsonStream command events).toList := by
  simp [jsonStream, String.toList_join]

theorem lines_jsonStream (events : List BuildEvent) :
    Text.lines (jsonStream command events).toList =
      events.map fun e => (e.jsonLine command).toList := by
  induction events with
  | nil => simp [jsonStream, Text.lines, Text.cutLine?]
  | cons e events ih =>
      rw [jsonStream_cons, Text.lines_append (noControl_jsonLine command e), ih,
        List.map_cons]

def ofStream? (output : String) : Option (List (String × BuildEvent)) :=
  (Text.lines output.toList).mapM fun line => ofLine? (String.ofList line)

private theorem ofStream?_jsonStream (events : List BuildEvent) :
    ofStream? (jsonStream command events) =
      some (events.map fun e => (command, e)) := by
  rw [ofStream?, lines_jsonStream]
  induction events with
  | nil => rfl
  | cons e events ih => simp [ofLine?_jsonLine, ih]

private theorem jsonStream_eq_iff {command command' : String}
    {events events' : List BuildEvent} :
    jsonStream command events = jsonStream command' events' ↔
      events = events' ∧ (events = [] ∨ command = command') := by
  constructor
  · intro h
    have hpairs := congrArg ofStream? h
    rw [ofStream?_jsonStream, ofStream?_jsonStream, Option.some.injEq] at hpairs
    have hevents : events = events' := by
      simpa [Function.comp_def] using congrArg (List.map Prod.snd) hpairs
    subst hevents
    cases events with
    | nil => exact ⟨rfl, .inl rfl⟩
    | cons e events =>
        simp only [List.map_cons, List.cons.injEq, Prod.mk.injEq] at hpairs
        exact ⟨rfl, .inr hpairs.1.1⟩
  · rintro ⟨rfl, rfl | rfl⟩ <;> rfl

/-- Each event has one line, which is an object of its fields and of nothing
else, and tells of that event only. -/
theorem one_line_each (command : String) (events : List BuildEvent) :
    Text.lines (jsonStream command events).toList =
        events.map (fun e => (e.jsonLine command).toList) ∧
      (∀ e ∈ events,
        Json.NoControl (e.jsonLine command).toList ∧
        (∃ fields, Json.read? (e.jsonLine command) = some (.object fields) ∧
          fields.Perm (("event", .text e.kind) :: ("command",
            .text command) :: e.fields)) ∧
        ofLine? (e.jsonLine command) = some (command, e)) ∧
      ∀ command' events', jsonStream command events =
        jsonStream command' events' ↔
        events = events' ∧ (events = [] ∨ command = command') := by
  refine ⟨lines_jsonStream command events, fun e _ => ?_,
    fun _ _ => jsonStream_eq_iff⟩
  exact ⟨noControl_jsonLine command e,
    ⟨_, read?_jsonLine command e, List.mergeSort_perm _ _⟩,
    ofLine?_jsonLine command e⟩

end BuildEvent

end ComponentBuild
