import ComponentBuild.Proofs.Path.Parent
import ComponentBuild.Proofs.Path.Resolving
import ComponentBuild.Proofs.Text.Utf8

/-!
# Paths of bytes

The path that the system has for a text has the text's parts, with the bytes of
their names.  It makes no difference whether a path is normalized, resolved or
compared before its names are encoded or afterwards.
-/

namespace ComponentBuild

open Text

namespace PathPart

variable {τ σ ρ : Type} {f : τ → σ}

private theorem map_injective (hf : Function.Injective f) :
    Function.Injective (map f) := by
  intro a b h
  cases a <;> cases b <;> simp_all [map, hf.eq_iff]

end PathPart

namespace Path

variable {τ σ : Type} [DecidableEq τ] [DecidableEq σ] {f : τ → σ}

private theorem map_normalStep (done : List (PathPart τ)) (part : PathPart τ) :
    (normalStep done part).map (PathPart.map f) =
      normalStep (done.map (PathPart.map f)) (part.map f) := by
  have hroot : (done.map (PathPart.map f)).getLast? = some .root ↔
      done.getLast? = some .root := by
    rw [List.getLast?_map, Option.map_eq_some_iff]
    constructor
    · rintro ⟨part, hlast, hpart⟩
      cases part <;> simp_all [PathPart.map]
    · exact fun h => ⟨.root, h, rfl⟩
  cases part with
  | root | here | name => cases done <;> rfl
  | up =>
      cases done with
      | nil => rfl
      | cons last rest =>
          cases last with
          | name text => rfl
          | root | here | up =>
              simp only [normalStep, PathPart.map, List.map_cons] at hroot ⊢
              simp only [hroot]
              split <;> rfl

private theorem map_normalParts (parts : List (PathPart τ)) :
    (normalParts parts).map (PathPart.map f) =
      normalParts (parts.map (PathPart.map f)) := by
  have hfold (done : List (PathPart τ)) :
      (parts.foldl normalStep done).map (PathPart.map f) =
        (parts.map (PathPart.map f)).foldl normalStep
          (done.map (PathPart.map f)) := by
    induction parts generalizing done with
    | nil => rfl
    | cons part parts ih =>
        rw [List.foldl_cons, ih, map_normalStep, List.map_cons, List.foldl_cons]
  rw [normalParts, normalParts, List.map_reverse, hfold []]
  rfl

private theorem map_dropCommon {α β : Type} [DecidableEq α] [DecidableEq β]
    {g : α → β} (hg : Function.Injective g) (as bs : List α) :
    dropCommon (as.map g) (bs.map g) =
      ((dropCommon as bs).1.map g, (dropCommon as bs).2.map g) := by
  fun_induction dropCommon as bs with
  | case1 as b bs ih => simp [dropCommon, ih]
  | case2 a as b bs hne => simp [dropCommon, hg.eq_iff, hne]
  | case3 as bs hne =>
      cases as with
      | nil => simp [dropCommon]
      | cons a as =>
          cases bs with
          | nil => simp [dropCommon]
          | cons b bs => exact absurd rfl (hne a as b bs rfl)

private theorem map_relativeParts (hf : Function.Injective f)
    (source target : List (PathPart τ)) :
    (relativeParts source target).map (PathPart.map f) =
      relativeParts (source.map (PathPart.map f))
        (target.map (PathPart.map f)) := by
  have hdrop := map_dropCommon (PathPart.map_injective hf) source target
  rw [relativeParts, relativeParts, hdrop]
  obtain ⟨above, below⟩ := dropCommon source target
  cases below with
  | nil => simp [PathPart.map]
  | cons part below => cases part <;> simp [PathPart.map]

/-! ## The parts of a text's bytes -/

private theorem splitSlashes_append_front {α : Type} [DecidableEq α] {slash : α}
    {u : List α} (h : slash ∉ u) {v piece : List α} {pieces : List (List α)}
    (hv : splitSlashes slash v = piece :: pieces) :
    splitSlashes slash (u ++ v) = (u ++ piece) :: pieces := by
  induction u with
  | nil => exact hv
  | cons c u ih =>
      rw [List.mem_cons, not_or] at h
      rw [List.cons_append, splitSlashes, if_neg (Ne.symm h.1), ih h.2]
      rfl

private theorem splitSlashes_encode (chars : List Char) :
    splitSlashes 0x2F (chars.flatMap String.utf8EncodeChar) =
      (splitSlashes '/' chars).map fun piece =>
      piece.flatMap String.utf8EncodeChar := by
  induction chars with
  | nil => rfl
  | cons c chars ih =>
      obtain ⟨piece, pieces, hsplit⟩ :=
        List.exists_cons_of_ne_nil (splitSlashes_ne_nil chars)
      rw [hsplit, List.map_cons] at ih
      rw [List.flatMap_cons, splitSlashes]
      by_cases hc : c = '/'
      · have hslash : String.utf8EncodeChar c = [0x2F] := by rw [hc]; decide
        rw [if_pos hc, hslash, List.singleton_append, splitSlashes,
          if_pos rfl, ih, hsplit]
        rfl
      · rw [if_neg hc, splitSlashes_append_front (slash_not_mem_encodeChar hc)
          ih, hsplit]
        rfl

private theorem encode_eq_iff {text : String} (literal : String) :
    encode text = encode literal ↔ text = literal :=
  encode_injective.eq_iff

private theorem piecePart?_encode (segment : String) :
    BytePath.piecePart? (encode segment) =
      (segmentPart? segment).map (PathPart.map encode) := by
  have hblank : encode segment = [] ↔ segment = "" := encode_eq_iff ""
  have hdot : encode segment = [0x2E] ↔ segment = "." := encode_eq_iff "."
  have hdots : encode segment = [0x2E, 0x2E] ↔ segment = ".." :=
    encode_eq_iff ".."
  rw [BytePath.piecePart?, segmentPart?]
  simp only [hblank, hdot, hdots]
  split
  · rfl
  · split <;> rfl

private theorem filterMap_encode (segments : List String) :
    (segments.map encode).filterMap BytePath.piecePart? =
      (segments.filterMap segmentPart?).map (PathPart.map encode) := by
  rw [List.filterMap_map, List.map_filterMap]
  exact List.filterMap_congr fun segment _ => piecePart?_encode segment

private theorem readPieces_encode (segments : List String) :
    BytePath.readPieces (segments.map encode) =
      (readParts segments).map (PathPart.map encode) := by
  cases segments with
  | nil => rfl
  | cons segment rest =>
      have hblank : encode segment = [] ↔ segment = "" := encode_eq_iff ""
      have hdot : encode segment = [0x2E] ↔ segment = "." := encode_eq_iff "."
      rw [List.map_cons, BytePath.readPieces]
      by_cases h₁ : segment = ""
      · cases rest with
        | nil => rw [h₁]; rfl
        | cons second rest =>
            rw [if_pos ⟨hblank.2 h₁, by simp⟩, filterMap_encode, h₁]
            rfl
      rw [if_neg fun h => h₁ (hblank.1 h.1)]
      by_cases h₂ : segment = "."
      · rw [if_pos (hdot.2 h₂), filterMap_encode, h₂]
        rfl
      · rw [if_neg (mt hdot.1 h₂), ← List.map_cons, filterMap_encode,
          readParts_plain h₁ h₂]

theorem parts_bytes (p : Path) :
    p.bytes.parts = p.parts.map (PathPart.map encode) := by
  have hsegments : splitSlashes 0x2F (encode p.text) = p.segments.map encode := by
    rw [encode, splitSlashes_encode, segments, List.map_map]
    simp [encode, Function.comp_def]
  rw [parts_eq_readParts, ← readPieces_encode, ← hsegments]
  rfl

/-! ## Texts and bytes go the same way -/

private theorem isAbsolute_bytes (p : Path) :
    p.bytes.isAbsolute = p.isAbsolute := by
  rw [BytePath.isAbsolute, isAbsolute, parts_bytes, List.head?_map]
  cases p.parts.head? with
  | none => rfl
  | some part => cases part <;> rfl

private theorem normalize_bytes (p : Path) :
    p.normalize.bytes = p.bytes.normalize := by
  refine BytePath.ext ?_
  rw [parts_bytes, parts_normalize, map_normalParts, ← parts_bytes]
  rfl

private theorem filter_here {p : Path} (h : p.isAbsolute = false) :
    p.bytes.parts.filter (fun part => part ≠ .here) =
      (p.segments.filterMap segmentPart?).map (PathPart.map encode) := by
  have hsteps :
      ∀ part ∈ (p.segments.filterMap segmentPart?).map (PathPart.map encode),
      part ≠ .here := by
    intro part hpart
    obtain ⟨step, hmem, rfl⟩ := List.mem_map.1 hpart
    have hstep := isStep_of_mem_segments hmem
    cases step with
    | here => exact hstep.elim
    | root | up | name => simp [PathPart.map]
  have hall :=
    List.filter_eq_self.2 fun part hpart => decide_eq_true (hsteps part hpart)
  rw [parts_bytes]
  rcases parts_of_not_isAbsolute h with hparts | hparts <;> rw [hparts]
  · exact hall
  · rw [List.map_cons, PathPart.map, List.filter_cons_of_neg (by simp)]
    exact hall

private theorem join_bytes (base p : Path) :
    (base.join p).bytes = base.bytes.join p.bytes := by
  refine BytePath.ext ?_
  have hempty : base.bytes.parts = [] ↔ base.isEmpty = true := by
    rw [parts_bytes, List.map_eq_nil_iff, isEmpty_iff]
  change _ = BytePath.joinParts base.bytes p.bytes
  unfold BytePath.joinParts
  simp only [isAbsolute_bytes, hempty]
  cases habsolute : p.isAbsolute with
  | true => rw [join, if_pos habsolute, if_pos (.inl rfl)]
  | false =>
      split
      · rename_i h
        obtain rfl : base = ⟨""⟩ :=
          congrArg Path.mk (String.isEmpty_iff.1 (h.resolve_left (by simp)))
        simp [join, habsolute]
      · rename_i h
        have htext : base.text ≠ "" :=
          fun heq => h (.inr (by simp [isEmpty, heq]))
        rw [parts_bytes, parts_join htext habsolute, List.map_append,
          filter_here habsolute, parts_bytes]

theorem resolve_bytes (base p : Path) :
    (resolve base p).bytes = base.bytes.resolve p.bytes := by
  rw [resolve, BytePath.resolve, isAbsolute_bytes]
  split
  · exact normalize_bytes p
  · rw [normalize_bytes, join_bytes]

private theorem parts_relative (source target : Path) :
    (relative source target).parts =
      relativeParts source.normalize.parts target.normalize.parts := by
  have hreadable :=
    readable_relativeParts source.normalize.parts target.parts_readable
  rw [← parts_normalize] at hreadable
  rw [← parts_ofParts hreadable]
  unfold relative relativeParts
  obtain ⟨above, below⟩ :=
    dropCommon source.normalize.parts target.normalize.parts
  simp only [List.map_const']
  cases below with
  | nil => rfl
  | cons part below =>
      cases part with
      | here | up | name => rfl
      | root =>
          -- A part that is the root takes away what is written before it.
          refine congrArg parts ?_
          rw [ofParts, List.foldl_append]
          rfl

theorem relative_bytes (source target : Path) :
    (relative source target).bytes = source.bytes.relative target.bytes := by
  refine BytePath.ext ?_
  rw [parts_bytes, parts_relative, map_relativeParts encode_injective,
    ← parts_bytes, ← parts_bytes, normalize_bytes, normalize_bytes]
  rfl

end Path

end ComponentBuild
