import ComponentBuild.Path.Basic

/-!
Normal paths, and the ways between them.

The names that the system gives to files need not be UTF-8, so the way from one
path to another is found on paths whose names are bytes.  Such a path is known
by its parts, and two with the same parts are the same path.  An import
specifier is a text: what is not UTF-8 in the way is replaced there.
-/

namespace ComponentBuild

open Text

namespace Path

def normalize (p : Path) : Path :=
  ofParts (normalParts p.parts)

/-- The normal path that `p` names when it is read in the directory `base`. -/
def resolve (base p : Path) : Path :=
  if p.isAbsolute then p.normalize else (base.join p).normalize

def relative (source target : Path) : Path :=
  let (above, below) := dropCommon source.normalize.parts target.normalize.parts
  ofParts (above.map (fun _ => .up) ++ below)

end Path

/-! ## Paths of bytes -/

@[ext] structure BytePath where
  parts : List (PathPart Bytes)
  readable : Path.Readable parts
  deriving DecidableEq

namespace BytePath

open ComponentBuild.Path

def piecePart? (piece : Bytes) : Option (PathPart Bytes) :=
  if piece = [] ∨ piece = [0x2E] then none
  else if piece = [0x2E, 0x2E] then some .up
  else some (.name piece)

def readPieces : List Bytes → List (PathPart Bytes)
  | [] => []
  | piece :: rest =>
      if piece = [] ∧ rest ≠ [] then .root :: rest.filterMap piecePart?
      else if piece = [0x2E] then .here :: rest.filterMap piecePart?
      else (piece :: rest).filterMap piecePart?

private theorem isStep_of_piecePart? {piece : Bytes} {part : PathPart Bytes}
    (hslash : 0x2F ∉ piece) (h : piecePart? piece = some part) :
    part.IsStep := by
  unfold piecePart? at h
  split at h
  · cases h
  · rename_i hplain
    rw [not_or] at hplain
    split at h
    · cases h
      trivial
    · rename_i hup
      cases h
      exact ⟨hplain.1, hplain.2, hup, hslash⟩

private theorem readable_readPieces {pieces : List Bytes}
    (h : ∀ piece ∈ pieces, 0x2F ∉ piece) :
    Readable (readPieces pieces) := by
  have hsteps {rest : List Bytes} (hrest : ∀ piece ∈ rest, piece ∈ pieces) :
      ∀ step ∈ rest.filterMap piecePart?, step.IsStep := by
    intro step hstep
    obtain ⟨piece, hpiece, hpart⟩ := List.mem_filterMap.1 hstep
    exact isStep_of_piecePart? (h piece (hrest piece hpiece)) hpart
  cases pieces with
  | nil => exact ⟨[], [], rfl, .inl rfl, by simp⟩
  | cons piece rest =>
      simp only [readPieces]
      split
      · exact ⟨[.root], _, rfl, by simp, hsteps fun _ => List.mem_cons_of_mem _⟩
      split
      · exact ⟨[.here], _, rfl, by simp, hsteps fun _ => List.mem_cons_of_mem _⟩
      · exact ⟨[], _, rfl, .inl rfl, hsteps fun _ => id⟩

def ofBytes (bytes : Bytes) : BytePath where
  parts := readPieces (splitSlashes 0x2F bytes)
  readable := readable_readPieces fun _ => slash_not_mem_piece

def isAbsolute (p : BytePath) : Bool :=
  p.parts.head? == some .root

/-- The steps of `p` behind `base`; an absolute path replaces `base`, and a
leading `.` counts only where nothing stands before it. -/
def joinParts (base p : BytePath) : List (PathPart Bytes) :=
  if p.isAbsolute ∨ base.parts = [] then p.parts
  else base.parts ++ p.parts.filter fun part => part ≠ .here

private theorem readable_joinParts (base p : BytePath) :
    Readable (joinParts base p) := by
  unfold joinParts
  split
  · exact p.readable
  · rename_i h
    obtain ⟨lead, steps, hparts, hlead, hsteps⟩ := p.readable
    obtain ⟨baseLead, baseSteps, hbase, hbaseLead, hbaseSteps⟩ := base.readable
    refine ⟨baseLead, baseSteps ++ p.parts.filter fun part => part ≠ .here, ?_,
      hbaseLead, ?_⟩
    · rw [hbase, List.append_assoc]
    · intro step hstep
      rcases List.mem_append.1 hstep with hstep | hstep
      · exact hbaseSteps step hstep
      · rw [List.mem_filter, hparts, List.mem_append] at hstep
        rcases hstep with ⟨hmem | hmem, hhere⟩
        · rcases hlead with rfl | rfl | rfl
          · cases hmem
          · exact absurd (.inl (by simp [isAbsolute, hparts])) h
          · simp_all
        · exact hsteps step hmem

def join (base p : BytePath) : BytePath where
  parts := joinParts base p
  readable := readable_joinParts base p

def normalize (p : BytePath) : BytePath where
  parts := normalParts p.parts
  readable := normalParts_readable p.readable

def resolve (base p : BytePath) : BytePath :=
  if p.isAbsolute then p.normalize else (base.join p).normalize

def relative (source target : BytePath) : BytePath where
  parts := relativeParts source.normalize.parts target.normalize.parts
  readable := readable_relativeParts _ target.readable

def partText (part : PathPart Bytes) : String :=
  (part.map decodeLossy).text

def slashed (p : BytePath) : String :=
  match p.parts with
  | .root :: rest => "/" ++ "/".intercalate (rest.map partText)
  | parts => "/".intercalate (parts.map partText)

end BytePath

/-! ## Import specifiers -/

namespace Path

def dropEnding? {α : Type} [DecidableEq α] (text ending : List α) :
    Option (List α) :=
  if ending.reverse.isPrefixOf text.reverse then
    some (text.take (text.length - ending.length))
  else
    none

def dropSourceExtension (specifier : List Char) : List Char :=
  (dropEnding? specifier ".tsx".toList <|>
    dropEnding? specifier ".ts".toList).getD specifier

end Path

/-- The module specifier by which a module in the directory `dir` imports
`file`.  It starts with `../` or `./` and has no source file extension. -/
def BytePath.importSpecifier (dir file : BytePath) : String :=
  let way := (relative dir file).slashed.toList
  let specifier := if "../".toList.isPrefixOf way then way else "./".toList ++ way
  String.ofList (Path.dropSourceExtension specifier)

namespace Path

def bytes (p : Path) : BytePath :=
  .ofBytes (encode p.text)

def slashed (p : Path) : String :=
  p.bytes.slashed

def importSpecifier (dir file : Path) : String :=
  BytePath.importSpecifier dir.bytes file.bytes

end Path

end ComponentBuild
