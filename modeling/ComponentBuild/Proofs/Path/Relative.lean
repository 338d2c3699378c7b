import ComponentBuild.Proofs.Path.Ending
import ComponentBuild.Proofs.Path.Specifier

/-!
# The way to a file and back

The way from one directory to a file leaves the directories that the two do not
share and goes down by the file's own names.  Read in the directory that it
starts in, the way leads to the file again. An import specifier leads there too,
up to the source extension that it leaves out, as long as the names that it is
made of are UTF-8: a specifier is a text, and other bytes do not survive in it.
-/

namespace ComponentBuild

open Text PathPart

namespace Path

/-! ## Going down -/

section

variable {τ : Type} [NameText τ]

/-- The steps that leave `k` directories and go down by `names`. -/
def way (k : Nat) (names : List (PathPart τ)) : List (PathPart τ) :=
  List.replicate k .up ++ names

private theorem isStep_of_mem_way {k : Nat} {names : List (PathPart τ)}
    (h : Descends names) :
    ∀ part ∈ way k names, part.IsStep := by
  intro part hmem
  rcases List.mem_append.1 hmem with hmem | hmem
  · rw [List.eq_of_mem_replicate hmem]
    trivial
  · exact (h part hmem).1

theorem NormalStack.append {names done : List (PathPart τ)}
    (hnames : Descends names) (h : NormalStack done) :
    NormalStack (names ++ done) := by
  induction names with
  | nil => exact h
  | cons part names ih =>
      obtain ⟨hpart, hrest⟩ := List.forall_mem_cons.1 hnames
      cases part with
      | name text => exact .name hpart.1 (ih hrest)
      | root | here | up => cases hpart.2

variable [DecidableEq τ]

private theorem foldl_way (k : Nat) {names : List (PathPart τ)}
    (h : Descends names) :
    (way k names).foldl normalStep [] = names.reverse ++
      List.replicate k .up := by
  have hreverse : Descends names.reverse :=
    fun part hmem => h part (List.mem_reverse.1 hmem)
  have hstack := (NormalStack.append hreverse (.climb k)).foldl_reverse
  simpa [way] using hstack

omit [DecidableEq τ] [NameText τ] in
private theorem climb_unique {names names' : List (PathPart τ)} {k k' : Nat}
    (hnames : ∀ part ∈ names, part.isName = true)
    (hnames' : ∀ part ∈ names', part.isName = true)
    (h : names ++ List.replicate k .up = names' ++ List.replicate k' .up) :
    names = names' ∧ k = k' := by
  have hup (n : Nat) : ∀ part ∈ List.replicate n (up : PathPart τ),
      part.isName = false := by
    intro part hpart
    rw [List.eq_of_mem_replicate hpart]
    rfl
  have hfilter := filter_isName_reverse hnames (hup k)
  rw [h, filter_isName_reverse hnames' (hup k')] at hfilter
  obtain rfl := List.reverse_inj.1 hfilter
  exact ⟨rfl, by simpa using List.append_cancel_left h⟩

theorem normalParts_way {parts dirNames names : List (PathPart τ)}
    (hdir : parts.foldl normalStep [] = dirNames.reverse ++ [.root])
    (hdirNames : Descends dirNames) (hnames : Descends names) (k : Nat) :
    normalParts (parts ++ way k names) =
      .root :: (dirNames.take (dirNames.length - k) ++ names) := by
  obtain ⟨k', names', hbelow, hfree, hrooted⟩ :=
    foldl_normalStep_root (isStep_of_mem_way (k := k) hnames)
      (fun part hpart => (hdirNames part (List.mem_reverse.1 hpart)).2)
  rw [foldl_way k hnames] at hfree
  obtain ⟨rfl, rfl⟩ :=
    climb_unique (fun part hpart => (hnames part (List.mem_reverse.1 hpart)).2)
      hbelow hfree
  rw [normalParts, List.foldl_append, hdir, hrooted, List.drop_reverse]
  simp

end

/-! ## Stems -/

def stem (name : String) : String :=
  String.ofList (dropSourceExtension name.toList)

private theorem exists_extension (text : List Char) :
    ∃ extension ∈ ["", ".tsx", ".ts"],
      text = dropSourceExtension text ++ extension.toList := by
  rw [dropSourceExtension]
  cases htsx : dropEnding? text ".tsx".toList with
  | some front => exact ⟨".tsx", by simp, dropEnding?_eq_some_iff.1 htsx⟩
  | none =>
      cases hts : dropEnding? text ".ts".toList with
      | some front => exact ⟨".ts", by simp, dropEnding?_eq_some_iff.1 hts⟩
      | none => exact ⟨"", by simp, by simp⟩

def IsLead (text : List Char) : Prop :=
  text = [] ∨ ∃ front, text = front ++ ['/']

theorem IsLead.dropSourceExtension_append {lead : List Char} (h : IsLead lead)
    (text : List Char) :
    dropSourceExtension (lead ++ text) = lead ++ dropSourceExtension text := by
  rcases h with rfl | ⟨front, rfl⟩
  · rfl
  · simpa using dropSourceExtension_slash front text

private theorem exists_lead_intercalate (texts : List String) :
    ∃ lead, IsLead lead ∧
      ∀ last : String, ("/".intercalate (texts ++ [last])).toList =
        lead ++ last.toList := by
  induction texts with
  | nil => exact ⟨[], .inl rfl, fun last => by simp⟩
  | cons text texts ih =>
      obtain ⟨lead, hlead, hlast⟩ := ih
      refine ⟨text.toList ++ '/' :: lead, .inr ?_, fun last => ?_⟩
      · rcases hlead with rfl | ⟨front, rfl⟩
        · exact ⟨text.toList, rfl⟩
        · exact ⟨text.toList ++ '/' :: front, by simp⟩
      · rw [List.cons_append, String.intercalate_cons_of_ne_nil (by simp),
          String.toList_append, String.toList_append, hlast]
        simp

/-! ## Steps joined by slashes -/

section

variable {steps : List (PathPart String)}

def joined (steps : List (PathPart String)) : String :=
  "/".intercalate (steps.map PathPart.text)

private theorem filterMap_segmentPart?_text (h : ∀ step ∈ steps, step.IsStep) :
    (steps.map PathPart.text).filterMap segmentPart? = steps := by
  induction steps with
  | nil => rfl
  | cons step steps ih =>
      obtain ⟨hstep, hrest⟩ := List.forall_mem_cons.1 h
      rw [List.map_cons, List.filterMap_cons_some (segmentPart?_text hstep),
        ih hrest]

private theorem segments_joined (hne : steps ≠ [])
    (h : ∀ step ∈ steps, step.IsStep) :
    segments ⟨joined steps⟩ = steps.map PathPart.text := by
  refine segments_intercalate (by simpa using hne) fun segment hsegment => ?_
  obtain ⟨step, hstep, rfl⟩ := List.mem_map.1 hsegment
  exact slash_not_mem_text (h step hstep)

private theorem parts_joined (hne : steps ≠ [])
    (h : ∀ step ∈ steps, step.IsStep) :
    parts ⟨joined steps⟩ = steps := by
  have hsegments := filterMap_segmentPart?_text h
  rw [parts_eq_readParts, segments_joined hne h]
  obtain ⟨step, rest, rfl⟩ := List.exists_cons_of_ne_nil hne
  have hstep := segmentPart?_text (h step List.mem_cons_self)
  rw [List.map_cons] at hsegments ⊢
  rw [readParts_plain _ _ _, hsegments]
  · intro hempty
    simp [hempty, segmentPart?] at hstep
  · intro hdot
    simp [hdot, segmentPart?] at hstep

private theorem parts_joined_here (hne : steps ≠ [])
    (h : ∀ step ∈ steps, step.IsStep) :
    parts ⟨"./" ++ joined steps⟩ = .here :: steps := by
  have hdot : "./" = "." ++ "/" := by decide
  rw [hdot, parts_eq_readParts, segments_append, segments_joined hne h,
    segments_of_not_mem (by decide), List.singleton_append]
  exact congrArg (.here :: ·) (filterMap_segmentPart?_text h)

end

/-! ## Reading a specifier -/

/-- A path that says to go a way, from where it is read. -/
def Goes (p : Path) (k : Nat) (names : List (PathPart String)) : Prop :=
  p.parts = way k names ∨ p.parts = .here :: way k names

theorem Descends.append_stem {names : List (PathPart String)} {name : String}
    (h : Descends (names ++ [.name name])) (hstem : IsName (stem name)) :
    Descends (names ++ [.name (stem name)]) := by
  intro part hmem
  rcases List.mem_append.1 hmem with hmem | hmem
  · exact h part (List.mem_append_left _ hmem)
  · rw [List.mem_singleton.1 hmem]
    exact ⟨hstem, rfl⟩

private theorem goes_dotted {k : Nat} {names : List (PathPart String)}
    {name : String} (hnames : Descends (names ++ [.name name]))
    (hstem : IsName (stem name)) :
    Goes ⟨String.ofList (dotted (dropSourceExtension
      (joined (way k (names ++ [.name name]))).toList))⟩ k
        (names ++ [.name (stem name)]) := by
  have hsteps := isStep_of_mem_way (k := k) (hnames.append_stem hstem)
  have hne : way k (names ++ [.name (stem name)]) ≠ [] := by simp [way]
  have htexts (last : String) :
      (way k (names ++ [.name last])).map PathPart.text =
      (way k names).map PathPart.text ++ [last] := by simp [way, PathPart.text]
  obtain ⟨lead, hlead, hlast⟩ :=
    exists_lead_intercalate ((way k names).map PathPart.text)
  have hmodule :
      dropSourceExtension (joined (way k (names ++ [.name name]))).toList =
      (joined (way k (names ++ [.name (stem name)]))).toList := by
    rw [joined, joined, htexts, htexts, hlast, hlast,
      hlead.dropSourceExtension_append, stem, String.toList_ofList]
  rw [Goes, hmodule, dotted]
  split
  · rw [String.ofList_toList]
    exact .inl (parts_joined hne hsteps)
  · simp only [String.ofList_append, String.ofList_toList]
    exact .inr (parts_joined_here hne hsteps)

end Path

namespace BytePath

open ComponentBuild.Path

/-! ## Ways between paths of bytes -/

private theorem isAbsolute_iff {p : BytePath} :
    p.isAbsolute = true ↔ p.parts.head? = some .root :=
  beq_iff_eq

private theorem parts_normalize {p : BytePath} {names : List (PathPart Bytes)}
    (h : p.parts.foldl normalStep [] = names.reverse ++ [.root]) :
    p.normalize.parts = .root :: names := by
  change (p.parts.foldl normalStep []).reverse = _
  rw [h]
  simp

theorem parts_resolve {dir p : BytePath}
    {dirNames names : List (PathPart Bytes)} {k : Nat}
    (hdir : dir.parts.foldl normalStep [] = dirNames.reverse ++ [.root])
    (hdirNames : Descends dirNames) (hnames : Descends names)
    (hp : p.parts = way k names ∨ p.parts = .here :: way k names) :
    (resolve dir p).parts = .root ::
      (dirNames.take (dirNames.length - k) ++ names) := by
  have hsteps : ∀ part ∈ way k names, part.IsStep := isStep_of_mem_way hnames
  have hrelative : p.isAbsolute = false := by
    rw [Bool.eq_false_iff, ne_eq, isAbsolute_iff]
    intro hroot
    rcases hp with hp | hp <;> rw [hp] at hroot
    · exact hsteps .root (List.mem_of_mem_head? hroot)
    · cases hroot
  have hne : dir.parts ≠ [] := by
    intro hempty
    rw [hempty] at hdir
    simp at hdir
  have hfilter : p.parts.filter (fun part => part ≠ .here) = way k names := by
    have hhere : ∀ part ∈ way k names, part ≠ .here := by
      rintro part hpart rfl
      exact hsteps .here hpart
    have hall :=
      List.filter_eq_self.2 fun part hpart => decide_eq_true (hhere part hpart)
    rcases hp with hp | hp <;> rw [hp]
    · exact hall
    · rw [List.filter_cons_of_neg (by simp)]
      exact hall
  have hjoin : (dir.join p).parts = dir.parts ++ way k names := by
    change joinParts dir p = _
    unfold joinParts
    rw [if_neg (by simp [hrelative, hne]), hfilter]
  rw [resolve, if_neg (by simp [hrelative])]
  change normalParts (dir.join p).parts = _
  rw [hjoin, normalParts_way hdir hdirNames hnames]

private theorem exists_way {dir file : BytePath} (hdir : dir.isAbsolute = true)
    (hfile : file.isAbsolute = true) :
    ∃ common above below, dir.parts.foldl normalStep [] =
      (common ++ above).reverse ++ [.root] ∧
      Descends (common ++ above) ∧ Descends (common ++ below) ∧
      file.normalize.parts = .root :: (common ++ below) ∧
      (relative dir file).parts = way above.length below := by
  obtain ⟨dirNames, hdirStack, hdirNames⟩ :=
    exists_names dir.readable (isAbsolute_iff.1 hdir)
  obtain ⟨fileNames, hfileStack, hfileNames⟩ :=
    exists_names file.readable (isAbsolute_iff.1 hfile)
  obtain ⟨common, habove, hbelow⟩ := exists_common dirNames fileNames
  have hdrop : dropCommon (.root :: dirNames) (.root :: fileNames) =
      dropCommon dirNames fileNames := by rw [dropCommon, if_pos rfl]
  have hway : (relative dir file).parts =
      relativeParts (.root :: dirNames) (.root :: fileNames) := by
    rw [← parts_normalize hdirStack, ← parts_normalize hfileStack]
    rfl
  rw [relativeParts, hdrop] at hway
  generalize dropCommon dirNames fileNames = rest at habove hbelow hway
  obtain ⟨above, below⟩ := rest
  subst habove hbelow
  refine ⟨common, above, below, hdirStack, hdirNames, hfileNames,
    parts_normalize hfileStack, ?_⟩
  rw [hway]
  cases below with
  | nil => rfl
  | cons part rest =>
      have hname : part.isName = true := (hfileNames part (by simp)).2
      cases part with
      | name text => rfl
      | root | here | up => cases hname

/-! ## Names that are texts -/

private theorem isName_decodeLossy {name : Bytes} (h : NameText.IsName name) :
    PathPart.IsName (decodeLossy name) := by
  obtain ⟨hblank, hdot, hdots, hslash⟩ := h
  have hread (literal : String) (hascii : IsAscii literal.toList)
      (heq : decodeLossy name = literal) : name = encode literal :=
    eq_encode_of_decodeLossy hascii heq
  exact ⟨fun heq => hblank (hread "" (by decide) heq),
    fun heq => hdot (hread "." (by decide) heq),
    fun heq => hdots (hread ".." (by decide) heq),
    fun hmem => hslash (slash_mem_of_decodeLossy hmem)⟩

def sourceStem (name : Bytes) : Bytes :=
  (dropEnding? name (encode ".tsx") <|> dropEnding? name (encode ".ts")).getD name

private theorem exists_byte_extension (name : Bytes) :
    ∃ extension ∈ ["", ".tsx", ".ts"],
      name = sourceStem name ++ encode extension := by
  rw [sourceStem]
  cases htsx : dropEnding? name (encode ".tsx") with
  | some front => exact ⟨".tsx", by simp, dropEnding?_eq_some_iff.1 htsx⟩
  | none =>
      cases hts : dropEnding? name (encode ".ts") with
      | some front => exact ⟨".ts", by simp, dropEnding?_eq_some_iff.1 hts⟩
      | none => exact ⟨"", by simp, by simp [encode]⟩

private theorem isUtf8_of_sourceStem {name : Bytes}
    (h : IsUtf8 (sourceStem name)) : IsUtf8 name := by
  obtain ⟨extension, -, hname⟩ := exists_byte_extension name
  obtain ⟨text, htext⟩ := isUtf8_iff.1 h
  exact isUtf8_iff.2 ⟨text ++ extension, by rw [encode_append, htext, ← hname]⟩

private theorem dropEnding?_encode (text : String) {ending : String}
    (h : IsAscii ending.toList) :
    dropEnding? (encode text) (encode ending) =
      (dropEnding? text.toList ending.toList).map fun front =>
      encode (String.ofList front) := by
  ext front
  rw [dropEnding?_eq_some_iff, Option.map_eq_some_iff]
  constructor
  · intro hsplit
    have htext : text = decodeLossy front ++ ending := by
      rw [← decodeLossy_append h, ← hsplit, decodeLossy_encode]
    refine ⟨(decodeLossy front).toList, dropEnding?_eq_some_iff.2 ?_, ?_⟩
    · rw [← String.toList_append, ← htext]
    · rw [String.ofList_toList]
      rw [htext, encode_append] at hsplit
      exact List.append_cancel_right hsplit
  · rintro ⟨chars, hchars, rfl⟩
    have htext : text = String.ofList chars ++ ending := by
      rw [← String.toList_inj, dropEnding?_eq_some_iff.1 hchars,
        String.toList_append, String.toList_ofList]
    rw [htext, encode_append]

private theorem sourceStem_encode (text : String) :
    sourceStem (encode text) = encode (stem text) := by
  rw [sourceStem, stem, dropSourceExtension, dropEnding?_encode text (by decide),
    dropEnding?_encode text (by decide)]
  cases dropEnding? text.toList ".tsx".toList with
  | some front => rfl
  | none =>
      cases dropEnding? text.toList ".ts".toList with
      | some front => rfl
      | none => simp

private theorem isName_stem {name : Bytes} (hname : NameText.IsName name)
    (h : sourceStem name ∉ [[], [0x2E], [0x2E, 0x2E]]) :
    PathPart.IsName (stem (decodeLossy name)) := by
  obtain ⟨extension, hextension, htext⟩ :=
    exists_extension (decodeLossy name).toList
  -- A stem in the ASCII range is read off a whole name in that range, which is
  -- then a text.
  have hother (literal : String) (hliteral : literal ∈ ["", ".", ".."])
      (hstem : stem (decodeLossy name) = literal) : False := by
    have hwhole : decodeLossy name = literal ++ extension := by
      rw [← String.toList_inj, htext, String.toList_append, ← hstem, stem,
        String.toList_ofList]
    have hascii : IsAscii (literal ++ extension).toList := by
      simp only [List.mem_cons, List.not_mem_nil, or_false] at hliteral hextension
      rcases hliteral with rfl | rfl | rfl <;> rcases hextension with rfl |
        rfl | rfl <;> decide
    have hbytes := eq_encode_of_decodeLossy hascii hwhole
    rw [← hwhole] at hbytes
    rw [hbytes, sourceStem_encode, hstem] at h
    simp only [List.mem_cons, List.not_mem_nil, or_false] at hliteral
    rcases hliteral with rfl | rfl | rfl <;> exact h (by decide)
  refine ⟨hother "" (by simp), hother "." (by simp), hother ".." (by simp),
    fun hslash => ?_⟩
  refine (isName_decodeLossy hname).2.2.2 ?_
  rw [htext]
  rw [stem, String.toList_ofList] at hslash
  exact List.mem_append_left _ hslash

/-! ## The way leads back -/

def withoutSourceExtension (parts : List (PathPart Bytes)) :
    List (PathPart Bytes) :=
  match parts.getLast? with
  | some (.name last) => parts.dropLast ++ [.name (sourceStem last)]
  | _ => parts

private theorem withoutSourceExtension_concat (front : List (PathPart Bytes))
    (last : Bytes) :
    withoutSourceExtension (front ++ [.name last]) =
      front ++ [.name (sourceStem last)] := by
  rw [withoutSourceExtension, List.getLast?_concat]
  exact congrArg (· ++ _) List.dropLast_concat

section

variable {σ τ : Type} {f : σ → τ}

private theorem name_mem_way {k : Nat} {names : List (PathPart σ)} {text : σ} :
    .name text ∈ way k names ↔ .name text ∈ names := by
  simp [way]

private theorem map_way (k : Nat) (names : List (PathPart σ)) :
    (way k names).map (PathPart.map f) = way k (names.map (PathPart.map f)) := by
  simp [way, PathPart.map]

private theorem descends_map [NameText σ] [NameText τ]
    (hf : ∀ name, NameText.IsName name → NameText.IsName (f name))
    {names : List (PathPart σ)} (h : Descends names) :
    Descends (names.map (PathPart.map f)) := by
  intro part hpart
  obtain ⟨part, hmem, rfl⟩ := List.mem_map.1 hpart
  obtain ⟨hstep, hname⟩ := h part hmem
  cases part with
  | name text => exact ⟨hf text hstep, rfl⟩
  | root | here | up => cases hname

end

private theorem isName_encode {text : String} (h : PathPart.IsName text) :
    NameText.IsName (encode text) := by
  obtain ⟨hblank, hdot, hdots, hslash⟩ := h
  have hne {literal : String} (h : text ≠ literal) :
      encode text ≠ encode literal :=
    fun heq => h (encode_injective heq)
  refine ⟨hne hblank, hne hdot, hne hdots, fun hmem => ?_⟩
  obtain ⟨c, hc, hbyte⟩ := List.mem_flatMap.1 hmem
  exact slash_not_mem_encodeChar (fun heq => hslash (heq ▸ hc)) hbyte

private theorem slashed_of_way {p : BytePath} {k : Nat}
    {names : List (PathPart Bytes)} (hp : p.parts = way k names)
    (hnames : Descends names) :
    p.slashed = joined (way k (names.map (PathPart.map decodeLossy))) := by
  have htexts : (way k names).map partText =
      (way k (names.map (PathPart.map decodeLossy))).map PathPart.text := by
    rw [← map_way, List.map_map]
    rfl
  unfold slashed
  split
  · rename_i rest hroot
    exact (isStep_of_mem_way (k := k) hnames .root (by simp [← hp, hroot])).elim
  · rw [hp, htexts, joined]

private theorem map_encode_eq_iff {names : List (PathPart Bytes)}
    (h : Descends names) :
    (names.map (PathPart.map decodeLossy)).map (PathPart.map encode) = names ↔
      ∀ name, .name name ∈ names → IsUtf8 name := by
  have hid : names.map id = names := List.map_id names
  rw [List.map_map]
  nth_rewrite 2 [← hid]
  rw [List.map_inj_left]
  constructor
  · intro hall name hname
    exact PathPart.name.inj (hall _ hname)
  · intro hall part hpart
    cases part with
    | name text => exact congrArg PathPart.name (hall text hpart)
    | root | here | up => cases (h _ hpart).2

private theorem encode_stem_eq_iff {name : Bytes} :
    encode (stem (decodeLossy name)) = sourceStem name ↔ IsUtf8 name := by
  constructor
  · intro h
    exact isUtf8_of_sourceStem (isUtf8_iff.2 ⟨_, h⟩)
  · intro h
    rw [← sourceStem_encode, show encode (decodeLossy name) = name from h]

theorem parts_specifier {dir file : BytePath} {k : Nat}
    {names : List (PathPart Bytes)} {last : Bytes}
    (hway : (relative dir file).parts = way k (names ++ [.name last]))
    (hnames : Descends (names ++ [.name last]))
    (hstem : PathPart.IsName (stem (decodeLossy last))) :
    ∃ read, Descends read ∧
      (read = names ++ [.name (sourceStem last)] ↔
        ∀ name, .name name ∈ names ++ [.name last] → IsUtf8 name) ∧
      ((Path.mk (importSpecifier dir file)).bytes.parts = way k read ∨
        (Path.mk (importSpecifier dir file)).bytes.parts =
          .here :: way k read) := by
  have hshown :=
    descends_map (f := decodeLossy) (fun _ => isName_decodeLossy) hnames
  rw [List.map_append, List.map_singleton] at hshown
  have hstemmed := hshown.append_stem hstem
  have hfront : Descends names :=
    fun part hpart => hnames part (List.mem_append_left _ hpart)
  refine ⟨_, descends_map (f := encode) (fun _ => isName_encode) hstemmed, ?_, ?_⟩
  · rw [List.map_append, List.map_singleton, List.append_singleton_inj,
      map_encode_eq_iff hfront,
      PathPart.map, PathPart.name.injEq, encode_stem_eq_iff]
    simp only [List.mem_append, List.mem_singleton, PathPart.name.injEq]
    constructor
    · rintro ⟨hall, hend⟩ name (hname | rfl)
      · exact hall name hname
      · exact hend
    · intro hall
      exact ⟨fun name hname => hall name (.inl hname), hall last (.inr rfl)⟩
  · have hgoes := goes_dotted (k := k) hshown hstem
    have hslashed := slashed_of_way hway hnames
    rw [List.map_append, List.map_singleton] at hslashed
    rw [importSpecifier_bytes, hslashed, parts_bytes, ← map_way]
    rcases hgoes with hgoes | hgoes
    · exact .inl (congrArg _ hgoes)
    · exact .inr (congrArg (List.map (PathPart.map encode)) hgoes)

/-- Read in the directory that it starts in, the way to a file leads to the
file.  An import specifier leads to the file without its extension exactly if
all names on the way are UTF-8, unless the file is the directory itself or above
it, or nothing that is a name is left of the file's own name. -/
theorem way_leads_back {dir file : BytePath} (hdir : dir.isAbsolute = true)
    (hfile : file.isAbsolute = true) :
    resolve dir (relative dir file) = file.normalize ∧
      (¬ file.normalize.parts <+: dir.normalize.parts →
        (∀ name, file.normalize.parts.getLast? = some (.name name) →
          sourceStem name ∉ [[], [0x2E], [0x2E, 0x2E]]) →
        ((resolve dir (Path.mk (importSpecifier dir file)).bytes).parts =
            withoutSourceExtension file.normalize.parts ↔
          ∀ name, .name name ∈ (relative dir file).parts → IsUtf8 name)) := by
  obtain ⟨common, above, below, hstack, hdirNames, hfileNames,
      hfileParts, hway⟩ :=
    exists_way hdir hfile
  have hdescends : Descends below := fun part hpart =>
    hfileNames part (List.mem_append_right _ hpart)
  have hleft :
      (common ++ above).take ((common ++ above).length - above.length) =
        common := by simp
  constructor
  · refine BytePath.ext ?_
    rw [parts_resolve hstack hdirNames hdescends (.inl hway), hfileParts, hleft]
  · intro houtside hstem
    rcases List.eq_nil_or_concat below with rfl | ⟨names, last, rfl⟩
    · -- Nothing is left to go down by, so the file is the directory or above it.
      rw [parts_normalize hstack, hfileParts] at houtside
      exact absurd (by simp) houtside
    · rw [List.concat_eq_append] at hdescends hway hfileParts
      obtain ⟨hlast, hname⟩ := hdescends last (by simp)
      cases last with
      | root | here | up => cases hname
      | name last =>
          have hend :
              file.normalize.parts = (.root :: (common ++ names)) ++
                [.name last] := by
            rw [hfileParts]
            simp
          have hvalid :=
            isName_stem hlast (hstem last (by rw [hend, List.getLast?_concat]))
          obtain ⟨read, hread, hiff, hspecifier⟩ :=
            parts_specifier hway hdescends hvalid
          rw [parts_resolve hstack hdirNames hread hspecifier, hleft, hend,
            withoutSourceExtension_concat, List.cons_append, List.cons_inj_right,
            List.append_assoc, List.append_cancel_left_eq, hiff, hway]
          simp only [name_mem_way]

theorem way_leads_back_shared :
    let dir := ofBytes (encode "/proj/" ++ 0xFF :: encode "/dist/types")
    let file :=
      ofBytes (encode "/proj/" ++ 0xFF :: encode "/src/../shared/list.types.tsx")
    dir.isAbsolute = true ∧ file.isAbsolute = true ∧
      ¬ file.normalize.parts <+: dir.normalize.parts ∧
      file.normalize.parts.getLast? = some (.name (encode "list.types.tsx")) ∧
      importSpecifier dir file = "../../shared/list.types" ∧
      resolve dir (relative dir file) = file.normalize ∧
      (resolve dir (Path.mk (importSpecifier dir file)).bytes).parts =
        withoutSourceExtension file.normalize.parts := by
  intro dir file
  have hdir : dir.isAbsolute = true := by decide +kernel
  have hfile : file.isAbsolute = true := by decide +kernel
  have houtside : ¬ file.normalize.parts <+: dir.normalize.parts := by
    decide +kernel
  have hname :
      file.normalize.parts.getLast? = some (.name (encode "list.types.tsx")) := by
    decide +kernel
  have hway : (relative dir file).parts =
      [.up, .up, .name (encode "shared"), .name (encode "list.types.tsx")] := by
        decide +kernel
  have hback := way_leads_back hdir hfile
  refine ⟨hdir, hfile, houtside, hname, by decide +kernel, hback.1,
    (hback.2 houtside fun last hlast => ?_).2 fun name hmem => ?_⟩
  · rw [hname, Option.some.injEq, PathPart.name.injEq] at hlast
    rw [← hlast]
    decide +kernel
  · rw [hway] at hmem
    simp only [List.mem_cons, PathPart.name.injEq, reduceCtorEq,
      List.not_mem_nil, or_false, false_or] at hmem
    rcases hmem with rfl | rfl <;> exact isUtf8_encode _

/-- A byte that begins no character is replaced in the specifier, which then
leads to another file. -/
theorem stray_byte_lost :
    let dir := ofBytes (encode "/a")
    let file := ofBytes (encode "/a/" ++ 0xFF :: encode ".ts")
    dir.isAbsolute = true ∧ file.isAbsolute = true ∧
      ¬ file.normalize.parts <+: dir.normalize.parts ∧
      file.normalize.parts.getLast? = some (.name (0xFF :: encode ".ts")) ∧
      sourceStem (0xFF :: encode ".ts") = [0xFF] ∧
      importSpecifier dir file = "./\uFFFD" ∧
      (resolve dir (Path.mk (importSpecifier dir file)).bytes).parts =
        [.root, .name (encode "a"), .name (encode "\uFFFD")] ∧
      withoutSourceExtension file.normalize.parts = [.root, .name (encode "a"),
        .name [0xFF]] ∧
      (resolve dir (Path.mk (importSpecifier dir file)).bytes).parts ≠
        withoutSourceExtension file.normalize.parts := by
  decide +kernel

end BytePath

end ComponentBuild
