import ComponentBuild.Text.Utf8
import Mathlib.Algebra.Group.Nat.Defs
import Mathlib.Data.List.Basic

/-!
# Texts as bytes

A text is read back from its bytes.  Of other bytes at least those in the ASCII
range keep their meaning: each of them is read as its character, whatever stands
around it, and nothing else is.
-/

namespace ComponentBuild.Text

/-! ## Reading the bytes of a text -/

private theorem decodeFrom_cons (state : Option Opening) (b : UInt8)
    (rest : Bytes) :
    decodeFrom state (b :: rest) =
      (decodeStep state b.toNat).1 ++
        decodeFrom (decodeStep state b.toNat).2 rest := by
  cases state <;> rfl

private theorem decodeFrom_ofNat (state : Option Opening) {b : Nat} (h : b < 256)
    (rest : Bytes) :
    decodeFrom state (UInt8.ofNat b :: rest) =
      (decodeStep state b).1 ++ decodeFrom (decodeStep state b).2 rest := by
  have hbyte : (UInt8.ofNat b).toNat = b := by
    rw [UInt8.toNat_ofNat']
    omega
  rw [decodeFrom_cons, hbyte]

private theorem begin_ascii {b : Nat} (h : b < 0x80) :
    decodeStep none b = ([Char.ofNat b], none) :=
  if_pos h

private theorem begin_two {n : Nat} (hlow : 2 ≤ n) (hhigh : n < 0x20) :
    decodeStep none (n + 0xC0) = ([], some ⟨n, 0, 0x80, 0xBF⟩) := by
  rw [decodeStep, begin, if_neg (by omega), opening?, if_neg (by omega),
    if_pos (by omega), Nat.add_sub_cancel]

private theorem begin_three {n : Nat} (h : n < 0x10) :
    decodeStep none (n + 0xE0) =
      ([], some ⟨n, 1, if n = 0 then 0xA0 else 0x80, if n = 13 then 0x9F
        else 0xBF⟩) := by
  rw [decodeStep, begin, if_neg (by omega), opening?, if_neg (by omega),
    if_neg (by omega), if_pos (by omega), Nat.add_sub_cancel]
  simp

private theorem begin_four {n : Nat} (h : n < 5) :
    decodeStep none (n + 0xF0) =
      ([], some ⟨n, 2, if n = 0 then 0x90 else 0x80, if n = 4 then 0x8F
        else 0xBF⟩) := by
  rw [decodeStep, begin, if_neg (by omega), opening?, if_neg (by omega),
    if_neg (by omega), if_neg (by omega), if_pos (by omega), Nat.add_sub_cancel]
  simp

private theorem next_last {bits least most n : Nat} (hleast : least ≤ n + 0x80)
    (hmost : n + 0x80 ≤ most) :
    decodeStep (some ⟨bits, 0, least, most⟩) (n + 0x80) =
      ([Char.ofNat (bits * 64 + n)], none) := by
  rw [decodeStep, if_pos ⟨hleast, hmost⟩, Opening.next, Nat.add_sub_cancel]

private theorem next_more {bits missing least most n : Nat}
    (hleast : least ≤ n + 0x80) (hmost : n + 0x80 ≤ most) :
    decodeStep (some ⟨bits, missing + 1, least, most⟩) (n + 0x80) =
      ([], some ⟨bits * 64 + n, missing, 0x80, 0xBF⟩) := by
  rw [decodeStep, if_pos ⟨hleast, hmost⟩, Opening.next, Nat.add_sub_cancel]

private theorem decodeFrom_encodeChar (c : Char) (rest : Bytes) :
    decodeFrom none (String.utf8EncodeChar c ++ rest) =
      c :: decodeFrom none rest := by
  have hvalid :
      c.val.toNat < 0xd800 ∨ 0xdfff < c.val.toNat ∧ c.val.toNat < 0x110000 :=
        c.valid
  have hchar : Char.ofNat c.val.toNat = c := Char.ofNat_toNat c
  unfold String.utf8EncodeChar
  simp only
  generalize c.val.toNat = v at hvalid hchar
  split
  · rename_i hone
    rw [List.singleton_append, decodeFrom_ofNat none (by omega),
      begin_ascii (by omega), hchar]
    rfl
  split
  · rename_i hone htwo
    have hbits : v / 64 % 0x20 * 64 + v % 0x40 = v := by omega
    simp only [List.cons_append, List.nil_append]
    rw [decodeFrom_ofNat none (by omega), begin_two (by omega) (by omega),
      decodeFrom_ofNat _ (by omega), next_last (by omega) (by omega), hbits,
      hchar]
    rfl
  split
  · rename_i hone htwo hthree
    have hbits :
        (v / 4096 % 0x10 * 64 + v / 64 % 0x40) * 64 + v % 0x40 = v := by omega
    simp only [List.cons_append, List.nil_append]
    rw [decodeFrom_ofNat none (by omega), begin_three (by omega),
      decodeFrom_ofNat _ (by omega),
      next_more (by split <;> omega) (by split <;> omega),
      decodeFrom_ofNat _ (by omega),
      next_last (by omega) (by omega), hbits, hchar]
    rfl
  · rename_i hone htwo hthree
    have hbits :
        ((v / 262144 % 0x08 * 64 + v / 4096 % 0x40) * 64 + v / 64 % 0x40) * 64 +
        v % 0x40 = v := by omega
    simp only [List.cons_append, List.nil_append]
    rw [decodeFrom_ofNat none (by omega), begin_four (by omega),
      decodeFrom_ofNat _ (by omega),
      next_more (by split <;> omega) (by split <;> omega),
      decodeFrom_ofNat _ (by omega),
      next_more (by omega) (by omega), decodeFrom_ofNat _ (by omega),
      next_last (by omega) (by omega), hbits, hchar]
    rfl

@[simp] theorem decodeLossy_encode (text : String) :
    decodeLossy (encode text) = text := by
  have hchars (chars : List Char) :
      decodeFrom none (chars.flatMap String.utf8EncodeChar) = chars := by
    induction chars with
    | nil => rfl
    | cons c chars ih => rw [List.flatMap_cons, decodeFrom_encodeChar, ih]
  rw [decodeLossy, encode, hchars, String.ofList_toList]

theorem encode_injective : Function.Injective encode :=
  Function.LeftInverse.injective decodeLossy_encode

theorem isUtf8_iff {bytes : Bytes} :
    IsUtf8 bytes ↔ ∃ text, encode text = bytes := by
  constructor
  · exact fun h => ⟨_, h⟩
  · rintro ⟨text, rfl⟩
    rw [IsUtf8, decodeLossy_encode]

theorem isUtf8_encode (text : String) : IsUtf8 (encode text) :=
  isUtf8_iff.2 ⟨text, rfl⟩

theorem encode_append (u v : String) :
    encode (u ++ v) = encode u ++ encode v := by
  simp [encode]

/-! ## Bytes in the ASCII range -/

def Opening.High (o : Opening) : Prop :=
  0x80 ≤ o.least ∧ 0x80 ≤ (o.bits * 64 + (o.least - 0x80)) * 64 ^ o.missing

private theorem high_of_opening? {b : Nat} {o : Opening}
    (h : opening? b = some o) : o.High := by
  unfold opening? at h
  split at h
  · exact absurd h (by simp)
  split at h
  · rw [← Option.some.inj h, Opening.High]
    dsimp only
    omega
  split at h
  · rw [← Option.some.inj h, Opening.High]
    dsimp only
    split <;> omega
  split at h
  · rw [← Option.some.inj h, Opening.High]
    dsimp only
    split <;> omega
  · exact absurd h (by simp)

private theorem toNat_ofNat_cases (n : Nat) :
    (Char.ofNat n).toNat = n ∨ (Char.ofNat n).toNat = 0 := by
  by_cases hvalid : n.isValidChar
  · have hchar : Char.ofNat n = Char.ofNatAux n hvalid := dif_pos hvalid
    rw [hchar]
    exact .inl rfl
  · have hzero : Char.ofNat n = _ := dif_neg hvalid
    rw [hzero]
    exact .inr rfl

/-- The characters that a byte can give: its own one, NUL and those above the
ASCII range. -/
private def Given (b : Nat) (c : Char) : Prop :=
  c.toNat = b ∨ c.toNat = 0 ∨ 0x80 ≤ c.toNat

private theorem begin_spec (b : Nat) :
    (∀ c ∈ (begin b).1, Given b c) ∧ ∀ o ∈ (begin b).2, o.High := by
  unfold begin
  split
  · refine ⟨fun c hc => ?_, by simp⟩
    rw [List.mem_singleton.1 hc]
    exact (toNat_ofNat_cases b).imp_right .inl
  · split
    · rename_i o hopen
      refine ⟨by simp, fun o' ho => ?_⟩
      rw [← Option.some.inj ho]
      exact high_of_opening? hopen
    · refine ⟨fun c hc => ?_, by simp⟩
      rw [List.mem_singleton.1 hc]
      exact .inr (.inr (by decide))

private theorem next_spec {o : Opening} (ho : o.High) {b : Nat}
    (hb : o.least ≤ b) :
    (∀ c ∈ (o.next b).1, Given b c) ∧ ∀ o' ∈ (o.next b).2, o'.High := by
  obtain ⟨bits, missing, least, most⟩ := o
  obtain ⟨hleast, hbits⟩ := ho
  dsimp only at hleast hbits hb
  have hgrow : (bits * 64 + (least - 0x80)) * 64 ^ missing ≤
      (bits * 64 + (b - 0x80)) * 64 ^ missing :=
    Nat.mul_le_mul_right _ (by omega)
  cases missing with
  | zero =>
      refine ⟨fun c hc => ?_, by simp [Opening.next]⟩
      rw [List.mem_singleton.1 hc]
      dsimp only
      rcases toNat_ofNat_cases (bits * 64 + (b - 0x80)) with h | h
      · exact .inr (.inr (by omega))
      · exact .inr (.inl h)
  | succ missing =>
      refine ⟨by simp [Opening.next], fun o' ho => ?_⟩
      rw [← Option.some.inj ho, Opening.High]
      dsimp only
      rw [Nat.sub_self, Nat.add_zero, Nat.mul_assoc, ← Nat.pow_succ']
      exact ⟨Nat.le_refl _, Nat.le_trans hbits hgrow⟩

private theorem decodeStep_spec {state : Option Opening}
    (h : ∀ o ∈ state, o.High) (b : Nat) :
    (∀ c ∈ (decodeStep state b).1, Given b c) ∧ ∀ o ∈ (decodeStep state b).2,
      o.High := by
  cases state with
  | none => exact begin_spec b
  | some o =>
      unfold decodeStep
      dsimp only
      split
      · rename_i hrange
        exact next_spec (h o rfl) hrange.1
      · obtain ⟨hchars, hstate⟩ := begin_spec b
        refine ⟨List.forall_mem_cons.2 ⟨.inr (.inr (by decide)), hchars⟩, hstate⟩

private theorem decodeStep_ascii {state : Option Opening}
    (h : ∀ o ∈ state, o.High) {b : Nat} (hb : b < 0x80) :
    decodeStep state b = (decodeFrom state [] ++ [Char.ofNat b], none) := by
  have hbegin : begin b = ([Char.ofNat b], none) := if_pos hb
  cases state with
  | none => exact hbegin
  | some o =>
      have hbelow : ¬(o.least ≤ b ∧ b ≤ o.most) := fun hrange => by
        have := (h o rfl).1
        omega
      rw [decodeStep, if_neg hbelow, hbegin]
      rfl

private theorem decodeFrom_ascii {state : Option Opening}
    (h : ∀ o ∈ state, o.High) {b : UInt8} (hb : b.toNat < 0x80) (u v : Bytes) :
    decodeFrom state (u ++ b :: v) =
      decodeFrom state u ++ Char.ofNat b.toNat :: decodeFrom none v := by
  induction u generalizing state with
  | nil =>
      rw [List.nil_append, decodeFrom_cons, decodeStep_ascii h hb,
        List.append_assoc]; rfl
  | cons a u ih =>
      rw [List.cons_append, decodeFrom_cons, decodeFrom_cons,
        ih (decodeStep_spec h a.toNat).2, List.append_assoc]

private theorem exists_byte {state : Option Opening} (h : ∀ o ∈ state, o.High)
    {bytes : Bytes} {c : Char} (hc : c ∈ decodeFrom state bytes)
    (hlow : c.toNat < 0x80) (hnul : c.toNat ≠ 0) :
    ∃ b ∈ bytes, b.toNat = c.toNat := by
  induction bytes generalizing state with
  | nil =>
      cases state with
      | none => cases hc
      | some o =>
          rw [List.mem_singleton.1 hc] at hlow
          exact absurd hlow (by decide)
  | cons a bytes ih =>
      obtain ⟨hchars, hstate⟩ := decodeStep_spec h a.toNat
      rw [decodeFrom_cons, List.mem_append] at hc
      rcases hc with hc | hc
      · rcases hchars c hc with hown | hzero | hhigh
        · exact ⟨a, List.mem_cons_self, hown.symm⟩
        · exact absurd hzero hnul
        · omega
      · obtain ⟨b, hb, hbyte⟩ := ih hstate hc
        exact ⟨b, List.mem_cons_of_mem _ hb, hbyte⟩

private theorem decodeStep_ne (state : Option Opening) (b : Nat) :
    decodeStep state b ≠ ([], none) := by
  have hbegin : begin b ≠ ([], none) := by
    unfold begin
    split
    · simp
    · split <;> simp
  cases state with
  | none => exact hbegin
  | some o =>
      unfold decodeStep Opening.next
      dsimp only
      split
      · split <;> simp
      · simp

private theorem decodeFrom_eq_nil {state : Option Opening} {bytes : Bytes}
    (h : decodeFrom state bytes = []) : state = none ∧ bytes = [] := by
  induction bytes generalizing state with
  | nil =>
      cases state with
      | none => exact ⟨rfl, rfl⟩
      | some o => cases h
  | cons b bytes ih =>
      rw [decodeFrom_cons, List.append_eq_nil_iff] at h
      exact absurd (Prod.ext h.1 (ih h.2).1) (decodeStep_ne state b.toNat)

/-! ## Texts in the ASCII range -/

/-- Characters that are their own bytes, except for NUL. -/
def IsAscii (text : List Char) : Prop :=
  ∀ c ∈ text, c.toNat < 0x80 ∧ c.toNat ≠ 0

instance (text : List Char) : Decidable (IsAscii text) :=
  List.decidableBAll (fun c : Char => c.toNat < 0x80 ∧ c.toNat ≠ 0) text

private theorem encodeChar_ascii {c : Char} {b : UInt8} (h : b.toNat = c.toNat)
    (hlow : c.toNat < 0x80) : String.utf8EncodeChar c = [b] := by
  have hone : c.val.toNat ≤ 0x7f := by
    change c.toNat ≤ 0x7f
    omega
  have hchar : String.utf8EncodeChar c = [UInt8.ofNat c.toNat] := by
    unfold String.utf8EncodeChar
    exact if_pos hone
  rw [hchar, ← h, UInt8.ofNat_toNat]

private theorem ofNat_byte {c : Char} {b : UInt8} (h : b.toNat = c.toNat) :
    Char.ofNat b.toNat = c := by
  rw [h, Char.ofNat_toNat]

/-- Bytes that are read as a text in the ASCII range are the bytes of that text.
-/
theorem eq_encode_of_decodeLossy {text : String} (h : IsAscii text.toList)
    {bytes : Bytes} (hread : decodeLossy bytes = text) :
    bytes = encode text := by
  obtain ⟨chars, rfl⟩ : ∃ chars, text = String.ofList chars :=
    ⟨_, text.ofList_toList.symm⟩
  rw [String.toList_ofList] at h
  rw [decodeLossy, String.ofList_inj] at hread
  rw [encode, String.toList_ofList]
  induction chars generalizing bytes with
  | nil => exact (decodeFrom_eq_nil hread).2
  | cons c chars ih =>
      obtain ⟨⟨hlow, hnul⟩, hrest⟩ := List.forall_mem_cons.1 h
      have hstart : ∀ o ∈ (none : Option Opening), o.High := by simp
      have hmem : c ∈ decodeFrom none bytes := by simp [hread]
      obtain ⟨b, hb, hbyte⟩ := exists_byte hstart hmem hlow hnul
      -- Nothing stands before the first such byte, since it would be read first.
      obtain ⟨u, v, rfl, hu⟩ := List.eq_append_cons_of_mem hb
      rw [decodeFrom_ascii hstart (by omega), ofNat_byte hbyte] at hread
      cases hfront : decodeFrom none u with
      | nil =>
          obtain ⟨-, rfl⟩ := decodeFrom_eq_nil hfront
          rw [hfront, List.nil_append, List.cons_eq_cons] at hread
          rw [List.flatMap_cons, encodeChar_ascii hbyte hlow, ih hrest hread.2]
          rfl
      | cons d front =>
          rw [hfront, List.cons_append, List.cons_eq_cons] at hread
          have hmem : c ∈ decodeFrom none u := by simp [hfront, hread.1]
          obtain ⟨b', hb', hbyte'⟩ := exists_byte hstart hmem hlow hnul
          rw [UInt8.toNat_inj.1 (hbyte'.trans hbyte.symm)] at hb'
          exact absurd hb' hu

theorem decodeLossy_append {text : String} (h : IsAscii text.toList)
    (bytes : Bytes) :
    decodeLossy (bytes ++ encode text) = decodeLossy bytes ++ text := by
  have hstart : ∀ o ∈ (none : Option Opening), o.High := by simp
  have htext : decodeFrom none (encode text) = text.toList := by
    rw [← String.toList_inj.2 (decodeLossy_encode text), decodeLossy,
      String.toList_ofList]
  rw [← String.toList_inj, String.toList_append, decodeLossy, decodeLossy,
    String.toList_ofList, String.toList_ofList]
  unfold encode at htext ⊢
  cases hchars : text.toList with
  | nil => simp
  | cons c chars =>
      rw [hchars] at h htext
      obtain ⟨hlow, -⟩ := h c List.mem_cons_self
      have hbyte : (UInt8.ofNat c.toNat).toNat = c.toNat := by
        rw [UInt8.toNat_ofNat']
        omega
      rw [List.flatMap_cons, encodeChar_ascii hbyte hlow,
        List.singleton_append] at htext ⊢
      have hrest :=
        decodeFrom_ascii hstart (by omega : (UInt8.ofNat c.toNat).toNat < 0x80) []
        (chars.flatMap String.utf8EncodeChar)
      rw [List.nil_append, htext, ofNat_byte hbyte] at hrest
      rw [decodeFrom_ascii hstart (by omega), ofNat_byte hbyte, hrest]
      rfl

/-! ## Slashes -/

theorem slash_mem_of_decodeLossy {bytes : Bytes}
    (h : '/' ∈ (decodeLossy bytes).toList) :
    0x2F ∈ bytes := by
  rw [decodeLossy, String.toList_ofList] at h
  obtain ⟨b, hb, hbyte⟩ := exists_byte (by simp) h (by decide) (by decide)
  have hslash : b = 0x2F := UInt8.toNat_inj.1 hbyte
  rwa [← hslash]

theorem slash_not_mem_encodeChar {c : Char} (h : c ≠ '/') :
    0x2F ∉ String.utf8EncodeChar c := by
  intro hmem
  obtain ⟨u, v, hsplit⟩ := List.append_of_mem hmem
  have hstart : ∀ o ∈ (none : Option Opening), o.High := by simp
  have hread := decodeFrom_encodeChar c []
  rw [List.append_nil, hsplit, decodeFrom_ascii hstart (by decide)] at hread
  cases hfront : decodeFrom none u with
  | nil =>
      rw [hfront, List.nil_append, List.cons_eq_cons] at hread
      exact h hread.1.symm
  | cons d front =>
      rw [hfront, List.cons_append, List.cons_eq_cons] at hread
      simp [decodeFrom] at hread

end ComponentBuild.Text
