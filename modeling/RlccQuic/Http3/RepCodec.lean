/-
  RlccQuic.Http3.RepCodec — the bytes of a field section (`qpack/xqc_rep.c`).

  A section is a prefix, with the required insert count modulo twice the number of entries
  a table may have and the base relative to it, and one representation for each line.

  Proved: the required insert count is found again if the decoder's insert count is less than that number of entries away
  (`reconstructRic_round`); the base and every representation are read back as they were written (`base_round`, `rep_round`).
-/

import RlccQuic.Http3.Encoder
import RlccQuic.Http3.Prefixed

namespace RlccQuic.Http3.RepCodec

open Lib Prefixed
open Encode (Rep)

/-! ## The prefix -/

inductive PrefixCtx where
  | ricnt (p : PInt)
  | baseSign (ric : Nat)
  | base (ric : Nat) (sign : Bool) (p : PInt)
  deriving DecidableEq, Repr

def xqcRepReconstructRic (maxEnts insertCnt enc : Nat) : Option Nat :=
  if enc = 0 then some 0
  else if enc > 2 * maxEnts then none
  else
    let maxValue := insertCnt + maxEnts
    let ric := maxValue / (2 * maxEnts) * (2 * maxEnts) + enc - 1
    if ric > maxValue then
      if ric < 2 * maxEnts ∨ ric - 2 * maxEnts = 0 then none else some (ric - 2 * maxEnts)
    else if ric = 0 then none
    else some ric

def baseOf (ric : Nat) (sign : Bool) (delta : Nat) : Nat :=
  if sign then (ric + 2 ^ 64 - delta - 1) % 2 ^ 64 else (ric + delta) % 2 ^ 64

def baseByte (ric : Nat) (sign : Bool) (p : PInt) (b : UInt8) : Option (PrefixCtx ⊕ (Nat × Nat)) :=
  (intByte p b).map (Sum.elim (fun p => .inl (.base ric sign p)) fun delta => .inr (ric, baseOf ric sign delta))

def prefixByte (maxEnts icnt : Nat) : PrefixCtx → UInt8 → Option (PrefixCtx ⊕ (Nat × Nat))
  | .ricnt p, b =>
    match intByte p b with
    | none => none
    | some (.inl p) => some (.inl (.ricnt p))
    | some (.inr enc) => (xqcRepReconstructRic maxEnts icnt enc).map fun ric => .inl (.baseSign ric)
  | .baseSign ric, b => baseByte ric (b.toNat / 128 = 1) (xqcPrefixedIntInit 7) b
  | .base ric sign p, b => baseByte ric sign p b

def PrefixCtx.known : PrefixCtx → Option Nat
  | .ricnt _ => none
  | .baseSign ric | .base ric _ _ => some ric

lemma known_step {p : PrefixCtx} {ric : Nat} (h : p.known = some ric) (b : UInt8) :
    ∃ sign q, ∀ m c, prefixByte m c p b = baseByte ric sign q b := by
  cases p with
  | ricnt p => cases h
  | baseSign r | base r sign p => cases h; exact ⟨_, _, fun _ _ => rfl⟩

lemma feed_known (m c : Nat) {ric : Nat} (data : List UInt8) : ∀ {p : PrefixCtx}, p.known = some ric →
    (∀ m' c', feed (prefixByte m' c') p data = feed (prefixByte m c) p data) ∧
      ∀ p' rest, feed (prefixByte m c) p data = some (.inl p', rest) → p'.known = some ric := by
  induction data with
  | nil =>
    intro p h
    refine ⟨fun _ _ => rfl, fun p' rest hfeed => ?_⟩
    cases hfeed; exact h
  | cons b bs ih =>
    intro p h
    obtain ⟨sign, q, hstep⟩ := known_step h b
    simp only [feed, hstep, baseByte]
    cases intByte q b with
    | none => exact ⟨fun _ _ => rfl, fun _ _ hfeed => by cases hfeed⟩
    | some r =>
      cases r with
      | inl q' => exact ih rfl
      | inr delta => exact ⟨fun _ _ => rfl, fun _ _ hfeed => by cases hfeed⟩

def xqcRepEncodeRicnt (maxEnts ric : Nat) : Nat := if ric = 0 then 0 else ric % (2 * maxEnts) + 1

def writeBase (ric base : Nat) : List UInt8 :=
  if base ≥ ric then xqcPrefixedIntPut 0 (base - ric) 7 else xqcPrefixedIntPut 0x80 (ric - 1 - base) 7

def xqcRepWritePrefix (maxEnts ric base : Nat) : List UInt8 :=
  xqcPrefixedIntPut 0 (xqcRepEncodeRicnt maxEnts ric) 8 ++ writeBase ric base

/-- The decoder's count is near enough to tell the required insert count. -/
def Near (maxEnts ric icnt : Nat) : Prop := ric = 0 ∨ ric ≤ icnt + maxEnts ∧ icnt < ric + maxEnts

theorem reconstructRic_round {maxEnts ric icnt : Nat} (h : Near maxEnts ric icnt) :
    xqcRepReconstructRic maxEnts icnt (xqcRepEncodeRicnt maxEnts ric) = some ric := by
  unfold xqcRepEncodeRicnt; split
  · rename_i hzero; rw [hzero]; rfl
  rename_i hric
  obtain ⟨hhi, hlo⟩ := h.resolve_left hric
  have hpos : 0 < 2 * maxEnts := by omega
  generalize hF : 2 * maxEnts = full at hpos
  have hmod := Nat.mod_lt ric hpos
  have hr := Nat.div_add_mod' ric full
  -- the quotients are equal or one apart
  have hq : (icnt + maxEnts) / full = ric / full ∨ (icnt + maxEnts) / full = ric / full + 1 := by
    have h1 : ric / full ≤ (icnt + maxEnts) / full := Nat.div_le_div_right hhi
    have h2 : (icnt + maxEnts) / full ≤ (ric + full) / full := Nat.div_le_div_right (by omega)
    rw [Nat.add_div_right _ hpos] at h2; omega
  unfold xqcRepReconstructRic
  dsimp only; rw [hF, if_neg (by omega), if_neg (by omega)]
  rcases hq with hq | hq
  · rw [hq, ← Nat.add_assoc, Nat.add_sub_cancel, hr, if_neg (by omega), if_neg (by omega)]
  · rw [hq, Nat.add_mul, Nat.one_mul, show ric / full * full + full + (ric % full + 1) - 1 = ric + full by omega,
      if_pos (by omega), if_neg (by omega), Nat.add_sub_cancel]

theorem base_round (maxEnts icnt : Nat) {ric base : Nat} (hric : ric < 2 ^ 64) (hbase : base ≤ intMax)
    (hdelta : ric ≤ base + intMax) :
    feed (prefixByte maxEnts icnt) (.baseSign ric) (writeBase ric base) = some (.inr (ric, base), []) := by
  have hmax : intMax < 2 ^ 64 := by decide
  -- the first byte has the sign
  have hread : ∀ (sign : Bool) {delta : Nat}, delta ≤ intMax →
      feed (prefixByte maxEnts icnt) (.baseSign ric) (xqcPrefixedIntPut (sign.toNat * 0x80) delta 7) =
        some (.inr (ric, baseOf ric sign delta), []) := by
    intro sign delta hd
    have hflags : sign.toNat * 0x80 < 256 := by cases sign <;> decide
    have hfirst : ∀ b : UInt8, prefixByte maxEnts icnt (.baseSign ric) b =
        prefixByte maxEnts icnt (.base ric (b.toNat / 128 = 1) (xqcPrefixedIntInit 7)) b := fun _ => rfl
    refine int_first hfirst (.base ric sign) (fun delta => .inr (ric, baseOf ric sign delta)) (fun _ _ => rfl) hflags
      (by decide) hd ?_
    intro b hb
    have hsign : decide (b.toNat / 128 = 1) = sign := by
      cases sign <;> simp at hb ⊢ <;> omega
    rw [hsign]
  unfold writeBase; split
  · rename_i hge
    refine (hread false (by omega : base - ric ≤ intMax)).trans ?_
    rw [baseOf, if_neg (by simp), show ric + (base - ric) = base by omega, Nat.mod_eq_of_lt (by omega)]
  · rename_i hlt
    refine (hread true (by omega : ric - 1 - base ≤ intMax)).trans ?_
    rw [baseOf, if_pos rfl, show ric + 2 ^ 64 - (ric - 1 - base) - 1 = base + 2 ^ 64 by omega, Nat.add_mod_right,
      Nat.mod_eq_of_lt (by omega)]

/-! ## Representations -/

inductive LineCtx (H : Huffman) where
  | opcode
  | index (stable : Bool) (p : PInt)
  | pbIndex (p : PInt)
  | refIndex (never stable : Bool) (p : PInt)
  | refValue (never stable : Bool) (idx : Nat) (v : PStr H)
  | pbRefIndex (never : Bool) (p : PInt)
  | pbRefValue (never : Bool) (idx : Nat) (v : PStr H)
  | name (never : Bool) (n : PStr H)
  | value (never : Bool) (name : List UInt8) (v : PStr H)

variable {H : Huffman}

def xqcRepType (H : Huffman) (b : UInt8) : LineCtx H :=
  if b.toNat / 128 = 1 then .index (b.toNat / 64 % 2 = 1) (xqcPrefixedIntInit 6)
  else if b.toNat / 64 = 1 then .refIndex (b.toNat / 32 % 2 = 1) (b.toNat / 16 % 2 = 1) (xqcPrefixedIntInit 4)
  else if b.toNat / 32 = 1 then .name (b.toNat / 16 % 2 = 1) (xqcPrefixedStrInit H 3)
  else if b.toNat / 16 = 1 then .pbIndex (xqcPrefixedIntInit 4)
  else .pbRefIndex (b.toNat / 8 % 2 = 1) (xqcPrefixedIntInit 3)

def lineByte : LineCtx H → UInt8 → Option (LineCtx H ⊕ Rep)
  | .opcode, _ => none
  | .index stable p, b =>
    (intByte p b).map (Sum.elim (fun p => .inl (.index stable p)) fun idx => .inr (.indexed stable idx))
  | .pbIndex p, b => (intByte p b).map (Sum.elim (fun p => .inl (.pbIndex p)) fun idx => .inr (.indexedPb idx))
  | .refIndex never stable p, b =>
    (intByte p b).map
      (Sum.elim (fun p => .inl (.refIndex never stable p)) fun idx => .inl (.refValue never stable idx (xqcPrefixedStrInit H 7)))
  | .refValue never stable idx v, b =>
    (strByte v b).map
      (Sum.elim (fun v => .inl (.refValue never stable idx v)) fun value => .inr (.nameRef never stable idx value))
  | .pbRefIndex never p, b =>
    (intByte p b).map
      (Sum.elim (fun p => .inl (.pbRefIndex never p)) fun idx => .inl (.pbRefValue never idx (xqcPrefixedStrInit H 7)))
  | .pbRefValue never idx v, b =>
    (strByte v b).map
      (Sum.elim (fun v => .inl (.pbRefValue never idx v)) fun value => .inr (.nameRefPb never idx value))
  | .name never n, b =>
    (strByte n b).map
      (Sum.elim (fun n => .inl (.name never n)) fun name => .inl (.value never name (xqcPrefixedStrInit H 7)))
  | .value never name v, b =>
    (strByte v b).map
      (Sum.elim (fun v => .inl (.value never name v)) fun value => .inr (.literal never name value))

def fieldLineByte (ctx : LineCtx H) (b : UInt8) : Option (LineCtx H ⊕ Rep) :=
  match ctx with
  | .opcode => lineByte (xqcRepType H b) b
  | ctx => lineByte ctx b

def xqcRepWriteIndexed (stable : Bool) (idx : Nat) : List UInt8 := xqcPrefixedIntPut (0x80 + stable.toNat * 0x40) idx 6

def xqcRepWriteIndexedPb (idx : Nat) : List UInt8 := xqcPrefixedIntPut 0x10 idx 4

def xqcRepWriteLiteralWithNameRef (H : Huffman) (never stable : Bool) (idx : Nat) (value : List UInt8) : List UInt8 :=
  xqcPrefixedIntPut (0x40 + never.toNat * 0x20 + stable.toNat * 0x10) idx 4 ++ xqcWritePrefixedStr H 0 value 7

def xqcRepWriteLiteralWithPbNameRef (H : Huffman) (never : Bool) (idx : Nat) (value : List UInt8) : List UInt8 :=
  xqcPrefixedIntPut (never.toNat * 0x08) idx 3 ++ xqcWritePrefixedStr H 0 value 7

def xqcRepWriteLiteralNameValue (H : Huffman) (never : Bool) (name value : List UInt8) : List UInt8 :=
  xqcWritePrefixedStr H (0x20 + never.toNat * 0x10) name 3 ++ xqcWritePrefixedStr H 0 value 7

def writeRep (H : Huffman) : Rep → List UInt8
  | .indexed stable idx => xqcRepWriteIndexed stable idx
  | .indexedPb idx => xqcRepWriteIndexedPb idx
  | .nameRef never stable idx value => xqcRepWriteLiteralWithNameRef H never stable idx value
  | .nameRefPb never idx value => xqcRepWriteLiteralWithPbNameRef H never idx value
  | .literal never name value => xqcRepWriteLiteralNameValue H never name value

def RepFits : Rep → Prop
  | .indexed _ idx | .indexedPb idx => idx ≤ intMax
  | .nameRef _ _ idx value | .nameRefPb _ idx value => idx ≤ intMax ∧ value.length ≤ intMax
  | .literal _ name value => name.length ≤ intMax ∧ value.length ≤ intMax

lemma line_first (b : UInt8) : fieldLineByte (H := H) .opcode b = fieldLineByte (xqcRepType H b) b := by
  show lineByte (xqcRepType H b) b = _
  unfold xqcRepType; split
  · rfl
  split
  · rfl
  split
  · rfl
  split <;> rfl

theorem rep_round (hinv : H.Inverts) {r : Rep} (hfits : RepFits r) :
    feed (fieldLineByte (H := H)) .opcode (writeRep H r) = some (.inr r, []) := by
  cases r with
  | indexed stable idx =>
    have hflags : 0x80 + stable.toNat * 0x40 < 256 := by cases stable <;> decide
    refine int_first line_first (.index stable) (fun idx => .inr (.indexed stable idx)) (fun _ _ => rfl) hflags (by decide)
      hfits ?_
    intro b hb
    have hflag : b.toNat / 64 = 2 + stable.toNat := by
      cases stable <;> exact hb
    unfold xqcRepType
    rw [if_pos (by cases stable <;> simp at hflag <;> omega), hflag]
    cases stable <;> rfl
  | indexedPb idx =>
    refine int_first line_first .pbIndex (fun idx => .inr (.indexedPb idx)) (fun _ _ => rfl) (by decide) (by decide) hfits ?_
    intro b hb; unfold xqcRepType
    rw [if_neg (by omega), if_neg (by omega), if_neg (by omega), if_pos (by omega)]
  | nameRef never stable idx value =>
    have hflags : 0x40 + never.toNat * 0x20 + stable.toNat * 0x10 < 256 := by cases never <;> cases stable <;> decide
    have htype : ∀ b : UInt8, b.toNat / 2 ^ 4 = (0x40 + never.toNat * 0x20 + stable.toNat * 0x10) / 2 ^ 4 →
        xqcRepType H b = .refIndex never stable (xqcPrefixedIntInit 4) := by
      intro b hb
      have hflag : b.toNat / 16 = 4 + never.toNat * 2 + stable.toNat := by
        cases never <;> cases stable <;> exact hb
      have hn : decide (b.toNat / 32 % 2 = 1) = never := by
        cases never <;> cases stable <;> simp at hflag ⊢ <;> omega
      have hs : decide (b.toNat / 16 % 2 = 1) = stable := by
        cases never <;> cases stable <;> simp at hflag ⊢ <;> omega
      unfold xqcRepType; rw [if_neg, if_pos, hn, hs]
      · cases never <;> cases stable <;> simp at hflag <;> omega
      · cases never <;> cases stable <;> simp at hflag <;> omega
    show feed _ _ (xqcPrefixedIntPut _ idx 4 ++ xqcWritePrefixedStr H 0 value 7) = _
    rw [feed_append, int_first line_first (.refIndex never stable)
      (fun idx => .inl (.refValue never stable idx (xqcPrefixedStrInit H 7))) (fun _ _ => rfl) hflags (by decide) hfits.1 htype]
    exact str_inside fieldLineByte (.refValue never stable idx) (fun value => .inr (.nameRef never stable idx value))
      (fun _ _ => rfl) hinv (by decide) (by decide) hfits.2
  | nameRefPb never idx value =>
    have hflags : never.toNat * 0x08 < 256 := by cases never <;> decide
    have htype : ∀ b : UInt8, b.toNat / 2 ^ 3 = never.toNat * 0x08 / 2 ^ 3 →
        xqcRepType H b = .pbRefIndex never (xqcPrefixedIntInit 3) := by
      intro b hb
      have hflag : b.toNat / 8 = never.toNat := by
        cases never <;> exact hb
      have hn : decide (b.toNat / 8 % 2 = 1) = never := by
        rw [hflag]
        cases never <;> rfl
      have hlt := Bool.toNat_lt never
      unfold xqcRepType
      rw [if_neg (by omega), if_neg (by omega), if_neg (by omega), if_neg (by omega), hn]
    show feed _ _ (xqcPrefixedIntPut _ idx 3 ++ xqcWritePrefixedStr H 0 value 7) = _
    rw [feed_append, int_first line_first (.pbRefIndex never) (fun idx => .inl (.pbRefValue never idx (xqcPrefixedStrInit H 7)))
      (fun _ _ => rfl) hflags (by decide) hfits.1 htype]
    exact str_inside fieldLineByte (.pbRefValue never idx) (fun value => .inr (.nameRefPb never idx value))
      (fun _ _ => rfl) hinv (by decide) (by decide) hfits.2
  | literal never name value =>
    have hflags : 0x20 + never.toNat * 0x10 < 256 := by cases never <;> decide
    have htype : ∀ b : UInt8, b.toNat / 2 ^ 4 = (0x20 + never.toNat * 0x10) / 2 ^ 4 →
        xqcRepType H b = .name never (xqcPrefixedStrInit H 3) := by
      intro b hb
      have hflag : b.toNat / 16 = 2 + never.toNat := by
        cases never <;> exact hb
      have hn : decide (b.toNat / 16 % 2 = 1) = never := by
        rw [hflag]
        cases never <;> rfl
      have hlt := Bool.toNat_lt never
      unfold xqcRepType; rw [if_neg (by omega), if_neg (by omega), if_pos (by omega), hn]
    show feed _ _ (xqcWritePrefixedStr H _ name 3 ++ xqcWritePrefixedStr H 0 value 7) = _
    rw [feed_append, str_first line_first (.name never) (fun name => .inl (.value never name (xqcPrefixedStrInit H 7)))
      (fun _ _ => rfl) hinv hflags (by decide) hfits.1 htype]
    exact str_inside fieldLineByte (.value never name) (fun value => .inr (.literal never name value))
      (fun _ _ => rfl) hinv (by decide) (by decide) hfits.2

end RlccQuic.Http3.RepCodec
