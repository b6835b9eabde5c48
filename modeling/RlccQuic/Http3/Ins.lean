/-
  RlccQuic.Http3.Ins — the instructions of the encoder and the decoder stream (`qpack/xqc_ins.c`).

  Proved: an instruction whose numbers and lengths fit in 62 bits is read back as it was
  written, byte by byte (`encIns_round`, `decIns_round`).
-/

import RlccQuic.Http3.Encoder
import RlccQuic.Http3.Prefixed

namespace RlccQuic.Http3.Ins

open Lib Prefixed
open Encode (EncIns)

/-! ## The encoder stream -/

/-- `xqc_ins_enc_ctx_t`: where in which instruction the parser is. -/
inductive EncCtx (H : Huffman) where
  | opcode
  | capacity (p : PInt)
  | nameIndex (stable : Bool) (p : PInt)
  | refValue (stable : Bool) (idx : Nat) (v : PStr H)
  | name (n : PStr H)
  | value (name : List UInt8) (v : PStr H)
  | dup (p : PInt)

variable {H : Huffman}

def xqcInsEncType (H : Huffman) (b : UInt8) : EncCtx H :=
  if b.toNat / 128 = 1 then .nameIndex (b.toNat / 64 % 2 = 1) (xqcPrefixedIntInit 6)
  else if b.toNat / 64 = 1 then .name (xqcPrefixedStrInit H 5)
  else if b.toNat / 32 = 1 then .capacity (xqcPrefixedIntInit 5)
  else .dup (xqcPrefixedIntInit 5)

def insByte : EncCtx H → UInt8 → Option (EncCtx H ⊕ EncIns)
  | .opcode, _ => none
  | .capacity p, b => (intByte p b).map (Sum.elim (fun p => .inl (.capacity p)) fun n => .inr (.setCap n))
  | .nameIndex stable p, b =>
    (intByte p b).map
      (Sum.elim (fun p => .inl (.nameIndex stable p)) fun idx => .inl (.refValue stable idx (xqcPrefixedStrInit H 7)))
  | .refValue stable idx v, b =>
    (strByte v b).map
      (Sum.elim (fun v => .inl (.refValue stable idx v)) fun value => .inr (.insertNameRef stable idx value))
  | .name n, b =>
    (strByte n b).map (Sum.elim (fun n => .inl (.name n)) fun name => .inl (.value name (xqcPrefixedStrInit H 7)))
  | .value name v, b =>
    (strByte v b).map (Sum.elim (fun v => .inl (.value name v)) fun value => .inr (.insertLiteral name value))
  | .dup p, b => (intByte p b).map (Sum.elim (fun p => .inl (.dup p)) fun idx => .inr (.duplicate idx))

def encoderByte (ctx : EncCtx H) (b : UInt8) : Option (EncCtx H ⊕ EncIns) :=
  match ctx with
  | .opcode => insByte (xqcInsEncType H b) b
  | ctx => insByte ctx b

def xqcInsWriteSetDtableCap (capacity : Nat) : List UInt8 := xqcPrefixedIntPut 0x20 capacity 5

def xqcInsWriteInsertNameRef (H : Huffman) (stable : Bool) (idx : Nat) (value : List UInt8) : List UInt8 :=
  xqcPrefixedIntPut (0x80 + stable.toNat * 0x40) idx 6 ++ xqcWritePrefixedStr H 0 value 7

def xqcInsWriteInsertLiteralName (H : Huffman) (name value : List UInt8) : List UInt8 :=
  xqcWritePrefixedStr H 0x40 name 5 ++ xqcWritePrefixedStr H 0 value 7

def xqcInsWriteDup (idx : Nat) : List UInt8 := xqcPrefixedIntPut 0 idx 5

def writeEncIns (H : Huffman) : EncIns → List UInt8
  | .setCap capacity => xqcInsWriteSetDtableCap capacity
  | .insertNameRef stable idx value => xqcInsWriteInsertNameRef H stable idx value
  | .insertLiteral name value => xqcInsWriteInsertLiteralName H name value
  | .duplicate idx => xqcInsWriteDup idx

def EncFits : EncIns → Prop
  | .setCap n | .duplicate n => n ≤ intMax
  | .insertNameRef _ idx value => idx ≤ intMax ∧ value.length ≤ intMax
  | .insertLiteral name value => name.length ≤ intMax ∧ value.length ≤ intMax

lemma encoder_first (b : UInt8) : encoderByte (H := H) .opcode b = encoderByte (xqcInsEncType H b) b := by
  show insByte (xqcInsEncType H b) b = _
  unfold xqcInsEncType; split
  · rfl
  split
  · rfl
  split <;> rfl

theorem encIns_round (hinv : H.Inverts) {i : EncIns} (hfits : EncFits i) :
    feed (encoderByte (H := H)) .opcode (writeEncIns H i) = some (.inr i, []) := by
  cases i with
  | setCap capacity =>
    refine int_first encoder_first .capacity (fun n => .inr (.setCap n)) (fun _ _ => rfl) (by decide) (by decide) hfits ?_
    intro b hb; unfold xqcInsEncType
    rw [if_neg (by omega), if_neg (by omega), if_pos (by omega)]
  | insertNameRef stable idx value =>
    have hflags : 0x80 + stable.toNat * 0x40 < 256 := by cases stable <;> decide
    have htype : ∀ b : UInt8, b.toNat / 2 ^ 6 = (0x80 + stable.toNat * 0x40) / 2 ^ 6 →
        xqcInsEncType H b = .nameIndex stable (xqcPrefixedIntInit 6) := by
      intro b hb
      have hflag : b.toNat / 64 = 2 + stable.toNat := by
        cases stable <;> exact hb
      unfold xqcInsEncType
      rw [if_pos (by cases stable <;> simp at hflag <;> omega), hflag]
      cases stable <;> rfl
    show feed _ _ (xqcPrefixedIntPut _ idx 6 ++ xqcWritePrefixedStr H 0 value 7) = _
    rw [feed_append, int_first encoder_first (.nameIndex stable)
      (fun idx => .inl (.refValue stable idx (xqcPrefixedStrInit H 7))) (fun _ _ => rfl) hflags (by decide) hfits.1 htype]
    exact str_inside encoderByte (.refValue stable idx) (fun value => .inr (.insertNameRef stable idx value)) (fun _ _ => rfl)
      hinv
      (by decide) (by decide) hfits.2
  | insertLiteral name value =>
    have htype : ∀ b : UInt8, b.toNat / 2 ^ 6 = 0x40 / 2 ^ 6 → xqcInsEncType H b = .name (xqcPrefixedStrInit H 5) := by
      intro b hb; unfold xqcInsEncType
      rw [if_neg (by omega), if_pos (by omega)]
    show feed _ _ (xqcWritePrefixedStr H 0x40 name 5 ++ xqcWritePrefixedStr H 0 value 7) = _
    rw [feed_append, str_first encoder_first .name (fun name => .inl (.value name (xqcPrefixedStrInit H 7)))
      (fun _ _ => rfl) hinv (by decide) (by decide) hfits.1 htype]
    exact str_inside encoderByte (.value name) (fun value => .inr (.insertLiteral name value)) (fun _ _ => rfl) hinv (by decide)
      (by decide)
      hfits.2
  | duplicate idx =>
    refine int_first encoder_first .dup (fun n => .inr (.duplicate n)) (fun _ _ => rfl) (by decide) (by decide) hfits ?_
    intro b hb; unfold xqcInsEncType
    rw [if_neg (by omega), if_neg (by omega), if_neg (by omega)]

/-! ## The decoder stream -/

inductive DecIns where
  | sectionAck (streamId : Nat)
  | streamCancel (streamId : Nat)
  | icntIncrement (increment : Nat)
  deriving DecidableEq, Repr

inductive DecCtx where
  | opcode
  | ack (p : PInt)
  | cancel (p : PInt)
  | increment (p : PInt)
  deriving DecidableEq, Repr

def xqcInsDecoderType (b : UInt8) : DecCtx :=
  if b.toNat / 128 = 1 then .ack (xqcPrefixedIntInit 7)
  else if b.toNat / 64 = 1 then .cancel (xqcPrefixedIntInit 6)
  else .increment (xqcPrefixedIntInit 6)

def decByte : DecCtx → UInt8 → Option (DecCtx ⊕ DecIns)
  | .opcode, _ => none
  | .ack p, b => (intByte p b).map (Sum.elim (fun p => .inl (.ack p)) fun n => .inr (.sectionAck n))
  | .cancel p, b => (intByte p b).map (Sum.elim (fun p => .inl (.cancel p)) fun n => .inr (.streamCancel n))
  | .increment p, b => (intByte p b).map (Sum.elim (fun p => .inl (.increment p)) fun n => .inr (.icntIncrement n))

def decoderByte (ctx : DecCtx) (b : UInt8) : Option (DecCtx ⊕ DecIns) :=
  match ctx with
  | .opcode => decByte (xqcInsDecoderType b) b
  | ctx => decByte ctx b

def xqcInsWriteSectionAck (streamId : Nat) : List UInt8 := xqcPrefixedIntPut 0x80 streamId 7

def xqcInsWriteStreamCancel (streamId : Nat) : List UInt8 := xqcPrefixedIntPut 0x40 streamId 6

def xqcInsWriteIcntIncrement (increment : Nat) : List UInt8 := xqcPrefixedIntPut 0 increment 6

def writeDecIns : DecIns → List UInt8
  | .sectionAck streamId => xqcInsWriteSectionAck streamId
  | .streamCancel streamId => xqcInsWriteStreamCancel streamId
  | .icntIncrement increment => xqcInsWriteIcntIncrement increment

def DecFits : DecIns → Prop
  | .sectionAck n | .streamCancel n | .icntIncrement n => n ≤ intMax

lemma decoder_first (b : UInt8) : decoderByte .opcode b = decoderByte (xqcInsDecoderType b) b := by
  show decByte (xqcInsDecoderType b) b = _
  unfold xqcInsDecoderType; split
  · rfl
  split <;> rfl

theorem decIns_round {i : DecIns} (hfits : DecFits i) : feed decoderByte .opcode (writeDecIns i) = some (.inr i, []) := by
  cases i with
  | sectionAck streamId =>
    refine int_first decoder_first .ack (fun n => .inr (.sectionAck n)) (fun _ _ => rfl) (by decide) (by decide) hfits ?_
    intro b hb; unfold xqcInsDecoderType
    rw [if_pos (by omega)]
  | streamCancel streamId =>
    refine int_first decoder_first .cancel (fun n => .inr (.streamCancel n)) (fun _ _ => rfl) (by decide) (by decide) hfits ?_
    intro b hb; unfold xqcInsDecoderType
    rw [if_neg (by omega), if_pos (by omega)]
  | icntIncrement increment =>
    refine int_first decoder_first .increment (fun n => .inr (.icntIncrement n)) (fun _ _ => rfl) (by decide) (by decide) hfits ?_
    intro b hb; unfold xqcInsDecoderType
    rw [if_neg (by omega), if_neg (by omega)]

end RlccQuic.Http3.Ins
