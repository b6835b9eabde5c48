/-
  RlccQuic.Http3.Decoder — the QPACK decoder and what is between it and the streams
  (`qpack/xqc_decoder.c`, `qpack/xqc_qpack.c`).

  The bytes of the encoder stream change the decoder's table, those of the decoder stream the encoder's, and those of a
  field section become header lines, unless the section has to wait for insertions. Memory can always be had.
-/

import RlccQuic.Http3.Ins
import RlccQuic.Http3.RepCodec

namespace RlccQuic.Http3.Decode

open Lib Prefixed Ins RepCodec DynTable
open DynTable (Table)
open Encode (EncIns Rep Encoder)

/-! ## The decoder -/

structure Decoder where
  dtable : Table
  maxEnts : Nat
  deriving DecidableEq

def xqcDecoderCreate (maxDtableCap : Nat) : Decoder :=
  ⟨xqcDtableCreate, xqcDtableMaxEntryCnt maxDtableCap⟩

def xqcBrel2abs (base idx : Nat) : Nat := (base + 2 ^ 64 - idx - 1) % 2 ^ 64

def xqcPbrel2abs (base idx : Nat) : Nat := (base + idx) % 2 ^ 64

abbrev Field := List UInt8 × List UInt8

def xqcDecoderIndex (t : Table) (stable : Bool) (idx : Nat) : Option Field :=
  if stable then StaticTable.xqcStableGetNv idx
  else (xqcDtableGetEntryByAbsIdx t idx).map fun e => (e.name, e.value)

def xqcDecoderNameIndex (t : Table) (stable : Bool) (idx : Nat) : Option (List UInt8) :=
  (xqcDecoderIndex t stable idx).map Prod.fst

def succeeded {α : Type} : DynTable.Out α → Option Table
  | (_, .error _) => none
  | (t, .ok _) => some t

def xqcDecoderSetDtableCap (t : Table) (cap : Nat) : Option Table := succeeded (xqcDtableSetCapacity t cap true)

def xqcDecoderDuplicate (t : Table) (idx : Nat) : Option Table :=
  succeeded (xqcDtableDuplicate t (xqcBrel2abs t.insertCnt idx))

def xqcDecoderInsertLiteral (t : Table) (name value : List UInt8) : Option Table :=
  succeeded (xqcDtableAdd t name value)

/-- The name is copied before the entry it is from may go. -/
def xqcDecoderInsertNameRef (t : Table) (stable : Bool) (nidx : Nat) (value : List UInt8) : Option Table :=
  (xqcDecoderNameIndex t stable (if stable then nidx else xqcBrel2abs t.insertCnt nidx)).bind fun name =>
    succeeded (xqcDtableAdd t name value)

def xqcQpackOnEncoderIns (t : Table) : EncIns → Option Table
  | .setCap capacity => xqcDecoderSetDtableCap t capacity
  | .insertNameRef stable idx value => xqcDecoderInsertNameRef t stable idx value
  | .insertLiteral name value => xqcDecoderInsertLiteral t name value
  | .duplicate idx => xqcDecoderDuplicate t idx

/-! ## The encoder and the decoder stream -/

variable {H : Huffman}

def xqcQpackProcessEncoder (ectx : EncCtx H) (dec : Decoder) (data : List UInt8) : Option (EncCtx H × Decoder × List DecIns) :=
  (process encoderByte .opcode xqcQpackOnEncoderIns ectx dec.dtable data).map fun r =>
    (r.1, { dec with dtable := r.2 },
      if r.2.insertCnt > dec.dtable.insertCnt then [.icntIncrement (r.2.insertCnt - dec.dtable.insertCnt)] else [])

def xqcQpackOnDecoderIns (enc : Encoder) : DecIns → Option Encoder
  | .sectionAck streamId => (Encode.xqcEncoderSectionAck enc streamId).toOption
  | .streamCancel streamId => (Encode.xqcEncoderCancelStream enc streamId).toOption
  | .icntIncrement increment => (Encode.xqcEncoderIncreaseKnownRcvdCount enc increment).toOption

def xqcQpackProcessDecoder (dctx : DecCtx) (enc : Encoder) (data : List UInt8) : Option (DecCtx × Encoder) :=
  process decoderByte .opcode xqcQpackOnDecoderIns dctx enc data

/-! ## Field sections -/

inductive RepCtx (H : Huffman) where
  | start (p : PrefixCtx)
  | line (ric base : Nat) (l : LineCtx H)

def xqcRepCtxClear (H : Huffman) : RepCtx H := .start (.ricnt (xqcPrefixedIntInit 0))

def xqcRepGetRic : RepCtx H → Nat
  | .start (.ricnt p) => p.value
  | .start (.baseSign ric) | .start (.base ric _ _) | .line ric _ _ => ric

/-- `ctx->state > XQC_REP_DECODE_STATE_RICNT` and too few insertions. -/
def waits (insertCnt : Nat) : RepCtx H → Bool
  | .start (.ricnt _) => false
  | ctx => xqcRepGetRic ctx > insertCnt

def xqcDecoderSaveHdr (t : Table) (base : Nat) : Rep → Option Field
  | .indexed stable idx => xqcDecoderIndex t stable (if stable then idx else xqcBrel2abs base idx)
  | .indexedPb idx => xqcDecoderIndex t false (xqcPbrel2abs base idx)
  | .nameRef _ stable idx value =>
    (xqcDecoderNameIndex t stable (if stable then idx else xqcBrel2abs base idx)).map fun name => (name, value)
  | .nameRefPb _ idx value => (xqcDecoderNameIndex t false (xqcPbrel2abs base idx)).map fun name => (name, value)
  | .literal _ name value => some (name, value)

/-- What decoding leaves: `rest` are the bytes that were not read. -/
structure Decoded (H : Huffman) where
  ctx : RepCtx H
  hdrs : List Field
  rest : List UInt8
  blocked : Bool

def saveLine (t : Table) (base : Nat) (hdrs : List Field) (r : Rep) : Option (List Field) :=
  (xqcDecoderSaveHdr t base r).map fun f => hdrs ++ [f]

def decLines (t : Table) (ric base : Nat) (l : LineCtx H) (hdrs : List Field) (data : List UInt8) : Option (Decoded H) :=
  if waits t.insertCnt (.line ric base l) then some ⟨.line ric base l, hdrs, data, true⟩
  else
    (process fieldLineByte .opcode (saveLine t base) l hdrs data).map fun r => ⟨.line ric base r.1, r.2, [], false⟩

/-- A prefix that is not complete, or the lines behind it. -/
def afterPrefix (t : Table) (hdrs : List Field) : Option ((PrefixCtx ⊕ (Nat × Nat)) × List UInt8) → Option (Decoded H)
  | none => none
  | some (.inl p, _) => some ⟨.start p, hdrs, [], waits (H := H) t.insertCnt (.start p)⟩
  | some (.inr (ric, base), rest) => decLines t ric base .opcode hdrs rest

/-- `xqc_decoder_dec_header` for all lines that are there. -/
def decHeaderLoop (dec : Decoder) (ctx : RepCtx H) (hdrs : List Field) (data : List UInt8) : Option (Decoded H) :=
  if data = [] then some ⟨ctx, hdrs, [], false⟩
  else
    match ctx with
    | .start p => afterPrefix dec.dtable hdrs (feed (prefixByte dec.maxEnts dec.dtable.insertCnt) p data)
    | .line ric base l => decLines dec.dtable ric base l hdrs data

/-- With `fin` the section ends with the bytes, and is acknowledged if it needed insertions. -/
def xqcQpackDecHeaders (dec : Decoder) (streamId : Nat) (ctx : RepCtx H) (hdrs : List Field) (data : List UInt8) (fin : Bool) :
    Option (Decoded H × List DecIns) :=
  (decHeaderLoop dec ctx hdrs data).map fun d =>
    (d, if !d.blocked && fin && xqcRepGetRic d.ctx > 0 then [.sectionAck streamId] else [])

end RlccQuic.Http3.Decode
