/-
  RlccQuic.Http3.Encoder — the QPACK encoder (`qpack/xqc_encoder.c`).

  A header list becomes a field section, line by line: every line is looked up, perhaps inserted or duplicated in the
  dynamic table, and written as a representation. What a lookup in the dynamic table answers is given with each line,
  and has to be sound for the table it is made in (`RlccQuic.Http3.TableMem.lookup_sound` shows that it is).

  There is memory for the nodes of the hash table: without it `xqc_dtable_add` leaves an element that is not counted.
-/

import RlccQuic.Http3.StaticTable
import RlccQuic.Http3.TableLookup

namespace RlccQuic.Http3.Encode

open Lib DynTable
open TableMem (RefType)
open DynTable (Table Err xqcDtableEntrySize)
open StaticTable (bytes xqcStableLookup)

/-! ## What is written -/

inductive EncIns where
  | setCap (capacity : Nat)
  | insertNameRef (stable : Bool) (idx : Nat) (value : List UInt8)
  | insertLiteral (name value : List UInt8)
  | duplicate (idx : Nat)
  deriving DecidableEq, Repr

inductive Rep where
  | indexed (stable : Bool) (idx : Nat)
  | indexedPb (idx : Nat)
  | nameRef (never stable : Bool) (idx : Nat) (value : List UInt8)
  | nameRefPb (never : Bool) (idx : Nat) (value : List UInt8)
  | literal (never : Bool) (name value : List UInt8)
  deriving DecidableEq, Repr

structure Efs where
  ric : Nat
  base : Nat
  reps : List Rep
  deriving DecidableEq, Repr

def xqcAbs2brel (base idx : Nat) : Nat := base - idx - 1

def xqcAbs2pbrel (base idx : Nat) : Nat := idx - base

/-! ## State -/

structure Header where
  name : List UInt8
  value : List UInt8
  /-- `XQC_HTTP_HEADER_FLAG_NEVER_INDEX`. -/
  never : Bool
  /-- `XQC_HTTP_HEADER_FLAG_NEVER_INDEX_VALUE`. -/
  neverValue : Bool
  deriving DecidableEq, Repr

/-- A header, what the dynamic table answers for it, and whether there is room for the instruction it may need. -/
structure Line where
  hdr : Header
  found : RefType × Nat
  room : Bool
  deriving DecidableEq, Repr

/-- What a line refers to; `both` is name and value. -/
inductive Ref where
  | none
  | stable (both : Bool) (idx : Nat)
  | dtable (both : Bool) (idx : Nat)
  deriving DecidableEq, Repr

inductive Insertion where
  | none
  | name
  | nameRefValue
  | literalNameValue
  deriving DecidableEq, Repr

structure Info where
  hdr : Header
  ref : Ref
  never : Bool
  deriving DecidableEq, Repr

structure FieldSection where
  base : Nat
  ric : Nat
  minRef : WithTop Nat
  infos : List Info
  deriving DecidableEq

/-- The entries of the dynamic table that the lines refer to. -/
def Ref.index : Ref → Option Nat
  | .dtable _ idx => some idx
  | _ => Option.none

def FieldSection.refs (fs : FieldSection) : List Nat := fs.infos.filterMap fun i => i.ref.index

structure Section where
  streamId : Nat
  minRep : WithTop Nat
  ric : Nat
  /-- What its lines refer to, which the code does not keep. -/
  refs : List Nat
  deriving DecidableEq

structure Blocked where
  streamId : Nat
  ric : Nat
  deriving DecidableEq, Repr

structure Encoder where
  dtable : Table
  maxEntries : Nat
  unack : List Section
  minUnack : WithTop Nat
  krc : Nat
  maxBlockedStream : Nat
  blockedStreamCount : Nat
  blocked : List Blocked
  nameLenLimit : Nat
  entrySizeLimit : Nat
  deriving DecidableEq

def xqcEncoderCreate : Encoder := ⟨xqcDtableCreate, 0, [], ⊤, 0, 0, 0, [], 0, 0⟩

/-! ## One line -/

def rank : RefType → Nat
  | .none => 0
  | .name => 1
  | .nameAndValue => 2

/-- The static table is preferred; a whole match there makes the other lookup needless. -/
def xqcEncoderLookupNv (hdr : Header) (found : RefType × Nat) : Ref :=
  let stable := xqcStableLookup hdr.name hdr.value
  let dref := if stable.1 ≠ .nameAndValue then found.1 else .none
  if stable.1 = .none ∧ dref = .none then .none
  else if rank stable.1 ≥ rank dref then .stable (stable.1 = .nameAndValue) stable.2
  else .dtable (dref = .nameAndValue) found.2

def xqcEncoderNeverIdxValueHdr (hdr : Header) : Bool :=
  hdr.neverValue || hdr.name = bytes "authorization" || (hdr.name = bytes "cookie" && hdr.value.length < 20)

def xqcEncoderCheckBlockStreamLimit (enc : Encoder) (streamId : Nat) : Bool :=
  if enc.blocked.any fun b => b.streamId = streamId then false else enc.blockedStreamCount ≥ enc.maxBlockedStream

/-- Whether an insertion is possible, and what the line refers to if it may not block. -/
def xqcEncoderCheckInsert (enc : Encoder) (ref : Ref) (blocked : Bool) : Bool × Ref :=
  if enc.maxEntries = 0 then (false, ref)
  else if !blocked then (true, ref)
  else
    match ref with
    | .dtable _ idx => (false, if idx ≥ enc.krc then .none else ref)
    | _ => (false, ref)

def xqcEncoderCheckNeverValueIndexMode (enc : Encoder) (hdr : Header) (ref : Ref) (blocked : Bool) : Ref × Insertion :=
  match xqcEncoderCheckInsert enc ref blocked with
  | (false, ref) => (ref, .none)
  | (true, ref) => (ref, if ref = .none ∧ hdr.name.length ≤ enc.nameLenLimit then .name else .none)

def xqcEncoderCheckNormalIndexMode (enc : Encoder) (hdr : Header) (ref : Ref) (blocked : Bool) : Ref × Insertion :=
  match xqcEncoderCheckInsert enc ref blocked with
  | (false, ref) => (ref, .none)
  | (true, ref) =>
    let small := xqcDtableEntrySize hdr.name.length hdr.value.length ≤ enc.entrySizeLimit
    (ref,
      match ref with
      | .none => if hdr.name.length ≤ enc.nameLenLimit then (if small then .literalNameValue else .name) else .none
      | .stable false _ | .dtable false _ => if small then .nameRefValue else .none
      | .stable true _ | .dtable true _ => .none)

/-- What the line refers to, the never flag, and the insertion to try. -/
def xqcEncoderCheckIndexMode (enc : Encoder) (hdr : Header) (ref : Ref) (blocked : Bool) : Ref × Bool × Insertion :=
  if xqcEncoderNeverIdxValueHdr hdr then
    let (ref, ins) := xqcEncoderCheckNeverValueIndexMode enc hdr ref blocked
    (ref, true, ins)
  else
    let (ref, ins) := xqcEncoderCheckNormalIndexMode enc hdr ref blocked
    (ref, false, ins)

/-- The instruction for an insertion into a table that had `base` entries before. -/
def xqcEncoderWriteInsertIns (hdr : Header) (ref : Ref) (base : Nat) : Insertion → List EncIns
  | .none => []
  | .name => [.insertLiteral hdr.name []]
  | .nameRefValue =>
    match ref with
    | .dtable _ idx => [.insertNameRef false (xqcAbs2brel base idx) hdr.value]
    | .stable _ idx => [.insertNameRef true idx hdr.value]
    | .none => []
  | .literalNameValue => [.insertLiteral hdr.name hdr.value]

inductive EncErr where
  /-- An instruction could not be written. -/
  | write
  | minRef
  deriving DecidableEq, Repr

/-- An insertion that fails leaves the line as it was looked up. -/
def xqcEncoderInsert (enc : Encoder) (l : Line) (ref : Ref) (ins : Insertion) : Except EncErr (Encoder × Ref × List EncIns) :=
  match xqcDtableAdd enc.dtable l.hdr.name (if ins = .name then [] else l.hdr.value) with
  | (t, .error _) => .ok ({ enc with dtable := t }, ref, [])
  | (t, .ok idx) =>
    if l.room then
      .ok ({ enc with dtable := t }, .dtable (ins ≠ .name) idx,
        xqcEncoderWriteInsertIns l.hdr ref enc.dtable.insertCnt ins)
    else .error .write

/-- An entry that is draining is duplicated; every failure is ignored. -/
def xqcEncoderTryDuplicate (enc : Encoder) (l : Line) (both : Bool) (idx : Nat) : Encoder × Ref × List EncIns :=
  match xqcDtableIsEntryDraining enc.dtable idx with
  | some true =>
    match xqcDtableDuplicate enc.dtable idx with
    | (t, .error _) => ({ enc with dtable := t }, .dtable both idx, [])
    | (t, .ok dup) =>
      if l.room then
        ({ enc with dtable := t }, .dtable both dup, [.duplicate (xqcAbs2brel enc.dtable.insertCnt idx)])
      else ({ enc with dtable := t }, .dtable both idx, [])
  | _ => (enc, .dtable both idx, [])

/-- The lowest reference and the required insert count take the line in. -/
def noteRef (enc : Encoder) (fs : FieldSection) (info : Info) : Except EncErr (Encoder × FieldSection) :=
  match info.ref with
  | .dtable _ idx =>
    let ric := if fs.ric < idx + 1 then idx + 1 else fs.ric
    if (idx : WithTop Nat) < fs.minRef then
      if (idx : WithTop Nat) < enc.minUnack then
        match xqcDtableSetMinRef enc.dtable idx with
        | (_, .error _) => .error .minRef
        | (t, .ok ()) => .ok ({ enc with dtable := t }, ⟨fs.base, ric, idx, fs.infos ++ [info]⟩)
      else .ok (enc, ⟨fs.base, ric, idx, fs.infos ++ [info]⟩)
    else .ok (enc, { fs with ric := ric, infos := fs.infos ++ [info] })
  | _ => .ok (enc, { fs with infos := fs.infos ++ [info] })

def changeTable (limited : Bool) (enc : Encoder) (l : Line) (ref : Ref) (ins : Insertion) :
    Except EncErr (Encoder × Ref × List EncIns) :=
  if ins ≠ .none then xqcEncoderInsert enc l ref ins
  else
    match ref with
    | .dtable both idx => .ok (if limited then (enc, ref, []) else xqcEncoderTryDuplicate enc l both idx)
    | _ => .ok (enc, ref, [])

def prepareLine (limited : Bool) (enc : Encoder) (fs : FieldSection) (l : Line) :
    Except EncErr (Encoder × FieldSection × List EncIns) :=
  if l.hdr.never then .ok (enc, { fs with infos := fs.infos ++ [⟨l.hdr, .none, true⟩] }, [])
  else
    match xqcEncoderCheckIndexMode enc l.hdr (xqcEncoderLookupNv l.hdr l.found) limited with
    | (ref, never, ins) =>
      match changeTable limited enc l ref ins with
      | .error e => .error e
      | .ok (enc, ref, out) =>
        match noteRef enc fs ⟨l.hdr, ref, never⟩ with
        | .error e => .error e
        | .ok (enc, fs) => .ok (enc, fs, out)

/-! ## A field section -/

def prepareLoop (limited : Bool) : Encoder → FieldSection → List EncIns → List Line →
    Except EncErr (Encoder × FieldSection × List EncIns)
  | enc, fs, out, [] => .ok (enc, fs, out)
  | enc, fs, out, l :: ls =>
    match prepareLine limited enc fs l with
    | .error e => .error e
    | .ok (enc, fs, ins) => prepareLoop limited enc fs (out ++ ins) ls

def xqcEncoderCreateFsInfo (enc : Encoder) : FieldSection := ⟨enc.dtable.insertCnt, 0, ⊤, []⟩

def xqcEncoderPrepare (enc : Encoder) (streamId : Nat) (ls : List Line) :
    Except EncErr (Encoder × FieldSection × List EncIns) :=
  prepareLoop (xqcEncoderCheckBlockStreamLimit enc streamId) enc (xqcEncoderCreateFsInfo enc) [] ls

def repOf (base : Nat) (i : Info) : Rep :=
  match i.ref with
  | .none => .literal i.never i.hdr.name i.hdr.value
  | .stable false idx => .nameRef i.never true idx i.hdr.value
  | .stable true idx => .indexed true idx
  | .dtable false idx =>
    if idx ≥ base then .nameRefPb i.never (xqcAbs2pbrel base idx) i.hdr.value
    else .nameRef i.never false (xqcAbs2brel base idx) i.hdr.value
  | .dtable true idx =>
    if idx ≥ base then .indexedPb (xqcAbs2pbrel base idx) else .indexed false (xqcAbs2brel base idx)

def xqcEncoderWriteEfs (fs : FieldSection) : Efs := ⟨fs.ric, fs.base, fs.infos.map (repOf fs.base)⟩

def xqcEncoderSaveUnacked (enc : Encoder) (streamId : Nat) (fs : FieldSection) : Encoder :=
  if fs.ric ≠ 0 then
    { enc with
      unack := enc.unack ++ [⟨streamId, fs.minRef, fs.ric, fs.refs⟩]
      minUnack := if fs.minRef < enc.minUnack then fs.minRef else enc.minUnack }
  else enc

/-- The first entry of the stream waits for the larger count. -/
def raiseRic (streamId ric : Nat) : List Blocked → List Blocked
  | [] => []
  | b :: bs =>
    if b.streamId = streamId then (if ric > b.ric then { b with ric := ric } else b) :: bs
    else b :: raiseRic streamId ric bs

def xqcEncoderAddBlockedStream (enc : Encoder) (streamId ric : Nat) : Encoder :=
  if enc.blocked.any fun b => b.streamId = streamId then { enc with blocked := raiseRic streamId ric enc.blocked }
  else
    { enc with blocked := enc.blocked ++ [⟨streamId, ric⟩], blockedStreamCount := enc.blockedStreamCount + 1 }

/-- The encoder, the section and the instructions; nothing is written for no headers. -/
def xqcEncoderEncHeaders (enc : Encoder) (streamId : Nat) (ls : List Line) :
    Except EncErr (Encoder × Option Efs × List EncIns) :=
  if ls = [] then .ok (enc, none, [])
  else
    match xqcEncoderPrepare enc streamId ls with
    | .error e => .error e
    | .ok (enc, fs, ins) =>
      let enc := xqcEncoderSaveUnacked enc streamId fs
      .ok (if fs.ric > enc.krc then xqcEncoderAddBlockedStream enc streamId fs.ric else enc, some (xqcEncoderWriteEfs fs), ins)

/-! ## What the decoder tells -/

def xqcEncoderUnblockStreams (enc : Encoder) : Encoder :=
  { enc with
    blocked := enc.blocked.filter fun b => ¬ b.ric ≤ enc.krc
    blockedStreamCount := enc.blockedStreamCount - (enc.blocked.filter fun b => b.ric ≤ enc.krc).length }

/-- The lowest reference of the sections, as the walk over the list finds it. -/
def minLoop : WithTop Nat → List Section → WithTop Nat
  | m, [] => m
  | m, s :: ss => minLoop (if s.minRep ≠ ⊤ ∧ (m = ⊤ ∨ s.minRep < m) then s.minRep else m) ss

inductive DecErr where
  | notFound
  | minRef
  | stream
  deriving DecidableEq, Repr

def xqcEncoderSectionAck (enc : Encoder) (streamId : Nat) : Except DecErr Encoder :=
  match enc.unack.find? fun s => s.streamId = streamId with
  | none => .error .notFound
  | some acked =>
    let unack := enc.unack.eraseP fun s => s.streamId = streamId
    match xqcDtableSetMinRef enc.dtable (minLoop ⊤ unack) with
    | (_, .error _) => .error .minRef
    | (t, .ok ()) =>
      let enc := { enc with dtable := t, unack := unack, minUnack := minLoop ⊤ unack }
      .ok (if acked.ric > enc.krc then xqcEncoderUnblockStreams { enc with krc := acked.ric } else enc)

def xqcEncoderCancelStream (enc : Encoder) (streamId : Nat) : Except DecErr Encoder :=
  let unack := enc.unack.filter fun s => s.streamId ≠ streamId
  match xqcDtableSetMinRef enc.dtable (minLoop ⊤ unack) with
  | (_, .error _) => .error .minRef
  | (t, .ok ()) =>
    .ok { enc with
      dtable := t, unack := unack, minUnack := minLoop ⊤ unack
      blocked := enc.blocked.eraseP fun b => b.streamId = streamId
      blockedStreamCount :=
        if enc.blocked.any fun b => b.streamId = streamId then enc.blockedStreamCount - 1 else enc.blockedStreamCount }

def xqcEncoderIncreaseKnownRcvdCount (enc : Encoder) (increment : Nat) : Except DecErr Encoder :=
  if increment = 0 then .error .stream
  else if enc.krc + increment > enc.dtable.insertCnt then .error .stream
  else .ok (xqcEncoderUnblockStreams { enc with krc := enc.krc + increment })

/-! ## Settings -/

/-- The limits are products of the capacity and two factors. -/
def xqcEncoderSetDtableCap (enc : Encoder) (cap : Nat) (resized : Bool) (nameLenLimit entrySizeLimit : Nat) :
    Except Err Encoder :=
  match xqcDtableSetCapacity enc.dtable cap resized with
  | (_, .error e) => .error e
  | (t, .ok ()) => .ok { enc with dtable := t, nameLenLimit := nameLenLimit, entrySizeLimit := entrySizeLimit }

def xqcEncoderSetMaxDtableCap (enc : Encoder) (maxCap : Nat) : Option Encoder :=
  if enc.maxEntries ≠ 0 then none else some { enc with maxEntries := xqcDtableMaxEntryCnt maxCap }

def xqcEncoderSetMaxBlockedStream (enc : Encoder) (n : Nat) : Encoder := { enc with maxBlockedStream := n }

end RlccQuic.Http3.Encode
