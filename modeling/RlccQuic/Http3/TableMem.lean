/-
  RlccQuic.Http3.TableMem — the dynamic table in memory (`qpack/dtable/xqc_dtable.c`,
  `ringarray/xqc_ring_array.c`, `2d_hash/xqc_2d_hash_table.c`).

  Names and values are in a ring memory, the entries in a ring array, and a hash table finds an entry by the hashes of
  its name and value. A node of the hash table points at an element of the array; a buffer of the array that was given
  up keeps whatever it has, and a node that points there reads it. What the functions do to the entries is proved in
  `RlccQuic.Http3.TableRefines`.
-/

import RlccQuic.Common.RingMem
import RlccQuic.Http3.Table

namespace RlccQuic.Http3.TableMem

open Lib Lib.Cursor Common.RingMem
open DynTable (xqcDtableEntrySize)

abbrev Err := DynTable.Err

/-! ## Entries in a ring array -/

structure Nv where
  nidx : UInt64
  nlen : UInt64
  vidx : UInt64
  vlen : UInt64
  deriving DecidableEq, Repr

structure Slot where
  nv : Nv
  absIndex : Nat
  nhash : UInt64
  vhash : UInt64
  sum : Nat
  deriving DecidableEq, Repr

/-- An element of the array in its buffer number `gen`. -/
structure Ptr where
  gen : Nat
  slot : Nat
  deriving DecidableEq, Repr

structure Rarray where
  buf : Nat → Slot
  gen : Nat
  cap : Nat
  count : Nat
  offset : Nat
  mask : Nat

def xqcRarrayCheckRange (ra : Rarray) (offset : Nat) : Bool :=
  let eoffset := (ra.offset + ra.count) &&& ra.mask
  if ra.offset ≥ eoffset then
    if ra.count = 0 then false else offset ≥ ra.offset || offset < eoffset
  else offset ≥ ra.offset && offset < eoffset

def xqcRarrayGet (ra : Rarray) (idx : Nat) : Option Nat :=
  if idx ≥ ra.cap then none
  else
    let offset := (idx + ra.offset) &&& ra.mask
    if xqcRarrayCheckRange ra offset then some offset else none

def xqcRarrayFront (ra : Rarray) : Option Nat := if ra.count = 0 then none else some ra.offset

def xqcRarrayPush (ra : Rarray) : Option (Rarray × Nat) :=
  if ra.count ≥ ra.cap then none
  else some ({ ra with count := ra.count + 1 }, (ra.offset + ra.count) &&& ra.mask)

def xqcRarrayPopFront (ra : Rarray) : Option Rarray :=
  if ra.count = 0 then none
  else some { ra with offset := (ra.offset + 1) &&& ra.mask, count := ra.count - 1 }

/-- The elements go to the start of a new buffer, if the memory for it can be had. -/
def xqcRarrayResize (ra : Rarray) (cap : UInt64) (alloc : Bool) (garbage : Nat → Slot) : Except Err Rarray :=
  if cap.toNat < ra.count then .error .param
  else if cap.toNat ≤ ra.cap then .ok ra
  else if xqcPow2Upper cap = 0 then .error .resize
  else if !alloc then .error .resize
  else
    let arrayCap := (xqcPow2Upper cap).toNat
    let buf :=
      if ra.cap ≠ 0 then
        let last := (ra.offset + ra.count) &&& ra.mask
        if last ≥ ra.offset then Ring.copy garbage 0 ra.buf ra.offset ra.count
        else Ring.copy (Ring.copy garbage 0 ra.buf ra.offset (ra.cap - ra.offset)) (ra.cap - ra.offset) ra.buf 0 last
      else garbage
    .ok { buf := buf, gen := ra.gen + 1, cap := arrayCap, count := ra.count, offset := 0, mask := arrayCap - 1 }

/-! ## The hash table -/

structure Node where
  hash1 : UInt64
  hash2 : UInt64
  data : Ptr
  deriving DecidableEq, Repr

structure Hash2d where
  mask : UInt64
  list : UInt64 → List Node

inductive CmpRes where
  | none
  | oneD
  | twoD
  deriving DecidableEq, Repr

def CmpRes.rank : CmpRes → Nat
  | .none => 0
  | .oneD => 1
  | .twoD => 2

inductive CmpDim where
  | one
  | two
  deriving DecidableEq, Repr

def xqc2dHashLookupData (ht : Hash2d) (same : Ptr → Ptr → Bool) (first : UInt64) (data : Ptr) : Bool :=
  (ht.list (first &&& ht.mask)).any fun n => same n.data data

def Hash2d.set (ht : Hash2d) (b : UInt64) (ns : List Node) : Hash2d :=
  { ht with list := fun c => if c = b then ns else ht.list c }

/-- `node` says whether there is memory for a node. -/
def xqc2dHashTableAdd (ht : Hash2d) (same : Ptr → Ptr → Bool) (first second : UInt64) (data : Ptr) (node : Bool) :
    Except Err Hash2d :=
  if xqc2dHashLookupData ht same first data then .ok ht
  else if node then .ok (ht.set (first &&& ht.mask) (⟨first, second, data⟩ :: ht.list (first &&& ht.mask)))
  else .error .malloc

def xqc2dHashTableRemove (ht : Hash2d) (same : Ptr → Ptr → Bool) (h1 h2 : UInt64) (data : Ptr) : Hash2d :=
  ht.set (h1 &&& ht.mask)
    ((ht.list (h1 &&& ht.mask)).eraseP fun n => n.hash1 = h1 && n.hash2 = h2 && same n.data data)

/-- The walk over a bucket: the result so far and the data it is for. -/
def lookupLoop (vcmp : Ptr → CmpDim → CmpRes) (h1 h2 : UInt64) : List Node → CmpRes → Option Ptr → CmpRes × Option Ptr
  | [], ret, data => (ret, data)
  | n :: ns, ret, data =>
    if n.hash1 = h1 then
      if n.hash2 = h2 then
        if (vcmp n.data .two).rank > ret.rank then
          if vcmp n.data .two = .twoD then (.twoD, some n.data)
          else lookupLoop vcmp h1 h2 ns (vcmp n.data .two) (some n.data)
        else lookupLoop vcmp h1 h2 ns ret data
      else if vcmp n.data .one = .oneD ∧ ret ≠ .oneD then lookupLoop vcmp h1 h2 ns .oneD (some n.data)
      else lookupLoop vcmp h1 h2 ns ret data
    else lookupLoop vcmp h1 h2 ns ret data

def xqc2dHashLookup (ht : Hash2d) (vcmp : Ptr → CmpDim → CmpRes) (h1 h2 : UInt64) : CmpRes × Option Ptr :=
  lookupLoop vcmp h1 h2 (ht.list (h1 &&& ht.mask)) .none none

/-! ## The table -/

structure Dtable where
  ht2d : Hash2d
  entries : Rarray
  /-- What the buffers of the array that were given up have. -/
  freed : Ptr → Slot
  rmem : Rmem
  insertCnt : Nat
  firstIdx : Nat
  capacity : Nat
  used : Nat
  byteSum : Nat
  minRef : WithTop Nat

/-- A function of the table may fail half way, so it always gives the table it leaves. -/
abbrev Out (α : Type) := Dtable × Except Err α

def zeroSlot : Slot := ⟨⟨0, 0, 0, 0⟩, 0, 0, 0, 0⟩

def xqcHashString (data : Mem) (len : UInt64) : UInt64 :=
  (slice data 0 len.toNat).foldl (fun h b => h * 31 + b.toUInt64) 0

def xqcDtableMakeValueHash (value : Mem) (vlen : UInt64) : UInt64 :=
  if vlen ≠ 0 then (value (vlen.toNat - 1)).toUInt64 else 0

def Dtable.deref (dt : Dtable) (p : Ptr) : Slot :=
  if p.gen = dt.entries.gen then dt.entries.buf p.slot else dt.freed p

def Dtable.sameEntry (dt : Dtable) (p q : Ptr) : Bool := (dt.deref p).absIndex = (dt.deref q).absIndex

def xqcDtableCompareNv (dt : Dtable) (name : Mem) (len1 : UInt64) (value : Mem) (len2 : UInt64) (p : Ptr)
    (dims : CmpDim) : CmpRes :=
  let nv := (dt.deref p).nv
  if nv.nlen = len1 then
    if (xqcRingMemCmp dt.rmem nv.nidx name len1).2 = .ok 0 then
      if dims = .two then
        if nv.vlen = len2 then
          if (xqcRingMemCmp dt.rmem nv.vidx value len2).2 = .ok 0 then .twoD else .oneD
        else .oneD
      else .oneD
    else .none
  else .none

/-- There are as many buckets as the next power of two, but only the first `buckets` heads are made empty lists. -/
def xqc2dHashTableCreate (buckets : UInt64) (heads : UInt64 → List Node) : Hash2d where
  mask := xqcPow2Upper buckets - 1
  list := fun b => if buckets ≤ b ∧ b < xqcPow2Upper buckets then heads b else []

def xqcDtableCreate (buckets : UInt64) (heads : UInt64 → List Node) (garbage : Nat → Slot) (freed : Ptr → Slot) (mem : Mem) :
    Dtable where
  ht2d := xqc2dHashTableCreate buckets heads
  entries := ⟨garbage, 0, 1, 0, 0, 0⟩
  freed := freed
  rmem := ⟨mem, 0, 0 - 1, 0, 0, 0⟩
  insertCnt := 0
  firstIdx := 0
  capacity := 0
  used := 0
  byteSum := 0
  minRef := ⊤

def Dtable.setSlot (dt : Dtable) (i : Nat) (e : Slot) : Dtable :=
  { dt with entries := { dt.entries with buf := fun j => if j = i then e else dt.entries.buf j } }

/-- The entry at `i` gets its name and its value, unless the latter is empty. -/
def xqcDtableEnqueueNv (dt : Dtable) (i : Nat) (name : Mem) (nlen : UInt64) (value : Mem) (vlen : UInt64) : Out Unit :=
  match (xqcRingMemEnqueue dt.rmem name nlen).2 with
  | .error _ => (dt, .error .limit)
  | .ok (rmem, nidx) =>
    let e := dt.entries.buf i
    if vlen > 0 then
      match (xqcRingMemEnqueue rmem value vlen).2 with
      | .error _ => ({ dt with rmem := rmem }.setSlot i { e with nv := { e.nv with nidx := nidx } }, .error .limit)
      | .ok (rmem, vidx) => ({ dt with rmem := rmem }.setSlot i { e with nv := ⟨nidx, nlen, vidx, vlen⟩ }, .ok ())
    else ({ dt with rmem := rmem }.setSlot i { e with nv := ⟨nidx, nlen, e.nv.vidx, vlen⟩ }, .ok ())

def xqcDtableDequeueNv (rmem : Rmem) (nv : Nv) : Rmem × Except Err Unit :=
  match if nv.nlen > 0 then xqcRingMemDequeue rmem nv.nidx nv.nlen else .ok rmem with
  | .error _ => (rmem, .error .param)
  | .ok rmem =>
    match if nv.vlen > 0 then xqcRingMemDequeue rmem nv.vidx nv.vlen else .ok rmem with
    | .error _ => (rmem, .error .param)
    | .ok rmem => (rmem, .ok ())

/-- The node is removed under the places of the name and the value, not under their hashes. -/
def xqcDtablePopEntry (dt : Dtable) : Out Unit :=
  match xqcRarrayFront dt.entries with
  | none => (dt, .error .voidEntry)
  | some i =>
    let e := dt.entries.buf i
    if (e.absIndex : WithTop Nat) ≥ dt.minRef then (dt, .error .referred)
    else
      match xqcDtableDequeueNv dt.rmem e.nv with
      | (rmem, .error err) => ({ dt with rmem := rmem }, .error err)
      | (rmem, .ok ()) =>
        let ht2d := xqc2dHashTableRemove dt.ht2d dt.sameEntry e.nv.nidx e.nv.vidx ⟨dt.entries.gen, i⟩
        match xqcRarrayPopFront dt.entries with
        | none => ({ dt with rmem := rmem, ht2d := ht2d }, .error .voidEntry)
        | some entries =>
          ({ dt with
              rmem := rmem, ht2d := ht2d, entries := entries
              used := dt.used - xqcDtableEntrySize e.nv.nlen.toNat e.nv.vlen.toNat
              firstIdx := dt.firstIdx + 1 }, .ok ())

def xqcDtableGetEntryByAbsIdx (dt : Dtable) (idx : Nat) : Option Nat :=
  if idx < dt.firstIdx then none else xqcRarrayGet dt.entries (idx - dt.firstIdx)

/-- `while (space > dt->capacity - dt->used)`; every round takes an entry. -/
def popLoop (space : Nat) : Nat → Dtable → Out Unit
  | 0, dt => (dt, if space > dt.capacity - dt.used then .error .voidEntry else .ok ())
  | fuel + 1, dt =>
    if space > dt.capacity - dt.used then
      match xqcDtablePopEntry dt with
      | (dt, .error e) => (dt, .error e)
      | (dt, .ok ()) => popLoop space fuel dt
    else (dt, .ok ())

/-- The lowest entry that is referred to, if making space has to look at it. -/
def lookAtRef (dt : Dtable) (space : Nat) : Option Nat :=
  if dt.capacity - dt.used < space then dt.minRef.recTopCoe none some else none

def xqcDtableMakeSpace (dt : Dtable) (space : Nat) : Out Unit :=
  if space > dt.capacity then (dt, .error .notEnough)
  else
    match lookAtRef dt space with
    | none => popLoop space dt.entries.count dt
    | some ref =>
      match xqcRarrayFront dt.entries with
      | none => (dt, .error .voidEntry)
      | some first =>
        match xqcDtableGetEntryByAbsIdx dt ref with
        | none => (dt, .error .voidEntry)
        | some entry =>
          if dt.capacity - dt.used + ((dt.entries.buf entry).sum - (dt.entries.buf first).sum) < space then
            (dt, .error .notEnough)
          else popLoop space dt.entries.count dt

/-- A new element of the array gets the field, and a node if it has none in its bucket. Without memory for the node the
    element stays, but is not counted. -/
def xqcDtableAdd (dt : Dtable) (name : Mem) (nlen : UInt64) (value : Mem) (vlen : UInt64) (node : Bool) : Out Nat :=
  let space := xqcDtableEntrySize nlen.toNat vlen.toNat
  if nlen = 0 then (dt, .error .param)
  else if space > dt.capacity then (dt, .error .limit)
  else
    match xqcDtableMakeSpace dt space with
    | (dt, .error e) => (dt, .error e)
    | (dt, .ok ()) =>
      match xqcRarrayPush dt.entries with
      | none => (dt, .error .voidEntry)
      | some (entries, i) =>
        match xqcDtableEnqueueNv ({ dt with entries := entries }.setSlot i { zeroSlot with absIndex := dt.insertCnt }) i
            name nlen value vlen with
        | (dt, .error e) => (dt, .error e)
        | (dt, .ok ()) =>
          let nhash := xqcHashString name nlen
          let vhash := xqcDtableMakeValueHash value vlen
          let e := dt.entries.buf i
          match xqc2dHashTableAdd dt.ht2d dt.sameEntry nhash vhash ⟨dt.entries.gen, i⟩ node with
          | .error err => (dt, .error err)
          | .ok ht2d =>
            let dt := { dt with ht2d }.setSlot i { e with nhash := nhash, vhash := vhash, sum := dt.byteSum }
            ({ dt with insertCnt := dt.insertCnt + 1, used := dt.used + space, byteSum := dt.byteSum + space },
              .ok e.absIndex)

/-- A copy into a buffer that has the room; no copy of nothing. -/
def copyPart (rmem : Rmem) (pos len : UInt64) : Except Err (List UInt8) :=
  if len > 0 then
    match (xqcRingMemCopy rmem pos len .user (fun _ => 0) 0 len).2 with
    | .error _ => .error .param
    | .ok out => .ok (slice out 0 len.toNat)
  else .ok []

def xqcDtableGetNv (dt : Dtable) (idx : Nat) : Except Err (List UInt8 × List UInt8) :=
  match xqcDtableGetEntryByAbsIdx dt idx with
  | none => .error .voidEntry
  | some i =>
    let nv := (dt.entries.buf i).nv
    match copyPart dt.rmem nv.nidx nv.nlen with
    | .error e => .error e
    | .ok name =>
      match copyPart dt.rmem nv.vidx nv.vlen with
      | .error e => .error e
      | .ok value => .ok (name, value)

def memOf (bytes : List UInt8) : Mem := fun i => bytes.getD i 0

def xqcDtableDuplicate (dt : Dtable) (idx : Nat) (node : Bool) : Out Nat :=
  match xqcDtableGetNv dt idx with
  | .error _ => (dt, .error .voidEntry)
  | .ok (name, value) =>
    match xqcDtableMakeSpace dt (xqcDtableEntrySize name.length value.length) with
    | (dt, .error _) => (dt, .error .limit)
    | (dt, .ok ()) =>
      xqcDtableAdd dt (memOf name) (UInt64.ofNat name.length) (memOf value) (UInt64.ofNat value.length) node

inductive RefType where
  | none
  | name
  | nameAndValue
  deriving DecidableEq, Repr

/-- What is found, and the absolute index of the entry. -/
def xqcDtableLookup (dt : Dtable) (name : Mem) (nlen : UInt64) (value : Mem) (vlen : UInt64) : RefType × Nat :=
  if dt.used = 0 then (.none, 0)
  else
    match xqc2dHashLookup dt.ht2d (xqcDtableCompareNv dt name nlen value vlen) (xqcHashString name nlen)
        (xqcDtableMakeValueHash value vlen) with
    | (.oneD, some p) => (.name, (dt.deref p).absIndex)
    | (.twoD, some p) => (.nameAndValue, (dt.deref p).absIndex)
    | _ => (.none, 0)

def xqcDtableSetMinRef (dt : Dtable) (ref : WithTop Nat) : Out Unit :=
  if ref = dt.minRef then (dt, .ok ())
  else
    match xqcRarrayFront dt.entries with
    | none => (dt, .error .voidEntry)
    | some i =>
      let sidx := (dt.entries.buf i).absIndex
      if ref ≠ ⊤ ∧ (ref < sidx ∨ ref ≥ (sidx + dt.entries.count : Nat)) then (dt, .error .voidEntry)
      else ({ dt with minRef := ref }, .ok ())

/-- What the two allocations give, if they give memory. -/
structure Alloc where
  ring : Bool
  array : Bool
  mem : Mem
  slots : Nat → Slot

def resizeBoth (dt : Dtable) (capacity : UInt64) (a : Alloc) : Out Unit :=
  match (xqcRingMemResize dt.rmem capacity a.ring a.mem).2 with
  | .error _ => (dt, .error .resize)
  | .ok rmem =>
    match xqcRarrayResize dt.entries (capacity / 32) a.array a.slots with
    | .error _ => ({ dt with rmem := rmem }, .error .resize)
    | .ok entries => ({ dt with rmem := rmem, entries := entries, capacity := capacity.toNat }, .ok ())

def xqcDtableSetCapacity (dt : Dtable) (capacity : UInt64) (a : Alloc) : Out Unit :=
  match if capacity.toNat < dt.capacity then xqcDtableMakeSpace dt (dt.capacity - capacity.toNat) else (dt, .ok ()) with
  | (dt, .error e) => (dt, .error e)
  | (dt, .ok ()) => resizeBoth dt capacity a

end RlccQuic.Http3.TableMem
