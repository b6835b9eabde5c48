/-
  RlccQuic.Common.RingMem — the ring memory (`ringmem/xqc_ring_mem.c`).

  A buffer whose size is a power of two keeps the bytes between two increasing indices; an index masked by the size less
  one is an offset. Indices and sizes are 64-bit words, so a difference that goes below zero is a huge length. Every
  function gives the stretches of memory that it copies from or to, besides its result.

  Proved: what each function does to a ring that holds a stretch of bytes (`copy_spec`, `cmp_spec`, `enqueue_spec`,
  `dequeue_spec`, `undo_dequeue`, `undo_enqueue`, `resize_spec`), and that to grow a ring that is empty, or whose bytes
  go round the end of the new buffer too, is to copy from outside (`resize_outside`): the code takes the size of the new
  buffer for that of the old one there.
-/

import Mathlib.Data.List.GetD
import RlccQuic.Lib.Cursor
import RlccQuic.Lib.Ring
import RlccQuic.Lib.Word

namespace RlccQuic.Common.RingMem

open Lib Lib.Cursor List UInt64

/-! ## The ring -/

/-- `for(; m < n; m = m << 1);` with a bound on the rounds. -/
def pow2Loop (n : UInt64) : Nat → UInt64 → UInt64
  | 0, m => m
  | fuel + 1, m => if m < n then pow2Loop n fuel (m <<< 1) else m

/-- The least power of two that is at least `n`, or 0. -/
def xqcPow2Upper (n : UInt64) : UInt64 := if n > 0x8000000000000000 then 0 else pow2Loop n 64 1

structure Rmem where
  buf : Mem
  capacity : UInt64
  mask : UInt64
  used : UInt64
  sidx : UInt64
  eidx : UInt64

inductive Err where
  | param
  | nobuf
  | limit
  | malloc
  deriving DecidableEq, Repr

/-- The memory a function is given or makes: the ring's buffer, the one that replaces it, and the caller's. -/
inductive Block where
  | ring
  | fresh
  | user
  deriving DecidableEq, Repr

abbrev Touch := Block × Seg

def touches (into : Block) (d : Nat) (src : Block) (s n : Nat) : List Touch := [(src, ⟨s, n⟩), (into, ⟨d, n⟩)]

/-- `alloc` says whether the memory could be had; what is in it is free. -/
def xqcRingMemCreate (sz : UInt64) (alloc : Bool) (garbage : Mem) : Option Rmem :=
  if sz ≠ 0 then
    if xqcPow2Upper sz = 0 then none
    else if alloc then some ⟨garbage, xqcPow2Upper sz, xqcPow2Upper sz - 1, 0, 0, 0⟩
    else none
  else some ⟨garbage, 0, 0 - 1, 0, 0, 0⟩

/-- The copy goes to `dst` from `d` on, where there is room for `sz` bytes. -/
def xqcRingMemCopy (r : Rmem) (idx len : UInt64) (into : Block) (dst : Mem) (d : Nat) (sz : UInt64) :
    List Touch × Except Err Mem :=
  if sz < len then ([], .error .nobuf)
  else if idx < r.sidx ∨ idx ≥ r.eidx then ([], .error .param)
  else
    let soffset := idx &&& r.mask
    let eoffset := (idx + len) &&& r.mask
    if eoffset > soffset then
      (touches into d .ring soffset.toNat len.toNat, .ok (Ring.copy dst d r.buf soffset.toNat len.toNat))
    else
      let first := (r.capacity - soffset).toNat
      (touches into d .ring soffset.toNat first ++ touches into (d + first) .ring 0 eoffset.toNat,
        .ok (Ring.copy (Ring.copy dst d r.buf soffset.toNat first) (d + first) r.buf 0 eoffset.toNat))

def xqcRingMemEnqueue (r : Rmem) (data : Mem) (len : UInt64) : List Touch × Except Err (Rmem × UInt64) :=
  if len > r.capacity - r.used then ([], .error .limit)
  else
    let soffset := r.eidx &&& r.mask
    let eoffset := (r.eidx + len) &&& r.mask
    if eoffset > soffset then
      (touches .ring soffset.toNat .user 0 len.toNat,
        .ok ({ r with buf := Ring.copy r.buf soffset.toNat data 0 len.toNat
                      eidx := r.eidx + len, used := r.used + len }, r.eidx))
    else
      let first := (r.capacity - soffset).toNat
      (touches .ring soffset.toNat .user 0 first ++ touches .ring 0 .user first eoffset.toNat,
        .ok ({ r with buf := Ring.copy (Ring.copy r.buf soffset.toNat data 0 first) 0 data first eoffset.toNat
                      eidx := r.eidx + len, used := r.used + len }, r.eidx))

def xqcRingMemDequeue (r : Rmem) (idx len : UInt64) : Except Err Rmem :=
  if r.sidx ≠ idx ∨ r.used < len then .error .param
  else .ok { r with sidx := r.sidx + len, used := r.used - len }

def xqcRingMemUndo (r : Rmem) (idx len : UInt64) : Except Err Rmem :=
  if idx < r.sidx then
    if len > r.capacity - r.used ∨ idx ≠ r.sidx - len then .error .param
    else .ok { r with sidx := idx, used := r.used + len }
  else
    if r.used < len ∨ idx ≠ r.eidx - len then .error .param
    else .ok { r with eidx := idx, used := r.used - len }

def memcmp (a : Mem) (p : Nat) (b : Mem) (q n : Nat) : Int :=
  match (List.range n).find? fun i => a (p + i) ≠ b (q + i) with
  | none => 0
  | some i => if a (p + i) < b (q + i) then -1 else 1

/-- `-XQC_EPARAM` is an error, the rest is the result of a comparison. -/
def xqcRingMemCmp (r : Rmem) (idx : UInt64) (data : Mem) (len : UInt64) : List Touch × Except Err Int :=
  if idx < r.sidx ∨ idx + len > r.eidx then ([], .error .param)
  else
    let soffset := idx &&& r.mask
    let eoffset := (idx + len) &&& r.mask
    if soffset < eoffset then
      (touches .user 0 .ring soffset.toNat len.toNat, .ok (memcmp r.buf soffset.toNat data 0 len.toNat))
    else
      let first := (r.capacity - soffset).toNat
      if memcmp r.buf soffset.toNat data 0 first = 0 then
        (touches .user 0 .ring soffset.toNat first ++ touches .user first .ring 0 eoffset.toNat,
          .ok (if memcmp r.buf 0 data first eoffset.toNat = 0 then 0 else -1))
      else (touches .user 0 .ring soffset.toNat first, .ok (-1))

/-- The bytes of a ring that is cut at other places in the new buffer than in the old one. -/
def moveCut (r : Rmem) (mcap soffsetNew : UInt64) (buf : Mem) : List Touch × Mem :=
  let soffsetOri := r.sidx &&& r.mask
  let eoffsetOri := r.eidx &&& r.mask
  let soff := soffsetNew.toNat
  let ori := soffsetOri.toNat
  if soffsetOri < eoffsetOri then
    let sz := mcap - soffsetNew
    let rest := (r.used - sz).toNat
    (touches .fresh soff .ring ori sz.toNat ++ touches .fresh 0 .ring (ori + sz.toNat) rest,
      Ring.copy (Ring.copy buf soff r.buf ori sz.toNat) 0 r.buf (ori + sz.toNat) rest)
  else
    let newSz := mcap - soffsetNew
    let oriSz := mcap - soffsetOri
    if newSz ≥ oriSz then
      let more := (newSz - oriSz).toNat
      let rest := (r.used - newSz).toNat
      (touches .fresh soff .ring ori oriSz.toNat ++ touches .fresh (soff + oriSz.toNat) .ring 0 more ++
          touches .fresh 0 .ring more rest,
        Ring.copy (Ring.copy (Ring.copy buf soff r.buf ori oriSz.toNat) (soff + oriSz.toNat) r.buf 0 more) 0 r.buf more rest)
    else
      let more := (oriSz - newSz).toNat
      let rest := (r.used - oriSz).toNat
      (touches .fresh soff .ring ori newSz.toNat ++ touches .fresh 0 .ring (ori + newSz.toNat) more ++
          touches .fresh more .ring 0 rest,
        Ring.copy (Ring.copy (Ring.copy buf soff r.buf ori newSz.toNat) 0 r.buf (ori + newSz.toNat) more) more r.buf 0 rest)

/-- `alloc` and `garbage` as for `xqcRingMemCreate`. -/
def xqcRingMemResize (r : Rmem) (cap : UInt64) (alloc : Bool) (garbage : Mem) : List Touch × Except Err Rmem :=
  if cap < r.used then ([], .error .param)
  else if cap ≤ r.capacity then ([], .ok r)
  else if xqcPow2Upper cap = 0 then ([], .error .param)
  else if !alloc then ([], .error .malloc)
  else
    let mcap := xqcPow2Upper cap
    if r.capacity ≠ 0 then
      let soffsetNew := r.sidx &&& (mcap - 1)
      let eoffsetNew := r.eidx &&& (mcap - 1)
      if soffsetNew < eoffsetNew then
        match xqcRingMemCopy r r.sidx r.used .fresh garbage soffsetNew.toNat (mcap - soffsetNew) with
        | (ts, .error e) => (ts, .error e)
        | (ts, .ok buf) => (ts, .ok { r with buf := buf, capacity := mcap, mask := mcap - 1 })
      else
        let (ts, buf) := moveCut r mcap soffsetNew garbage
        (ts, .ok { r with buf := buf, capacity := mcap, mask := mcap - 1 })
    else ([], .ok { r with buf := garbage, capacity := mcap, mask := mcap - 1 })

/-! ## Powers of two and masks -/

lemma pow2Loop_spec {n : UInt64} (hn : n.toNat ≤ 2 ^ 63) : ∀ (fuel k : Nat) (m : UInt64), m.toNat = 2 ^ k → k ≤ 63 →
    64 ≤ k + fuel → ∃ j, j ≤ 63 ∧ (pow2Loop n fuel m).toNat = 2 ^ j ∧ n.toNat ≤ 2 ^ j
  | 0, k, m, _, hk, hfuel => by omega
  | fuel + 1, k, m, hm, hk, hfuel => by
    unfold pow2Loop; split
    · rename_i hlt; rw [lt_iff_toNat_lt, hm] at hlt
      have hk' : k < 63 := (Nat.pow_lt_pow_iff_right (by decide)).mp (hlt.trans_le hn)
      refine pow2Loop_spec hn fuel (k + 1) (m <<< 1) ?_ (by omega) (by omega)
      rw [UInt64.toNat_shiftLeft, hm]
      show 2 ^ k <<< 1 % 2 ^ 64 = 2 ^ (k + 1)
      rw [Nat.shiftLeft_eq, Nat.pow_one, ← Nat.pow_succ, Nat.mod_eq_of_lt (by omega)]
    · rename_i hge; rw [lt_iff_toNat_lt, hm] at hge; exact ⟨k, hk, hm, by omega⟩

lemma xqcPow2Upper_spec {n : UInt64} (h : xqcPow2Upper n ≠ 0) :
    ∃ j, j ≤ 63 ∧ (xqcPow2Upper n).toNat = 2 ^ j ∧ n.toNat ≤ 2 ^ j := by
  unfold xqcPow2Upper at h ⊢; split
  · rename_i hbig; rw [if_pos hbig] at h; exact absurd rfl h
  · rename_i hsmall
    refine pow2Loop_spec ?_ 64 0 1 rfl (by omega) (by omega)
    exact Nat.not_lt.mp hsmall

lemma toNat_and_mask {x c : UInt64} {k : Nat} (hc : c.toNat = 2 ^ k) :
    (x &&& (c - 1)).toNat = x.toNat % c.toNat := by
  have h1 : (1 : UInt64) ≤ c := by
    rw [le_iff_toNat_le, hc]; exact Nat.one_le_two_pow
  rw [UInt64.toNat_and, UInt64.toNat_sub_of_le _ _ h1, hc]
  exact Nat.and_two_pow_sub_one_eq_mod _ _

/-! ## What a ring holds -/

/-- The ring keeps the bytes of `log` from `front` on: those from `sidx` on are in use,
    and those before were given back by the last operation. -/
structure Rmem.Good (r : Rmem) (front : Nat) (log : List UInt8) : Prop where
  pow : r.capacity = 0 ∨ ∃ k, k ≤ 63 ∧ r.capacity.toNat = 2 ^ k
  mask : r.mask = r.capacity - 1
  used : r.used.toNat + r.sidx.toNat = r.eidx.toNat
  front_le : front ≤ r.sidx.toNat
  fits : r.eidx.toNat ≤ front + r.capacity.toNat
  length : log.length = r.eidx.toNat
  holds : Ring.Holds r.buf r.capacity.toNat front r.eidx.toNat fun i => log.getD i 0

def Inside (size : Block → Nat) (ts : List Touch) : Prop := ∀ t ∈ ts, t.2.Within 0 (size t.1)

variable {r : Rmem} {front : Nat} {log : List UInt8} {size : Block → Nat}

lemma Rmem.Good.used_le (h : r.Good front log) : r.used ≤ r.capacity := by
  have := h.used
  have := h.front_le
  have := h.fits
  rw [le_iff_toNat_le]; omega

lemma Rmem.Good.offset (h : r.Good front log) (h0 : r.capacity ≠ 0) (x : UInt64) :
    (x &&& r.mask).toNat = x.toNat % r.capacity.toNat := by
  rcases h.pow with hz | ⟨k, -, hc⟩
  · exact absurd hz h0
  · rw [h.mask]; exact toNat_and_mask hc

lemma inside_nil : Inside size [] := fun _ h => (not_mem_nil h).elim

lemma inside_append {ts us : List Touch} (h1 : Inside size ts) (h2 : Inside size us) : Inside size (ts ++ us) :=
  fun t ht => (mem_append.mp ht).elim (h1 t) (h2 t)

lemma inside_touches {into src : Block} {d s n : Nat} (h1 : d + n ≤ size into) (h2 : s + n ≤ size src) :
    Inside size (touches into d src s n) := by
  intro t ht
  rcases mem_cons.mp ht with rfl | ht
  · exact .inr ⟨Nat.zero_le _, h2⟩
  · obtain rfl := mem_singleton.mp ht
    exact .inr ⟨Nat.zero_le _, h1⟩

/-! ## Reading -/

section Window

variable {idx len : UInt64}

lemma Rmem.Good.window (h : r.Good front log) (h0 : r.capacity ≠ 0) (hsum : idx.toNat + len.toNat < 2 ^ 64) :
    (idx &&& r.mask).toNat = idx.toNat % r.capacity.toNat ∧
      ((idx + len) &&& r.mask).toNat = (idx.toNat + len.toNat) % r.capacity.toNat ∧
      (r.capacity - (idx &&& r.mask)).toNat = r.capacity.toNat - idx.toNat % r.capacity.toNat ∧
      idx.toNat % r.capacity.toNat < r.capacity.toNat := by
  have hpos : 0 < r.capacity.toNat := by
    rcases Nat.eq_zero_or_pos r.capacity.toNat with hz | hpos
    · exact absurd (UInt64.toNat_inj.mp hz) h0
    · exact hpos
  have hlt : idx.toNat % r.capacity.toNat < r.capacity.toNat := Nat.mod_lt _ hpos
  have hoff := h.offset h0 idx
  refine ⟨hoff, ?_, ?_, hlt⟩
  · rw [h.offset h0, UInt64.toNat_add, Nat.mod_eq_of_lt hsum]
  · rw [UInt64.toNat_sub_of_le _ _ (by rw [UInt64.le_iff_toNat_le]; omega), hoff]

lemma capacity_ne_zero (hlen : 1 ≤ len.toNat) (hle : len.toNat ≤ r.capacity.toNat) : r.capacity ≠ 0 := by
  intro hz; rw [hz] at hle
  have : (0 : UInt64).toNat = 0 := rfl
  omega

theorem copy_spec (size : Block → Nat) (h : r.Good front log) (into : Block) (dst : Mem) (d : Nat) {sz : UInt64}
    (hidx : r.sidx ≤ idx)
    (hlen : 1 ≤ len.toNat) (hend : idx.toNat + len.toNat ≤ r.eidx.toNat) (hsz : len ≤ sz) :
    ∃ ts, xqcRingMemCopy r idx len into dst d sz =
        (ts, .ok (Ring.read dst d r.buf r.capacity.toNat idx.toNat len.toNat)) ∧
      (size .ring = r.capacity.toNat → d + len.toNat ≤ size into → Inside size ts) := by
  have hle : len.toNat ≤ r.capacity.toNat := by
    have := le_iff_toNat_le.mp hidx
    have := h.front_le
    have := h.fits; omega
  obtain ⟨hs, he, hfirst, hlt⟩ := h.window (capacity_ne_zero hlen hle) (show idx.toNat + len.toNat < 2 ^ 64 from
    hend.trans_lt r.eidx.toNat_lt)
  have hguard : ¬ (idx < r.sidx ∨ idx ≥ r.eidx) := by
    rw [le_iff_toNat_le] at hidx
    rw [ge_iff_le, lt_iff_toNat_lt, le_iff_toNat_le]; omega
  unfold xqcRingMemCopy Ring.read; rw [if_neg (UInt64.not_lt.mpr hsz), if_neg hguard]
  dsimp only; rw [hs, he, hfirst]
  rcases Ring.one_piece_or_two idx.toNat hlen hle with ⟨hone, hin⟩ | ⟨htwo, hsum⟩
  · rw [if_pos (by rw [gt_iff_lt, lt_iff_toNat_lt, hs, he]; exact hone), if_pos hone]
    exact ⟨_, rfl, fun hring hinto => inside_touches hinto (by omega)⟩
  · rw [if_neg (by rw [gt_iff_lt, lt_iff_toNat_lt, hs, he]; exact htwo), if_neg htwo]
    refine ⟨_, rfl, fun hring hinto => inside_append ?_ ?_⟩
    · exact inside_touches (by omega) (by omega)
    · exact inside_touches (by omega) (by omega)

lemma memcmp_eq_zero_iff (a b : Mem) (p q n : Nat) : memcmp a p b q n = 0 ↔ ∀ i, i < n → a (p + i) = b (q + i) := by
  unfold memcmp
  cases hf : (List.range n).find? fun i => a (p + i) ≠ b (q + i) with
  | none =>
    rw [find?_eq_none] at hf
    refine iff_of_true rfl fun i hi => ?_
    have := hf i (mem_range.mpr hi)
    simpa using this
  | some i =>
    have hdiff := find?_some hf
    have hmem := mem_range.mp (mem_of_find?_eq_some hf)
    refine iff_of_false ?_ fun hall => ?_
    · dsimp only
      split <;> decide
    · simp [hall i hmem] at hdiff

theorem cmp_spec (size : Block → Nat) (h : r.Good front log) (data : Mem) (hidx : r.sidx ≤ idx) (hlen : 1 ≤ len.toNat)
    (hend : idx.toNat + len.toNat ≤ r.eidx.toNat) :
    ∃ ts c, xqcRingMemCmp r idx data len = (ts, .ok c) ∧
      (c = 0 ↔ ∀ i, i < len.toNat → log.getD (idx.toNat + i) 0 = data i) ∧
      (size .ring = r.capacity.toNat → len.toNat ≤ size .user → Inside size ts) := by
  have hstart := le_iff_toNat_le.mp hidx
  have hfront := h.front_le
  have hfits := h.fits
  have hle : len.toNat ≤ r.capacity.toNat := by omega
  have hsum : idx.toNat + len.toNat < 2 ^ 64 := hend.trans_lt r.eidx.toNat_lt
  obtain ⟨hs, he, hfirst, hlt⟩ := h.window (capacity_ne_zero hlen hle) hsum
  have hguard : ¬ (idx < r.sidx ∨ idx + len > r.eidx) := by
    rw [gt_iff_lt, UInt64.lt_iff_toNat_lt, UInt64.lt_iff_toNat_lt, UInt64.toNat_add, Nat.mod_eq_of_lt hsum]
    omega
  have hlog : (∀ i, i < len.toNat → log.getD (idx.toNat + i) 0 = data i) ↔
      ∀ i, i < len.toNat → r.buf ((idx.toNat + i) % r.capacity.toNat) = data i := by
    refine forall₂_congr fun i hi => ?_
    rw [h.holds (idx.toNat + i) (by omega) (by omega)]
  unfold xqcRingMemCmp; rw [if_neg hguard]
  dsimp only; rw [hs, he, hfirst]
  rcases Ring.one_piece_or_two idx.toNat hlen hle with ⟨hone, hin⟩ | ⟨htwo, hcut⟩
  · rw [if_pos (by rw [lt_iff_toNat_lt, hs, he]; exact hone)]
    refine ⟨_, _, rfl, ?_, fun hring huser => inside_touches (by omega) (by omega)⟩
    rw [memcmp_eq_zero_iff, hlog]
    simp only [Nat.zero_add]
    exact Ring.forall_one_piece (P := fun j i => r.buf j = data i) hlen hle hone
  · rw [if_neg (by rw [lt_iff_toNat_lt, hs, he]; exact htwo)]
    have hparts := Ring.forall_two_pieces (P := fun j i => r.buf j = data i) hlen hle htwo
    simp only [← hlog] at hparts; split
    · rename_i hfirstEq; rw [memcmp_eq_zero_iff] at hfirstEq
      simp only [Nat.zero_add] at hfirstEq
      refine ⟨_, _, rfl, ?_, fun hring huser => inside_append ?_ ?_⟩
      · rw [← hparts, and_iff_right hfirstEq]; split
        · rename_i hrest; rw [memcmp_eq_zero_iff] at hrest
          simp only [Nat.zero_add] at hrest; exact iff_of_true rfl hrest
        · rename_i hrest; rw [memcmp_eq_zero_iff] at hrest
          simp only [Nat.zero_add] at hrest; exact iff_of_false (by decide) hrest
      · exact inside_touches (by omega) (by omega)
      · exact inside_touches (by omega) (by omega)
    · rename_i hfirstNe; rw [memcmp_eq_zero_iff] at hfirstNe
      simp only [Nat.zero_add] at hfirstNe
      refine ⟨_, _, rfl, iff_of_false (by decide) fun hall => hfirstNe (hparts.mpr hall).1, fun hring huser => ?_⟩
      exact inside_touches (by omega) (by omega)

/-! ## Writing -/

lemma length_slice (mem : Mem) (p n : Nat) : (slice mem p n).length = n := by simp [slice]

lemma getD_slice (mem : Mem) {p n k : Nat} (hk : k < n) : (slice mem p n).getD k 0 = mem (p + k) := by
  simp [slice, getD_eq_getElem?_getD, hk]

lemma slice_eq_iff (mem : Mem) (xs : List UInt8) :
    slice mem 0 xs.length = xs ↔ ∀ k, k < xs.length → xs.getD k 0 = mem k := by
  constructor
  · intro h k hk; rw [← h, getD_slice mem hk, Nat.zero_add]
  · intro h
    refine ext_getElem (length_slice _ _ _) fun k h1 h2 => ?_
    have := h k h2
    rw [getD_eq_getElem _ _ h2] at this
    rw [this, ← getD_eq_getElem _ 0 h1, getD_slice mem h2, Nat.zero_add]

lemma enqueue_full (data : Mem) (hfull : len > r.capacity - r.used) :
    xqcRingMemEnqueue r data len = ([], .error .limit) := by
  rw [xqcRingMemEnqueue, if_pos hfull]

/-- Bytes that fit are put behind the others, and the ring gives up what is before `sidx`. -/
theorem enqueue_spec (size : Block → Nat) (h : r.Good front log) (data : Mem) (hlen : 1 ≤ len.toNat)
    (hfit : len ≤ r.capacity - r.used) (hidx : r.eidx.toNat + len.toNat < 2 ^ 64) :
    ∃ ts r', xqcRingMemEnqueue r data len = (ts, .ok (r', r.eidx)) ∧
      r'.Good r.sidx.toNat (log ++ slice data 0 len.toNat) ∧ r'.sidx = r.sidx ∧ r'.capacity = r.capacity ∧
      (size .ring = r.capacity.toNat → size .user = len.toNat → Inside size ts) := by
  have hused := h.used
  have hfront := h.front_le
  have hroom : len.toNat ≤ r.capacity.toNat - r.used.toNat := by
    have := le_iff_toNat_le.mp hfit
    rwa [UInt64.toNat_sub_of_le _ _ h.used_le] at this
  have hle : len.toNat ≤ r.capacity.toNat := by omega
  obtain ⟨hs, he, hfirst, hlt⟩ := h.window (capacity_ne_zero hlen hle) hidx
  have hend : (r.eidx + len).toNat = r.eidx.toNat + len.toNat := by rw [UInt64.toNat_add, Nat.mod_eq_of_lt hidx]
  have hnow : (r.used + len).toNat = r.used.toNat + len.toNat := by
    rw [UInt64.toNat_add, Nat.mod_eq_of_lt (by omega)]
  have hheld : Ring.Holds (Ring.write r.buf r.capacity.toNat r.eidx.toNat len.toNat data) r.capacity.toNat r.sidx.toNat
      (r.eidx.toNat + len.toNat) fun i => (log ++ slice data 0 len.toNat).getD i 0 := by
    have hold : Ring.Holds r.buf r.capacity.toNat r.sidx.toNat r.eidx.toNat
        fun i => (log ++ slice data 0 len.toNat).getD i 0 := by
      refine (h.holds.mono hfront le_rfl).congr fun i _ hi => ?_
      exact getD_append _ _ _ _ (by rw [h.length]; exact hi)
    refine hold.write (by omega) hlen (by omega) fun k hk => ?_
    rw [getD_append_right _ _ _ _ (by rw [h.length]; omega), h.length, Nat.add_sub_cancel_left, getD_slice _ hk,
      Nat.zero_add]
  have hgood : ∀ buf, buf = Ring.write r.buf r.capacity.toNat r.eidx.toNat len.toNat data →
      Rmem.Good { r with buf := buf, eidx := r.eidx + len, used := r.used + len } r.sidx.toNat
        (log ++ slice data 0 len.toNat) := by
    rintro buf rfl
    refine ⟨h.pow, h.mask, ?_, le_rfl, ?_, ?_, ?_⟩
    · show (r.used + len).toNat + r.sidx.toNat = (r.eidx + len).toNat; omega
    · show (r.eidx + len).toNat ≤ r.sidx.toNat + r.capacity.toNat; omega
    · show _ = (r.eidx + len).toNat
      rw [length_append, h.length, length_slice, hend]
    · show Ring.Holds _ _ _ (r.eidx + len).toNat _; rw [hend]; exact hheld
  unfold xqcRingMemEnqueue; rw [if_neg (UInt64.not_lt.mpr hfit)]
  dsimp only; rw [hs, he, hfirst]
  rcases Ring.one_piece_or_two r.eidx.toNat hlen hle with ⟨hone, hin⟩ | ⟨htwo, hcut⟩
  · rw [if_pos (by rw [gt_iff_lt, lt_iff_toNat_lt, hs, he]; exact hone)]
    refine ⟨_, _, rfl, hgood _ ?_, rfl, rfl, fun hring huser => inside_touches (by omega) (by omega)⟩
    rw [Ring.write, if_pos hone]
  · rw [if_neg (by rw [gt_iff_lt, lt_iff_toNat_lt, hs, he]; exact htwo)]
    refine ⟨_, _, rfl, hgood _ ?_, rfl, rfl, fun hring huser => inside_append ?_ ?_⟩
    · rw [Ring.write, if_neg htwo]
    · exact inside_touches (by omega) (by omega)
    · exact inside_touches (by omega) (by omega)

/-! ## Giving back -/

theorem dequeue_spec (h : r.Good front log) {r' : Rmem} (hok : xqcRingMemDequeue r idx len = .ok r') :
    idx = r.sidx ∧ r'.sidx.toNat = r.sidx.toNat + len.toNat ∧ r'.eidx = r.eidx ∧ r'.capacity = r.capacity ∧
      r'.Good r.sidx.toNat log := by
  unfold xqcRingMemDequeue at hok; split at hok
  · cases hok
  · rename_i hguard
    obtain ⟨hidx, hle⟩ := not_or.mp hguard
    have hle := UInt64.not_lt.mp hle
    obtain rfl := Except.ok.inj hok
    have hused := h.used
    have hfront := h.front_le
    have hfits := h.fits
    have hlen := le_iff_toNat_le.mp hle
    have hend := r.eidx.toNat_lt
    have hs : (r.sidx + len).toNat = r.sidx.toNat + len.toNat := by
      rw [UInt64.toNat_add, Nat.mod_eq_of_lt (by omega)]
    refine ⟨(not_not.mp hidx).symm, hs, rfl, rfl, h.pow, h.mask, ?_, ?_, ?_, h.length,
      h.holds.mono hfront le_rfl⟩
    · show (r.used - len).toNat + (r.sidx + len).toNat = r.eidx.toNat
      rw [UInt64.toNat_sub_of_le _ _ hle, hs]; omega
    · show r.sidx.toNat ≤ (r.sidx + len).toNat; omega
    · show r.eidx.toNat ≤ r.sidx.toNat + r.capacity.toNat; omega

lemma undo_nothing (r : Rmem) : xqcRingMemUndo r r.sidx 0 = .error .param ∨ xqcRingMemUndo r r.sidx 0 = .ok r := by
  unfold xqcRingMemUndo; rw [if_neg (UInt64.lt_irrefl _)]
  split
  · exact .inl rfl
  · rename_i hguard
    have he : r.sidx = r.eidx := by simpa using (not_or.mp hguard).2
    refine .inr (congrArg Except.ok ?_)
    cases r; cases he
    rw [UInt64.sub_zero]

theorem undo_dequeue (h : r.Good idx.toNat log) (hlen : 1 ≤ len.toNat) (hidx : idx.toNat + len.toNat = r.sidx.toNat) :
    ∃ r', xqcRingMemUndo r idx len = .ok r' ∧ r'.sidx = idx ∧ r'.eidx = r.eidx ∧ r'.capacity = r.capacity ∧
      r'.Good idx.toNat log := by
  have hused := h.used
  have hfits := h.fits
  have hcap := r.capacity.toNat_lt
  have hback : idx = r.sidx - len := by
    apply UInt64.toNat_inj.mp
    rw [UInt64.toNat_sub_of_le _ _ (UInt64.le_iff_toNat_le.mpr (by omega))]; omega
  have hroom : ¬ (len > r.capacity - r.used ∨ idx ≠ r.sidx - len) := by
    rw [gt_iff_lt, UInt64.lt_iff_toNat_lt, UInt64.toNat_sub_of_le _ _ h.used_le]
    exact not_or.mpr ⟨by omega, not_not.mpr hback⟩
  unfold xqcRingMemUndo; rw [if_pos (lt_iff_toNat_lt.mpr (by omega)), if_neg hroom]
  refine ⟨_, rfl, rfl, rfl, rfl, h.pow, h.mask, ?_, le_rfl, h.fits, h.length, h.holds⟩
  show (r.used + len).toNat + idx.toNat = r.eidx.toNat
  rw [UInt64.toNat_add, Nat.mod_eq_of_lt (by omega)]; omega

theorem undo_enqueue (h : r.Good front log) (hidx : r.sidx ≤ idx) (hend : idx.toNat + len.toNat = r.eidx.toNat) :
    ∃ r', xqcRingMemUndo r idx len = .ok r' ∧ r'.sidx = r.sidx ∧ r'.eidx = idx ∧ r'.capacity = r.capacity ∧
      r'.Good front (log.take idx.toNat) := by
  have hused := h.used
  have hfits := h.fits
  have hfront := h.front_le
  have hstart := le_iff_toNat_le.mp hidx
  have hback : idx = r.eidx - len := by
    apply UInt64.toNat_inj.mp
    rw [UInt64.toNat_sub_of_le _ _ (UInt64.le_iff_toNat_le.mpr (by omega))]; omega
  have hle : len ≤ r.used := le_iff_toNat_le.mpr (by omega)
  unfold xqcRingMemUndo
  rw [if_neg (UInt64.not_lt.mpr hidx), if_neg (not_or.mpr ⟨UInt64.not_lt.mpr hle, not_not.mpr hback⟩)]
  refine ⟨_, rfl, rfl, rfl, rfl, h.pow, h.mask, ?_, hfront, ?_, ?_, ?_⟩
  · show (r.used - len).toNat + r.sidx.toNat = idx.toNat; rw [UInt64.toNat_sub_of_le _ _ hle]; omega
  · show idx.toNat ≤ front + r.capacity.toNat; omega
  · show (log.take idx.toNat).length = idx.toNat; rw [length_take, h.length]; omega
  · show Ring.Holds r.buf r.capacity.toNat front idx.toNat _
    refine (h.holds.mono le_rfl (by omega)).congr fun i _ hi => ?_
    simp [getD_eq_getElem?_getD, hi]

end Window

/-! ## Growing -/

/-- The bytes do not reach the last cell of the new buffer. -/
def Rmem.Uncut (r : Rmem) (mcap : UInt64) : Prop := r.sidx.toNat % mcap.toNat < r.eidx.toNat % mcap.toNat

instance (r : Rmem) (mcap : UInt64) : Decidable (r.Uncut mcap) := inferInstanceAs (Decidable (_ < _))

/-- A ring that has a buffer grows only while its bytes are not cut in the new one. -/
def Rmem.Grows (r : Rmem) (cap : UInt64) : Prop :=
  cap ≤ r.capacity ∨ xqcPow2Upper cap = 0 ∨ r.capacity = 0 ∨ r.Uncut (xqcPow2Upper cap)

instance (r : Rmem) (cap : UInt64) : Decidable (r.Grows cap) := inferInstanceAs (Decidable (_ ∨ _))

lemma Rmem.Good.settle (h : r.Good front log) : r.Good r.sidx.toNat log := by
  have hfront := h.front_le
  have hfits := h.fits
  exact ⟨h.pow, h.mask, h.used, le_rfl, by omega, h.length, h.holds.mono hfront le_rfl⟩

lemma Rmem.Good.replace (h : r.Good front log) {mcap : UInt64} {buf : Mem} {k : Nat} (hk : k ≤ 63)
    (hmcap : mcap.toNat = 2 ^ k) (hle : r.used.toNat ≤ mcap.toNat)
    (hholds : Ring.Holds buf mcap.toNat r.sidx.toNat r.eidx.toNat fun i => log.getD i 0) :
    Rmem.Good { r with buf := buf, capacity := mcap, mask := mcap - 1 } r.sidx.toNat log := by
  have hused := h.used
  refine ⟨.inr ⟨k, hk, hmcap⟩, rfl, h.used, le_rfl, ?_, h.length, hholds⟩
  show r.eidx.toNat ≤ r.sidx.toNat + mcap.toNat
  omega

theorem resize_spec (size : Block → Nat) (h : r.Good front log) {cap : UInt64} (alloc : Bool) (garbage : Mem)
    (hgrows : r.Grows cap) :
    (∃ e, xqcRingMemResize r cap alloc garbage = ([], .error e)) ∨
      ∃ ts r', xqcRingMemResize r cap alloc garbage = (ts, .ok r') ∧ r'.sidx = r.sidx ∧ r'.eidx = r.eidx ∧
        r'.Good r.sidx.toNat log ∧ cap ≤ r'.capacity ∧
        (size .ring = r.capacity.toNat → size .fresh = r'.capacity.toNat → Inside size ts) := by
  have hused := h.used
  have husedLe := le_iff_toNat_le.mp h.used_le
  unfold xqcRingMemResize; split
  · exact .inl ⟨_, rfl⟩
  split
  · rename_i hsmall; exact .inr ⟨_, _, rfl, rfl, rfl, h.settle, hsmall, fun _ _ => inside_nil⟩
  rename_i hlarger
  split
  · exact .inl ⟨_, rfl⟩
  rename_i hpow
  split
  · exact .inl ⟨_, rfl⟩
  obtain ⟨k, hk, hmcap, hupper⟩ := xqcPow2Upper_spec hpow
  have hgrown : r.capacity.toNat < (xqcPow2Upper cap).toNat := by
    have := UInt64.not_le.mp hlarger
    rw [lt_iff_toNat_lt] at this; omega
  have hcap : cap ≤ xqcPow2Upper cap := le_iff_toNat_le.mpr (by omega)
  split
  · rename_i hbuffer
    have huncut : r.Uncut (xqcPow2Upper cap) := by
      rcases hgrows with hle | hz | hz | huncut
      · exact absurd hle hlarger
      · exact absurd hz hpow
      · exact absurd hz hbuffer
      · exact huncut
    have hroom := Ring.uncut_room (by omega) (by omega) huncut
    have hne : r.sidx.toNat ≠ r.eidx.toNat := fun he => Nat.ne_of_lt huncut (by rw [he])
    have hlen : r.eidx.toNat - r.sidx.toNat = r.used.toNat := by omega
    have hsoff : (r.sidx &&& (xqcPow2Upper cap - 1)).toNat = r.sidx.toNat % (xqcPow2Upper cap).toNat := toNat_and_mask hmcap
    have heoff : (r.eidx &&& (xqcPow2Upper cap - 1)).toNat = r.eidx.toNat % (xqcPow2Upper cap).toNat := toNat_and_mask hmcap
    have hsz : r.used ≤ xqcPow2Upper cap - (r.sidx &&& (xqcPow2Upper cap - 1)) := by
      rw [UInt64.le_iff_toNat_le, UInt64.toNat_sub_of_le _ _ (UInt64.le_iff_toNat_le.mpr (by omega)), hsoff]
      omega
    obtain ⟨ts, hcopy, hinside⟩ := copy_spec size h .fresh garbage
      (r.sidx &&& (xqcPow2Upper cap - 1)).toNat (UInt64.le_refl r.sidx) (by omega) (by omega) hsz
    rw [if_pos (lt_iff_toNat_lt.mpr (by rw [hsoff, heoff]; exact huncut)), hcopy]
    refine .inr ⟨_, _, rfl, rfl, rfl, ?_, hcap, fun hring hfresh => hinside hring ?_⟩
    · refine h.replace hk hmcap (by omega) ?_
      rw [hsoff, ← hlen]
      exact h.settle.holds.move garbage (by omega) (by omega) (by omega) huncut
    · rw [hfresh, hsoff]; show _ ≤ (xqcPow2Upper cap).toNat; omega
  · rename_i hnone
    have hzero : r.capacity.toNat = 0 := by rw [not_not.mp hnone]; rfl
    exact .inr ⟨_, _, rfl, rfl, rfl, h.replace hk hmcap (by omega) fun i _ _ => by omega, hcap, fun _ _ => inside_nil⟩

/-- Bytes in one piece of a buffer are in one piece of a buffer whose size is a multiple. -/
lemma uncut_of_multiple {lo hi cap mcap : Nat} (hdvd : cap ∣ mcap) (hle : lo ≤ hi) (hlt : hi ≤ lo + cap)
    (h : lo % cap < hi % cap) : lo % mcap < hi % mcap := by
  obtain ⟨m, rfl⟩ := hdvd
  have hdiv : lo / cap = hi / cap := by
    have h1 := Nat.div_add_mod lo cap
    have h2 := Nat.div_add_mod hi cap
    have hq : lo / cap ≤ hi / cap := Nat.div_le_div_right hle
    rcases Nat.lt_or_eq_of_le hq with hlt' | heq
    · have : cap * (lo / cap) + cap ≤ cap * (hi / cap) := by
        exact Nat.mul_le_mul_left cap hlt'
      omega
    · exact heq
  rw [Nat.mod_mul, Nat.mod_mul, hdiv]; omega

/-- A ring that grows while its bytes are cut in the new buffer, or while it has none, is
    copied from outside its buffer. -/
theorem resize_outside (h : r.Good front log) {cap : UInt64} (garbage : Mem) (hused : r.used ≤ cap)
    (hgrows : ¬ r.Grows cap) (hring : size .ring = r.capacity.toNat) :
    ¬ Inside size (xqcRingMemResize r cap true garbage).1 := by
  obtain ⟨hlarger, hpow, hbuffer, hcut⟩ : ¬ cap ≤ r.capacity ∧ xqcPow2Upper cap ≠ 0 ∧ r.capacity ≠ 0 ∧
      ¬ r.Uncut (xqcPow2Upper cap) := by
    simpa [Rmem.Grows] using hgrows
  obtain ⟨k, hk, hmcap, hupper⟩ := xqcPow2Upper_spec hpow
  obtain ⟨j, hj, hcap⟩ := h.pow.resolve_left hbuffer
  have hgrown : r.capacity.toNat < (xqcPow2Upper cap).toNat := by
    have := UInt64.not_le.mp hlarger
    rw [lt_iff_toNat_lt] at this; omega
  have hjk : j < k := (Nat.pow_lt_pow_iff_right (show 1 < 2 by decide)).mp (by omega)
  have hdvd : r.capacity.toNat ∣ (xqcPow2Upper cap).toNat := by
    rw [hcap, hmcap]; exact Nat.pow_dvd_pow 2 hjk.le
  have hdouble : 2 * r.capacity.toNat ≤ (xqcPow2Upper cap).toNat := by
    rw [hcap, hmcap, ← Nat.pow_succ']; exact Nat.pow_le_pow_right (by decide) hjk
  have hmax : (xqcPow2Upper cap).toNat ≤ 2 ^ 63 := by
    rw [hmcap]; exact Nat.pow_le_pow_right (by decide) hk
  have husum := h.used
  have hfront := h.front_le
  have hfits := h.fits
  have hori := h.offset hbuffer r.sidx
  have heori := h.offset hbuffer r.eidx
  have horiLt : r.sidx.toNat % r.capacity.toNat < r.capacity.toNat := Nat.mod_lt _ (by rw [hcap]; exact Nat.two_pow_pos j)
  have hnew : (r.sidx &&& (xqcPow2Upper cap - 1)).toNat = r.sidx.toNat % (xqcPow2Upper cap).toNat := toNat_and_mask hmcap
  have henew : (r.eidx &&& (xqcPow2Upper cap - 1)).toNat = r.eidx.toNat % (xqcPow2Upper cap).toNat := toNat_and_mask hmcap
  have hcut' : ¬ r.sidx.toNat % r.capacity.toNat < r.eidx.toNat % r.capacity.toNat := fun hone =>
    hcut (uncut_of_multiple hdvd (by omega) (by omega) hone)
  have horiSz : (xqcPow2Upper cap - (r.sidx &&& r.mask)).toNat =
      (xqcPow2Upper cap).toNat - r.sidx.toNat % r.capacity.toNat := by
    rw [UInt64.toNat_sub_of_le _ _ (UInt64.le_iff_toNat_le.mpr (by omega)), hori]
  have hmove : (xqcRingMemResize r cap true garbage).1 =
      (moveCut r (xqcPow2Upper cap) (r.sidx &&& (xqcPow2Upper cap - 1)) garbage).1 := by
    unfold xqcRingMemResize
    rw [if_neg (UInt64.not_lt.mpr hused), if_neg hlarger, if_neg hpow, if_neg (by decide)]
    rw [if_pos hbuffer, if_neg (by rw [lt_iff_toNat_lt, hnew, henew]; exact hcut)]
  rw [hmove]
  unfold moveCut
  dsimp only
  rw [if_neg (by rw [lt_iff_toNat_lt, hori, heori]; exact hcut')]
  intro hin
  split at hin
  · have hout := hin (.ring, ⟨(r.sidx &&& r.mask).toNat, (xqcPow2Upper cap - (r.sidx &&& r.mask)).toNat⟩)
      (by simp [touches])
    rcases hout with hzero | ⟨-, hend⟩
    · dsimp only at hzero; omega
    · dsimp only at hend; omega
  · have hout := hin (.ring, ⟨0, (r.used - (xqcPow2Upper cap - (r.sidx &&& r.mask))).toNat⟩) (by simp [touches])
    -- the difference goes below zero
    have hhuge : 2 ^ 63 ≤ (r.used - (xqcPow2Upper cap - (r.sidx &&& r.mask))).toNat := by
      rw [UInt64.toNat_sub, horiSz]; omega
    rcases hout with hzero | ⟨-, hend⟩
    · dsimp only at hzero; omega
    · dsimp only at hend; omega

end RlccQuic.Common.RingMem
