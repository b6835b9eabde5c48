/-
  RlccQuic.Http3.TableRefines — the table in memory does what the queue of fields does.

  The ring memory has the names and values of the entries one behind the other, the ring
  array the places of each, and every node of the hash table points at an entry that is
  in the table or at one that is gone, whose name starts before the ring's first byte.

  Proved: every function of the table keeps this and gives the result of its namesake on the queue (`pop_refines`,
  `makeSpace_refines`, `add_cases`, `duplicate_cases`, `setMinRef_refines`, `setCapacity_cases`), where an insertion may
  not take the places of the ring round 2^64, and the memory may only be moved as `Dtable.CanSet` allows; and an entry
  is read back as it was inserted (`getNv_spec`).
-/

import RlccQuic.Http3.TableMem

namespace RlccQuic.Http3.TableMem

open Lib Lib.Cursor Common.RingMem List UInt64
open UInt64 (toNat_inj)
open DynTable (Table Entry totalSize xqcDtableEntrySize entrySizeBase)

/-! ## The relation -/

def contents (es : List Entry) : List UInt8 := es.flatMap fun e => e.name ++ e.value

/-- The element of the array for entry number `i` of the table. -/
def Rarray.place (ra : Rarray) (i : Nat) : Nat := (ra.offset + i) % ra.cap

structure Rarray.Good (ra : Rarray) : Prop where
  pow : ∃ k, k ≤ 63 ∧ ra.cap = 2 ^ k
  mask : ra.mask = ra.cap - 1
  offset : ra.offset < ra.cap
  count : ra.count ≤ ra.cap

/-- An element of the array for the entry with index `idx`, whose bytes start at `pos`. -/
structure SlotFor (s : Slot) (idx pos : Nat) (e : Entry) : Prop where
  absIndex : s.absIndex = idx
  nidx : s.nv.nidx.toNat = pos
  nlen : s.nv.nlen.toNat = e.name.length
  vlen : s.nv.vlen.toNat = e.value.length
  vidx : e.value ≠ [] → s.nv.vidx.toNat = pos + e.name.length
  sum : s.sum = e.sum

def Rarray.Live (ra : Rarray) (slot : Nat) : Prop := ∃ i, i < ra.count ∧ slot = ra.place i

structure Refines (dt : Dtable) (t : Table) (log : List UInt8) : Prop where
  ok : t.Ok
  ring : dt.rmem.Good dt.rmem.sidx.toNat log
  ringCap : t.capacity ≤ dt.rmem.capacity.toNat
  bytes : log.drop dt.rmem.sidx.toNat = contents t.entries
  array : dt.entries.Good
  arrayCap : t.capacity / entrySizeBase ≤ dt.entries.cap
  count : dt.entries.count = t.entries.length
  firstIdx : dt.firstIdx = t.firstIdx
  insertCnt : dt.insertCnt = t.insertCnt
  capacity : dt.capacity = t.capacity
  used : dt.used = t.used
  byteSum : dt.byteSum = t.byteSum
  minRef : dt.minRef = t.minRef
  slots : ∀ i e, t.entries[i]? = some e → SlotFor (dt.entries.buf (dt.entries.place i)) (t.firstIdx + i)
    (dt.rmem.sidx.toNat + (contents (t.entries.take i)).length) e
  nodes : ∀ b, ∀ n ∈ dt.ht2d.list b, n.data.gen = dt.entries.gen ∧ n.data.slot < dt.entries.cap ∧
    (dt.entries.Live n.data.slot ∨ (dt.entries.buf n.data.slot).absIndex < t.firstIdx ∧
      (dt.entries.buf n.data.slot).nv.nidx.toNat < dt.rmem.sidx.toNat)

variable {dt : Dtable} {t : Table} {log : List UInt8}

@[simp] lemma contents_nil : contents [] = [] := rfl

@[simp] lemma contents_cons (e : Entry) (es : List Entry) : contents (e :: es) = e.name ++ e.value ++ contents es := by
  simp [contents]

@[simp] lemma contents_append (es fs : List Entry) : contents (es ++ fs) = contents es ++ contents fs := by
  simp [contents]

lemma contents_length (es : List Entry) : (contents es).length + entrySizeBase * es.length = totalSize es := by
  induction es with
  | nil => rfl
  | cons e es ih =>
    rw [contents_cons, DynTable.totalSize_cons, ← ih, DynTable.Entry.size, xqcDtableEntrySize]
    simp only [length_append, length_cons, Nat.mul_add]; omega

/-! ## Places in the array -/

section Places

variable {ra : Rarray}

lemma Rarray.Good.cap_pos (h : ra.Good) : 0 < ra.cap := Nat.zero_lt_of_lt h.offset

lemma Rarray.Good.masked (h : ra.Good) (x : Nat) : x &&& ra.mask = x % ra.cap := by
  obtain ⟨k, -, hk⟩ := h.pow
  rw [h.mask, hk]; exact Nat.and_two_pow_sub_one_eq_mod x k

lemma Rarray.Good.place_lt (h : ra.Good) (i : Nat) : ra.place i < ra.cap := Nat.mod_lt _ h.cap_pos

lemma Rarray.Good.place_inj (h : ra.Good) {i j : Nat} (hi : i < ra.cap) (hj : j < ra.cap)
    (he : ra.place i = ra.place j) : i = j := by
  have h1 := Ring.mod_eq_from (show ra.offset ≤ ra.offset + i by omega) (show ra.offset + i < ra.offset + ra.cap by omega)
  have h2 := Ring.mod_eq_from (show ra.offset ≤ ra.offset + j by omega) (show ra.offset + j < ra.offset + ra.cap by omega)
  unfold Rarray.place at he
  have := h.offset
  split at h1 <;> split at h2 <;> omega

lemma checkRange_place (h : ra.Good) {i : Nat} (hi : i < ra.cap) :
    xqcRarrayCheckRange ra (ra.place i) = decide (i < ra.count) := by
  have hoff := h.offset
  have hcount := h.count
  have h1 := Ring.mod_eq_from (show ra.offset ≤ ra.offset + i by omega) (show ra.offset + i < ra.offset + ra.cap by omega)
  rw [Nat.mod_eq_of_lt hoff, Nat.add_sub_cancel_left] at h1
  have h2 : (ra.offset + ra.count) % ra.cap =
      if ra.offset + ra.count < ra.cap then ra.offset + ra.count else ra.offset + ra.count - ra.cap := by
    split
    · rename_i hlt; exact Nat.mod_eq_of_lt hlt
    · rw [Nat.mod_eq_sub_mod (by omega), Nat.mod_eq_of_lt (by omega)]
  unfold xqcRarrayCheckRange Rarray.place; rw [h.masked]
  dsimp only; rw [Bool.eq_iff_iff, decide_eq_true_iff]
  split
  · split
    · simp only [Bool.false_eq_true, false_iff]; omega
    · simp only [Bool.or_eq_true, decide_eq_true_iff]
      split at h1 <;> split at h2 <;> omega
  · simp only [Bool.and_eq_true, decide_eq_true_iff]
    split at h1 <;> split at h2 <;> omega

lemma get_place (h : ra.Good) (i : Nat) : xqcRarrayGet ra i = if i < ra.count then some (ra.place i) else none := by
  have hcount := h.count
  unfold xqcRarrayGet
  by_cases hi : i < ra.cap
  · rw [if_neg (Nat.not_le.mpr hi)]
    dsimp only
    rw [h.masked, Nat.add_comm i, show (ra.offset + i) % ra.cap = ra.place i from rfl, checkRange_place h hi]
    simp only [decide_eq_true_eq]
  · rw [if_pos (Nat.not_lt.mp hi), if_neg (by omega)]

end Places

/-! ## Popping an entry -/

variable {r : Rmem}

lemma dequeue_part (h : r.Good r.sidx.toNat log) (idx len : UInt64)
    (hidx : len.toNat ≠ 0 → idx.toNat = r.sidx.toNat) (hend : r.sidx.toNat + len.toNat ≤ r.eidx.toNat) :
    ∃ r', (if len > 0 then xqcRingMemDequeue r idx len else .ok r) = .ok r' ∧
      r'.sidx.toNat = r.sidx.toNat + len.toNat ∧ r'.eidx = r.eidx ∧ r'.capacity = r.capacity ∧
      r'.Good r'.sidx.toNat log := by
  split
  · rename_i hpos
    have hlen : len.toNat ≠ 0 := Nat.ne_of_gt (lt_iff_toNat_lt.mp hpos)
    have hused := h.used
    obtain rfl : idx = r.sidx := toNat_inj.mp (hidx hlen)
    obtain ⟨r', hr'⟩ : ∃ r', xqcRingMemDequeue r r.sidx len = .ok r' := by
      unfold xqcRingMemDequeue
      rw [if_neg (by
        rw [lt_iff_toNat_lt]
        exact not_or.mpr ⟨not_not.mpr rfl, by omega⟩)]
      exact ⟨_, rfl⟩
    obtain ⟨-, hs, he, hc, hgood⟩ := dequeue_spec h hr'
    exact ⟨r', hr', hs, he, hc, hgood.settle⟩
  · rename_i hzero
    have hlen : len.toNat = 0 := by
      exact Nat.le_zero.mp (Nat.not_lt.mp hzero)
    exact ⟨r, rfl, by omega, rfl, rfl, h⟩

variable {e : Entry}

lemma dequeueNv_spec {s : Slot} {idx : Nat} (h : r.Good r.sidx.toNat log)
    (hs : SlotFor s idx r.sidx.toNat e) (hend : r.sidx.toNat + e.name.length + e.value.length ≤ r.eidx.toNat) :
    ∃ r', xqcDtableDequeueNv r s.nv = (r', .ok ()) ∧
      r'.sidx.toNat = r.sidx.toNat + e.name.length + e.value.length ∧ r'.eidx = r.eidx ∧ r'.capacity = r.capacity ∧
      r'.Good r'.sidx.toNat log := by
  have hnlen := hs.nlen
  have hvlen := hs.vlen
  obtain ⟨r1, h1, hs1, he1, hc1, hg1⟩ := dequeue_part h s.nv.nidx s.nv.nlen (fun _ => hs.nidx) (by omega)
  obtain ⟨r2, h2, hs2, he2, hc2, hg2⟩ := dequeue_part hg1 s.nv.vidx s.nv.vlen (fun hne => by
    have hvalue : e.value ≠ [] := by
      rintro hnil
      rw [hnil] at hvlen; exact hne hvlen
    rw [hs.vidx hvalue, hs1, hnlen]) (by rw [hs1, he1]; omega)
  unfold xqcDtableDequeueNv; rw [h1]
  dsimp only; rw [h2]
  exact ⟨r2, rfl, by omega, he2.trans he1, hc2.trans hc1, hg2⟩

lemma Refines.front (h : Refines dt t log) :
    xqcRarrayFront dt.entries = if t.entries = [] then none else some (dt.entries.place 0) := by
  unfold xqcRarrayFront; rw [h.count]
  have hplace : dt.entries.place 0 = dt.entries.offset := Nat.mod_eq_of_lt h.array.offset
  cases t.entries with
  | nil => rfl
  | cons e es => rw [if_neg (by simp), if_neg (by simp), hplace]

lemma Refines.first (h : Refines dt t log) {es : List Entry} (hes : t.entries = e :: es) :
    SlotFor (dt.entries.buf (dt.entries.place 0)) t.firstIdx dt.rmem.sidx.toNat e := by
  have := h.slots 0 e (by rw [hes]; rfl)
  simpa using this

lemma Refines.ring_end (h : Refines dt t log) : dt.rmem.eidx.toNat = dt.rmem.sidx.toNat + (contents t.entries).length := by
  have hlen := h.ring.length
  have hused := h.ring.used
  rw [← h.bytes, length_drop]; omega

lemma place_popFront {ra ra' : Rarray} (h : ra.Good) (hpop : xqcRarrayPopFront ra = some ra') (i : Nat) :
    ra'.place i = ra.place (i + 1) := by
  unfold xqcRarrayPopFront at hpop; split at hpop
  · cases hpop
  · cases hpop
    unfold Rarray.place; rw [h.masked, Nat.mod_add_mod, Nat.add_assoc, Nat.add_comm 1]

lemma mem_remove {ht : Hash2d} {same : Ptr → Ptr → Bool} {h1 h2 : UInt64} {p : Ptr} {b : UInt64} {n : Node}
    (h : n ∈ (xqc2dHashTableRemove ht same h1 h2 p).list b) : n ∈ ht.list b := by
  simp only [xqc2dHashTableRemove, Hash2d.set] at h; split at h
  · rename_i hb; rw [hb]; exact mem_of_mem_eraseP h
  · exact h

lemma Refines.popped (h : Refines dt t log) {es : List Entry} (hes : t.entries = e :: es)
    (href : (t.firstIdx : WithTop Nat) < t.minRef)
    (hsidx : r.sidx.toNat = dt.rmem.sidx.toNat + e.name.length + e.value.length)
    (hcap : r.capacity = dt.rmem.capacity) (hgood : r.Good r.sidx.toNat log) {ht : Hash2d}
    (hht : ∀ b, ∀ n ∈ ht.list b, n ∈ dt.ht2d.list b) {ra : Rarray} (hpop : xqcRarrayPopFront dt.entries = some ra) :
    Refines { dt with
      rmem := r, ht2d := ht, entries := ra, used := dt.used - e.size, firstIdx := dt.firstIdx + 1 } (t.drop 1) log := by
  have hplace := place_popFront h.array hpop
  have hcount : dt.entries.count = es.length + 1 := by rw [h.count, hes]; rfl
  obtain rfl : { dt.entries with offset := (dt.entries.offset + 1) &&& dt.entries.mask, count := dt.entries.count - 1 } = ra := by
    rw [xqcRarrayPopFront, if_neg (by omega)] at hpop; exact Option.some.inj hpop
  have hname : 0 < e.name.length := length_pos_iff.mpr (h.ok.named e (by rw [hes]; exact mem_cons_self))
  have hdrop : (t.drop 1).entries = es := by simp [Table.drop, hes]
  have hfirst := h.first hes
  have hused := h.used
  have hfirstIdx := h.firstIdx
  refine ⟨?_, hgood, ?_, ?_, ?_, h.arrayCap, ?_, ?_, ?_, h.capacity, ?_, h.byteSum, h.minRef, fun i d hd => ?_,
    fun b n hn => ?_⟩
  · refine h.ok.drop (by rw [hes]; exact Nat.succ_le_succ zero_le) ?_
    cases hm : t.minRef with
    | top => exact le_top
    | coe m => rw [hm] at href; exact WithTop.coe_le_coe.mpr (WithTop.coe_lt_coe.mp href)
  · rw [hcap]; exact h.ringCap
  · show log.drop r.sidx.toNat = _
    rw [hsidx, hdrop, Nat.add_assoc, ← drop_drop, h.bytes, hes, contents_cons, ← length_append, drop_left]
  · refine ⟨h.array.pow, h.array.mask, ?_, ?_⟩
    · dsimp only; rw [h.array.masked]; exact Nat.mod_lt _ h.array.cap_pos
    · have := h.array.count; dsimp only; omega
  · rw [hdrop]; dsimp only; omega
  · show dt.firstIdx + 1 = t.firstIdx + 1
    rw [hfirstIdx]
  · rw [DynTable.insertCnt_drop (by rw [hes]; exact Nat.succ_le_succ zero_le)]
    exact h.insertCnt
  · show dt.used - e.size = t.used - totalSize (t.entries.take 1); rw [hused, hes]; rfl
  · rw [hdrop] at hd
    have := h.slots (i + 1) d (by rw [hes]; exact hd)
    rw [hes, take_succ_cons, contents_cons, length_append, length_append, ← hplace,
      ← Nat.add_assoc dt.rmem.sidx.toNat, ← Nat.add_assoc dt.rmem.sidx.toNat, ← hsidx] at this
    rw [hdrop]
    show SlotFor _ (t.firstIdx + 1 + i) _ _
    rw [Nat.add_assoc, Nat.add_comm 1]; exact this
  · obtain ⟨hgen, hslot, hlive | ⟨hdead, hbefore⟩⟩ := h.nodes b n (hht b n hn)
    · refine ⟨hgen, hslot, ?_⟩
      obtain ⟨i, hi, hat⟩ := hlive
      cases i with
      | zero =>
        refine .inr ?_
        show (dt.entries.buf n.data.slot).absIndex < t.firstIdx + 1 ∧ (dt.entries.buf n.data.slot).nv.nidx.toNat < r.sidx.toNat
        rw [hat, hfirst.absIndex, hfirst.nidx]; omega
      | succ i => exact .inl ⟨i, by dsimp only; omega, hat.trans (hplace i).symm⟩
    · refine ⟨hgen, hslot, .inr ⟨?_, ?_⟩⟩
      · exact Nat.lt_succ_of_lt hdead
      · show (dt.entries.buf n.data.slot).nv.nidx.toNat < r.sidx.toNat; omega

lemma pop_cases (h : Refines dt t log) :
    (∃ err, xqcDtablePopEntry dt = (dt, .error err) ∧ DynTable.xqcDtablePopEntry t = (t, .error err)) ∨
      ∃ e es d h1 h2, t.entries = e :: es ∧ xqcDtablePopEntry dt = (d, .ok ()) ∧
        DynTable.xqcDtablePopEntry t = (t.drop 1, .ok ()) ∧ Refines d (t.drop 1) log ∧
        d.ht2d = xqc2dHashTableRemove dt.ht2d dt.sameEntry h1 h2 ⟨dt.entries.gen, dt.entries.place 0⟩ ∧
        xqcRarrayPopFront dt.entries = some d.entries := by
  unfold xqcDtablePopEntry; rw [h.front]
  cases hes : t.entries with
  | nil => rw [if_pos rfl, DynTable.xqcDtablePopEntry, hes]; exact .inl ⟨_, rfl, rfl⟩
  | cons e es =>
    have hfirst := h.first hes
    rw [if_neg (cons_ne_nil _ _)]
    dsimp only; rw [hfirst.absIndex]
    by_cases href : (t.firstIdx : WithTop Nat) ≥ dt.minRef
    · rw [if_pos href, DynTable.xqcDtablePopEntry, hes]
      dsimp only; rw [if_pos (h.minRef ▸ href)]
      exact .inl ⟨_, rfl, rfl⟩
    have hfree := h.minRef ▸ not_le.mp href
    rw [if_neg href, DynTable.popEntry_drop hes hfree]
    have hend := h.ring_end
    rw [hes, contents_cons, length_append, length_append] at hend
    obtain ⟨r', hr', hsidx, heidx, hcap, hgood⟩ := dequeueNv_spec h.ring hfirst (by omega)
    rw [hr']
    have hpop : xqcRarrayPopFront dt.entries =
        some { dt.entries with offset := (dt.entries.offset + 1) &&& dt.entries.mask, count := dt.entries.count - 1 } := by
      rw [xqcRarrayPopFront, if_neg (by rw [h.count, hes]; exact Nat.succ_ne_zero _)]
    rw [hpop]
    rw [hfirst.nlen, hfirst.vlen]
    exact .inr ⟨e, es, _, _, _, rfl, rfl, rfl,
      h.popped hes hfree hsidx hcap hgood (fun _ _ => mem_remove) hpop, rfl, rfl⟩

theorem pop_refines (h : Refines dt t log) : Refines (xqcDtablePopEntry dt).1 (DynTable.xqcDtablePopEntry t).1 log ∧
    (xqcDtablePopEntry dt).2 = (DynTable.xqcDtablePopEntry t).2 := by
  rcases pop_cases h with ⟨err, hd, ht⟩ | ⟨e, es, d, h1, h2, -, hd, ht, href, -⟩
  · rw [hd, ht]; exact ⟨h, rfl⟩
  · rw [hd, ht]; exact ⟨href, rfl⟩

/-! ## Making space -/

section Space

variable {P : Dtable → Table → Prop}

lemma popLoop_refines (hP : ∀ {dt t}, Refines dt t log → P dt t → P (xqcDtablePopEntry dt).1 (DynTable.xqcDtablePopEntry t).1)
    (space : Nat) : ∀ (fuel : Nat) {dt : Dtable} {t : Table}, Refines dt t log → P dt t →
    Refines (popLoop space fuel dt).1 (DynTable.popLoop space fuel t).1 log ∧
      P (popLoop space fuel dt).1 (DynTable.popLoop space fuel t).1 ∧
      (popLoop space fuel dt).2 = (DynTable.popLoop space fuel t).2
  | 0, dt, t, h, hp => by
    unfold popLoop DynTable.popLoop; rw [h.capacity, h.used]
    exact ⟨h, hp, rfl⟩
  | fuel + 1, dt, t, h, hp => by
    obtain ⟨hpop, hres⟩ := pop_refines h
    have hkeep := hP h hp
    unfold popLoop DynTable.popLoop; rw [h.capacity, h.used]
    split
    · rcases hd : xqcDtablePopEntry dt with ⟨dt', d⟩
      rcases ht : DynTable.xqcDtablePopEntry t with ⟨t', r⟩
      rw [hd, ht] at hpop hres hkeep
      subst hres
      cases d with
      | error e => exact ⟨hpop, hkeep, rfl⟩
      | ok u => exact popLoop_refines hP space fuel hpop hkeep
    · exact ⟨h, hp, rfl⟩

lemma Refines.entryAt (h : Refines dt t log) (idx : Nat) : xqcDtableGetEntryByAbsIdx dt idx =
    if idx < t.firstIdx then none else if idx < t.insertCnt then some (dt.entries.place (idx - t.firstIdx)) else none := by
  unfold xqcDtableGetEntryByAbsIdx; rw [h.firstIdx]
  split
  · rfl
  · rename_i hge; rw [get_place h.array, h.count]
    unfold Table.insertCnt
    by_cases hlt : idx - t.firstIdx < t.entries.length
    · rw [if_pos hlt, if_pos (by omega)]
    · rw [if_neg hlt, if_neg (by omega)]

lemma Refines.entryAt_cases (h : Refines dt t log) (idx : Nat) :
    (xqcDtableGetEntryByAbsIdx dt idx = none ∧ DynTable.xqcDtableGetEntryByAbsIdx t idx = none) ∨
      ∃ e, xqcDtableGetEntryByAbsIdx dt idx = some (dt.entries.place (idx - t.firstIdx)) ∧
        DynTable.xqcDtableGetEntryByAbsIdx t idx = some e ∧ t.entries[idx - t.firstIdx]? = some e := by
  rw [h.entryAt]
  unfold DynTable.xqcDtableGetEntryByAbsIdx; split
  · exact .inl ⟨rfl, rfl⟩
  · rename_i hge; unfold Table.insertCnt
    split
    · exact .inr ⟨_, rfl, getElem?_eq_getElem (by omega), getElem?_eq_getElem (by omega)⟩
    · exact .inl ⟨rfl, getElem?_eq_none (by omega)⟩

theorem makeSpace_refines (hP : ∀ {dt t}, Refines dt t log → P dt t → P (xqcDtablePopEntry dt).1 (DynTable.xqcDtablePopEntry t).1)
    (h : Refines dt t log) (hp : P dt t) (space : Nat) :
    Refines (xqcDtableMakeSpace dt space).1 (DynTable.xqcDtableMakeSpace t space).1 log ∧
      P (xqcDtableMakeSpace dt space).1 (DynTable.xqcDtableMakeSpace t space).1 ∧
      (xqcDtableMakeSpace dt space).2 = (DynTable.xqcDtableMakeSpace t space).2 := by
  have hloop := popLoop_refines hP space t.entries.length h hp
  have hlook : lookAtRef dt space = DynTable.lookAtRef t space := by
    unfold lookAtRef DynTable.lookAtRef; rw [h.capacity, h.used, h.minRef]
  unfold xqcDtableMakeSpace DynTable.xqcDtableMakeSpace
  rw [hlook, h.capacity, h.used, h.count]; split
  · exact ⟨h, hp, rfl⟩
  cases DynTable.lookAtRef t space with
  | none => exact hloop
  | some ref =>
    rw [h.front]
    cases hes : t.entries with
    | nil => exact ⟨h, hp, rfl⟩
    | cons first rest =>
      rw [if_neg (cons_ne_nil _ _)]
      dsimp only
      rcases h.entryAt_cases ref with ⟨hd, ht⟩ | ⟨e, hd, ht, he⟩
      · rw [hd, ht]; exact ⟨h, hp, rfl⟩
      · rw [hd, ht]
        dsimp only; rw [(h.slots _ _ he).sum, (h.first hes).sum]
        split
        · exact ⟨h, hp, rfl⟩
        · rw [← hes]; exact hloop

end Space

/-! ## Reading an entry -/

/-- The bytes `xs` are in the log from `p`, and in the ring. -/
structure HasAt (r : Rmem) (log : List UInt8) (p : Nat) (xs : List UInt8) : Prop where
  start : r.sidx.toNat ≤ p
  stop : p + xs.length ≤ r.eidx.toNat
  bytes : ∀ k, k < xs.length → log.getD (p + k) 0 = xs.getD k 0

lemma Refines.entry_bytes (h : Refines dt t log) {i : Nat} (he : t.entries[i]? = some e) :
    HasAt dt.rmem log (dt.rmem.sidx.toNat + (contents (t.entries.take i)).length) e.name ∧
      HasAt dt.rmem log (dt.rmem.sidx.toNat + (contents (t.entries.take i)).length + e.name.length) e.value := by
  obtain ⟨hi, hget⟩ := List.getElem?_eq_some_iff.mp he
  have hsplit : contents t.entries =
      contents (t.entries.take i) ++ (e.name ++ (e.value ++ contents (t.entries.drop (i + 1)))) := by
    conv_lhs => rw [← take_append_drop i t.entries, drop_eq_getElem_cons hi, hget]
    rw [contents_append, contents_cons, append_assoc]
  have hend := h.ring_end
  rw [hsplit] at hend
  simp only [length_append] at hend
  have hlog : ∀ k, log.getD (dt.rmem.sidx.toNat + k) 0 = (contents t.entries).getD k 0 := fun k => by
    rw [← h.bytes, getD_eq_getElem?_getD, getD_eq_getElem?_getD, getElem?_drop]
  refine ⟨⟨by omega, by omega, fun k hk => ?_⟩, ⟨by omega, by omega, fun k hk => ?_⟩⟩
  · rw [Nat.add_assoc, hlog, hsplit, getD_append_right _ _ _ _ (Nat.le_add_right _ _), Nat.add_sub_cancel_left,
      getD_append _ _ _ _ hk]
  · rw [Nat.add_assoc, Nat.add_assoc, hlog, hsplit, getD_append_right _ _ _ _ (Nat.le_add_right _ _),
      Nat.add_sub_cancel_left, getD_append_right _ _ _ _ (Nat.le_add_right _ _), Nat.add_sub_cancel_left,
      getD_append _ _ _ _ hk]

lemma copyPart_spec (h : r.Good r.sidx.toNat log) {pos len : UInt64} {xs : List UInt8}
    (hlen : len.toNat = xs.length) (hat : xs ≠ [] → HasAt r log pos.toNat xs) : copyPart r pos len = .ok xs := by
  unfold copyPart
  by_cases hnil : xs = []
  · subst hnil
    rw [if_neg (by rw [gt_iff_lt, lt_iff_toNat_lt, hlen]; exact Nat.lt_irrefl 0)]
  · obtain ⟨hstart, hstop, hbytes⟩ := hat hnil
    have hpos : 1 ≤ len.toNat := by
      rw [hlen]; exact length_pos_iff.mpr hnil
    obtain ⟨ts, hcopy, -⟩ := copy_spec (fun _ => 0) h .user (fun _ => 0) 0 (le_iff_toNat_le.mpr hstart) hpos
      (by omega) (UInt64.le_refl len)
    rw [if_pos (show len > 0 from lt_iff_toNat_lt.mpr hpos), hcopy]
    refine congrArg Except.ok ?_
    rw [hlen, slice_eq_iff]
    intro k hk
    have hfits := h.fits
    have hread := h.holds.read (fun _ => 0) 0 hstart hstop (by omega) hk
    rw [Nat.zero_add] at hread
    rw [hread, hbytes k hk]

theorem getNv_spec (h : Refines dt t log) (idx : Nat) :
    (xqcDtableGetNv dt idx = .error .voidEntry ∧ DynTable.xqcDtableGetEntryByAbsIdx t idx = none) ∨
      ∃ e, xqcDtableGetNv dt idx = .ok (e.name, e.value) ∧ DynTable.xqcDtableGetEntryByAbsIdx t idx = some e := by
  unfold xqcDtableGetNv
  rcases h.entryAt_cases idx with ⟨hd, ht⟩ | ⟨e, hd, ht, he⟩
  · rw [hd]; exact .inl ⟨rfl, ht⟩
  · have hslot := h.slots _ _ he
    obtain ⟨hname, hvalue⟩ := h.entry_bytes he
    rw [hd]
    dsimp only; rw [copyPart_spec h.ring hslot.nlen fun _ => hslot.nidx ▸ hname]
    rw [copyPart_spec h.ring hslot.vlen fun hne => hslot.vidx hne ▸ hvalue]
    exact .inr ⟨e, rfl, ht⟩

/-! ## Adding an entry -/

section Add

variable {name value : Mem} {nlen vlen : UInt64}

lemma enqueueNv_spec (dt : Dtable) (h : dt.rmem.Good dt.rmem.sidx.toNat log) (i : Nat) (name value : Mem) (hname : nlen ≠ 0)
    (hfit : dt.rmem.used.toNat + nlen.toNat + vlen.toNat ≤ dt.rmem.capacity.toNat)
    (hidx : dt.rmem.eidx.toNat + nlen.toNat + vlen.toNat < 2 ^ 64) :
    ∃ r nv, xqcDtableEnqueueNv dt i name nlen value vlen =
        ({ dt with rmem := r }.setSlot i { dt.entries.buf i with nv := nv }, .ok ()) ∧
      nv.nidx = dt.rmem.eidx ∧ nv.nlen = nlen ∧ nv.vlen = vlen ∧
      (vlen ≠ 0 → nv.vidx.toNat = dt.rmem.eidx.toNat + nlen.toNat) ∧
      r.Good r.sidx.toNat (log ++ slice name 0 nlen.toNat ++ slice value 0 vlen.toNat) ∧
      r.sidx = dt.rmem.sidx ∧ r.capacity = dt.rmem.capacity := by
  have hpos : ∀ {n : UInt64}, n ≠ 0 → 1 ≤ n.toNat := fun {n} hn =>
    Nat.one_le_iff_ne_zero.mpr fun hz => hn (toNat_inj.mp hz)
  have hroom : ∀ {r : Rmem} {n : UInt64}, r.used ≤ r.capacity → r.used.toNat + n.toNat ≤ r.capacity.toNat →
      n ≤ r.capacity - r.used := fun {r n} hle hn => by
    rw [UInt64.le_iff_toNat_le, UInt64.toNat_sub_of_le _ _ hle]; omega
  obtain ⟨_, r1, h1, hg1, hs1, hc1, -⟩ := enqueue_spec (fun _ => 0) h name (hpos hname) (hroom h.used_le (by omega)) (by omega)
  have hlen := hg1.length
  rw [length_append, length_slice, h.length] at hlen
  unfold xqcDtableEnqueueNv; rw [h1]
  dsimp only
  by_cases hv : vlen = 0
  · subst hv
    refine ⟨r1, _, rfl, rfl, rfl, rfl, fun hne => absurd rfl hne, ?_, hs1, hc1⟩
    show r1.Good _ (_ ++ [])
    rw [append_nil, hs1]; exact hg1
  · have hvpos : vlen > 0 := lt_iff_toNat_lt.mpr (hpos hv)
    have hused := h.used
    have hused1 := hg1.used
    rw [hs1] at hused1
    obtain ⟨_, r2, h2, hg2, hs2, hc2, -⟩ := enqueue_spec (fun _ => 0) hg1 value (hpos hv)
      (hroom hg1.used_le (by rw [hc1]; omega)) (by omega)
    rw [if_pos hvpos, h2]
    refine ⟨r2, _, rfl, rfl, rfl, rfl, fun _ => hlen.symm, ?_, hs2.trans hs1, hc2.trans hc1⟩
    rw [hs2]; exact hg2

lemma hashAdd_ok (ht : Hash2d) (same : Ptr → Ptr → Bool) (h1 h2 : UInt64) (p : Ptr) :
    ∃ ht', xqc2dHashTableAdd ht same h1 h2 p true = .ok ht' := by
  unfold xqc2dHashTableAdd
  split <;> exact ⟨_, rfl⟩

lemma mem_add {ht ht' : Hash2d} {same : Ptr → Ptr → Bool} {h1 h2 : UInt64} {p : Ptr} {b : UInt64} {n : Node}
    (hadd : xqc2dHashTableAdd ht same h1 h2 p true = .ok ht') (h : n ∈ ht'.list b) : n ∈ ht.list b ∨ n.data = p := by
  unfold xqc2dHashTableAdd at hadd; split at hadd
  · cases hadd; exact .inl h
  · cases hadd
    simp only [Hash2d.set] at h; split at h
    · rename_i hb; rw [hb]
      rcases mem_cons.mp h with rfl | h
      · exact .inr rfl
      · exact .inl h
    · exact .inl h

lemma Refines.few (h : Refines dt t log) {n v : Nat} (hroom : t.used + xqcDtableEntrySize n v ≤ t.capacity) :
    dt.entries.count < dt.entries.cap := by
  have h1 := contents_length t.entries
  have h2 := h.ok.used
  have h3 : t.entries.length + 1 ≤ t.capacity / entrySizeBase := by
    rw [Nat.le_div_iff_mul_le (by decide), Nat.mul_comm, Nat.mul_add]
    unfold xqcDtableEntrySize at hroom
    omega
  have h4 := h.arrayCap
  rw [h.count]; omega

lemma Refines.pushed (h : Refines dt t log) {nm vl : List UInt8} (hname : nm ≠ [])
    (hroom : t.used + xqcDtableEntrySize nm.length vl.length ≤ t.capacity)
    (hgood : r.Good r.sidx.toNat (log ++ nm ++ vl)) (hsidx : r.sidx = dt.rmem.sidx)
    (hcap : r.capacity = dt.rmem.capacity) (ht : Hash2d)
    (hht : ∀ b, ∀ n ∈ ht.list b, n ∈ dt.ht2d.list b ∨ n.data = ⟨dt.entries.gen, dt.entries.place dt.entries.count⟩)
    (buf : Nat → Slot) (hbuf : ∀ j, j ≠ dt.entries.place dt.entries.count → buf j = dt.entries.buf j)
    (hslot : SlotFor (buf (dt.entries.place dt.entries.count)) t.insertCnt dt.rmem.eidx.toNat ⟨nm, vl, t.byteSum⟩) :
    Refines { dt with
      rmem := r, ht2d := ht, entries := { dt.entries with buf := buf, count := dt.entries.count + 1 }
      insertCnt := dt.insertCnt + 1, used := dt.used + xqcDtableEntrySize nm.length vl.length
      byteSum := dt.byteSum + xqcDtableEntrySize nm.length vl.length } (t.push nm vl) (log ++ nm ++ vl) := by
  have hcount := h.count
  have hlen := h.ring.length
  have hused := h.ring.used
  have hfew := h.few hroom
  have hother : ∀ i, i < dt.entries.count → buf (dt.entries.place i) = dt.entries.buf (dt.entries.place i) :=
    fun i hi => hbuf _ fun he => by
      have := h.array.place_inj (by omega) hfew he; omega
  refine ⟨h.ok.push hname hroom, hgood, ?_, ?_, ⟨h.array.pow, h.array.mask, h.array.offset, hfew⟩, h.arrayCap, ?_,
    h.firstIdx, ?_, h.capacity, ?_, ?_, h.minRef, fun i e he => ?_, fun b n hn => ?_⟩
  · rw [hcap]; exact h.ringCap
  · show (log ++ nm ++ vl).drop r.sidx.toNat = contents (t.entries ++ [⟨nm, vl, t.byteSum⟩])
    rw [hsidx, append_assoc, drop_append_of_le_length (by omega), h.bytes]
    simp
  · show dt.entries.count + 1 = (t.entries ++ [_]).length; rw [length_append, hcount]; rfl
  · rw [DynTable.insertCnt_push, ← h.insertCnt]
  · show dt.used + _ = t.used + _
    rw [h.used]
  · show dt.byteSum + _ = t.byteSum + _
    rw [h.byteSum]
  · show SlotFor (buf (dt.entries.place i)) (t.firstIdx + i)
      (r.sidx.toNat + (contents ((t.entries ++ [(⟨nm, vl, t.byteSum⟩ : Entry)]).take i)).length) e
    have he : (t.entries ++ [(⟨nm, vl, t.byteSum⟩ : Entry)])[i]? = some e := he
    rw [hsidx]
    rcases Nat.lt_or_ge i t.entries.length with hi | hi
    · rw [getElem?_append_left hi] at he
      rw [hother i (by omega), take_append_of_le_length hi.le]; exact h.slots i e he
    · rw [getElem?_append_right hi] at he
      have hi0 : i - t.entries.length = 0 := by
        have := (List.getElem?_eq_some_iff.mp he).1
        rw [length_singleton] at this; omega
      obtain rfl : i = t.entries.length := by omega
      rw [Nat.sub_self] at he; cases he
      rw [take_append_of_le_length le_rfl, take_length, ← h.ring_end, ← hcount]
      rw [show t.firstIdx + dt.entries.count = t.insertCnt by rw [hcount]; rfl]
      exact hslot
  · show n.data.gen = dt.entries.gen ∧ n.data.slot < dt.entries.cap ∧
      ((∃ i, i < dt.entries.count + 1 ∧ n.data.slot = dt.entries.place i) ∨
        (buf n.data.slot).absIndex < t.firstIdx ∧ (buf n.data.slot).nv.nidx.toNat < r.sidx.toNat)
    rcases hht b n hn with hn | hn
    · obtain ⟨hgen, hsl, hlive | hdead⟩ := h.nodes b n hn
      · obtain ⟨i, hi, hat⟩ := hlive
        exact ⟨hgen, hsl, .inl ⟨i, by omega, hat⟩⟩
      · by_cases hat : n.data.slot = dt.entries.place dt.entries.count
        · exact ⟨hgen, hsl, .inl ⟨_, Nat.lt_succ_self _, hat⟩⟩
        · rw [hbuf _ hat, hsidx]; exact ⟨hgen, hsl, .inr hdead⟩
    · rw [hn]; exact ⟨rfl, h.array.place_lt _, .inl ⟨_, Nat.lt_succ_self _, rfl⟩⟩

@[simp] lemma setSlot_buf (dt : Dtable) (i : Nat) (e : Slot) : (dt.setSlot i e).entries.buf i = e := if_pos rfl

def hashOf (bytes : List UInt8) : UInt64 := bytes.foldl (fun h b => h * 31 + b.toUInt64) 0

def lastOf (bytes : List UInt8) : UInt64 := (bytes.getLastD 0).toUInt64

lemma hashString_slice (mem : Mem) (len : UInt64) : xqcHashString mem len = hashOf (slice mem 0 len.toNat) := rfl

lemma makeValueHash_slice (mem : Mem) (len : UInt64) :
    xqcDtableMakeValueHash mem len = lastOf (slice mem 0 len.toNat) := by
  unfold xqcDtableMakeValueHash lastOf slice
  by_cases hlen : len = 0
  · subst hlen; rfl
  · obtain ⟨n, hn⟩ : ∃ n, len.toNat = n + 1 :=
      Nat.exists_eq_succ_of_ne_zero fun hz => hlen (toNat_inj.mp hz)
    rw [if_pos hlen, hn, range_succ, map_append, map_singleton, getLastD_concat, Nat.zero_add]
    rfl

/-- A new element behind the others, and a node for it unless its bucket has one for the same element. -/
structure Pushed (d d' : Dtable) (h1 h2 : UInt64) : Prop where
  nodes : ∃ same,
    xqc2dHashTableAdd d.ht2d same h1 h2 ⟨d.entries.gen, d.entries.place d.entries.count⟩ true = .ok d'.ht2d ∧
    ∀ b, ∀ n ∈ d.ht2d.list b, n.data.slot ≠ d.entries.place d.entries.count →
      same n.data ⟨d.entries.gen, d.entries.place d.entries.count⟩ = false
  entries : ∃ buf, d'.entries = { d.entries with buf := buf, count := d.entries.count + 1 }

lemma add_pushed {d : Dtable} (h : Refines d t log) (name value : Mem) (hname : nlen ≠ 0)
    (hspace : xqcDtableEntrySize nlen.toNat vlen.toNat ≤ dt.capacity)
    (hmake : xqcDtableMakeSpace dt (xqcDtableEntrySize nlen.toNat vlen.toNat) = (d, .ok ()))
    (hroom : t.used + xqcDtableEntrySize nlen.toNat vlen.toNat ≤ t.capacity)
    (hidx : d.rmem.eidx.toNat + nlen.toNat + vlen.toNat < 2 ^ 64) :
    ∃ d', xqcDtableAdd dt name nlen value vlen true = (d', .ok t.insertCnt) ∧
      Refines d' (t.push (slice name 0 nlen.toNat) (slice value 0 vlen.toNat))
        (log ++ slice name 0 nlen.toNat ++ slice value 0 vlen.toNat) ∧
      Pushed d d' (hashOf (slice name 0 nlen.toNat)) (lastOf (slice value 0 vlen.toNat)) := by
  rw [← hashString_slice, ← makeValueHash_slice]
  have hbytes := contents_length t.entries
  have hend := h.ring_end
  have hring := h.ring.used
  have hringCap := h.ringCap
  have hok := h.ok.used
  have hpush : xqcRarrayPush d.entries =
      some ({ d.entries with count := d.entries.count + 1 }, d.entries.place d.entries.count) := by
    rw [xqcRarrayPush, if_neg (by have := h.few hroom; omega), h.array.masked]
    rfl
  unfold xqcDtableAdd; rw [if_neg hname, if_neg (Nat.not_lt.mpr hspace), hmake]
  dsimp only; rw [hpush]
  dsimp only
  obtain ⟨r, nv, henq, hnidx, hnlen, hvlen, hvidx, hgood, hsidx, hcap⟩ := enqueueNv_spec
    ({ d with entries := { d.entries with count := d.entries.count + 1 } }.setSlot (d.entries.place d.entries.count)
      { zeroSlot with absIndex := d.insertCnt }) h.ring (d.entries.place d.entries.count) name value hname
    (show d.rmem.used.toNat + _ + _ ≤ d.rmem.capacity.toNat by unfold xqcDtableEntrySize at hroom; omega) hidx
  rw [henq]
  dsimp only
  obtain ⟨ht2d, hadd⟩ := hashAdd_ok _ _ (xqcHashString name nlen) (xqcDtableMakeValueHash value vlen) _
  rw [hadd]
  have hsize : xqcDtableEntrySize (slice name 0 nlen.toNat).length (slice value 0 vlen.toNat).length =
      xqcDtableEntrySize nlen.toNat vlen.toNat := by rw [length_slice, length_slice]
  have hnew : slice name 0 nlen.toNat ≠ [] := fun hnil => by
    have := length_slice name 0 nlen.toNat
    rw [hnil] at this; exact hname (toNat_inj.mp this.symm)
  refine ⟨_, Prod.ext rfl ?_, ?_, ⟨_, hadd, fun b n hn hat => ?_⟩, _, rfl⟩
  · simp only [setSlot_buf, h.insertCnt]
  · rw [← hsize]
    refine h.pushed hnew (hsize ▸ hroom) hgood hsidx hcap _ (fun _ _ => mem_add hadd) _ (fun k hk => ?_) ?_
    · simp only [Dtable.setSlot, if_neg hk]
    · simp only [Dtable.setSlot, if_true]
      refine ⟨h.insertCnt, congrArg UInt64.toNat hnidx, ?_, ?_, fun hv => ?_, h.byteSum⟩
      · rw [length_slice, hnlen]
      · rw [length_slice, hvlen]
      · rw [length_slice]; exact hvidx fun hz => hv (by rw [hz]; rfl)
  · -- the element is not the new one, so its index is lower
    obtain ⟨hgen, -, hold⟩ := h.nodes b n hn
    simp only [Dtable.sameEntry, Dtable.deref, Dtable.setSlot, hgen, if_true, if_neg hat, decide_eq_false_iff_not]
    rw [h.insertCnt]
    have hfirst : t.firstIdx ≤ t.insertCnt := Nat.le_add_right _ _
    rcases hold with ⟨k, hk, hslot⟩ | ⟨hdead, -⟩
    · rw [h.count] at hk
      rw [hslot, (h.slots k _ (getElem?_eq_getElem hk)).absIndex]
      unfold Table.insertCnt
      omega
    · omega

/-- An insertion fails in both, or after the same pops puts the entry behind the others. -/
theorem add_cases {P : Dtable → Table → Prop}
    (hP : ∀ {dt t}, Refines dt t log → P dt t → P (xqcDtablePopEntry dt).1 (DynTable.xqcDtablePopEntry t).1)
    (h : Refines dt t log) (hp : P dt t) (name : Mem) (nlen : UInt64) (value : Mem) (vlen : UInt64)
    (hidx : dt.rmem.eidx.toNat + nlen.toNat + vlen.toNat < 2 ^ 64) :
    (∃ d u e, xqcDtableAdd dt name nlen value vlen true = (d, .error e) ∧
        DynTable.xqcDtableAdd t (slice name 0 nlen.toNat) (slice value 0 vlen.toNat) = (u, .error e) ∧
        Refines d u log ∧ P d u) ∨
      ∃ d u d', Refines d u log ∧ P d u ∧ xqcDtableAdd dt name nlen value vlen true = (d', .ok u.insertCnt) ∧
        DynTable.xqcDtableAdd t (slice name 0 nlen.toNat) (slice value 0 vlen.toNat) =
          (u.push (slice name 0 nlen.toNat) (slice value 0 vlen.toNat), .ok u.insertCnt) ∧
        Refines d' (u.push (slice name 0 nlen.toNat) (slice value 0 vlen.toNat))
          (log ++ slice name 0 nlen.toNat ++ slice value 0 vlen.toNat) ∧
        Pushed d d' (hashOf (slice name 0 nlen.toNat)) (lastOf (slice value 0 vlen.toNat)) := by
  obtain ⟨hmake, hkeep, hres⟩ := makeSpace_refines hP h hp (xqcDtableEntrySize nlen.toNat vlen.toNat)
  have hnil : slice name 0 nlen.toNat = [] ↔ nlen = 0 := by
    rw [← length_eq_zero_iff, length_slice, ← toNat_inj]; rfl
  have hsize : xqcDtableEntrySize (slice name 0 nlen.toNat).length (slice value 0 vlen.toNat).length =
      xqcDtableEntrySize nlen.toNat vlen.toNat := by rw [length_slice, length_slice]
  by_cases hname : nlen = 0
  · refine .inl ⟨dt, t, .param, ?_, ?_, h, hp⟩
    · rw [xqcDtableAdd, if_pos hname]
    · rw [DynTable.xqcDtableAdd, if_pos (hnil.mpr hname)]
  by_cases hspace : xqcDtableEntrySize nlen.toNat vlen.toNat > dt.capacity
  · refine .inl ⟨dt, t, .limit, ?_, ?_, h, hp⟩
    · rw [xqcDtableAdd, if_neg hname, if_pos hspace]
    · rw [DynTable.xqcDtableAdd, if_neg (mt hnil.mp hname), hsize, if_pos (h.capacity ▸ hspace)]
  rcases hd : xqcDtableMakeSpace dt (xqcDtableEntrySize nlen.toNat vlen.toNat) with ⟨d, dres⟩
  rcases ht : DynTable.xqcDtableMakeSpace t (xqcDtableEntrySize nlen.toNat vlen.toNat) with ⟨u, ures⟩
  rw [hd, ht] at hmake hkeep hres
  dsimp only at hmake hkeep hres
  subst hres
  cases dres with
  | error e =>
    refine .inl ⟨d, u, e, ?_, ?_, hmake, hkeep⟩
    · rw [xqcDtableAdd, if_neg hname, if_neg hspace, hd]
    · rw [DynTable.xqcDtableAdd, if_neg (mt hnil.mp hname), hsize, if_neg (h.capacity ▸ hspace), ht]
  | ok _ =>
    have hroom : u.used + xqcDtableEntrySize nlen.toNat vlen.toNat ≤ u.capacity := by
      rcases DynTable.makeSpace_spec h.ok (xqcDtableEntrySize nlen.toNat vlen.toNat) with ⟨hc, hm⟩ | ⟨-, e, hm⟩
      · rw [ht] at hm; cases hm; exact DynTable.drop_room h.ok hc.1
      · rw [ht] at hm; cases hm
    have heidx : d.rmem.eidx.toNat = dt.rmem.eidx.toNat := hmake.ring.length.symm.trans h.ring.length
    obtain ⟨d', hd', href, hpushed⟩ := add_pushed hmake name value hname (Nat.not_lt.mp hspace) hd hroom (by omega)
    refine .inr ⟨d, u, d', hmake, hkeep, hd', ?_, href, hpushed⟩
    rw [DynTable.xqcDtableAdd, if_neg (mt hnil.mp hname), hsize, if_neg (h.capacity ▸ hspace), ht, Table.push, hsize]

lemma slice_memOf (xs : List UInt8) (hlen : xs.length < 2 ^ 64) :
    slice (memOf xs) 0 (UInt64.ofNat xs.length).toNat = xs := by
  rw [toNat_ofNat_of_lt' (show _ < 2 ^ 64 from hlen), slice_eq_iff]; exact fun _ _ => rfl

theorem duplicate_cases {P : Dtable → Table → Prop}
    (hP : ∀ {dt t}, Refines dt t log → P dt t → P (xqcDtablePopEntry dt).1 (DynTable.xqcDtablePopEntry t).1)
    (h : Refines dt t log) (hp : P dt t) (idx : Nat)
    (hidx : ∀ e, DynTable.xqcDtableGetEntryByAbsIdx t idx = some e →
      dt.rmem.eidx.toNat + e.name.length + e.value.length < 2 ^ 64) :
    (∃ d u err, xqcDtableDuplicate dt idx true = (d, .error err) ∧ DynTable.xqcDtableDuplicate t idx = (u, .error err) ∧
        Refines d u log ∧ P d u) ∨
      ∃ e d u d', DynTable.xqcDtableGetEntryByAbsIdx t idx = some e ∧ Refines d u log ∧ P d u ∧
        xqcDtableDuplicate dt idx true = (d', .ok u.insertCnt) ∧
        DynTable.xqcDtableDuplicate t idx = (u.push e.name e.value, .ok u.insertCnt) ∧
        Refines d' (u.push e.name e.value) (log ++ e.name ++ e.value) ∧
        Pushed d d' (hashOf e.name) (lastOf e.value) := by
  unfold xqcDtableDuplicate DynTable.xqcDtableDuplicate
  rcases getNv_spec h idx with ⟨hd, ht⟩ | ⟨e, hd, ht⟩
  · rw [hd, ht]; exact .inl ⟨dt, t, _, rfl, rfl, h, hp⟩
  rw [hd, ht]
  dsimp only
  obtain ⟨hmake, hkeep, hres⟩ := makeSpace_refines hP h hp (xqcDtableEntrySize e.name.length e.value.length)
  have hsmall := hidx e ht
  rcases hds : xqcDtableMakeSpace dt (xqcDtableEntrySize e.name.length e.value.length) with ⟨d, dres⟩
  rcases hts : DynTable.xqcDtableMakeSpace t (xqcDtableEntrySize e.name.length e.value.length) with ⟨u, ures⟩
  rw [hds, hts] at hmake hkeep hres
  dsimp only at hmake hkeep hres
  subst hres
  cases dres with
  | error err => exact .inl ⟨d, u, _, rfl, rfl, hmake, hkeep⟩
  | ok _ =>
    have heidx : d.rmem.eidx.toNat = dt.rmem.eidx.toNat := hmake.ring.length.symm.trans h.ring.length
    have hname := slice_memOf e.name (by omega)
    have hvalue := slice_memOf e.value (by omega)
    have hadd := add_cases hP hmake hkeep (memOf e.name) (UInt64.ofNat e.name.length) (memOf e.value)
      (UInt64.ofNat e.value.length) (by
        rw [toNat_ofNat_of_lt' (show _ < 2 ^ 64 by omega), toNat_ofNat_of_lt' (show _ < 2 ^ 64 by omega)]
        omega)
    rw [hname, hvalue] at hadd
    rcases hadd with herr | ⟨d1, u1, d', h1, h2, h3, h4, h5, h6⟩
    · exact .inl herr
    · exact .inr ⟨e, d1, u1, d', rfl, h1, h2, h3, h4, h5, h6⟩

end Add

/-! ## References and the capacity -/

theorem setMinRef_refines (h : Refines dt t log) (ref : WithTop Nat) :
    Refines (xqcDtableSetMinRef dt ref).1 (DynTable.xqcDtableSetMinRef t ref).1 log ∧
      (xqcDtableSetMinRef dt ref).1.ht2d = dt.ht2d ∧ (xqcDtableSetMinRef dt ref).1.entries = dt.entries ∧
      (DynTable.xqcDtableSetMinRef t ref).1.entries = t.entries ∧
      (xqcDtableSetMinRef dt ref).2 = (DynTable.xqcDtableSetMinRef t ref).2 := by
  unfold xqcDtableSetMinRef; rw [h.minRef, h.front]
  by_cases hne : ref = t.minRef
  · rw [if_pos hne, DynTable.xqcDtableSetMinRef, if_pos hne]; exact ⟨h, rfl, rfl, rfl, rfl⟩
  rw [if_neg hne]
  by_cases hes : t.entries = []
  · rw [if_pos hes, DynTable.xqcDtableSetMinRef, if_neg hne, if_pos hes]
    exact ⟨h, rfl, rfl, rfl, rfl⟩
  rw [if_neg hes]
  dsimp only
  obtain ⟨e, es, hcons⟩ := exists_cons_of_ne_nil hes
  rw [(h.first hcons).absIndex, show t.firstIdx + dt.entries.count = t.insertCnt by rw [h.count]; rfl]
  by_cases hout : ref ≠ ⊤ ∧ (ref < t.firstIdx ∨ ref ≥ t.insertCnt)
  · rw [if_pos hout, DynTable.xqcDtableSetMinRef, if_neg hne, if_neg hes, if_pos hout]
    exact ⟨h, rfl, rfl, rfl, rfl⟩
  · have hset : DynTable.xqcDtableSetMinRef t ref = ({ t with minRef := ref }, .ok ()) := by
      rw [DynTable.xqcDtableSetMinRef, if_neg hne, if_neg hes, if_neg hout]
    rw [if_neg hout, hset]
    refine ⟨?_, rfl, rfl, rfl, rfl⟩
    exact ⟨(DynTable.setMinRef_spec h.ok hset).2, h.ring, h.ringCap, h.bytes, h.array, h.arrayCap, h.count, h.firstIdx,
      h.insertCnt, h.capacity, h.used, h.byteSum, rfl, h.slots, h.nodes⟩

lemma rarrayResize_spec {ra : Rarray} (h : ra.Good) (cap : UInt64) (alloc : Bool) (garbage : Nat → Slot)
    (hgrows : cap.toNat ≤ ra.cap ∨ ra.count = 0) :
    (∃ e, xqcRarrayResize ra cap alloc garbage = .error e) ∨
      ∃ ra', xqcRarrayResize ra cap alloc garbage = .ok ra' ∧ ra'.Good ∧ cap.toNat ≤ ra'.cap ∧
        (ra' = ra ∨ ra'.count = 0 ∧ ra.count = 0 ∧ ra.cap < cap.toNat) := by
  unfold xqcRarrayResize; split
  · exact .inl ⟨_, rfl⟩
  split
  · rename_i hle; exact .inr ⟨ra, rfl, h, hle, .inl rfl⟩
  rename_i hlarge
  split
  · exact .inl ⟨_, rfl⟩
  rename_i hpow
  split
  · exact .inl ⟨_, rfl⟩
  obtain ⟨k, hk, hcap, hupper⟩ := xqcPow2Upper_spec hpow
  have hzero : ra.count = 0 := hgrows.resolve_left hlarge
  refine .inr ⟨_, rfl, ⟨⟨k, hk, hcap⟩, rfl, ?_, ?_⟩, ?_, .inr ⟨hzero, hzero, Nat.not_le.mp hlarge⟩⟩
  · show 0 < (xqcPow2Upper cap).toNat; rw [hcap]; exact Nat.two_pow_pos k
  · show ra.count ≤ _; rw [hzero]; exact zero_le
  · show cap.toNat ≤ (xqcPow2Upper cap).toNat; omega

variable {cap : UInt64}

lemma resize_capacity_le {r' : Rmem} {alloc : Bool} {garbage : Mem} {ts : List Touch}
    (hres : xqcRingMemResize r cap alloc garbage = (ts, .ok r')) (hcap : cap ≤ r'.capacity) : r.capacity ≤ r'.capacity := by
  by_cases hle : cap ≤ r.capacity
  · unfold xqcRingMemResize at hres; split at hres
    · cases hres
    · cases hres; exact UInt64.le_refl _
  · rw [le_iff_toNat_le] at *; omega

/-- The ring memory is not cut by the change, and the array moves only while nothing is in it
    and nothing points at it. -/
def Dtable.CanSet (dt : Dtable) (capacity : UInt64) : Prop :=
  dt.rmem.Grows capacity ∧
    (capacity.toNat / 32 ≤ dt.entries.cap ∨ dt.entries.count = 0 ∧ ∀ b, dt.ht2d.list b = [])

lemma Refines.moved (h : Refines dt t log) (hsidx : r.sidx = dt.rmem.sidx) (hgood : r.Good r.sidx.toNat log)
    {ra : Rarray} (harray : ra.Good)
    (hra : ra = dt.entries ∨ ra.count = 0 ∧ dt.entries.count = 0 ∧ ∀ b, dt.ht2d.list b = []) {c : Nat} (hc : t.used ≤ c)
    (hring : c ≤ r.capacity.toNat) (hcap : c / entrySizeBase ≤ ra.cap) :
    Refines { dt with rmem := r, entries := ra, capacity := c } { t with capacity := c } log := by
  have hok : ({ t with capacity := c } : Table).Ok := ⟨h.ok.used, hc, h.ok.named, h.ok.summed, h.ok.ref⟩
  rcases hra with rfl | ⟨hzero, hold, hnone⟩
  · refine ⟨hok, hgood, hring, ?_, harray, hcap, h.count, h.firstIdx, h.insertCnt, rfl, h.used, h.byteSum, h.minRef, ?_, ?_⟩
    · rw [hsidx]; exact h.bytes
    · rw [hsidx]; exact h.slots
    · rw [hsidx]; exact h.nodes
  · have hempty : t.entries = [] := length_eq_zero_iff.mp (h.count ▸ hold)
    refine ⟨hok, hgood, hring, ?_, harray, hcap, ?_, h.firstIdx, h.insertCnt, rfl, h.used, h.byteSum, h.minRef,
      fun i e he => ?_, fun b n hn => ?_⟩
    · rw [hsidx]; exact h.bytes
    · show ra.count = t.entries.length; rw [hzero, hempty]; rfl
    · have he : t.entries[i]? = some e := he
      rw [hempty] at he; cases he
    · have hn : n ∈ dt.ht2d.list b := hn
      rw [hnone b] at hn; exact (not_mem_nil hn).elim

lemma resizeBoth_refines (h : Refines dt t log) (a : Alloc) (hset : dt.CanSet cap) (hused : t.used ≤ cap.toNat) :
    ∃ r, (resizeBoth dt cap a = ({ dt with rmem := r }, .error .resize) ∧ Refines { dt with rmem := r } t log) ∨
      ∃ ra, resizeBoth dt cap a = ({ dt with rmem := r, entries := ra, capacity := cap.toNat }, .ok ()) ∧
        (ra = dt.entries ∨ t.entries = []) ∧
        Refines { dt with rmem := r, entries := ra, capacity := cap.toNat } { t with capacity := cap.toNat } log := by
  unfold resizeBoth
  rcases resize_spec (fun _ => 0) h.ring a.ring a.mem hset.1 with ⟨e, hres⟩ | ⟨ts, r, hres, hsidx, -, hgood, hcap, -⟩
  · rw [hres]; exact ⟨dt.rmem, .inl ⟨rfl, h⟩⟩
  have hlarger := le_iff_toNat_le.mp (resize_capacity_le hres hcap)
  have hcap32 : (cap / 32).toNat = cap.toNat / 32 := by
    rfl
  rw [← hsidx] at hgood
  rw [hres]
  refine ⟨r, ?_⟩
  rcases rarrayResize_spec h.array (cap / 32) a.array a.slots (by rw [hcap32]; exact hset.2.imp id And.left) with
    ⟨e, hra⟩ | ⟨ra, hra, harray, hle, hsame⟩
  · rw [hra]
    refine .inl ⟨rfl, ?_⟩
    have := h.moved hsidx hgood h.array (.inl rfl) h.ok.fits (h.ringCap.trans hlarger) h.arrayCap
    rw [← h.capacity] at this
    rw [show t = { t with capacity := dt.capacity } by rw [h.capacity]]
    exact this
  · rw [hra]
    have hmoved : ra = dt.entries ∨ ra.count = 0 ∧ dt.entries.count = 0 ∧ ∀ b, dt.ht2d.list b = [] := by
      rcases hsame with hs | ⟨h1, h2, h3⟩
      · exact .inl hs
      · exact .inr ⟨h1, h2, (hset.2.resolve_left (Nat.not_le.mpr h3)).2⟩
    refine .inr ⟨ra, rfl, hmoved.imp id fun hm => ?_, h.moved hsidx hgood harray hmoved hused
      (le_iff_toNat_le.mp hcap) hle⟩
    exact length_eq_zero_iff.mp (h.count ▸ hm.2.1)

theorem setCapacity_cases {P : Dtable → Table → Prop}
    (hP : ∀ {dt t}, Refines dt t log → P dt t → P (xqcDtablePopEntry dt).1 (DynTable.xqcDtablePopEntry t).1)
    (h : Refines dt t log) (hp : P dt t) (a : Alloc) (hset : dt.CanSet cap) :
    ∃ d u, Refines d u log ∧ P d u ∧
      ((∃ e, xqcDtableSetCapacity dt cap a = (d, .error e) ∧
          ∀ resized, DynTable.xqcDtableSetCapacity t cap.toNat resized = (u, .error e)) ∨
        ∃ r, (xqcDtableSetCapacity dt cap a = ({ d with rmem := r }, .error .resize) ∧
            DynTable.xqcDtableSetCapacity t cap.toNat false = (u, .error .resize) ∧ Refines { d with rmem := r } u log) ∨
          ∃ ra, xqcDtableSetCapacity dt cap a = ({ d with rmem := r, entries := ra, capacity := cap.toNat }, .ok ()) ∧
            DynTable.xqcDtableSetCapacity t cap.toNat true = ({ u with capacity := cap.toNat }, .ok ()) ∧
            (ra = d.entries ∨ u.entries = []) ∧
            Refines { d with rmem := r, entries := ra, capacity := cap.toNat } { u with capacity := cap.toNat } log) := by
  unfold xqcDtableSetCapacity DynTable.xqcDtableSetCapacity
  by_cases hless : cap.toNat < dt.capacity
  · have hless' : cap.toNat < t.capacity := h.capacity ▸ hless
    rw [if_pos hless, if_pos hless', h.capacity]
    obtain ⟨hmake, hkeep, hres⟩ := makeSpace_refines hP h hp (t.capacity - cap.toNat)
    have hspec := DynTable.makeSpace_spec h.ok (t.capacity - cap.toNat)
    rcases hds : xqcDtableMakeSpace dt (t.capacity - cap.toNat) with ⟨d, dres⟩
    rcases hts : DynTable.xqcDtableMakeSpace t (t.capacity - cap.toNat) with ⟨u, ures⟩
    rw [hds, hts] at hmake hkeep hres
    rw [hts] at hspec
    dsimp only at hmake hkeep hres
    subst hres
    refine ⟨d, u, hmake, hkeep, ?_⟩
    cases dres with
    | error e => exact .inl ⟨e, rfl, fun _ => rfl⟩
    | ok _ =>
      have hu : u.capacity = t.capacity ∧ u.used ≤ cap.toNat := by
        rcases hspec with ⟨hc, hm⟩ | ⟨-, e, hm⟩
        · have hroom := DynTable.drop_room h.ok hc.1
          cases hm; exact ⟨rfl, by omega⟩
        · cases hm
      have hcan : d.CanSet cap := by
        have h1 := hmake.ringCap
        have h2 := hmake.arrayCap
        rw [hu.1] at h1 h2
        refine ⟨.inl (le_iff_toNat_le.mpr (by omega)), .inl ?_⟩
        exact (Nat.div_le_div_right hless'.le).trans h2
      obtain ⟨r, hres⟩ := resizeBoth_refines hmake a hcan hu.2
      exact .inr ⟨r, hres.imp (fun ⟨h1, h2⟩ => ⟨h1, rfl, h2⟩) fun ⟨ra, h1, h2, h3⟩ => ⟨ra, h1, rfl, h2, h3⟩⟩
  · have hless' : ¬ cap.toNat < t.capacity := h.capacity ▸ hless
    rw [if_neg hless, if_neg hless']
    have hfits := h.ok.fits
    obtain ⟨r, hres⟩ := resizeBoth_refines h a hset (by omega)
    exact ⟨dt, t, h, hp, .inr ⟨r, hres.imp (fun ⟨h1, h2⟩ => ⟨h1, rfl, h2⟩) fun ⟨ra, h1, h2, h3⟩ => ⟨ra, h1, rfl, h2, h3⟩⟩⟩

lemma create_refines {buckets : UInt64} (hb : xqcPow2Upper buckets = buckets) (heads : UInt64 → List Node)
    (garbage : Nat → Slot) (freed : Ptr → Slot) (mem : Mem) :
    Refines (xqcDtableCreate buckets heads garbage freed mem) DynTable.xqcDtableCreate [] := by
  refine ⟨DynTable.create_ok, ⟨.inl rfl, rfl, rfl, le_rfl, le_rfl, rfl, fun i _ hi => ?_⟩, le_rfl, rfl,
    ⟨⟨0, by decide, rfl⟩, rfl, Nat.one_pos, zero_le⟩, zero_le, rfl, rfl, rfl, rfl, rfl, rfl, rfl,
    fun i e he => ?_, fun b n hn => ?_⟩
  · exact absurd hi (Nat.not_lt_zero i)
  · cases he
  · have hempty : (xqcDtableCreate buckets heads garbage freed mem).ht2d.list b = [] := by
      refine if_neg fun hin => ?_
      rw [hb] at hin; exact UInt64.not_lt.mpr hin.1 hin.2
    rw [hempty] at hn; exact (not_mem_nil hn).elim

end RlccQuic.Http3.TableMem
