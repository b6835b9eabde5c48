/-
  RlccQuic.Http3.Table — the dynamic table as a queue of fields (`qpack/dtable/xqc_dtable.c`).

  What the functions of the table do to its entries, their sizes and the lowest entry that is referred to. Where the
  names and values are kept, and how an entry is found by name, is left to `RlccQuic.Http3.TableMem`, which does the
  same in a ring memory, a ring array and a hash table. Counters are natural numbers, and the index that stands for no
  reference (`XQC_INVALID_INDEX`) is the top.

  Proved: to make space is to drop the least number of entries that gives it, or to fail
  and change nothing (`makeSpace_spec`); so an entry that is referred to stays, and two
  tables with the same entries drop the same ones (`add_spec`, `duplicate_spec`).
-/

import Mathlib

namespace RlccQuic.Http3.DynTable

open List
open Nat (add_assoc)

/-! ## Entries -/

def entrySizeBase : Nat := 32

def xqcDtableEntrySize (nlen vlen : Nat) : Nat := entrySizeBase + nlen + vlen

def xqcDtableMaxEntryCnt (capacity : Nat) : Nat := capacity / entrySizeBase

structure Entry where
  name : List UInt8
  value : List UInt8
  /-- The bytes that were inserted before it. -/
  sum : Nat
  deriving DecidableEq, Repr

def Entry.size (e : Entry) : Nat := xqcDtableEntrySize e.name.length e.value.length

structure Table where
  entries : List Entry
  firstIdx : Nat
  capacity : Nat
  used : Nat
  byteSum : Nat
  minRef : WithTop Nat
  deriving DecidableEq

def xqcDtableCreate : Table := ⟨[], 0, 0, 0, 0, ⊤⟩

def Table.insertCnt (t : Table) : Nat := t.firstIdx + t.entries.length

inductive Err where
  | param
  | limit
  | notEnough
  | voidEntry
  | referred
  /-- The memory could not be had. -/
  | resize
  | malloc
  deriving DecidableEq, Repr

/-- A function of the table may fail half way, so it always gives the table it leaves. -/
abbrev Out (α : Type) := Table × Except Err α

def xqcDtableGetEntryByAbsIdx (t : Table) (idx : Nat) : Option Entry :=
  if idx < t.firstIdx then none else t.entries[idx - t.firstIdx]?

/-! ## Eviction -/

def xqcDtablePopEntry (t : Table) : Out Unit :=
  match t.entries with
  | [] => (t, .error .voidEntry)
  | e :: es =>
    if (t.firstIdx : WithTop Nat) ≥ t.minRef then (t, .error .referred)
    else ({ t with entries := es, used := t.used - e.size, firstIdx := t.firstIdx + 1 }, .ok ())

/-- `while (space > dt->capacity - dt->used)`; every round takes an entry. -/
def popLoop (space : Nat) : Nat → Table → Out Unit
  | 0, t => (t, if space > t.capacity - t.used then .error .voidEntry else .ok ())
  | fuel + 1, t =>
    if space > t.capacity - t.used then
      match xqcDtablePopEntry t with
      | (t, .error e) => (t, .error e)
      | (t, .ok ()) => popLoop space fuel t
    else (t, .ok ())

/-- The lowest entry that is referred to, if making space has to look at it. -/
def lookAtRef (t : Table) (space : Nat) : Option Nat :=
  if t.capacity - t.used < space then t.minRef.recTopCoe none some else none

def xqcDtableMakeSpace (t : Table) (space : Nat) : Out Unit :=
  if space > t.capacity then (t, .error .notEnough)
  else
    match lookAtRef t space with
    | none => popLoop space t.entries.length t
    | some ref =>
      match t.entries with
      | [] => (t, .error .voidEntry)
      | first :: _ =>
        match xqcDtableGetEntryByAbsIdx t ref with
        | none => (t, .error .voidEntry)
        | some entry =>
          if t.capacity - t.used + (entry.sum - first.sum) < space then (t, .error .notEnough)
          else popLoop space t.entries.length t

/-! ## Insertion -/

def xqcDtableAdd (t : Table) (name value : List UInt8) : Out Nat :=
  if name = [] then (t, .error .param)
  else if xqcDtableEntrySize name.length value.length > t.capacity then (t, .error .limit)
  else
    match xqcDtableMakeSpace t (xqcDtableEntrySize name.length value.length) with
    | (t, .error e) => (t, .error e)
    | (t, .ok ()) =>
      ({ t with
          entries := t.entries ++ [⟨name, value, t.byteSum⟩]
          used := t.used + xqcDtableEntrySize name.length value.length
          byteSum := t.byteSum + xqcDtableEntrySize name.length value.length }, .ok t.insertCnt)

def xqcDtableDuplicate (t : Table) (idx : Nat) : Out Nat :=
  match xqcDtableGetEntryByAbsIdx t idx with
  | none => (t, .error .voidEntry)
  | some e =>
    match xqcDtableMakeSpace t (xqcDtableEntrySize e.name.length e.value.length) with
    | (t, .error _) => (t, .error .limit)
    | (t, .ok ()) => xqcDtableAdd t e.name e.value

def xqcDtableSetMinRef (t : Table) (ref : WithTop Nat) : Out Unit :=
  if ref = t.minRef then (t, .ok ())
  else if t.entries = [] then (t, .error .voidEntry)
  else if ref ≠ ⊤ ∧ (ref < t.firstIdx ∨ ref ≥ t.insertCnt) then (t, .error .voidEntry)
  else ({ t with minRef := ref }, .ok ())

/-- `resized` says whether the memory could be changed. -/
def xqcDtableSetCapacity (t : Table) (capacity : Nat) (resized : Bool) : Out Unit :=
  match if capacity < t.capacity then xqcDtableMakeSpace t (t.capacity - capacity) else (t, .ok ()) with
  | (t, .error e) => (t, .error e)
  | (t, .ok ()) => if resized then ({ t with capacity := capacity }, .ok ()) else (t, .error .resize)

def xqcDtableIsEntryDraining (t : Table) (idx : Nat) : Option Bool :=
  (xqcDtableGetEntryByAbsIdx t idx).map fun e => t.byteSum - e.sum > t.capacity - min 512 (t.capacity / 8)

/-! ## Sizes -/

def totalSize (es : List Entry) : Nat := (es.map Entry.size).sum

@[simp] lemma totalSize_nil : totalSize [] = 0 := rfl

@[simp] lemma totalSize_cons (e : Entry) (es : List Entry) : totalSize (e :: es) = e.size + totalSize es := rfl

@[simp] lemma totalSize_append (es fs : List Entry) : totalSize (es ++ fs) = totalSize es + totalSize fs := by
  simp [totalSize]

/-- Every entry counts the bytes before it, and `n` those before the first. -/
def Summed : Nat → List Entry → Prop
  | _, [] => True
  | n, e :: es => e.sum = n ∧ Summed (n + e.size) es

structure Table.Ok (t : Table) : Prop where
  used : t.used = totalSize t.entries
  fits : t.used ≤ t.capacity
  named : ∀ e ∈ t.entries, e.name ≠ []
  summed : t.used ≤ t.byteSum ∧ Summed (t.byteSum - t.used) t.entries
  ref : ∀ m : Nat, t.minRef = m → t.firstIdx ≤ m ∧ m < t.insertCnt

lemma Entry.base_le_size (e : Entry) : entrySizeBase ≤ e.size := by
  unfold Entry.size xqcDtableEntrySize
  omega

variable {es : List Entry} {e : Entry}

lemma Summed.append : ∀ {n : Nat}, Summed n es → e.sum = n + totalSize es →
    Summed n (es ++ [e]) := by
  induction es with
  | nil => exact fun _ he => ⟨he, trivial⟩
  | cons d es ih =>
    intro n h he
    refine ⟨h.1, ih h.2 ?_⟩
    rw [he, totalSize_cons, add_assoc]

lemma Summed.sum_at : ∀ {n i : Nat} {e : Entry}, Summed n es → es[i]? = some e →
    e.sum = n + totalSize (es.take i) := by
  induction es with
  | nil => exact fun _ h => by simp at h
  | cons d es ih =>
    intro n i e h he
    cases i with
    | zero =>
      obtain rfl : d = e := by simpa using he
      exact h.1
    | succ i =>
      rw [ih h.2 he, take_succ_cons, totalSize_cons, add_assoc]

lemma Summed.drop : ∀ {n : Nat} (k : Nat), Summed n es →
    Summed (n + totalSize (es.take k)) (es.drop k) := by
  induction es with
  | nil => exact fun k _ => by simp [Summed]
  | cons d es ih =>
    intro n k h
    cases k with
    | zero => exact h
    | succ k => rw [take_succ_cons, totalSize_cons, drop_succ_cons, ← add_assoc]; exact ih k h.2

/-! ## The least number of entries to drop -/

/-- With `free` bytes, how many entries go to have `space`. -/
def toEvict (space : Nat) : Nat → List Entry → Nat
  | _, [] => 0
  | free, e :: es => if space > free then toEvict space (free + e.size) es + 1 else 0

def Table.drop (t : Table) (k : Nat) : Table :=
  { t with entries := t.entries.drop k, used := t.used - totalSize (t.entries.take k), firstIdx := t.firstIdx + k }

lemma toEvict_le_length (space : Nat) (es : List Entry) : ∀ free, toEvict space free es ≤ es.length := by
  induction es with
  | nil => exact fun _ => le_rfl
  | cons e es ih =>
    intro free; unfold toEvict
    split
    · exact Nat.succ_le_succ (ih _)
    · exact zero_le

lemma toEvict_le {space : Nat} : ∀ {free k : Nat}, space ≤ free + totalSize (es.take k) →
    toEvict space free es ≤ k := by
  induction es with
  | nil => exact fun _ => zero_le
  | cons e es ih =>
    intro free k h; unfold toEvict
    split
    · cases k with
      | zero => rw [take_zero, totalSize_nil] at h; omega
      | succ k =>
        rw [take_succ_cons, totalSize_cons, ← add_assoc] at h
        exact Nat.succ_le_succ (ih h)
    · exact zero_le

lemma toEvict_enough {space : Nat} : ∀ {free : Nat}, space ≤ free + totalSize es →
    space ≤ free + totalSize (es.take (toEvict space free es)) := by
  induction es with
  | nil => exact fun h => h
  | cons e es ih =>
    intro free h; unfold toEvict
    split
    · rw [totalSize_cons, ← add_assoc] at h
      rw [take_succ_cons, totalSize_cons, ← add_assoc]; exact ih h
    · rename_i hfree; omega

variable {t : Table}

@[simp] lemma drop_zero (t : Table) : t.drop 0 = t := by simp [Table.drop]

lemma popEntry_drop (hes : t.entries = e :: es) (href : (t.firstIdx : WithTop Nat) < t.minRef) :
    xqcDtablePopEntry t = (t.drop 1, .ok ()) := by
  unfold xqcDtablePopEntry; rw [hes]
  dsimp only; rw [if_neg (not_le.mpr href)]
  simp [Table.drop, hes]

lemma drop_drop (t : Table) (j k : Nat) : (t.drop j).drop k = t.drop (j + k) := by
  unfold Table.drop
  rw [List.drop_drop, List.take_add, totalSize_append, Nat.sub_sub, add_assoc]

lemma popLoop_spec (space : Nat) : ∀ (fuel : Nat) {t : Table}, t.entries.length = fuel → t.used = totalSize t.entries →
    t.used ≤ t.capacity → space ≤ t.capacity →
    ((t.firstIdx + toEvict space (t.capacity - t.used) t.entries : Nat) : WithTop Nat) ≤ t.minRef →
    popLoop space fuel t = (t.drop (toEvict space (t.capacity - t.used) t.entries), .ok ())
  | 0, t, hlen, hused, _, hspace, _ => by
    rw [length_eq_zero_iff.mp hlen] at hused ⊢
    rw [popLoop, if_neg (by rw [hused, totalSize_nil]; omega), toEvict, drop_zero]
  | fuel + 1, t, hlen, hused, hfits, hspace, href => by
    unfold popLoop; split
    · rename_i hmore
      cases hes : t.entries with
      | nil => rw [hes] at hlen; cases hlen
      | cons e es =>
        rw [hes, totalSize_cons] at hused
        rw [hes] at hlen
        have hstep : toEvict space (t.capacity - t.used) (e :: es) =
            toEvict space (t.capacity - t.used + e.size) es + 1 := by
          rw [toEvict, if_pos hmore]
        rw [hes, hstep] at href
        have hone : (t.drop 1).entries = es := by simp [Table.drop, hes]
        have hoff : (t.drop 1).used = t.used - e.size := by simp [Table.drop, hes]
        have hroom : (t.drop 1).capacity - (t.drop 1).used = t.capacity - t.used + e.size := by
          show t.capacity - (t.drop 1).used = _
          omega
        have hfirst : t.firstIdx < t.firstIdx + (toEvict space (t.capacity - t.used + e.size) es + 1) := by omega
        have hpop := popEntry_drop hes (lt_of_lt_of_le (Nat.cast_lt.mpr hfirst) href)
        have ih := popLoop_spec space fuel (t := t.drop 1) (by rw [hone]; simpa using hlen) (by rw [hoff, hone]; omega)
          (by rw [hoff]; show _ ≤ t.capacity; omega) hspace (by
            rw [hroom, hone]
            show ((t.firstIdx + 1 + _ : Nat) : WithTop Nat) ≤ t.minRef
            rw [add_assoc, Nat.add_comm 1]
            exact href)
        rw [hpop]
        dsimp only; rw [ih, hroom, hone, drop_drop, hstep, Nat.add_comm 1]
    · rename_i hdone
      have hzero : toEvict space (t.capacity - t.used) t.entries = 0 := by
        cases t.entries with
        | nil => rfl
        | cons e es => rw [toEvict, if_neg hdone]
      rw [hzero, drop_zero]

def Table.evicts (t : Table) (space : Nat) : Nat := toEvict space (t.capacity - t.used) t.entries

/-- The space can be made without an entry that is referred to. -/
def Table.CanMake (t : Table) (space : Nat) : Prop :=
  space ≤ t.capacity ∧ ((t.firstIdx + t.evicts space : Nat) : WithTop Nat) ≤ t.minRef

variable {k : Nat}

lemma totalSize_take_mono (es : List Entry) {j : Nat} (h : j ≤ k) : totalSize (es.take j) ≤ totalSize (es.take k) := by
  obtain ⟨d, rfl⟩ := Nat.exists_eq_add_of_le h
  rw [take_add, totalSize_append]; exact Nat.le_add_right _ _

/-- Space is made by dropping the least number of entries; otherwise nothing changes. -/
theorem makeSpace_spec (h : t.Ok) (space : Nat) :
    (t.CanMake space ∧ xqcDtableMakeSpace t space = (t.drop (t.evicts space), .ok ())) ∨
      (¬ t.CanMake space ∧ ∃ e, xqcDtableMakeSpace t space = (t, .error e)) := by
  unfold xqcDtableMakeSpace
  by_cases hspace : space > t.capacity
  · rw [if_pos hspace]; exact .inr ⟨fun hc => absurd hc.1 (Nat.not_le.mpr hspace), _, rfl⟩
  rw [if_neg hspace]
  have hle : space ≤ t.capacity := Nat.not_lt.mp hspace
  have henough : space ≤ t.capacity - t.used + totalSize t.entries := by
    have := h.used; omega
  have loop : ((t.firstIdx + t.evicts space : Nat) : WithTop Nat) ≤ t.minRef →
      popLoop space t.entries.length t = (t.drop (t.evicts space), .ok ()) :=
    popLoop_spec space _ rfl h.used h.fits hle
  cases hlook : lookAtRef t space with
  | none =>
    have href : ((t.firstIdx + t.evicts space : Nat) : WithTop Nat) ≤ t.minRef := by
      unfold lookAtRef at hlook
      cases hm : t.minRef with
      | top => exact le_top
      | coe m =>
        rw [hm] at hlook; split at hlook
        · cases hlook
        · rename_i hroom
          have hzero : t.evicts space = 0 := Nat.le_zero.mp (toEvict_le (by rw [take_zero, totalSize_nil]; omega))
          rw [hzero, Nat.add_zero]; exact WithTop.coe_le_coe.mpr (h.ref m hm).1
    exact .inl ⟨⟨hle, href⟩, loop href⟩
  | some m =>
    have hm : t.minRef = m ∧ t.capacity - t.used < space := by
      unfold lookAtRef at hlook; split at hlook
      · rename_i hroom
        cases hm : t.minRef with
        | top => rw [hm] at hlook; cases hlook
        | coe m' => rw [hm] at hlook; cases hlook; exact ⟨rfl, hroom⟩
      · cases hlook
    obtain ⟨hfirst, hlast⟩ := h.ref m hm.1
    obtain ⟨entry, hentry⟩ : ∃ entry, t.entries[m - t.firstIdx]? = some entry := by
      unfold Table.insertCnt at hlast
      exact ⟨_, getElem?_eq_getElem (by omega)⟩
    have hat : xqcDtableGetEntryByAbsIdx t m = some entry := by
      rw [xqcDtableGetEntryByAbsIdx, if_neg (Nat.not_lt.mpr hfirst), hentry]
    have hsum := h.summed.2.sum_at hentry
    cases hes : t.entries with
    | nil =>
      rw [hes] at hentry
      simp at hentry
    | cons first rest =>
      have hfirstSum : first.sum = t.byteSum - t.used := (hes ▸ h.summed.2).1
      dsimp only; rw [hat]
      dsimp only
      rw [show entry.sum - first.sum = totalSize (t.entries.take (m - t.firstIdx)) by omega]
      split
      · rename_i hfew
        refine .inr ⟨fun hc => ?_, _, rfl⟩
        have hk : t.evicts space ≤ m - t.firstIdx := by
          have := hc.2
          rw [hm.1, Nat.cast_le] at this; omega
        have := toEvict_enough henough
        have := totalSize_take_mono t.entries hk
        unfold Table.evicts at this
        omega
      · rename_i hmany
        have hk : t.evicts space ≤ m - t.firstIdx := toEvict_le (Nat.not_lt.mp hmany)
        have href : ((t.firstIdx + t.evicts space : Nat) : WithTop Nat) ≤ t.minRef := by
          rw [hm.1, Nat.cast_le]; omega
        rw [← hes]; exact .inl ⟨⟨hle, href⟩, loop href⟩

lemma Table.Ok.drop (h : t.Ok) (hk : k ≤ t.entries.length) (href : ((t.firstIdx + k : Nat) : WithTop Nat) ≤ t.minRef) :
    (t.drop k).Ok := by
  have hsplit : totalSize (t.entries.take k) + totalSize (t.entries.drop k) = totalSize t.entries := by
    rw [← totalSize_append, take_append_drop]
  have hused := h.used
  have hfits := h.fits
  obtain ⟨hbytes, hsummed⟩ := h.summed
  refine ⟨?_, ?_, fun e he => h.named e (mem_of_mem_drop he), ⟨?_, ?_⟩, fun m hm => ?_⟩
  · show t.used - totalSize (t.entries.take k) = totalSize (t.entries.drop k); omega
  · show t.used - totalSize (t.entries.take k) ≤ t.capacity; omega
  · show t.used - totalSize (t.entries.take k) ≤ t.byteSum; omega
  · show Summed (t.byteSum - (t.used - totalSize (t.entries.take k))) (t.entries.drop k)
    have := hsummed.drop k
    rwa [show t.byteSum - t.used + totalSize (t.entries.take k) =
      t.byteSum - (t.used - totalSize (t.entries.take k)) by omega] at this
  · have hm' : t.minRef = m := hm
    rw [hm', Nat.cast_le] at href
    have := (h.ref m hm').2
    unfold Table.insertCnt at this ⊢
    show t.firstIdx + k ≤ m ∧ m < t.firstIdx + k + (t.entries.drop k).length
    rw [length_drop]; omega

lemma drop_room (h : t.Ok) {space : Nat} (hspace : space ≤ t.capacity) :
    (t.drop (t.evicts space)).used + space ≤ t.capacity := by
  have hused := h.used
  have hfits := h.fits
  have henough : space ≤ t.capacity - t.used + totalSize t.entries := by omega
  have := toEvict_enough henough
  show t.used - totalSize (t.entries.take (t.evicts space)) + space ≤ t.capacity
  unfold Table.evicts
  omega

/-! ## Insertion and references -/

def Table.push (t : Table) (name value : List UInt8) : Table :=
  { t with
    entries := t.entries ++ [⟨name, value, t.byteSum⟩]
    used := t.used + xqcDtableEntrySize name.length value.length
    byteSum := t.byteSum + xqcDtableEntrySize name.length value.length }

/-- The table after the field was inserted, with the entries dropped that had to be. -/
def Table.insert (t : Table) (name value : List UInt8) : Table :=
  (t.drop (t.evicts (xqcDtableEntrySize name.length value.length))).push name value

variable {name value : List UInt8}

lemma evicts_le (t : Table) (space : Nat) : t.evicts space ≤ t.entries.length := toEvict_le_length _ _ _

lemma insertCnt_drop (hk : k ≤ t.entries.length) : (t.drop k).insertCnt = t.insertCnt := by
  show t.firstIdx + k + (t.entries.drop k).length = t.firstIdx + t.entries.length
  rw [length_drop]; omega

@[simp] lemma insertCnt_push (t : Table) (name value : List UInt8) : (t.push name value).insertCnt = t.insertCnt + 1 := by
  simp [Table.push, Table.insertCnt, add_assoc]

@[simp] lemma insertCnt_insert (t : Table) (name value : List UInt8) : (t.insert name value).insertCnt = t.insertCnt + 1 := by
  rw [Table.insert, insertCnt_push, insertCnt_drop (evicts_le t _)]

lemma Table.Ok.push (h : t.Ok) (hname : name ≠ [])
    (hroom : t.used + xqcDtableEntrySize name.length value.length ≤ t.capacity) : (t.push name value).Ok := by
  obtain ⟨hbytes, hsummed⟩ := h.summed
  have hused := h.used
  refine ⟨?_, hroom, fun e he => ?_, ⟨?_, ?_⟩, fun m hm => ?_⟩
  · show t.used + _ = totalSize (t.entries ++ [_]); rw [totalSize_append, h.used]; rfl
  · rcases mem_append.mp he with he | he
    · exact h.named e he
    · obtain rfl := mem_singleton.mp he
      exact hname
  · exact Nat.add_le_add_right hbytes _
  · show Summed (t.byteSum + _ - (t.used + _)) (t.entries ++ [_])
    rw [Nat.add_sub_add_right]
    refine hsummed.append ?_
    show t.byteSum = _
    omega
  · have := h.ref m hm; rw [insertCnt_push]; exact ⟨this.1, by omega⟩

theorem add_spec (h : t.Ok) (hname : name ≠ []) (value : List UInt8) :
    (t.CanMake (xqcDtableEntrySize name.length value.length) ∧
        xqcDtableAdd t name value = (t.insert name value, .ok t.insertCnt)) ∨
      (¬ t.CanMake (xqcDtableEntrySize name.length value.length) ∧ ∃ e, xqcDtableAdd t name value = (t, .error e)) := by
  unfold xqcDtableAdd; rw [if_neg hname]
  split
  · rename_i hlarge; exact .inr ⟨fun hc => absurd hc.1 (Nat.not_le.mpr hlarge), _, rfl⟩
  · rcases makeSpace_spec h (xqcDtableEntrySize name.length value.length) with ⟨hc, hmake⟩ | ⟨hc, e, hmake⟩
    · rw [hmake]
      dsimp only; rw [insertCnt_drop (evicts_le t _)]
      exact .inl ⟨hc, rfl⟩
    · rw [hmake]; exact .inr ⟨hc, e, rfl⟩

lemma Table.Ok.insert (h : t.Ok) (hname : name ≠ []) (hc : t.CanMake (xqcDtableEntrySize name.length value.length)) :
    (t.insert name value).Ok :=
  (h.drop (evicts_le t _) hc.2).push hname (drop_room h hc.1)

lemma entryAt_some {idx : Nat} (h : xqcDtableGetEntryByAbsIdx t idx = some e) :
    t.firstIdx ≤ idx ∧ idx < t.insertCnt ∧ e ∈ t.entries := by
  unfold xqcDtableGetEntryByAbsIdx at h; split at h
  · cases h
  · rename_i hfirst
    obtain ⟨hlt, -⟩ := List.getElem?_eq_some_iff.mp h
    exact ⟨Nat.not_lt.mp hfirst, by unfold Table.insertCnt; omega, mem_of_getElem? h⟩

theorem duplicate_spec (h : t.Ok) {idx : Nat} (he : xqcDtableGetEntryByAbsIdx t idx = some e) :
    (t.CanMake e.size ∧ xqcDtableDuplicate t idx = (t.insert e.name e.value, .ok t.insertCnt)) ∨
      (¬ t.CanMake e.size ∧ ∃ err, xqcDtableDuplicate t idx = (t, .error err)) := by
  have hname := h.named e (entryAt_some he).2.2
  unfold xqcDtableDuplicate; rw [he]
  dsimp only
  rcases makeSpace_spec h (xqcDtableEntrySize e.name.length e.value.length) with ⟨hc, hmake⟩ | ⟨hc, err, hmake⟩
  · rw [hmake]
    -- the space is there now, so the insertion drops no more
    have hroom := drop_room h hc.1
    have hok := h.drop (evicts_le t _) hc.2
    have hnone : (t.drop (t.evicts (xqcDtableEntrySize e.name.length e.value.length))).evicts
        (xqcDtableEntrySize e.name.length e.value.length) = 0 := by
      refine Nat.le_zero.mp (toEvict_le ?_)
      show _ ≤ t.capacity - _ + 0
      omega
    have hcan : (t.drop (t.evicts (xqcDtableEntrySize e.name.length e.value.length))).CanMake
        (xqcDtableEntrySize e.name.length e.value.length) := by
      refine ⟨hc.1, ?_⟩
      rw [hnone]; exact hc.2
    refine .inl ⟨hc, ?_⟩
    dsimp only
    rcases add_spec hok hname e.value with ⟨-, hadd⟩ | ⟨hno, -⟩
    · rw [hadd, Table.insert, hnone, drop_zero, insertCnt_drop (evicts_le t _)]; rfl
    · exact absurd hcan hno
  · rw [hmake]; exact .inr ⟨hc, _, rfl⟩

lemma setMinRef_spec (h : t.Ok) {ref : WithTop Nat} {t' : Table} (hset : xqcDtableSetMinRef t ref = (t', .ok ())) :
    t' = { t with minRef := ref } ∧ t'.Ok := by
  unfold xqcDtableSetMinRef at hset; split at hset
  · rename_i hsame; cases hset
    subst hsame; exact ⟨rfl, h⟩
  · split at hset
    · cases hset
    · split at hset
      · cases hset
      · rename_i hin; cases hset
        refine ⟨rfl, h.used, h.fits, h.named, h.summed, fun m hm => ?_⟩
        have hm' : ref = m := hm
        subst hm'
        obtain ⟨hlo, hhi⟩ := not_or.mp (not_and.mp hin WithTop.coe_ne_top)
        exact ⟨Nat.cast_le.mp (not_lt.mp hlo), Nat.cast_lt.mp (not_le.mp hhi)⟩

lemma setCapacity_spec (h : t.Ok) {cap : Nat} {resized : Bool} {t' : Table}
    (hset : xqcDtableSetCapacity t cap resized = (t', .ok ())) :
    t'.Ok ∧ t'.minRef = t.minRef ∧ t'.insertCnt = t.insertCnt ∧ t'.capacity = cap := by
  unfold xqcDtableSetCapacity at hset; split at hset
  · cases hset
  · rename_i u hmake
    split at hset
    · cases hset
      split at hmake
      · rename_i hless
        rcases makeSpace_spec h (t.capacity - cap) with ⟨hc, hm⟩ | ⟨-, e, hm⟩
        · rw [hm] at hmake; cases hmake
          have hok := h.drop (evicts_le t _) hc.2
          have hroom := drop_room h hc.1
          exact ⟨⟨hok.used, by dsimp only; omega, hok.named, hok.summed, hok.ref⟩, rfl, insertCnt_drop (evicts_le t _), rfl⟩
        · rw [hm] at hmake; cases hmake
      · rename_i hmore; cases hmake
        have := h.fits
        exact ⟨⟨h.used, by dsimp only; omega, h.named, h.summed, h.ref⟩, rfl, rfl, rfl⟩
    · cases hset

lemma create_ok : xqcDtableCreate.Ok :=
  ⟨rfl, le_rfl, fun _ he => (not_mem_nil he).elim, ⟨le_rfl, trivial⟩, fun _ hm => by cases hm⟩

end RlccQuic.Http3.DynTable
