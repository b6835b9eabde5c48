/-
  RlccQuic.Http3.TableSpace — what the dynamic table counts, and what goes to make space.

  The counters of the table in memory against the elements of its array, for any sequence of operations. An insertion
  needs memory for a node of the hash table, and the places of the ring memory to stay below 2^64; a change of the
  capacity needs memory that may be moved (`Dtable.CanSet`). Nothing is asked of values or of the nodes there are.

  Proved: the counters are those of the elements, and `xqc_dtable_make_space` drops the first entries, as few as give
  the space and none that is referred to, or none at all (`table_counts_its_entries`). Without memory for a node an
  element is added that no counter has (`an_entry_without_a_node_is_not_counted`).
-/

import RlccQuic.Http3.TableLookup

namespace RlccQuic.Http3.TableMem

open Lib Common.RingMem List DynTable
open DynTable (Table Entry totalSize xqcDtableEntrySize)

/-! ## The memory keeps the entries -/

def Holds (s : St) : Op → Prop
  | .add _ nlen _ vlen node => node = true ∧ s.dt.rmem.eidx.toNat + nlen.toNat + vlen.toNat < 2 ^ 64
  | .duplicate idx node => node = true ∧ ∀ name value, xqcDtableGetNv s.dt idx = .ok (name, value) →
    s.dt.rmem.eidx.toNat + name.length + value.length < 2 ^ 64
  | .setCapacity capacity _ => s.dt.CanSet capacity
  | .pop | .setMinRef _ => True

lemma step_refines {s s' : St} {op : Op} (h : ∃ log, Refines s.dt s.table log) (hs : Guard Holds step s op s') :
    ∃ log, Refines s'.dt s'.table log := by
  obtain ⟨log, href⟩ := h
  obtain ⟨hholds, rfl⟩ := hs
  unfold St.after
  cases op with
  | add name nlen value vlen node =>
    obtain ⟨rfl, hholds⟩ := hholds
    dsimp only
    rcases add_cases (P := fun _ _ => True) (fun _ _ => trivial) href trivial name nlen value vlen hholds with
      ⟨d, u, e, hd, hu, hr, -⟩ | ⟨d, u, d', -, -, hd, hu, hr, -⟩
    · rw [hd, hu]; exact ⟨log, hr⟩
    · rw [hd, hu]; exact ⟨_, hr⟩
  | pop => exact ⟨log, (pop_refines href).1⟩
  | duplicate idx node =>
    obtain ⟨rfl, hholds⟩ := hholds
    dsimp only
    have hroom : ∀ e, DynTable.xqcDtableGetEntryByAbsIdx s.table idx = some e →
        s.dt.rmem.eidx.toNat + e.name.length + e.value.length < 2 ^ 64 := by
      intro e he
      rcases getNv_spec href idx with ⟨-, hu⟩ | ⟨f, hd, hu⟩
      · rw [hu] at he; cases he
      · rw [hu] at he; cases he; exact hholds _ _ hd
    rcases duplicate_cases (P := fun _ _ => True) (fun _ _ => trivial) href trivial idx hroom with
      ⟨d, u, e, hd, hu, hr, -⟩ | ⟨e, d, u, d', -, -, -, hd, hu, hr, -⟩
    · rw [hd, hu]; exact ⟨log, hr⟩
    · rw [hd, hu]; exact ⟨_, hr⟩
  | setMinRef ref => exact ⟨log, (setMinRef_refines href ref).1⟩
  | setCapacity cap a =>
    dsimp only
    obtain ⟨d, u, hr, -, ⟨e, hd, hu⟩ | ⟨r, ⟨hd, hu, hr'⟩ | ⟨ra, hd, hu, -, hr'⟩⟩⟩ :=
      setCapacity_cases (P := fun _ _ => True) (fun _ _ => trivial) href trivial a hholds
    · rw [hd, hu]; exact ⟨log, hr⟩
    · rw [hd]
      dsimp only [Except.isOk, Except.toBool]
      rw [hu]; exact ⟨log, hr'⟩
    · rw [hd]
      dsimp only [Except.isOk, Except.toBool]
      rw [hu]; exact ⟨log, hr'⟩

/-! ## What is counted -/

/-- The elements of the array that the entries are in. -/
def Dtable.slots (dt : Dtable) : List Slot :=
  (range dt.entries.count).filterMap fun i => (xqcRarrayGet dt.entries i).map dt.entries.buf

def Dtable.sizes (dt : Dtable) : List Nat := dt.slots.map fun s => xqcDtableEntrySize s.nv.nlen.toNat s.nv.vlen.toNat

structure Counted (dt : Dtable) : Prop where
  used : dt.used = dt.sizes.sum
  fits : dt.used ≤ dt.capacity
  count : dt.insertCnt = dt.firstIdx + dt.slots.length
  indices : ∀ i s, dt.slots[i]? = some s → s.absIndex = dt.firstIdx + i

/-- The first `k` entries go, and none of them is referred to; the others read as before. -/
structure Evicts (k : Nat) (dt dt' : Dtable) : Prop where
  firstIdx : dt'.firstIdx = dt.firstIdx + k
  insertCnt : dt'.insertCnt = dt.insertCnt
  used : dt'.used + (dt.sizes.take k).sum = dt.used
  unreferred : ((dt.firstIdx + k : Nat) : WithTop Nat) ≤ dt.minRef
  kept : ∀ idx, dt.firstIdx + k ≤ idx → xqcDtableGetNv dt' idx = xqcDtableGetNv dt idx

def MakesSpace (dt : Dtable) (space : Nat) (out : Out Unit) : Prop :=
  (∃ e, out.2 = .error e ∧ Evicts 0 dt out.1) ∨
    out.2 = .ok () ∧ ∃ k, Evicts k dt out.1 ∧ out.1.used + space ≤ dt.capacity ∧
      ∀ j < k, dt.capacity < dt.used - (dt.sizes.take j).sum + space

section Refined

variable {dt : Dtable} {t : Table} {log : List UInt8} (h : Refines dt t log)
include h

lemma slots_eq : dt.slots = (range dt.entries.count).map fun i => dt.entries.buf (dt.entries.place i) := by
  rw [← filterMap_eq_map]
  refine filterMap_congr fun i hi => ?_
  rw [get_place h.array, if_pos (mem_range.mp hi)]; rfl

lemma sizes_eq : dt.sizes = t.entries.map Entry.size := by
  unfold Dtable.sizes; rw [slots_eq h, h.count]
  refine ext_getElem (by simp) fun i h1 h2 => ?_
  have hi : i < t.entries.length := by simpa using h2
  have hslot := h.slots i t.entries[i] (getElem?_eq_getElem hi)
  simp only [getElem_map, getElem_range, hslot.nlen, hslot.vlen]
  rfl

lemma refines_counted : Counted dt := by
  have hlen : dt.slots.length = t.entries.length := by rw [slots_eq h, length_map, length_range, h.count]
  refine ⟨?_, ?_, ?_, fun i s hs => ?_⟩
  · rw [sizes_eq h, h.used, h.ok.used]; rfl
  · rw [h.used, h.capacity]; exact h.ok.fits
  · rw [h.insertCnt, h.firstIdx, hlen]; rfl
  · obtain ⟨hi, rfl⟩ := List.getElem?_eq_some_iff.mp hs
    have hslot := h.slots i t.entries[i] (getElem?_eq_getElem (hlen ▸ hi))
    simp only [slots_eq h, getElem_map, getElem_range, hslot.absIndex, h.firstIdx]

lemma evicts_of_drop {dt' : Dtable} {k : Nat} (h' : Refines dt' (t.drop k) log) (hk : k ≤ t.entries.length)
    (href : ((t.firstIdx + k : Nat) : WithTop Nat) ≤ t.minRef) : Evicts k dt dt' := by
  refine ⟨?_, ?_, ?_, ?_, fun idx hidx => ?_⟩
  · rw [h'.firstIdx, h.firstIdx]; rfl
  · rw [h'.insertCnt, h.insertCnt, insertCnt_drop hk]
  · have hle := totalSize_take_mono t.entries hk
    rw [take_length, ← h.ok.used] at hle
    rw [h'.used, h.used, sizes_eq h, ← map_take]; exact Nat.sub_add_cancel hle
  · rw [h.firstIdx, h.minRef]; exact href
  · rw [h.firstIdx] at hidx
    have hsame : DynTable.xqcDtableGetEntryByAbsIdx (t.drop k) idx = DynTable.xqcDtableGetEntryByAbsIdx t idx := by
      unfold DynTable.xqcDtableGetEntryByAbsIdx
      show (if idx < t.firstIdx + k then _ else (t.entries.drop k)[idx - (t.firstIdx + k)]?) = _
      rw [if_neg (Nat.not_lt.mpr hidx), if_neg (by omega), getElem?_drop]
      congr 1
      omega
    rcases getNv_spec h idx with ⟨hd, hu⟩ | ⟨e, hd, hu⟩
    · rcases getNv_spec h' idx with ⟨hd', -⟩ | ⟨f, -, hu'⟩
      · rw [hd, hd']
      · rw [hsame, hu] at hu'; cases hu'
    · rcases getNv_spec h' idx with ⟨-, hu'⟩ | ⟨f, hd', hu'⟩
      · rw [hsame, hu] at hu'; cases hu'
      · rw [hsame, hu] at hu'; cases hu'
        rw [hd, hd']

lemma makeSpace_evicts (space : Nat) : MakesSpace dt space (xqcDtableMakeSpace dt space) := by
  obtain ⟨hr, -, hres⟩ := makeSpace_refines (P := fun _ _ => True) (fun _ _ => trivial) h trivial space
  rcases makeSpace_spec h.ok space with ⟨hc, hmake⟩ | ⟨-, e, hmake⟩
  · rw [hmake] at hr hres
    refine .inr ⟨hres, t.evicts space, evicts_of_drop h hr (evicts_le t space) hc.2, ?_, fun j hj => ?_⟩
    · rw [hr.used, h.capacity]; exact drop_room h.ok hc.1
    · -- fewer entries would have been enough
      rw [h.capacity, h.used, sizes_eq h, ← map_take]
      by_contra hroom
      have hmono := totalSize_take_mono t.entries (Nat.le_of_lt (Nat.lt_of_lt_of_le hj (evicts_le t space)))
      rw [take_length] at hmono
      have hfits := h.ok.fits
      have hall : (map Entry.size (take j t.entries)).sum = totalSize (t.entries.take j) := rfl
      have hle : t.evicts space ≤ j := toEvict_le (by omega)
      omega
  · rw [hmake] at hr hres
    rw [← drop_zero t] at hr
    refine .inl ⟨e, hres, evicts_of_drop h hr zero_le ?_⟩
    cases hm : t.minRef with
    | top => exact le_top
    | coe m => exact Nat.cast_le.mpr (h.ok.ref m hm).1

end Refined

/-- In every run in which there is memory for the nodes, the places of the ring memory stay below 2^64 and the memory
    moves only while it may. -/
theorem table_counts_its_entries (buckets : UInt64) (heads : UInt64 → List Node) (garbage : Nat → Slot)
    (freed : Ptr → Slot) (mem : Lib.Cursor.Mem) (hb : xqcPow2Upper buckets = buckets) (ops : List Op) (s : St)
    (h : Run (Guard Holds step) (start buckets heads garbage freed mem) ops s) :
    Counted s.dt ∧ ∀ space, MakesSpace s.dt space (xqcDtableMakeSpace s.dt space) := by
  obtain ⟨log, href⟩ : ∃ log, Refines s.dt s.table log := h.inv (P := fun s => ∃ log, Refines s.dt s.table log)
    (fun _ _ _ hi hs => step_refines hi hs) ⟨[], create_refines hb heads garbage freed mem⟩
  exact ⟨refines_counted href, makeSpace_evicts href⟩

/-- The field `a` with an empty value in a table of 64 bytes. -/
theorem one_entry_is_counted : ∃ s, s.dt.sizes = [33] ∧ Counted s.dt ∧ s.dt.insertCnt = 1 ∧
    Run (Guard Holds step) made [.setCapacity 64 room, insertOf [97] []] s := by
  have hrun : Run (Guard Holds step) made [.setCapacity 64 room, insertOf [97] []] _ :=
    (Run.nil.snoc ⟨⟨by decide, .inr ⟨rfl, fun b => ite_self _⟩⟩, rfl⟩).snoc
      ⟨⟨rfl, by show _ + _ + _ < _; decide⟩, rfl⟩
  exact ⟨_, by decide, (table_counts_its_entries 128 _ _ _ _ (by decide) _ _ hrun).1, by decide, hrun⟩

/-- No memory for the node of `a: 1`: the array has an element more, and the counters have none. -/
theorem an_entry_without_a_node_is_not_counted :
    ∃ s, Run step made [.setCapacity 64 room, .add (memOf [97]) 1 (memOf [49]) 1 false] s ∧
      s.dt.slots.length = 1 ∧ s.dt.sizes = [34] ∧ s.dt.insertCnt = 0 ∧ s.dt.used = 0 ∧ ¬ Counted s.dt := by
  refine ⟨_, (Run.nil.snoc rfl).snoc rfl, by decide, by decide, by decide, by decide, fun h => ?_⟩
  exact absurd h.used (by decide)

end RlccQuic.Http3.TableMem
