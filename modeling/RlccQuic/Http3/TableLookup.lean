/-
  RlccQuic.Http3.TableLookup — what a lookup in the dynamic table finds (`xqc_dtable_lookup`, `xqc_2d_hash_lookup`).

  What is found is in the table (`lookup_sound`): a node that points at an entry that is gone gives no match, since its
  name starts before the ring's first byte. That all is found needs a node for every entry. The nodes of popped entries
  are looked for under the wrong hashes and stay, and an entry in the place of a popped one gets no node if such a node
  is in its bucket.

  Proved: with a node for every entry the answer is exact (`lookup_exact`), and in every run whose steps leave every
  entry its node so is every lookup (`lookup_answers_for_the_entries`); three insertions are enough for an entry that is
  not found (`popped_node_hides_an_entry`).
-/

import RlccQuic.Http3.TableRefines
import RlccQuic.Lib.Run

namespace RlccQuic.Http3.TableMem

open Lib Lib.Cursor Common.RingMem List UInt64 DynTable
open DynTable (Table Entry)

/-! ## The walk over a bucket -/

section Walk

variable {vcmp : Ptr → CmpDim → CmpRes} {h1 h2 : UInt64} {Q : CmpRes → Ptr → Prop}

/-- Nothing is found, or something for which `Q` holds. -/
def Found (Q : CmpRes → Ptr → Prop) : CmpRes × Option Ptr → Prop
  | (.none, p) => p = none
  | (r, some p) => Q r p
  | (_, none) => False

lemma found_some {r : CmpRes} {p : Ptr} (hr : r ≠ .none) (hq : Q r p) : Found Q (r, some p) := by
  cases r with
  | none => exact absurd rfl hr
  | oneD | twoD => exact hq

lemma lookupLoop_found (ns : List Node) (hone : ∀ n ∈ ns, vcmp n.data .one = .oneD → Q .oneD n.data)
    (htwo : ∀ n ∈ ns, vcmp n.data .two ≠ .none → Q (vcmp n.data .two) n.data) :
    ∀ (ret : CmpRes) (data : Option Ptr), Found Q (ret, data) → Found Q (lookupLoop vcmp h1 h2 ns ret data) := by
  induction ns with
  | nil => exact fun _ _ h => h
  | cons n ns ih =>
    intro ret data h
    have ih := ih (fun m hm => hone m (mem_cons_of_mem _ hm)) (fun m hm => htwo m (mem_cons_of_mem _ hm))
    have htwo := htwo n mem_cons_self
    unfold lookupLoop; split
    · split
      · split
        · rename_i hrank
          have hne : vcmp n.data .two ≠ .none := fun hz => by
            rw [hz] at hrank; exact absurd hrank (Nat.not_lt_zero _)
          split
          · rename_i heq
            have hq := htwo hne
            rw [heq] at hq; exact hq
          · exact ih _ _ (found_some hne (htwo hne))
        · exact ih _ _ h
      · split
        · rename_i hcond; exact ih _ _ (hone n mem_cons_self hcond.1)
        · exact ih _ _ h
    · exact ih _ _ h

lemma lookupLoop_keeps (ns : List Node) : ∀ (ret : CmpRes) (data : Option Ptr), ret ≠ .none →
    (lookupLoop vcmp h1 h2 ns ret data).1 ≠ .none := by
  induction ns with
  | nil => exact fun _ _ h => h
  | cons n ns ih =>
    intro ret data h; unfold lookupLoop
    split
    · split
      · split
        · rename_i hrank
          split
          · exact CmpRes.noConfusion
          · refine ih _ _ fun hz => ?_
            rw [hz] at hrank; exact absurd hrank (Nat.not_lt_zero _)
        · exact ih _ _ h
      · split
        · exact ih _ _ CmpRes.noConfusion
        · exact ih _ _ h
    · exact ih _ _ h

lemma lookupLoop_one {n : Node} (hh : n.hash1 = h1) (hone : vcmp n.data .one = .oneD) (htwo : vcmp n.data .two ≠ .none)
    {ns : List Node} (hn : n ∈ ns) : ∀ (ret : CmpRes) (data : Option Ptr),
    (lookupLoop vcmp h1 h2 ns ret data).1 ≠ .none := by
  induction ns with
  | nil => exact (not_mem_nil hn).elim
  | cons m ns ih =>
    intro ret data
    rcases mem_cons.mp hn with rfl | hn
    · by_cases hret : ret = .none
      · subst hret
        unfold lookupLoop; rw [if_pos hh]
        split
        · rw [if_pos (show (vcmp n.data .two).rank > CmpRes.none.rank by
            cases hc : vcmp n.data .two with
            | none => exact absurd hc htwo
            | oneD => exact Nat.one_pos
            | twoD => exact Nat.two_pos)]
          split
          · exact CmpRes.noConfusion
          · exact lookupLoop_keeps ns _ _ htwo
        · rw [if_pos ⟨hone, CmpRes.noConfusion⟩]; exact lookupLoop_keeps ns _ _ CmpRes.noConfusion
      · exact lookupLoop_keeps _ _ _ hret
    · unfold lookupLoop
      have ih := ih hn
      split
      · split
        · split
          · split
            · exact CmpRes.noConfusion
            · exact ih _ _
          · exact ih _ _
        · split
          · exact ih _ _
          · exact ih _ _
      · exact ih _ _

lemma lookupLoop_two {n : Node} (hh1 : n.hash1 = h1) (hh2 : n.hash2 = h2) (htwo : vcmp n.data .two = .twoD)
    {ns : List Node} (hn : n ∈ ns) : ∀ (ret : CmpRes) (data : Option Ptr), ret ≠ .twoD →
    (lookupLoop vcmp h1 h2 ns ret data).1 = .twoD := by
  induction ns with
  | nil => exact (not_mem_nil hn).elim
  | cons m ns ih =>
    intro ret data hret; unfold lookupLoop
    rcases mem_cons.mp hn with rfl | hn
    · rw [if_pos hh1, if_pos hh2, htwo, if_pos (show CmpRes.twoD.rank > ret.rank by cases ret <;> simp_all [CmpRes.rank]),
        if_pos rfl]
    · have ih := ih hn
      split
      · split
        · split
          · split
            · rfl
            · rename_i hne; exact ih _ _ hne
          · exact ih _ _ hret
        · split
          · exact ih _ _ CmpRes.noConfusion
          · exact ih _ _ hret
      · exact ih _ _ hret

end Walk

/-! ## Comparing with an entry -/

variable {dt : Dtable} {t : Table} {log : List UInt8} {name value : Mem} {nlen vlen : UInt64}

lemma cmp_hasAt {r : Rmem} (h : r.Good r.sidx.toNat log) {pos len : UInt64} {xs : List UInt8} (hat : HasAt r log pos.toNat xs)
    (hne : xs ≠ []) (hlen : len.toNat = xs.length) (data : Mem) :
    (xqcRingMemCmp r pos data len).2 = .ok 0 ↔ xs = slice data 0 len.toNat := by
  have hpos := length_pos_iff.mpr hne
  have hstop := hat.stop
  obtain ⟨ts, c, hcmp, hzero, -⟩ := cmp_spec (fun _ => 0) h data (le_iff_toNat_le.mpr hat.start)
    (show 1 ≤ len.toNat by omega) (by omega)
  rw [hcmp, Except.ok.injEq, hzero, hlen, eq_comm (a := xs), slice_eq_iff]
  exact forall₂_congr fun k hk => by rw [hat.bytes k hk]

lemma deref_here (dt : Dtable) (slot : Nat) : dt.deref ⟨dt.entries.gen, slot⟩ = dt.entries.buf slot := if_pos rfl

lemma part_matches {r : Rmem} (h : r.Good r.sidx.toNat log) {pos plen : UInt64} {xs : List UInt8}
    (hat : HasAt r log pos.toNat xs) (hne : xs ≠ []) (hplen : plen.toNat = xs.length) (data : Mem) (len : UInt64) :
    plen = len ∧ (xqcRingMemCmp r pos data len).2 = .ok 0 ↔ xs = slice data 0 len.toNat := by
  constructor
  · rintro ⟨rfl, hcmp⟩
    exact (cmp_hasAt h hat hne hplen data).mp hcmp
  · intro hxs
    have hlen : plen = len := by
      apply UInt64.toNat_inj.mp
      rw [hplen, hxs, length_slice]
    subst hlen; exact ⟨rfl, (cmp_hasAt h hat hne hplen data).mpr hxs⟩

lemma compareNv_live (h : Refines dt t log) {i : Nat} {e : Entry} (he : t.entries[i]? = some e) (dims : CmpDim) :
    xqcDtableCompareNv dt name nlen value vlen ⟨dt.entries.gen, dt.entries.place i⟩ dims =
      if e.name = slice name 0 nlen.toNat then
        if dims = .two ∧ (dt.entries.buf (dt.entries.place i)).nv.vlen = vlen ∧
            (xqcRingMemCmp dt.rmem (dt.entries.buf (dt.entries.place i)).nv.vidx value vlen).2 = .ok 0 then .twoD
        else .oneD
      else .none := by
  have hslot := h.slots i e he
  have hmatch := part_matches h.ring (hslot.nidx ▸ (h.entry_bytes he).1) (h.ok.named e (mem_of_getElem? he))
    hslot.nlen name nlen
  unfold xqcDtableCompareNv
  dsimp only; rw [deref_here]
  by_cases hname : e.name = slice name 0 nlen.toNat
  · obtain ⟨hlen, hcmp⟩ := hmatch.mpr hname
    rw [if_pos hlen, if_pos hcmp, if_pos hname]; split
    · rename_i hdims
      split
      · rename_i hvlen
        split
        · rename_i hv; rw [if_pos ⟨hdims, hvlen, hv⟩]
        · rename_i hv; rw [if_neg fun hc => hv hc.2.2]
      · rename_i hvlen; rw [if_neg fun hc => hvlen hc.2.1]
    · rename_i hdims; rw [if_neg fun hc => hdims hc.1]
  · rw [if_neg hname]; split
    · rename_i hlen; rw [if_neg fun hcmp => hname (hmatch.mp ⟨hlen, hcmp⟩)]
    · rfl

lemma compareNv_dead {slot : Nat} (hdead : (dt.entries.buf slot).nv.nidx.toNat < dt.rmem.sidx.toNat) (dims : CmpDim) :
    xqcDtableCompareNv dt name nlen value vlen ⟨dt.entries.gen, slot⟩ dims = .none := by
  have hcmp : (xqcRingMemCmp dt.rmem (dt.entries.buf slot).nv.nidx name nlen).2 ≠ .ok 0 := by
    unfold xqcRingMemCmp; rw [if_pos (.inl (lt_iff_toNat_lt.mpr hdead))]
    exact fun hok => by cases hok
  unfold xqcDtableCompareNv
  dsimp only; rw [deref_here, if_neg hcmp, ite_self]

lemma value_of_match (h : Refines dt t log) {i : Nat} {e : Entry} (he : t.entries[i]? = some e)
    (hlen : (dt.entries.buf (dt.entries.place i)).nv.vlen = vlen)
    (hcmp : (xqcRingMemCmp dt.rmem (dt.entries.buf (dt.entries.place i)).nv.vidx value vlen).2 = .ok 0) :
    e.value = slice value 0 vlen.toNat := by
  have hslot := h.slots i e he
  by_cases hnil : e.value = []
  · have hz : vlen.toNat = 0 := by rw [← hlen, hslot.vlen, hnil]; rfl
    rw [hnil, hz]; rfl
  · exact (part_matches h.ring (hslot.vidx hnil ▸ (h.entry_bytes he).2) hnil hslot.vlen value vlen).mp ⟨hlen, hcmp⟩

/-! ## What a lookup finds -/

def Sound (t : Table) (name value : List UInt8) : RefType × Nat → Prop
  | (.nameAndValue, idx) => ∃ e, DynTable.xqcDtableGetEntryByAbsIdx t idx = some e ∧ e.name = name ∧ e.value = value
  | (.name, idx) => ∃ e, DynTable.xqcDtableGetEntryByAbsIdx t idx = some e ∧ e.name = name
  | (.none, _) => True

def Complete (t : Table) (name value : List UInt8) : RefType → Prop
  | .nameAndValue => True
  | .name => ∀ e ∈ t.entries, e.name = name → e.value ≠ value
  | .none => ∀ e ∈ t.entries, e.name ≠ name

def Exact (t : Table) (name value : List UInt8) (a : RefType × Nat) : Prop :=
  Sound t name value a ∧ Complete t name value a.1

/-- An element of the array that stands for an entry with the name, and with the value if both match. -/
def Stands (dt : Dtable) (t : Table) (name value : List UInt8) (r : CmpRes) (p : Ptr) : Prop :=
  ∃ i e, t.entries[i]? = some e ∧ p = ⟨dt.entries.gen, dt.entries.place i⟩ ∧ e.name = name ∧ (r = .twoD → e.value = value)

lemma compareNv_stands (h : Refines dt t log) {b : UInt64} {n : Node} (hn : n ∈ dt.ht2d.list b) {dims : CmpDim} {r : CmpRes}
    (hr : xqcDtableCompareNv dt name nlen value vlen n.data dims = r) (hne : r ≠ .none) :
    Stands dt t (slice name 0 nlen.toNat) (slice value 0 vlen.toNat) r n.data := by
  obtain ⟨hgen, -, hlive | hdead⟩ := h.nodes b n hn
  · obtain ⟨i, hi, hslot⟩ := hlive
    rw [h.count] at hi
    have he : t.entries[i]? = some t.entries[i] := getElem?_eq_getElem hi
    have hptr : n.data = ⟨dt.entries.gen, dt.entries.place i⟩ := by rw [← hgen, ← hslot]
    refine ⟨i, _, he, hptr, ?_⟩
    rw [hptr, compareNv_live h he] at hr
    subst hr
    split
    · rename_i hname
      refine ⟨hname, fun htwo => ?_⟩
      split at htwo
      · rename_i hboth; exact value_of_match h he hboth.2.1 hboth.2.2
      · cases htwo
    · rename_i hname; rw [if_neg hname] at hne; exact absurd rfl hne
  · have hptr : n.data = ⟨dt.entries.gen, n.data.slot⟩ := by rw [← hgen]
    rw [hptr, compareNv_dead hdead.2] at hr; exact absurd hr.symm hne

lemma hashLookup_found (h : Refines dt t log) (name : Mem) (nlen : UInt64) (value : Mem) (vlen : UInt64) (h1 h2 : UInt64) :
    Found (Stands dt t (slice name 0 nlen.toNat) (slice value 0 vlen.toNat))
      (xqc2dHashLookup dt.ht2d (xqcDtableCompareNv dt name nlen value vlen) h1 h2) :=
  lookupLoop_found _ (fun _ hn hone => compareNv_stands h hn hone CmpRes.noConfusion)
    (fun _ hn hne => compareNv_stands h hn rfl hne) _ _ rfl

lemma Stands.entryAt {r : CmpRes} {p : Ptr} {nm vl : List UInt8} (h : Refines dt t log) (hs : Stands dt t nm vl r p) :
    ∃ e, DynTable.xqcDtableGetEntryByAbsIdx t (dt.deref p).absIndex = some e ∧ e.name = nm ∧ (r = .twoD → e.value = vl) := by
  obtain ⟨i, e, he, rfl, hname, hvalue⟩ := hs
  refine ⟨e, ?_, hname, hvalue⟩
  rw [deref_here, (h.slots i e he).absIndex, DynTable.xqcDtableGetEntryByAbsIdx, if_neg (Nat.not_lt.mpr (Nat.le_add_right _ _)),
    Nat.add_sub_cancel_left, he]

theorem lookup_sound (h : Refines dt t log) (name : Mem) (nlen : UInt64) (value : Mem) (vlen : UInt64) :
    Sound t (slice name 0 nlen.toNat) (slice value 0 vlen.toNat) (xqcDtableLookup dt name nlen value vlen) := by
  have hfound := hashLookup_found h name nlen value vlen (xqcHashString name nlen) (xqcDtableMakeValueHash value vlen)
  unfold xqcDtableLookup; split
  · trivial
  split
  · rename_i p hres; rw [hres] at hfound
    obtain ⟨e, he, hname, -⟩ := Stands.entryAt h hfound
    exact ⟨e, he, hname⟩
  · rename_i p hres; rw [hres] at hfound
    obtain ⟨e, he, hname, hvalue⟩ := Stands.entryAt h hfound
    exact ⟨e, he, hname, hvalue rfl⟩
  · trivial

/-! ## Every entry has a node -/

/-- No value is empty, and every entry has a node in its bucket. -/
def Indexed (dt : Dtable) (t : Table) : Prop :=
  ∀ i e, t.entries[i]? = some e → e.value ≠ [] ∧
    (⟨hashOf e.name, lastOf e.value, ⟨dt.entries.gen, dt.entries.place i⟩⟩ : Node) ∈
      dt.ht2d.list (hashOf e.name &&& dt.ht2d.mask)

theorem lookup_exact (h : Refines dt t log) (hi : Indexed dt t) (name : Mem) (nlen : UInt64) (value : Mem) (vlen : UInt64) :
    Exact t (slice name 0 nlen.toNat) (slice value 0 vlen.toNat) (xqcDtableLookup dt name nlen value vlen) := by
  refine ⟨lookup_sound h name nlen value vlen, ?_⟩
  have hfound := hashLookup_found h name nlen value vlen (xqcHashString name nlen) (xqcDtableMakeValueHash value vlen)
  -- a node of the name is met, and one of name and value ends the walk
  have hone : ∀ e ∈ t.entries, e.name = slice name 0 nlen.toNat →
      (xqc2dHashLookup dt.ht2d (xqcDtableCompareNv dt name nlen value vlen) (xqcHashString name nlen)
        (xqcDtableMakeValueHash value vlen)).1 ≠ .none := fun e hmem hname => by
    obtain ⟨i, hlt, hget⟩ := getElem_of_mem hmem
    have he : t.entries[i]? = some e := hget ▸ getElem?_eq_getElem hlt
    have hnode := (hi i e he).2
    rw [hname, ← hashString_slice] at hnode
    refine lookupLoop_one rfl ?_ ?_ hnode _ _
    · rw [compareNv_live h he, if_pos hname, if_neg fun hc => CmpDim.noConfusion hc.1]
    · rw [compareNv_live h he, if_pos hname]
      split <;> exact CmpRes.noConfusion
  have htwo : ∀ e ∈ t.entries, e.name = slice name 0 nlen.toNat → e.value = slice value 0 vlen.toNat →
      (xqc2dHashLookup dt.ht2d (xqcDtableCompareNv dt name nlen value vlen) (xqcHashString name nlen)
        (xqcDtableMakeValueHash value vlen)).1 = .twoD := fun e hmem hname hvalue => by
    obtain ⟨i, hlt, hget⟩ := getElem_of_mem hmem
    have he : t.entries[i]? = some e := hget ▸ getElem?_eq_getElem hlt
    obtain ⟨hne, hnode⟩ := hi i e he
    have hslot := h.slots i e he
    have hmatch := (part_matches h.ring (hslot.vidx hne ▸ (h.entry_bytes he).2) hne hslot.vlen value vlen).mpr hvalue
    rw [hname, ← hashString_slice, hvalue, ← makeValueHash_slice] at hnode
    refine lookupLoop_two rfl rfl ?_ hnode _ _ CmpRes.noConfusion
    rw [compareNv_live h he, if_pos hname, if_pos ⟨rfl, hmatch⟩]
  unfold xqcDtableLookup; split
  · rename_i hused
    have hnil : t.entries = [] := by
      have hz := h.ok.used
      rw [← h.used, hused] at hz
      cases hes : t.entries with
      | nil => rfl
      | cons e es =>
        rw [hes, totalSize_cons] at hz
        have := e.base_le_size
        unfold entrySizeBase at this
        omega
    intro e he; rw [hnil] at he
    exact (not_mem_nil he).elim
  split
  · rename_i p hres; rw [hres] at htwo
    exact fun e he hname hvalue => by cases htwo e he hname hvalue
  · trivial
  · rename_i hno1 hno2
    intro e he hname
    have hsome := hone e he hname
    rcases hres : xqc2dHashLookup dt.ht2d (xqcDtableCompareNv dt name nlen value vlen) (xqcHashString name nlen)
      (xqcDtableMakeValueHash value vlen) with ⟨r, q⟩
    rw [hres] at hsome hfound
    cases r with
    | none => exact hsome rfl
    | oneD =>
      cases q with
      | none => exact hfound
      | some p => exact hno1 p hres
    | twoD =>
      cases q with
      | none => exact hfound
      | some p => exact hno2 p hres

/-- No node of the bucket points at the element that the next entry gets. -/
def Dtable.FreeIn (dt : Dtable) (b : UInt64) : Prop := ∀ n ∈ dt.ht2d.list b, n.data.slot ≠ dt.entries.place dt.entries.count

instance (dt : Dtable) (b : UInt64) : Decidable (dt.FreeIn b) := inferInstanceAs (Decidable (∀ n ∈ _, _))

lemma pop_indexed (h : Refines dt t log) (hi : Indexed dt t) :
    Indexed (xqcDtablePopEntry dt).1 (DynTable.xqcDtablePopEntry t).1 := by
  rcases pop_cases h with ⟨err, hd, ht⟩ | ⟨e, es, d, h1, h2, hes, hd, ht, href, hnodes, hpop⟩
  · rw [hd, ht]; exact hi
  rw [hd, ht]
  intro i f hf
  have hf : t.entries[i + 1]? = some f := by simpa [Table.drop, hes] using hf
  have hgen : d.entries.gen = dt.entries.gen := by
    rw [xqcRarrayPopFront, if_neg (by rw [h.count, hes]; exact Nat.succ_ne_zero _)] at hpop
    rw [← Option.some.inj hpop]
  obtain ⟨hne, hnode⟩ := hi (i + 1) f hf
  refine ⟨hne, ?_⟩
  rw [hgen, place_popFront h.array hpop, hnodes]
  show _ ∈ (if _ = _ then _ else _)
  split
  · rename_i hb
    refine (mem_eraseP_of_neg ?_).mpr (hb ▸ hnode)
    -- it has another index than the entry that goes
    have hidx := (h.slots _ _ hf).absIndex
    have hfirst := (h.first hes).absIndex
    simp only [Dtable.sameEntry, deref_here, hidx, hfirst, Bool.and_eq_true, decide_eq_true_eq, not_and]
    omega
  · exact hnode

lemma pop_freeIn {m b : UInt64} (h : Refines dt t log) (hf : dt.ht2d.mask = m ∧ dt.FreeIn b) :
    (xqcDtablePopEntry dt).1.ht2d.mask = m ∧ (xqcDtablePopEntry dt).1.FreeIn b := by
  rcases pop_cases h with ⟨err, hd, -⟩ | ⟨e, es, d, h1, h2, hes, hd, -, -, hnodes, hpop⟩
  · rw [hd]; exact hf
  have hcount : dt.entries.count = d.entries.count + 1 := by
    have hpos : dt.entries.count ≠ 0 := by rw [h.count, hes]; exact Nat.succ_ne_zero _
    rw [xqcRarrayPopFront, if_neg hpos] at hpop
    rw [← Option.some.inj hpop]; exact (Nat.succ_pred_eq_of_ne_zero hpos).symm
  rw [hd]
  refine ⟨?_, fun n hn => ?_⟩
  · rw [hnodes]; exact hf.1
  · rw [hnodes] at hn; rw [place_popFront h.array hpop, ← hcount]; exact hf.2 n (mem_remove hn)

lemma Indexed.pushed {d d' : Dtable} {u : Table} {nm vl : List UInt8} (h : Refines d u log) (hi : Indexed d u)
    (hp : Pushed d d' (hashOf nm) (lastOf vl)) (hfree : d.FreeIn (hashOf nm &&& d.ht2d.mask)) (hvl : vl ≠ []) :
    Indexed d' (u.push nm vl) := by
  obtain ⟨⟨same, hnodes, hother⟩, buf, hentries⟩ := hp
  have hadd : d'.ht2d = d.ht2d.set (hashOf nm &&& d.ht2d.mask)
      (⟨hashOf nm, lastOf vl, ⟨d.entries.gen, d.entries.place d.entries.count⟩⟩ ::
        d.ht2d.list (hashOf nm &&& d.ht2d.mask)) := by
    rw [xqc2dHashTableAdd, if_neg, if_pos rfl] at hnodes
    · exact (Except.ok.inj hnodes).symm
    rw [xqc2dHashLookupData, any_eq_true]
    rintro ⟨n, hn, hsame⟩
    rw [hother _ n hn (hfree n hn)] at hsame; cases hsame
  have hplace : ∀ i, d'.entries.place i = d.entries.place i := fun i => by rw [hentries]; rfl
  have hgen : d'.entries.gen = d.entries.gen := by rw [hentries]
  have hmask : d'.ht2d.mask = d.ht2d.mask := by rw [hadd]; rfl
  intro i e he; rw [hplace, hgen, hmask, hadd]
  have he : (u.entries ++ [(⟨nm, vl, u.byteSum⟩ : Entry)])[i]? = some e := he
  rcases Nat.lt_or_ge i u.entries.length with hlt | hge
  · rw [getElem?_append_left hlt] at he
    obtain ⟨hne, hnode⟩ := hi i e he
    refine ⟨hne, ?_⟩
    show _ ∈ (if _ = _ then _ else _)
    split
    · rename_i hb; exact mem_cons_of_mem _ (hb ▸ hnode)
    · exact hnode
  · rw [getElem?_append_right hge] at he
    obtain ⟨hz, hlast⟩ := List.getElem?_eq_some_iff.mp he
    rw [length_singleton] at hz
    obtain rfl : e = ⟨nm, vl, u.byteSum⟩ := by
      rw [← hlast]; exact getElem_singleton _
    obtain rfl : i = d.entries.count := by
      rw [h.count]; omega
    refine ⟨hvl, ?_⟩
    show _ ∈ (if _ = _ then _ else _)
    rw [if_pos rfl]; exact mem_cons_self

/-! ## Runs -/

inductive Op where
  /-- `node` says whether there is memory for a node of the hash table. -/
  | add (name : Mem) (nlen : UInt64) (value : Mem) (vlen : UInt64) (node : Bool)
  | pop
  | duplicate (idx : Nat) (node : Bool)
  | setMinRef (ref : WithTop Nat)
  | setCapacity (capacity : UInt64) (a : Alloc)

/-- The table in memory, and the entries that are in it. -/
structure St where
  dt : Dtable
  table : Table

def St.after (s : St) : Op → St
  | .add name nlen value vlen node =>
    ⟨(xqcDtableAdd s.dt name nlen value vlen node).1,
      (DynTable.xqcDtableAdd s.table (slice name 0 nlen.toNat) (slice value 0 vlen.toNat)).1⟩
  | .pop => ⟨(xqcDtablePopEntry s.dt).1, (DynTable.xqcDtablePopEntry s.table).1⟩
  | .duplicate idx node => ⟨(xqcDtableDuplicate s.dt idx node).1, (DynTable.xqcDtableDuplicate s.table idx).1⟩
  | .setMinRef ref => ⟨(xqcDtableSetMinRef s.dt ref).1, (DynTable.xqcDtableSetMinRef s.table ref).1⟩
  | .setCapacity capacity a =>
    ⟨(xqcDtableSetCapacity s.dt capacity a).1,
      (DynTable.xqcDtableSetCapacity s.table capacity.toNat (xqcDtableSetCapacity s.dt capacity a).2.isOk).1⟩

def step (s : St) (op : Op) (s' : St) : Prop := s' = s.after op

def start (buckets : UInt64) (heads : UInt64 → List Node) (garbage : Nat → Slot) (freed : Ptr → Slot) (mem : Mem) : St :=
  ⟨xqcDtableCreate buckets heads garbage freed mem, DynTable.xqcDtableCreate⟩

/-- The field may be inserted: its value is not empty, places do not go round, and no node of
    its bucket points at its element. -/
def Dtable.CanTake (dt : Dtable) (name value : List UInt8) : Prop :=
  value ≠ [] ∧ dt.rmem.eidx.toNat + name.length + value.length < 2 ^ 64 ∧ dt.FreeIn (hashOf name &&& dt.ht2d.mask)

instance (dt : Dtable) (name value : List UInt8) : Decidable (dt.CanTake name value) :=
  inferInstanceAs (Decidable (_ ∧ _ ∧ _))

def Fits (s : St) : Op → Prop
  | .add name nlen value vlen node => node = true ∧ s.dt.CanTake (slice name 0 nlen.toNat) (slice value 0 vlen.toNat)
  | .duplicate idx node =>
    node = true ∧ ∀ name value, xqcDtableGetNv s.dt idx = .ok (name, value) → s.dt.CanTake name value
  | .setCapacity capacity _ => s.dt.CanSet capacity
  | .pop | .setMinRef _ => True

def Inv (s : St) : Prop := (∃ log, Refines s.dt s.table log) ∧ Indexed s.dt s.table

lemma add_inv {s : St} (h : Inv s) {name value : Mem} {nlen vlen : UInt64}
    (hfits : s.dt.CanTake (slice name 0 nlen.toNat) (slice value 0 vlen.toNat)) :
    Inv (s.after (.add name nlen value vlen true)) := by
  obtain ⟨⟨log, href⟩, hi⟩ := h
  obtain ⟨hne, hidx, hfree⟩ := hfits
  rw [length_slice, length_slice] at hidx
  unfold St.after
  dsimp only
  rcases add_cases (P := fun d u => Indexed d u ∧ d.ht2d.mask = s.dt.ht2d.mask ∧
      d.FreeIn (hashOf (slice name 0 nlen.toNat) &&& s.dt.ht2d.mask)) (fun h hp => ⟨pop_indexed h hp.1, pop_freeIn h hp.2⟩)
      href ⟨hi, rfl, hfree⟩ name nlen value vlen hidx with
    ⟨d, u, e, hd, hu, hr, hkeep, -⟩ | ⟨d, u, d', hr, ⟨hkeep, hmask, hstill⟩, hd, hu, hr', hpushed⟩
  · rw [hd, hu]; exact ⟨⟨log, hr⟩, hkeep⟩
  · rw [hd, hu]; exact ⟨⟨_, hr'⟩, hkeep.pushed hr hpushed (hmask ▸ hstill) hne⟩

lemma duplicate_inv {s : St} (h : Inv s) {idx : Nat}
    (hfits : ∀ name value, xqcDtableGetNv s.dt idx = .ok (name, value) → s.dt.CanTake name value) :
    Inv (s.after (.duplicate idx true)) := by
  obtain ⟨⟨log, href⟩, hi⟩ := h
  unfold St.after
  dsimp only
  rcases getNv_spec href idx with ⟨hd, hu⟩ | ⟨e, hd, hu⟩
  · unfold xqcDtableDuplicate DynTable.xqcDtableDuplicate; rw [hd, hu]; exact ⟨⟨log, href⟩, hi⟩
  obtain ⟨hne, hidx, hfree⟩ := hfits e.name e.value hd
  rcases duplicate_cases (P := fun d u => Indexed d u ∧ d.ht2d.mask = s.dt.ht2d.mask ∧
      d.FreeIn (hashOf e.name &&& s.dt.ht2d.mask)) (fun h hp => ⟨pop_indexed h hp.1, pop_freeIn h hp.2⟩) href
      ⟨hi, rfl, hfree⟩ idx
      (fun f hf => by rw [hu] at hf; cases hf; exact hidx) with
    ⟨d, u, err, hd, hu', hr, hkeep, -⟩ | ⟨f, d, u, d', hf, hr, ⟨hkeep, hmask, hstill⟩, hd, hu', hr', hpushed⟩
  · rw [hd, hu']; exact ⟨⟨log, hr⟩, hkeep⟩
  · rw [hu] at hf; cases hf
    rw [hd, hu']; exact ⟨⟨_, hr'⟩, hkeep.pushed hr hpushed (hmask ▸ hstill) hne⟩

lemma setCapacity_inv {s : St} (h : Inv s) {cap : UInt64} {a : Alloc} (hfits : s.dt.CanSet cap) :
    Inv (s.after (.setCapacity cap a)) := by
  obtain ⟨⟨log, href⟩, hi⟩ := h
  unfold St.after
  dsimp only
  obtain ⟨d, u, hr, hkeep, ⟨e, hd, hu⟩ | ⟨r, ⟨hd, hu, hr'⟩ | ⟨ra, hd, hu, hra, hr'⟩⟩⟩ :=
    setCapacity_cases (P := Indexed) pop_indexed href hi a hfits
  · rw [hd, hu]; exact ⟨⟨log, hr⟩, hkeep⟩
  · rw [hd]
    dsimp only [Except.isOk, Except.toBool]
    rw [hu]; exact ⟨⟨log, hr'⟩, hkeep⟩
  · rw [hd]
    dsimp only [Except.isOk, Except.toBool]
    rw [hu]
    refine ⟨⟨log, hr'⟩, ?_⟩
    rcases hra with rfl | hnil
    · exact hkeep
    · intro i e he; rw [hnil] at he; cases he

lemma step_inv {s s' : St} {op : Op} (h : Inv s) (hs : Guard Fits step s op s') : Inv s' := by
  obtain ⟨hfits, rfl⟩ := hs
  cases op with
  | add name nlen value vlen node => obtain ⟨rfl, hfits⟩ := hfits; exact add_inv h hfits
  | pop =>
    obtain ⟨⟨log, href⟩, hi⟩ := h
    exact ⟨⟨log, (pop_refines href).1⟩, pop_indexed href hi⟩
  | duplicate idx node => obtain ⟨rfl, hfits⟩ := hfits; exact duplicate_inv h hfits
  | setMinRef ref =>
    obtain ⟨⟨log, href⟩, hi⟩ := h
    obtain ⟨hr, hht, hentries, htable, -⟩ := setMinRef_refines href ref
    refine ⟨⟨log, hr⟩, ?_⟩
    show Indexed (xqcDtableSetMinRef s.dt ref).1 (DynTable.xqcDtableSetMinRef s.table ref).1
    unfold Indexed; rw [hht, hentries, htable]
    exact hi
  | setCapacity cap a => exact setCapacity_inv h hfits

theorem lookup_answers_for_the_entries (buckets : UInt64) (heads : UInt64 → List Node) (garbage : Nat → Slot)
    (freed : Ptr → Slot) (mem : Mem) (hb : xqcPow2Upper buckets = buckets) (ops : List Op) (s : St)
    (h : Run (Guard Fits step) (start buckets heads garbage freed mem) ops s) :
    (∀ name nlen value vlen, Exact s.table (slice name 0 nlen.toNat) (slice value 0 vlen.toNat)
        (xqcDtableLookup s.dt name nlen value vlen)) ∧
      ∀ idx, xqcDtableGetNv s.dt idx =
        match DynTable.xqcDtableGetEntryByAbsIdx s.table idx with
        | none => .error .voidEntry
        | some e => .ok (e.name, e.value) := by
  have hinv : Inv s := h.inv (P := Inv) (fun _ _ _ hi hs => step_inv hi hs)
    ⟨⟨[], create_refines hb heads garbage freed mem⟩, fun _ _ he => by cases he⟩
  obtain ⟨⟨log, href⟩, hi⟩ := hinv
  refine ⟨fun name nlen value vlen => lookup_exact href hi name nlen value vlen, fun idx => ?_⟩
  rcases getNv_spec href idx with ⟨hd, hu⟩ | ⟨e, hd, hu⟩
  · rw [hd, hu]
  · rw [hd, hu]

/-! ### Tables of two elements -/

def noMemory : Mem := fun _ => 0

def made : St := start 128 (fun _ => []) (fun _ => zeroSlot) (fun _ => zeroSlot) noMemory

def room : Alloc := ⟨true, true, noMemory, fun _ => zeroSlot⟩

def insertOf (name value : List UInt8) : Op :=
  .add (memOf name) (UInt64.ofNat name.length) (memOf value) (UInt64.ofNat value.length) true

def oneField : St := (made.after (.setCapacity 64 room)).after (insertOf [97] [49])

theorem one_field_is_found : (oneField.table.entries.map Entry.name = [[97]]) ∧
    Exact oneField.table [97] [49] (xqcDtableLookup oneField.dt (memOf [97]) 1 (memOf [49]) 1) := by
  have hrun : Run (Guard Fits step) made [.setCapacity 64 room, insertOf [97] [49]] oneField :=
    (Run.nil.snoc ⟨⟨by decide, .inr ⟨rfl, fun b => ite_self _⟩⟩, rfl⟩).snoc
      ⟨⟨rfl, by show Dtable.CanTake _ _ _; decide⟩, rfl⟩
  exact ⟨by decide, (lookup_answers_for_the_entries 128 _ _ _ _ (by decide) _ _ hrun).1 (memOf [97]) 1 (memOf [49]) 1⟩

/-- The fields `a: 1`, `b: 1` and `cd: 1`, each of which takes the place of the one before.
    The node of the first is in the bucket of the third, and points at its element. -/
def threeFields : St := ((oneField.after (insertOf [98] [49])).after (insertOf [99, 100] [49]))

theorem popped_node_hides_an_entry :
    Run step made [.setCapacity 64 room, insertOf [97] [49], insertOf [98] [49], insertOf [99, 100] [49]] threeFields ∧
      threeFields.table.entries.map (fun e => (e.name, e.value)) = [([99, 100], [49])] ∧
      xqcDtableGetNv threeFields.dt 2 = .ok ([99, 100], [49]) ∧
      xqcDtableLookup threeFields.dt (memOf [99, 100]) 2 (memOf [49]) 1 = (.none, 0) ∧
      ¬ Exact threeFields.table [99, 100] [49] (xqcDtableLookup threeFields.dt (memOf [99, 100]) 2 (memOf [49]) 1) := by
  have hnone : xqcDtableLookup threeFields.dt (memOf [99, 100]) 2 (memOf [49]) 1 = (.none, 0) := by decide
  refine ⟨(((Run.nil.snoc rfl).snoc rfl).snoc rfl).snoc rfl, by decide, by decide, hnone, fun hexact => ?_⟩
  have hentry : threeFields.table.entries = [⟨[99, 100], [49], 68⟩] := by decide
  exact hexact.2 _ (hentry ▸ mem_cons_self) rfl

/-- The place of an empty value is never set, so it is compared with bytes that are gone. -/
theorem empty_value_is_not_matched : ∃ s, Run step made [.setCapacity 64 room, insertOf [97] [], insertOf [98] []] s ∧
    xqcDtableGetNv s.dt 1 = .ok ([98], []) ∧ xqcDtableLookup s.dt (memOf [98]) 1 (memOf []) 0 = (.name, 1) :=
  ⟨_, ((Run.nil.snoc rfl).snoc rfl).snoc rfl, by decide, by decide⟩

end RlccQuic.Http3.TableMem
