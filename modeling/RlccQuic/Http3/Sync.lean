/-
  RlccQuic.Http3.Sync — what the encoder writes makes the decoder do what it did.

  The decoder's table is the encoder's without the bound for references, which only the encoder has (`plain`). One line
  of a header list is followed at a time: the instruction it writes takes the plain table before it to the plain table
  after it, what it refers to is what it says, and every entry it inserts is referred to.

  Proved: the instructions of a header list take the plain table before it to the one after it (`prepareLoop_prepared`), and
  every representation is decoded to its header in any table that has the entries the section refers to (`saveHdr_repOf`).
-/

import RlccQuic.Http3.EncoderRefs
import RlccQuic.Http3.Decoder

namespace RlccQuic.Http3.Sync

open Lib Prefixed Ins RepCodec Decode List Option DynTable
  RlccQuic.Http3.Encode
open DynTable (Table Entry)

/-! ## Tables without the bound -/

def plain (t : Table) : Table := { t with minRef := ⊤ }

@[simp] lemma plain_insertCnt (t : Table) : (plain t).insertCnt = t.insertCnt := rfl

@[simp] lemma plain_entryAt (t : Table) (idx : Nat) :
    xqcDtableGetEntryByAbsIdx (plain t) idx = xqcDtableGetEntryByAbsIdx t idx := rfl

variable {t t' : Table}

lemma insertCnt_of_plain (h : plain t' = plain t) : t'.insertCnt = t.insertCnt := by
  rw [← plain_insertCnt, h, plain_insertCnt]

lemma firstIdx_of_plain (h : plain t' = plain t) : t'.firstIdx = t.firstIdx := by
  have hfirst : (plain t').firstIdx = (plain t).firstIdx := congrArg Table.firstIdx h
  exact hfirst

lemma plain_ok (h : t.Ok) : (plain t).Ok := ⟨h.used, h.fits, h.named, h.summed, fun _ hm => by cases hm⟩

lemma plain_add (h : t.Ok) {name : List UInt8} (hname : name ≠ []) {value : List UInt8}
    (hc : t.CanMake (xqcDtableEntrySize name.length value.length)) :
    succeeded (xqcDtableAdd (plain t) name value) = some (plain (t.insert name value)) := by
  rcases add_spec (plain_ok h) hname value with ⟨-, hadd⟩ | ⟨hno, -⟩
  · rw [hadd]; rfl
  · exact absurd ⟨hc.1, le_top⟩ hno

variable {idx : Nat}

lemma plain_duplicate (h : t.Ok) {e : Entry} (he : xqcDtableGetEntryByAbsIdx t idx = some e)
    (hc : t.CanMake e.size) :
    succeeded (xqcDtableDuplicate (plain t) idx) = some (plain (t.insert e.name e.value)) := by
  rcases duplicate_spec (plain_ok h) he with ⟨-, hdup⟩ | ⟨hno, -⟩
  · rw [hdup]; rfl
  · exact absurd ⟨hc.1, le_top⟩ hno

/-- An instruction never lowers the insert count, and only one kind changes the capacity. -/
lemma onEncoderIns_count (h : t.Ok) {i : EncIns} (hi : xqcQpackOnEncoderIns t i = some t') :
    t'.Ok ∧ t.insertCnt ≤ t'.insertCnt ∧ (t'.capacity = t.capacity ∨ i = .setCap t'.capacity) := by
  have hadd : ∀ {name value : List UInt8}, succeeded (xqcDtableAdd t name value) = some t' →
      t'.Ok ∧ t.insertCnt ≤ t'.insertCnt ∧ (t'.capacity = t.capacity ∨ i = .setCap t'.capacity) := by
    intro name value hs
    rcases add_grown h name value with ⟨e, ha⟩ | ⟨u, ha, hgrown, -, hcap⟩
    · rw [ha] at hs; cases hs
    · rw [ha] at hs; cases hs; exact ⟨hgrown.ok, hgrown.insertCnt, .inl hcap⟩
  cases i with
  | setCap capacity =>
    have hs : succeeded (xqcDtableSetCapacity t capacity true) = some t' := hi
    rcases hset : xqcDtableSetCapacity t capacity true with ⟨u, _ | _⟩
    · rw [hset] at hs; cases hs
    · rw [hset] at hs; cases hs
      obtain ⟨hok, -, hcnt, hcap⟩ := setCapacity_spec h hset
      exact ⟨hok, hcnt.ge, .inr (by rw [hcap])⟩
  | insertNameRef stable idx value =>
    obtain ⟨name, -, hs⟩ := bind_eq_some_iff.mp hi
    exact hadd hs
  | insertLiteral name value => exact hadd hi
  | duplicate idx =>
    have hs : succeeded (xqcDtableDuplicate t (xqcBrel2abs t.insertCnt idx)) = some t' := hi
    rcases duplicate_grown h (xqcBrel2abs t.insertCnt idx) with ⟨e, hd⟩ | ⟨u, hd, hgrown, -, hcap⟩
    · rw [hd] at hs; cases hs
    · rw [hd] at hs; cases hs; exact ⟨hgrown.ok, hgrown.insertCnt, .inl hcap⟩

lemma onEncoderIns_counts (ins : List EncIns) (hok : t.Ok) (h : ins.foldlM xqcQpackOnEncoderIns t = some t') :
    t.insertCnt ≤ t'.insertCnt := by
  refine (foldlM_inv (P := fun u : Table => u.Ok ∧ t.insertCnt ≤ u.insertCnt) ?_ ⟨hok, le_rfl⟩ h).2
  intro i _ u u' hu hi
  obtain ⟨hok', hle, -⟩ := onEncoderIns_count hu.1 hi
  exact ⟨hok', hu.2.trans hle⟩

/-! ## Tables that grow -/

/-- A later table: it has the entries of the earlier one that it has not evicted, and
    without a new entry it has evicted none. -/
structure Later (t t' : Table) : Prop where
  first : t.firstIdx ≤ t'.firstIdx
  count : t.insertCnt ≤ t'.insertCnt
  same : t'.insertCnt = t.insertCnt → t'.entries = t.entries
  entry : ∀ idx, t'.firstIdx ≤ idx → idx < t.insertCnt →
    xqcDtableGetEntryByAbsIdx t' idx = xqcDtableGetEntryByAbsIdx t idx

lemma Later.refl (t : Table) : Later t t := ⟨le_rfl, le_rfl, fun _ => rfl, fun _ _ _ => rfl⟩

lemma Later.of_plain (h : plain t' = plain t) : Later t t' := by
  have hentries : (plain t').entries = (plain t).entries := congrArg Table.entries h
  refine ⟨(firstIdx_of_plain h).ge, (insertCnt_of_plain h).ge, fun _ => hentries, fun idx _ _ => ?_⟩
  rw [← plain_entryAt, h, plain_entryAt]

lemma Later.trans {u v : Table} (h1 : Later t u) (h2 : Later u v) : Later t v := by
  refine ⟨h1.first.trans h2.first, h1.count.trans h2.count, fun hsame => ?_, fun idx hidx hlt => ?_⟩
  · have hc1 := h1.count
    have hc2 := h2.count
    exact (h2.same (by omega)).trans (h1.same (by omega))
  · rw [h2.entry idx hidx (hlt.trans_le h1.count), h1.entry idx (h2.first.trans hidx) hlt]

lemma insert_parts (t : Table) (name value : List UInt8) :
    (t.insert name value).firstIdx = t.firstIdx + t.evicts (xqcDtableEntrySize name.length value.length) ∧
      (t.insert name value).entries =
        t.entries.drop (t.evicts (xqcDtableEntrySize name.length value.length)) ++ [⟨name, value, t.byteSum⟩] :=
  ⟨rfl, rfl⟩

lemma later_insert (t : Table) (name value : List UInt8) : Later t (t.insert name value) := by
  have hcount := insertCnt_insert t name value
  refine ⟨Nat.le_add_right _ _, by omega, fun hsame => by omega, fun idx hidx hlt => ?_⟩
  obtain ⟨hfirst, hentries⟩ := insert_parts t name value
  unfold Table.insertCnt at hlt
  unfold xqcDtableGetEntryByAbsIdx
  rw [hfirst, hentries, if_neg (by omega), if_neg (by omega), getElem?_append_left (by rw [length_drop]; omega),
    getElem?_drop]
  congr 1
  omega

lemma insert_entryAt (t : Table) (name value : List UInt8) :
    xqcDtableGetEntryByAbsIdx (t.insert name value) t.insertCnt = some ⟨name, value, t.byteSum⟩ := by
  have hevicts := evicts_le t (xqcDtableEntrySize name.length value.length)
  obtain ⟨hfirst, hentries⟩ := insert_parts t name value
  have hat : t.insertCnt - (t.firstIdx + t.evicts (xqcDtableEntrySize name.length value.length)) =
      (t.entries.drop (t.evicts (xqcDtableEntrySize name.length value.length))).length := by
    unfold Table.insertCnt; rw [length_drop]
    omega
  unfold xqcDtableGetEntryByAbsIdx
  rw [hfirst, hentries, if_neg (by unfold Table.insertCnt; omega), hat]
  simp

/-! ## One line -/

/-- What a line refers to has its name, and its value if that is said. -/
def Names (t : Table) (hdr : Header) : Ref → Prop
  | .none => True
  | .stable both idx => ∃ v, StaticTable.xqcStableGetNv idx = some (hdr.name, v) ∧ (both = true → v = hdr.value)
  | .dtable both idx =>
    ∃ e, xqcDtableGetEntryByAbsIdx t idx = some e ∧ e.name = hdr.name ∧ (both = true → e.value = hdr.value)

variable {enc enc' : Encoder} {fs fs' : FieldSection} {l : Line} {info : Info} {limited : Bool}

lemma lookupNv_names (h : Looked enc l) : Names enc.dtable l.hdr (xqcEncoderLookupNv l.hdr l.found) := by
  rcases lookupNv_cases l.hdr l.found with hr | ⟨both, i, hr, hs⟩ | ⟨both, i, hr, hf⟩
  · rw [hr]
    trivial
  · rw [hr]
    have hsound := StaticTable.stableLookup_sound l.hdr.name l.hdr.value
    rw [hs] at hsound
    cases both with
    | false =>
      obtain ⟨v, hv⟩ := hsound
      exact ⟨v, hv, nofun⟩
    | true => exact ⟨_, hsound, fun _ => rfl⟩
  · rw [hr]
    unfold Looked at h; rw [hf] at h
    cases both with
    | false =>
      obtain ⟨e, he, hname⟩ := h
      exact ⟨e, he, hname, nofun⟩
    | true =>
      obtain ⟨e, he, hname, hvalue⟩ := h
      exact ⟨e, he, hname, fun _ => hvalue⟩

variable {ref : Ref} {hdr : Header}

lemma checkInsert_names (h : Names t hdr ref) (blocked : Bool) :
    Names t hdr (xqcEncoderCheckInsert enc ref blocked).2 := by
  unfold xqcEncoderCheckInsert; split
  · exact h
  split
  · exact h
  split
  · split
    · trivial
    · exact h
  · exact h

lemma checkIndexMode_ins (enc : Encoder) (hdr : Header) (ref : Ref) (blocked : Bool) :
    (xqcEncoderCheckIndexMode enc hdr ref blocked).2.2 = .nameRefValue →
      (xqcEncoderCheckIndexMode enc hdr ref blocked).1 ≠ .none := by
  unfold xqcEncoderCheckIndexMode xqcEncoderCheckNeverValueIndexMode xqcEncoderCheckNormalIndexMode
  rcases xqcEncoderCheckInsert enc ref blocked with ⟨_ | _, ref'⟩
  · split <;> exact fun h => by cases h
  · split
    · dsimp only
      split <;> exact fun h => by cases h
    · dsimp only
      intro h hnone; subst hnone
      dsimp only at h; split at h
      · split at h <;> cases h
      · cases h

/-- What a line does to the table, and what it refers to then. -/
structure Mirrors (t : Table) (hdr : Header) (t' : Table) (ref : Ref) (out : List EncIns) : Prop where
  later : Later t t'
  capacity : t'.capacity = t.capacity
  follows : out.foldlM xqcQpackOnEncoderIns (plain t) = some (plain t')
  short : out.length ≤ 1
  one : t'.insertCnt ≤ t.insertCnt + 1
  fits : ∀ i ∈ out, EncFits i
  names : Names t' hdr ref
  fresh : ∀ idx, t.insertCnt ≤ idx → idx < t'.insertCnt → ref.index = some idx

lemma Mirrors.nothing (h : Names t hdr ref) : Mirrors t hdr t ref [] :=
  ⟨.refl t, rfl, rfl, zero_le, Nat.le_succ _, fun _ hi => (not_mem_nil hi).elim, h,
    fun _ hge hlt => absurd hlt (Nat.not_lt.mpr hge)⟩

lemma Mirrors.inserted {name value : List UInt8} {both : Bool} {i : EncIns}
    (hi : xqcQpackOnEncoderIns (plain t) i = some (plain (t.insert name value))) (hfits : EncFits i) (hname : name = hdr.name)
    (hvalue : both = true → value = hdr.value) : Mirrors t hdr (t.insert name value) (.dtable both t.insertCnt) [i] := by
  refine ⟨later_insert t name value, rfl, ?_, le_rfl, (insertCnt_insert t name value).le, fun j hj => ?_,
    ⟨_, insert_entryAt t name value, hname, hvalue⟩,
    fun idx hge hlt => ?_⟩
  · rw [foldlM_cons, hi]; rfl
  · rw [mem_singleton.mp hj]; exact hfits
  · rw [insertCnt_insert] at hlt; rw [show idx = t.insertCnt by omega]; rfl

variable {base : Nat}

lemma brel2abs_abs2brel (hidx : idx < base) (hbase : base ≤ intMax) :
    xqcBrel2abs base (xqcAbs2brel base idx) = idx := by
  have hmax : intMax < 2 ^ 64 := by decide
  unfold xqcBrel2abs xqcAbs2brel
  rw [show base + 2 ^ 64 - (base - idx - 1) - 1 = idx + 2 ^ 64 by omega, Nat.add_mod_right, Nat.mod_eq_of_lt (by omega)]

lemma pbrel2abs_abs2pbrel (hidx : base ≤ idx) (hmax : idx ≤ intMax) :
    xqcPbrel2abs base (xqcAbs2pbrel base idx) = idx := by
  have hlt : intMax < 2 ^ 64 := by decide
  unfold xqcPbrel2abs xqcAbs2pbrel
  rw [Nat.add_sub_of_le hidx, Nat.mod_eq_of_lt (by omega)]

lemma stable_le_max {f : List UInt8 × List UInt8} (h : StaticTable.xqcStableGetNv idx = some f) : idx ≤ intMax := by
  have hlt : idx < StaticTable.xqcGStaticTable.length := (List.getElem?_eq_some_iff.mp h).1
  have hlen : StaticTable.xqcGStaticTable.length = 99 := by decide
  have hmax : 99 ≤ intMax := by decide
  omega

def Small (l : Line) : Prop := l.hdr.name.length ≤ intMax ∧ l.hdr.value.length ≤ intMax

variable {ins : Insertion}

lemma insertIns_mirrors (h : t.Ok) (hcnt : t.insertCnt ≤ intMax) (hname : hdr.name ≠ [])
    (hlen : hdr.name.length ≤ intMax ∧ hdr.value.length ≤ intMax) (hn : Names t hdr ref)
    (hins : ins ≠ .none) (href : ins = .nameRefValue → ref ≠ .none)
    (hc : t.CanMake (xqcDtableEntrySize hdr.name.length (if ins = .name then [] else hdr.value).length)) :
    Mirrors t hdr (t.insert hdr.name (if ins = .name then [] else hdr.value)) (.dtable (ins ≠ .name) t.insertCnt)
      (xqcEncoderWriteInsertIns hdr ref t.insertCnt ins) := by
  cases ins with
  | none => exact absurd rfl hins
  | name => exact .inserted (plain_add h hname hc) ⟨hlen.1, zero_le⟩ rfl (fun hboth => by simp at hboth)
  | literalNameValue => exact .inserted (plain_add h hname hc) hlen rfl fun _ => rfl
  | nameRefValue =>
    cases ref with
    | none => exact absurd rfl (href rfl)
    | stable both idx =>
      obtain ⟨v, hv, -⟩ := hn
      refine .inserted ?_ ⟨stable_le_max hv, hlen.2⟩ rfl fun _ => rfl
      have hfound : xqcDecoderNameIndex (plain t) true idx = some hdr.name := by
        rw [xqcDecoderNameIndex, xqcDecoderIndex, if_pos rfl, hv]; rfl
      show xqcDecoderInsertNameRef (plain t) true idx hdr.value = _
      rw [xqcDecoderInsertNameRef, if_pos rfl, hfound]; exact plain_add h hname hc
    | dtable both idx =>
      obtain ⟨e, he, hen, -⟩ := hn
      have hidx := (entryAt_some he).2.1
      have hrel : xqcAbs2brel t.insertCnt idx ≤ intMax := by
        unfold xqcAbs2brel
        omega
      refine .inserted ?_ ⟨hrel, hlen.2⟩ rfl fun _ => rfl
      have hfound : xqcDecoderNameIndex (plain t) false idx = some hdr.name := by
        rw [xqcDecoderNameIndex, xqcDecoderIndex, if_neg (by simp), plain_entryAt, he]
        exact congrArg some hen
      show xqcDecoderInsertNameRef (plain t) false (xqcAbs2brel t.insertCnt idx) hdr.value = _
      rw [xqcDecoderInsertNameRef, if_neg (by simp), plain_insertCnt, brel2abs_abs2brel hidx hcnt, hfound]
      exact plain_add h hname hc

lemma insert_mirrors (h : enc.dtable.Ok) (hcnt : enc.dtable.insertCnt ≤ intMax) (hname : l.hdr.name ≠ []) (hsmall : Small l)
    (hroom : l.room = true) (hn : Names enc.dtable l.hdr ref) (hins : ins ≠ .none)
    (href : ins = .nameRefValue → ref ≠ .none) :
    ∃ t ref' out, xqcEncoderInsert enc l ref ins = .ok ({ enc with dtable := t }, ref', out) ∧
      Mirrors enc.dtable l.hdr t ref' out := by
  unfold xqcEncoderInsert
  rcases add_spec h hname (if ins = .name then [] else l.hdr.value) with ⟨hc, hadd⟩ | ⟨-, e, hadd⟩
  · rw [hadd]
    dsimp only; rw [if_pos hroom]
    exact ⟨_, _, _, rfl, insertIns_mirrors h hcnt hname hsmall hn hins href hc⟩
  · rw [hadd]; exact ⟨_, _, _, rfl, .nothing hn⟩

lemma tryDuplicate_mirrors (h : enc.dtable.Ok) (hcnt : enc.dtable.insertCnt ≤ intMax) (hroom : l.room = true) {both : Bool}
    (hn : Names enc.dtable l.hdr (.dtable both idx)) :
    ∃ t ref' out, xqcEncoderTryDuplicate enc l both idx = ({ enc with dtable := t }, ref', out) ∧
      Mirrors enc.dtable l.hdr t ref' out := by
  obtain ⟨e, he, hname, hvalue⟩ := hn
  have hidx := (entryAt_some he).2.1
  unfold xqcEncoderTryDuplicate; split
  · rcases duplicate_spec h he with ⟨hc, hdup⟩ | ⟨-, err, hdup⟩
    · rw [hdup]
      dsimp only; rw [if_pos hroom]
      refine ⟨_, _, _, rfl, .inserted ?_ ?_ hname hvalue⟩
      · show xqcDecoderDuplicate (plain enc.dtable) (xqcAbs2brel enc.dtable.insertCnt idx) = _
        rw [xqcDecoderDuplicate, plain_insertCnt, brel2abs_abs2brel hidx hcnt]
        exact plain_duplicate h he hc
      · show xqcAbs2brel enc.dtable.insertCnt idx ≤ intMax; unfold xqcAbs2brel; omega
    · rw [hdup]; exact ⟨_, _, _, rfl, .nothing ⟨e, he, hname, hvalue⟩⟩
  · exact ⟨_, _, _, rfl, .nothing ⟨e, he, hname, hvalue⟩⟩

lemma changeTable_mirrors (limited : Bool) (h : enc.dtable.Ok) (hcnt : enc.dtable.insertCnt ≤ intMax) (hname : l.hdr.name ≠ [])
    (hsmall : Small l) (hroom : l.room = true) (hn : Names enc.dtable l.hdr ref)
    (href : ins = .nameRefValue → ref ≠ .none) :
    ∃ t ref' out, changeTable limited enc l ref ins = .ok ({ enc with dtable := t }, ref', out) ∧
      Mirrors enc.dtable l.hdr t ref' out := by
  unfold changeTable; split
  · rename_i hins; exact insert_mirrors h hcnt hname hsmall hroom hn hins href
  · split
    · split
      · exact ⟨_, _, _, rfl, .nothing hn⟩
      · obtain ⟨t, ref', out, hdup, hm⟩ := tryDuplicate_mirrors h hcnt hroom hn
        rw [hdup]; exact ⟨t, ref', out, rfl, hm⟩
    · exact ⟨_, _, _, rfl, .nothing hn⟩

lemma Names.later (h : Later t t') (hn : Names t hdr ref)
    (hin : ∀ idx, ref.index = some idx → t'.firstIdx ≤ idx) : Names t' hdr ref := by
  cases ref with
  | none => trivial
  | stable both idx => exact hn
  | dtable both idx =>
    obtain ⟨e, he, hrest⟩ := hn
    exact ⟨e, (h.entry idx (hin idx rfl) (entryAt_some he).2.1).trans he, hrest⟩

/-- The required insert count is one more than the highest reference. -/
def Counts (fs : FieldSection) : Prop := (∀ idx ∈ fs.refs, idx < fs.ric) ∧ (fs.ric ≠ 0 → fs.ric - 1 ∈ fs.refs)

structure Noted (fs fs' : FieldSection) (info : Info) : Prop where
  infos : fs'.infos = fs.infos ++ [info]
  base : fs'.base = fs.base
  ric : fs'.ric = match info.ref.index with
    | some idx => max fs.ric (idx + 1)
    | none => fs.ric

lemma Noted.refs (h : Noted fs fs' info) : fs'.refs = fs.refs ++ info.ref.index.toList := by
  have hlist := refs_append fs info
  unfold FieldSection.refs at hlist ⊢; rw [h.infos]
  exact hlist

lemma Noted.counts (h : Noted fs fs' info) (hc : Counts fs) : Counts fs' := by
  have hrefs := h.refs
  have hric := h.ric
  cases hi : info.ref.index with
  | none =>
    rw [hi] at hrefs hric
    simp only [toList_none, append_nil] at hrefs hric
    unfold Counts; rw [hrefs, hric]
    exact hc
  | some idx =>
    rw [hi] at hrefs hric
    simp only [toList_some] at hrefs hric
    unfold Counts; rw [hrefs, hric]
    refine ⟨fun j hj => ?_, fun _ => ?_⟩
    · rcases mem_append.mp hj with hj | hj
      · exact lt_max_of_lt_left (hc.1 j hj)
      · rw [mem_singleton.mp hj]; exact lt_max_of_lt_right (Nat.lt_succ_self idx)
    · rcases Nat.le_total fs.ric (idx + 1) with hle | hle
      · rw [max_eq_right hle]; exact mem_append_right _ (mem_singleton.mpr rfl)
      · rw [max_eq_left hle]; exact mem_append_left _ (hc.2 (by omega))

lemma noteRef_ok (enc : Encoder) (fs : FieldSection) (info : Info) (hn : Names enc.dtable hdr info.ref) :
    ∃ enc' fs', noteRef enc fs info = .ok (enc', fs') ∧ plain enc'.dtable = plain enc.dtable ∧ Noted fs fs' info := by
  unfold noteRef; split
  · rename_i both idx hr; rw [hr] at hn
    obtain ⟨e, he, -⟩ := hn
    obtain ⟨hfirst, hlast, hmem⟩ := entryAt_some he
    have hric : (if fs.ric < idx + 1 then idx + 1 else fs.ric) = max fs.ric (idx + 1) := by
      split <;> omega
    have hidx : info.ref.index = some idx := by rw [hr]; rfl
    rw [hric]
    have hnoted : ∀ m, Noted fs ⟨fs.base, max fs.ric (idx + 1), m, fs.infos ++ [info]⟩ info := fun m =>
      ⟨rfl, rfl, by rw [hidx]⟩
    split
    · split
      · rcases hset : xqcDtableSetMinRef enc.dtable idx with ⟨t, _ | _⟩
        · unfold xqcDtableSetMinRef at hset; split at hset
          · cases hset
          rw [if_neg (ne_nil_of_mem hmem), if_neg] at hset
          · cases hset
          · rintro ⟨-, hlo | hhi⟩
            · exact absurd hfirst (Nat.not_le.mpr (Nat.cast_lt.mp hlo))
            · exact absurd hlast (Nat.not_lt.mpr (Nat.cast_le.mp hhi))
        · refine ⟨_, _, rfl, ?_, hnoted _⟩
          unfold xqcDtableSetMinRef at hset; split at hset
          · cases hset; rfl
          split at hset
          · cases hset
          split at hset
          · cases hset
          · cases hset; rfl
      · exact ⟨_, _, rfl, rfl, hnoted _⟩
    · exact ⟨_, _, rfl, rfl, hnoted _⟩
  · rename_i hr
    refine ⟨_, _, rfl, rfl, rfl, rfl, ?_⟩
    cases hi : info.ref with
    | dtable both idx => exact absurd hi (hr both idx)
    | _ => rfl

structure Lined (enc : Encoder) (fs : FieldSection) (l : Line) (enc' : Encoder) (fs' : FieldSection) (out : List EncIns) :
    Prop where
  later : Later enc.dtable enc'.dtable
  capacity : enc'.dtable.capacity = enc.dtable.capacity
  follows : out.foldlM xqcQpackOnEncoderIns (plain enc.dtable) = some (plain enc'.dtable)
  short : out.length ≤ 1
  one : enc'.dtable.insertCnt ≤ enc.dtable.insertCnt + 1
  fits : ∀ i ∈ out, EncFits i
  note : ∃ info, Noted fs fs' info ∧ info.hdr = l.hdr ∧ Names enc'.dtable info.hdr info.ref
  fresh : ∀ idx, enc.dtable.insertCnt ≤ idx → idx < enc'.dtable.insertCnt → idx ∈ fs'.refs

/-- A header that can be sent, with memory for its instruction. -/
def Line.Sendable (l : Line) : Prop := l.hdr.name ≠ [] ∧ Small l ∧ l.room = true

lemma prepareLine_lined (limited : Bool) (fs : FieldSection) (h : enc.dtable.Ok) (hcnt : enc.dtable.insertCnt ≤ intMax)
    (hl : Looked enc l) (hs : Line.Sendable l) :
    ∃ enc' fs' out, prepareLine limited enc fs l = .ok (enc', fs', out) ∧ Lined enc fs l enc' fs' out := by
  unfold prepareLine; split
  · refine ⟨_, _, _, rfl, .refl _, rfl, rfl, zero_le, Nat.le_succ _, fun _ hi => (not_mem_nil hi).elim,
      ⟨⟨l.hdr, .none, true⟩, ⟨rfl, rfl, rfl⟩, rfl, trivial⟩, fun _ hge hlt => absurd hlt (Nat.not_lt.mpr hge)⟩
  have hnames : Names enc.dtable l.hdr (xqcEncoderCheckIndexMode enc l.hdr (xqcEncoderLookupNv l.hdr l.found) limited).1 := by
    rw [checkIndexMode_ref]; exact checkInsert_names (lookupNv_names hl) limited
  have href := checkIndexMode_ins enc l.hdr (xqcEncoderLookupNv l.hdr l.found) limited
  rcases hmode : xqcEncoderCheckIndexMode enc l.hdr (xqcEncoderLookupNv l.hdr l.found) limited with ⟨ref, never, ins⟩
  rw [hmode] at hnames href
  obtain ⟨t, ref', out, hchange, hm⟩ := changeTable_mirrors limited h hcnt hs.1 hs.2.1 hs.2.2 hnames href
  dsimp only; rw [hchange]
  dsimp only
  obtain ⟨enc', fs', hnote, hplain, hnoted⟩ := noteRef_ok { enc with dtable := t } fs ⟨l.hdr, ref', never⟩ hm.names
  rw [hnote]
  have hsame : Later t enc'.dtable := .of_plain hplain
  have hcount : enc'.dtable.insertCnt = t.insertCnt := insertCnt_of_plain hplain
  have hcap : (plain enc'.dtable).capacity = (plain t).capacity := congrArg Table.capacity hplain
  refine ⟨_, _, _, rfl, hm.later.trans hsame, hcap.trans hm.capacity, ?_, hm.short, ?_, hm.fits, ⟨_, hnoted, rfl, ?_⟩,
    fun idx hge hlt => ?_⟩
  · rw [hplain]; exact hm.follows
  · rw [hcount]; exact hm.one
  · refine hm.names.later hsame fun idx hidx => ?_
    have hfirst : enc'.dtable.firstIdx = t.firstIdx := firstIdx_of_plain hplain
    have hnames := hm.names
    rw [hfirst]
    cases ref' with
    | none | stable both i => cases hidx
    | dtable both i =>
      cases hidx
      obtain ⟨e, he, -⟩ := hnames
      exact (entryAt_some he).1
  · rw [hnoted.refs, hm.fresh idx hge (by rw [← hcount]; exact hlt)]
    exact mem_append_right _ (mem_singleton.mpr rfl)

/-! ## A header list -/

def prepareTrace (limited : Bool) : Encoder → FieldSection → List Line → List Table
  | _, _, [] => []
  | enc, fs, l :: ls =>
    match prepareLine limited enc fs l with
    | .error _ => []
    | .ok (enc, fs, _) => enc.dtable :: prepareTrace limited enc fs ls

/-- After each of the instructions the table is one of `ts` without its bound. -/
def Follows (t : Table) (ins : List EncIns) (ts : List Table) : Prop :=
  ∀ k ≤ ins.length, ∃ u ∈ ts, (ins.take k).foldlM xqcQpackOnEncoderIns t = some (plain u)

lemma Follows.append {u : Table} {ins ins' : List EncIns} {ts : List Table} (h : Follows t ins ts)
    (hu : ins.foldlM xqcQpackOnEncoderIns t = some u) (h' : Follows u ins' ts) : Follows t (ins ++ ins') ts := by
  intro k hk
  rcases Nat.le_total k ins.length with hle | hle
  · rw [take_append_of_le_length hle]; exact h k hle
  · obtain ⟨v, hv, hfold⟩ := h' (k - ins.length) (by rw [length_append] at hk; omega)
    refine ⟨v, hv, ?_⟩
    rw [take_append, take_of_length_le hle, foldlM_append, hu]; exact hfold

lemma Follows.mono {ins : List EncIns} {ts ts' : List Table} (h : Follows t ins ts) (hsub : ∀ u ∈ ts, u ∈ ts') :
    Follows t ins ts' := by
  intro k hk
  obtain ⟨u, hu, hfold⟩ := h k hk
  exact ⟨u, hsub u hu, hfold⟩

lemma Lined.followed {out : List EncIns} (h : Lined enc fs l enc' fs' out) :
    Follows (plain enc.dtable) out [enc.dtable, enc'.dtable] := by
  intro k hk
  have hshort := h.short
  rcases Nat.eq_zero_or_pos k with rfl | hpos
  · exact ⟨enc.dtable, mem_cons_self, rfl⟩
  · refine ⟨enc'.dtable, mem_cons_of_mem _ mem_cons_self, ?_⟩
    rw [take_of_length_le (by omega)]; exact h.follows

structure Prepared (limited : Bool) (enc : Encoder) (fs : FieldSection) (ls : List Line) (enc' : Encoder) (fs' : FieldSection)
    (ins : List EncIns) : Prop where
  later : Later enc.dtable enc'.dtable
  capacity : enc'.dtable.capacity = enc.dtable.capacity
  ends : ins.foldlM xqcQpackOnEncoderIns (plain enc.dtable) = some (plain enc'.dtable)
  follows : Follows (plain enc.dtable) ins (enc.dtable :: prepareTrace limited enc fs ls)
  trace : (enc.dtable :: prepareTrace limited enc fs ls).Pairwise Later ∧
    ∀ t ∈ enc.dtable :: prepareTrace limited enc fs ls, Later t enc'.dtable ∧ t.Ok
  fits : ∀ i ∈ ins, EncFits i
  count : enc'.dtable.insertCnt ≤ enc.dtable.insertCnt + ls.length
  base : fs'.base = fs.base
  hdrs : fs'.infos.map Info.hdr = fs.infos.map Info.hdr ++ ls.map Line.hdr
  refs : ∀ idx ∈ fs.refs, idx ∈ fs'.refs
  names : (∀ info ∈ fs.infos, Names enc.dtable info.hdr info.ref) → ∀ info ∈ fs'.infos, Names enc'.dtable info.hdr info.ref
  fresh : ∀ idx, enc.dtable.insertCnt ≤ idx → idx < enc'.dtable.insertCnt → idx ∈ fs'.refs
  counts : Counts fs → Counts fs'

lemma Noted.kept (h : Noted fs fs' info) (hidx : idx ∈ fs.refs) : idx ∈ fs'.refs := by
  rw [h.refs]; exact mem_append_left _ hidx

theorem prepareLoop_prepared : ∀ (ls : List Line) {enc : Encoder} {fs : FieldSection} (out : List EncIns), Going enc fs →
    enc.dtable.insertCnt + ls.length ≤ intMax → LooksUp limited enc fs ls → (∀ l ∈ ls, Line.Sendable l) →
    ∃ enc' fs' ins, prepareLoop limited enc fs out ls = .ok (enc', fs', out ++ ins) ∧ Going enc' fs' ∧
      Prepared limited enc fs ls enc' fs' ins
  | [], enc, fs, out, h, _, _, _ => by
    refine ⟨enc, fs, [], by rw [append_nil]; rfl, h, .refl _, rfl, rfl, ?_, ?_, ?_, le_rfl, rfl, ?_, fun _ hi => hi,
      fun hn => hn, fun _ hge hlt => absurd hlt (Nat.not_lt.mpr hge), fun hc => hc⟩
    · intro k hk; exact ⟨enc.dtable, mem_cons_self, by rw [Nat.le_zero.mp hk]; rfl⟩
    · exact ⟨pairwise_singleton _ _, fun t ht => by rw [mem_singleton.mp ht]; exact ⟨.refl _, h.ok⟩⟩
    · exact fun _ hi => (not_mem_nil hi).elim
    · rw [map_nil, append_nil]
  | l :: ls, enc, fs, out, h, hcnt, hl, hs => by
    rw [length_cons] at hcnt
    obtain ⟨e1, f1, o1, hline, hlined⟩ :=
      prepareLine_lined limited fs h.ok (by omega) hl.1 (hs l mem_cons_self)
    obtain ⟨hgoing, -⟩ := prepareLine_going h hl.1 hline
    obtain ⟨e2, f2, o2, hloop, hgoing', hprep⟩ := prepareLoop_prepared ls (out ++ o1) hgoing (by have := hlined.one; omega)
      (hl.2 _ _ _ hline) (fun l' hl' => hs l' (mem_cons_of_mem _ hl'))
    obtain ⟨info, hnoted, hhdr, hnames⟩ := hlined.note
    have htrace : prepareTrace limited enc fs (l :: ls) = e1.dtable :: prepareTrace limited e1 f1 ls := by
      rw [prepareTrace, hline]
    refine ⟨e2, f2, o1 ++ o2, ?_, hgoing', hlined.later.trans hprep.later, hprep.capacity.trans hlined.capacity, ?_, ?_, ?_, ?_,
      ?_, hprep.base.trans hnoted.base, ?_,
      fun idx hidx => hprep.refs idx (hnoted.kept hidx), ?_, ?_, fun hc => hprep.counts (hnoted.counts hc)⟩
    · rw [prepareLoop, hline]
      dsimp only; rw [hloop, append_assoc]
    · rw [foldlM_append, hlined.follows]; exact hprep.ends
    · rw [htrace]
      refine Follows.append (hlined.followed.mono fun u hu => ?_) hlined.follows
        (hprep.follows.mono fun u hu => mem_cons_of_mem _ hu)
      rcases mem_cons.mp hu with rfl | hu
      · exact mem_cons_self
      · rw [mem_singleton.mp hu]; exact mem_cons_of_mem _ mem_cons_self
    · rw [htrace]
      have hfirst : ∀ t ∈ e1.dtable :: prepareTrace limited e1 f1 ls, Later e1.dtable t :=
        forall_mem_cons.mpr ⟨.refl _, (pairwise_cons.mp hprep.trace.1).1⟩
      exact ⟨pairwise_cons.mpr ⟨fun t ht => hlined.later.trans (hfirst t ht), hprep.trace.1⟩,
        forall_mem_cons.mpr ⟨⟨hlined.later.trans hprep.later, h.ok⟩, hprep.trace.2⟩⟩
    · exact forall_mem_append.mpr ⟨hlined.fits, hprep.fits⟩
    · have := hlined.one
      have := hprep.count
      rw [length_cons]; omega
    · rw [hprep.hdrs, hnoted.infos, map_append, map_cons, map_nil, hhdr, append_assoc]; rfl
    · intro hn
      refine hprep.names fun i hi => ?_
      rw [hnoted.infos] at hi
      rcases mem_append.mp hi with hi | hi
      · refine (hn i hi).later hlined.later fun idx hidx => ?_
        have hmem : idx ∈ f1.refs := hnoted.kept (mem_filterMap.mpr ⟨i, hi, hidx⟩)
        exact (hgoing.inTable hmem).1
      · rw [mem_singleton.mp hi]; exact hnames
    · intro idx hge hlt
      rcases Nat.lt_or_ge idx e1.dtable.insertCnt with hold | hnew
      · exact hprep.refs idx (hlined.fresh idx hge hold)
      · exact hprep.fresh idx hnew hlt

/-! ## Representations -/

def Info.field (i : Info) : Field := (i.hdr.name, i.hdr.value)

theorem saveHdr_repOf (hn : Names t info.hdr info.ref) (hbase : base ≤ intMax)
    (hidx : ∀ idx, info.ref.index = some idx → idx ≤ intMax) :
    xqcDecoderSaveHdr t base (repOf base info) = some (Info.field info) := by
  unfold repOf
  cases hr : info.ref with
  | none => rfl
  | stable both idx =>
    rw [hr] at hn
    obtain ⟨v, hv, hvalue⟩ := hn
    cases both with
    | false =>
      show (xqcDecoderNameIndex t true idx).map _ = _
      rw [xqcDecoderNameIndex, xqcDecoderIndex, if_pos rfl, hv]; rfl
    | true =>
      show xqcDecoderIndex t true idx = _
      rw [xqcDecoderIndex, if_pos rfl, hv, hvalue rfl]; rfl
  | dtable both idx =>
    rw [hr] at hn
    obtain ⟨e, he, hname, hvalue⟩ := hn
    have hmax := hidx idx (by rw [hr]; rfl)
    have hfound : xqcDecoderIndex t false idx = some (e.name, e.value) := by
      rw [xqcDecoderIndex, if_neg (by simp), he]; rfl
    cases both with
    | false =>
      have hfield : (xqcDecoderNameIndex t false idx).map (fun name => (name, info.hdr.value)) = some (Info.field info) := by
        rw [xqcDecoderNameIndex, hfound]
        exact congrArg (fun n => some (n, info.hdr.value)) hname
      dsimp only; split
      · rename_i hge; rw [xqcDecoderSaveHdr, pbrel2abs_abs2pbrel hge hmax]; exact hfield
      · rename_i hlt
        rw [xqcDecoderSaveHdr, if_neg (by simp), brel2abs_abs2brel (Nat.not_le.mp hlt) hbase]
        exact hfield
    | true =>
      have hfield : xqcDecoderIndex t false idx = some (Info.field info) := by
        rw [hfound, hname, hvalue rfl]; rfl
      dsimp only; split
      · rename_i hge; rw [xqcDecoderSaveHdr, pbrel2abs_abs2pbrel hge hmax]; exact hfield
      · rename_i hlt
        rw [xqcDecoderSaveHdr, if_neg (by simp), brel2abs_abs2brel (Nat.not_le.mp hlt) hbase]
        exact hfield

lemma repFits_repOf (hn : Names t info.hdr info.ref) (hbase : base ≤ intMax)
    (hidx : ∀ idx, info.ref.index = some idx → idx ≤ intMax)
    (hlen : info.hdr.name.length ≤ intMax ∧ info.hdr.value.length ≤ intMax) : RepFits (repOf base info) := by
  unfold repOf
  cases hr : info.ref with
  | none => exact hlen
  | stable both idx =>
    rw [hr] at hn
    obtain ⟨v, hv, -⟩ := hn
    cases both with
    | false => exact ⟨stable_le_max hv, hlen.2⟩
    | true => exact stable_le_max hv
  | dtable both idx =>
    have hmax := hidx idx (by rw [hr]; rfl)
    have hpb : xqcAbs2pbrel base idx ≤ intMax := by
      unfold xqcAbs2pbrel
      omega
    have hrel : xqcAbs2brel base idx ≤ intMax := by
      unfold xqcAbs2brel
      omega
    cases both with
    | false =>
      dsimp only; split
      · exact ⟨hpb, hlen.2⟩
      · exact ⟨hrel, hlen.2⟩
    | true =>
      dsimp only; split
      · exact hpb
      · exact hrel

end RlccQuic.Http3.Sync
