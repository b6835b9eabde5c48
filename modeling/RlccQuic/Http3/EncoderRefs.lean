/-
  RlccQuic.Http3.EncoderRefs — what the encoder's field sections refer to stays in its table.

  The table does not evict from its lowest reference on. While a section is encoded that is the lower of the encoder's
  bound for all sections and the section's own, which the code keeps apart and joins at the end; an acknowledgement or a
  cancellation takes it anew over the sections that are left.

  Proved: in every run of calls that succeed the bound is the lowest reference of the sections, and every entry that a
  section refers to, or a line of the section being encoded, is in the table (`referenced_entries_stay`).
-/

import RlccQuic.Http3.Encoder

namespace RlccQuic.Http3.Encode

open Lib List DynTable
open DynTable (Table)

/-! ## The lowest of some references -/

def lowest (ms : List (WithTop Nat)) : WithTop Nat := ms.foldr min ⊤

@[simp] lemma lowest_nil : lowest [] = ⊤ := rfl

@[simp] lemma lowest_cons (m : WithTop Nat) (ms : List (WithTop Nat)) : lowest (m :: ms) = min m (lowest ms) := rfl

lemma lowest_append (ms ns : List (WithTop Nat)) : lowest (ms ++ ns) = min (lowest ms) (lowest ns) := by
  induction ms with
  | nil => simp
  | cons m ms ih => rw [cons_append, lowest_cons, lowest_cons, ih, min_assoc]

lemma lowest_le {m : WithTop Nat} {ms : List (WithTop Nat)} (h : m ∈ ms) : lowest ms ≤ m := by
  induction ms with
  | nil => exact (not_mem_nil h).elim
  | cons n ms ih =>
    rcases mem_cons.mp h with rfl | h
    · exact min_le_left _ _
    · exact (min_le_right _ _).trans (ih h)

lemma minLoop_eq (ss : List Section) : ∀ m, minLoop m ss = min m (lowest (ss.map Section.minRep)) := by
  induction ss with
  | nil => exact fun m => (min_top_right m).symm
  | cons s ss ih =>
    intro m
    have hstep : (if s.minRep ≠ ⊤ ∧ (m = ⊤ ∨ s.minRep < m) then s.minRep else m) = min m s.minRep := by
      split
      · rename_i hlow
        rcases hlow.2 with rfl | hlt
        · exact (min_top_left _).symm
        · exact (min_eq_right hlt.le).symm
      · rename_i hhigh
        refine (min_eq_left ?_).symm
        by_cases htop : s.minRep = ⊤
        · rw [htop]; exact le_top
        · exact not_lt.mp (not_or.mp (not_and.mp hhigh htop)).2
    rw [minLoop, hstep, ih, map_cons, lowest_cons, min_assoc]

/-! ## What the functions of the table keep -/

def InTable (t : Table) (idx : Nat) : Prop := t.firstIdx ≤ idx ∧ idx < t.insertCnt

instance (t : Table) (idx : Nat) : Decidable (InTable t idx) := inferInstanceAs (Decidable (_ ∧ _))

variable {t : Table} {idx : Nat}

lemma inTable_of_ref (h : t.Ok) (href : t.minRef ≤ idx) (hlt : idx < t.insertCnt) : InTable t idx := by
  cases hm : t.minRef with
  | top => rw [hm] at href; exact absurd (top_le_iff.mp href) (WithTop.coe_ne_top)
  | coe m => rw [hm] at href; exact ⟨(h.ref m hm).1.trans (Nat.cast_le.mp href), hlt⟩

structure Grown (t t' : Table) : Prop where
  ok : t'.Ok
  minRef : t'.minRef = t.minRef
  insertCnt : t.insertCnt ≤ t'.insertCnt

lemma Grown.refl (h : t.Ok) : Grown t t := ⟨h, rfl, le_rfl⟩

lemma add_grown (h : t.Ok) (name value : List UInt8) :
    (∃ e, xqcDtableAdd t name value = (t, .error e)) ∨
      ∃ t', xqcDtableAdd t name value = (t', .ok t.insertCnt) ∧ Grown t t' ∧ t'.insertCnt = t.insertCnt + 1 ∧
        t'.capacity = t.capacity := by
  by_cases hname : name = []
  · refine .inl ⟨.param, ?_⟩
    rw [xqcDtableAdd, if_pos hname]
  · rcases add_spec h hname value with ⟨hc, hadd⟩ | ⟨-, hadd⟩
    · have hcnt := insertCnt_insert t name value
      exact .inr ⟨_, hadd, ⟨h.insert hname hc, rfl, by omega⟩, hcnt, rfl⟩
    · exact .inl hadd

lemma duplicate_grown (h : t.Ok) (idx : Nat) :
    (∃ e, xqcDtableDuplicate t idx = (t, .error e)) ∨
      ∃ t', xqcDtableDuplicate t idx = (t', .ok t.insertCnt) ∧ Grown t t' ∧ t'.insertCnt = t.insertCnt + 1 ∧
        t'.capacity = t.capacity := by
  cases he : xqcDtableGetEntryByAbsIdx t idx with
  | none =>
    refine .inl ⟨.voidEntry, ?_⟩
    rw [xqcDtableDuplicate, he]
  | some e =>
    rcases duplicate_spec h he with ⟨hc, hdup⟩ | ⟨-, hdup⟩
    · have hcnt := insertCnt_insert t e.name e.value
      exact .inr ⟨_, hdup, ⟨h.insert (h.named e (entryAt_some he).2.2) hc, rfl, by omega⟩, hcnt, rfl⟩
    · exact .inl hdup

/-! ## One line -/

def Ref.Below (r : Ref) (n : Nat) : Prop := ∀ idx, r.index = some idx → idx < n

variable {enc enc' : Encoder} {fs fs' : FieldSection} {l : Line} {limited : Bool}

def Looked (enc : Encoder) (l : Line) : Prop := TableMem.Sound enc.dtable l.hdr.name l.hdr.value l.found

/-- What an answer with name and value, or with the name only, is called. -/
def matched (both : Bool) : TableMem.RefType := if both then .nameAndValue else .name

lemma lookupNv_cases (hdr : Header) (found : TableMem.RefType × Nat) :
    xqcEncoderLookupNv hdr found = .none ∨
      (∃ both idx, xqcEncoderLookupNv hdr found = .stable both idx ∧
        StaticTable.xqcStableLookup hdr.name hdr.value = (matched both, idx)) ∨
      ∃ both idx, xqcEncoderLookupNv hdr found = .dtable both idx ∧ found = (matched both, idx) := by
  unfold xqcEncoderLookupNv
  rcases StaticTable.xqcStableLookup hdr.name hdr.value with ⟨s, i⟩
  rcases found with ⟨f, j⟩
  cases s <;> cases f <;> simp [rank, matched]

lemma lookupNv_below (h : Looked enc l) : (xqcEncoderLookupNv l.hdr l.found).Below enc.dtable.insertCnt := by
  rcases lookupNv_cases l.hdr l.found with hr | ⟨both, i, hr, -⟩ | ⟨both, i, hr, hf⟩
  · rw [hr]; exact fun _ hidx => by cases hidx
  · rw [hr]; exact fun _ hidx => by cases hidx
  · rw [hr]
    intro idx hidx; cases hidx
    unfold Looked at h; rw [hf] at h
    cases both with
    | false | true =>
      obtain ⟨e, he, -⟩ := h
      exact (entryAt_some he).2.1

variable {ref : Ref}

lemma checkInsert_below {n : Nat} (h : ref.Below n) (blocked : Bool) :
    (xqcEncoderCheckInsert enc ref blocked).2.Below n := by
  unfold xqcEncoderCheckInsert; split
  · exact h
  split
  · exact h
  split
  · split
    · exact fun _ hidx => by cases hidx
    · exact h
  · exact h

lemma checkIndexMode_ref (enc : Encoder) (hdr : Header) (ref : Ref) (blocked : Bool) :
    (xqcEncoderCheckIndexMode enc hdr ref blocked).1 = (xqcEncoderCheckInsert enc ref blocked).2 := by
  unfold xqcEncoderCheckIndexMode xqcEncoderCheckNeverValueIndexMode xqcEncoderCheckNormalIndexMode
  rcases hc : xqcEncoderCheckInsert enc ref blocked with ⟨_ | _, ref'⟩
  · split <;> rfl
  · split <;> rfl

lemma insert_grown (h : enc.dtable.Ok) {ref' : Ref} (href : ref.Below enc.dtable.insertCnt) {ins : Insertion}
    {out : List EncIns} (hok : xqcEncoderInsert enc l ref ins = .ok (enc', ref', out)) :
    ∃ t, enc' = { enc with dtable := t } ∧ Grown enc.dtable t ∧ ref'.Below t.insertCnt := by
  unfold xqcEncoderInsert at hok
  rcases add_grown h l.hdr.name (if ins = .name then [] else l.hdr.value) with ⟨e, hadd⟩ | ⟨t, hadd, hgrown, hcnt, -⟩
  · rw [hadd] at hok; cases hok; exact ⟨_, rfl, .refl h, href⟩
  · rw [hadd] at hok
    dsimp only at hok; split at hok
    · cases hok
      refine ⟨t, rfl, hgrown, fun idx hidx => ?_⟩
      cases hidx
      omega
    · cases hok

lemma tryDuplicate_grown (h : enc.dtable.Ok) (l : Line) (both : Bool) (href : idx < enc.dtable.insertCnt) :
    ∃ t, (xqcEncoderTryDuplicate enc l both idx).1 = { enc with dtable := t } ∧ Grown enc.dtable t ∧
      (xqcEncoderTryDuplicate enc l both idx).2.1.Below t.insertCnt := by
  have hsame : (Ref.dtable both idx).Below enc.dtable.insertCnt := fun i hi => by
    cases hi; exact href
  unfold xqcEncoderTryDuplicate; split
  · rcases duplicate_grown h idx with ⟨e, hdup⟩ | ⟨t, hdup, hgrown, hcnt, -⟩
    · rw [hdup]; exact ⟨_, rfl, .refl h, hsame⟩
    · rw [hdup]
      dsimp only; split
      · refine ⟨t, rfl, hgrown, fun i hi => ?_⟩
        cases hi
        omega
      · refine ⟨t, rfl, hgrown, fun i hi => ?_⟩
        cases hi
        omega
  · exact ⟨_, rfl, .refl h, hsame⟩

/-- The references of a section are kept by the table. -/
structure Going (enc : Encoder) (fs : FieldSection) : Prop where
  ok : enc.dtable.Ok
  ref : enc.dtable.minRef = min enc.minUnack fs.minRef
  low : fs.minRef = lowest (fs.refs.map Nat.cast)
  below : ∀ idx ∈ fs.refs, idx < enc.dtable.insertCnt
  ric : fs.ric = 0 → fs.refs = []

/-- Only the table has changed, and it has lost no insertion. -/
def Kept (enc enc' : Encoder) : Prop :=
  enc' = { enc with dtable := enc'.dtable } ∧ enc.dtable.insertCnt ≤ enc'.dtable.insertCnt

lemma Kept.trans {enc'' : Encoder} (h1 : Kept enc enc') (h2 : Kept enc' enc'') : Kept enc enc'' := by
  refine ⟨?_, h1.2.trans h2.2⟩
  have h := h2.1
  rw [h1.1] at h; exact h

lemma Going.grown (h : Going enc fs) (hg : Grown enc.dtable t) : Going { enc with dtable := t } fs :=
  ⟨hg.ok, hg.minRef.trans h.ref, h.low, fun idx hidx => (h.below idx hidx).trans_le hg.insertCnt, h.ric⟩

lemma refs_append (fs : FieldSection) (info : Info) :
    FieldSection.refs { fs with infos := fs.infos ++ [info] } = fs.refs ++ info.ref.index.toList := by
  unfold FieldSection.refs
  cases h : info.ref.index with
  | none | some idx => simp [h]

lemma Going.noted (h : Going enc fs) {ric : Nat} {m : WithTop Nat} {infos : List Info}
    (hok : t.Ok) (hcnt : t.insertCnt = enc.dtable.insertCnt) (hidx : idx < enc.dtable.insertCnt)
    (hrefs : infos.filterMap (fun i => i.ref.index) = fs.refs ++ [idx]) (hm : m = min fs.minRef idx)
    (href : t.minRef = min enc.minUnack m) (hric : ric ≠ 0) :
    Going { enc with dtable := t } ⟨fs.base, ric, m, infos⟩ := by
  refine ⟨hok, href, ?_, fun i hi => ?_, fun hz => absurd hz hric⟩
  · show m = lowest ((infos.filterMap fun i => i.ref.index).map Nat.cast)
    rw [hrefs, map_append, lowest_append, ← h.low, hm]
    simp
  · have hi : i ∈ infos.filterMap fun i => i.ref.index := hi
    rw [hrefs] at hi
    rw [hcnt]
    rcases mem_append.mp hi with hi | hi
    · exact h.below i hi
    · rw [mem_singleton.mp hi]; exact hidx

lemma Going.literal (h : Going enc fs) {info : Info} (hnone : info.ref.index = none) :
    Going enc { fs with infos := fs.infos ++ [info] } := by
  have hrefs := refs_append fs info
  rw [hnone, Option.toList_none, append_nil] at hrefs
  refine ⟨h.ok, h.ref, ?_, ?_, ?_⟩
  · rw [hrefs]; exact h.low
  · rw [hrefs]; exact h.below
  · rw [hrefs]; exact h.ric

lemma noteRef_going (h : Going enc fs) {info : Info} (hb : info.ref.Below enc.dtable.insertCnt)
    (hnote : noteRef enc fs info = .ok (enc', fs')) : Going enc' fs' ∧ Kept enc enc' := by
  have hrefs := refs_append fs info
  unfold noteRef at hnote; split at hnote
  · rename_i both idx hr
    have hidx := hb idx (by rw [hr]; rfl)
    have hlist : (fs.infos ++ [info]).filterMap (fun i => i.ref.index) = fs.refs ++ [idx] := by
      rw [hr] at hrefs; exact hrefs
    have hric : (if fs.ric < idx + 1 then idx + 1 else fs.ric) ≠ 0 := by
      split <;> omega
    dsimp only at hnote; split at hnote
    · rename_i hlow
      have hmin : (idx : WithTop Nat) = min fs.minRef idx := (min_eq_right hlow.le).symm
      split at hnote
      · rename_i hlower
        rcases hset : xqcDtableSetMinRef enc.dtable idx with ⟨t, _ | _⟩
        · rw [hset] at hnote; cases hnote
        · rw [hset] at hnote; cases hnote
          obtain ⟨rfl, hok⟩ := setMinRef_spec h.ok hset
          exact ⟨h.noted hok rfl hidx hlist hmin (min_eq_right hlower.le).symm hric, rfl, le_rfl⟩
      · rename_i hhigh; cases hnote
        refine ⟨h.noted h.ok rfl hidx hlist hmin ?_ hric, rfl, le_rfl⟩
        have hle := not_lt.mp hhigh
        rw [h.ref, min_eq_left hle, min_eq_left (hle.trans hlow.le)]
    · rename_i hhigh; cases hnote
      have hmin : fs.minRef = min fs.minRef idx := (min_eq_left (not_lt.mp hhigh)).symm
      exact ⟨h.noted h.ok rfl hidx hlist hmin h.ref hric, rfl, le_rfl⟩
  · rename_i hr; cases hnote
    have hnone : info.ref.index = none := by
      cases hi : info.ref with
      | none | stable both idx => rfl
      | dtable both idx => exact absurd hi (hr both idx)
    exact ⟨h.literal hnone, rfl, le_rfl⟩

lemma changeTable_grown (h : enc.dtable.Ok) {ref' : Ref} (href : ref.Below enc.dtable.insertCnt) {ins : Insertion}
    {out : List EncIns} (hok : changeTable limited enc l ref ins = .ok (enc', ref', out)) :
    ∃ t, enc' = { enc with dtable := t } ∧ Grown enc.dtable t ∧ ref'.Below t.insertCnt := by
  unfold changeTable at hok; split at hok
  · exact insert_grown h href hok
  · split at hok
    · rename_i both idx
      split at hok
      · cases hok; exact ⟨_, rfl, .refl h, href⟩
      · obtain ⟨t, ht, hg, hb⟩ := tryDuplicate_grown h l both (href idx rfl)
        rw [Except.ok.inj hok] at ht hb; exact ⟨t, ht, hg, hb⟩
    · cases hok; exact ⟨_, rfl, .refl h, href⟩

lemma prepareLine_going (h : Going enc fs) (hl : Looked enc l) {out : List EncIns}
    (hprep : prepareLine limited enc fs l = .ok (enc', fs', out)) : Going enc' fs' ∧ Kept enc enc' := by
  unfold prepareLine at hprep; split at hprep
  · cases hprep; exact ⟨h.literal rfl, rfl, le_rfl⟩
  have hbelow : (xqcEncoderCheckIndexMode enc l.hdr (xqcEncoderLookupNv l.hdr l.found) limited).1.Below enc.dtable.insertCnt := by
    rw [checkIndexMode_ref]; exact checkInsert_below (lookupNv_below hl) limited
  rcases hmode : xqcEncoderCheckIndexMode enc l.hdr (xqcEncoderLookupNv l.hdr l.found) limited with ⟨ref, never, ins⟩
  dsimp only at hprep hbelow; split at hprep
  · cases hprep
  · rename_i e1 r1 o1 hchange
    obtain ⟨t, rfl, hg, hb⟩ := changeTable_grown h.ok hbelow hchange
    split at hprep
    · cases hprep
    · rename_i e2 f2 hnote; cases hprep
      obtain ⟨hgoing, hkept⟩ := noteRef_going (h.grown hg) hb hnote
      exact ⟨hgoing, Kept.trans ⟨rfl, hg.insertCnt⟩ hkept⟩

/-- The answers of the dynamic table are sound, each for the table it is made in. -/
def LooksUp (limited : Bool) : Encoder → FieldSection → List Line → Prop
  | _, _, [] => True
  | enc, fs, l :: ls =>
    Looked enc l ∧ ∀ enc' fs' out, prepareLine limited enc fs l = .ok (enc', fs', out) → LooksUp limited enc' fs' ls

lemma prepareLoop_going : ∀ (ls : List Line) {enc enc' : Encoder} {fs fs' : FieldSection} {out out' : List EncIns},
    Going enc fs → LooksUp limited enc fs ls → prepareLoop limited enc fs out ls = .ok (enc', fs', out') →
    Going enc' fs' ∧ Kept enc enc'
  | [], enc, enc', fs, fs', out, out', h, _, hprep => by
    cases hprep; exact ⟨h, rfl, le_rfl⟩
  | l :: ls, enc, enc', fs, fs', out, out', h, hl, hprep => by
    unfold prepareLoop at hprep; split at hprep
    · cases hprep
    · rename_i e1 f1 o1 hline
      obtain ⟨hgoing, hkept⟩ := prepareLine_going h hl.1 hline
      obtain ⟨hgoing', hkept'⟩ := prepareLoop_going ls hgoing (hl.2 _ _ _ hline) hprep
      exact ⟨hgoing', hkept.trans hkept'⟩

/-! ## Between the calls -/

structure Good (enc : Encoder) : Prop where
  ok : enc.dtable.Ok
  ref : enc.dtable.minRef = enc.minUnack
  low : enc.minUnack = lowest (enc.unack.map Section.minRep)
  sections : ∀ s ∈ enc.unack, s.minRep = lowest (s.refs.map Nat.cast) ∧ ∀ idx ∈ s.refs, idx < enc.dtable.insertCnt

/-- A section's references are in every table that grew from the encoder's and may refer lower. -/
lemma Good.inTable (h : Good enc) (hok : t.Ok) (href : t.minRef ≤ enc.minUnack)
    (hcnt : enc.dtable.insertCnt ≤ t.insertCnt) {s : Section} (hs : s ∈ enc.unack) (hidx : idx ∈ s.refs) :
    InTable t idx := by
  obtain ⟨hlow, hbelow⟩ := h.sections s hs
  have h1 : s.minRep ≤ idx := by
    rw [hlow]; exact lowest_le (mem_map_of_mem hidx)
  have h2 : enc.minUnack ≤ s.minRep := by
    rw [h.low]; exact lowest_le (mem_map_of_mem hs)
  exact inTable_of_ref hok (href.trans (h2.trans h1)) ((hbelow idx hidx).trans_le hcnt)

lemma Going.inTable (h : Going enc fs) (hidx : idx ∈ fs.refs) : InTable enc.dtable idx := by
  refine inTable_of_ref h.ok ?_ (h.below idx hidx)
  rw [h.ref, h.low]; exact (min_le_right _ _).trans (lowest_le (mem_map_of_mem hidx))

lemma Good.going (h : Good enc) : Going enc (xqcEncoderCreateFsInfo enc) :=
  ⟨h.ok, by rw [h.ref]; exact (min_top_right _).symm, rfl, fun _ hidx => (not_mem_nil hidx).elim, fun _ => rfl⟩

variable {streamId : Nat}

lemma Good.prepared (h : Good enc) {ls : List Line} {out : List EncIns}
    (hl : LooksUp (xqcEncoderCheckBlockStreamLimit enc streamId) enc (xqcEncoderCreateFsInfo enc) ls)
    (hprep : xqcEncoderPrepare enc streamId ls = .ok (enc', fs, out)) : Going enc' fs ∧ Kept enc enc' :=
  prepareLoop_going ls h.going hl hprep

lemma Going.saved (h : Going enc' fs) (hg : Good enc) (hk : Kept enc enc') (streamId : Nat) :
    Good (xqcEncoderSaveUnacked enc' streamId fs) := by
  have hunack : enc'.unack = enc.unack := by rw [hk.1]
  have hmin : enc'.minUnack = enc.minUnack := by rw [hk.1]
  have hold : ∀ s ∈ enc'.unack, s.minRep = lowest (s.refs.map Nat.cast) ∧ ∀ idx ∈ s.refs, idx < enc'.dtable.insertCnt := by
    intro s hs; rw [hunack] at hs
    obtain ⟨hlow, hbelow⟩ := hg.sections s hs
    exact ⟨hlow, fun idx hidx => (hbelow idx hidx).trans_le hk.2⟩
  unfold xqcEncoderSaveUnacked; split
  · have hnew : (if fs.minRef < enc'.minUnack then fs.minRef else enc'.minUnack) = min enc'.minUnack fs.minRef := by
      split
      · rename_i hlt; exact (min_eq_right hlt.le).symm
      · rename_i hge; exact (min_eq_left (not_lt.mp hge)).symm
    refine ⟨h.ok, h.ref.trans hnew.symm, ?_, fun s hs => ?_⟩
    · show (if _ then _ else _) = lowest ((enc'.unack ++ [_]).map Section.minRep)
      rw [hnew, map_append, lowest_append, hunack, hmin, hg.low]
      simp
    · rcases mem_append.mp hs with hs | hs
      · exact hold s hs
      · obtain rfl := mem_singleton.mp hs
        exact ⟨h.low, h.below⟩
  · rename_i hzero
    have hempty := h.ric (not_not.mp hzero)
    refine ⟨h.ok, ?_, ?_, hold⟩
    · rw [h.ref, h.low, hempty]; exact min_top_right _
    · rw [hunack, hmin]; exact hg.low

lemma Good.frame (h : Good enc) (hd : enc'.dtable = enc.dtable) (hu : enc'.unack = enc.unack)
    (hm : enc'.minUnack = enc.minUnack) : Good enc' :=
  ⟨by rw [hd]; exact h.ok, by rw [hd, hm]; exact h.ref, by rw [hm, hu]; exact h.low, by rw [hd, hu]; exact h.sections⟩

lemma Good.dropped (h : Good enc) {unack : List Section} (hsub : ∀ s ∈ unack, s ∈ enc.unack)
    (hset : xqcDtableSetMinRef enc.dtable (minLoop ⊤ unack) = (t, .ok ())) :
    Good { enc with dtable := t, unack := unack, minUnack := minLoop ⊤ unack } := by
  obtain ⟨rfl, hok⟩ := setMinRef_spec h.ok hset
  refine ⟨hok, rfl, ?_, fun s hs => h.sections s (hsub s hs)⟩
  rw [minLoop_eq]; exact min_top_left _

/-! ## Runs -/

inductive Ev where
  | encHeaders (streamId : Nat) (ls : List Line)
  | sectionAck (streamId : Nat)
  | cancelStream (streamId : Nat)
  | increaseKnownRcvdCount (increment : Nat)
  | setDtableCap (cap : Nat) (resized : Bool) (nameLenLimit entrySizeLimit : Nat)
  | setMaxDtableCap (maxCap : Nat)
  | setMaxBlockedStream (n : Nat)

def step (enc : Encoder) (ev : Ev) (enc' : Encoder) : Prop :=
  match ev with
  | .encHeaders streamId ls =>
    LooksUp (xqcEncoderCheckBlockStreamLimit enc streamId) enc (xqcEncoderCreateFsInfo enc) ls ∧
      ∃ efs ins, xqcEncoderEncHeaders enc streamId ls = .ok (enc', efs, ins)
  | .sectionAck streamId => xqcEncoderSectionAck enc streamId = .ok enc'
  | .cancelStream streamId => xqcEncoderCancelStream enc streamId = .ok enc'
  | .increaseKnownRcvdCount n => xqcEncoderIncreaseKnownRcvdCount enc n = .ok enc'
  | .setDtableCap cap resized nl el => xqcEncoderSetDtableCap enc cap resized nl el = .ok enc'
  | .setMaxDtableCap maxCap => xqcEncoderSetMaxDtableCap enc maxCap = some enc'
  | .setMaxBlockedStream n => xqcEncoderSetMaxBlockedStream enc n = enc'

lemma encHeaders_good (h : Good enc) {ls : List Line} {efs : Option Efs} {ins : List EncIns}
    (hl : LooksUp (xqcEncoderCheckBlockStreamLimit enc streamId) enc (xqcEncoderCreateFsInfo enc) ls)
    (henc : xqcEncoderEncHeaders enc streamId ls = .ok (enc', efs, ins)) : Good enc' := by
  unfold xqcEncoderEncHeaders at henc; split at henc
  · cases henc; exact h
  · split at henc
    · cases henc
    · rename_i e1 fs1 o1 hprep; cases henc
      obtain ⟨hgoing, hkept⟩ := h.prepared hl hprep
      have hsaved := hgoing.saved h hkept streamId
      split
      · unfold xqcEncoderAddBlockedStream
        split <;> exact hsaved.frame rfl rfl rfl
      · exact hsaved

lemma sectionAck_good (h : Good enc) (hack : xqcEncoderSectionAck enc streamId = .ok enc') : Good enc' := by
  unfold xqcEncoderSectionAck at hack; split at hack
  · cases hack
  · rename_i acked hfound
    dsimp only at hack
    have hsub : ∀ s ∈ enc.unack.eraseP (fun s => s.streamId = streamId), s ∈ enc.unack := fun s hs => mem_of_mem_eraseP hs
    split at hack
    · cases hack
    · rename_i t hset; cases hack
      have hdropped := h.dropped hsub hset
      split
      · exact hdropped.frame rfl rfl rfl
      · exact hdropped

lemma cancelStream_good (h : Good enc) (hcancel : xqcEncoderCancelStream enc streamId = .ok enc') : Good enc' := by
  unfold xqcEncoderCancelStream at hcancel
  dsimp only at hcancel; split at hcancel
  · cases hcancel
  · rename_i t hset; cases hcancel
    exact (h.dropped (fun s hs => mem_of_mem_filter hs) hset).frame rfl rfl rfl

lemma step_good (h : Good enc) {ev : Ev} (hs : step enc ev enc') : Good enc' := by
  cases ev with
  | encHeaders streamId ls =>
    obtain ⟨hl, efs, ins, henc⟩ := hs
    exact encHeaders_good h hl henc
  | sectionAck streamId => exact sectionAck_good h hs
  | cancelStream streamId => exact cancelStream_good h hs
  | increaseKnownRcvdCount n =>
    have hs : xqcEncoderIncreaseKnownRcvdCount enc n = .ok enc' := hs
    unfold xqcEncoderIncreaseKnownRcvdCount at hs; split at hs
    · cases hs
    split at hs
    · cases hs
    · cases hs; exact h.frame rfl rfl rfl
  | setDtableCap cap resized nl el =>
    have hs : xqcEncoderSetDtableCap enc cap resized nl el = .ok enc' := hs
    unfold xqcEncoderSetDtableCap at hs; split at hs
    · cases hs
    · rename_i t hset; cases hs
      obtain ⟨hok, href, hcnt, -⟩ := setCapacity_spec h.ok hset
      exact ⟨hok, href.trans h.ref, h.low, fun s hmem => by rw [hcnt]; exact h.sections s hmem⟩
  | setMaxDtableCap maxCap =>
    have hs : xqcEncoderSetMaxDtableCap enc maxCap = some enc' := hs
    unfold xqcEncoderSetMaxDtableCap at hs; split at hs
    · cases hs
    · cases hs; exact h.frame rfl rfl rfl
  | setMaxBlockedStream n => subst hs; exact h.frame rfl rfl rfl

lemma create_good : Good xqcEncoderCreate :=
  ⟨create_ok, rfl, rfl, fun _ hs => (not_mem_nil hs).elim⟩

/-- In every state that calls with success reach, the encoder's bound is the lowest reference
    of the sections that are not acknowledged, and what these refer to is in the table; and
    while a section is encoded that stays so after each of its lines, for what the lines
    before refer to as well. -/
theorem referenced_entries_stay (evs : List Ev) (enc : Encoder) (h : Run step xqcEncoderCreate evs enc) :
    enc.minUnack = lowest (enc.unack.map Section.minRep) ∧
      (∀ s ∈ enc.unack, ∀ idx ∈ s.refs, InTable enc.dtable idx) ∧
      ∀ streamId ls enc' fs ins,
        LooksUp (xqcEncoderCheckBlockStreamLimit enc streamId) enc (xqcEncoderCreateFsInfo enc) ls →
        xqcEncoderPrepare enc streamId ls = .ok (enc', fs, ins) →
        (∀ idx ∈ fs.refs, InTable enc'.dtable idx) ∧ ∀ s ∈ enc'.unack, ∀ idx ∈ s.refs, InTable enc'.dtable idx := by
  have hgood : Good enc := h.inv (P := Good) (fun _ _ _ hg hs => step_good hg hs) create_good
  refine ⟨hgood.low, fun s hs idx hidx => hgood.inTable hgood.ok hgood.ref.le le_rfl hs hidx, ?_⟩
  intro streamId ls enc' fs ins hl hprep
  obtain ⟨hgoing, hkept⟩ := hgood.prepared hl hprep
  refine ⟨fun idx hidx => hgoing.inTable hidx, fun s hs idx hidx => ?_⟩
  have hmin : enc'.minUnack = enc.minUnack := by rw [hkept.1]
  have hunack : enc'.unack = enc.unack := by rw [hkept.1]
  refine hgood.inTable hgoing.ok ?_ hkept.2 (hunack ▸ hs) hidx
  rw [hgoing.ref, hmin]; exact min_le_left _ _

/-! ### One section with one line -/

def oneLine : Line := ⟨⟨[120], [49], false, false⟩, (.none, 0), true⟩

def configured : Encoder :=
  { xqcEncoderCreate with
    dtable := { xqcDtableCreate with capacity := 4096 }
    maxEntries := 128, maxBlockedStream := 16, nameLenLimit := 256, entrySizeLimit := 3072 }

def sentOne : Encoder :=
  { configured with
    dtable := ⟨[⟨[120], [49], 0⟩], 0, 4096, 34, 34, 0⟩
    unack := [⟨0, 0, 1, [0]⟩], minUnack := 0, blockedStreamCount := 1, blocked := [⟨0, 1⟩] }

theorem one_section_keeps_its_entry : sentOne.minUnack = 0 ∧ InTable sentOne.dtable 0 := by
  have hset : Run step xqcEncoderCreate [.setMaxDtableCap 4096, .setMaxBlockedStream 16, .setDtableCap 4096 true 256 3072]
      configured := ((Run.nil.snoc rfl).snoc rfl).snoc (show _ = Except.ok configured by decide)
  have henc : step configured (.encHeaders 0 [oneLine]) sentOne := ⟨⟨trivial, fun _ _ _ _ => trivial⟩,
    some ⟨1, 0, [.indexedPb 0]⟩, [.insertLiteral [120] [49]], by decide +kernel⟩
  have hrun := hset.snoc henc
  obtain ⟨hlow, hrefs, -⟩ := referenced_entries_stay _ _ hrun
  exact ⟨hlow.trans (by decide), hrefs ⟨0, 0, 1, [0]⟩ (by decide) 0 (by decide)⟩

end RlccQuic.Http3.Encode
