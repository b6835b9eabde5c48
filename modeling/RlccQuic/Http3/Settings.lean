/-
  RlccQuic.Http3.Settings — the payload of a SETTINGS frame (`frame/xqc_h3_frame.c`).

  An integer is read with the parser of `RlccQuic.Common.Vint`, which may stop inside it and tells so by `fin`, which
  nobody looks at. Whether the connection takes an entry is a parameter, and may depend on the entries before it.

  Proved: only concatenations of complete pairs are accepted, and nothing but complete pairs is handed on, exactly if the
  payload is such a concatenation or one of the pairs in front is refused (`settings_are_checked_iff`).
-/

import RlccQuic.Common.Vint

namespace RlccQuic.Http3.Settings

open Common.Vint List

abbrev Entry := Nat × Nat

/-- An integer, what is behind it, and `fin`; the loop clears the context before. -/
def readInt (data : List UInt8) : Nat × List UInt8 × Bool :=
  let r := xqcDiscreteVintParse xqcDiscreteIntPctxClear data
  (r.1.vi, data.drop r.2.1, r.2.2)

/-- An identifier and a value, what is behind them, and whether both are complete. -/
def readEntry (data : List UInt8) : Entry × List UInt8 × Bool :=
  let identifier := readInt data
  let value := readInt identifier.2.1
  ((identifier.1, value.1), value.2.1, identifier.2.2 && value.2.2)

variable (takes : List Entry → Bool)

/-- The loop, with the calls of `xqc_h3_conn_on_settings_entry_received`. -/
def parseLoop : Nat → List Entry → List UInt8 → Bool × List Entry
  | fuel + 1, called, b :: bs =>
    let e := readEntry (b :: bs)
    if takes (called ++ [e.1]) then parseLoop fuel (called ++ [e.1]) e.2.1 else (false, called ++ [e.1])
  | _, called, _ => (true, called)

def xqcH3FrmParseSetting (data : List UInt8) : Bool × List Entry := parseLoop takes data.length [] data

/-! ## What is in a payload -/

/-- A concatenation of pairs of integers as they are written. -/
inductive Pairs : List UInt8 → List Entry → Prop
  | nil : Pairs [] []
  | cons {n v : Nat} {bn bv data : List UInt8} {es : List Entry} :
    Encodes n bn → Encodes v bv → Pairs data es → Pairs (bn ++ bv ++ data) ((n, v) :: es)

/-- The complete entries, and whether nothing is behind them. -/
def entriesLoop : Nat → List UInt8 → List Entry × Bool
  | fuel + 1, b :: bs =>
    let e := readEntry (b :: bs)
    if e.2.2 then (e.1 :: (entriesLoop fuel e.2.1).1, (entriesLoop fuel e.2.1).2) else ([], false)
  | _, data => ([], data.isEmpty)

/-- The entries the connection is asked for, and whether it takes them all. -/
def answers : List Entry → List Entry → Bool × List Entry
  | called, [] => (true, called)
  | called, e :: es => if takes (called ++ [e]) then answers (called ++ [e]) es else (false, called ++ [e])

lemma answers_asked (es called : List Entry) : (answers takes called es).2 <+: called ++ es ∧
    ((answers takes called es).1 = true → (answers takes called es).2 = called ++ es) := by
  induction es generalizing called with
  | nil => simp [answers]
  | cons e es ih =>
    have hih := ih (called ++ [e])
    rw [append_assoc] at hih
    unfold answers; split
    · exact hih
    · exact ⟨⟨es, by simp⟩, nofun⟩

lemma answers_append (es more called : List Entry) (h : (answers takes called (es ++ more)).1 = true) :
    (answers takes called es).1 = true := by
  induction es generalizing called with
  | nil => rfl
  | cons e es ih =>
    rw [cons_append, answers] at h; rw [answers]
    split at h
    · rename_i htakes; rw [if_pos htakes]; exact ih _ h
    · cases h

/-! ### Integers -/

variable {data bs : List UInt8} {n : Nat}

lemma readInt_encodes (h : Encodes n bs) (more : List UInt8) : readInt (bs ++ more) = (n, more, true) := by
  have hread := h.read more
  have hpos := (encodes_of_read hread).2.1
  have hne : bs ++ more ≠ [] := by intro h0; rw [(append_eq_nil_iff.mp h0).1] at hpos; cases hpos
  obtain ⟨left, hparse⟩ := (parse_eq_iff hne).mp hread
  rw [readInt, hparse]; dsimp only; rw [drop_left]

lemma readInt_fin (h : (readInt data).2.2 = true) :
    ∃ bs, Encodes (readInt data).1 bs ∧ data = bs ++ (readInt data).2.1 := by
  have hne : data ≠ [] := by rintro rfl; cases h
  have hread := (parse_eq_iff hne).mpr ⟨(xqcDiscreteVintParse xqcDiscreteIntPctxClear data).1.left, Prod.ext rfl (Prod.ext rfl h)⟩
  exact ⟨_, (encodes_of_read hread).2.2, (take_append_drop _ _).symm⟩

lemma readInt_cut (h : (readInt data).2.2 = false) : (readInt data).2.1 = [] := by
  cases data with
  | nil => rfl
  | cons b bs =>
    rw [readInt, xqcDiscreteVintParse, xqcDiscreteIntPctxClear, if_pos rfl, parseRest] at h ⊢
    simp only [decide_eq_false_iff_not] at h
    dsimp only
    rw [drop_eq_nil_iff, length_cons]; omega

lemma readInt_rest (data : List UInt8) : (readInt data).2.1.length ≤ data.length - 1 := by
  cases data with
  | nil => exact Nat.le_refl 0
  | cons b bs =>
    rw [readInt, xqcDiscreteVintParse, xqcDiscreteIntPctxClear, if_pos rfl, parseRest]
    simp only [length_drop, length_cons]; omega

/-! ### Entries -/

lemma readEntry_rest {b : UInt8} {fuel : Nat} (hlen : (b :: bs).length ≤ fuel + 1) :
    (readEntry (b :: bs)).2.1.length ≤ fuel := by
  have h1 := readInt_rest (b :: bs)
  have h2 : (readEntry (b :: bs)).2.1.length ≤ _ := readInt_rest (readInt (b :: bs)).2.1
  omega

lemma readEntry_cut (h : (readEntry data).2.2 = false) : (readEntry data).2.1 = [] := by
  rcases Bool.and_eq_false_iff.mp h with hid | hval
  · show (readInt (readInt data).2.1).2.1 = []; rw [readInt_cut hid]; rfl
  · exact readInt_cut hval

lemma Pairs.take {es : List Entry} (h : Pairs data es) : ∀ {es'}, es' <+: es → ∃ whole, whole <+: data ∧ Pairs whole es' := by
  induction h with
  | nil => intro es' h; rw [prefix_nil.mp h]; exact ⟨[], prefix_rfl, .nil⟩
  | @cons n v bn bv data es hn hv _ ih =>
    intro es' h
    cases es' with
    | nil => exact ⟨[], nil_prefix, .nil⟩
    | cons e es' =>
      obtain ⟨rfl, hes⟩ := cons_prefix_cons.mp h
      obtain ⟨whole, hwhole, hp⟩ := ih hes
      exact ⟨_, (prefix_append_right_inj _).mpr hwhole, .cons hn hv hp⟩

lemma entriesLoop_pairs (fuel : Nat) : ∀ data : List UInt8, ∃ whole rest, data = whole ++ rest ∧
    Pairs whole (entriesLoop fuel data).1 ∧ ((entriesLoop fuel data).2 = true → rest = []) := by
  induction fuel with
  | zero => exact fun data => ⟨[], data, rfl, .nil, by cases data <;> simp [entriesLoop]⟩
  | succ fuel ih =>
    intro data
    cases data with
    | nil => exact ⟨[], [], rfl, .nil, fun _ => rfl⟩
    | cons b bs =>
      unfold entriesLoop; dsimp only
      by_cases hfin : (readEntry (b :: bs)).2.2 = true
      · rw [if_pos hfin]
        obtain ⟨hid, hval⟩ := Bool.and_eq_true_iff.mp hfin
        obtain ⟨bn, hn, hbn⟩ := readInt_fin hid
        obtain ⟨bv, hv, hbv⟩ := readInt_fin hval
        obtain ⟨whole, rest, hrest, hp, hend⟩ := ih (readEntry (b :: bs)).2.1
        refine ⟨bn ++ bv ++ whole, rest, ?_, .cons hn hv hp, hend⟩
        rw [append_assoc, ← hrest, append_assoc]
        exact hbn.trans (congrArg _ hbv)
      · rw [if_neg hfin]; exact ⟨[], b :: bs, rfl, .nil, nofun⟩

lemma entriesLoop_of_pairs {es : List Entry} (h : Pairs data es) : ∀ {fuel : Nat} (rest : List UInt8),
    (data ++ rest).length ≤ fuel → es <+: (entriesLoop fuel (data ++ rest)).1 ∧
      (rest = [] → entriesLoop fuel (data ++ rest) = (es, true)) := by
  induction h with
  | nil => intro fuel rest _; exact ⟨by simp, fun hr => by rw [hr]; cases fuel <;> rfl⟩
  | @cons n v bn bv data es hn hv _ ih =>
    intro fuel rest hlen
    have hentry : readEntry (bn ++ bv ++ data ++ rest) = ((n, v), data ++ rest, true) := by
      rw [readEntry, append_assoc, append_assoc, readInt_encodes hn]; dsimp only
      rw [readInt_encodes hv]; rfl
    have hne : 0 < bn.length := (encodes_of_read (hn.read [])).2.1
    obtain ⟨b, bs, hcons⟩ : ∃ b bs, bn ++ bv ++ data ++ rest = b :: bs :=
      exists_cons_of_length_pos (by simp only [length_append]; omega)
    cases fuel with
    | zero => simp only [length_append] at hlen; omega
    | succ fuel =>
      have hrest := readEntry_rest (hcons ▸ hlen)
      rw [← hcons, hentry] at hrest
      obtain ⟨hpre, hwhole⟩ := ih rest hrest
      rw [hcons] at hentry ⊢
      unfold entriesLoop; rw [hentry]
      exact ⟨cons_prefix_cons.mpr ⟨rfl, hpre⟩, fun hr => by rw [if_pos rfl, hwhole hr]⟩

/-- The loop asks for the complete entries, and if all are taken for the cut one. -/
lemma parseLoop_eq (fuel : Nat) : ∀ {data : List UInt8} (called : List Entry), data.length ≤ fuel →
    ((entriesLoop fuel data).2 = true ∨ (answers takes called (entriesLoop fuel data).1).1 = false →
      parseLoop takes fuel called data = answers takes called (entriesLoop fuel data).1) ∧
    ((entriesLoop fuel data).2 = false → (answers takes called (entriesLoop fuel data).1).1 = true →
      ∃ e, (parseLoop takes fuel called data).2 = called ++ (entriesLoop fuel data).1 ++ [e]) := by
  induction fuel with
  | zero =>
    intro data called hlen
    obtain rfl := eq_nil_of_length_eq_zero (Nat.le_zero.mp hlen)
    exact ⟨fun _ => rfl, nofun⟩
  | succ fuel ih =>
    intro data called hlen
    cases data with
    | nil => exact ⟨fun _ => rfl, nofun⟩
    | cons b bs =>
      obtain ⟨hasked, hcut⟩ := ih (called ++ [(readEntry (b :: bs)).1]) (readEntry_rest hlen)
      rw [append_assoc called] at hcut
      unfold parseLoop entriesLoop
      dsimp only
      by_cases hfin : (readEntry (b :: bs)).2.2 = true
      · rw [if_pos hfin, answers]; split
        · exact ⟨hasked, hcut⟩
        · exact ⟨fun _ => rfl, fun _ h => by cases h⟩
      · rw [if_neg hfin]
        refine ⟨by simp [answers], fun _ _ => ⟨(readEntry (b :: bs)).1, ?_⟩⟩
        rw [readEntry_cut (by simpa using hfin), append_nil]; split
        · cases fuel <;> rfl
        · rfl

/-- Success means that the payload consists of the pairs handed on; a payload that ends inside a pair is rejected, and
    only pairs in front of that were handed on. -/
structure Right (data : List UInt8) : Prop where
  accepted : (xqcH3FrmParseSetting takes data).1 = true → Pairs data (xqcH3FrmParseSetting takes data).2
  cut : (∀ es, ¬Pairs data es) → (xqcH3FrmParseSetting takes data).1 = false ∧
    ∃ whole, whole <+: data ∧ Pairs whole (xqcH3FrmParseSetting takes data).2

theorem settings_are_checked_iff (data : List UInt8) : Right takes data ↔
    (∃ es, Pairs data es) ∨ ∃ whole es, whole <+: data ∧ Pairs whole es ∧ (answers takes [] es).1 = false := by
  obtain ⟨whole, rest, hdata, hpairs, hend⟩ := entriesLoop_pairs data.length data
  obtain ⟨hloop, hcut⟩ := parseLoop_eq takes data.length [] (Nat.le_refl data.length)
  obtain ⟨hasked, hall⟩ := answers_asked takes (entriesLoop data.length data).1 []
  have hfront : whole <+: data := ⟨rest, hdata.symm⟩
  have hpre : ∀ {w es}, w <+: data → Pairs w es → es <+: (entriesLoop data.length data).1 := by
    rintro w es ⟨r, rfl⟩ hp; exact (entriesLoop_of_pairs hp r (Nat.le_refl _)).1
  have hwhole : (∃ es, Pairs data es) ↔ (entriesLoop data.length data).2 = true := by
    constructor
    · rintro ⟨es, hp⟩
      have h := (entriesLoop_of_pairs hp [] (Nat.le_of_eq (by rw [append_nil]))).2 rfl
      rw [append_nil] at h; rw [h]
    · intro h
      rw [hend h, append_nil] at hdata
      rw [← hdata] at hpairs; exact ⟨_, hpairs⟩
  constructor
  · intro h
    by_contra hnot
    obtain ⟨hno, htaken⟩ := not_or.mp hnot
    have hfalse : (entriesLoop data.length data).2 = false := by simpa using fun h => hno (hwhole.mpr h)
    have htrue : (answers takes [] (entriesLoop data.length data).1).1 = true := by
      by_contra hr; exact htaken ⟨_, _, hfront, hpairs, by simpa using hr⟩
    -- the cut pair was handed on behind all complete ones
    obtain ⟨e, he⟩ := hcut hfalse htrue
    obtain ⟨-, w, hw, hp⟩ := h.cut (not_exists.mp hno)
    have hle := (hpre hw hp).length_le
    rw [xqcH3FrmParseSetting, he, length_append] at hle
    exact Nat.not_succ_le_self _ hle
  · intro h
    have hold : (entriesLoop data.length data).2 = true ∨ (answers takes [] (entriesLoop data.length data).1).1 = false := by
      refine h.imp hwhole.mp ?_
      rintro ⟨w, es, hw, hp, hrefused⟩
      obtain ⟨more, hmore⟩ := hpre hw hp
      by_contra hr
      rw [answers_append takes es more [] (by rw [hmore]; simpa using hr)] at hrefused; cases hrefused
    have heq : xqcH3FrmParseSetting takes data = answers takes [] (entriesLoop data.length data).1 := hloop hold
    rw [← heq] at hasked hall hold
    refine ⟨fun hok => ?_, fun hno => ⟨?_, ?_⟩⟩
    · have h := hold.resolve_right (by simp [hok])
      rw [hend h, append_nil] at hdata
      rw [← hdata] at hpairs; rw [hall hok]; exact hpairs
    · exact hold.resolve_left fun h => (not_exists.mpr hno) (hwhole.mpr h)
    · obtain ⟨w, hw, hp⟩ := hpairs.take hasked
      exact ⟨w, hw.trans hfront, hp⟩

/-- An identifier without a value is handed on with the value 0, and accepted. -/
theorem half_an_entry_is_accepted :
    (∀ es, ¬Pairs [0x06] es) ∧ xqcH3FrmParseSetting (fun _ => true) [0x06] = (true, [(6, 0)]) := by
  refine ⟨fun es h => ?_, by decide⟩
  have hread := (entriesLoop_of_pairs h [] (Nat.le_refl _)).2 rfl
  rw [append_nil, show entriesLoop _ _ = ([], false) by decide] at hread; cases hread

end RlccQuic.Http3.Settings
