/-
  RlccQuic.Http3.SectionRead — a field section decoded piece by piece.

  `Reads` says what the decoder's context and the bytes still to come stand for: with both the rest of the section is
  known, however it was cut so far and however often it waited. Only the required insert count is read with the help of
  the decoder's insert count, so it is the one thing that has to be near at the time it is read.

  Proved: a section's bytes as the encoder writes them are such bytes (`reads_written`),
  and decoding any piece of them leaves the rest (`decHeaderLoop_reads`).
-/

import RlccQuic.Http3.Sync

namespace RlccQuic.Http3.SectionRead

open Lib Prefixed RepCodec Decode Sync List
open DynTable (Table)
open Encode (FieldSection Info Efs repOf xqcEncoderWriteEfs)

variable {H : Huffman} {fs : FieldSection} {maxEnts ric : Nat}

/-! ## The bytes of a section -/

def writeEfs (H : Huffman) (maxEnts : Nat) (efs : Efs) : List UInt8 :=
  xqcRepWritePrefix maxEnts efs.ric efs.base ++ efs.reps.flatMap (writeRep H)

def efsLines (H : Huffman) (fs : FieldSection) : List UInt8 := (fs.infos.map (repOf fs.base)).flatMap (writeRep H)

/-! ## What is still to be read -/

/-- The context and the bytes to come are the rest of the section, and `out` are the headers before it. -/
def Reads (maxEnts : Nat) (fs : FieldSection) : RepCtx H → List Field → List UInt8 → Prop
  | .start (.ricnt p), out, todo =>
    out = [] ∧ feed intByte p todo =
      some (.inr (xqcRepEncodeRicnt maxEnts fs.ric), writeBase fs.ric fs.base ++ efsLines H fs)
  | .start p, out, todo =>
    out = [] ∧ p.known = some fs.ric ∧
      feed (prefixByte 0 0) p todo = some (.inr (fs.ric, fs.base), efsLines H fs)
  | .line ric base l, out, todo =>
    ric = fs.ric ∧ base = fs.base ∧ ∃ seen rest, fs.infos = seen ++ rest ∧ out = seen.map Info.field ∧
      items fieldLineByte .opcode l todo = some (.opcode, rest.map (repOf fs.base))

structure Fits (maxEnts : Nat) (fs : FieldSection) : Prop where
  ents : 2 * maxEnts ≤ intMax
  base : fs.base ≤ intMax
  ric : fs.ric ≤ intMax
  reps : ∀ i ∈ fs.infos, RepFits (repOf fs.base i)

lemma lines_items (hinv : H.Inverts) (hfits : ∀ i ∈ fs.infos, RepFits (repOf fs.base i)) :
    items (fieldLineByte (H := H)) .opcode .opcode (efsLines H fs) = some (.opcode, fs.infos.map (repOf fs.base)) := by
  refine items_flatMap fun r hr => ?_
  obtain ⟨i, hi, rfl⟩ := mem_map.mp hr
  exact rep_round hinv (hfits i hi)

lemma encodeRicnt_le (h : 2 * maxEnts ≤ intMax) (hric : ric ≠ 0 → maxEnts ≠ 0) :
    xqcRepEncodeRicnt maxEnts ric ≤ intMax := by
  unfold xqcRepEncodeRicnt; split
  · exact zero_le
  · rename_i hne; have := Nat.mod_lt ric (by have := hric hne; omega : 0 < 2 * maxEnts); omega

lemma ricnt_round (h : 2 * maxEnts ≤ intMax) (hric : ric ≠ 0 → maxEnts ≠ 0) :
    feed intByte (xqcPrefixedIntInit 0) (xqcPrefixedIntPut 0 (xqcRepEncodeRicnt maxEnts ric) 8) =
      some (.inr (xqcRepEncodeRicnt maxEnts ric), []) :=
  int_round (by decide) (by decide : 1 ≤ 8 ∧ 8 ≤ 8) (encodeRicnt_le h hric)

theorem reads_written (hfits : Fits maxEnts fs) (hric : fs.ric ≠ 0 → maxEnts ≠ 0) :
    Reads (H := H) maxEnts fs (xqcRepCtxClear H) [] (writeEfs H maxEnts (xqcEncoderWriteEfs fs)) := by
  refine ⟨rfl, ?_⟩
  show feed _ _ (xqcPrefixedIntPut 0 (xqcRepEncodeRicnt maxEnts fs.ric) 8 ++ writeBase fs.ric fs.base ++ efsLines H fs) = _
  rw [append_assoc, feed_append, ricnt_round hfits.ents hric]; rfl

/-! ## Decoding a piece -/

/-- While the required insert count is read, the reader of the prefix is that of an integer. -/
lemma feed_ricnt (maxEnts icnt : Nat) (data : List UInt8) : ∀ p, feed (prefixByte maxEnts icnt) (.ricnt p) data =
    match feed intByte p data with
    | none => none
    | some (.inl p', _) => some (.inl (.ricnt p'), [])
    | some (.inr enc, rest) =>
      match xqcRepReconstructRic maxEnts icnt enc with
      | none => none
      | some ric => feed (prefixByte maxEnts icnt) (.baseSign ric) rest := by
  induction data with
  | nil => exact fun p => rfl
  | cons b bs ih =>
    intro p; rw [feed, feed, prefixByte]
    cases intByte p b with
    | none => rfl
    | some r =>
      cases r with
      | inl p' => exact ih p'
      | inr enc =>
        dsimp only
        cases xqcRepReconstructRic maxEnts icnt enc <;> rfl

lemma saveLine_fold {t : Table} {base : Nat} (is : List Info) :
    ∀ {out : List Field}, (∀ i ∈ is, xqcDecoderSaveHdr t base (repOf base i) = some (Info.field i)) →
      (is.map (repOf base)).foldlM (saveLine t base) out = some (out ++ is.map Info.field) := by
  induction is with
  | nil => simp
  | cons i is ih =>
    intro out h; rw [map_cons, foldlM_cons, saveLine, h i mem_cons_self]
    show (is.map (repOf base)).foldlM (saveLine t base) (out ++ [Info.field i]) = _
    rw [ih fun j hj => h j (mem_cons_of_mem _ hj), append_assoc]; rfl

lemma Reads.nil {ctx : RepCtx H} {out : List Field} (h : Reads maxEnts fs ctx out []) :
    xqcRepGetRic ctx = fs.ric ∧ out = fs.infos.map Info.field := by
  match ctx, h with
  | .start (.ricnt p), h => cases h.2
  | .start (.baseSign ric), h => cases h.2.2
  | .start (.base ric sign p), h => cases h.2.2
  | .line ric base l, h =>
    obtain ⟨hric, -, seen, rest, hinfos, hout, hitems⟩ := h
    have hrest : rest.map (repOf fs.base) = [] := (congrArg Prod.snd (Option.some.inj hitems)).symm
    rw [map_eq_nil_iff] at hrest
    rw [hrest, append_nil] at hinfos; exact ⟨hric, by rw [hout, hinfos]⟩

variable {dec : Decoder} {ctx : RepCtx H} {out : List Field} {data more : List UInt8}

def Saves (t : Table) (fs : FieldSection) : Prop :=
  ∀ i ∈ fs.infos, xqcDecoderSaveHdr t fs.base (repOf fs.base i) = some (Info.field i)

/-- What decoding a piece leaves when `more` is still to come. -/
structure Left (maxEnts : Nat) (fs : FieldSection) (insertCnt : Nat) (more : List UInt8) (d : Decoded H) : Prop where
  reads : Reads maxEnts fs d.ctx d.hdrs (d.rest ++ more)
  blocked : d.blocked = true → insertCnt < fs.ric
  rest : d.blocked = false → d.rest = []
  done : d.rest ++ more = [] → fs.ric ≤ insertCnt

lemma decLines_reads {t : Table} {l : LineCtx H} (hsave : fs.ric ≤ t.insertCnt → Saves t fs)
    (hdata : data ++ more ≠ [])
    (h : Reads maxEnts fs (.line fs.ric fs.base l) out (data ++ more)) :
    ∃ d, decLines t fs.ric fs.base l out data = some d ∧ Left maxEnts fs t.insertCnt more d := by
  unfold decLines; split
  · rename_i hwaits
    have hlt : t.insertCnt < fs.ric := by simpa [waits, xqcRepGetRic] using hwaits
    exact ⟨_, rfl, h, fun _ => hlt, nofun, fun hnil => absurd hnil hdata⟩
  · rename_i hgoes
    have hle : fs.ric ≤ t.insertCnt := by simpa [waits, xqcRepGetRic] using hgoes
    obtain ⟨-, -, seen, rest, hinfos, hout, hitems⟩ := h
    -- the lines that are complete, and those to come
    obtain ⟨l', rs, rs', hone, hmore, hsum⟩ := items_split hitems
    obtain ⟨rest₁, rest₂, hrest, hmap₁, hmap₂⟩ := map_eq_append_iff.mp hsum
    have hsaves : ∀ i ∈ rest₁, xqcDecoderSaveHdr t fs.base (repOf fs.base i) = some (Info.field i) := fun i hi =>
      hsave hle i (by rw [hinfos, hrest]; exact mem_append_right _ (mem_append_left _ hi))
    rw [process_eq, hone, Option.bind_some, ← hmap₁, saveLine_fold rest₁ hsaves]
    refine ⟨_, rfl, ⟨rfl, rfl, seen ++ rest₁, rest₂, ?_, ?_, ?_⟩, nofun, fun _ => rfl, fun _ => hle⟩
    · rw [hinfos, hrest, append_assoc]
    · rw [hout, map_append]
    · rw [hmap₂]; exact hmore

lemma lines_ne_nil (hne : fs.infos ≠ []) {l : LineCtx H} (h : Reads maxEnts fs (.line fs.ric fs.base l) [] data) :
    data ≠ [] := by
  rintro rfl
  exact hne (map_eq_nil_iff.mp h.nil.2.symm)

lemma reads_lines (hinv : H.Inverts) (maxEnts : Nat) (hfits : ∀ i ∈ fs.infos, RepFits (repOf fs.base i)) :
    Reads (H := H) maxEnts fs (.line fs.ric fs.base .opcode) [] (efsLines H fs) :=
  ⟨rfl, rfl, [], fs.infos, rfl, rfl, lines_items hinv hfits⟩

lemma reads_start {p : PrefixCtx} (hp : p.known = some ric) :
    Reads (H := H) maxEnts fs (.start p) out data ↔ out = [] ∧ p.known = some fs.ric ∧
      feed (prefixByte 0 0) p data = some (.inr (fs.ric, fs.base), efsLines H fs) := by
  cases p with
  | ricnt p => cases hp
  | _ => rfl

lemma waits_known {p : PrefixCtx} (hp : p.known = some ric) (insertCnt : Nat) :
    waits (H := H) insertCnt (.start p) = decide (ric > insertCnt) := by
  cases p with
  | ricnt p => cases hp
  | _ => cases hp; rfl

lemma afterBase_reads (hinv : H.Inverts) (hne : fs.infos ≠ []) (hfits : ∀ i ∈ fs.infos, RepFits (repOf fs.base i))
    {t : Table} (hsave : fs.ric ≤ t.insertCnt → Saves t fs) {p : PrefixCtx} (hp : p.known = some fs.ric) {m c : Nat}
    (h : feed (prefixByte 0 0) p (data ++ more) = some (.inr (fs.ric, fs.base), efsLines H fs)) :
    ∃ d : Decoded H, afterPrefix t [] (feed (prefixByte m c) p data) = some d ∧ Left maxEnts fs t.insertCnt more d := by
  obtain ⟨hindep, hstays⟩ := feed_known 0 0 data hp
  rw [hindep m c]
  rw [feed_append] at h
  rcases hfeed : feed (prefixByte 0 0) p data with _ | ⟨p' | ⟨ric, base⟩, rest⟩
  · rw [hfeed] at h; cases h
  · rw [hfeed] at h
    have hp' := hstays p' rest hfeed
    refine ⟨_, rfl, (reads_start hp').mpr ⟨rfl, hp', h⟩, fun hb => ?_, fun _ => rfl, fun hnil => ?_⟩
    · dsimp only at hb; rw [waits_known hp'] at hb; exact of_decide_eq_true hb
    · rw [nil_append] at hnil; rw [hnil] at h; cases h
  · rw [hfeed] at h
    obtain ⟨hpair, hsplit⟩ := Prod.mk.inj (Option.some.inj h)
    obtain ⟨rfl, rfl⟩ := Prod.mk.inj (Sum.inr.inj hpair)
    have hlines := reads_lines hinv maxEnts hfits
    rw [← hsplit] at hlines; exact decLines_reads hsave (lines_ne_nil hne hlines) hlines

/-- Any piece of a section, when the required insert count can be told if it is read now. -/
theorem decHeaderLoop_reads (data more : List UInt8) (hinv : H.Inverts) (hne : fs.infos ≠ []) (hfits : Fits dec.maxEnts fs)
    (hnear : Near dec.maxEnts fs.ric dec.dtable.insertCnt) (hsave : fs.ric ≤ dec.dtable.insertCnt → Saves dec.dtable fs)
    (hdata : data ≠ []) (h : Reads dec.maxEnts fs ctx out (data ++ more)) :
    ∃ d, decHeaderLoop dec ctx out data = some d ∧ Left dec.maxEnts fs dec.dtable.insertCnt more d := by
  unfold decHeaderLoop; rw [if_neg hdata]
  match ctx, h with
  | .start (.ricnt p), h =>
    obtain ⟨rfl, hfeed⟩ := h
    dsimp only; rw [feed_ricnt]
    rw [feed_append] at hfeed
    rcases hint : feed intByte p data with _ | ⟨p' | enc, rest⟩
    · rw [hint] at hfeed; cases hfeed
    · rw [hint] at hfeed
      refine ⟨_, rfl, ⟨rfl, hfeed⟩, nofun, fun _ => rfl, fun hnil => ?_⟩
      rw [nil_append] at hnil
      rw [hnil] at hfeed; cases hfeed
    · rw [hint] at hfeed
      obtain ⟨hval, hsplit⟩ := Prod.mk.inj (Option.some.inj hfeed)
      dsimp only; rw [Sum.inr.inj hval, reconstructRic_round hnear]
      have hmax : intMax < 2 ^ 64 := by decide
      have hric := hfits.ric
      refine afterBase_reads hinv hne hfits.reps hsave rfl ?_
      rw [hsplit, feed_append, base_round 0 0 (by omega) hfits.base (by omega)]; rfl
  | .start (.baseSign ric), h =>
    obtain ⟨rfl, hp, hfeed⟩ := h
    exact afterBase_reads hinv hne hfits.reps hsave hp hfeed
  | .start (.base ric sign p), h =>
    obtain ⟨rfl, hp, hfeed⟩ := h
    exact afterBase_reads hinv hne hfits.reps hsave hp hfeed
  | .line ric base l, h =>
    obtain ⟨rfl, rfl, -⟩ := id h
    exact decLines_reads hsave (by simp [hdata]) h

end RlccQuic.Http3.SectionRead
