/-
  RlccQuic.Http3.Parsers — the parsers of QPACK as they run over a buffer (`qpack/xqc_prefixed_str.c`, `qpack/xqc_ins.c`,
  `qpack/xqc_rep.c`).

  Each is a switch that falls through from one field to the next as long as the buffer has bytes, and leaves the field it
  is in to the next call. `RlccQuic.Http3.Ins` and `RlccQuic.Http3.RepCodec` read the same fields byte by byte.

  Before it decodes, `xqc_parse_prefixed_str` makes room for two bytes for each byte of code that is left. A byte of code gives
  at most two and the first one at most one, so the room is never used up and the exits of `xqc_huffman_dec` for a full
  buffer are left out; memory for the room can always be had.

  Proved: over any buffer in any state the parsers do what the byte steps do (`str_readsAs`, `encoder_readsAs`,
  `decoder_readsAs`, `section_readsAs`), so that what the writers write is read back however it is cut
  (`written_items_are_read_back`).
-/

import RlccQuic.Http3.Qpack

namespace RlccQuic.Http3.Parsers

open Lib Prefixed Ins RepCodec List
open Encode (EncIns Rep)

variable {H : Huffman} {σ σ' τ υ : Type}

abbrev Buf := List UInt8

/-- What a call leaves: the state or the item, and the bytes it has not read. -/
abbrev Res (σ τ : Type) := Option ((σ ⊕ τ) × Buf)

/-- A case of a switch: a field is read, and `next` is what comes behind it. -/
def stage (read : σ → Buf → Res σ τ) (f : σ → σ') (next : τ → Buf → Res σ' υ) (s : σ) (buf : Buf) : Res σ' υ :=
  match read s buf with
  | none => none
  | some (.inl s, rest) => some (.inl (f s), rest)
  | some (.inr t, rest) => next t rest

def finish (g : τ → υ) (t : τ) (rest : Buf) : Res σ υ := some (.inr (g t), rest)

/-- The switch goes on to the next case if there are bytes for it. -/
def fallThrough (s : σ) (next : Buf → Res σ υ) (rest : Buf) : Res σ υ :=
  if rest.isEmpty then some (.inl s, rest) else next rest

lemma stage_eq {read : σ → Buf → Res σ τ} {step : σ → UInt8 → Option (σ ⊕ τ)} {Good : σ → Prop} (h : ReadsAs read step Good)
    {step' : σ' → UInt8 → Option (σ' ⊕ υ)} {f : σ → σ'} {g : τ → σ' ⊕ υ}
    (hstep : ∀ s b, step' (f s) b = (step s b).map (Sum.elim (fun s => .inl (f s)) g)) {next : τ → Buf → Res σ' υ}
    (hnext : ∀ t rest, next t rest = Sum.elim (fun s' => feed step' s' rest) (fun u => some (.inr u, rest)) (g t))
    {s : σ} (hs : Good s) {buf : Buf} (hbuf : buf ≠ []) : stage read f next s buf = feed step' (f s) buf := by
  rw [stage, h.read s buf hs hbuf, feed_inside hstep]
  cases feed step s buf with
  | none => rfl
  | some r =>
    obtain ⟨r, rest⟩ := r
    cases r with
    | inl s' => rfl
    | inr t => exact hnext t rest

lemma fallThrough_eq {step : σ → UInt8 → Option (σ ⊕ υ)} {s : σ} {next : Buf → Res σ υ}
    (hnext : ∀ rest, rest ≠ [] → next rest = feed step s rest) (rest : Buf) : fallThrough s next rest = feed step s rest := by
  cases rest with
  | nil => rfl
  | cons b bs => exact hnext _ (cons_ne_nil b bs)

section Stages

variable {read : σ → Buf → Res σ τ} {step : σ → UInt8 → Option (σ ⊕ τ)} {Good : σ → Prop} (h : ReadsAs read step Good)
  {step' : σ' → UInt8 → Option (σ' ⊕ υ)} {f : σ → σ'}
include h

lemma stage_finish {g : τ → υ}
    (hstep : ∀ s b, step' (f s) b = (step s b).map (Sum.elim (fun s => .inl (f s)) fun t => .inr (g t)))
    {s : σ} (hs : Good s) {buf : Buf} (hbuf : buf ≠ []) : stage read f (finish g) s buf = feed step' (f s) buf :=
  stage_eq h hstep (fun _ _ => rfl) hs hbuf

lemma stage_fallThrough {g : τ → σ'} {next : τ → Buf → Res σ' υ}
    (hstep : ∀ s b, step' (f s) b = (step s b).map (Sum.elim (fun s => .inl (f s)) fun t => .inl (g t)))
    (hnext : ∀ t rest, rest ≠ [] → next t rest = feed step' (g t) rest) {s : σ} (hs : Good s) {buf : Buf} (hbuf : buf ≠ []) :
    stage read f (fun t => fallThrough (g t) (next t)) s buf = feed step' (f s) buf :=
  stage_eq h hstep (fun t rest => fallThrough_eq (hnext t) rest) hs hbuf

end Stages

lemma int_readsAs : ReadsAs xqcPrefixedIntRead intByte Between :=
  ⟨fun _ _ hs hbuf => intRead_eq hs hbuf, fun p b p' hp h => read_between p b (.inl p') hp h⟩

lemma init_between {bits : Nat} (h : 1 ≤ bits ∧ bits ≤ 8) : Between (xqcPrefixedIntInit bits) := by
  rw [xqcPrefixedIntInit, if_neg (by omega)]; exact ⟨h, fun _ => rfl, zero_le⟩

/-! ## Strings -/

/-- As many bytes as there are, or as the string still has; `default` is a state that is not one. -/
def strValue : PStr H → Buf → Res (PStr H) (List UInt8)
  | .raw len value, buf =>
    let l := min buf.length (len - value.length)
    let value := value ++ buf.take l
    some (if value.length = len then .inr value else .inl (.raw len value), buf.drop l)
  | .huff len used value st, buf =>
    let l := min buf.length (len - used)
    match H.decAll st (buf.take l) with
    | none => none
    | some (st, out) =>
      if used + l = len then if H.done st then some (.inr (value ++ out), buf.drop l) else none
      else some (.inl (.huff len (used + l) (value ++ out) st), buf.drop l)
  | _, _ => none

def strLen (huff : Bool) : PInt → Buf → Res (PStr H) (List UInt8) :=
  stage xqcPrefixedIntRead (.len huff) fun n rest =>
    match strBody huff (.inr n) with
    | .inl v => fallThrough v (strValue v) rest
    | .inr value => some (.inr value, rest)

def xqcParsePrefixedStr : PStr H → Buf → Res (PStr H) (List UInt8)
  | .head bits, [] => some (.inl (.head bits), [])
  | .head bits, b :: bs => strLen (b.toNat / 2 ^ bits % 2 = 1) (xqcPrefixedIntInit bits) (b :: bs)
  | .len huff p, buf => strLen huff p buf
  | v, buf => strValue v buf

def StrReady : PStr H → Prop
  | .head bits => 1 ≤ bits ∧ bits ≤ 8
  | .len _ p => Between p
  | .raw len value => value.length < len
  | .huff len used _ _ => used < len

lemma strBody_inl {huff : Bool} {n : Nat} {v : PStr H} (h : strBody huff (.inr n) = .inl v) :
    0 < n ∧ (v = .raw n [] ∨ v = .huff n 0 [] H.init) := by
  rw [strBody] at h; split at h
  · cases h
  · rename_i hn
    refine ⟨Nat.pos_of_ne_zero hn, ?_⟩
    cases huff <;> cases h
    · exact .inl rfl
    · exact .inr rfl

lemma strBody_ready {huff : Bool} {r : PInt ⊕ Nat} {v : PStr H} (hr : Sum.elim Between (· ≤ intMax) r)
    (h : strBody huff r = .inl v) : StrReady v := by
  cases r with
  | inl p => cases h; exact hr
  | inr n => obtain ⟨hn, rfl | rfl⟩ := strBody_inl h <;> exact hn

lemma raw_eq {len : Nat} (buf : Buf) : ∀ {value : List UInt8}, value.length < len →
    strValue (PStr.raw (H := H) len value) buf = feed strByte (.raw len value) buf := by
  induction buf with
  | nil => intro value h; simp [strValue, feed, Nat.ne_of_lt h]
  | cons b bs ih =>
    intro value h; rw [feed, strByte]
    by_cases hlast : value.length + 1 = len
    · have hl : min (b :: bs).length (len - value.length) = 1 := by simp; omega
      rw [strValue, hl]
      simp [hlast]
    · have hl : min (b :: bs).length (len - value.length) = min bs.length (len - (value ++ [b]).length) + 1 := by
        simp; omega
      rw [if_neg (by simpa using hlast)]
      dsimp only
      rw [← ih (by simp; omega), strValue, strValue, hl, take_succ_cons, drop_succ_cons, append_assoc]
      rfl

lemma huff_eq {len : Nat} (buf : Buf) : ∀ {used : Nat} {value : List UInt8} {st : H.State}, used < len →
    strValue (.huff len used value st) buf = feed strByte (.huff len used value st) buf := by
  induction buf with
  | nil => intro used value st h; simp [strValue, Huffman.decAll, feed, Nat.ne_of_lt h]
  | cons b bs ih =>
    intro used value st h; rw [feed, strByte]
    by_cases hlast : used + 1 = len
    · have hl : min (b :: bs).length (len - used) = 1 := by simp; omega
      simp only [strValue, hl, take_succ_cons, take_zero, Huffman.decAll, drop_succ_cons, drop_zero]
      cases H.dec st b with
      | none => rfl
      | some r =>
        simp only [Option.bind_some, Option.map_some, append_nil, if_pos hlast]
        split <;> rfl
    · have hl : min (b :: bs).length (len - used) = min bs.length (len - (used + 1)) + 1 := by simp; omega
      simp only [strValue, hl, take_succ_cons, Huffman.decAll, drop_succ_cons, if_neg hlast]
      cases H.dec st b with
      | none => rfl
      | some r =>
        dsimp only
        rw [← ih (by omega : used + 1 < len), strValue]
        simp only [Option.bind_some]
        cases H.decAll r.1 (bs.take (min bs.length (len - (used + 1)))) with
        | none => rfl
        | some q => simp only [Option.map_some, append_assoc, Nat.add_right_comm used 1, ← Nat.add_assoc]

lemma strLen_eq {huff : Bool} {p : PInt} (hp : Between p) {buf : Buf} (hbuf : buf ≠ []) :
    strLen (H := H) huff p buf = feed strByte (.len huff p) buf := by
  refine stage_eq int_readsAs (f := PStr.len huff) (g := fun n => strBody huff (.inr n)) (fun p b => ?_) (fun n rest => ?_) hp
    hbuf
  · rw [strByte]
    congr 1
    funext r
    cases r <;> rfl
  · cases hb : strBody (H := H) huff (.inr n) with
    | inl v =>
      obtain ⟨hn, rfl | rfl⟩ := strBody_inl hb
      · exact fallThrough_eq (fun rest _ => raw_eq rest hn) rest
      · exact fallThrough_eq (fun rest _ => huff_eq rest hn) rest
    | inr value => rfl

lemma str_kept (v : PStr H) (b : UInt8) (v' : PStr H) (hv : StrReady v) (h : strByte v b = some (.inl v')) : StrReady v' := by
  cases v with
  | head bits =>
    obtain ⟨r, hr, hb⟩ := Option.map_eq_some_iff.mp h
    exact strBody_ready (read_between _ b r (init_between hv) hr) hb
  | len huff p =>
    obtain ⟨r, hr, hb⟩ := Option.map_eq_some_iff.mp h
    exact strBody_ready (read_between _ b r hv hr) hb
  | raw len value =>
    have hlt : value.length < len := hv
    simp only [strByte, Option.some.injEq] at h; split at h
    · cases h
    · rename_i hne; cases h
      simp only [length_append, length_singleton] at hne
      show (value ++ [b]).length < len
      simp; omega
  | huff len used value st =>
    have hlt : used < len := hv
    simp only [strByte] at h; split at h
    · cases h
    · split at h
      · split at h <;> cases h
      · cases h; show used + 1 < len; omega

theorem str_readsAs : ReadsAs (xqcParsePrefixedStr (H := H)) strByte StrReady := by
  refine ⟨fun v buf hv hbuf => ?_, str_kept⟩
  cases v with
  | head bits =>
    obtain ⟨b, bs, rfl⟩ := exists_cons_of_ne_nil hbuf
    exact (strLen_eq (init_between hv) hbuf).trans (by rw [feed, feed]; rfl)
  | len huff p => exact strLen_eq hv hbuf
  | raw len value => exact raw_eq buf hv
  | huff len used value st => exact huff_eq buf hv

/-! ## Instructions of the encoder -/

def xqcInsParseSetDtableCapacity : PInt → Buf → Res (EncCtx H) EncIns :=
  stage xqcPrefixedIntRead .capacity (finish .setCap)

def refValueStage (stable : Bool) (idx : Nat) : PStr H → Buf → Res (EncCtx H) EncIns :=
  stage xqcParsePrefixedStr (.refValue stable idx) (finish (.insertNameRef stable idx))

def xqcInsParseInsertNameReference (stable : Bool) : PInt → Buf → Res (EncCtx H) EncIns :=
  stage xqcPrefixedIntRead (.nameIndex stable) fun idx =>
    fallThrough (.refValue stable idx (xqcPrefixedStrInit H 7)) (refValueStage stable idx (xqcPrefixedStrInit H 7))

def valueStage (name : List UInt8) : PStr H → Buf → Res (EncCtx H) EncIns :=
  stage xqcParsePrefixedStr (.value name) (finish (.insertLiteral name))

/-- The source goes on to the value also if the name is not complete and there are bytes left, which cannot be. -/
def xqcInsParseInsertLiteralName : PStr H → Buf → Res (EncCtx H) EncIns :=
  stage xqcParsePrefixedStr .name fun name =>
    fallThrough (.value name (xqcPrefixedStrInit H 7)) (valueStage name (xqcPrefixedStrInit H 7))

def xqcInsParseDuplicate : PInt → Buf → Res (EncCtx H) EncIns := stage xqcPrefixedIntRead .dup (finish .duplicate)

/-- The switch over the type and the state; a type is chosen by the first byte. -/
def encSwitch : EncCtx H → Buf → Res (EncCtx H) EncIns
  | .opcode => fun _ => none
  | .capacity p => xqcInsParseSetDtableCapacity p
  | .nameIndex stable p => xqcInsParseInsertNameReference stable p
  | .refValue stable idx v => refValueStage stable idx v
  | .name n => xqcInsParseInsertLiteralName n
  | .value name v => valueStage name v
  | .dup p => xqcInsParseDuplicate p

def xqcInsParseEncoder : EncCtx H → Buf → Res (EncCtx H) EncIns :=
  complete fun ctx buf =>
    match ctx, buf with
    | .opcode, b :: bs => encSwitch (xqcInsEncType H b) (b :: bs)
    | ctx, buf => encSwitch ctx buf

def EncReady : EncCtx H → Prop
  | .opcode => True
  | .capacity p | .nameIndex _ p | .dup p => Between p
  | .refValue _ _ v | .name v | .value _ v => StrReady v

lemma encType_ready (b : UInt8) : EncReady (xqcInsEncType H b) := by
  unfold xqcInsEncType; split
  · exact init_between (by decide)
  split
  · exact (by decide : 1 ≤ 5 ∧ 5 ≤ 8)
  split <;> exact init_between (by decide)

lemma strInit_ready {bits : Nat} (h : 1 ≤ bits ∧ bits ≤ 8) : StrReady (xqcPrefixedStrInit H bits) := h

lemma encSwitch_eq {ctx : EncCtx H} (hne : ctx ≠ .opcode) (h : EncReady ctx) {buf : Buf} (hbuf : buf ≠ []) :
    encSwitch ctx buf = feed encoderByte ctx buf := by
  have hvalue : ∀ name {v : PStr H} {buf}, StrReady v → buf ≠ [] → valueStage name v buf = feed encoderByte (.value name v) buf :=
    fun name _ _ hv hbuf => stage_finish str_readsAs (f := EncCtx.value name) (fun _ _ => rfl) hv hbuf
  have hrefValue : ∀ stable idx {v : PStr H} {buf}, StrReady v → buf ≠ [] →
      refValueStage stable idx v buf = feed encoderByte (.refValue stable idx v) buf :=
    fun stable idx _ _ hv hbuf => stage_finish str_readsAs (f := EncCtx.refValue stable idx) (fun _ _ => rfl) hv hbuf
  cases ctx with
  | opcode => exact absurd rfl hne
  | capacity p => exact stage_finish int_readsAs (f := EncCtx.capacity) (fun _ _ => rfl) h hbuf
  | nameIndex stable p =>
    exact stage_fallThrough int_readsAs (f := EncCtx.nameIndex stable) (fun _ _ => rfl)
      (fun idx _ hr => hrefValue stable idx (strInit_ready (by decide)) hr) h hbuf
  | refValue stable idx v => exact hrefValue stable idx h hbuf
  | name n =>
    exact stage_fallThrough str_readsAs (f := EncCtx.name) (fun _ _ => rfl)
      (fun name _ hr => hvalue name (strInit_ready (by decide)) hr) h hbuf
  | value name v => exact hvalue name h hbuf
  | dup p => exact stage_finish int_readsAs (f := EncCtx.dup) (fun _ _ => rfl) h hbuf

lemma insByte_kept {ctx ctx' : EncCtx H} {b : UInt8} (h : EncReady ctx) (hs : insByte ctx b = some (.inl ctx')) :
    EncReady ctx' := by
  have hinit : StrReady (xqcPrefixedStrInit H 7) := strInit_ready (by decide)
  cases ctx with
  | opcode => cases hs
  | capacity p | dup p =>
    obtain ⟨_ | _, hr, he⟩ := Option.map_eq_some_iff.mp hs <;> cases he
    exact int_readsAs.kept _ _ _ h hr
  | nameIndex stable p =>
    obtain ⟨_ | _, hr, he⟩ := Option.map_eq_some_iff.mp hs <;> cases he
    · exact int_readsAs.kept _ _ _ h hr
    · exact hinit
  | refValue stable idx v | value name v =>
    obtain ⟨_ | _, hr, he⟩ := Option.map_eq_some_iff.mp hs <;> cases he
    exact str_readsAs.kept _ _ _ h hr
  | name n =>
    obtain ⟨_ | _, hr, he⟩ := Option.map_eq_some_iff.mp hs <;> cases he
    · exact str_readsAs.kept _ _ _ h hr
    · exact hinit

theorem encoder_readsAs : ReadsAs (xqcInsParseEncoder (H := H)) encoderByte EncReady := by
  refine ReadsAs.complete ⟨fun ctx buf h hbuf => ?_, fun ctx b ctx' h hs => ?_⟩
  · obtain ⟨b, bs, rfl⟩ := exists_cons_of_ne_nil hbuf
    by_cases hop : ctx = .opcode
    · subst hop
      have hne : xqcInsEncType H b ≠ .opcode := by
        unfold xqcInsEncType; split
        · nofun
        split
        · nofun
        split <;> nofun
      exact (encSwitch_eq hne (encType_ready b) hbuf).trans (feed_first encoder_first rfl rfl).symm
    · cases ctx with
      | opcode => exact absurd rfl hop
      | _ => exact encSwitch_eq hop h hbuf
  · cases ctx with
    | opcode => exact insByte_kept (encType_ready b) hs
    | _ => exact insByte_kept h hs

/-! ## Instructions of the decoder -/

def decSwitch : DecCtx → Buf → Res DecCtx DecIns
  | .opcode => fun _ => none
  | .ack p => stage xqcPrefixedIntRead .ack (finish .sectionAck) p
  | .cancel p => stage xqcPrefixedIntRead .cancel (finish .streamCancel) p
  | .increment p => stage xqcPrefixedIntRead .increment (finish .icntIncrement) p

/-- The loop ends with the integer or with the buffer. -/
def xqcInsParseDecoder (ctx : DecCtx) (buf : Buf) : Res DecCtx DecIns :=
  match ctx, buf with
  | .opcode, [] => some (.inl .opcode, [])
  | .opcode, b :: bs => decSwitch (xqcInsDecoderType b) (b :: bs)
  | ctx, buf => decSwitch ctx buf

def DecReady : DecCtx → Prop
  | .opcode => True
  | .ack p | .cancel p | .increment p => Between p

lemma decType_ready (b : UInt8) : DecReady (xqcInsDecoderType b) := by
  unfold xqcInsDecoderType; split
  · exact init_between (by decide)
  split <;> exact init_between (by decide)

lemma decSwitch_eq {ctx : DecCtx} (hne : ctx ≠ .opcode) (h : DecReady ctx) {buf : Buf} (hbuf : buf ≠ []) :
    decSwitch ctx buf = feed decoderByte ctx buf := by
  cases ctx with
  | opcode => exact absurd rfl hne
  | ack p => exact stage_finish int_readsAs (f := DecCtx.ack) (fun _ _ => rfl) h hbuf
  | cancel p => exact stage_finish int_readsAs (f := DecCtx.cancel) (fun _ _ => rfl) h hbuf
  | increment p => exact stage_finish int_readsAs (f := DecCtx.increment) (fun _ _ => rfl) h hbuf

lemma decByte_kept {ctx ctx' : DecCtx} {b : UInt8} (h : DecReady ctx) (hs : decByte ctx b = some (.inl ctx')) :
    DecReady ctx' := by
  cases ctx with
  | opcode => cases hs
  | ack p | cancel p | increment p =>
    obtain ⟨_ | _, hr, he⟩ := Option.map_eq_some_iff.mp hs <;> cases he
    exact int_readsAs.kept _ _ _ h hr

theorem decoder_readsAs : ReadsAs xqcInsParseDecoder decoderByte DecReady := by
  refine ⟨fun ctx buf h hbuf => ?_, fun ctx b ctx' h hs => ?_⟩
  · obtain ⟨b, bs, rfl⟩ := exists_cons_of_ne_nil hbuf
    by_cases hop : ctx = .opcode
    · subst hop
      have hne : xqcInsDecoderType b ≠ .opcode := by
        unfold xqcInsDecoderType; split
        · nofun
        split <;> nofun
      exact (decSwitch_eq hne (decType_ready b) hbuf).trans (feed_first decoder_first rfl rfl).symm
    · cases ctx with
      | opcode => exact absurd rfl hop
      | _ => exact decSwitch_eq hop h hbuf
  · cases ctx with
    | opcode => exact decByte_kept (decType_ready b) hs
    | _ => exact decByte_kept h hs

/-! ## Field lines -/

def xqcRepDecodeBaseIndex (stable : Bool) : PInt → Buf → Res (LineCtx H) Rep :=
  stage xqcPrefixedIntRead (.index stable) (finish (.indexed stable))

def xqcRepDecodePostBaseIndex : PInt → Buf → Res (LineCtx H) Rep := stage xqcPrefixedIntRead .pbIndex (finish .indexedPb)

def refLineStage (never stable : Bool) (idx : Nat) : PStr H → Buf → Res (LineCtx H) Rep :=
  stage xqcParsePrefixedStr (.refValue never stable idx) (finish (.nameRef never stable idx))

def xqcRepDecodeNameReference (never stable : Bool) : PInt → Buf → Res (LineCtx H) Rep :=
  stage xqcPrefixedIntRead (.refIndex never stable) fun idx =>
    fallThrough (.refValue never stable idx (xqcPrefixedStrInit H 7)) (refLineStage never stable idx (xqcPrefixedStrInit H 7))

def pbRefLineStage (never : Bool) (idx : Nat) : PStr H → Buf → Res (LineCtx H) Rep :=
  stage xqcParsePrefixedStr (.pbRefValue never idx) (finish (.nameRefPb never idx))

def xqcRepDecodePostBaseNameReference (never : Bool) : PInt → Buf → Res (LineCtx H) Rep :=
  stage xqcPrefixedIntRead (.pbRefIndex never) fun idx =>
    fallThrough (.pbRefValue never idx (xqcPrefixedStrInit H 7)) (pbRefLineStage never idx (xqcPrefixedStrInit H 7))

def literalStage (never : Bool) (name : List UInt8) : PStr H → Buf → Res (LineCtx H) Rep :=
  stage xqcParsePrefixedStr (.value never name) (finish (.literal never name))

def xqcRepDecodeLiteral (never : Bool) : PStr H → Buf → Res (LineCtx H) Rep :=
  stage xqcParsePrefixedStr (.name never) fun name =>
    fallThrough (.value never name (xqcPrefixedStrInit H 7)) (literalStage never name (xqcPrefixedStrInit H 7))

def lineSwitch : LineCtx H → Buf → Res (LineCtx H) Rep
  | .opcode => fun _ => none
  | .index stable p => xqcRepDecodeBaseIndex stable p
  | .pbIndex p => xqcRepDecodePostBaseIndex p
  | .refIndex never stable p => xqcRepDecodeNameReference never stable p
  | .refValue never stable idx v => refLineStage never stable idx v
  | .pbRefIndex never p => xqcRepDecodePostBaseNameReference never p
  | .pbRefValue never idx v => pbRefLineStage never idx v
  | .name never n => xqcRepDecodeLiteral never n
  | .value never name v => literalStage never name v

/-- Indices are left as they are on the wire; `xqc_rep_decode_field_line` makes them absolute here. -/
def xqcRepDecodeFieldLine (ctx : LineCtx H) (buf : Buf) : Res (LineCtx H) Rep :=
  match ctx, buf with
  | ctx, [] => some (.inl ctx, [])
  | .opcode, b :: bs => lineSwitch (xqcRepType H b) (b :: bs)
  | ctx, buf => lineSwitch ctx buf

def LineReady : LineCtx H → Prop
  | .opcode => True
  | .index _ p | .pbIndex p | .refIndex _ _ p | .pbRefIndex _ p => Between p
  | .refValue _ _ _ v | .pbRefValue _ _ v | .name _ v | .value _ _ v => StrReady v

lemma repType_ready (b : UInt8) : LineReady (xqcRepType H b) := by
  unfold xqcRepType; split
  · exact init_between (by decide)
  split
  · exact init_between (by decide)
  split
  · exact (by decide : 1 ≤ 3 ∧ 3 ≤ 8)
  split <;> exact init_between (by decide)

lemma lineSwitch_eq {ctx : LineCtx H} (hne : ctx ≠ .opcode) (h : LineReady ctx) {buf : Buf} (hbuf : buf ≠ []) :
    lineSwitch ctx buf = feed fieldLineByte ctx buf := by
  have hinit : StrReady (xqcPrefixedStrInit H 7) := strInit_ready (by decide)
  have hvalue : ∀ never name {v : PStr H} {buf}, StrReady v → buf ≠ [] →
      literalStage never name v buf = feed fieldLineByte (.value never name v) buf :=
    fun never name _ _ hv hbuf => stage_finish str_readsAs (f := LineCtx.value never name) (fun _ _ => rfl) hv hbuf
  have href : ∀ never stable idx {v : PStr H} {buf}, StrReady v → buf ≠ [] →
      refLineStage never stable idx v buf = feed fieldLineByte (.refValue never stable idx v) buf :=
    fun never stable idx _ _ hv hbuf => stage_finish str_readsAs (f := LineCtx.refValue never stable idx) (fun _ _ => rfl) hv hbuf
  have hpbref : ∀ never idx {v : PStr H} {buf}, StrReady v → buf ≠ [] →
      pbRefLineStage never idx v buf = feed fieldLineByte (.pbRefValue never idx v) buf :=
    fun never idx _ _ hv hbuf => stage_finish str_readsAs (f := LineCtx.pbRefValue never idx) (fun _ _ => rfl) hv hbuf
  cases ctx with
  | opcode => exact absurd rfl hne
  | index stable p => exact stage_finish int_readsAs (f := LineCtx.index stable) (fun _ _ => rfl) h hbuf
  | pbIndex p => exact stage_finish int_readsAs (f := LineCtx.pbIndex) (fun _ _ => rfl) h hbuf
  | refIndex never stable p =>
    exact stage_fallThrough int_readsAs (f := LineCtx.refIndex never stable) (fun _ _ => rfl)
      (fun idx _ hr => href never stable idx hinit hr) h hbuf
  | refValue never stable idx v => exact href never stable idx h hbuf
  | pbRefIndex never p =>
    exact stage_fallThrough int_readsAs (f := LineCtx.pbRefIndex never) (fun _ _ => rfl)
      (fun idx _ hr => hpbref never idx hinit hr) h hbuf
  | pbRefValue never idx v => exact hpbref never idx h hbuf
  | name never n =>
    exact stage_fallThrough str_readsAs (f := LineCtx.name never) (fun _ _ => rfl)
      (fun name _ hr => hvalue never name hinit hr) h hbuf
  | value never name v => exact hvalue never name h hbuf

lemma lineByte_kept {ctx ctx' : LineCtx H} {b : UInt8} (h : LineReady ctx) (hs : lineByte ctx b = some (.inl ctx')) :
    LineReady ctx' := by
  have hinit : StrReady (xqcPrefixedStrInit H 7) := strInit_ready (by decide)
  cases ctx with
  | opcode => cases hs
  | index stable p | pbIndex p =>
    obtain ⟨_ | _, hr, he⟩ := Option.map_eq_some_iff.mp hs <;> cases he
    exact int_readsAs.kept _ _ _ h hr
  | refIndex never stable p | pbRefIndex never p =>
    obtain ⟨_ | _, hr, he⟩ := Option.map_eq_some_iff.mp hs <;> cases he
    · exact int_readsAs.kept _ _ _ h hr
    · exact hinit
  | refValue never stable idx v | pbRefValue never idx v | value never name v =>
    obtain ⟨_ | _, hr, he⟩ := Option.map_eq_some_iff.mp hs <;> cases he
    exact str_readsAs.kept _ _ _ h hr
  | name never n =>
    obtain ⟨_ | _, hr, he⟩ := Option.map_eq_some_iff.mp hs <;> cases he
    · exact str_readsAs.kept _ _ _ h hr
    · exact hinit

theorem line_readsAs : ReadsAs (xqcRepDecodeFieldLine (H := H)) fieldLineByte LineReady := by
  refine ⟨fun ctx buf h hbuf => ?_, fun ctx b ctx' h hs => ?_⟩
  · obtain ⟨b, bs, rfl⟩ := exists_cons_of_ne_nil hbuf
    by_cases hop : ctx = .opcode
    · subst hop
      have hne : xqcRepType H b ≠ .opcode := by
        unfold xqcRepType; split
        · nofun
        split
        · nofun
        split
        · nofun
        split <;> nofun
      exact (lineSwitch_eq hne (repType_ready b) hbuf).trans (feed_first line_first rfl rfl).symm
    · cases ctx with
      | opcode => exact absurd rfl hop
      | _ => exact lineSwitch_eq hop h hbuf
  · cases ctx with
    | opcode => exact lineByte_kept (repType_ready b) hs
    | _ => exact lineByte_kept h hs

/-! ## Field sections -/

def baseStage (ric : Nat) (sign : Bool) : PInt → Buf → Res PrefixCtx (Nat × Nat) :=
  stage xqcPrefixedIntRead (.base ric sign) (finish fun delta => (ric, baseOf ric sign delta))

def signStage (ric : Nat) : Buf → Res PrefixCtx (Nat × Nat)
  | [] => some (.inl (.baseSign ric), [])
  | b :: bs => baseStage ric (b.toNat / 128 = 1) (xqcPrefixedIntInit 7) (b :: bs)

def xqcRepDecodePrefix (maxEnts icnt : Nat) : PrefixCtx → Buf → Res PrefixCtx (Nat × Nat) :=
  complete fun
    | .ricnt p => stage xqcPrefixedIntRead .ricnt (fun enc rest =>
        match xqcRepReconstructRic maxEnts icnt enc with
        | none => none
        | some ric => fallThrough (.baseSign ric) (signStage ric) rest) p
    | .baseSign ric => signStage ric
    | .base ric sign p => baseStage ric sign p

def PrefixReady : PrefixCtx → Prop
  | .ricnt p | .base _ _ p => Between p
  | .baseSign _ => True

theorem prefix_readsAs (maxEnts icnt : Nat) :
    ReadsAs (xqcRepDecodePrefix maxEnts icnt) (prefixByte maxEnts icnt) PrefixReady := by
  have hbase : ∀ ric sign {p : PInt} {buf}, Between p → buf ≠ [] →
      baseStage ric sign p buf = feed (prefixByte maxEnts icnt) (.base ric sign p) buf :=
    fun ric sign _ _ hp hbuf => stage_finish int_readsAs (f := PrefixCtx.base ric sign) (fun _ _ => rfl) hp hbuf
  have hsign : ∀ ric buf, signStage ric buf = feed (prefixByte maxEnts icnt) (.baseSign ric) buf := by
    intro ric buf
    cases buf with
    | nil => rfl
    | cons b bs => exact (hbase ric _ (init_between (by decide)) (cons_ne_nil b bs)).trans (by rw [feed, feed]; rfl)
  refine ReadsAs.complete ⟨fun p buf h hbuf => ?_, fun p b p' h hs => ?_⟩
  · cases p with
    | ricnt p =>
      dsimp only [stage]; rw [SectionRead.feed_ricnt, int_readsAs.read p buf h hbuf]
      cases hf : feed intByte p buf with
      | none => rfl
      | some r =>
        obtain ⟨r, rest⟩ := r
        cases r with
        | inl p' => rw [(feed_rest hbuf hf).2 rfl]
        | inr enc =>
          dsimp only
          cases xqcRepReconstructRic maxEnts icnt enc with
          | none => rfl
          | some ric => exact fallThrough_eq (fun rest _ => hsign ric rest) rest
    | baseSign ric => exact hsign ric buf
    | base ric sign p => exact hbase ric sign h hbuf
  · cases p with
    | ricnt p =>
      simp only [prefixByte] at hs; split at hs
      · cases hs
      · rename_i hr; cases hs; exact int_readsAs.kept _ _ _ h hr
      · obtain ⟨ric, -, he⟩ := Option.map_eq_some_iff.mp hs
        cases he; trivial
    | baseSign ric =>
      obtain ⟨_ | _, hr, he⟩ := Option.map_eq_some_iff.mp hs <;> cases he
      exact int_readsAs.kept _ _ _ (init_between (by decide)) hr
    | base ric sign p =>
    obtain ⟨_ | _, hr, he⟩ := Option.map_eq_some_iff.mp hs <;> cases he
    exact int_readsAs.kept _ _ _ h hr

/-- A call for a field section, in its prefix or in a line. -/
def sectionRead (maxEnts icnt : Nat) : PrefixCtx ⊕ LineCtx H → Buf → Res (PrefixCtx ⊕ LineCtx H) ((Nat × Nat) ⊕ Rep)
  | .inl p => stage (xqcRepDecodePrefix maxEnts icnt) .inl (finish .inl) p
  | .inr l => stage xqcRepDecodeFieldLine .inr (finish .inr) l

/-- A byte of a field section, in its prefix or in a line. -/
def sectionByte (maxEnts icnt : Nat) :
    PrefixCtx ⊕ LineCtx H → UInt8 → Option ((PrefixCtx ⊕ LineCtx H) ⊕ ((Nat × Nat) ⊕ Rep))
  | .inl p, b => (prefixByte maxEnts icnt p b).map (Sum.map .inl .inl)
  | .inr l, b => (fieldLineByte l b).map (Sum.map .inr .inr)

theorem section_readsAs (maxEnts icnt : Nat) :
    ReadsAs (sectionRead (H := H) maxEnts icnt) (sectionByte maxEnts icnt) (Sum.elim PrefixReady LineReady) := by
  refine ⟨fun s buf h hbuf => ?_, fun s b s' h hs => ?_⟩
  · cases s with
    | inl p => exact stage_finish (prefix_readsAs maxEnts icnt) (f := Sum.inl) (fun _ _ => rfl) h hbuf
    | inr l => exact stage_finish line_readsAs (f := Sum.inr) (fun _ _ => rfl) h hbuf
  · cases s with
    | inl p =>
      obtain ⟨_ | _, hr, he⟩ := Option.map_eq_some_iff.mp hs <;> cases he
      exact (prefix_readsAs maxEnts icnt).kept _ _ _ h hr
    | inr l =>
      obtain ⟨_ | _, hr, he⟩ := Option.map_eq_some_iff.mp hs <;> cases he
      exact line_readsAs.kept _ _ _ h hr

/-! ## What the writers write -/

lemma prefix_round {maxEnts icnt ric base : Nat} (hnear : Near maxEnts ric icnt) (hents : 2 * maxEnts ≤ intMax)
    (hric : ric ≤ intMax) (hbase : base ≤ intMax) :
    feed (prefixByte maxEnts icnt) (.ricnt (xqcPrefixedIntInit 0)) (xqcRepWritePrefix maxEnts ric base) =
      some (.inr (ric, base), []) := by
  have hents' : ric ≠ 0 → maxEnts ≠ 0 := by
    rcases hnear with hzero | hnear <;> omega
  have hmax : intMax < 2 ^ 64 := by decide
  rw [SectionRead.feed_ricnt, xqcRepWritePrefix, feed_append, SectionRead.ricnt_round hents hents']
  dsimp only; rw [reconstructRic_round hnear]
  exact base_round maxEnts icnt (by omega) hbase (by omega)

/-- However the bytes are cut, instructions and sections whose numbers have 62 bits are
    read as they were written; for a section the decoder's count is near enough. -/
theorem written_items_are_read_back (hinv : H.Inverts) (pieces : List Buf) :
    (∀ is, (∀ i ∈ is, EncFits i) → pieces.flatten = is.flatMap (writeEncIns H) →
      bufferItems (xqcInsParseEncoder (H := H)) .opcode .opcode [] pieces = some (.opcode, is)) ∧
    (∀ is, (∀ i ∈ is, DecFits i) → pieces.flatten = is.flatMap writeDecIns →
      bufferItems (complete xqcInsParseDecoder) .opcode .opcode [] pieces = some (.opcode, is)) ∧
    ∀ maxEnts icnt ric base (reps : List Rep), Near maxEnts ric icnt → 2 * maxEnts ≤ intMax → ric ≤ intMax → base ≤ intMax →
      (∀ r ∈ reps, RepFits r) → pieces.flatten = xqcRepWritePrefix maxEnts ric base ++ reps.flatMap (writeRep H) →
      bufferItems (sectionRead (H := H) maxEnts icnt) (.inr .opcode) (.inl (.ricnt (xqcPrefixedIntInit 0))) [] pieces =
        some (.inr .opcode, .inl (ric, base) :: reps.map .inr) := by
  refine ⟨fun is hfits hw => ?_, fun is hfits hw => ?_, ?_⟩
  · have hop : EncReady (H := H) .opcode := trivial
    rw [bufferItems_eq encoder_readsAs hop hop, hw, items_flatMap fun i hi => encIns_round hinv (hfits i hi)]; rfl
  · have hop : DecReady .opcode := trivial
    rw [bufferItems_eq decoder_readsAs.complete hop hop, hw, items_flatMap fun i hi => decIns_round (hfits i hi)]; rfl
  · intro maxEnts icnt ric base reps hnear hents hric hbase hfits hw
    have hprefix : feed (sectionByte (H := H) maxEnts icnt) (.inl (.ricnt (xqcPrefixedIntInit 0)))
        (xqcRepWritePrefix maxEnts ric base) = some (.inr (.inl (ric, base)), []) :=
      feed_lift (g := fun t => Sum.inr (Sum.inl t)) (fun _ _ => rfl) (prefix_round hnear hents hric hbase)
    have hlines : ∀ u ∈ reps.map .inr, feed (sectionByte (H := H) maxEnts icnt) (.inr .opcode)
        (Sum.elim (fun _ => []) (writeRep H) u) = some (.inr u, []) := by
      intro u hu
      obtain ⟨r, hr, rfl⟩ := mem_map.mp hu
      exact feed_lift (g := fun t => Sum.inr (Sum.inr t)) (fun _ _ => rfl) (rep_round hinv (hfits r hr))
    have hall := items_written (items_of_feed hprefix) hlines
    rw [flatMap_map] at hall
    have hinit : Sum.elim PrefixReady LineReady (.inl (.ricnt (xqcPrefixedIntInit 0)) : PrefixCtx ⊕ LineCtx H) :=
      ⟨by decide, fun _ => rfl, zero_le⟩
    have hop : Sum.elim PrefixReady LineReady (.inr .opcode : PrefixCtx ⊕ LineCtx H) := trivial
    rw [bufferItems_eq (section_readsAs maxEnts icnt) hop hinit, hw]; exact congrArg _ hall

theorem an_increment_is_read_back :
    bufferItems (complete xqcInsParseDecoder) .opcode .opcode [] [[0x3f], [0x01]] = some (.opcode, [.icntIncrement 64]) :=
  (written_items_are_read_back Qpack.byteCode_inverts _).2.1 _ (by simp [DecFits, intMax]) (by decide)

/-- The prefix of a section of the second insertion, with room for one entry: a decoder that has received none refuses it. -/
theorem a_count_too_far_ahead_is_refused :
    bufferItems (sectionRead (H := Qpack.byteCode) 1 0) (.inr .opcode) (.inl (.ricnt (xqcPrefixedIntInit 0))) []
      [xqcRepWritePrefix 1 2 1] = none := rfl

end RlccQuic.Http3.Parsers
