/-
  RlccQuic.Http3.Qpack — an encoder and a decoder with the streams between them.

  The encoder writes instructions on the encoder stream and field sections on request streams, the decoder increments
  and acknowledgements on the decoder stream. Each of these is delivered in order, in pieces of any size and with any
  delay to the others; a piece of a section that waits stays where it is. Beside the state stands what the code does not
  keep: the headers of each section, and every table the encoder has had.

  Numbers on the wire have 62 bits, so headers are shorter than that and fewer insertions are made.

  Proved: the decoder's table is the one the encoder had after as many insertions, and a section whose required insert count
  is reached is decoded to its headers (`sections_arrive`), and none is forgotten (`sections_on_their_way_are_held`); the
  count is told from its remainder (`insert_count_is_read_back`), which it is not if streams are cancelled
  (`cancelled_streams_lose_the_count`).
-/

import RlccQuic.Http3.SectionRead

namespace RlccQuic.Http3.Qpack

open Lib Prefixed Ins RepCodec Decode List
  RlccQuic.Http3.Sync RlccQuic.Http3.SectionRead RlccQuic.Http3.Encode
open DynTable (Table)

/-! ## The system -/

/-- A section on its way: what it is, the bytes not read yet, and what was read. -/
structure Req (H : Huffman) where
  streamId : Nat
  hdrs : List Field
  fs : FieldSection
  todo : List UInt8
  ctx : RepCtx H
  out : List Field

structure Sys (H : Huffman) where
  enc : Encoder
  dctx : DecCtx
  /-- The bytes of the encoder stream that have not arrived. -/
  toDec : List UInt8
  ectx : EncCtx H
  dec : Decoder
  /-- The bytes of the decoder stream that have not arrived. -/
  toEnc : List UInt8
  reqs : List (Req H)
  configured : Bool
  /-- The tables the encoder has had, one for each line. -/
  past : List Table

variable {H : Huffman}

def start (H : Huffman) (maxCap : Nat) : Sys H where
  enc := xqcEncoderCreate
  dctx := .opcode
  toDec := []
  ectx := .opcode
  dec := xqcDecoderCreate maxCap
  toEnc := []
  reqs := []
  configured := false
  past := [DynTable.xqcDtableCreate]

inductive Ev where
  /-- The peer's settings arrive. -/
  | settings (cap nameLenLimit entrySizeLimit : Nat)
  | maxBlocked (n : Nat)
  | encode (streamId : Nat) (ls : List Line)
  /-- `n` bytes of a stream arrive. -/
  | encoderBytes (n : Nat)
  | decoderBytes (n : Nat)
  /-- `n` bytes of the section number `i` arrive; with `fin` the caller knows that it ends there. -/
  | request (i n : Nat) (fin : Bool)

/-- Headers that can be encoded, with sound answers of the lookups. -/
structure CanEncode (enc : Encoder) (streamId : Nat) (ls : List Line) : Prop where
  some : ls ≠ []
  stream : streamId ≤ intMax
  lines : ∀ l ∈ ls, Line.Sendable l
  count : enc.dtable.insertCnt + ls.length ≤ intMax
  looks : LooksUp (xqcEncoderCheckBlockStreamLimit enc streamId) enc (xqcEncoderCreateFsInfo enc) ls

def Line.field (l : Line) : Field := (l.hdr.name, l.hdr.value)

def newReq (H : Huffman) (maxEntries streamId : Nat) (ls : List Line) (fs : FieldSection) : Req H where
  streamId := streamId
  hdrs := ls.map Line.field
  fs := fs
  todo := writeEfs H maxEntries (xqcEncoderWriteEfs fs)
  ctx := xqcRepCtxClear H
  out := []

/-- Bytes of sections arrive in the order of their stream. -/
def step (maxCap : Nat) (s : Sys H) (ev : Ev) (s' : Sys H) : Prop :=
  match ev with
  | .settings cap nameLenLimit entrySizeLimit =>
    s.configured = false ∧ ∃ enc₁ enc₂, xqcEncoderSetMaxDtableCap s.enc maxCap = some enc₁ ∧
      xqcEncoderSetDtableCap enc₁ (min cap maxCap) true nameLenLimit entrySizeLimit = .ok enc₂ ∧
      s' = { s with
        enc := enc₂, toDec := s.toDec ++ writeEncIns H (.setCap (min cap maxCap)), configured := true
        past := s.past ++ [enc₂.dtable] }
  | .maxBlocked n => s' = { s with enc := xqcEncoderSetMaxBlockedStream s.enc n }
  | .encode streamId ls =>
    CanEncode s.enc streamId ls ∧ ∃ enc₁ fs ins enc₂, xqcEncoderPrepare s.enc streamId ls = .ok (enc₁, fs, ins) ∧
      xqcEncoderEncHeaders s.enc streamId ls = .ok (enc₂, some (xqcEncoderWriteEfs fs), ins) ∧
      s' = { s with
        enc := enc₂, toDec := s.toDec ++ ins.flatMap (writeEncIns H)
        reqs := s.reqs ++ [newReq H s.enc.maxEntries streamId ls fs]
        past := s.past ++
          prepareTrace (xqcEncoderCheckBlockStreamLimit s.enc streamId) s.enc (xqcEncoderCreateFsInfo s.enc) ls }
  | .encoderBytes n =>
    ∃ ectx dec out, xqcQpackProcessEncoder s.ectx s.dec (s.toDec.take n) = some (ectx, dec, out) ∧
      s' = { s with ectx := ectx, dec := dec, toDec := s.toDec.drop n, toEnc := s.toEnc ++ out.flatMap writeDecIns }
  | .decoderBytes n =>
    ∃ dctx enc, xqcQpackProcessDecoder s.dctx s.enc (s.toEnc.take n) = some (dctx, enc) ∧
      s' = { s with dctx := dctx, enc := enc, toEnc := s.toEnc.drop n }
  | .request i n fin =>
    ∃ before r behind d acks, s.reqs = before ++ r :: behind ∧ before.length = i ∧ r.todo ≠ [] ∧ n ≠ 0 ∧
      (∀ q ∈ before, q.streamId = r.streamId → q.todo = []) ∧ (fin = true → r.todo.length ≤ n) ∧
      xqcQpackDecHeaders s.dec r.streamId r.ctx r.out (r.todo.take n) fin = some (d, acks) ∧
      s' = { s with
        reqs := before ++ { r with todo := d.rest ++ r.todo.drop n, ctx := d.ctx, out := d.hdrs } :: behind
        toEnc := s.toEnc ++ acks.flatMap writeDecIns }

/-! ## What holds in every state -/

/-- What the encoder keeps of a section until it is acknowledged. -/
def secOf (r : Req H) : Section := ⟨r.streamId, r.fs.minRef, r.fs.ric, r.fs.refs⟩

def mine (streamId : Nat) (reqs : List (Req H)) : List (Req H) :=
  reqs.filter fun r => r.streamId = streamId ∧ r.fs.ric ≠ 0

def Req.isDone (r : Req H) : Bool := r.todo = []

structure ReqOk (s : Sys H) (r : Req H) : Prop where
  hdrs : r.hdrs = r.fs.infos.map Info.field
  some : r.fs.infos ≠ []
  stream : r.streamId ≤ intMax
  fits : Fits s.dec.maxEnts r.fs
  counts : Counts r.fs
  reads : Reads s.dec.maxEnts r.fs r.ctx r.out r.todo
  below : ∀ idx ∈ r.fs.refs, idx < s.enc.dtable.insertCnt
  /-- It was not decoded to its end before the insertions it needs. -/
  done : r.todo = [] → r.fs.ric ≤ s.dec.dtable.insertCnt
  names : r.todo ≠ [] → ∀ i ∈ r.fs.infos, Names s.enc.dtable i.hdr i.ref

/-- The encoder still has the last sections of the stream, and no more are acknowledged than were decoded. -/
def Unacked (unack : List Section) (reqs : List (Req H)) (acks : List DecIns) (streamId : Nat) : Prop :=
  ∃ k, (unack.filter fun u => u.streamId = streamId) = ((mine streamId reqs).map secOf).drop k ∧
    k + acks.count (.sectionAck streamId) ≤ (mine streamId reqs).countP Req.isDone

structure Inv (maxCap : Nat) (s : Sys H) : Prop where
  good : Good s.enc
  count : s.enc.dtable.insertCnt ≤ intMax
  ents : s.dec.maxEnts = DynTable.xqcDtableMaxEntryCnt maxCap
  cap : s.enc.dtable.capacity / DynTable.entrySizeBase ≤ s.enc.maxEntries
  same : s.enc.maxEntries ≠ 0 → s.enc.maxEntries = s.dec.maxEnts
  unset : s.configured = false → s.enc.dtable.capacity = 0
  past : s.past.Pairwise Later ∧ ∀ t ∈ s.past, Later t s.enc.dtable ∧ t.Ok
  /-- The instructions on their way take the decoder's table to the encoder's. -/
  stream : ∃ pend, items encoderByte .opcode s.ectx s.toDec = some (.opcode, pend) ∧
    Follows s.dec.dtable pend s.past ∧ pend.foldlM xqcQpackOnEncoderIns s.dec.dtable = some (plain s.enc.dtable)
  acks : ∃ acks, items decoderByte .opcode s.dctx s.toEnc = some (.opcode, acks) ∧
    (∀ n, .streamCancel n ∉ acks) ∧ ∀ streamId, Unacked s.enc.unack s.reqs acks streamId
  order : s.reqs.Pairwise fun a b => a.streamId = b.streamId → b.todo = [] → a.todo = []
  reqs : ∀ r ∈ s.reqs, ReqOk s r
  fresh : ∀ idx < s.enc.dtable.insertCnt, ∃ r ∈ s.reqs, idx ∈ r.fs.refs

/-! ## What follows for one state -/

variable {maxCap : Nat} {s s' : Sys H} {r : Req H}

lemma Inv.dec_table (h : Inv maxCap s) : ∃ t ∈ s.past, s.dec.dtable = plain t ∧ Later t s.enc.dtable ∧ t.Ok := by
  obtain ⟨pend, -, hfollows, -⟩ := h.stream
  obtain ⟨t, ht, hfold⟩ := hfollows 0 zero_le
  exact ⟨t, ht, Option.some.inj hfold, h.past.2 t ht⟩

lemma Inv.count_le (h : Inv maxCap s) : s.dec.dtable.insertCnt ≤ s.enc.dtable.insertCnt := by
  obtain ⟨t, -, htab, hlater, -⟩ := h.dec_table
  rw [htab]; exact hlater.count

lemma Inv.entry (h : Inv maxCap s) {idx : Nat} (hin : s.enc.dtable.firstIdx ≤ idx) (hlt : idx < s.dec.dtable.insertCnt) :
    DynTable.xqcDtableGetEntryByAbsIdx s.dec.dtable idx = DynTable.xqcDtableGetEntryByAbsIdx s.enc.dtable idx := by
  obtain ⟨t, -, htab, hlater, -⟩ := h.dec_table
  rw [htab] at hlt ⊢; exact (hlater.entry idx hin hlt).symm

variable {α : Type}

/-- If the marked elements come first, those that are not stand behind as many as there are. -/
lemma mem_drop_countP {p : α → Bool} : ∀ {l : List α}, l.Pairwise (fun a b => p b = true → p a = true) →
    ∀ {x : α}, x ∈ l → p x = false → x ∈ l.drop (l.countP p)
  | [], _, _, hx, _ => hx
  | a :: l, h, x, hx, hp => by
    obtain ⟨ha, hl⟩ := pairwise_cons.mp h
    cases hpa : p a with
    | true =>
      rw [countP_cons_of_pos hpa, drop_succ_cons]
      rcases mem_cons.mp hx with rfl | hx
      · rw [hpa] at hp; cases hp
      · exact mem_drop_countP hl hx hp
    | false =>
      have hnone : (a :: l).countP p = 0 := by
        rw [countP_eq_zero]
        intro b hb hpb
        rcases mem_cons.mp hb with rfl | hb
        · rw [hpa] at hpb; cases hpb
        · rw [ha b hb hpb] at hpa; cases hpa
      rw [hnone]; exact hx

lemma Inv.unacked (h : Inv maxCap s) (hr : r ∈ s.reqs) (htodo : r.todo ≠ []) (hric : r.fs.ric ≠ 0) : secOf r ∈ s.enc.unack := by
  obtain ⟨acks, -, -, hunacked⟩ := h.acks
  obtain ⟨k, hfilter, hk⟩ := hunacked r.streamId
  have hmine : r ∈ mine r.streamId s.reqs := mem_filter.mpr ⟨hr, by simpa using hric⟩
  have horder : (mine r.streamId s.reqs).Pairwise (fun a b => b.isDone = true → a.isDone = true) := by
    refine (h.order.filter _).imp_of_mem fun {a b} ha hb hab => ?_
    have hsa : a.streamId = r.streamId := (of_decide_eq_true (mem_filter.mp ha).2).1
    have hsb : b.streamId = r.streamId := (of_decide_eq_true (mem_filter.mp hb).2).1
    exact fun hdone => decide_eq_true (hab (hsa.trans hsb.symm) (of_decide_eq_true hdone))
  have hdrop := mem_drop_countP horder hmine (decide_eq_false htodo)
  have hle : k ≤ (mine r.streamId s.reqs).countP Req.isDone := by omega
  have hmem : secOf r ∈ ((mine r.streamId s.reqs).map secOf).drop k := by
    rw [← map_drop]; exact mem_map_of_mem ((drop_sublist_drop_left _ hle).subset hdrop)
  rw [← hfilter] at hmem; exact mem_of_mem_filter hmem

lemma Inv.inTable (h : Inv maxCap s) (hr : r ∈ s.reqs) (htodo : r.todo ≠ []) {idx : Nat} (hidx : idx ∈ r.fs.refs) :
    InTable s.enc.dtable idx := by
  have hric : r.fs.ric ≠ 0 := by
    have := (h.reqs r hr).counts.1 idx hidx; omega
  exact h.good.inTable h.good.ok h.good.ref.le le_rfl (h.unacked hr htodo hric) hidx

variable {t : Table}

lemma length_le_capacity (h : t.Ok) : t.entries.length ≤ t.capacity / DynTable.entrySizeBase := by
  have hsize : ∀ es : List DynTable.Entry, es.length * DynTable.entrySizeBase ≤ DynTable.totalSize es := by
    intro es
    induction es with
    | nil => exact le_rfl
    | cons e es ih =>
      have := e.base_le_size
      rw [length_cons, DynTable.totalSize_cons, Nat.succ_mul]; omega
  rw [Nat.le_div_iff_mul_le (by decide)]; exact (hsize t.entries).trans (h.used ▸ h.fits)

lemma Inv.behind (h : Inv maxCap s) : s.enc.dtable.insertCnt ≤ s.dec.dtable.insertCnt + s.enc.dtable.entries.length := by
  rcases Nat.lt_or_ge s.dec.dtable.insertCnt s.enc.dtable.insertCnt with hlt | hge
  · obtain ⟨r, hr, hidx⟩ := h.fresh _ hlt
    have hric := (h.reqs r hr).counts.1 _ hidx
    have htodo : r.todo ≠ [] := fun hnil => absurd ((h.reqs r hr).done hnil) (by omega)
    have hin := (h.inTable hr htodo hidx).1
    unfold Table.insertCnt at hin ⊢
    omega
  · omega

lemma Inv.maxEntries (h : Inv maxCap s) (hr : r ∈ s.reqs) (htodo : r.todo ≠ []) (hric : r.fs.ric ≠ 0) :
    s.enc.maxEntries = s.dec.maxEnts := by
  obtain ⟨hfirst, hlast⟩ := h.inTable hr htodo ((h.reqs r hr).counts.2 hric)
  have hlen := (length_le_capacity h.good.ok).trans h.cap
  exact h.same (by unfold Table.insertCnt at hlast; omega)

lemma Inv.near (h : Inv maxCap s) (hr : r ∈ s.reqs) (htodo : r.todo ≠ []) :
    Near s.dec.maxEnts r.fs.ric s.dec.dtable.insertCnt := by
  by_cases hric : r.fs.ric = 0
  · exact .inl hric
  refine .inr ?_
  have hidx := (h.reqs r hr).counts.2 hric
  obtain ⟨hfirst, hlast⟩ := h.inTable hr htodo hidx
  have hlen := (length_le_capacity h.good.ok).trans h.cap
  have hents := h.maxEntries hr htodo hric
  have hbehind := h.behind
  have hle := h.count_le
  unfold Table.insertCnt at hlast hbehind hle ⊢
  omega

/-- Every line of a section that is not decoded can be saved once the count is reached. -/
lemma Inv.saves (h : Inv maxCap s) (hr : r ∈ s.reqs) (htodo : r.todo ≠ []) (hric : r.fs.ric ≤ s.dec.dtable.insertCnt) :
    Saves s.dec.dtable r.fs := by
  have hok := h.reqs r hr
  have hcount := h.count
  intro i hi
  have hmem : ∀ idx, i.ref.index = some idx → idx ∈ r.fs.refs := fun idx hidx => mem_filterMap.mpr ⟨i, hi, hidx⟩
  have hmax : ∀ idx, i.ref.index = some idx → idx ≤ intMax := fun idx hidx => by
    have := hok.below idx (hmem idx hidx); omega
  refine saveHdr_repOf ?_ hok.fits.base hmax
  have hnames := hok.names htodo i hi
  cases href : i.ref with
  | none => trivial
  | stable both idx => rw [href] at hnames; exact hnames
  | dtable both idx =>
    rw [href] at hnames
    obtain ⟨e, he, hrest⟩ := hnames
    have hidx := hmem idx (by rw [href]; rfl)
    have hlt := hok.counts.1 idx hidx
    exact ⟨e, (h.entry (DynTable.entryAt_some he).1 (by omega)).trans he, hrest⟩

/-! ## Bytes of the decoder stream -/

lemma filter_eraseP_self (p : α → Bool) (l : List α) : (l.eraseP p).filter p = (l.filter p).drop 1 := by
  induction l with
  | nil => rfl
  | cons a l ih =>
    cases hp : p a with
    | true => rw [eraseP_cons_of_pos hp, filter_cons_of_pos hp, drop_succ_cons, drop_zero]
    | false =>
      have hneg : ¬ p a = true := by rw [hp]; nofun
      rw [eraseP_cons_of_neg hneg, filter_cons_of_neg hneg, filter_cons_of_neg hneg, ih]

lemma filter_eraseP_other {p q : α → Bool} (h : ∀ a, p a = true → q a = false) (l : List α) :
    (l.eraseP p).filter q = l.filter q := by
  induction l with
  | nil => rfl
  | cons a l ih =>
    cases hp : p a with
    | true => rw [eraseP_cons_of_pos hp, filter_cons_of_neg (by rw [h a hp]; nofun)]
    | false =>
      rw [eraseP_cons_of_neg (by rw [hp]; nofun), filter_cons, filter_cons, ih]

lemma ok_of_toOption {ε : Type} {e : Except ε α} {a : α} (h : e.toOption = some a) : e = .ok a := by
  cases e with
  | error e => cases h
  | ok b => cases h; rfl

structure Told (enc enc' : Encoder) : Prop where
  good : Good enc'
  table : plain enc'.dtable = plain enc.dtable
  entries : enc'.maxEntries = enc.maxEntries

lemma setMinRef_plain {t' : Table} {m : WithTop Nat} (h : DynTable.xqcDtableSetMinRef t m = (t', .ok ())) :
    plain t' = plain t := by
  unfold DynTable.xqcDtableSetMinRef at h; split at h
  · cases h; rfl
  split at h
  · cases h
  split at h
  · cases h
  · cases h; rfl

variable {enc : Encoder} {streamId : Nat}

lemma sectionAck_told {enc' : Encoder} (hg : Good enc)
    (h : xqcEncoderSectionAck enc streamId = .ok enc') :
    Told enc enc' ∧ enc'.unack = enc.unack.eraseP fun u => u.streamId = streamId := by
  have hgood := sectionAck_good hg h
  unfold xqcEncoderSectionAck at h; split at h
  · cases h
  · dsimp only at h; split at h
    · cases h
    · rename_i t hset
      have hplain := setMinRef_plain hset
      cases h
      split
      · exact ⟨⟨by rw [if_pos (by assumption)] at hgood; exact hgood, hplain, rfl⟩, rfl⟩
      · exact ⟨⟨by rw [if_neg (by assumption)] at hgood; exact hgood, hplain, rfl⟩, rfl⟩

variable {n : Nat}

lemma increase_told {enc' : Encoder} (hg : Good enc) (h : xqcEncoderIncreaseKnownRcvdCount enc n = .ok enc') :
    Told enc enc' ∧ enc'.unack = enc.unack := by
  unfold xqcEncoderIncreaseKnownRcvdCount at h; split at h
  · cases h
  split at h
  · cases h
  · cases h; exact ⟨⟨hg.frame rfl rfl rfl, rfl, rfl⟩, rfl⟩

variable {unack : List Section} {reqs : List (Req H)} {acks : List DecIns}

lemma Unacked.acked
    (h : ∀ streamId, Unacked unack reqs (.sectionAck n :: acks) streamId) (streamId : Nat) :
    Unacked (unack.eraseP fun u => u.streamId = n) reqs acks streamId := by
  obtain ⟨k, hfilter, hk⟩ := h streamId
  by_cases hn : n = streamId
  · subst hn
    refine ⟨k + 1, ?_, ?_⟩
    · rw [filter_eraseP_self, hfilter, drop_drop]
    · rw [count_cons_self] at hk; omega
  · refine ⟨k, ?_, ?_⟩
    · rw [filter_eraseP_other (fun u hu => ?_), hfilter]
      have hu : u.streamId = n := of_decide_eq_true hu
      exact decide_eq_false (by rw [hu]; exact hn)
    · rw [count_cons_of_ne (by simpa using hn)] at hk; exact hk

lemma onDecoderIns_told {rest : List DecIns} : ∀ (acks : List DecIns) {enc enc' : Encoder}, Good enc →
    (∀ n, .streamCancel n ∉ acks ++ rest) → (∀ streamId, Unacked enc.unack reqs (acks ++ rest) streamId) →
    acks.foldlM xqcQpackOnDecoderIns enc = some enc' →
    Told enc enc' ∧ ∀ streamId, Unacked enc'.unack reqs rest streamId
  | [], enc, enc', hg, _, hu, h => by
    cases h; exact ⟨⟨hg, rfl, rfl⟩, hu⟩
  | i :: acks, enc, enc', hg, hc, hu, h => by
    obtain ⟨enc₁, hone, hrest⟩ := Option.bind_eq_some_iff.mp h
    have hstep : Told enc enc₁ ∧ ∀ streamId, Unacked enc₁.unack reqs (acks ++ rest) streamId := by
      cases i with
      | sectionAck n =>
        obtain ⟨htold, hunack⟩ := sectionAck_told hg (ok_of_toOption hone)
        refine ⟨htold, ?_⟩
        rw [hunack]; exact Unacked.acked hu
      | streamCancel n => exact absurd (mem_cons_self) (hc n)
      | icntIncrement n =>
        obtain ⟨htold, hunack⟩ := increase_told hg (ok_of_toOption hone)
        refine ⟨htold, fun streamId => ?_⟩
        obtain ⟨k, hfilter, hk⟩ := hu streamId
        exact ⟨k, by rw [hunack]; exact hfilter, hk⟩
    obtain ⟨htold, hu₁⟩ := hstep
    obtain ⟨htold', hu'⟩ := onDecoderIns_told acks htold.good (fun n hmem => hc n (mem_cons_of_mem _ hmem)) hu₁ hrest
    exact ⟨⟨htold'.good, htold'.table.trans htold.table, htold'.entries.trans htold.entries⟩, hu'⟩

lemma ReqOk.later (h : ReqOk s r) (hents : s'.dec.maxEnts = s.dec.maxEnts)
    (hdec : s.dec.dtable.insertCnt ≤ s'.dec.dtable.insertCnt) (hlater : Later s.enc.dtable s'.enc.dtable)
    (hin : r.todo ≠ [] → ∀ idx ∈ r.fs.refs, s'.enc.dtable.firstIdx ≤ idx) : ReqOk s' r where
  hdrs := h.hdrs
  some := h.some
  stream := h.stream
  fits := by rw [hents]; exact h.fits
  counts := h.counts
  reads := by rw [hents]; exact h.reads
  below := fun idx hidx => (h.below idx hidx).trans_le hlater.count
  done := fun hnil => (h.done hnil).trans hdec
  names := fun htodo i hi =>
    (h.names htodo i hi).later hlater fun idx hidx => hin htodo idx (mem_filterMap.mpr ⟨i, hi, hidx⟩)

lemma Inv.told (h : Inv maxCap s) (ht : Told s.enc enc) {dctx : DecCtx} {toEnc : List UInt8}
    (hitems : items decoderByte .opcode dctx toEnc = some (.opcode, acks))
    (hcancel : ∀ n, .streamCancel n ∉ acks) (hunacked : ∀ streamId, Unacked enc.unack s.reqs acks streamId) :
    Inv maxCap { s with enc := enc, dctx := dctx, toEnc := toEnc } where
  good := ht.good
  count := by
    rw [insertCnt_of_plain ht.table]; exact h.count
  ents := h.ents
  cap := by
    have hcap : (plain enc.dtable).capacity = (plain s.enc.dtable).capacity := congrArg Table.capacity ht.table
    show (plain enc.dtable).capacity / _ ≤ enc.maxEntries
    rw [hcap, ht.entries]; exact h.cap
  same := by
    rw [ht.entries]; exact h.same
  unset := fun hc => by
    have hcap : (plain enc.dtable).capacity = (plain s.enc.dtable).capacity := congrArg Table.capacity ht.table
    exact hcap.trans (h.unset hc)
  past := ⟨h.past.1, fun t hmem => ⟨(h.past.2 t hmem).1.trans (.of_plain ht.table), (h.past.2 t hmem).2⟩⟩
  stream := by
    obtain ⟨pend, hparse, hfollows, hends⟩ := h.stream
    exact ⟨pend, hparse, hfollows, hends.trans (congrArg some ht.table.symm)⟩
  acks := ⟨acks, hitems, hcancel, hunacked⟩
  order := h.order
  reqs := fun r hr => (h.reqs r hr).later rfl le_rfl (.of_plain ht.table) fun htodo idx hidx => by
    rw [firstIdx_of_plain ht.table]; exact (h.inTable hr htodo hidx).1
  fresh := fun idx hidx => h.fresh idx (by rw [← insertCnt_of_plain ht.table]; exact hidx)

lemma decoderBytes_inv (h : Inv maxCap s) {dctx : DecCtx}
    (hp : xqcQpackProcessDecoder s.dctx s.enc (s.toEnc.take n) = some (dctx, enc)) :
    Inv maxCap { s with dctx := dctx, enc := enc, toEnc := s.toEnc.drop n } := by
  obtain ⟨acks, hitems, hcancel, hunacked⟩ := h.acks
  rw [← take_append_drop n s.toEnc] at hitems
  obtain ⟨m, acks₁, acks₂, hone, htwo, rfl⟩ := items_split hitems
  unfold xqcQpackProcessDecoder at hp; rw [process_eq, hone, Option.bind_some] at hp
  obtain ⟨enc', hfold, heq⟩ := Option.map_eq_some_iff.mp hp
  cases heq
  obtain ⟨htold, hunacked'⟩ := onDecoderIns_told acks₁ h.good hcancel hunacked hfold
  exact h.told htold htwo (fun n hmem => hcancel n (mem_append_right _ hmem)) hunacked'

/-! ## Bytes of the encoder stream -/

variable {ins : List EncIns} {ts : List Table}

lemma Follows.split {ins' : List EncIns} (h : Follows t (ins ++ ins') ts) :
    ∃ u ∈ ts, ins.foldlM xqcQpackOnEncoderIns t = some (plain u) ∧ Follows (plain u) ins' ts := by
  obtain ⟨u, hu, hfold⟩ := h ins.length (by simp)
  rw [take_left' rfl] at hfold
  refine ⟨u, hu, hfold, fun k hk => ?_⟩
  obtain ⟨v, hv, hfold'⟩ := h (ins.length + k) (by rw [length_append]; omega)
  refine ⟨v, hv, ?_⟩
  rw [take_length_add_append, foldlM_append, hfold] at hfold'; exact hfold'

lemma Unacked.told {out : List DecIns}
    (hout : ∀ n, .sectionAck n ∉ out) (h : Unacked unack reqs acks streamId) :
    Unacked unack reqs (acks ++ out) streamId := by
  obtain ⟨k, hfilter, hk⟩ := h
  exact ⟨k, hfilter, by rw [count_append, count_eq_zero_of_not_mem (hout streamId)]; exact hk⟩

lemma encoderBytes_inv (h : Inv maxCap s) (n : Nat) :
    ∃ ectx dec out, xqcQpackProcessEncoder s.ectx s.dec (s.toDec.take n) = some (ectx, dec, out) ∧
      Inv maxCap { s with ectx := ectx, dec := dec, toDec := s.toDec.drop n, toEnc := s.toEnc ++ out.flatMap writeDecIns } := by
  obtain ⟨pend, hitems, hfollows, hends⟩ := h.stream
  rw [← take_append_drop n s.toDec] at hitems
  obtain ⟨m, pend₁, pend₂, hone, htwo, rfl⟩ := items_split hitems
  obtain ⟨u, hu, hfold, hrest⟩ := Follows.split hfollows
  rw [foldlM_append, hfold] at hends
  have hlater := (h.past.2 u hu).1
  unfold xqcQpackProcessEncoder; rw [process_eq, hone, Option.bind_some, hfold]
  refine ⟨_, _, _, rfl, ?_⟩
  obtain ⟨acks, hacks, hcancel, hunacked⟩ := h.acks
  -- at most one increment is sent
  generalize hout : (if (plain u).insertCnt > s.dec.dtable.insertCnt then
    [DecIns.icntIncrement ((plain u).insertCnt - s.dec.dtable.insertCnt)] else []) = out
  have hmem : ∀ i ∈ out, ∃ k ≤ intMax, i = .icntIncrement k := by
    intro i hi; rw [← hout] at hi
    split at hi
    · refine ⟨_, ?_, mem_singleton.mp hi⟩
      have := hlater.count
      have := h.count
      rw [plain_insertCnt]; omega
    · exact (not_mem_nil hi).elim
  have hgrows : s.dec.dtable.insertCnt ≤ (plain u).insertCnt := by
    obtain ⟨t, -, htab, -, hok⟩ := h.dec_table
    exact onEncoderIns_counts pend₁ (by rw [htab]; exact plain_ok hok) hfold
  exact
    { h with
      stream := ⟨pend₂, htwo, hrest, hends⟩
      acks := by
        refine ⟨acks ++ out, items_written hacks fun i hi => ?_, fun k hk => ?_,
          fun streamId => (hunacked streamId).told fun k hk => ?_⟩
        · obtain ⟨k, hk, rfl⟩ := hmem i hi
          exact decIns_round hk
        · rcases mem_append.mp hk with hk | hk
          · exact hcancel k hk
          · obtain ⟨_, -, heq⟩ := hmem _ hk
            cases heq
        · obtain ⟨_, -, heq⟩ := hmem _ hk
          cases heq
      reqs := fun r hr => (h.reqs r hr).later rfl hgrows (.refl _) fun htodo idx hidx => (h.inTable hr htodo hidx).1 }

/-! ## Bytes of a section -/

structure Moved (r r' : Req H) : Prop where
  streamId : r'.streamId = r.streamId
  hdrs : r'.hdrs = r.hdrs
  fs : r'.fs = r.fs

lemma mine_moved {r r' : Req H} (hm : Moved r r') (streamId : Nat) (before behind : List (Req H)) :
    (mine streamId (before ++ r' :: behind)).map secOf = (mine streamId (before ++ r :: behind)).map secOf := by
  have hsec : secOf r' = secOf r := by
    unfold secOf; rw [hm.streamId, hm.fs]
  unfold mine
  rw [filter_append, filter_append, filter_cons, filter_cons, hm.streamId, hm.fs]; split
  · simp [hsec]
  · rfl

lemma countP_moved {r r' : Req H} (hm : Moved r r') (htodo : r.todo ≠ []) (streamId : Nat) (before behind : List (Req H)) :
    (mine streamId (before ++ r' :: behind)).countP Req.isDone =
      (mine streamId (before ++ r :: behind)).countP Req.isDone +
        if r.streamId = streamId ∧ r.fs.ric ≠ 0 ∧ r'.todo = [] then 1 else 0 := by
  have hr : r.isDone = false := decide_eq_false htodo
  unfold mine
  rw [filter_append, filter_append, filter_cons, filter_cons, hm.streamId, hm.fs, countP_append,
    countP_append]
  by_cases hc : r.streamId = streamId ∧ r.fs.ric ≠ 0
  · rw [if_pos (decide_eq_true hc), if_pos (decide_eq_true hc), countP_cons, countP_cons, hr]
    by_cases hnil : r'.todo = []
    · simp [Req.isDone, hc, hnil]
      omega
    · simp [Req.isDone, hnil]
  · rw [if_neg (by simpa using hc), if_neg (by simpa using hc), if_neg (fun h => hc ⟨h.1, h.2.1⟩)]
    rfl

lemma Inv.decodes (hinv : H.Inverts) (h : Inv maxCap s) (hr : r ∈ s.reqs) (htodo : r.todo ≠ []) (hn : n ≠ 0) :
    ∃ d, decHeaderLoop s.dec r.ctx r.out (r.todo.take n) = some d ∧
      Left s.dec.maxEnts r.fs s.dec.dtable.insertCnt (r.todo.drop n) d := by
  have hok := h.reqs r hr
  exact decHeaderLoop_reads (r.todo.take n) (r.todo.drop n) hinv hok.some hok.fits (h.near hr htodo) (h.saves hr htodo)
    (by simp [hn, htodo]) (by rw [take_append_drop]; exact hok.reads)

lemma request_inv (hinv : H.Inverts) (h : Inv maxCap s) {before behind : List (Req H)} (hreqs : s.reqs = before ++ r :: behind)
    (htodo : r.todo ≠ []) (hn : n ≠ 0) (hbefore : ∀ q ∈ before, q.streamId = r.streamId → q.todo = []) {fin : Bool}
    (hfin : fin = true → r.todo.length ≤ n) {d : Decoded H}
    (hdec : xqcQpackDecHeaders s.dec r.streamId r.ctx r.out (r.todo.take n) fin = some (d, acks)) :
    Inv maxCap { s with
      reqs := before ++ { r with todo := d.rest ++ r.todo.drop n, ctx := d.ctx, out := d.hdrs } :: behind
      toEnc := s.toEnc ++ acks.flatMap writeDecIns } := by
  have hr : r ∈ s.reqs := by simp [hreqs]
  have hok := h.reqs r hr
  obtain ⟨d', hloop, hleft⟩ := h.decodes hinv hr htodo hn
  unfold xqcQpackDecHeaders at hdec; rw [hloop] at hdec
  obtain ⟨rfl, hacks⟩ := Prod.mk.inj (Option.some.inj hdec)
  -- an acknowledgement goes with the last byte of a section that needs insertions
  have hack : acks = [] ∨ acks = [.sectionAck r.streamId] ∧ r.fs.ric ≠ 0 ∧ d'.rest ++ r.todo.drop n = [] := by
    rw [← hacks]; split
    · rename_i hall
      obtain ⟨⟨hb, hf⟩, hric⟩ : (d'.blocked = false ∧ fin = true) ∧ 0 < xqcRepGetRic d'.ctx := by simpa using hall
      have hnil : d'.rest ++ r.todo.drop n = [] := by
        rw [hleft.rest hb, drop_of_length_le (hfin hf)]; rfl
      have hreads := hleft.reads
      rw [hnil] at hreads
      rw [hreads.nil.1] at hric; exact .inr ⟨rfl, by omega, hnil⟩
    · exact .inl rfl
  generalize hr' : ({ r with todo := d'.rest ++ r.todo.drop n, ctx := d'.ctx, out := d'.hdrs } : Req H) = r'
  have hmoved : Moved r r' := by
    rw [← hr']; exact ⟨rfl, rfl, rfl⟩
  have hdone : r'.todo = d'.rest ++ r.todo.drop n := by rw [← hr']
  have hold : ∀ q ∈ before ++ r' :: behind, q = r' ∨ q ∈ s.reqs := by
    intro q hq; rw [hreqs]
    rcases mem_append.mp hq with hq | hq
    · exact .inr (mem_append_left _ hq)
    · rcases mem_cons.mp hq with rfl | hq
      · exact .inl rfl
      · exact .inr (mem_append_right _ (mem_cons_of_mem _ hq))
  exact
    { h with
      acks := by
        obtain ⟨acks₀, hitems, hcancel, hunacked⟩ := h.acks
        refine ⟨acks₀ ++ acks, items_written hitems fun i hi => ?_, fun k hk => ?_, fun streamId => ?_⟩
        · rcases hack with rfl | ⟨rfl, -, -⟩
          · exact (not_mem_nil hi).elim
          · rw [mem_singleton.mp hi]; exact decIns_round hok.stream
        · rcases mem_append.mp hk with hk | hk
          · exact hcancel k hk
          · rcases hack with rfl | ⟨rfl, -, -⟩
            · exact not_mem_nil hk
            · cases mem_singleton.mp hk
        · obtain ⟨k, hfilter, hk⟩ := hunacked streamId
          rw [hreqs] at hfilter hk
          refine ⟨k, by rw [mine_moved hmoved]; exact hfilter, ?_⟩
          rw [countP_moved hmoved htodo, count_append]
          rcases hack with rfl | ⟨rfl, hric, hnil⟩
          · rw [count_nil]; omega
          · by_cases hs : r.streamId = streamId
            · subst hs; rw [if_pos ⟨rfl, hric, hdone.trans hnil⟩, count_singleton_self]; omega
            · rw [count_singleton, if_neg (by simpa using hs)]; omega
      order := by
        have horder := h.order
        rw [hreqs] at horder
        obtain ⟨hfirst, hlast, hcross⟩ := pairwise_append.mp horder
        obtain ⟨hhead, htail⟩ := pairwise_cons.mp hlast
        refine pairwise_append.mpr ⟨hfirst, pairwise_cons.mpr ⟨fun b hb hs hnil => ?_, htail⟩, fun a ha b hb => ?_⟩
        · exact absurd (hhead b hb (hmoved.streamId.symm.trans hs) hnil) htodo
        · rcases mem_cons.mp hb with rfl | hb
          · exact fun hs _ => hbefore a ha (hs.trans hmoved.streamId)
          · exact hcross a ha b (mem_cons_of_mem _ hb)
      reqs := by
        intro q hq
        rcases hold q hq with rfl | hq
        · exact
            { hdrs := by rw [hmoved.hdrs, hmoved.fs]; exact hok.hdrs
              some := by rw [hmoved.fs]; exact hok.some
              stream := by rw [hmoved.streamId]; exact hok.stream
              fits := by rw [hmoved.fs]; exact hok.fits
              counts := by rw [hmoved.fs]; exact hok.counts
              reads := by rw [← hr']; exact hleft.reads
              below := by rw [hmoved.fs]; exact hok.below
              done := by rw [hmoved.fs, hdone]; exact hleft.done
              names := by rw [hmoved.fs]; exact fun _ => hok.names htodo }
        · exact (h.reqs q hq).later rfl le_rfl (.refl _) fun htodo idx hidx => (h.inTable hq htodo hidx).1
      fresh := by
        intro idx hidx
        obtain ⟨q, hq, hmem⟩ := h.fresh idx hidx
        rw [hreqs] at hq
        rcases mem_append.mp hq with hq | hq
        · exact ⟨q, mem_append_left _ hq, hmem⟩
        · rcases mem_cons.mp hq with rfl | hq
          · exact ⟨r', by simp, by rw [hmoved.fs]; exact hmem⟩
          · exact ⟨q, mem_append_right _ (mem_cons_of_mem _ hq), hmem⟩ }

/-! ## A new section -/

variable {enc₁ enc₂ : Encoder} {ls : List Line} {fs : FieldSection}

/-- What `xqcEncoderEncHeaders` does behind the preparation. -/
lemma encHeaders_prepared {ins' : List EncIns}
    {efs : Option Efs} (hne : ls ≠ []) (hprep : xqcEncoderPrepare enc streamId ls = .ok (enc₁, fs, ins))
    (h : xqcEncoderEncHeaders enc streamId ls = .ok (enc₂, efs, ins')) :
    enc₂.dtable = enc₁.dtable ∧ enc₂.maxEntries = enc₁.maxEntries ∧
      enc₂.unack = enc₁.unack ++ if fs.ric ≠ 0 then [⟨streamId, fs.minRef, fs.ric, fs.refs⟩] else [] := by
  rw [xqcEncoderEncHeaders, if_neg hne, hprep] at h; cases h
  have hsaved : (xqcEncoderSaveUnacked enc₁ streamId fs).dtable = enc₁.dtable ∧
      (xqcEncoderSaveUnacked enc₁ streamId fs).maxEntries = enc₁.maxEntries ∧
      (xqcEncoderSaveUnacked enc₁ streamId fs).unack =
        enc₁.unack ++ if fs.ric ≠ 0 then [⟨streamId, fs.minRef, fs.ric, fs.refs⟩] else [] := by
    unfold xqcEncoderSaveUnacked; split
    · exact ⟨rfl, rfl, rfl⟩
    · exact ⟨rfl, rfl, (append_nil _).symm⟩
  split
  · unfold xqcEncoderAddBlockedStream
    split <;> exact hsaved
  · exact hsaved

lemma mine_append (streamId : Nat) (reqs : List (Req H)) (r : Req H) :
    mine streamId (reqs ++ [r]) = mine streamId reqs ++ if r.streamId = streamId ∧ r.fs.ric ≠ 0 then [r] else [] := by
  unfold mine; rw [filter_append, filter_singleton]
  simp

lemma Unacked.sent (r : Req H)
    (h : Unacked unack reqs acks streamId) :
    Unacked (unack ++ if r.fs.ric ≠ 0 then [secOf r] else []) (reqs ++ [r]) acks streamId := by
  obtain ⟨k, hfilter, hk⟩ := h
  have hle : k ≤ ((mine streamId reqs).map secOf).length := by
    have := countP_le_length (p := Req.isDone) (l := mine streamId reqs)
    rw [length_map]; omega
  refine ⟨k, ?_, ?_⟩
  · rw [mine_append, map_append, drop_append_of_le_length hle, filter_append, hfilter]
    by_cases hric : r.fs.ric = 0
    · simp [hric]
    · by_cases hs : r.streamId = streamId
      · simp [hric, hs, secOf]
      · simp [hric, hs, secOf]
  · rw [mine_append, countP_append]; omega

lemma Follows.of_plain {u v : Table} {ts' : List Table} (h : Follows t ins (u :: ts)) (hv : v ∈ ts')
    (heq : plain v = plain u) (hsub : ∀ w ∈ ts, w ∈ ts') : Follows t ins ts' := by
  intro k hk
  obtain ⟨w, hw, hfold⟩ := h k hk
  rcases mem_cons.mp hw with rfl | hw
  · exact ⟨v, hv, by rw [heq]; exact hfold⟩
  · exact ⟨w, hsub w hw, hfold⟩

lemma writeEfs_ents {m : Nat} (h : fs.ric ≠ 0 → n = m) :
    writeEfs H n (xqcEncoderWriteEfs fs) = writeEfs H m (xqcEncoderWriteEfs fs) := by
  by_cases hric : fs.ric = 0
  · show xqcRepWritePrefix n fs.ric _ ++ _ = xqcRepWritePrefix m fs.ric _ ++ _
    rw [xqcRepWritePrefix, xqcRepWritePrefix, xqcRepEncodeRicnt, xqcRepEncodeRicnt, if_pos hric, if_pos hric]
  · rw [h hric]

lemma newReq_ok (s' : Sys H) (hmax : maxCap ≤ intMax) (h : Inv maxCap s) (hcan : CanEncode s.enc streamId ls) {limited : Bool}
    (hgoing : Going enc fs)
    (hp : Prepared limited s.enc (xqcEncoderCreateFsInfo s.enc) ls enc fs ins) (hdec : s'.dec = s.dec)
    (hdt : s'.enc.dtable = enc.dtable) :
    ReqOk s' (newReq H s.enc.maxEntries streamId ls fs) ∧ (newReq H s.enc.maxEntries streamId ls fs).todo ≠ [] := by
  have hcount : enc.dtable.insertCnt ≤ intMax := hp.count.trans hcan.count
  have hcounts : Counts fs := hp.counts ⟨fun _ hidx => (not_mem_nil hidx).elim, fun hric => absurd rfl hric⟩
  have hnames := hp.names fun _ hi => (not_mem_nil hi).elim
  have hbase : fs.base ≤ intMax := by
    rw [hp.base]; exact h.count
  have hhdrs : fs.infos.map Info.hdr = ls.map Line.hdr := hp.hdrs
  have hidx : ∀ idx ∈ fs.refs, idx < enc.dtable.insertCnt := hgoing.below
  have hric : fs.ric ≠ 0 → s.enc.maxEntries = s.dec.maxEnts ∧ s.dec.maxEnts ≠ 0 := by
    intro hric
    obtain ⟨hfirst, hlast⟩ := hgoing.inTable (hcounts.2 hric)
    have hlen := length_le_capacity hgoing.ok
    rw [hp.capacity] at hlen
    have hcap := h.cap
    have hpos : s.enc.maxEntries ≠ 0 := by
      unfold Table.insertCnt at hlast
      omega
    exact ⟨h.same hpos, h.same hpos ▸ hpos⟩
  have hfits : Fits s.dec.maxEnts fs := by
    refine ⟨?_, hbase, ?_, fun i hi => ?_⟩
    · rw [h.ents, DynTable.xqcDtableMaxEntryCnt, DynTable.entrySizeBase]; omega
    · by_cases hzero : fs.ric = 0
      · omega
      · have := hidx _ (hcounts.2 hzero); omega
    · have hmem : i.hdr ∈ ls.map Line.hdr := hhdrs ▸ mem_map_of_mem hi
      obtain ⟨l, hl, heq⟩ := mem_map.mp hmem
      refine repFits_repOf (hnames i hi) hbase (fun idx hi' => ?_) (heq ▸ (hcan.lines l hl).2.1)
      have := hidx idx (mem_filterMap.mpr ⟨i, hi, hi'⟩); omega
  have hfields : ls.map Line.field = fs.infos.map Info.field := by
    have heq := congrArg (List.map fun hdr : Header => (hdr.name, hdr.value)) hhdrs
    rw [map_map, map_map] at heq; exact heq.symm
  have hsome : fs.infos ≠ [] := by
    intro hnil; rw [hnil] at hfields
    exact hcan.some (map_eq_nil_iff.mp hfields)
  have hreads : Reads s.dec.maxEnts fs (xqcRepCtxClear H) [] (writeEfs H s.enc.maxEntries (xqcEncoderWriteEfs fs)) := by
    rw [writeEfs_ents fun hne => (hric hne).1]
    exact reads_written hfits fun hne => (hric hne).2
  have htodo : writeEfs H s.enc.maxEntries (xqcEncoderWriteEfs fs) ≠ [] := by
    intro hnil; rw [hnil] at hreads
    exact hsome (map_eq_nil_iff.mp hreads.nil.2.symm)
  exact ⟨⟨hfields, hsome, hcan.stream, by rw [hdec]; exact hfits, hcounts, by rw [hdec]; exact hreads,
    by rw [hdt]; exact hidx, fun hnil => absurd hnil htodo, by rw [hdt]; exact fun _ => hnames⟩, htodo⟩

lemma encode_inv (hinv : H.Inverts) (hmax : maxCap ≤ intMax) (h : Inv maxCap s)
    (hcan : CanEncode s.enc streamId ls) {efs : Option Efs}
    (hprep : xqcEncoderPrepare s.enc streamId ls = .ok (enc₁, fs, ins))
    (henc : xqcEncoderEncHeaders s.enc streamId ls = .ok (enc₂, efs, ins)) :
    Inv maxCap { s with
      enc := enc₂, toDec := s.toDec ++ ins.flatMap (writeEncIns H)
      reqs := s.reqs ++ [newReq H s.enc.maxEntries streamId ls fs]
      past := s.past ++
        prepareTrace (xqcEncoderCheckBlockStreamLimit s.enc streamId) s.enc (xqcEncoderCreateFsInfo s.enc) ls } := by
  obtain ⟨hdt, hents, hunack⟩ := encHeaders_prepared hcan.some hprep henc
  have hgood := encHeaders_good h.good hcan.looks henc
  obtain ⟨hgoing, hkept⟩ := h.good.prepared hcan.looks hprep
  obtain ⟨enc', fs', ins', hloop, -, hprepared⟩ := prepareLoop_prepared ls [] h.good.going hcan.count hcan.looks hcan.lines
  obtain ⟨rfl, rfl, rfl⟩ : enc₁ = enc' ∧ fs = fs' ∧ ins = ins' := by
    have heq := hprep.symm.trans hloop
    cases heq; exact ⟨rfl, rfl, rfl⟩
  rw [show enc₁.maxEntries = s.enc.maxEntries by rw [hkept.1]] at hents
  rw [show enc₁.unack = s.enc.unack by rw [hkept.1]] at hunack
  have hlater : Later s.enc.dtable enc₂.dtable := by
    rw [hdt]; exact hprepared.later
  generalize hs' : ({ s with
      enc := enc₂, toDec := s.toDec ++ ins.flatMap (writeEncIns H)
      reqs := s.reqs ++ [newReq H s.enc.maxEntries streamId ls fs]
      past := s.past ++
        prepareTrace (xqcEncoderCheckBlockStreamLimit s.enc streamId) s.enc (xqcEncoderCreateFsInfo s.enc) ls } : Sys H) = s'
  obtain ⟨hnew, htodo⟩ := newReq_ok s' hmax h hcan hgoing hprepared (by rw [← hs']) (by rw [← hs']; exact hdt)
  obtain ⟨hfirst, htail⟩ := pairwise_cons.mp hprepared.trace.1
  subst hs'
  refine
    { h with
      good := hgood
      count := ?_, cap := ?_, same := ?_, unset := ?_, past := ?_, stream := ?_, acks := ?_, order := ?_, reqs := ?_,
        fresh := ?_ }
  · show enc₂.dtable.insertCnt ≤ intMax; rw [hdt]; exact hprepared.count.trans hcan.count
  · show enc₂.dtable.capacity / _ ≤ enc₂.maxEntries
    rw [hdt, hprepared.capacity, hents]; exact h.cap
  · show enc₂.maxEntries ≠ 0 → enc₂.maxEntries = _; rw [hents]; exact h.same
  · intro hc; rw [hdt, hprepared.capacity]; exact h.unset hc
  · refine ⟨pairwise_append.mpr ⟨h.past.1, htail, fun a ha b hb => (h.past.2 a ha).1.trans (hfirst b hb)⟩, fun t ht => ?_⟩
    rcases mem_append.mp ht with ht | ht
    · exact ⟨(h.past.2 t ht).1.trans hlater, (h.past.2 t ht).2⟩
    · rw [hdt]; exact hprepared.trace.2 t (mem_cons_of_mem _ ht)
  · obtain ⟨pend, hitems, hfollows, hends⟩ := h.stream
    obtain ⟨t, ht, hfold⟩ := hfollows pend.length le_rfl
    rw [take_length, hends] at hfold
    refine ⟨pend ++ ins, items_written hitems fun i hi => encIns_round hinv (hprepared.fits i hi), ?_, ?_⟩
    · refine Follows.append (hfollows.mono fun u hu => mem_append_left _ hu) hends ?_
      exact Follows.of_plain hprepared.follows (mem_append_left _ ht) (Option.some.inj hfold).symm
        fun w hw => mem_append_right _ hw
    · rw [foldlM_append, hends]; rw [hdt]; exact hprepared.ends
  · obtain ⟨acks, hitems, hcancel, hunacked⟩ := h.acks
    refine ⟨acks, hitems, hcancel, fun sid => ?_⟩
    rw [hunack]; exact (hunacked sid).sent (newReq H s.enc.maxEntries streamId ls fs)
  · refine pairwise_append.mpr ⟨h.order, pairwise_singleton _ _, fun a _ b hb _ hnil => ?_⟩
    rw [mem_singleton.mp hb] at hnil; exact absurd hnil htodo
  · intro q hq
    rcases mem_append.mp hq with hq | hq
    · refine (h.reqs q hq).later rfl le_rfl hlater fun htodo idx hidx => ?_
      have hric : q.fs.ric ≠ 0 := by
        have := (h.reqs q hq).counts.1 idx hidx; omega
      have hmem : secOf q ∈ enc₂.unack := by
        rw [hunack]; exact mem_append_left _ (h.unacked hq htodo hric)
      exact (hgood.inTable hgood.ok hgood.ref.le le_rfl hmem hidx).1
    · rw [mem_singleton.mp hq]; exact hnew
  · intro idx hidx
    rcases Nat.lt_or_ge idx s.enc.dtable.insertCnt with hold | hge
    · obtain ⟨r, hr, hmem⟩ := h.fresh idx hold
      exact ⟨r, mem_append_left _ hr, hmem⟩
    · refine ⟨newReq H s.enc.maxEntries streamId ls fs, mem_append_right _ mem_cons_self, ?_⟩
      exact hprepared.fresh idx hge (hdt ▸ hidx)

/-! ## Settings -/

lemma setCapacity_raised {t' : Table} {cap : Nat} (h : DynTable.xqcDtableSetCapacity t cap true = (t', .ok ()))
    (hle : t.capacity ≤ cap) : t' = { t with capacity := cap } := by
  rw [DynTable.xqcDtableSetCapacity, if_neg (Nat.not_lt.mpr hle)] at h; cases h
  rfl

lemma settings_inv (hinv : H.Inverts) (hmax : maxCap ≤ intMax) (h : Inv maxCap s) (hunset : s.configured = false)
    {cap nameLenLimit entrySizeLimit : Nat} (hset : xqcEncoderSetMaxDtableCap s.enc maxCap = some enc₁)
    (hcap : xqcEncoderSetDtableCap enc₁ (min cap maxCap) true nameLenLimit entrySizeLimit = .ok enc₂) :
    Inv maxCap { s with
      enc := enc₂, toDec := s.toDec ++ writeEncIns H (.setCap (min cap maxCap)), configured := true
      past := s.past ++ [enc₂.dtable] } := by
  unfold xqcEncoderSetMaxDtableCap at hset; split at hset
  · cases hset
  cases hset
  unfold xqcEncoderSetDtableCap at hcap; split at hcap
  · cases hcap
  rename_i t hresize; cases hcap
  obtain ⟨hok, -, -, -⟩ := DynTable.setCapacity_spec h.good.ok hresize
  obtain rfl := setCapacity_raised hresize (by rw [h.unset hunset]; exact zero_le)
  have hlater : Later s.enc.dtable { s.enc.dtable with capacity := min cap maxCap } :=
    ⟨le_rfl, le_rfl, fun _ => rfl, fun _ _ _ => rfl⟩
  have hlast : xqcQpackOnEncoderIns (plain s.enc.dtable) (.setCap (min cap maxCap)) =
      some (plain { s.enc.dtable with capacity := min cap maxCap }) := by
    rw [xqcQpackOnEncoderIns, xqcDecoderSetDtableCap, DynTable.xqcDtableSetCapacity,
      if_neg (by rw [show (plain s.enc.dtable).capacity = 0 from h.unset hunset]; exact Nat.not_lt_zero _)]
    rfl
  refine
    { h with
      good := ⟨hok, h.good.ref, h.good.low, h.good.sections⟩
      cap := Nat.div_le_div_right (Nat.min_le_right _ _)
      same := fun _ => h.ents.symm
      unset := nofun
      past := ?_, stream := ?_
      reqs := fun r hr => (h.reqs r hr).later rfl le_rfl hlater fun htodo idx hidx => (h.inTable hr htodo hidx).1 }
  · refine ⟨pairwise_append.mpr ⟨h.past.1, pairwise_singleton _ _, fun a ha b hb => ?_⟩, fun t ht => ?_⟩
    · rw [mem_singleton.mp hb]; exact (h.past.2 a ha).1.trans hlater
    · rcases mem_append.mp ht with ht | ht
      · exact ⟨(h.past.2 t ht).1.trans hlater, (h.past.2 t ht).2⟩
      · rw [mem_singleton.mp ht]; exact ⟨.refl _, hok⟩
  · obtain ⟨pend, hitems, hfollows, hends⟩ := h.stream
    have hround : feed (encoderByte (H := H)) .opcode (writeEncIns H (.setCap (min cap maxCap))) =
        some (.inr (.setCap (min cap maxCap)), []) :=
      encIns_round hinv (show min cap maxCap ≤ intMax from (Nat.min_le_right _ _).trans hmax)
    refine ⟨pend ++ [.setCap (min cap maxCap)], ?_, ?_, ?_⟩
    · rw [← flatMap_singleton (writeEncIns H)]
      exact items_written hitems fun i hi => by rw [mem_singleton.mp hi]; exact hround
    · refine Follows.append (hfollows.mono fun u hu => mem_append_left _ hu) hends fun k hk => ?_
      obtain ⟨t, ht, hfold⟩ := hfollows pend.length le_rfl
      rw [take_length, hends] at hfold
      rcases Nat.eq_zero_or_pos k with rfl | hpos
      · exact ⟨t, mem_append_left _ ht, hfold⟩
      · refine ⟨_, mem_append_right _ mem_cons_self, ?_⟩
        rw [take_of_length_le hpos, foldlM_cons, hlast]; rfl
    · rw [foldlM_append, hends]
      show [EncIns.setCap (min cap maxCap)].foldlM xqcQpackOnEncoderIns (plain s.enc.dtable) = _
      rw [foldlM_cons, hlast]; rfl

/-! ## Runs -/

lemma start_inv (H : Huffman) (maxCap : Nat) : Inv maxCap (start H maxCap) where
  good := create_good
  count := zero_le
  ents := rfl
  cap := (by decide : 0 / DynTable.entrySizeBase ≤ 0)
  same := fun h => absurd rfl h
  unset := fun _ => rfl
  past := ⟨pairwise_singleton _ _, fun t ht => by rw [mem_singleton.mp ht]; exact ⟨.refl _, create_good.ok⟩⟩
  stream := ⟨[], rfl, fun k hk => ⟨_, mem_cons_self, by rw [Nat.le_zero.mp hk]; rfl⟩, rfl⟩
  acks := ⟨[], rfl, fun _ => not_mem_nil, fun _ => ⟨0, rfl, le_rfl⟩⟩
  order := .nil
  reqs := fun _ hr => (not_mem_nil hr).elim
  fresh := fun _ hidx => absurd hidx (Nat.not_lt_zero _)

lemma step_inv (hinv : H.Inverts) (hmax : maxCap ≤ intMax) (h : Inv maxCap s) {ev : Ev} (hs : step maxCap s ev s') :
    Inv maxCap s' := by
  cases ev with
  | settings cap nameLenLimit entrySizeLimit =>
    obtain ⟨hunset, enc₁, enc₂, hset, hcap, rfl⟩ := hs
    exact settings_inv hinv hmax h hunset hset hcap
  | maxBlocked n =>
    obtain rfl := hs
    obtain ⟨acks, hitems, hcancel, hunacked⟩ := h.acks
    have htold : Told s.enc (xqcEncoderSetMaxBlockedStream s.enc n) := ⟨h.good.frame rfl rfl rfl, rfl, rfl⟩
    exact h.told htold hitems hcancel hunacked
  | encode streamId ls =>
    obtain ⟨hcan, enc₁, fs, ins, enc₂, hprep, henc, rfl⟩ := hs
    exact encode_inv hinv hmax h hcan hprep henc
  | encoderBytes n =>
    obtain ⟨ectx, dec, out, hp, rfl⟩ := hs
    obtain ⟨ectx', dec', out', hp', hinv'⟩ := encoderBytes_inv h n
    cases hp.symm.trans hp'
    exact hinv'
  | decoderBytes n =>
    obtain ⟨dctx, enc, hp, rfl⟩ := hs
    exact decoderBytes_inv h hp
  | request i n fin =>
    obtain ⟨before, r, behind, d, acks, hreqs, -, htodo, hn, hbefore, hfin, hdec, rfl⟩ := hs
    exact request_inv hinv h hreqs htodo hn hbefore hfin hdec

lemma past_same (h : ts.Pairwise Later) {u : Table} (ht : t ∈ ts) (hu : u ∈ ts)
    (hcount : t.insertCnt = u.insertCnt) : t.entries = u.entries := by
  have hall : ts.Pairwise fun t u => t.insertCnt = u.insertCnt → t.entries = u.entries :=
    h.imp fun hlater heq => (hlater.same heq.symm).symm
  have hsymm : Std.Symm fun t u : Table => t.insertCnt = u.insertCnt → t.entries = u.entries :=
    ⟨fun _ _ hab heq => (hab heq.symm).symm⟩
  exact hall.forall_of_forall (fun _ _ _ => rfl) ht hu hcount

/-- In every state the decoder's table is that of the encoder after as many insertions, and
    agrees with the encoder's present one in all entries that are still there. No header list
    fails to be encoded, and no piece of the encoder stream or of a section to be read. A
    section whose required insert count is reached is not blocked; its last piece gives the
    headers that were encoded. -/
theorem sections_arrive (hinv : H.Inverts) (maxCap : Nat) (hmax : maxCap ≤ intMax) (evs : List Ev) (s : Sys H)
    (h : Run (step maxCap) (start H maxCap) evs s) :
    ((∃ t ∈ s.past, t.insertCnt = s.dec.dtable.insertCnt) ∧ ∀ t ∈ s.past, t.insertCnt = s.dec.dtable.insertCnt →
      s.dec.dtable.firstIdx = t.firstIdx ∧ s.dec.dtable.entries = t.entries) ∧
    (∀ idx, s.enc.dtable.firstIdx ≤ idx → idx < s.dec.dtable.insertCnt →
      DynTable.xqcDtableGetEntryByAbsIdx s.dec.dtable idx = DynTable.xqcDtableGetEntryByAbsIdx s.enc.dtable idx) ∧
    (∀ streamId ls, CanEncode s.enc streamId ls → ∃ s', step maxCap s (.encode streamId ls) s') ∧
    (∀ n, ∃ s', step maxCap s (.encoderBytes n) s') ∧
    ∀ r ∈ s.reqs, (r.todo = [] → r.out = r.hdrs) ∧ ∀ n ≠ 0, r.todo ≠ [] → ∀ fin, ∃ d acks,
      xqcQpackDecHeaders s.dec r.streamId r.ctx r.out (r.todo.take n) fin = some (d, acks) ∧
      (r.fs.ric ≤ s.dec.dtable.insertCnt → d.blocked = false ∧ d.rest = [] ∧ (r.todo.length ≤ n → d.hdrs = r.hdrs)) := by
  have hI : Inv maxCap s := h.inv (P := Inv maxCap) (fun _ _ _ hi hs => step_inv hinv hmax hi hs) (start_inv H maxCap)
  refine ⟨⟨?_, fun t ht hcount => ?_⟩, fun idx hin hlt => hI.entry hin hlt, fun streamId ls hcan => ?_, fun n => ?_,
    fun r hr => ⟨fun hnil => ?_, fun n hn htodo fin => ?_⟩⟩
  · obtain ⟨t, ht, htab, -, -⟩ := hI.dec_table
    exact ⟨t, ht, by rw [htab]; rfl⟩
  · obtain ⟨u, hu, htab, -, -⟩ := hI.dec_table
    rw [htab] at hcount ⊢
    have hentries : t.entries = u.entries := past_same hI.past.1 ht hu hcount
    have hcount : t.firstIdx + t.entries.length = u.firstIdx + u.entries.length := hcount
    rw [hentries] at hcount; exact ⟨(Nat.add_right_cancel hcount).symm, hentries.symm⟩
  · obtain ⟨enc₁, fs, ins, hloop, -, -⟩ := prepareLoop_prepared ls [] hI.good.going hcan.count hcan.looks hcan.lines
    have hprep : xqcEncoderPrepare s.enc streamId ls = .ok (enc₁, fs, ins) := hloop
    obtain ⟨enc₂, henc⟩ : ∃ enc₂, xqcEncoderEncHeaders s.enc streamId ls = .ok (enc₂, some (xqcEncoderWriteEfs fs), ins) := by
      rw [xqcEncoderEncHeaders, if_neg hcan.some, hprep]; exact ⟨_, rfl⟩
    exact ⟨_, hcan, enc₁, fs, ins, enc₂, hprep, henc, rfl⟩
  · obtain ⟨ectx, dec, out, hp, -⟩ := encoderBytes_inv hI n
    exact ⟨_, ectx, dec, out, hp, rfl⟩
  · have hok := hI.reqs r hr
    have hreads := hok.reads
    rw [hnil] at hreads; exact hreads.nil.2.trans hok.hdrs.symm
  · obtain ⟨d, hloop, hleft⟩ := hI.decodes hinv hr htodo hn
    refine ⟨d, _, by rw [xqcQpackDecHeaders, hloop]; rfl, fun hric => ?_⟩
    have hb : d.blocked = false := by
      cases hblocked : d.blocked with
      | false => rfl
      | true => exact absurd (hleft.blocked hblocked) (Nat.not_lt.mpr hric)
    refine ⟨hb, hleft.rest hb, fun hlen => ?_⟩
    have hreads := hleft.reads
    rw [hleft.rest hb, drop_of_length_le hlen] at hreads
    exact hreads.nil.2.trans (hI.reqs r hr).hdrs.symm

def byteCode : Huffman := ⟨Unit, (), fun _ b => some ((), [b]), fun _ => true, id⟩

lemma byteCode_inverts : byteCode.Inverts := by
  have hall : ∀ str, byteCode.decAll () str = some ((), str) := by
    intro str
    induction str with
    | nil => rfl
    | cons b bs ih => show Option.map _ (byteCode.decAll () bs) = _; rw [ih]; rfl
  exact fun str => ⟨(), hall str, rfl⟩

def oneSection : FieldSection := ⟨0, 1, 0, [⟨oneLine.hdr, .dtable true 0, false⟩]⟩

def sentSys : Sys byteCode :=
  { start byteCode 4096 with
    enc := sentOne
    toDec := writeEncIns byteCode (.setCap 4096) ++ writeEncIns byteCode (.insertLiteral [120] [49])
    reqs := [newReq byteCode 128 0 [oneLine] oneSection]
    configured := true
    past := [DynTable.xqcDtableCreate, configured.dtable, sentOne.dtable] }

lemma sentSys_run : Run (step 4096) (start byteCode 4096) [.maxBlocked 16, .settings 4096 256 3072, .encode 0 [oneLine]]
    sentSys := by
  have hcan : CanEncode configured 0 [oneLine] := by
    refine ⟨by simp, zero_le, ?_, by decide, ⟨trivial, fun _ _ _ _ => trivial⟩⟩
    intro l hl; rw [mem_singleton.mp hl]
    exact ⟨by decide, ⟨by decide, by decide⟩, rfl⟩
  have hblocked : Run (step 4096) (start byteCode 4096) [.maxBlocked 16]
      { start byteCode 4096 with enc := { xqcEncoderCreate with maxBlockedStream := 16 } } := Run.nil.snoc rfl
  have hset : step (H := byteCode) 4096 { start byteCode 4096 with enc := { xqcEncoderCreate with maxBlockedStream := 16 } }
      (.settings 4096 256 3072) { start byteCode 4096 with
        enc := configured, toDec := writeEncIns byteCode (.setCap 4096), configured := true
        past := [DynTable.xqcDtableCreate, configured.dtable] } :=
    ⟨rfl, _, configured, rfl, by decide, rfl⟩
  have hsent : step (H := byteCode) 4096 { start byteCode 4096 with
        enc := configured, toDec := writeEncIns byteCode (.setCap 4096), configured := true
        past := [DynTable.xqcDtableCreate, configured.dtable] } (.encode 0 [oneLine]) sentSys := by
    have htrace : prepareTrace (xqcEncoderCheckBlockStreamLimit configured 0) configured (xqcEncoderCreateFsInfo configured)
        [oneLine] = [sentOne.dtable] := by decide +kernel
    refine ⟨hcan, { configured with dtable := sentOne.dtable }, oneSection, [.insertLiteral [120] [49]], sentOne,
      by decide +kernel, by decide +kernel, ?_⟩
    rw [htrace]; rfl
  exact (hblocked.snoc hset).snoc hsent

/-- Once the encoder stream has arrived the section is read, and gives the field. -/
theorem one_section_arrives : ∃ s : Sys byteCode, Run (step 4096) (start byteCode 4096)
    [.maxBlocked 16, .settings 4096 256 3072, .encode 0 [oneLine], .encoderBytes 100] s ∧
      ∃ r ∈ s.reqs, ∃ d acks, xqcQpackDecHeaders s.dec r.streamId r.ctx r.out (r.todo.take 100) true = some (d, acks) ∧
        d.hdrs = [([120], [49])] := by
  have hcount : (xqcQpackProcessEncoder sentSys.ectx sentSys.dec (sentSys.toDec.take 100)).map (fun p => p.2.1.dtable.insertCnt) =
      some 1 := by decide
  obtain ⟨⟨ectx, dec, out⟩, hp, hcount⟩ := Option.map_eq_some_iff.mp hcount
  obtain ⟨s, hstep, hcount, hreqs⟩ : ∃ s', step 4096 sentSys (.encoderBytes 100) s' ∧ s'.dec.dtable.insertCnt = 1 ∧
      s'.reqs = sentSys.reqs := ⟨_, ⟨ectx, dec, out, hp, rfl⟩, hcount, rfl⟩
  have hrun := sentSys_run.snoc hstep
  have hmem : newReq byteCode 128 0 [oneLine] oneSection ∈ s.reqs := by
    rw [hreqs]; exact mem_cons_self
  obtain ⟨-, -, -, -, hall⟩ := sections_arrive byteCode_inverts 4096 (by decide) _ _ hrun
  obtain ⟨d, acks, hdec, hdone⟩ := (hall _ hmem).2 100 (by decide) (by decide) true
  exact ⟨s, hrun, _, hmem, d, acks, hdec, (hdone hcount.ge).2.2 (by decide)⟩

/-- The encoder is ahead of the decoder by entries that its table still has. A section that is not decoded is known to it
    and keeps what it refers to; once the encoder stream is delivered the tables are the same and it can be decoded. -/
theorem sections_on_their_way_are_held (hinv : H.Inverts) (maxCap : Nat) (hmax : maxCap ≤ intMax) (evs : List Ev) (s : Sys H)
    (h : Run (step maxCap) (start H maxCap) evs s) :
    s.enc.dtable.insertCnt ≤ s.dec.dtable.insertCnt + s.enc.dtable.entries.length ∧
    (s.toDec = [] → s.dec.dtable = plain s.enc.dtable) ∧
    ∀ r ∈ s.reqs, r.todo ≠ [] → (r.fs.ric ≠ 0 → secOf r ∈ s.enc.unack) ∧ (∀ idx ∈ r.fs.refs, InTable s.enc.dtable idx) ∧
      (s.toDec = [] → ∀ fin, ∃ d acks, xqcQpackDecHeaders s.dec r.streamId r.ctx r.out r.todo fin = some (d, acks) ∧
        d.blocked = false ∧ d.hdrs = r.hdrs) := by
  have hI : Inv maxCap s := h.inv (P := Inv maxCap) (fun _ _ _ hi hs => step_inv hinv hmax hi hs) (start_inv H maxCap)
  have htable : s.toDec = [] → s.dec.dtable = plain s.enc.dtable := by
    intro hd
    obtain ⟨pend, hitems, -, hends⟩ := hI.stream
    rw [hd] at hitems
    obtain rfl : [] = pend := congrArg Prod.snd (Option.some.inj hitems)
    exact Option.some.inj hends
  refine ⟨hI.behind, htable, fun r hr htodo =>
    ⟨hI.unacked hr htodo, fun idx hidx => hI.inTable hr htodo hidx, fun hd fin => ?_⟩⟩
  have hok := hI.reqs r hr
  obtain ⟨d, hloop, hleft⟩ := hI.decodes hinv hr htodo (n := r.todo.length) (by simpa using htodo)
  rw [take_length] at hloop; rw [drop_length] at hleft
  have hb : d.blocked = false := by
    by_contra hblocked
    -- the entry that a section needs last is in the encoder's table
    have hlt := hleft.blocked (by simpa using hblocked)
    have hbelow := hok.below _ (hok.counts.2 (by omega))
    rw [htable hd, plain_insertCnt] at hlt; omega
  have hreads := hleft.reads
  rw [hleft.rest hb] at hreads
  exact ⟨d, _, by rw [xqcQpackDecHeaders, hloop]; rfl, hb, hreads.nil.2.trans hok.hdrs.symm⟩

theorem one_section_is_held : ∃ s : Sys byteCode, step 4096 sentSys (.encoderBytes 100) s ∧
    s.dec.dtable = plain sentOne.dtable := by
  have hall : (xqcQpackProcessEncoder sentSys.ectx sentSys.dec (sentSys.toDec.take 100)).isSome := by decide
  obtain ⟨⟨ectx, dec, out⟩, hp⟩ := Option.isSome_iff_exists.mp hall
  have hstep : step 4096 sentSys (.encoderBytes 100) _ := ⟨ectx, dec, out, hp, rfl⟩
  exact ⟨_, hstep, (sections_on_their_way_are_held byteCode_inverts 4096 (by decide) _ _ (sentSys_run.snoc hstep)).2.1 rfl⟩

/-! ## The required insert count -/

/-- In every state the remainder of a section's required insert count and the decoder's
    insertions tell the count. No stream is cancelled, since this decoder never says so. -/
theorem insert_count_is_read_back (hinv : H.Inverts) (maxCap : Nat) (hmax : maxCap ≤ intMax) (evs : List Ev) (s : Sys H)
    (h : Run (step maxCap) (start H maxCap) evs s) (r : Req H) (hr : r ∈ s.reqs) (htodo : r.todo ≠ []) :
    xqcRepReconstructRic s.dec.maxEnts s.dec.dtable.insertCnt (xqcRepEncodeRicnt s.enc.maxEntries r.fs.ric) =
      some r.fs.ric := by
  have hI : Inv maxCap s := h.inv (P := Inv maxCap) (fun _ _ _ hi hs => step_inv hinv hmax hi hs) (start_inv H maxCap)
  by_cases hric : r.fs.ric = 0
  · rw [hric]; rfl
  · rw [hI.maxEntries hr htodo hric]; exact reconstructRic_round (hI.near hr htodo)

theorem the_first_count_is_read_back : ∃ r ∈ sentSys.reqs, r.fs.ric = 1 ∧
    xqcRepReconstructRic sentSys.dec.maxEnts 0 (xqcRepEncodeRicnt 128 r.fs.ric) = some r.fs.ric :=
  ⟨_, mem_cons_self, rfl, insert_count_is_read_back byteCode_inverts 4096 (by decide) _ _ sentSys_run _ mem_cons_self
    nofun⟩

/-- An encoder whose table of 63 bytes has room for one field. -/
def smallTable (t : Table) : Encoder :=
  { xqcEncoderCreate with dtable := t, maxEntries := 1, maxBlockedStream := 16, nameLenLimit := 3, entrySizeLimit := 47 }

/-- A section of the stream refers to the insertion number `n`. -/
def waiting (streamId n : Nat) (name : UInt8) : Encoder :=
  { smallTable ⟨[⟨[name], [49], 34 * n⟩], n, 63, 34, 34 * (n + 1), n⟩ with
    unack := [⟨streamId, n, n + 1, [n]⟩], minUnack := n, blockedStreamCount := 1, blocked := [⟨streamId, n + 1⟩] }

def fieldOf (name : UInt8) : Line := ⟨⟨[name], [49], false, false⟩, (.none, 0), true⟩

/-- A cancelled stream gives its entry up, though the decoder may not have it yet: the next
    insertion is too far ahead of a decoder that has none. -/
theorem cancelled_streams_lose_the_count :
    Run Encode.step xqcEncoderCreate [.setMaxDtableCap 63, .setMaxBlockedStream 16, .setDtableCap 63 true 3 47,
        .encHeaders 0 [fieldOf 120], .cancelStream 0, .encHeaders 4 [fieldOf 121]] (waiting 4 1 121) ∧
      (waiting 4 1 121).unack.map Section.ric = [2] ∧
      xqcRepReconstructRic 1 0 (xqcRepEncodeRicnt (waiting 4 1 121).maxEntries 2) = none := by
  refine ⟨?_, rfl, by decide⟩
  have hset : Run Encode.step xqcEncoderCreate [.setMaxDtableCap 63, .setMaxBlockedStream 16, .setDtableCap 63 true 3 47]
      (smallTable ⟨[], 0, 63, 0, 0, ⊤⟩) :=
    ((Run.nil.snoc rfl).snoc rfl).snoc (show _ = Except.ok (smallTable _) from rfl)
  have hsend : ∀ {t : Table} (id n : Nat) (name : UInt8), xqcEncoderEncHeaders (smallTable t) id [fieldOf name] =
      .ok (waiting id n name, some ⟨n + 1, n, [.indexedPb 0]⟩, [.insertLiteral [name] [49]]) →
      Encode.step (smallTable t) (.encHeaders id [fieldOf name]) (waiting id n name) :=
    fun _ _ _ h => ⟨⟨trivial, fun _ _ _ _ => trivial⟩, _, _, h⟩
  have hcancel : Encode.step (waiting 0 0 120) (.cancelStream 0) (smallTable ⟨[⟨[120], [49], 0⟩], 0, 63, 34, 34, ⊤⟩) :=
    rfl
  exact ((hset.snoc (hsend 0 0 120 (by decide +kernel))).snoc hcancel).snoc (hsend 4 1 121 (by decide +kernel))

end RlccQuic.Http3.Qpack
