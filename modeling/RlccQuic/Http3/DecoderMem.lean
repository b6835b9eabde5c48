/-
  RlccQuic.Http3.DecoderMem — what the encoder stream makes of the decoder's table in memory (`qpack/xqc_qpack.c`,
  `qpack/xqc_decoder.c`, `qpack/dtable/xqc_dtable.c`).

  The bytes go through the parser of `RlccQuic.Http3.Parsers` to the table of `RlccQuic.Http3.TableMem`. The allocator answers
  each instruction as it likes; an instruction that fails ends the connection. Nothing compares the capacity that the peer sets
  with the one that was offered.

  Proved: as long as the peer asks for no more than was offered and the memory moves only while it may, neither the capacity
  nor what is used passes the offer, and the next instruction passes it exactly if it sets a larger capacity
  (`table_stays_within_its_offer`); a larger capacity is set where none was offered (`any_capacity_is_set`).
-/

import RlccQuic.Http3.Parsers
import RlccQuic.Http3.TableSpace

namespace RlccQuic.Http3.DecoderMem

open Lib Prefixed Ins TableMem Parsers List
open Encode (EncIns)
open Decode (xqcBrel2abs)

/-! ## The instructions -/

structure Answer where
  alloc : Alloc
  node : Bool

def xqcDecoderNameIndex (dt : Dtable) (stable : Bool) (idx : Nat) : Option (List UInt8) :=
  if stable then (StaticTable.xqcStableGetNv idx).map Prod.fst
  else (xqcDtableGetEntryByAbsIdx dt idx).bind fun i =>
    (copyPart dt.rmem (dt.entries.buf i).nv.nidx (dt.entries.buf i).nv.nlen).toOption

def xqcDecoderSetDtableCap (dt : Dtable) (cap : Nat) (a : Answer) : Out Unit :=
  xqcDtableSetCapacity dt (UInt64.ofNat cap) a.alloc

def done (r : Out Nat) : Out Unit := (r.1, r.2.map fun _ => ())

def xqcDecoderInsertLiteral (dt : Dtable) (name value : List UInt8) (a : Answer) : Out Unit :=
  done (xqcDtableAdd dt (memOf name) (UInt64.ofNat name.length) (memOf value) (UInt64.ofNat value.length) a.node)

/-- The name that the reference is to, read before any entry goes. -/
def refName (dt : Dtable) (stable : Bool) (nidx : Nat) : Option (List UInt8) :=
  xqcDecoderNameIndex dt stable (if stable then nidx else xqcBrel2abs dt.insertCnt nidx)

def xqcDecoderInsertNameRef (dt : Dtable) (stable : Bool) (nidx : Nat) (value : List UInt8) (a : Answer) : Out Unit :=
  match refName dt stable nidx with
  | none => (dt, .error .voidEntry)
  | some name => xqcDecoderInsertLiteral dt name value a

def xqcDecoderDuplicate (dt : Dtable) (idx : Nat) (a : Answer) : Out Unit :=
  done (xqcDtableDuplicate dt (xqcBrel2abs dt.insertCnt idx) a.node)

def xqcQpackOnEncoderIns (dt : Dtable) (a : Answer) : EncIns → Out Unit
  | .setCap capacity => xqcDecoderSetDtableCap dt capacity a
  | .insertNameRef stable idx value => xqcDecoderInsertNameRef dt stable idx value a
  | .insertLiteral name value => xqcDecoderInsertLiteral dt name value a
  | .duplicate idx => xqcDecoderDuplicate dt idx a

/-! ## What an instruction does to the bounds -/

lemma pop_capacity (dt : Dtable) : (xqcDtablePopEntry dt).1.capacity = dt.capacity := by
  unfold xqcDtablePopEntry
  dsimp only
  repeat' split
  all_goals rfl

lemma popLoop_capacity (space fuel : Nat) : ∀ dt : Dtable, (popLoop space fuel dt).1.capacity = dt.capacity := by
  induction fuel with
  | zero => exact fun _ => rfl
  | succ fuel ih =>
    intro dt
    have hpop := pop_capacity dt
    unfold popLoop; split
    · split
      · rename_i hd; rw [hd] at hpop; exact hpop
      · rename_i hd; rw [hd] at hpop; exact (ih _).trans hpop
    · rfl

lemma makeSpace_capacity (dt : Dtable) (space : Nat) : (xqcDtableMakeSpace dt space).1.capacity = dt.capacity := by
  unfold xqcDtableMakeSpace
  repeat' split
  all_goals first | rfl | exact popLoop_capacity _ _ _

lemma enqueueNv_capacity (dt : Dtable) (i : Nat) (name : Cursor.Mem) (nlen : UInt64) (value : Cursor.Mem) (vlen : UInt64) :
    (xqcDtableEnqueueNv dt i name nlen value vlen).1.capacity = dt.capacity := by
  unfold xqcDtableEnqueueNv
  dsimp only
  repeat' split
  all_goals rfl

section Add

variable (dt : Dtable) (name : Cursor.Mem) (nlen : UInt64) (value : Cursor.Mem) (vlen : UInt64) (node : Bool)

lemma add_capacity : (xqcDtableAdd dt name nlen value vlen node).1.capacity = dt.capacity := by
  have hmake := makeSpace_capacity dt (DynTable.xqcDtableEntrySize nlen.toNat vlen.toNat)
  unfold xqcDtableAdd
  dsimp only
  split
  · rfl
  split
  · rfl
  split
  · rename_i hd; rw [hd] at hmake; exact hmake
  rename_i d hd
  rw [hd] at hmake
  split
  · exact hmake
  rename_i entries i hpush
  have henq := enqueueNv_capacity ({ d with entries := entries }.setSlot i { zeroSlot with absIndex := d.insertCnt }) i
    name nlen value vlen
  split
  · rename_i he; rw [he] at henq; exact henq.trans hmake
  rename_i he
  rw [he] at henq
  split
  · exact henq.trans hmake
  · exact henq.trans hmake

/-- Without memory for a node nothing more is used, and an insertion that succeeds is the one with memory. -/
lemma add_node : (xqcDtableAdd dt name nlen value vlen node).1.used ≤ (xqcDtableAdd dt name nlen value vlen true).1.used ∧
    ∀ k, (xqcDtableAdd dt name nlen value vlen node).2 = .ok k →
      xqcDtableAdd dt name nlen value vlen node = xqcDtableAdd dt name nlen value vlen true := by
  cases node with
  | true => exact ⟨le_rfl, fun _ _ => rfl⟩
  | false =>
    unfold xqcDtableAdd
    dsimp only
    split
    · exact ⟨le_rfl, fun _ _ => rfl⟩
    split
    · exact ⟨le_rfl, fun _ _ => rfl⟩
    split
    · exact ⟨le_rfl, fun _ _ => rfl⟩
    split
    · exact ⟨le_rfl, fun _ _ => rfl⟩
    split
    · exact ⟨le_rfl, fun _ _ => rfl⟩
    rename_i d _ entries i _ _ d' _
    unfold xqc2dHashTableAdd
    cases xqc2dHashLookupData d'.ht2d d'.sameEntry (xqcHashString name nlen) ⟨d'.entries.gen, i⟩ with
    | true => exact ⟨le_rfl, fun _ _ => rfl⟩
    | false => exact ⟨Nat.le_add_right _ _, fun _ h => nomatch h⟩

end Add

lemma duplicate_node (dt : Dtable) (idx : Nat) (node : Bool) :
    (xqcDtableDuplicate dt idx node).1.capacity = dt.capacity ∧
      (xqcDtableDuplicate dt idx node).1.used ≤ (xqcDtableDuplicate dt idx true).1.used ∧
      ∀ k, (xqcDtableDuplicate dt idx node).2 = .ok k → xqcDtableDuplicate dt idx node = xqcDtableDuplicate dt idx true := by
  unfold xqcDtableDuplicate; split
  · exact ⟨rfl, le_rfl, fun _ _ => rfl⟩
  rename_i name value _
  have hmake := makeSpace_capacity dt (DynTable.xqcDtableEntrySize name.length value.length)
  split
  · rename_i hd; rw [hd] at hmake; exact ⟨hmake, le_rfl, fun _ _ => rfl⟩
  · rename_i hd; rw [hd] at hmake
    exact ⟨(add_capacity ..).trans hmake, add_node ..⟩

lemma setCapacity_capacity (dt : Dtable) (cap : UInt64) (a : Alloc) :
    (xqcDtableSetCapacity dt cap a).2.isOk ∧ (xqcDtableSetCapacity dt cap a).1.capacity = cap.toNat ∨
      (xqcDtableSetCapacity dt cap a).2.isOk = false ∧ (xqcDtableSetCapacity dt cap a).1.capacity = dt.capacity := by
  have hmake : (if cap.toNat < dt.capacity then xqcDtableMakeSpace dt (dt.capacity - cap.toNat)
      else (dt, .ok ())).1.capacity = dt.capacity := by
    split
    · exact makeSpace_capacity dt _
    · rfl
  unfold xqcDtableSetCapacity; split
  · rename_i hd; rw [hd] at hmake; exact .inr ⟨rfl, hmake⟩
  · rename_i hd; rw [hd] at hmake
    unfold resizeBoth; split
    · exact .inr ⟨rfl, hmake⟩
    · split
      · exact .inr ⟨rfl, hmake⟩
      · exact .inl ⟨rfl, rfl⟩

/-- Places in the ring memory do not go round, and the memory moves only while it may. -/
def Can (dt : Dtable) : EncIns → Prop
  | .setCap cap => dt.CanSet (UInt64.ofNat cap)
  | .insertNameRef stable idx value => ∀ name, refName dt stable idx = some name →
    dt.rmem.eidx.toNat + name.length + value.length < 2 ^ 64
  | .insertLiteral name value => dt.rmem.eidx.toNat + name.length + value.length < 2 ^ 64
  | .duplicate idx => ∀ name value, xqcDtableGetNv dt (xqcBrel2abs dt.insertCnt idx) = .ok (name, value) →
    dt.rmem.eidx.toNat + name.length + value.length < 2 ^ 64

/-- A table in memory that is one of `RlccQuic.Http3.Table`. -/
def IsTable (dt : Dtable) : Prop := ∃ t log, Refines dt t log

lemma IsTable.fits {dt : Dtable} (h : IsTable dt) : dt.used ≤ dt.capacity := by
  obtain ⟨t, log, h⟩ := h
  rw [h.used, h.capacity]; exact h.ok.fits

lemma IsTable.after {dt : Dtable} (h : IsTable dt) (op : Op) (hop : ∀ t, Holds ⟨dt, t⟩ op) :
    ∀ t, IsTable (St.after ⟨dt, t⟩ op).dt := by
  obtain ⟨t, log, h⟩ := h
  intro u
  obtain ⟨log', h'⟩ := step_refines (s := ⟨dt, t⟩) ⟨log, h⟩ ⟨hop t, rfl⟩
  have hsame : (St.after ⟨dt, t⟩ op).dt = (St.after ⟨dt, u⟩ op).dt := by cases op <;> rfl
  exact hsame ▸ ⟨_, log', h'⟩

/-- The bounds after an instruction: only one kind changes the capacity, and only if it succeeds. -/
structure Bounded (dt : Dtable) (i : EncIns) (out : Out Unit) : Prop where
  table : out.2.isOk → IsTable out.1
  used : out.1.used ≤ out.1.capacity
  capacity : out.1.capacity = dt.capacity ∨ out.2.isOk ∧ ∃ cap, i = .setCap cap ∧ out.1.capacity = cap % 2 ^ 64

lemma literal_bounded {dt : Dtable} (h : IsTable dt) {name value : List UInt8}
    (hidx : dt.rmem.eidx.toNat + name.length + value.length < 2 ^ 64) (a : Answer) (i : EncIns) :
    Bounded dt i (xqcDecoderInsertLiteral dt name value a) := by
  have hlen : ∀ xs : List UInt8, xs.length < 2 ^ 64 → (UInt64.ofNat xs.length).toNat = xs.length :=
    fun xs hx => UInt64.toNat_ofNat_of_lt' hx
  have htrue := h.after (.add (memOf name) (UInt64.ofNat name.length) (memOf value) (UInt64.ofNat value.length) true)
    (fun _ => ⟨rfl, by show _ + _ + _ < _; rw [hlen name (by omega), hlen value (by omega)]; exact hidx⟩) DynTable.xqcDtableCreate
  have hcap := add_capacity dt (memOf name) (UInt64.ofNat name.length) (memOf value) (UInt64.ofNat value.length)
  obtain ⟨hused, hsame⟩ := add_node dt (memOf name) (UInt64.ofNat name.length) (memOf value) (UInt64.ofNat value.length) a.node
  refine ⟨fun hok => ?_, ?_, .inl (hcap a.node)⟩
  · unfold xqcDecoderInsertLiteral done at hok ⊢
    cases hr : (xqcDtableAdd dt (memOf name) (UInt64.ofNat name.length) (memOf value) (UInt64.ofNat value.length) a.node).2 with
    | error e => rw [hr] at hok; cases hok
    | ok k => dsimp only; rw [hsame k hr]; exact htrue
  · exact hused.trans (htrue.fits.trans ((hcap true).trans (hcap a.node).symm).le)

lemma duplicate_bounded {dt : Dtable} (h : IsTable dt) {idx : Nat}
    (hidx : ∀ name value, xqcDtableGetNv dt idx = .ok (name, value) →
      dt.rmem.eidx.toNat + name.length + value.length < 2 ^ 64) (a : Answer) (i : EncIns) :
    Bounded dt i (done (xqcDtableDuplicate dt idx a.node)) := by
  have htrue := h.after (.duplicate idx true) (fun _ => ⟨rfl, hidx⟩) DynTable.xqcDtableCreate
  have hcap : ∀ node, (xqcDtableDuplicate dt idx node).1.capacity = dt.capacity := fun node => (duplicate_node dt idx node).1
  obtain ⟨-, hused, hsame⟩ := duplicate_node dt idx a.node
  refine ⟨fun hok => ?_, ?_, .inl (hcap a.node)⟩
  · unfold done at hok ⊢
    cases hr : (xqcDtableDuplicate dt idx a.node).2 with
    | error e => rw [hr] at hok; cases hok
    | ok k => dsimp only; rw [hsame k hr]; exact htrue
  · exact hused.trans (htrue.fits.trans ((hcap true).trans (hcap a.node).symm).le)

theorem ins_bounded {dt : Dtable} (h : IsTable dt) {i : EncIns} (hc : Can dt i) (a : Answer) :
    Bounded dt i (xqcQpackOnEncoderIns dt a i) := by
  cases i with
  | setCap cap =>
    have hset := h.after (.setCapacity (UInt64.ofNat cap) a.alloc) (fun _ => hc) DynTable.xqcDtableCreate
    have hmod : (UInt64.ofNat cap).toNat = cap % 2 ^ 64 := UInt64.toNat_ofNat'
    show Bounded dt _ (xqcDtableSetCapacity dt (UInt64.ofNat cap) a.alloc)
    refine ⟨fun _ => hset, hset.fits, ?_⟩
    rcases setCapacity_capacity dt (UInt64.ofNat cap) a.alloc with ⟨hok, hcap⟩ | ⟨-, hcap⟩
    · exact .inr ⟨hok, cap, rfl, hcap.trans hmod⟩
    · exact .inl hcap
  | insertNameRef stable idx value =>
    show Bounded dt _ (xqcDecoderInsertNameRef dt stable idx value a)
    unfold xqcDecoderInsertNameRef
    cases hname : refName dt stable idx with
    | none => exact ⟨nofun, h.fits, .inl rfl⟩
    | some name => exact literal_bounded h (hc name hname) a _
  | insertLiteral name value => exact literal_bounded h hc a _
  | duplicate idx => exact duplicate_bounded h hc a _

/-! ## The encoder stream -/

variable {H : Huffman}

/-- The `k`-th instruction of a call gets the `k`-th answer. -/
def act (answers : Nat → Answer) (d : Dtable × Nat) (i : EncIns) : Option (Dtable × Nat) :=
  match xqcQpackOnEncoderIns d.1 (answers d.2) i with
  | (_, .error _) => none
  | (dt, .ok ()) => some (dt, d.2 + 1)

structure Piece where
  data : Buf
  answers : Nat → Answer

/-- A call that gives no error; the Insert Count Increment it may write is left out. -/
def xqcQpackProcessEncoder (s : EncCtx H × Dtable) (p : Piece) : Option (EncCtx H × Dtable) :=
  (bufferLoop xqcInsParseEncoder .opcode (act p.answers) p.data.length s.1 (s.2, 0) p.data).map fun r => (r.1, r.2.1)

def recvEncoder (s : EncCtx H × Dtable) (p : Piece) (s' : EncCtx H × Dtable) : Prop := xqcQpackProcessEncoder s p = some s'

/-- Before each instruction of the piece: it sets no capacity above the one that was offered, and the memory can take it. -/
def Within (maxCap : Nat) (s : EncCtx H × Dtable) (p : Piece) : Prop :=
  ∀ ctx is i more, bufferItems xqcInsParseEncoder .opcode s.1 [] [p.data] = some (ctx, is ++ i :: more) →
    ∀ d, is.foldlM (act p.answers) (s.2, 0) = some d → Can d.1 i ∧ ∀ cap, i = .setCap cap → cap ≤ maxCap

def xqcDecoderCreate (H : Huffman) (heads : UInt64 → List Node) (garbage : Nat → Slot) (freed : Ptr → Slot) (mem : Cursor.Mem) :
    EncCtx H × Dtable :=
  (.opcode, xqcDtableCreate 128 heads garbage freed mem)

/-- As long as the peer sets no capacity above the offered one, the table stays within it; an instruction that is refused
    leaves it within it, and one that is carried out does exactly if it sets none above it. -/
theorem table_stays_within_its_offer (H : Huffman) (heads : UInt64 → List Node) (garbage : Nat → Slot) (freed : Ptr → Slot)
    (mem : Cursor.Mem) (maxCap : Nat) (pieces : List Piece) (s : EncCtx H × Dtable)
    (h : Run (Guard (Within maxCap) recvEncoder) (xqcDecoderCreate H heads garbage freed mem) pieces s) :
    s.2.capacity ≤ maxCap ∧ s.2.used ≤ maxCap ∧ ∀ i a, Can s.2 i → (∀ cap, i = .setCap cap → cap < 2 ^ 64) →
      (xqcQpackOnEncoderIns s.2 a i).1.used ≤ (xqcQpackOnEncoderIns s.2 a i).1.capacity ∧
      ((xqcQpackOnEncoderIns s.2 a i).1.capacity ≤ maxCap ↔
        ((xqcQpackOnEncoderIns s.2 a i).2.isOk → ∀ cap, i = .setCap cap → cap ≤ maxCap)) := by
  obtain ⟨-, htable, hcap⟩ : EncReady s.1 ∧ IsTable s.2 ∧ s.2.capacity ≤ maxCap := by
    have hop : EncReady (H := H) .opcode := trivial
    refine h.inv (P := fun s => EncReady s.1 ∧ IsTable s.2 ∧ s.2.capacity ≤ maxCap) ?_
      ⟨hop, ⟨_, _, create_refines (by decide) heads garbage freed mem⟩, zero_le⟩
    rintro s p s' ⟨hready, hi⟩ ⟨hwithin, hs⟩
    obtain ⟨r, hr, rfl⟩ := Option.map_eq_some_iff.mp hs
    rw [bufferLoop_eq encoder_readsAs hop _ _ _ hready le_rfl] at hr
    refine ⟨process_good encoder_readsAs hop hready hr, ?_⟩
    rw [process_eq] at hr
    obtain ⟨⟨ctx, is⟩, hitems, hr⟩ := Option.bind_eq_some_iff.mp hr
    obtain ⟨d, hd, rfl⟩ := Option.map_eq_some_iff.mp hr
    have hread : bufferItems xqcInsParseEncoder .opcode s.1 [] [p.data] = some (ctx, is) := by
      rw [bufferItems_eq encoder_readsAs hop hready, flatten_singleton, hitems]; rfl
    refine foldlM_inv_at (P := fun d : Dtable × Nat => IsTable d.1 ∧ d.1.capacity ≤ maxCap) is [] _ _ rfl hi ?_ hd
    intro before i more hsplit d d' hbefore hd hact
    rw [nil_append] at hsplit
    obtain ⟨hcan, hoffer⟩ := hwithin ctx before i more (hsplit ▸ hread) d hbefore
    have hb := ins_bounded hd.1 hcan (p.answers d.2)
    unfold act at hact; split at hact
    · cases hact
    · rename_i dt hout
      cases hact
      rw [hout] at hb
      refine ⟨hb.table rfl, ?_⟩
      rcases hb.capacity with hsame | ⟨-, cap, rfl, hset⟩
      · exact hsame.trans_le hd.2
      · exact hset.trans_le ((Nat.mod_le ..).trans (hoffer cap rfl))
  refine ⟨hcap, htable.fits.trans hcap, fun i a hcan hsmall => ?_⟩
  have hb := ins_bounded htable hcan a
  refine ⟨hb.used, fun hle hok cap hi => ?_, fun hoffer => ?_⟩
  · subst hi
    have hset : (xqcQpackOnEncoderIns s.2 a (.setCap cap)).1.capacity = (UInt64.ofNat cap).toNat := by
      rcases setCapacity_capacity s.2 (UInt64.ofNat cap) a.alloc with ⟨-, hcap⟩ | ⟨hno, -⟩
      · exact hcap
      · exact absurd (hok.symm.trans hno) nofun
    rw [hset, UInt64.toNat_ofNat_of_lt' (hsmall cap rfl)] at hle; exact hle
  · rcases hb.capacity with hsame | ⟨hok, cap, hi, hset⟩
    · exact hsame.trans_le hcap
    · exact hset.trans_le ((Nat.mod_le ..).trans (hoffer hok cap hi))

def fresh : EncCtx Qpack.byteCode × Dtable :=
  xqcDecoderCreate _ (fun _ => []) (fun _ => zeroSlot) (fun _ => zeroSlot) noMemory

def setTo64 : Piece := ⟨[0x3f, 0x21], fun _ => ⟨room, true⟩⟩

lemma setTo64_read : xqcInsParseEncoder (H := Qpack.byteCode) .opcode setTo64.data = some (.inr (.setCap 64), []) := rfl

lemma fresh_canSet : fresh.2.CanSet 64 := ⟨by decide, .inr ⟨rfl, fun _ => ite_self _⟩⟩

lemma setTo64_received : ∃ s, recvEncoder fresh setTo64 s ∧ s.2.capacity = 64 := by
  have hok : (xqcDtableSetCapacity fresh.2 64 room).2.isOk = true := by decide +kernel
  rcases hout : xqcDtableSetCapacity fresh.2 64 room with ⟨dt, _ | _⟩
  · rw [hout] at hok; cases hok
  · have hact : act setTo64.answers (fresh.2, 0) (.setCap 64) = some (dt, 1) := by
      have hins : xqcQpackOnEncoderIns fresh.2 (setTo64.answers 0) (.setCap 64) = (dt, .ok ()) := hout
      unfold act
      rw [hins]
    refine ⟨(.opcode, dt), ?_, ?_⟩
    · show Option.map _ (bufferLoop xqcInsParseEncoder .opcode (act setTo64.answers) 2 .opcode (fresh.2, 0) setTo64.data) = _
      rw [show setTo64.data = [0x3f, 0x21] from rfl, bufferLoop, ← show setTo64.data = [0x3f, 0x21] from rfl, setTo64_read]
      dsimp only
      rw [hact]; rfl
    · rcases setCapacity_capacity fresh.2 64 room with ⟨-, hcap⟩ | ⟨hno, -⟩
      · rw [hout] at hcap; exact hcap
      · exact absurd (hok.symm.trans hno) (by decide)

/-- The peer sets the 64 bytes that it was offered. -/
theorem an_offered_capacity_is_set : ∃ s : EncCtx Qpack.byteCode × Dtable, s.2.capacity = 64 ∧
    Run (Guard (Within 64) recvEncoder) fresh [setTo64] s ∧ s.2.used ≤ 64 := by
  obtain ⟨s, hrecv, hcap⟩ := setTo64_received
  have hwithin : Within 64 fresh setTo64 := by
    intro ctx is i more hread d hd
    have hall : bufferItems (xqcInsParseEncoder (H := Qpack.byteCode)) .opcode .opcode [] [setTo64.data] =
        some (.opcode, [.setCap 64]) := rfl
    obtain ⟨rfl, hi⟩ : is = [] ∧ i :: more = [.setCap 64] := by
      have hone := congrArg Prod.snd (Option.some.inj (hread.symm.trans hall))
      cases is with
      | nil => exact ⟨rfl, hone⟩
      | cons j js => simp at hone
    cases hi; cases hd
    exact ⟨fresh_canSet, fun cap hcap => by cases hcap; exact le_rfl⟩
  have hrun : Run (Guard (Within 64) recvEncoder) fresh [setTo64] s := Run.nil.snoc ⟨hwithin, hrecv⟩
  exact ⟨s, hcap, hrun, (table_stays_within_its_offer _ _ _ _ _ 64 _ _ hrun).2.1⟩

/-- The peer of an endpoint that offers no table sets a capacity of 64, in memory that can take it. -/
theorem any_capacity_is_set : fresh.2.CanSet 64 ∧ ∃ s, recvEncoder fresh setTo64 s ∧ s.2.capacity = 64 :=
  ⟨fresh_canSet, setTo64_received⟩

end RlccQuic.Http3.DecoderMem
