/-
  RlccQuic.Transport.EarlyData — 0-RTT data that is rejected (`xqc_stream.c`: `xqc_stream_send`, `xqc_stream_buff_data`,
  `xqc_stream_write_buffed_data_to_packets`; `xqc_conn.c`: `xqc_conn_early_data_reject`).

  `xqc_stream_send` keeps a copy of what it sends in 0-RTT packets. A rejection sets the offset of each stream that has sent
  some back to 0 and writes the copies again, in 1-RTT packets. The loop returns at the first stream that was reset, so the
  streams after it are left as they are, and the count of the connection keeps the bytes that were rejected.

  The state of the sending side is that of `SendFlow`; here it has the bytes of the buffers, the frames that were queued, and
  what calls of `xqc_stream_send` accepted. Without these a rejection is that of `SendFlow` (`earlyDataReject_forgets`).

  Proved: over every run up to the rejection the buffers of a stream hold what was accepted, its end in the last one, and the
  count of the connection is the sum of the offsets (`run_inv`). What a rejection does to this is in `EarlyReject`.
-/

import RlccQuic.Transport.SendFlow

namespace RlccQuic.Transport.EarlyData

open Lib SendFlow Finset Function
open List (append_nil)

/-! ## State -/

structure Buff where
  data : List UInt8
  fin : Bool
  deriving DecidableEq, Repr

def Buff.size (b : Buff) : WriteBuff := ⟨b.data.length, b.fin⟩

structure Frame where
  stream : Nat
  offset : Nat
  data : List UInt8
  fin : Bool
  deriving DecidableEq, Repr

structure St where
  conn : Conn
  /-- `stream_write_buff_list`. -/
  buffs : Nat → List Buff
  /-- What a rejection has written. -/
  queued : List Frame
  /-- The bytes, and the end, that calls of `xqc_stream_send` took for 0-RTT packets. -/
  accepted : Nat → List UInt8
  finAccepted : Nat → Bool

/-! ## `xqc_stream_send` -/

def sendsEarly (ready : Bool) (i : Nat) (c : Conn) : Bool :=
  !c.state.isClosing && !(c.streams i).resetSent && !(c.streams i).finWrite && !c.canSend1rtt && c.client &&
    decide (c.state = .clientInitialSent) && ready

/-- The bytes of `data` that a call has taken, and that it has taken the end too. -/
def taken (data : List UInt8) : Except SendErr Nat → List UInt8
  | .ok n => data.take n
  | .error _ => []

def finTaken (data : List UInt8) (fin : Bool) : Except SendErr Nat → Bool
  | .ok n => fin && decide (n = data.length)
  | .error _ => false

/-- `xqc_stream_send`: a buffer that it adds has a copy of the first bytes of `data`. -/
def xqcStreamSend (luck : Luck) (ready : Bool) (i : Nat) (data : List UInt8) (fin : Bool) (s : St) :
    Except SendErr Nat × St :=
  let early := sendsEarly ready i s.conn
  let r := SendFlow.xqcStreamSend luck ready i data.length fin s.conn
  let added := (r.2.streams i).writeBuffList.drop (s.conn.streams i).writeBuffList.length
  (r.1, { s with
    conn := r.2
    buffs := update s.buffs i (s.buffs i ++ added.map fun b => ⟨data.take b.dataLength, b.fin⟩)
    accepted := update s.accepted i (s.accepted i ++ if early then taken data r.1 else [])
    finAccepted := update s.finAccepted i (s.finAccepted i || (early && finTaken data fin r.1)) })

/-! ## `xqc_conn_early_data_reject` -/

/-- `xqc_write_stream_frame_to_packet`, for a 1-RTT packet. -/
def writeFrame (header : Option Nat) (i : Nat) (fin : Bool) (data : List UInt8) (s : St) : Option Nat × St :=
  match xqcWriteStreamFrameToPacket header false i fin data.length s.conn with
  | (.error _, c) => (none, { s with conn := c })
  | (.ok written, c) =>
    (some written, { s with
      conn := c
      queued := s.queued ++
        [⟨i, (s.conn.streams i).sendOffset, data.take written, fin && decide (written = data.length)⟩] })

/-- The frames of one buffer; `data` is what is left of it. -/
def writeLoop (header : Nat → Option Nat) (i : Nat) (fin : Bool) : (fuel n : Nat) → List UInt8 → St → Bool × St
  | 0, _, _, s => (true, s)
  | fuel + 1, n, data, s =>
    if data = [] then (true, s)
    else
      match writeFrame (header n) i fin data s with
      | (none, s) => (false, s)
      | (some written, s) => writeLoop header i fin fuel (n + 1) (data.drop written) s

def writeBuff (header : Nat → Option Nat) (i : Nat) (b : Buff) (s : St) : Bool × St :=
  if b.fin = true ∧ b.data = [] then
    match writeFrame (header 0) i true [] s with
    | (none, s) => (false, s)
    | (some _, s) => (true, s)
  else writeLoop header i b.fin b.data.length 0 b.data s

def St.setBuffs (i : Nat) (bs : List Buff) (s : St) : St :=
  { s with
    conn := s.conn.modify i ({ · with writeBuffList := bs.map Buff.size })
    buffs := update s.buffs i bs }

/-- `xqc_stream_write_buffed_data_to_packets`, from the `k`-th buffer on; `header k n` has
    the bytes of the header of its `n`-th packet, if it can be had. -/
def xqcStreamWriteBuffedDataToPackets (header : Nat → Nat → Option Nat) (i : Nat) : Nat → List Buff → St → St
  | _, [], s => s
  | k, b :: bs, s =>
    match writeBuff (header k) i b s with
    | (false, s) => s
    | (true, s) => xqcStreamWriteBuffedDataToPackets header i (k + 1) bs (s.setBuffs i bs)

def isReset (s : Stream) : Bool := s.resetSent || s.resetRecvd

def St.setBack (i : Nat) (s : St) : St := { s with conn := s.conn.modify i ({ · with sendOffset := 0 }) }

def rejectLoop (header : Nat → Nat → Nat → Option Nat) : List Nat → St → St
  | [], s => s
  | i :: is, s =>
    if (s.conn.streams i).has0rtt then
      let s := s.setBack i
      if isReset (s.conn.streams i) then s.setBuffs i []
      else rejectLoop header is (xqcStreamWriteBuffedDataToPackets (header i) i 0 (s.buffs i) s)
    else rejectLoop header is s

def xqcConnEarlyDataReject (header : Nat → Nat → Nat → Option Nat) (s : St) : St :=
  let s := { s with conn := { s.conn with zeroRttRej := true } }
  if s.conn.client then rejectLoop header s.conn.allStreams s else s

/-! ## Without the bytes -/

section Forget

variable (header : Nat → Option Nat) (i : Nat) (fin : Bool) {s : St}

/-- The buffers with their bytes are those that `SendFlow` has. -/
def St.Matched (s : St) : Prop := ∀ j, (s.conn.streams j).writeBuffList = (s.buffs j).map Buff.size

/-- A function here does to the connection what that of `SendFlow` does, with the same answer. -/
structure Forgets {α : Type} (r : α × St) (r' : α × Conn) : Prop where
  out : r.1 = r'.1
  conn : r.2.conn = r'.2
  matched : r.2.Matched

lemma writeStreamFrame_buffs (h : Option Nat) (size j : Nat) (c : Conn) :
    ((xqcWriteStreamFrameToPacket h false i fin size c).2.streams j).writeBuffList = (c.streams j).writeBuffList := by
  unfold xqcWriteStreamFrameToPacket; split
  · rfl
  · split
    · rfl
    · unfold noteWritten
      by_cases hj : j = i <;> simp [Conn.modify, hj]

lemma writeFrame_forgets (hs : s.Matched) (h : Option Nat) (data : List UInt8) :
    Forgets (writeFrame h i fin data s) ((xqcWriteStreamFrameToPacket h false i fin data.length s.conn).map Except.toOption id) := by
  have hbuffs := fun j => (writeStreamFrame_buffs i fin h data.length j s.conn).trans (hs j)
  unfold writeFrame
  rcases hx : xqcWriteStreamFrameToPacket h false i fin data.length s.conn with ⟨_ | written, c⟩
  · rw [hx] at hbuffs; exact ⟨rfl, rfl, hbuffs⟩
  · rw [hx] at hbuffs; exact ⟨rfl, rfl, hbuffs⟩

lemma writeLoop_forgets (size fuel : Nat) : ∀ (n offset : Nat) (data : List UInt8) {s : St}, s.Matched →
    size - offset = data.length →
    Forgets (writeLoop header i fin fuel n data s) (SendFlow.writeLoop header i fin size fuel n offset s.conn) := by
  induction fuel with
  | zero => intro n offset data s hs _; exact ⟨rfl, rfl, hs⟩
  | succ fuel ih =>
    intro n offset data s hs hlen
    unfold writeLoop SendFlow.writeLoop
    by_cases hnil : data = []
    · have hdone : ¬ offset < size := by
        rw [hnil, List.length_nil] at hlen; omega
      rw [if_pos hnil, if_neg hdone]; exact ⟨rfl, rfl, hs⟩
    · have hpos := List.length_pos_iff.mpr hnil
      obtain ⟨hout, hconn, hs'⟩ := writeFrame_forgets i fin hs (header n) data
      rw [if_neg hnil, if_pos (by omega), hlen]
      generalize writeFrame (header n) i fin data s = r at hout hconn hs' ⊢
      generalize xqcWriteStreamFrameToPacket (header n) false i fin data.length s.conn = r' at hout hconn ⊢
      rcases r with ⟨o, t⟩; rcases r' with ⟨e | written, c⟩
      · obtain rfl : o = none := hout
        exact ⟨rfl, hconn, hs'⟩
      · obtain rfl : o = some written := hout
        obtain rfl : t.conn = c := hconn
        exact ih (n + 1) (offset + written) (data.drop written) hs' (by rw [List.length_drop]; omega)

lemma writeBuff_forgets (hs : s.Matched) (b : Buff) :
    Forgets (writeBuff header i b s) (SendFlow.writeBuff header i b.size s.conn) := by
  have hiff : (b.size.fin = true ∧ b.size.dataLength = 0) ↔ (b.fin = true ∧ b.data = []) := by
    simp [Buff.size]
  unfold writeBuff SendFlow.writeBuff
  by_cases h : b.fin = true ∧ b.data = []
  · rw [if_pos h, if_pos (hiff.mpr h)]
    obtain ⟨hout, hconn, hs'⟩ := writeFrame_forgets i true hs (header 0) []
    rw [List.length_nil] at hout hconn
    generalize writeFrame (header 0) i true [] s = r at hout hconn hs' ⊢
    generalize xqcWriteStreamFrameToPacket (header 0) false i true 0 s.conn = r' at hout hconn ⊢
    rcases r with ⟨o, t⟩; rcases r' with ⟨e | written, c⟩
    · obtain rfl : o = none := hout
      exact ⟨rfl, hconn, hs'⟩
    · obtain rfl : o = some written := hout
      exact ⟨rfl, hconn, hs'⟩
  · rw [if_neg h, if_neg (hiff.not.mpr h)]; exact writeLoop_forgets header i b.fin _ _ _ _ _ hs rfl

lemma St.Matched.setBuffs (hs : s.Matched) (bs : List Buff) : (s.setBuffs i bs).Matched := by
  intro j
  by_cases hj : j = i
  · subst hj; simp [St.setBuffs, Conn.modify]
  · simpa [St.setBuffs, Conn.modify, update_of_ne hj] using hs j

lemma writeBuffed_forgets (bs : List Buff) : ∀ (k : Nat) {s : St}, s.Matched →
    (xqcStreamWriteBuffedDataToPackets (fun _ => header) i k bs s).conn =
        SendFlow.xqcStreamWriteBuffedDataToPackets header i (bs.map Buff.size) s.conn ∧
      (xqcStreamWriteBuffedDataToPackets (fun _ => header) i k bs s).Matched := by
  induction bs with
  | nil => intro k s hs; exact ⟨rfl, hs⟩
  | cons b bs ih =>
    intro k s hs
    obtain ⟨hout, hconn, hs'⟩ := writeBuff_forgets header i hs b
    rw [List.map_cons, xqcStreamWriteBuffedDataToPackets, SendFlow.xqcStreamWriteBuffedDataToPackets]
    generalize writeBuff header i b s = r at hout hconn hs' ⊢
    generalize SendFlow.writeBuff header i b.size s.conn = r' at hout hconn ⊢
    rcases r with ⟨ok, t⟩; rcases r' with ⟨ok', c⟩
    obtain rfl : ok = ok' := hout
    obtain rfl : t.conn = c := hconn
    cases ok with
    | false => exact ⟨rfl, hs'⟩
    | true => exact ih (k + 1) (hs'.setBuffs i bs)

lemma St.Matched.setBack (hs : s.Matched) : (s.setBack i).Matched := by
  intro j
  by_cases hj : j = i
  · subst hj; simpa [St.setBack, Conn.modify] using hs j
  · simpa [St.setBack, Conn.modify, update_of_ne hj] using hs j

lemma rejectLoop_forgets (header : Nat → Nat → Option Nat) (is : List Nat) : ∀ {s : St}, s.Matched →
    (rejectLoop (fun i _ => header i) is s).conn = SendFlow.rejectLoop header is s.conn := by
  induction is with
  | nil => intro s _; rfl
  | cons i is ih =>
    intro s hs
    unfold rejectLoop SendFlow.rejectLoop
    split
    · obtain ⟨hconn, hs'⟩ := writeBuffed_forgets (header i) i ((s.setBack i).buffs i) 0 (hs.setBack i)
      have hlist : ((s.setBack i).conn.streams i).writeBuffList = ((s.setBack i).buffs i).map Buff.size := hs.setBack i i
      dsimp only
      by_cases hr : isReset ((s.setBack i).conn.streams i) = true
      · rw [if_pos hr]; exact (if_pos hr).symm
      · rw [if_neg hr, ih hs', hconn, ← hlist]; exact (if_neg hr).symm
    · exact ih hs

/-- A rejection leaves the connection of `SendFlow`, if the headers do not depend on the buffer. -/
lemma earlyDataReject_forgets (header : Nat → Nat → Option Nat) (hs : s.Matched) :
    (xqcConnEarlyDataReject (fun i _ => header i) s).conn = SendFlow.xqcConnEarlyDataReject header s.conn := by
  unfold xqcConnEarlyDataReject SendFlow.xqcConnEarlyDataReject
  dsimp only; split
  · exact rejectLoop_forgets header _ hs
  · rfl

end Forget

/-! ## The machine, up to the rejection -/

inductive Ev where
  | send (luck : Luck) (ready : Bool) (i : Nat) (data : List UInt8) (fin : Bool)
  | destroy (i : Nat)
  /-- The first part of `xqc_conn_handshake_complete`. -/
  | updateLimits
  | other (e : SendFlow.Ev)

/-- The events of `SendFlow` that have nothing to do with data. -/
def Quiet : SendFlow.Ev → Prop
  | .send .. | .destroy _ | .handshakeComplete .. => False
  | _ => True

inductive Step : St → Ev → St → Prop
  | send (s : St) (luck : Luck) (ready : Bool) (i : Nat) (data : List UInt8) (fin : Bool) (hi : s.conn.Open i) :
      Step s (.send luck ready i data fin) (xqcStreamSend luck ready i data fin s).2
  | destroy (s : St) (i : Nat) (hi : s.conn.Open i) :
      Step s (.destroy i) ({ s with conn := s.conn.modify i ({ · with closed := true }) }.setBuffs i [])
  | updateLimits (s : St) :
      Step s .updateLimits { s with conn := { SendFlow.updateLimits s.conn with handshakeCompleted := true } }
  | other (s : St) (e : SendFlow.Ev) (c : Conn) (hq : Quiet e) (hs : SendFlow.Step s.conn e c) :
      Step s (.other e) { s with conn := c }

structure St.Fresh (s : St) : Prop where
  conn : s.conn.Fresh
  buffs : ∀ i, s.buffs i = []
  queued : s.queued = []
  accepted : ∀ i, s.accepted i = []
  finAccepted : ∀ i, s.finAccepted i = false

/-! ## What is written -/

/-- `k` bytes of stream `i` were written, and `bs` is what it has buffered. -/
structure Moved (i k : Nat) (bs : List WriteBuff) (c c' : Conn) : Prop where
  next : c'.next = c.next
  client : c'.client = c.client
  pktOutSize : c'.pktOutSize = c.pktOutSize
  dataSent : c'.fcDataSent = c.fcDataSent + k
  others : ∀ {j}, j ≠ i → c'.streams j = c.streams j
  id : (c'.streams i).id = (c.streams i).id
  closed : (c'.streams i).closed = (c.streams i).closed
  offset : (c'.streams i).sendOffset = (c.streams i).sendOffset + k
  early : (c'.streams i).has0rtt = true → (c.streams i).has0rtt = true ∨ c.client = true
  finWrite : (c.streams i).finWrite = true → (c'.streams i).finWrite = true
  buffs : (c'.streams i).writeBuffList = bs

namespace Moved

variable {i k m : Nat} {bs bs' : List WriteBuff} {c c' c'' : Conn}

lemma refl (i : Nat) (c : Conn) : Moved i 0 (c.streams i).writeBuffList c c :=
  ⟨rfl, rfl, rfl, rfl, fun _ => rfl, rfl, rfl, rfl, .inl, fun h => h, rfl⟩

lemma trans (h : Moved i k bs c c') (h' : Moved i m bs' c' c'') : Moved i (k + m) bs' c c'' where
  next := h'.next.trans h.next
  client := h'.client.trans h.client
  pktOutSize := h'.pktOutSize.trans h.pktOutSize
  dataSent := by rw [h'.dataSent, h.dataSent, Nat.add_assoc]
  others hj := (h'.others hj).trans (h.others hj)
  id := h'.id.trans h.id
  closed := h'.closed.trans h.closed
  offset := by rw [h'.offset, h.offset, Nat.add_assoc]
  early hearly := by
    rcases h'.early hearly with h1 | h1
    · exact h.early h1
    · exact .inr (h.client.symm.trans h1)
  finWrite hfin := h'.finWrite (h.finWrite hfin)
  buffs := h'.buffs

lemma noteWritten (early : Bool) (i : Nat) (fin : Bool) (size n : Nat) (c : Conn) :
    Moved i n (c.streams i).writeBuffList c (noteWritten early i fin size n c) := by
  refine ⟨rfl, rfl, rfl, rfl, fun hj => update_of_ne hj _ _, ?_, ?_, ?_, ?_, ?_, ?_⟩
  all_goals simp [SendFlow.noteWritten, Conn.modify]
  · exact .inl
  · exact .inl

lemma doSendFlowCtl (i : Nat) (c : Conn) :
    Moved i 0 (c.streams i).writeBuffList c (xqcStreamDoSendFlowCtl i c).2 := by
  have hflag : ∀ {d : Conn}, Moved i 0 (d.streams i).writeBuffList d (d.modify i ({ · with dataBlocked := true })) := by
    intro d
    refine ⟨rfl, rfl, rfl, rfl, fun hj => update_of_ne hj _ _, ?_, ?_, ?_, ?_, ?_, ?_⟩
    all_goals simp [Conn.modify]
    exact .inl
  have hconn : ∀ b, Moved i 0 (c.streams i).writeBuffList c { c with dataBlocked := b } := fun _ =>
    ⟨rfl, rfl, rfl, rfl, fun _ => rfl, rfl, rfl, rfl, .inl, fun h => h, rfl⟩
  unfold xqcStreamDoSendFlowCtl
  dsimp only
  split_ifs
  · exact (hconn true).trans hflag
  · exact hflag
  · exact hconn true
  · exact refl i c

lemma gate {luck : Luck} {early : Bool} {n : Nat} {ok : Bool} (h : gate luck early i n c = (ok, c')) :
    Moved i 0 (c.streams i).writeBuffList c c' := by
  unfold SendFlow.gate at h
  obtain ⟨-, rfl⟩ := h
  cases early with
  | true => exact refl i c
  | false => exact doSendFlowCtl i c

end Moved

/-! ## A call of `xqc_stream_send` -/

section Send

variable (luck : Luck) (early fin : Bool) (i size : Nat)

/-- The loop has written a part of what it was given, and with the last byte `fin`. -/
lemma sendLoop_moved (fuel : Nat) : ∀ (n : Nat) {offset : Nat} (c : Conn), offset ≤ size →
    ∃ k, (sendLoop luck early i fin size fuel n offset c).2.1 = offset + k ∧ offset + k ≤ size ∧
      Moved i k (c.streams i).writeBuffList c (sendLoop luck early i fin size fuel n offset c).2.2 ∧
      (fin = true → 0 < k → offset + k = size →
        ((sendLoop luck early i fin size fuel n offset c).2.2.streams i).finWrite = true) := by
  induction fuel with
  | zero =>
    intro n offset c hle
    exact ⟨0, rfl, hle, Moved.refl i c, fun _ hpos => absurd hpos (Nat.lt_irrefl 0)⟩
  | succ fuel ih =>
    intro n offset c hle
    have hstay : ∀ {d : Conn} {r : Ended}, Moved i 0 (c.streams i).writeBuffList c d →
        ∃ k, ((r, offset, d) : Ended × Nat × Conn).2.1 = offset + k ∧ offset + k ≤ size ∧
          Moved i k (c.streams i).writeBuffList c d ∧
          (fin = true → 0 < k → offset + k = size → (d.streams i).finWrite = true) :=
      fun hm => ⟨0, rfl, hle, hm, fun _ hpos => absurd hpos (Nat.lt_irrefl 0)⟩
    unfold sendLoop; split
    · rcases hg : gate luck early i n c with ⟨ok, c1⟩
      have hm1 := Moved.gate hg
      cases ok with
      | false => exact hstay (r := .again) hm1
      | true =>
        dsimp only
        obtain ⟨e, hw⟩ | ⟨k, m, len, hw, -, hgen⟩ := write_cases (luck.header n) early fin i (size - offset) c1
        · rw [hw]; exact hstay (r := .failed e) hm1
        · rw [hw]
          obtain ⟨hsize, -⟩ := written_le hgen
          have hm2 := Moved.noteWritten early i fin (size - offset) k c1
          obtain ⟨k', hoff, hle', hm3, hfin⟩ :=
            ih (n + 1) (SendFlow.noteWritten early i fin (size - offset) k c1) (show offset + k ≤ size by omega)
          refine ⟨0 + (k + k'), by rw [hoff]; omega, by omega, hm1.trans (hm2.trans ?_), fun hf hpos hall => ?_⟩
          · rw [hm2.buffs, hm1.buffs] at hm3; exact hm3
          · -- the frame with the last byte has `fin`; any later one keeps the flag
            by_cases hlast : 0 < k'
            · exact hfin hf hlast (by omega)
            · refine hm3.finWrite ?_
              have hk : k = size - offset := by omega
              simp [SendFlow.noteWritten, Conn.modify, hf, hk]
    · exact hstay (r := .done) (Moved.refl i c)

lemma sendFin_moved (luck : Luck) (early : Bool) (i : Nat) (c : Conn) :
    Moved i 0 (c.streams i).writeBuffList c (sendFin luck early i c).2.2 ∧ (sendFin luck early i c).2.1 = 0 ∧
      ((sendFin luck early i c).1 = .done → ((sendFin luck early i c).2.2.streams i).finWrite = true) := by
  unfold sendFin
  rcases hg : gate luck early i 0 c with ⟨ok, c1⟩
  have hm1 := Moved.gate hg
  cases ok with
  | false => exact ⟨hm1, rfl, fun h => by cases h⟩
  | true =>
    dsimp only
    obtain ⟨e, hw⟩ | ⟨k, m, len, hw, -, hgen⟩ := write_cases (luck.header 0) early true i 0 c1
    · rw [hw]; exact ⟨hm1, rfl, fun h => by cases h⟩
    · rw [hw]
      obtain rfl := Nat.le_zero.mp (written_le hgen).1
      have hm2 := Moved.noteWritten early i true 0 0 c1
      rw [hm1.buffs] at hm2
      exact ⟨hm1.trans hm2, rfl, fun _ => by simp [SendFlow.noteWritten, Conn.modify]⟩

lemma sendFrames_moved (luck : Luck) (early : Bool) (i size : Nat) (fin : Bool) (c : Conn) :
    ∃ k ≤ size, (sendFrames luck early i size fin c).2.1 = k ∧
      Moved i k (c.streams i).writeBuffList c (sendFrames luck early i size fin c).2.2 ∧
      (fin = true → k = size → (sendFrames luck early i size fin c).1 = .done ∨ 0 < k →
        ((sendFrames luck early i size fin c).2.2.streams i).finWrite = true) := by
  unfold sendFrames; split
  · rename_i honly
    obtain ⟨hm, hoff, hfin⟩ := sendFin_moved luck early i c
    exact ⟨0, zero_le, hoff, hm, fun _ _ h => hfin (h.resolve_right (Nat.lt_irrefl 0))⟩
  · rename_i honly
    obtain ⟨k, hoff, hle, hm, hfin⟩ :=
      sendLoop_moved luck early fin i size size 0 c (Nat.zero_le size)
    rw [Nat.zero_add] at hoff hle hfin
    refine ⟨k, hle, hoff, hm, fun hf hall _ => hfin hf ?_ hall⟩
    refine Nat.pos_of_ne_zero fun hk => honly ⟨hf, ?_⟩
    omega

lemma markEarly_moved (i : Nat) {c : Conn} (hclient : c.client = true) :
    Moved i 0 (c.streams i).writeBuffList c (markEarly i c) := by
  refine ⟨rfl, rfl, rfl, rfl, fun hj => update_of_ne hj _ _, ?_, ?_, ?_, fun _ => .inr hclient, ?_, ?_⟩
  all_goals simp [markEarly, Conn.modify]

lemma buffData_moved (i size : Nat) (fin : Bool) (c : Conn) :
    Moved i 0 ((c.streams i).writeBuffList ++ [⟨size, fin⟩]) c (xqcStreamBuffData i size fin c) := by
  refine ⟨rfl, rfl, rfl, rfl, fun hj => update_of_ne hj _ _, ?_, ?_, ?_, ?_, ?_, ?_⟩
  all_goals simp [xqcStreamBuffData, Conn.modify]
  exact .inl

/-- What a call that sends 0-RTT packets adds to the buffers of its stream: what it
    returns. A `fin` alone is buffered even if it was not sent. -/
inductive Buffered (size : Nat) (fin : Bool) (c' : Conn) (i : Nat) : Except SendErr Nat → List WriteBuff → Prop
  | error (e : SendErr) : Buffered size fin c' i (.error e) []
  | finOnly (e : SendErr) : Buffered size fin c' i (.error e) [⟨0, true⟩]
  | ok (k : Nat) (hle : k ≤ size) (hsome : 0 < k ∨ (fin && decide (k = size)) = true)
      (hfin : (fin && decide (k = size)) = true → (c'.streams i).finWrite = true) :
      Buffered size fin c' i (.ok k) [⟨k, fin && decide (k = size)⟩]

lemma sendTyped_early (luck : Luck) (i size : Nat) (fin : Bool) {c : Conn} (hclient : c.client = true) :
    ∃ k added, Moved i k ((c.streams i).writeBuffList ++ added) c (sendTyped luck true i size fin c).2 ∧
      Buffered size fin (sendTyped luck true i size fin c).2 i (sendTyped luck true i size fin c).1 added := by
  obtain ⟨k, hle, hoff, hm, hfin⟩ := sendFrames_moved luck true i size fin (markEarly i c)
  have hmark := markEarly_moved i hclient
  rw [hmark.buffs] at hm
  replace hm := hmark.trans hm
  have hbuff := buffData_moved i k (fin && decide (k = size)) (sendFrames luck true i size fin (markEarly i c)).2.2
  rw [hm.buffs] at hbuff
  unfold sendTyped
  simp only [if_true]
  generalize sendFrames luck true i size fin (markEarly i c) = res at hoff hm hfin hbuff ⊢
  obtain ⟨r, offset, c1⟩ := res
  dsimp only at hoff hm hfin hbuff
  subst hoff
  have hnone : Moved i (0 + offset) ((c.streams i).writeBuffList ++ []) c c1 := by
    rw [append_nil]; exact hm
  have hkeep : ∀ h : offset > 0 ∨ (fin && decide (size = 0)) = true, Moved i (0 + offset + 0)
      ((c.streams i).writeBuffList ++ [⟨offset, fin && decide (offset = size)⟩]) c (buffEarly i size fin offset c1) := by
    intro h; unfold buffEarly
    rw [if_pos h]; exact hm.trans hbuff
  have hdrop : ∀ h : ¬ (offset > 0 ∨ (fin && decide (size = 0)) = true),
      Moved i (0 + offset) ((c.streams i).writeBuffList ++ []) c (buffEarly i size fin offset c1) := by
    intro h; unfold buffEarly
    rw [if_neg h]; exact hnone
  have hflag : r = .done ∨ 0 < offset → (fin && decide (offset = size)) = true →
      ((buffEarly i size fin offset c1).streams i).finWrite = true := by
    intro hend hall
    simp only [Bool.and_eq_true, decide_eq_true_eq] at hall
    have hw := hfin hall.1 hall.2 hend
    unfold buffEarly
    dsimp only; split
    · exact hbuff.finWrite hw
    · exact hw
  cases r with
  | failed e => exact ⟨_, [], hnone, .error e⟩
  | again =>
    rcases Nat.eq_zero_or_pos offset with rfl | hpos
    · by_cases honly : (fin && decide (size = 0)) = true
      · obtain ⟨rfl, hsize⟩ : fin = true ∧ size = 0 := by simpa using honly
        subst hsize; exact ⟨_, _, hkeep (.inr honly), .finOnly _⟩
      · exact ⟨_, [], hdrop (by simpa using honly), .error .again⟩
    · refine ⟨_, _, hkeep (.inl hpos), ?_⟩
      obtain ⟨m, rfl⟩ := Nat.exists_eq_succ_of_ne_zero (Nat.pos_iff_ne_zero.mp hpos)
      exact .ok _ hle (.inl hpos) (hflag (.inr hpos))
  | done =>
    by_cases hno : offset = 0 ∧ (fin && decide (size = 0)) = false
    · obtain ⟨rfl, hno⟩ := hno
      refine ⟨_, [], hdrop (by rw [hno]; decide), ?_⟩
      simp only [sendResult, hno, and_self, if_true]; exact .error .again
    · have hsome : 0 < offset ∨ (fin && decide (size = 0)) = true := by
        rcases Nat.eq_zero_or_pos offset with h0 | hpos
        · refine .inr ?_
          rw [← Bool.not_eq_false]; exact fun hf => hno ⟨h0, hf⟩
        · exact .inl hpos
      refine ⟨_, _, hkeep hsome, ?_⟩
      simp only [sendResult, if_neg hno]
      refine .ok _ hle (hsome.imp_right fun honly => ?_) (hflag (.inl rfl))
      simp only [Bool.and_eq_true, decide_eq_true_eq] at honly ⊢
      exact ⟨honly.1, by omega⟩

lemma sendTyped_late (luck : Luck) (i size : Nat) (fin : Bool) (c : Conn) :
    ∃ k, Moved i k (c.streams i).writeBuffList c (sendTyped luck false i size fin c).2 := by
  obtain ⟨k, -, -, hm, -⟩ := sendFrames_moved luck false i size fin c
  refine ⟨k, ?_⟩
  unfold sendTyped
  simp only [Bool.false_eq_true, if_false]
  generalize sendFrames luck false i size fin c = res at hm ⊢
  obtain ⟨r, offset, c1⟩ := res
  cases r <;> exact hm

/-- A call of `xqc_stream_send`: only 0-RTT data is buffered. -/
lemma streamSend_moved (luck : Luck) (ready : Bool) (i size : Nat) (fin : Bool) (c : Conn) :
    ∃ k added, Moved i k ((c.streams i).writeBuffList ++ added) c (SendFlow.xqcStreamSend luck ready i size fin c).2 ∧
      ((sendsEarly ready i c = false ∧ added = []) ∨
        (sendsEarly ready i c = true ∧ (c.streams i).finWrite = false ∧
          Buffered size fin (SendFlow.xqcStreamSend luck ready i size fin c).2 i
            (SendFlow.xqcStreamSend luck ready i size fin c).1 added)) := by
  have hstay : Moved i 0 ((c.streams i).writeBuffList ++ []) c c := by
    rw [append_nil]; exact Moved.refl i c
  unfold SendFlow.xqcStreamSend sendsEarly
  by_cases h1 : c.state.isClosing = true
  · exact ⟨0, [], by simpa [h1] using hstay, by simp [h1]⟩
  by_cases h2 : (c.streams i).resetSent = true
  · exact ⟨0, [], by simpa [h1, h2] using hstay, by simp [h2]⟩
  by_cases h3 : (c.streams i).finWrite = true
  · exact ⟨0, [], by simpa [h1, h2, h3] using hstay, by simp [h3]⟩
  rw [if_neg h1, if_neg h2, if_neg h3]
  by_cases h4 : c.canSend1rtt = true
  · obtain ⟨k, hm⟩ := sendTyped_late luck i size fin c
    rw [if_pos h4]
    exact ⟨k, [], by rw [append_nil]; exact hm, by simp [h4]⟩
  rw [if_neg h4]
  by_cases h5 : c.client = true ∧ c.state = .clientInitialSent ∧ ready = true
  · obtain ⟨k, added, hm, hb⟩ := sendTyped_early luck i size fin h5.1
    rw [if_pos h5]
    refine ⟨k, added, hm, .inr ⟨?_, by simpa using h3, hb⟩⟩
    simp only [h2, h3, h4, h5.1, h5.2.1, h5.2.2]
    rfl
  · rw [if_neg h5]
    refine ⟨0, [], hstay, .inl ⟨?_, rfl⟩⟩
    simp only [not_and_or, Bool.not_eq_true] at h5
    rcases h5 with h5 | h5 | h5
    · simp [h5]
    · simp [h5]
    · simp [h5]

end Send

/-! ## The invariant -/

/-- What is buffered for a stream is what was accepted, until the stream is destroyed. -/
structure Faithful (client : Bool) (st : Stream) (buffs : List Buff) (accepted : List UInt8) (finAccepted : Bool) :
    Prop where
  early : st.has0rtt = true → client = true
  size : st.writeBuffList = buffs.map Buff.size
  solid : ∀ b ∈ buffs, b.data = [] → b.fin = true
  bytes : st.closed = false → buffs.flatMap (·.data) = accepted
  fin : st.closed = false → finAccepted = true → st.finWrite = true ∧ ∃ b, buffs.getLast? = some b ∧ b.fin = true

structure Inv (s : St) : Prop where
  sum : s.conn.fcDataSent = ∑ i ∈ range s.conn.next, (s.conn.streams i).sendOffset
  stream : ∀ i < s.conn.next,
    Faithful s.conn.client (s.conn.streams i) (s.buffs i) (s.accepted i) (s.finAccepted i)
  unborn : ∀ i, s.conn.next ≤ i → s.buffs i = [] ∧ s.accepted i = [] ∧ s.finAccepted i = false

lemma sum_moved {i k : Nat} {bs : List WriteBuff} {c c' : Conn} (hi : i < c.next) (hm : Moved i k bs c c') :
    ∑ j ∈ range c'.next, (c'.streams j).sendOffset = (∑ j ∈ range c.next, (c.streams j).sendOffset) + k := by
  have hoff : ∀ j, (c'.streams j).sendOffset = (c.streams j).sendOffset + if j = i then k else 0 := by
    intro j
    by_cases hj : j = i
    · rw [if_pos hj, hj, hm.offset]
    · rw [if_neg hj, hm.others hj, Nat.add_zero]
  rw [hm.next, sum_congr rfl fun j _ => hoff j, sum_add_distrib, sum_ite_eq', if_pos (mem_range.mpr hi)]

lemma Inv.changed {s s' : St} {i : Nat} (h : Inv s) (hi : i < s.conn.next) (hnext : s'.conn.next = s.conn.next)
    (hclient : s'.conn.client = s.conn.client) (hc : ∀ {j}, j ≠ i → s'.conn.streams j = s.conn.streams j)
    (hb : ∀ j ≠ i, s'.buffs j = s.buffs j) (ha : ∀ j ≠ i, s'.accepted j = s.accepted j)
    (hf : ∀ j ≠ i, s'.finAccepted j = s.finAccepted j)
    (hsum : s'.conn.fcDataSent = ∑ j ∈ range s'.conn.next, (s'.conn.streams j).sendOffset)
    (hone : Faithful s'.conn.client (s'.conn.streams i) (s'.buffs i) (s'.accepted i) (s'.finAccepted i)) : Inv s' := by
  refine ⟨hsum, fun j hj => ?_, fun j hj => ?_⟩
  · by_cases hji : j = i
    · subst hji; exact hone
    · rw [hnext] at hj; rw [hclient, hc hji, hb j hji, ha j hji, hf j hji]; exact h.stream j hj
  · rw [hnext] at hj
    have hji : j ≠ i := by omega
    rw [hb j hji, ha j hji, hf j hji]; exact h.unborn j hj

/-- The call of `xqc_stream_send` keeps its stream faithful. -/
lemma Faithful.buffered {client fin : Bool} {i : Nat} {c c' : Conn} {buffs : List Buff} {accepted data : List UInt8}
    {finAccepted : Bool} {k : Nat} {added : List WriteBuff} {r : Except SendErr Nat}
    (h : Faithful client (c.streams i) buffs accepted finAccepted) (hclient : c.client = client)
    (hm : Moved i k ((c.streams i).writeBuffList ++ added) c c') (hno : (c.streams i).finWrite = false)
    (hb : Buffered data.length fin c' i r added) :
    Faithful client (c'.streams i) (buffs ++ added.map fun b => ⟨data.take b.dataLength, b.fin⟩)
      (accepted ++ taken data r) (finAccepted || finTaken data fin r) := by
  -- no `fin` was accepted yet: the flag would be set
  have hnot : (c'.streams i).closed = false → finAccepted = false := by
    intro hopen; rw [← Bool.not_eq_true]
    intro hf
    have hw := (h.fin (hm.closed.symm.trans hopen) hf).1
    rw [hno] at hw; cases hw
  have hearly : (c'.streams i).has0rtt = true → client = true := by
    intro he
    rcases hm.early he with h1 | h1
    · exact h.early h1
    · exact hclient.symm.trans h1
  have hsize : ∀ b : WriteBuff, b.dataLength ≤ data.length →
      Buff.size ⟨data.take b.dataLength, b.fin⟩ = b := by
    intro b hle
    simp only [Buff.size, List.length_take, Nat.min_eq_left hle]
  cases hb with
  | error e =>
    rw [append_nil] at hm
    simp only [taken, finTaken, List.map_nil, append_nil, Bool.or_false]
    exact ⟨hearly, hm.buffs.trans h.size, h.solid, fun hopen => h.bytes (hm.closed.symm.trans hopen),
      fun hopen hf => absurd (hnot hopen) (by rw [hf]; decide)⟩
  | finOnly e =>
    simp only [taken, finTaken, append_nil, Bool.or_false]
    refine ⟨hearly, ?_, ?_, fun hopen => ?_, fun hopen hf => absurd (hnot hopen) (by rw [hf]; decide)⟩
    · rw [hm.buffs, h.size, List.map_append]; rfl
    · intro b hb
      rcases List.mem_append.mp hb with hb | hb
      · exact h.solid b hb
      · rw [List.map_singleton, List.mem_singleton] at hb; exact fun _ => by rw [hb]
    · rw [List.flatMap_append, h.bytes (hm.closed.symm.trans hopen)]; exact append_nil _
  | ok n hle hsome hfin =>
    simp only [taken, finTaken]
    refine ⟨hearly, ?_, ?_, fun hopen => ?_, fun hopen hf => ?_⟩
    · rw [hm.buffs, h.size, List.map_append, List.map_singleton, List.map_singleton, hsize _ hle]
    · intro b hb
      rcases List.mem_append.mp hb with hb | hb
      · exact h.solid b hb
      · rw [List.map_singleton, List.mem_singleton] at hb
        rw [hb]
        dsimp only
        intro hempty
        refine hsome.resolve_left fun hpos => ?_
        have hlen := congrArg List.length hempty
        rw [List.length_take, List.length_nil] at hlen; omega
    · rw [List.flatMap_append, h.bytes (hm.closed.symm.trans hopen), List.map_singleton, List.flatMap_singleton]
    · rw [hnot hopen, Bool.false_or] at hf
      exact ⟨hfin hf, _, by rw [List.map_singleton, List.getLast?_concat], hf⟩

lemma Faithful.still {client : Bool} {i k : Nat} {c c' : Conn} {buffs : List Buff} {accepted : List UInt8}
    {finAccepted : Bool} (h : Faithful client (c.streams i) buffs accepted finAccepted) (hclient : c.client = client)
    (hm : Moved i k (c.streams i).writeBuffList c c') :
    Faithful client (c'.streams i) buffs accepted finAccepted where
  early he := by
    rcases hm.early he with h1 | h1
    · exact h.early h1
    · exact hclient.symm.trans h1
  size := hm.buffs.trans h.size
  solid := h.solid
  bytes hopen := h.bytes (hm.closed.symm.trans hopen)
  fin hopen hf := by
    obtain ⟨hw, hlast⟩ := h.fin (hm.closed.symm.trans hopen) hf
    exact ⟨hm.finWrite hw, hlast⟩

lemma send_inv {s : St} {i : Nat} (h : Inv s) (hi : i < s.conn.next) (luck : Luck) (ready : Bool) (data : List UInt8)
    (fin : Bool) : Inv (xqcStreamSend luck ready i data fin s).2 := by
  obtain ⟨k, added, hm, hcase⟩ := streamSend_moved luck ready i data.length fin s.conn
  have hadded : ((SendFlow.xqcStreamSend luck ready i data.length fin s.conn).2.streams i).writeBuffList.drop
      (s.conn.streams i).writeBuffList.length = added := by rw [hm.buffs, List.drop_left]
  have hsum : (SendFlow.xqcStreamSend luck ready i data.length fin s.conn).2.fcDataSent =
      ∑ j ∈ range (SendFlow.xqcStreamSend luck ready i data.length fin s.conn).2.next,
        ((SendFlow.xqcStreamSend luck ready i data.length fin s.conn).2.streams j).sendOffset := by
    rw [sum_moved hi hm, hm.dataSent, h.sum]
  refine h.changed (i := i) hi hm.next hm.client hm.others (fun j hj => update_of_ne hj _ _)
    (fun j hj => update_of_ne hj _ _) (fun j hj => update_of_ne hj _ _) hsum ?_
  unfold xqcStreamSend
  dsimp only; rw [hadded, update_self, update_self, update_self, hm.client]
  rcases hcase with ⟨hlate, rfl⟩ | ⟨hearly, hno, hb⟩
  · rw [append_nil] at hm
    simp only [hlate, Bool.false_eq_true, if_false, List.map_nil, append_nil, Bool.false_and, Bool.or_false]
    exact (h.stream i hi).still rfl hm
  · simp only [hearly, if_true, Bool.true_and]; exact (h.stream i hi).buffered rfl hm hno hb

lemma destroy_inv {s : St} {i : Nat} (h : Inv s) (hi : i < s.conn.next) :
    Inv ({ s with conn := s.conn.modify i ({ · with closed := true }) }.setBuffs i []) := by
  refine h.changed (i := i) hi rfl rfl ?_ (fun j hj => update_of_ne hj _ _) (fun _ _ => rfl) (fun _ _ => rfl)
    ?_ ?_
  · intro j hj; simp [St.setBuffs, Conn.modify, update_of_ne hj]
  · refine h.sum.trans (sum_congr rfl fun j _ => ?_)
    by_cases hj : j = i
    · simp [St.setBuffs, Conn.modify, hj]
    · simp [St.setBuffs, Conn.modify, update_of_ne hj]
  · have hst := h.stream i hi
    refine ⟨?_, ?_, ?_, fun hopen => ?_, fun hopen => ?_⟩
    · simpa [St.setBuffs, Conn.modify] using hst.early
    all_goals simp [St.setBuffs, Conn.modify] at *

structure Kept (c c' : Conn) : Prop where
  next : c'.next = c.next
  client : c'.client = c.client
  dataSent : c'.fcDataSent = c.fcDataSent
  streams : ∀ j, (c'.streams j).sendOffset = (c.streams j).sendOffset ∧ (c'.streams j).has0rtt = (c.streams j).has0rtt ∧
    (c'.streams j).closed = (c.streams j).closed ∧ (c'.streams j).finWrite = (c.streams j).finWrite ∧
    (c'.streams j).writeBuffList = (c.streams j).writeBuffList

lemma Inv.kept {s : St} {c : Conn} (h : Inv s) (hk : Kept s.conn c) : Inv { s with conn := c } := by
  refine ⟨?_, fun i hi => ?_, fun i hi => ?_⟩
  · refine hk.dataSent.trans (h.sum.trans ?_)
    rw [hk.next]; exact sum_congr rfl fun j _ => (hk.streams j).1.symm
  · obtain ⟨-, h1, h2, h3, h4⟩ := hk.streams i
    have hst := h.stream i (hk.next ▸ hi)
    rw [hk.client]
    exact ⟨h1.symm ▸ hst.early, h4.trans hst.size, hst.solid, h2.symm ▸ hst.bytes, h2.symm ▸ h3.symm ▸ hst.fin⟩
  · exact h.unborn i (hk.next ▸ hi)

lemma Kept.modify (c : Conn) (i : Nat) {f : Stream → Stream}
    (h : (f (c.streams i)).sendOffset = (c.streams i).sendOffset ∧ (f (c.streams i)).has0rtt = (c.streams i).has0rtt ∧
      (f (c.streams i)).closed = (c.streams i).closed ∧ (f (c.streams i)).finWrite = (c.streams i).finWrite ∧
      (f (c.streams i)).writeBuffList = (c.streams i).writeBuffList) : Kept c (c.modify i f) := by
  refine ⟨rfl, rfl, rfl, fun j => ?_⟩
  by_cases hj : j = i
  · subst hj; simpa [Conn.modify] using h
  · simp [Conn.modify, update_of_ne hj]

lemma updateLimits_kept (c : Conn) : Kept c { SendFlow.updateLimits c with handshakeCompleted := true } := by
  suffices h : ∀ (is : List Nat) (d : Conn), Kept c d → Kept c (is.foldl setFlowCtl d) by
    obtain ⟨h1, h2, h3, h4⟩ := h c.allStreams { c with fcMaxDataCanSend := c.remoteSettings.maxData.toNat }
      ⟨rfl, rfl, rfl, fun _ => ⟨rfl, rfl, rfl, rfl, rfl⟩⟩
    exact ⟨h1, h2, h3, h4⟩
  intro is
  induction is with
  | nil => exact fun d h => h
  | cons i is ih =>
    intro d h
    obtain ⟨h1, h2, h3, h4⟩ := Kept.modify d i (f := fun s => { s with fcMaxStreamDataCanSend := d.limit s.type })
      ⟨rfl, rfl, rfl, rfl, rfl⟩
    refine ih (setFlowCtl d i) ⟨h1.trans h.next, h2.trans h.client, h3.trans h.dataSent, fun j => ?_⟩
    obtain ⟨k1, k2, k3, k4, k5⟩ := h4 j
    obtain ⟨l1, l2, l3, l4, l5⟩ := h.streams j
    exact ⟨k1.trans l1, k2.trans l2, k3.trans l3, k4.trans l4, k5.trans l5⟩

lemma create_inv {s : St} (h : Inv s) (id : Nat) (type : StreamType) :
    Inv { s with conn := xqcCreateStreamWithConn id type s.conn } := by
  unfold xqcCreateStreamWithConn; split
  · exact h
  · refine ⟨?_, fun j hj => ?_, fun j hj => h.unborn j (by dsimp only at hj; omega)⟩
    · rw [sum_range_succ]
      simp only [update_self, Nat.add_zero]
      refine h.sum.trans (sum_congr rfl fun j hj => ?_)
      rw [update_of_ne (Nat.ne_of_lt (mem_range.mp hj))]
    · dsimp only
      rcases Nat.lt_succ_iff_lt_or_eq.mp hj with hlt | rfl
      · rw [update_of_ne (Nat.ne_of_lt hlt)]; exact h.stream j hlt
      · obtain ⟨h1, h2, h3⟩ := h.unborn _ (Nat.le_refl s.conn.next)
        rw [update_self, h1, h2, h3]
        exact ⟨fun h => (by cases h), rfl, fun _ h => (by cases h), fun _ => rfl, fun _ h => (by cases h)⟩

lemma step_inv {s s' : St} {e : Ev} (h : Inv s) (hs : Step s e s') : Inv s' := by
  cases hs with
  | send luck ready i data fin hi => exact send_inv h hi.1 luck ready data fin
  | destroy i hi => exact destroy_inv h hi.1
  | updateLimits => exact h.kept (updateLimits_kept s.conn)
  | other e c hq hs =>
    have hsame : ∀ {c : Conn}, c.next = s.conn.next → c.client = s.conn.client → c.fcDataSent = s.conn.fcDataSent →
        c.streams = s.conn.streams → Inv { s with conn := c } := by
      intro c h1 h2 h3 h4
      exact h.kept ⟨h1, h2, h3, fun j => by rw [h4]; exact ⟨rfl, rfl, rfl, rfl, rfl⟩⟩
    cases hs with
    | create id type => exact create_inv h id type
    | maxData n =>
      unfold xqcProcessMaxDataFrame; split
      · exact hsame rfl rfl rfl rfl
      · exact h
    | maxStreamData i n hi =>
      unfold xqcProcessMaxStreamDataFrame; split
      · exact h.kept (Kept.modify s.conn i ⟨rfl, rfl, rfl, rfl, rfl⟩)
      · exact h
    | earlyParams settings =>
      unfold xqcConnSetEarlyRemoteTransportParams; split
      · exact hsame rfl rfl rfl rfl
      · exact h
    | params settings | txKey | state state => exact hsame rfl rfl rfl rfl
    | resetSent i hi | resetRecvd i hi => exact h.kept (Kept.modify s.conn i ⟨rfl, rfl, rfl, rfl, rfl⟩)
    | send luck ready i size fin hi | destroy i hi | handshakeComplete wrote early header hst hn => exact absurd hq id

theorem run_inv {s s' : St} {es : List Ev} (h0 : s.Fresh) (h : Run Step s es s') : Inv s' := by
  refine h.inv (P := Inv) (fun _ _ _ => step_inv) ⟨?_, fun i hi => ?_, fun i _ => ?_⟩
  · rw [h0.conn.dataSent, h0.conn.next, range_zero, sum_empty]
  · rw [h0.conn.next] at hi; exact absurd hi (Nat.not_lt_zero i)
  · exact ⟨h0.buffs i, h0.accepted i, h0.finAccepted i⟩

end RlccQuic.Transport.EarlyData
