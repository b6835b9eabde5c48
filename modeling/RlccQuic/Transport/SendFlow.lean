/-
  RlccQuic.Transport.SendFlow — flow control on the sending side (`xqc_stream.c`: `xqc_stream_send`,
  `xqc_stream_do_send_flow_ctl`, `xqc_stream_write_buffed_data_to_packets`; `xqc_packet_out.c`:
  `xqc_write_stream_frame_to_packet`; `xqc_conn.c`: `xqc_conn_handshake_complete`, `xqc_conn_early_data_reject`).

  Before each frame of a 1-RTT packet the limits are tested as if the frame had `XQC_PACKET_OUT_SIZE` bytes. The frames of
  0-RTT packets, and those written again when early data is rejected, are not tested. A rejection sets the offset of a stream
  back to 0, but not the count of the connection, and the end of the handshake replaces all limits by those of the peer.

  The sizes of packet headers, the packets that can be had and the state of TLS are chosen freely. Limits are at most
  62-bit integers of the wire, or constants, so offsets and counts are `Nat`.

  Proved: over every run in which packets are not larger than the size that is tested, 0-RTT data fits the limits, early
  data is not rejected once a stream has sent some of it, and no new limit is below what was sent, the limits are kept
  and the count is the sum of the offsets (`limits_are_kept`). Early data that is rejected is counted twice
  (`rejected_data_is_counted_twice`).
-/

import Mathlib.Algebra.BigOperators.Group.Finset.Piecewise
import Mathlib.Algebra.Order.BigOperators.Group.Finset
import RlccQuic.Lib.Run
import RlccQuic.Transport.Defs

namespace RlccQuic.Transport.SendFlow

open Lib Finset Function
open Nat (add_assoc zero_add le_zero)

/-! ## State -/

/-- `xqc_stream_write_buff_t`: 0-RTT data that may have to be sent again. -/
structure WriteBuff where
  dataLength : Nat
  fin : Bool
  deriving DecidableEq, Repr

structure Stream where
  id : Nat
  type : StreamType
  sendOffset : Nat
  fcMaxStreamDataCanSend : Nat
  has0rtt : Bool
  finWrite : Bool
  dataBlocked : Bool
  /-- `stream_state_send >= XQC_SEND_STREAM_ST_RESET_SENT`. -/
  resetSent : Bool
  /-- `stream_state_recv >= XQC_RECV_STREAM_ST_RESET_RECVD`. -/
  resetRecvd : Bool
  /-- The stream was destroyed, and is not in `conn_all_streams` any more. -/
  closed : Bool
  writeBuffList : List WriteBuff
  deriving DecidableEq, Repr

/-- A connection; its streams are counted in the order they were created in. -/
structure Conn where
  client : Bool
  state : ConnState
  canSend1rtt : Bool
  handshakeCompleted : Bool
  has0rtt : Bool
  zeroRttOk : Bool
  zeroRttRej : Bool
  dataBlocked : Bool
  zeroRttCount : Nat
  /-- `max_pkt_out_size`. -/
  pktOutSize : Nat
  fcMaxDataCanSend : Nat
  fcDataSent : Nat
  localSettings : TransSettings
  remoteSettings : TransSettings
  next : Nat
  streams : Nat → Stream

def Conn.modify (i : Nat) (f : Stream → Stream) (c : Conn) : Conn :=
  { c with streams := update c.streams i (f (c.streams i)) }

def Conn.allStreams (c : Conn) : List Nat := (List.range c.next).filter fun i => !(c.streams i).closed

/-! ## One frame -/

def xqcPacketOutSize : Nat := 1200

def xqcPacket0rttMaxCount : Nat := 30

def xqcVintLen (n : Nat) : Nat := if n < 2 ^ 6 then 1 else if n < 2 ^ 14 then 2 else if n < 2 ^ 30 then 4 else 8

/-- `xqc_gen_stream_frame` into `room` bytes: the bytes of the frame and of its data, or `XQC_ENOBUF`. With more data
    than there is room for, the bytes of the length lie beyond the room. -/
def xqcGenStreamFrame (room id offset : Nat) (fin : Bool) (size : Nat) : Option (Nat × Nat) :=
  let head := 1 + xqcVintLen id + (if offset = 0 then 0 else xqcVintLen offset)
  if fin = true ∧ size = 0 then
    let lengthLen := if head < room then 1 else 0
    if head + lengthLen > room then none else some (head + lengthLen, 0)
  else
    let avail := room - head
    if size ≤ avail then
      let avail := avail - xqcVintLen size
      let written := min size avail
      if avail = 0 then none else some (head + xqcVintLen size + written, written)
    else if avail = 0 then none
    else some (head + xqcVintLen avail + avail, avail)

inductive SendErr where
  | closing
  | streamReset
  | again
  | writePkt
  | noBuf
  deriving DecidableEq, Repr

/-- The bytes written are counted; `fin` is written if they are all there is. -/
def noteWritten (early : Bool) (i : Nat) (fin : Bool) (size written : Nat) (c : Conn) : Conn :=
  let c := c.modify i fun s =>
    { s with sendOffset := s.sendOffset + written, finWrite := s.finWrite || (fin && decide (written = size)) }
  { c with
    fcDataSent := c.fcDataSent + written
    zeroRttCount := if early then c.zeroRttCount + 1 else c.zeroRttCount }

/-- `xqc_write_stream_frame_to_packet`; `header` has the bytes of a new packet's header,
    if there is one. A new packet has room for the note of one frame. -/
def xqcWriteStreamFrameToPacket (header : Option Nat) (early : Bool) (i : Nat) (fin : Bool) (size : Nat) (c : Conn) :
    Except SendErr Nat × Conn :=
  match header with
  | none => (.error .writePkt, c)
  | some h =>
    match xqcGenStreamFrame (c.pktOutSize - h) (c.streams i).id (c.streams i).sendOffset fin size with
    | none => (.error .noBuf, c)
    | some (_, written) => (.ok written, noteWritten early i fin size written c)

/-! ## `xqc_stream_send` -/

inductive Blocked where
  | conn
  | stream
  deriving DecidableEq, Repr

/-- `xqc_stream_do_send_flow_ctl`, without the frames that tell the peer. -/
def xqcStreamDoSendFlowCtl (i : Nat) (c : Conn) : Option Blocked × Conn :=
  let s := c.streams i
  let r : Option Blocked × Conn :=
    if c.fcDataSent + xqcPacketOutSize > c.fcMaxDataCanSend then (some .conn, { c with dataBlocked := true })
    else (none, c)
  if s.sendOffset + xqcPacketOutSize > s.fcMaxStreamDataCanSend then
    (some .stream, r.2.modify i ({ · with dataBlocked := true }))
  else r

/-- What the packets of a call meet with: the `n`-th can be written
    (`xqc_send_ctl_can_write`), and the bytes of its header, if it can be had. -/
structure Luck where
  canWrite : Nat → Bool
  header : Nat → Option Nat

def gate (luck : Luck) (early : Bool) (i n : Nat) (c : Conn) : Bool × Conn :=
  let r : Option Blocked × Conn := if early then (none, c) else xqcStreamDoSendFlowCtl i c
  (r.1.isNone && luck.canWrite n && !(early && decide (r.2.zeroRttCount ≥ xqcPacket0rttMaxCount)), r.2)

inductive Ended where
  | done
  | again
  | failed (e : SendErr)
  deriving DecidableEq, Repr

lemma xqcVintLen_pos (n : Nat) : 0 < xqcVintLen n := by
  unfold xqcVintLen
  split_ifs <;> omega

variable {n : Nat} {fin : Bool}

/-- A frame holds no more than it was given, but something of it, and its type and the stream's id take two bytes. -/
lemma written_le {room id offset size len : Nat} (h : xqcGenStreamFrame room id offset fin size = some (len, n)) :
    n ≤ size ∧ n ≤ room - 2 ∧ (0 < size → 0 < n) := by
  have hid := xqcVintLen_pos id
  unfold xqcGenStreamFrame at h
  dsimp only at h
  generalize (if offset = 0 then 0 else xqcVintLen offset) = off at h
  split_ifs at h with h1 h2 h3 h4 h5 <;> cases h <;> omega

variable {early : Bool}

lemma write_cases (header : Option Nat) (early fin : Bool) (i size : Nat) (c : Conn) :
    (∃ e, xqcWriteStreamFrameToPacket header early i fin size c = (.error e, c)) ∨
    ∃ n m len, xqcWriteStreamFrameToPacket header early i fin size c = (.ok n, noteWritten early i fin size n c) ∧
      header = some m ∧
      xqcGenStreamFrame (c.pktOutSize - m) (c.streams i).id (c.streams i).sendOffset fin size = some (len, n) := by
  unfold xqcWriteStreamFrameToPacket
  cases header with
  | none => exact .inl ⟨_, rfl⟩
  | some m =>
    cases hgen : xqcGenStreamFrame (c.pktOutSize - m) (c.streams i).id (c.streams i).sendOffset fin size with
    | none => exact .inl ⟨.noBuf, by simp [hgen]⟩
    | some r => exact .inr ⟨r.2, m, r.1, by simp [hgen], rfl, hgen⟩

/-- The loop of `xqc_stream_send`, `offset` bytes and `n` frames on; and the offset it
    ends at. A frame takes a byte at least, so there are no more frames than bytes. -/
def sendLoop (luck : Luck) (early : Bool) (i : Nat) (fin : Bool) (size : Nat) :
    (fuel n offset : Nat) → Conn → Ended × Nat × Conn
  | 0, _, offset, c => (.done, offset, c)
  | fuel + 1, n, offset, c =>
    if offset < size then
      match gate luck early i n c with
      | (false, c) => (.again, offset, c)
      | (true, c) =>
        match xqcWriteStreamFrameToPacket (luck.header n) early i fin (size - offset) c with
        | (.error e, c) => (.failed e, offset, c)
        | (.ok written, c) => sendLoop luck early i fin size fuel (n + 1) (offset + written) c
    else (.done, offset, c)

/-- The same for a call that only has a `fin` to send: one round. -/
def sendFin (luck : Luck) (early : Bool) (i : Nat) (c : Conn) : Ended × Nat × Conn :=
  match gate luck early i 0 c with
  | (false, c) => (.again, 0, c)
  | (true, c) =>
    match xqcWriteStreamFrameToPacket (luck.header 0) early i true 0 c with
    | (.error e, c) => (.failed e, 0, c)
    | (.ok _, c) => (.done, 0, c)

def xqcStreamBuffData (i size : Nat) (fin : Bool) (c : Conn) : Conn :=
  c.modify i fun s => { s with writeBuffList := s.writeBuffList ++ [⟨size, fin⟩] }

/-- `do_buff`: what went out as 0-RTT data is kept. -/
def buffEarly (i size : Nat) (fin : Bool) (offset : Nat) (c : Conn) : Conn :=
  let finOnly := fin && decide (size = 0)
  let fin := fin && decide (offset = size)
  if offset > 0 ∨ finOnly = true then xqcStreamBuffData i offset fin c else c

def markEarly (i : Nat) (c : Conn) : Conn := { c.modify i ({ · with has0rtt := true }) with has0rtt := true }

/-- What the call returns: the bytes written, or an error if there is nothing written. -/
def sendResult (finOnly : Bool) : Ended → Nat → Except SendErr Nat
  | .failed e, _ => .error e
  | .again, 0 => .error .again
  | .again, offset => .ok offset
  | .done, offset => if offset = 0 ∧ finOnly = false then .error .again else .ok offset

def sendFrames (luck : Luck) (early : Bool) (i size : Nat) (fin : Bool) (c : Conn) : Ended × Nat × Conn :=
  if fin = true ∧ size = 0 then sendFin luck early i c else sendLoop luck early i fin size size 0 0 c

def sendTyped (luck : Luck) (early : Bool) (i size : Nat) (fin : Bool) (c : Conn) : Except SendErr Nat × Conn :=
  match sendFrames luck early i size fin (if early then markEarly i c else c) with
  | (.failed e, _, c) => (.error e, c)
  | (r, offset, c) =>
    (sendResult (fin && decide (size = 0)) r offset, if early then buffEarly i size fin offset c else c)

/-- `xqc_stream_send`; `ready` says that TLS can send early data. A call with nothing to
    send returns the value of `ret` it finds; here that is `again`. -/
def xqcStreamSend (luck : Luck) (ready : Bool) (i size : Nat) (fin : Bool) (c : Conn) : Except SendErr Nat × Conn :=
  let s := c.streams i
  if c.state.isClosing then (.error .closing, c)
  else if s.resetSent then (.error .streamReset, c)
  else if s.finWrite then (.ok 0, c)
  else if c.canSend1rtt then sendTyped luck false i size fin c
  else if c.client = true ∧ c.state = .clientInitialSent ∧ ready = true then sendTyped luck true i size fin c
  else (.error .again, c)

/-! ## The end of the handshake -/

/-- The inner loop of `xqc_stream_write_buffed_data_to_packets`: nothing is tested. -/
def writeLoop (header : Nat → Option Nat) (i : Nat) (fin : Bool) (size : Nat) : (fuel n offset : Nat) → Conn → Bool × Conn
  | 0, _, _, c => (true, c)
  | fuel + 1, n, offset, c =>
    if offset < size then
      match xqcWriteStreamFrameToPacket (header n) false i fin (size - offset) c with
      | (.error _, c) => (false, c)
      | (.ok written, c) => writeLoop header i fin size fuel (n + 1) (offset + written) c
    else (true, c)

def writeBuff (header : Nat → Option Nat) (i : Nat) (b : WriteBuff) (c : Conn) : Bool × Conn :=
  if b.fin = true ∧ b.dataLength = 0 then
    match xqcWriteStreamFrameToPacket (header 0) false i true 0 c with
    | (.error _, c) => (false, c)
    | (.ok _, c) => (true, c)
  else writeLoop header i b.fin b.dataLength b.dataLength 0 0 c

/-- `xqc_stream_write_buffed_data_to_packets`; a buffer that was written is freed. -/
def xqcStreamWriteBuffedDataToPackets (header : Nat → Option Nat) (i : Nat) : List WriteBuff → Conn → Conn
  | [], c => c
  | b :: bs, c =>
    match writeBuff header i b c with
    | (false, c) => c
    | (true, c) => xqcStreamWriteBuffedDataToPackets header i bs (c.modify i ({ · with writeBuffList := bs }))

/-- The loop of `xqc_conn_early_data_reject`, which a stream that was reset ends. -/
def rejectLoop (header : Nat → Nat → Option Nat) : List Nat → Conn → Conn
  | [], c => c
  | i :: is, c =>
    if (c.streams i).has0rtt then
      let c := c.modify i ({ · with sendOffset := 0 })
      if (c.streams i).resetSent || (c.streams i).resetRecvd then c.modify i ({ · with writeBuffList := [] })
      else rejectLoop header is (xqcStreamWriteBuffedDataToPackets (header i) i (c.streams i).writeBuffList c)
    else rejectLoop header is c

def xqcConnEarlyDataReject (header : Nat → Nat → Option Nat) (c : Conn) : Conn :=
  let c := { c with zeroRttRej := true }
  if c.client then rejectLoop header c.allStreams c else c

def xqcConnEarlyDataAccept (c : Conn) : Conn :=
  let c := { c with zeroRttOk := true }
  if c.client then c.allStreams.foldl (fun c i => c.modify i ({ · with writeBuffList := [] })) c else c

/-- `xqc_stream_set_flow_ctl`, for a stream of the type it is given. -/
def Conn.limit (c : Conn) (type : StreamType) : Nat :=
  (xqcStreamSetFlowCtl c.client type c.localSettings c.remoteSettings).fcMaxStreamDataCanSend.toNat

def setFlowCtl (c : Conn) (i : Nat) : Conn :=
  c.modify i fun s => { s with fcMaxStreamDataCanSend := c.limit s.type }

inductive EarlyData where
  | none
  | accept
  | reject
  deriving DecidableEq, Repr

/-- The first part of `xqc_conn_handshake_complete`: the limits are the peer's. -/
def updateLimits (c : Conn) : Conn := c.allStreams.foldl setFlowCtl { c with fcMaxDataCanSend := c.remoteSettings.maxData.toNat }

/-- The rest of it; `wrote` says that a server could write HANDSHAKE_DONE. -/
def finishHandshake (wrote : Bool) (early : EarlyData) (header : Nat → Nat → Option Nat) (c : Conn) : Conn :=
  if c.client = false ∧ wrote = false then c
  else if (c.client = false ∨ c.has0rtt = true) ∧ c.zeroRttOk = false ∧ c.zeroRttRej = false then
    match early with
    | .none => c
    | .accept => xqcConnEarlyDataAccept c
    | .reject => xqcConnEarlyDataReject header c
  else c

def xqcConnHandshakeComplete (wrote : Bool) (early : EarlyData) (header : Nat → Nat → Option Nat) (c : Conn) : Conn :=
  finishHandshake wrote early header { updateLimits c with handshakeCompleted := true }

/-! ## The machine -/

/-- A new stream. Its limit is set before its type is, which is that of a client's bidirectional stream until then. -/
def xqcCreateStreamWithConn (id : Nat) (type : StreamType) (c : Conn) : Conn :=
  if c.state.isClosing then c
  else
    { c with
      next := c.next + 1
      streams := update c.streams c.next
        { id, type, sendOffset := 0, fcMaxStreamDataCanSend := c.limit .cliBid, has0rtt := false, finWrite := false,
          dataBlocked := false, resetSent := false, resetRecvd := false, closed := false, writeBuffList := [] } }

def xqcProcessMaxDataFrame (maxData : Nat) (c : Conn) : Conn :=
  if maxData > c.fcMaxDataCanSend then { c with fcMaxDataCanSend := maxData, dataBlocked := false } else c

def xqcProcessMaxStreamDataFrame (i maxStreamData : Nat) (c : Conn) : Conn :=
  if maxStreamData > (c.streams i).fcMaxStreamDataCanSend then
    c.modify i ({ · with fcMaxStreamDataCanSend := maxStreamData, dataBlocked := false })
  else c

def xqcConnSetEarlyRemoteTransportParams (settings : TransSettings) (c : Conn) : Conn :=
  if c.client then { c with remoteSettings := settings, fcMaxDataCanSend := settings.maxData.toNat } else c

inductive Ev where
  | create (id : Nat) (type : StreamType)
  | send (luck : Luck) (ready : Bool) (i size : Nat) (fin : Bool)
  | maxData (n : Nat)
  | maxStreamData (i n : Nat)
  | earlyParams (settings : TransSettings)
  /-- The transport parameters of the peer. -/
  | params (settings : TransSettings)
  | handshakeComplete (wrote : Bool) (early : EarlyData) (header : Nat → Nat → Option Nat)
  /-- `xqc_conn_check_tx_key`. -/
  | txKey
  | state (state : ConnState)
  /-- RESET_STREAM was sent, or came in. -/
  | resetSent (i : Nat)
  | resetRecvd (i : Nat)
  | destroy (i : Nat)

def Conn.Open (c : Conn) (i : Nat) : Prop := i < c.next ∧ (c.streams i).closed = false

inductive Step : Conn → Ev → Conn → Prop
  | create (c : Conn) (id : Nat) (type : StreamType) : Step c (.create id type) (xqcCreateStreamWithConn id type c)
  | send (c : Conn) (luck : Luck) (ready : Bool) (i size : Nat) (fin : Bool) (hi : c.Open i) :
      Step c (.send luck ready i size fin) (xqcStreamSend luck ready i size fin c).2
  | maxData (c : Conn) (n : Nat) : Step c (.maxData n) (xqcProcessMaxDataFrame n c)
  | maxStreamData (c : Conn) (i n : Nat) (hi : c.Open i) :
      Step c (.maxStreamData i n) (xqcProcessMaxStreamDataFrame i n c)
  | earlyParams (c : Conn) (settings : TransSettings) :
      Step c (.earlyParams settings) (xqcConnSetEarlyRemoteTransportParams settings c)
  | params (c : Conn) (settings : TransSettings) : Step c (.params settings) { c with remoteSettings := settings }
  | handshakeComplete (c : Conn) (wrote : Bool) (early : EarlyData) (header : Nat → Nat → Option Nat)
      (hs : c.state = .estabed) (hn : c.handshakeCompleted = false) :
      Step c (.handshakeComplete wrote early header) (xqcConnHandshakeComplete wrote early header c)
  | txKey (c : Conn) : Step c .txKey { c with canSend1rtt := true }
  | state (c : Conn) (state : ConnState) : Step c (.state state) { c with state := state }
  | resetSent (c : Conn) (i : Nat) (hi : c.Open i) : Step c (.resetSent i) (c.modify i ({ · with resetSent := true }))
  | resetRecvd (c : Conn) (i : Nat) (hi : c.Open i) : Step c (.resetRecvd i) (c.modify i ({ · with resetRecvd := true }))
  | destroy (c : Conn) (i : Nat) (hi : c.Open i) :
      Step c (.destroy i) (c.modify i ({ · with closed := true, writeBuffList := [] }))

/-- `xqc_conn_create`: no stream yet, and the local limits until the peer's are known. -/
structure Conn.Fresh (c : Conn) : Prop where
  next : c.next = 0
  dataSent : c.fcDataSent = 0
  maxData : c.fcMaxDataCanSend = c.localSettings.maxData.toNat
  handshakeCompleted : c.handshakeCompleted = false
  pktOutSize : xqcPacketOutSize ≤ c.pktOutSize

/-! ## What is written -/

def buffTotal (s : Stream) : Nat := (s.writeBuffList.map (·.dataLength)).sum

def Fits (c : Conn) (i k : Nat) : Prop :=
  c.fcDataSent + k ≤ c.fcMaxDataCanSend ∧ (c.streams i).sendOffset + k ≤ (c.streams i).fcMaxStreamDataCanSend

/-- `k` bytes of stream `i` were written, and until the handshake is complete what is buffered does not grow. -/
structure Writes (i k : Nat) (c c' : Conn) : Prop where
  next : c'.next = c.next
  dataSent : c'.fcDataSent = c.fcDataSent + k
  maxData : c'.fcMaxDataCanSend = c.fcMaxDataCanSend
  pktOutSize : c'.pktOutSize = c.pktOutSize
  completed : c'.handshakeCompleted = c.handshakeCompleted
  others : ∀ {j}, j ≠ i → c'.streams j = c.streams j
  offset : (c'.streams i).sendOffset = (c.streams i).sendOffset + k
  limit : (c'.streams i).fcMaxStreamDataCanSend = (c.streams i).fcMaxStreamDataCanSend
  buff : c.handshakeCompleted = false → buffTotal (c'.streams i) ≤ buffTotal (c.streams i)

namespace Writes

variable {c c' c'' : Conn} {i k m : Nat}

lemma refl (i : Nat) (c : Conn) : Writes i 0 c c :=
  ⟨rfl, rfl, rfl, rfl, rfl, fun _ => rfl, rfl, rfl, fun _ => le_rfl⟩

lemma trans (h : Writes i k c c') (h' : Writes i m c' c'') : Writes i (k + m) c c'' where
  next := h'.next.trans h.next
  dataSent := by rw [h'.dataSent, h.dataSent, add_assoc]
  maxData := h'.maxData.trans h.maxData
  pktOutSize := h'.pktOutSize.trans h.pktOutSize
  completed := h'.completed.trans h.completed
  others hj := (h'.others hj).trans (h.others hj)
  offset := by rw [h'.offset, h.offset, add_assoc]
  limit := h'.limit.trans h.limit
  buff hn := (h'.buff (h.completed.trans hn)).trans (h.buff hn)

lemma fits (h : Writes i k c c') : Fits c' i m ↔ Fits c i (k + m) := by
  unfold Fits; rw [h.dataSent, h.maxData, h.offset, h.limit, add_assoc, add_assoc]

lemma offsets (h : Writes i k c c') (j : Nat) :
    (c'.streams j).sendOffset = (c.streams j).sendOffset + if j = i then k else 0 := by
  split
  · rename_i hj; rw [hj, h.offset]
  · rename_i hj; rw [h.others hj, Nat.add_zero]

lemma modify (c : Conn) (i : Nat) {f : Stream → Stream} (ho : (f (c.streams i)).sendOffset = (c.streams i).sendOffset)
    (hl : (f (c.streams i)).fcMaxStreamDataCanSend = (c.streams i).fcMaxStreamDataCanSend)
    (hb : c.handshakeCompleted = false → buffTotal (f (c.streams i)) ≤ buffTotal (c.streams i)) :
    Writes i 0 c (c.modify i f) := by
  refine ⟨rfl, rfl, rfl, rfl, rfl, fun hj => update_of_ne hj _ _, ?_, ?_, fun hn => ?_⟩
  all_goals simp only [Conn.modify, update_self]
  · exact ho
  · exact hl
  · exact hb hn

end Writes

lemma Fits.mono {c : Conn} {i k m : Nat} (h : Fits c i m) (hk : k ≤ m) : Fits c i k := by
  unfold Fits at *
  omega

lemma noteWritten_writes (early : Bool) (i : Nat) (fin : Bool) (size n : Nat) (c : Conn) :
    Writes i n c (noteWritten early i fin size n c) := by
  refine ⟨rfl, rfl, rfl, rfl, rfl, fun hj => update_of_ne hj _ _, ?_, ?_, fun _ => ?_⟩
  all_goals simp [noteWritten, Conn.modify, buffTotal]

lemma doSendFlowCtl_writes (i : Nat) (c : Conn) : Writes i 0 c (xqcStreamDoSendFlowCtl i c).2 := by
  have hconn : ∀ b, Writes i 0 c { c with dataBlocked := b } := by
    intro b
    exact ⟨rfl, rfl, rfl, rfl, rfl, fun _ => rfl, rfl, rfl, fun _ => le_rfl⟩
  unfold xqcStreamDoSendFlowCtl
  dsimp only
  split_ifs
  · exact (hconn true).trans (Writes.modify _ i (f := ({ · with dataBlocked := true })) rfl rfl fun _ => le_rfl)
  · exact Writes.modify c i (f := ({ · with dataBlocked := true })) rfl rfl fun _ => le_rfl
  · exact hconn true
  · exact Writes.refl i c

lemma doSendFlowCtl_fits {i : Nat} {c : Conn} (h : (xqcStreamDoSendFlowCtl i c).1 = none) : Fits c i xqcPacketOutSize := by
  unfold xqcStreamDoSendFlowCtl at h
  dsimp only at h
  unfold Fits
  split_ifs at h
  omega

variable {luck : Luck}

/-- What passes the tests has room for `XQC_PACKET_OUT_SIZE` bytes, unless it is 0-RTT. -/
lemma gate_writes {i : Nat} {c c' : Conn} {ok : Bool}
    (h : gate luck early i n c = (ok, c')) :
    Writes i 0 c c' ∧ (ok = true → early = false → Fits c' i xqcPacketOutSize) := by
  unfold gate at h
  simp only [Prod.mk.injEq] at h
  obtain ⟨hok, rfl⟩ := h
  cases early with
  | true => exact ⟨Writes.refl i c, fun _ he => by cases he⟩
  | false =>
    have hw := doSendFlowCtl_writes i c
    simp only [Bool.false_eq_true, if_false] at hok ⊢
    refine ⟨hw, fun hpass _ => ?_⟩
    rw [hpass] at hok
    simp only [Bool.and_eq_true, Option.isNone_iff_eq_none] at hok; rw [hw.fits, zero_add]
    exact doSendFlowCtl_fits hok.1.1

def Small (luck : Luck) (c : Conn) : Prop := ∀ n h, luck.header n = some h → c.pktOutSize ≤ xqcPacketOutSize + h + 2

/-- A call of `xqc_stream_send` writes some bytes, and keeps the limits if all it has to
    send fits, or if each packet that passes the test does. -/
lemma sendLoop_writes (luck : Luck) (early fin : Bool) {i size : Nat} (fuel : Nat) : ∀ (n offset : Nat) {c : Conn},
    Fits c i 0 → Fits c i (size - offset) ∨ (early = false ∧ Small luck c) →
    ∃ k, (sendLoop luck early i fin size fuel n offset c).2.1 = offset + k ∧
      Writes i k c (sendLoop luck early i fin size fuel n offset c).2.2 ∧ Fits c i k := by
  induction fuel with
  | zero => intro n offset c h0 _; exact ⟨0, rfl, Writes.refl i c, h0⟩
  | succ fuel ih =>
    intro n offset c h0 h; unfold sendLoop
    split
    · rcases hg : gate luck early i n c with ⟨ok, c1⟩
      obtain ⟨hw1, hroom⟩ := gate_writes hg
      cases ok with
      | false => exact ⟨0, rfl, hw1, h0⟩
      | true =>
        dsimp only
        obtain ⟨e, hw⟩ | ⟨k, m, len, hw, hm, hgen⟩ := write_cases (luck.header n) early fin i (size - offset) c1
        · rw [hw]; exact ⟨0, rfl, hw1, h0⟩
        · rw [hw]
          obtain ⟨hsize, hpkt, -⟩ := written_le hgen
          have hw2 : Writes i (0 + k) c _ := hw1.trans (noteWritten_writes early i fin (size - offset) k c1)
          rw [zero_add] at hw2
          -- either everything fits, or the frame is within what was tested
          have hfit : Fits c i k := by
            rcases h with h | ⟨he, hsmall⟩
            · exact h.mono hsize
            · have htest := hroom rfl he
              have hbound := hsmall n m hm
              rw [hw1.fits, zero_add] at htest
              rw [hw1.pktOutSize] at hpkt; exact htest.mono (by omega)
          have hnext : Fits (noteWritten early i fin (size - offset) k c1) i (size - (offset + k)) ∨
              (early = false ∧ Small luck (noteWritten early i fin (size - offset) k c1)) := by
            rcases h with h | ⟨he, hsmall⟩
            · refine .inl (hw2.fits.mpr (h.mono ?_))
              omega
            · refine .inr ⟨he, fun n len hlen => ?_⟩
              rw [hw2.pktOutSize]; exact hsmall n len hlen
          obtain ⟨m, hoff, hw3, hfit3⟩ := ih (n + 1) (offset + k) (hw2.fits.mpr hfit) hnext
          exact ⟨k + m, by rw [hoff, add_assoc], hw2.trans hw3, hw2.fits.mp hfit3⟩
    · exact ⟨0, rfl, Writes.refl i c, h0⟩

lemma sendFin_writes (luck : Luck) (early : Bool) (i : Nat) (c : Conn) :
    Writes i 0 c (sendFin luck early i c).2.2 ∧ (sendFin luck early i c).2.1 = 0 := by
  unfold sendFin
  rcases hg : gate luck early i 0 c with ⟨ok, c1⟩
  obtain ⟨hw1, -⟩ := gate_writes hg
  cases ok with
  | false => exact ⟨hw1, rfl⟩
  | true =>
    dsimp only
    obtain ⟨e, hw⟩ | ⟨k, m, len, hw, -, hgen⟩ := write_cases (luck.header 0) early true i 0 c1
    · rw [hw]; exact ⟨hw1, rfl⟩
    · rw [hw]
      obtain rfl := le_zero.mp (written_le hgen).1
      exact ⟨hw1.trans (noteWritten_writes early i true 0 0 c1), rfl⟩

/-! ## The invariant -/

/-- The limits are kept, and the count of the connection is the sum of its streams'. -/
structure Bounded (c : Conn) : Prop where
  conn : c.fcDataSent ≤ c.fcMaxDataCanSend
  stream : ∀ i < c.next, (c.streams i).sendOffset ≤ (c.streams i).fcMaxStreamDataCanSend
  sum : c.fcDataSent = ∑ i ∈ range c.next, (c.streams i).sendOffset

/-- Until the handshake is complete nothing is buffered that was not sent. -/
structure Inv (c : Conn) : Prop extends Bounded c where
  buffed : c.handshakeCompleted = false → ∀ i < c.next, buffTotal (c.streams i) ≤ (c.streams i).sendOffset

section Invariant

variable {c c' : Conn} {i k : Nat}

lemma Bounded.fits (h : Bounded c) (hi : i < c.next) : Fits c i 0 := ⟨h.conn, h.stream i hi⟩

lemma Bounded.writes (h : Bounded c) (hi : i < c.next) (hw : Writes i k c c') (hf : Fits c i k) : Bounded c' := by
  refine ⟨?_, fun j hj => ?_, ?_⟩
  · rw [hw.dataSent, hw.maxData]; exact hf.1
  · rw [hw.next] at hj
    by_cases hji : j = i
    · rw [hji, hw.offset, hw.limit]; exact hf.2
    · rw [hw.others hji]; exact h.stream j hj
  · rw [hw.dataSent, hw.next, h.sum]
    simp only [hw.offsets]; rw [sum_add_distrib, sum_ite_eq', if_pos (mem_range.mpr hi)]

lemma Bounded.congr (h : Bounded c) (hn : c'.next = c.next) (hd : c'.fcDataSent = c.fcDataSent)
    (hm : c'.fcMaxDataCanSend = c.fcMaxDataCanSend)
    (ho : ∀ j, (c'.streams j).sendOffset = (c.streams j).sendOffset)
    (hl : ∀ j, (c'.streams j).fcMaxStreamDataCanSend = (c.streams j).fcMaxStreamDataCanSend) : Bounded c' := by
  refine ⟨?_, fun j hj => ?_, ?_⟩
  · rw [hd, hm]; exact h.conn
  · rw [hn] at hj; rw [ho, hl]; exact h.stream j hj
  · rw [hd, hn, h.sum]; exact sum_congr rfl fun j _ => (ho j).symm

lemma Bounded.still (h : Bounded c) (hw : Writes i 0 c c') : Bounded c' := by
  refine h.congr hw.next hw.dataSent hw.maxData (fun j => ?_) fun j => ?_
  · rw [hw.offsets]; simp
  · by_cases hj : j = i
    · rw [hj, hw.limit]
    · rw [hw.others hj]

lemma Inv.buffed_writes (h : Inv c) (hw : Writes i k c c') : c'.handshakeCompleted = false → ∀ j < c'.next,
    buffTotal (c'.streams j) ≤ (c'.streams j).sendOffset := by
  intro hn j hj; rw [hw.completed] at hn
  rw [hw.next] at hj
  have hle := h.buffed hn j hj
  by_cases hji : j = i
  · subst hji
    have hb := hw.buff hn
    rw [hw.offset]; omega
  · rw [hw.others hji]; exact hle

lemma Inv.writes (h : Inv c) (hi : i < c.next) (hw : Writes i k c c') (hf : Fits c i k) : Inv c' :=
  ⟨h.toBounded.writes hi hw hf, h.buffed_writes hw⟩

lemma Inv.still (h : Inv c) (hw : Writes i 0 c c') : Inv c' := ⟨h.toBounded.still hw, h.buffed_writes hw⟩

lemma Inv.congr (h : Inv c) (hn : c'.next = c.next) (hd : c'.fcDataSent = c.fcDataSent)
    (hm : c'.fcMaxDataCanSend = c.fcMaxDataCanSend) (hs : c'.streams = c.streams)
    (hc : c'.handshakeCompleted = c.handshakeCompleted) : Inv c' := by
  refine ⟨⟨?_, ?_, ?_⟩, ?_⟩
  · rw [hd, hm]; exact h.conn
  · rw [hn, hs]; exact h.stream
  · rw [hd, hn, hs]; exact h.sum
  · rw [hc, hn, hs]; exact h.buffed

end Invariant

/-! ## Steps -/

section Steps

variable {c : Conn} {i : Nat}

lemma buffEarly_inv {c1 : Conn} {size k : Nat} (h : Inv c) (hi : i < c.next) (hw : Writes i k c c1)
    (hf : Fits c i k) : Inv (buffEarly i size fin k c1) := by
  have hinv := h.writes hi hw hf
  unfold buffEarly
  dsimp only; split
  · refine ⟨hinv.toBounded.congr rfl rfl rfl (fun j => ?_) (fun j => ?_), fun hn j hj => ?_⟩
    all_goals
      unfold xqcStreamBuffData Conn.modify
      by_cases hj : j = i
    · subst hj
      simp only [update_self]
    · simp only [update_of_ne hj]
    · subst hj
      simp only [update_self]
    · simp only [update_of_ne hj]
    · -- as much was sent as is kept
      subst hj
      have hn' : c.handshakeCompleted = false := hw.completed.symm.trans hn
      have hle := (hw.buff hn').trans (h.buffed hn' j hi)
      have hoff := hw.offset
      simp only [update_self, buffTotal, List.map_append, List.sum_append, List.map_singleton, List.sum_singleton]
      unfold buffTotal at hle
      omega
    · simp only [update_of_ne hj]; exact hinv.buffed hn j ‹_›
  · exact hinv

lemma markEarly_writes (i : Nat) (c : Conn) : Writes i 0 c (markEarly i c) := by
  have h := Writes.modify c i (f := ({ · with has0rtt := true })) rfl rfl fun _ => le_rfl
  exact ⟨h.next, h.dataSent, h.maxData, h.pktOutSize, h.completed, h.others, h.offset, h.limit, h.buff⟩

lemma sendFrames_writes (fin : Bool) {size : Nat} (h0 : Fits c i 0)
    (hcare : Fits c i size ∨ (early = false ∧ Small luck c)) :
    Writes i (sendFrames luck early i size fin c).2.1 c (sendFrames luck early i size fin c).2.2 ∧
      Fits c i (sendFrames luck early i size fin c).2.1 := by
  unfold sendFrames; split
  · obtain ⟨hw, hk⟩ := sendFin_writes luck early i c
    rw [hk]; exact ⟨hw, h0⟩
  · obtain ⟨k, hk, hw, hf⟩ := sendLoop_writes luck early fin size 0 0 h0 hcare
    rw [hk, zero_add]; exact ⟨hw, hf⟩

lemma sendTyped_inv {size : Nat} (h : Inv c) (hi : i < c.next)
    (hcare : Fits c i size ∨ (early = false ∧ Small luck c)) : Inv (sendTyped luck early i size fin c).2 := by
  have hmark : Writes i 0 c (if early = true then markEarly i c else c) := by
    split
    · exact markEarly_writes i c
    · exact Writes.refl i c
  unfold sendTyped
  generalize (if early = true then markEarly i c else c) = c0 at hmark ⊢
  have hcare0 : Fits c0 i size ∨ (early = false ∧ Small luck c0) := by
    rcases hcare with hfit | ⟨he, hsmall⟩
    · refine .inl (hmark.fits.mpr ?_)
      rw [zero_add]; exact hfit
    · refine .inr ⟨he, fun n len hlen => ?_⟩
      rw [hmark.pktOutSize]; exact hsmall n len hlen
  obtain ⟨hw, hf⟩ := sendFrames_writes fin (hmark.fits.mpr (h.toBounded.fits hi)) hcare0
  generalize sendFrames luck early i size fin c0 = res at hw hf ⊢
  obtain ⟨r, k, c1⟩ := res
  replace hw : Writes i (0 + k) c c1 := hmark.trans hw
  replace hf : Fits c i (0 + k) := hmark.fits.mp hf
  rw [zero_add] at hw hf
  have hkeep : Inv (if early = true then buffEarly i size fin k c1 else c1) := by
    split
    · exact buffEarly_inv h hi hw hf
    · exact h.writes hi hw hf
  cases r with
  | failed e => exact h.writes hi hw hf
  | again | done => exact hkeep

/-- `xqc_stream_send` keeps the limits if what it has to send fits them, or if it sends
    1-RTT packets no larger than the size that is tested. -/
lemma streamSend_inv {ready : Bool} {size : Nat} (h : Inv c) (hi : i < c.next)
    (hcare : Fits c i size ∨ (c.canSend1rtt = true ∧ Small luck c)) :
    Inv (xqcStreamSend luck ready i size fin c).2 := by
  unfold xqcStreamSend
  dsimp only; split
  · exact h
  split
  · exact h
  split
  · exact h
  split
  · exact sendTyped_inv h hi (hcare.imp_right fun hc => ⟨rfl, hc.2⟩)
  · rename_i hno
    split
    · exact sendTyped_inv h hi (hcare.imp_right fun hc => absurd hc.1 hno)
    · exact h

lemma writeLoop_writes (header : Nat → Option Nat) (fin : Bool) {size : Nat} (fuel : Nat) : ∀ (n offset : Nat) (c : Conn),
    ∃ k ≤ size - offset, Writes i k c (writeLoop header i fin size fuel n offset c).2 := by
  induction fuel with
  | zero => intro n offset c; exact ⟨0, zero_le, Writes.refl i c⟩
  | succ fuel ih =>
    intro n offset c; unfold writeLoop
    split
    · obtain ⟨e, hw⟩ | ⟨k, m, len, hw, -, hgen⟩ := write_cases (header n) false fin i (size - offset) c
      · rw [hw]; exact ⟨0, zero_le, Writes.refl i c⟩
      · rw [hw]
        obtain ⟨hk, -⟩ := written_le hgen
        have hw1 := noteWritten_writes false i fin (size - offset) k c
        obtain ⟨k', hk', hw2⟩ := ih (n + 1) (offset + k) (noteWritten false i fin (size - offset) k c)
        exact ⟨k + k', by omega, hw1.trans hw2⟩
    · exact ⟨0, zero_le, Writes.refl i c⟩

lemma writeBuff_writes (header : Nat → Option Nat) (b : WriteBuff) (c : Conn) :
    ∃ k ≤ b.dataLength, Writes i k c (writeBuff header i b c).2 := by
  unfold writeBuff; split
  · obtain ⟨e, hw⟩ | ⟨k, m, len, hw, -, hgen⟩ := write_cases (header 0) false true i 0 c
    · rw [hw]; exact ⟨0, zero_le, Writes.refl i c⟩
    · rw [hw]
      obtain rfl := le_zero.mp (written_le hgen).1
      exact ⟨0, zero_le, noteWritten_writes false i true 0 0 c⟩
  · exact writeLoop_writes header b.fin b.dataLength 0 0 c

lemma writeBuffed_writes (header : Nat → Option Nat) (bs : List WriteBuff) : ∀ {c : Conn}, c.handshakeCompleted = true →
    ∃ k ≤ (bs.map (·.dataLength)).sum, Writes i k c (xqcStreamWriteBuffedDataToPackets header i bs c) := by
  induction bs with
  | nil => intro c _; exact ⟨0, zero_le, Writes.refl i c⟩
  | cons b bs ih =>
    intro c hdone
    obtain ⟨k, hk, hw⟩ := writeBuff_writes (i := i) header b c
    unfold xqcStreamWriteBuffedDataToPackets; rw [List.map_cons, List.sum_cons]
    rcases hb : writeBuff header i b c with ⟨ok, c1⟩
    rw [hb] at hw
    cases ok with
    | false => exact ⟨k, by omega, hw⟩
    | true =>
      have hdone1 : c1.handshakeCompleted = true := hw.completed.trans hdone
      have hfree : Writes i 0 c1 (c1.modify i ({ · with writeBuffList := bs })) :=
        Writes.modify c1 i rfl rfl fun hn => absurd (hdone1.symm.trans hn) (by simp)
      obtain ⟨k', hk', hw'⟩ := ih (hfree.completed.trans hdone1)
      exact ⟨k + (0 + k'), by omega, hw.trans (hfree.trans hw')⟩

def Done (c : Conn) : Prop := Bounded c ∧ c.handshakeCompleted = true

lemma Done.still {c' : Conn} (h : Done c) (hw : Writes i 0 c c') : Done c' := ⟨h.1.still hw, hw.completed.trans h.2⟩

lemma rejectLoop_done (header : Nat → Nat → Option Nat) (is : List Nat) : ∀ {c : Conn}, Done c → is.Nodup →
    (∀ i ∈ is, (c.streams i).has0rtt = true → (c.streams i).sendOffset = 0 ∧ buffTotal (c.streams i) = 0) →
    Done (rejectLoop header is c) := by
  induction is with
  | nil => intro c h _ _; exact h
  | cons i is ih =>
    intro c h hnd hzero
    obtain ⟨hi, hnd⟩ := List.nodup_cons.mp hnd
    unfold rejectLoop; split
    · rename_i hearly
      obtain ⟨hoff, hbuff⟩ := hzero i List.mem_cons_self hearly
      have hback : Writes i 0 c (c.modify i ({ · with sendOffset := 0 })) :=
        Writes.modify c i hoff.symm rfl fun _ => le_rfl
      have hlist : buffTotal ((c.modify i ({ · with sendOffset := 0 })).streams i) = 0 := by
        simp only [Conn.modify, update_self]; exact hbuff
      dsimp only
      generalize c.modify i ({ · with sendOffset := 0 }) = c1 at hback hlist ⊢
      have h1 := h.still hback
      split
      · exact h1.still (Writes.modify c1 i (f := ({ · with writeBuffList := [] })) rfl rfl fun _ => zero_le)
      · obtain ⟨k, hk, hw⟩ := writeBuffed_writes (i := i) (header i) (c1.streams i).writeBuffList h1.2
        obtain rfl : k = 0 := le_zero.mp (hk.trans (Nat.le_of_eq hlist))
        refine ih (h1.still hw) hnd ?_
        intro j hj
        have hji : j ≠ i := by
          rintro rfl
          exact hi hj
        rw [hw.others hji, hback.others hji]; exact hzero j (List.mem_cons_of_mem _ hj)
    · exact ih h hnd fun j hj => hzero j (List.mem_cons_of_mem _ hj)

lemma accept_done (is : List Nat) : ∀ {c : Conn}, Done c →
    Done (is.foldl (fun c i => c.modify i ({ · with writeBuffList := [] })) c) := by
  induction is with
  | nil => intro c h; exact h
  | cons i is ih =>
    intro c h
    exact ih (h.still (Writes.modify c i (f := ({ · with writeBuffList := [] })) rfl rfl fun _ => zero_le))

structure Relimited (c c' : Conn) : Prop where
  next : c'.next = c.next
  client : c'.client = c.client
  has0rtt : c'.has0rtt = c.has0rtt
  zeroRtt : c'.zeroRttOk = c.zeroRttOk ∧ c'.zeroRttRej = c.zeroRttRej
  settings : c'.localSettings = c.localSettings ∧ c'.remoteSettings = c.remoteSettings
  streams : ∀ j, ∃ l, c'.streams j = { c.streams j with fcMaxStreamDataCanSend := l }

lemma Relimited.trans {c c' c'' : Conn} (h : Relimited c c') (h' : Relimited c' c'') : Relimited c c'' := by
  refine ⟨h'.next.trans h.next, h'.client.trans h.client, h'.has0rtt.trans h.has0rtt,
    ⟨h'.zeroRtt.1.trans h.zeroRtt.1, h'.zeroRtt.2.trans h.zeroRtt.2⟩,
    ⟨h'.settings.1.trans h.settings.1, h'.settings.2.trans h.settings.2⟩, fun j => ?_⟩
  obtain ⟨l, hl⟩ := h.streams j
  obtain ⟨l', hl'⟩ := h'.streams j
  exact ⟨l', by rw [hl', hl]⟩

lemma Relimited.limit {c c' : Conn} (h : Relimited c c') (type : StreamType) : c'.limit type = c.limit type := by
  unfold Conn.limit; rw [h.client, h.settings.1, h.settings.2]

lemma Relimited.sendOffset {c c' : Conn} (h : Relimited c c') (j : Nat) :
    (c'.streams j).sendOffset = (c.streams j).sendOffset := by
  obtain ⟨l, hl⟩ := h.streams j
  rw [hl]

lemma Relimited.type {c c' : Conn} (h : Relimited c c') (j : Nat) : (c'.streams j).type = (c.streams j).type := by
  obtain ⟨l, hl⟩ := h.streams j
  rw [hl]

lemma setFlowCtl_relimited (c : Conn) (i : Nat) : Relimited c (setFlowCtl c i) := by
  refine ⟨rfl, rfl, rfl, ⟨rfl, rfl⟩, ⟨rfl, rfl⟩, fun j => ?_⟩
  unfold setFlowCtl Conn.modify
  by_cases hj : j = i
  · subst hj; exact ⟨c.limit (c.streams j).type, by simp only [update_self]⟩
  · exact ⟨(c.streams j).fcMaxStreamDataCanSend, by simp only [update_of_ne hj]⟩

lemma setFlowCtl_bounded (h : Bounded c) (hle : (c.streams i).sendOffset ≤ c.limit (c.streams i).type) :
    Bounded (setFlowCtl c i) := by
  refine ⟨h.conn, fun j hj => ?_, ?_⟩
  · by_cases hji : j = i
    · subst hji; simpa only [setFlowCtl, Conn.modify, update_self] using hle
    · simpa only [setFlowCtl, Conn.modify, update_of_ne hji] using h.stream j hj
  · exact h.sum.trans (sum_congr rfl fun j _ => ((setFlowCtl_relimited c i).sendOffset j).symm)

lemma setFlowCtl_all (is : List Nat) : ∀ {c : Conn}, Bounded c →
    (∀ i ∈ is, (c.streams i).sendOffset ≤ c.limit (c.streams i).type) →
    Bounded (is.foldl setFlowCtl c) ∧ Relimited c (is.foldl setFlowCtl c) := by
  induction is with
  | nil => intro c h _; exact ⟨h, rfl, rfl, rfl, ⟨rfl, rfl⟩, ⟨rfl, rfl⟩, fun j => ⟨_, rfl⟩⟩
  | cons i is ih =>
    intro c h hle
    have hone := setFlowCtl_relimited c i
    obtain ⟨hb, hrest⟩ := ih (setFlowCtl_bounded h (hle i List.mem_cons_self)) fun j hj => by
      rw [hone.sendOffset, hone.type, hone.limit]; exact hle j (List.mem_cons_of_mem _ hj)
    exact ⟨hb, hone.trans hrest⟩

lemma allStreams_nodup (c : Conn) : c.allStreams.Nodup := List.nodup_range.filter _

lemma mem_allStreams {j : Nat} : j ∈ c.allStreams ↔ c.Open j := by
  simp [Conn.allStreams, Conn.Open]

lemma updateLimits_spec (h : Bounded c) (hconn : c.fcDataSent ≤ c.remoteSettings.maxData.toNat)
    (hlim : ∀ j, c.Open j → (c.streams j).sendOffset ≤ c.limit (c.streams j).type) :
    Bounded (updateLimits c) ∧ Relimited c (updateLimits c) := by
  have hb : Bounded { c with fcMaxDataCanSend := c.remoteSettings.maxData.toNat } := ⟨hconn, h.stream, h.sum⟩
  have hr : Relimited c { c with fcMaxDataCanSend := c.remoteSettings.maxData.toNat } :=
    ⟨rfl, rfl, rfl, ⟨rfl, rfl⟩, ⟨rfl, rfl⟩, fun j => ⟨_, rfl⟩⟩
  obtain ⟨hb', hr'⟩ := setFlowCtl_all c.allStreams hb fun j hj => hlim j (mem_allStreams.mp hj)
  exact ⟨hb', hr.trans hr'⟩

def Conn.Rejects (c : Conn) (early : EarlyData) : Prop :=
  early = .reject ∧ c.client = true ∧ c.has0rtt = true ∧ c.zeroRttOk = false ∧ c.zeroRttRej = false

lemma finishHandshake_done {wrote : Bool} {early : EarlyData} {header : Nat → Nat → Option Nat} (h : Done c)
    (hzero : c.Rejects early → ∀ j, c.Open j → (c.streams j).has0rtt = true →
      (c.streams j).sendOffset = 0 ∧ buffTotal (c.streams j) = 0) : Done (finishHandshake wrote early header c) := by
  have hflags : ∀ {ok rej : Bool}, Done { c with zeroRttOk := ok, zeroRttRej := rej } := by
    intro ok rej; exact ⟨⟨h.1.conn, h.1.stream, h.1.sum⟩, h.2⟩
  unfold finishHandshake; split
  · exact h
  split
  · rename_i hearly
    obtain ⟨hwho, hok, hrej⟩ := hearly
    cases early with
    | none => exact h
    | accept =>
      unfold xqcConnEarlyDataAccept
      dsimp only; split
      · exact accept_done _ hflags
      · exact hflags
    | reject =>
      unfold xqcConnEarlyDataReject
      dsimp only; split
      · rename_i hclient
        have hhas : c.has0rtt = true := hwho.resolve_left (by rw [hclient]; simp)
        refine rejectLoop_done header _ hflags (allStreams_nodup _) fun j hj => ?_
        exact hzero ⟨rfl, hclient, hhas, hok, hrej⟩ j (mem_allStreams.mp hj)
      · exact hflags
  · exact h

/-- The end of the handshake keeps the limits if no new limit is below what was sent, and
    if early data is not rejected once a stream has sent some of it. -/
lemma handshakeComplete_done (wrote : Bool) {early : EarlyData} (header : Nat → Nat → Option Nat) (h : Inv c)
    (hn : c.handshakeCompleted = false) (hconn : c.fcDataSent ≤ c.remoteSettings.maxData.toNat)
    (hlim : ∀ j, c.Open j → (c.streams j).sendOffset ≤ c.limit (c.streams j).type)
    (hrej : c.Rejects early → ∀ j, c.Open j → (c.streams j).has0rtt = true → (c.streams j).sendOffset = 0) :
    Done (xqcConnHandshakeComplete wrote early header c) := by
  obtain ⟨hb, hr⟩ := updateLimits_spec h.toBounded hconn hlim
  refine finishHandshake_done ⟨⟨hb.conn, hb.stream, hb.sum⟩, rfl⟩ ?_
  intro hearly j hopen hhas
  obtain ⟨l, hl⟩ := hr.streams j
  have hrejects : c.Rejects early := by
    obtain ⟨h1, h2, h3, h4, h5⟩ := hearly
    exact ⟨h1, hr.client.symm.trans h2, hr.has0rtt.symm.trans h3, hr.zeroRtt.1.symm.trans h4, hr.zeroRtt.2.symm.trans h5⟩
  have hopen' : c.Open j := by
    obtain ⟨hlt, hclosed⟩ := hopen
    rw [hl] at hclosed
    rw [hr.next] at hlt; exact ⟨hlt, hclosed⟩
  rw [hl] at hhas ⊢
  have hoff := hrej hrejects j hopen' hhas
  have hbuff := h.buffed hn j hopen'.1
  rw [hoff] at hbuff; exact ⟨hoff, le_zero.mp hbuff⟩

end Steps

/-! ## Runs -/

def Careful (c : Conn) : Ev → Prop
  | .send luck _ i size _ => Fits c i size ∨ (c.canSend1rtt = true ∧ Small luck c)
  | .earlyParams settings => c.client = true → c.fcDataSent ≤ settings.maxData.toNat
  | .handshakeComplete _ early _ =>
    c.fcDataSent ≤ c.remoteSettings.maxData.toNat ∧
      (∀ i, c.Open i → (c.streams i).sendOffset ≤ c.limit (c.streams i).type) ∧
      (c.Rejects early → ∀ i, c.Open i → (c.streams i).has0rtt = true → (c.streams i).sendOffset = 0)
  | _ => True

lemma create_inv {c : Conn} (h : Inv c) (id : Nat) (type : StreamType) : Inv (xqcCreateStreamWithConn id type c) := by
  unfold xqcCreateStreamWithConn; split
  · exact h
  · refine ⟨⟨h.conn, fun j hj => ?_, ?_⟩, fun hn j hj => ?_⟩
    · rcases Nat.lt_succ_iff_lt_or_eq.mp hj with hlt | rfl
      · simpa only [update_of_ne (Nat.ne_of_lt hlt)] using h.stream j hlt
      · simp
    · rw [sum_range_succ]
      simp only [update_self, Nat.add_zero]
      refine h.sum.trans (sum_congr rfl fun j hj => ?_)
      rw [update_of_ne (Nat.ne_of_lt (mem_range.mp hj))]
    · rcases Nat.lt_succ_iff_lt_or_eq.mp hj with hlt | rfl
      · simpa only [update_of_ne (Nat.ne_of_lt hlt)] using h.buffed hn j hlt
      · simp [buffTotal]

lemma maxStreamData_inv {c : Conn} (h : Inv c) (i n : Nat) : Inv (xqcProcessMaxStreamDataFrame i n c) := by
  unfold xqcProcessMaxStreamDataFrame; split
  · rename_i hlt
    refine ⟨⟨h.conn, fun j hj => ?_, ?_⟩, fun hn j hj => ?_⟩
    · by_cases hji : j = i
      · subst hji
        simpa only [Conn.modify, update_self] using (h.stream j hj).trans (Nat.le_of_lt hlt)
      · simpa only [Conn.modify, update_of_ne hji] using h.stream j hj
    · refine h.sum.trans (sum_congr rfl fun j _ => ?_)
      by_cases hji : j = i
      · subst hji
        simp only [Conn.modify, update_self]
      · simp only [Conn.modify, update_of_ne hji]
    · by_cases hji : j = i
      · subst hji; simp only [Conn.modify, update_self]; exact h.buffed hn j hj
      · simpa only [Conn.modify, update_of_ne hji] using h.buffed hn j hj
  · exact h

lemma step_inv {c c' : Conn} {e : Ev} (h : Inv c) (hs : Guard Careful Step c e c') : Inv c' := by
  obtain ⟨hcare, hs⟩ := hs
  have hflag : ∀ {i : Nat} {f : Stream → Stream}, (f (c.streams i)).sendOffset = (c.streams i).sendOffset →
      (f (c.streams i)).fcMaxStreamDataCanSend = (c.streams i).fcMaxStreamDataCanSend →
      buffTotal (f (c.streams i)) ≤ buffTotal (c.streams i) → Inv (c.modify i f) :=
    fun ho hl hb => h.still (Writes.modify c _ ho hl fun _ => hb)
  cases hs with
  | create id type => exact create_inv h id type
  | send luck ready i size fin hi => exact streamSend_inv h hi.1 hcare
  | maxData n =>
    unfold xqcProcessMaxDataFrame; split
    · rename_i hlt; exact ⟨⟨h.conn.trans (Nat.le_of_lt hlt), h.stream, h.sum⟩, h.buffed⟩
    · exact h
  | maxStreamData i n hi => exact maxStreamData_inv h i n
  | earlyParams settings =>
    unfold xqcConnSetEarlyRemoteTransportParams; split
    · rename_i hclient; exact ⟨⟨hcare hclient, h.stream, h.sum⟩, h.buffed⟩
    · exact h
  | params settings => exact h.congr rfl rfl rfl rfl rfl
  | handshakeComplete wrote early header hst hn =>
    obtain ⟨hconn, hlim, hrej⟩ := hcare
    obtain ⟨hb, hdone⟩ := handshakeComplete_done wrote header h hn hconn hlim hrej
    exact ⟨hb, fun hno => absurd (hdone.symm.trans hno) (by simp)⟩
  | txKey | state state => exact h.congr rfl rfl rfl rfl rfl
  | resetSent i hi | resetRecvd i hi => exact hflag rfl rfl le_rfl
  | destroy i hi => exact hflag rfl rfl zero_le

/-- Over every run of a new connection in which each step meets the condition. -/
theorem limits_are_kept (c : Conn) (hc : c.Fresh) (es : List Ev) (d : Conn) (h : Run (Guard Careful Step) c es d) :
    Bounded d := by
  have h0 : Inv c := by
    refine ⟨⟨?_, fun i hi => ?_, ?_⟩, fun _ i hi => ?_⟩
    · rw [hc.dataSent]; exact zero_le
    · exact absurd hi (by rw [hc.next]; exact Nat.not_lt_zero i)
    · rw [hc.dataSent, hc.next, range_zero, sum_empty]
    · exact absurd hi (by rw [hc.next]; exact Nat.not_lt_zero i)
  exact (h.inv (P := Inv) (fun _ _ _ => step_inv) h0).toBounded

def newClient : Conn where
  client := true
  state := .clientInit
  canSend1rtt := false
  handshakeCompleted := false
  has0rtt := false
  zeroRttOk := false
  zeroRttRej := false
  dataBlocked := false
  zeroRttCount := 0
  pktOutSize := xqcPacketOutSize
  fcMaxDataCanSend := localDefaults.maxData.toNat
  fcDataSent := 0
  localSettings := localDefaults
  remoteSettings := ⟨0, 0, 0, 0⟩
  next := 0
  streams _ := ⟨0, .cliBid, 0, 0, false, false, false, false, false, false, []⟩

lemma newClient_fresh : newClient.Fresh := ⟨rfl, rfl, rfl, rfl, le_rfl⟩

def fewData : TransSettings := ⟨1500, 16 * 1024 * 1024, 16 * 1024 * 1024, 16 * 1024 * 1024⟩

def easy : Luck := { canWrite := fun _ => true, header := fun _ => some 30 }

/-- A client remembers the server's limits and sends 1000 bytes as early data; then the handshake ends. -/
def earlyRun (early : EarlyData) : List Ev :=
  [.earlyParams fewData, .create 0 .cliBid, .state .clientInitialSent, .send easy true 0 1000 false, .params fewData,
    .state .estabed, .handshakeComplete true early fun _ => easy.header]

instance (c : Conn) (i k : Nat) : Decidable (Fits c i k) := by unfold Fits; infer_instance

instance (c : Conn) (i : Nat) : Decidable (c.Open i) := by unfold Conn.Open; infer_instance

theorem accepted_data_is_counted : ∃ d, Run (Guard Careful Step) newClient (earlyRun .accept) d ∧ d.fcDataSent = 1000 ∧
    Bounded d := by
  have hrun : Run (Guard Careful Step) newClient ((earlyRun .accept).take 6) _ :=
    (((((Run.nil.snoc ⟨fun _ => zero_le, .earlyParams _ _⟩).snoc ⟨trivial, .create _ _ _⟩).snoc
      ⟨trivial, .state _ _⟩).snoc ⟨.inl (by decide), .send _ _ _ _ _ _ (by decide)⟩).snoc
      ⟨trivial, .params _ _⟩).snoc ⟨trivial, .state _ _⟩
  have hall := hrun.snoc (e := .handshakeComplete true .accept fun _ => easy.header)
    ⟨by
      refine ⟨by decide, fun i hi => ?_, fun hrej => absurd hrej.1 (by simp)⟩
      obtain rfl : i = 0 := Nat.lt_one_iff.mp hi.1
      decide, .handshakeComplete _ _ _ _ rfl (by decide)⟩
  exact ⟨_, hall, by decide, limits_are_kept newClient newClient_fresh _ _ hall⟩

/-- The 1000 bytes are written again: the stream's offset is 1000 once more, but 2000
    bytes are counted, and the limit was 1500. -/
theorem rejected_data_is_counted_twice : newClient.Fresh ∧ ∃ d, Run Step newClient (earlyRun .reject) d ∧
    d.fcDataSent = 2000 ∧ d.fcMaxDataCanSend = 1500 ∧ d.next = 1 ∧ (d.streams 0).sendOffset = 1000 ∧ ¬ Bounded d := by
  have hrun : Run Step newClient (earlyRun .reject) _ :=
    ((((((Run.nil.snoc (.earlyParams _ _)).snoc (.create _ _ _)).snoc (.state _ _)).snoc
      (.send _ _ _ _ _ _ (by decide))).snoc (.params _ _)).snoc (.state _ _)).snoc
      (.handshakeComplete _ _ _ _ rfl (by decide))
  refine ⟨newClient_fresh, _, hrun, by decide, by decide, by decide, by decide, fun hb => ?_⟩
  exact absurd hb.conn (by decide)

end RlccQuic.Transport.SendFlow
