/-
  RlccQuic.Transport.Sending — what a connection does with the send control (`xqc_conn.c`, `xqc_packet_out.c`), as a machine.

  Packets are written to the send list, filled with frames, put into another list, encoded and sent, one by one or in
  bursts; ACK frames and timeouts come in; streams and packet number spaces are closed; a Retry resets the control, and
  what was written before is put together again or dropped. One event of the machine is one packet's turn, or one such
  call, so the loops over the lists to send are runs of events. The congestion window, the sizes and times, whether the
  socket takes a packet and which packets go into a burst are chosen freely.

  When 0-RTT is rejected the client has not sent 1-RTT packets yet: early data is judged when the handshake completes,
  and only then its 1-RTT key is looked at (`xqc_conn_check_handshake_complete`). A client takes one Retry. A Retry that
  cannot be answered closes the connection before anything else is sent.
-/

import RlccQuic.Transport.SendCtl

namespace RlccQuic.Transport.SendCtl

open Lib Function

/-! ## Sending -/

def xqcSendCtlOnPacketSent (p : Id) (s : Ctl) : Ctl :=
  let po := s.pkts p
  let s :=
    if po.pktNum > s.largestSent po.pns then
      { s with largestSent := update s.largestSent po.pns po.pktNum }
    else s
  if po.frameTypes.canInFlight then
    let s := if po.inFlight then s else xqcSendCtlIncreaseInflight p s
    s.modify p fun q => if q.lost then { q with lost := false } else { q with tlp := false }
  else s

/-- `xqc_send_ctl_can_send`, the congestion window. The sum is a 32-bit one. -/
def xqcSendCtlCanSend (cwnd : UInt32) (po : PacketOut) (s : Ctl) : Bool := !decide (s.bytesInFlight + po.usedSize > cwnd)

/-- A 0-RTT packet is sent as a 1-RTT packet once that is possible. -/
def convert (conn : Conn) (size : UInt32) (po : PacketOut) : PacketOut :=
  if po.pktType = .zeroRtt ∧ conn.canSend1rtt = true then po.convert0rtt21rtt size else po

def xqcEncPacketWithPn (w : World) (p : Id) (s : Ctl) : Ctl :=
  let s := { s with asked := s.asked + 1 }
  s.modify p fun po =>
    let po := convert s.conn (w.size (s.asked - 1)) (po.pad (!s.conn.server))
    { po with pktNum := s.packetNumber po.pns }

/-- The steps of `xqc_conn_send_burst_packets` for one packet that goes into the
    burst, with `xqc_conn_enc_packet`: here the number is used up at once. -/
def xqcConnEncPacket (w : World) (now : UInt64) (p : Id) (s : Ctl) : Ctl :=
  let s := { s with asked := s.asked + 1 }
  let po := (convert s.conn (w.size (s.asked - 1)) (s.pkts p)).pad (!s.conn.server)
  let num := s.packetNumber po.pns
  { s with
    packetNumber := update s.packetNumber po.pns (num + 1)
    pkts := update s.pkts p { po with pktNum := num, sentTime := now } }

/-- What the socket says: all bytes were taken, some, or an error. -/
inductive Sent where
  | all
  | short
  | error
  deriving DecidableEq, Repr

def xqcSendPacketWithPn (now : UInt64) (r : Sent) (p : Id) (s : Ctl) : Ctl :=
  let s := s.modify p ({ · with sentTime := now })
  if r = .all then
    let n := (s.pkts p).pns
    xqcSendCtlOnPacketSent p { s with packetNumber := update s.packetNumber n (s.packetNumber n + 1) }
  else s

/-- `xqc_send_ctl_insert_unacked`, or `xqc_send_ctl_insert_free` for a packet that nobody will acknowledge. -/
def settle (p : Id) (s : Ctl) : Ctl :=
  let po := s.pkts p
  s.move p (if po.frameTypes.isAckEliciting then .unacked po.pns else .free)

inductive Queue where
  | highPri
  | send
  | lost
  | probe
  deriving DecidableEq, Repr

def Queue.place : Queue → Place
  | .highPri => .highPri
  | .send => .send
  | .lost => .lost
  | .probe => .probe

/-- `xqc_conn_send_one_packet`, and where its callers put the packet then. From the
    lost and the probe list it goes to the unacked list whatever it carries. -/
def sendOne (w : World) (q : Queue) (now : UInt64) (r : Sent) (p : Id) (s : Ctl) : Ctl :=
  let s := xqcSendPacketWithPn now r p (xqcEncPacketWithPn w p s)
  if r = .error then s
  else if q = .lost ∨ q = .probe then s.move p (.unacked (s.pkts p).pns)
  else settle p s

/-- One round of the loops of `xqc_conn_send_packets`,
    `xqc_conn_retransmit_lost_packets` and `xqc_conn_transmit_pto_probe_packets`. -/
def sendRound (w : World) (q : Queue) (cwnd : UInt32) (now : UInt64) (r : Sent) (p : Id) (s : Ctl) : Ctl :=
  match q with
  | .highPri | .probe => sendOne w q now r p s
  | .send =>
    if (s.pkts p).frameTypes.canInFlight ∧ xqcSendCtlCanSend cwnd (s.pkts p) s = false then s
    else sendOne w q now r p s
  | .lost =>
    match xqcSendCtlIndirectlyAckPo p s with
    | (true, s) => s
    | (false, s) =>
      let s := s.modify p ({ · with lost := true })
      if (s.pkts p).frameTypes.canInFlight ∧ xqcSendCtlCanSend cwnd (s.pkts p) s = false then s
      else sendOne w q now r p s

/-- `xqc_check_duplicate_acked_pkt`, then the encoding. -/
def burstRound (w : World) (q : Queue) (now : UInt64) (p : Id) (s : Ctl) : Ctl :=
  match q with
  | .highPri | .send => xqcConnEncPacket w now p s
  | .lost =>
    match xqcSendCtlIndirectlyAckPo p s with
    | (true, s) => s
    | (false, s) => xqcConnEncPacket w now p (s.modify p ({ · with lost := true }))
  | .probe =>
    match xqcSendCtlIndirectlyAckPo p s with
    | (true, s) => s
    | (false, s) => xqcConnEncPacket w now p s

def onPacketSentInBurst (p : Id) (s : Ctl) : Ctl := settle p (xqcSendCtlOnPacketSent p s)

/-! ## 1-RTT packets that wait -/

def xqcConnBuff1rttPackets (s : Ctl) : Ctl :=
  walk (·.lists .send) (fun p s => (if (s.pkts p).pktType = .shortHeader then s.move p .buff else s, true)) s

def xqcConnWriteBuffed1rttPackets (s : Ctl) : Ctl :=
  if s.conn.canSend1rtt then walk (·.lists .buff) (fun p s => (s.move p .send, true)) s else s

/-! ## Retry -/

def xqcConnReassemblePacket (w : World) (p : Id) (s : Ctl) : Option Ctl :=
  let po := s.pkts p
  match xqcWriteNewPacket w po.pktType s with
  | (none, _) => none
  | (some d, s) =>
    let s := { s with asked := s.asked + 1 }
    let s := s.modify d fun q =>
      { q with
        usedSize := w.size (s.asked - 1), frameTypes := po.frameTypes, streamFrames := po.streamFrames, resend := true }
    some (if .crypto ∈ po.frameTypes then s.move d .highPri else s)

/-- The loop of `xqc_conn_resend_packets`; the flag is set when a packet could not be put together again. -/
def resendRound (w : World) (p : Id) (t : Ctl × Bool) : (Ctl × Bool) × Bool :=
  let (s, failed) := t
  if (s.pkts p).resend then ((s, failed), true)
  else if (s.pkts p).needReassemble then
    match xqcConnReassemblePacket w p s with
    | none => ((s, true), false)
    | some s => ((s.move p .free, failed), true)
  else ((s.move p .free, failed), true)

def xqcConnResendPackets (w : World) (s : Ctl) : Ctl × Bool := walk (·.1.lists .send) (resendRound w) (s, false)

/-- `xqc_send_ctl_destroy_packets_lists`: the packets are given back. -/
def xqcSendCtlDestroyPacketsLists (s : Ctl) : Ctl :=
  { s with
    pkts := fun _ => default
    lists := fun _ => []
    bytesInFlight := 0
    bytesAckElicitingInflight := fun _ => 0 }

/-- `xqc_conn_on_recv_retry`, and the close that follows an error. -/
def xqcConnOnRecvRetry (w : World) (s : Ctl) : Ctl :=
  let s := { s with conn := { s.conn with retryRecvd := true } }
  match xqcConnResendPackets w (xqcSendCtlReset s) with
  | (s, false) => s
  | (s, true) => xqcSendCtlDestroyPacketsLists s

/-- `xqc_conn_handshake_complete`; `rejected` is the verdict on early data. -/
def xqcConnHandshakeComplete (rejected : Bool) (s : Ctl) : Ctl :=
  let s := { s with conn := { s.conn with handshakeCompleted := true } }
  if s.conn.server then
    if s.conn.handshakeConfirmed then s
    else xqcSendCtlDropPktsWithPn .hsk { s with conn := { s.conn with handshakeConfirmed := true } }
  else
    let s := xqcSendCtlDropPktsWithPn .init s
    if rejected then xqcSendCtlDrop0rttPackets s else s

/-! ## The machine -/

inductive Ev where
  /-- `xqc_write_new_packet`. -/
  | write (type : PktType)
  /-- A frame is written to a packet of the send list. -/
  | append (p : Id) (f : PacketOut.NewFrame)
  /-- `xqc_maybe_recycle_packet_out`. -/
  | recycle (p : Id)
  /-- `xqc_send_ctl_move_to_head`. -/
  | toHead (p : Id)
  /-- `xqc_send_ctl_move_to_high_pri`. -/
  | toHighPri (p : Id)
  /-- The first packet of a list is sent by itself. -/
  | send (q : Queue) (cwnd : UInt32) (now : UInt64) (r : Sent)
  /-- A packet goes into a burst. -/
  | encode (q : Queue) (p : Id) (now : UInt64)
  /-- The socket took the first packet of a list, in a burst. -/
  | sent (q : Queue)
  | buff
  | writeBuffed
  | ack (info : FrameParser.AckInfo) (recvTime clock : UInt64)
  | timeout (fuel : Nat) (now : UInt64) (pto : Pns) (idle : Option Pns)
  /-- The stream is reset or closed: `xqc_send_ctl_drop_stream_frame_packets`. -/
  | closeStream (stream : Nat)
  /-- The keys of a space are dropped: `xqc_send_ctl_drop_pkts_with_pn`. -/
  | discard (n : Pns)
  | handshakeComplete (rejected : Bool)
  /-- `xqc_conn_handshake_confirmed` at a client. -/
  | handshakeConfirmed
  /-- `xqc_conn_check_tx_key`. -/
  | txKey
  | retry
  /-- `xqc_send_ctl_drop_packets`, when the connection is closed. -/
  | close

variable (w : World)

inductive Step : Ctl → Ev → Ctl → Prop
  | write (s : Ctl) (type : PktType) : Step s (.write type) (xqcWriteNewPacket w type s).2
  | append (s : Ctl) (p : Id) (f : PacketOut.NewFrame) (hp : p ∈ s.lists .send) :
      Step s (.append p f) (s.modify p (PacketOut.addFrame f))
  | recycle (s : Ctl) (p : Id) (hp : p ∈ s.lists .send) (he : (s.pkts p).frameTypes = ∅) :
      Step s (.recycle p) (s.move p .free)
  | toHead (s : Ctl) (p : Id) (hp : p ∈ s.lists .send) : Step s (.toHead p) (s.moveToHead p)
  | toHighPri (s : Ctl) (p : Id) (hp : p ∈ s.lists .send) : Step s (.toHighPri p) (s.move p .highPri)
  | send (s : Ctl) (q : Queue) (cwnd : UInt32) (now : UInt64) (r : Sent) (p : Id) (hp : (s.lists q.place).head? = some p) :
      Step s (.send q cwnd now r) (sendRound w q cwnd now r p s)
  | encode (s : Ctl) (q : Queue) (p : Id) (now : UInt64) (hp : p ∈ s.lists q.place) :
      Step s (.encode q p now) (burstRound w q now p s)
  | sent (s : Ctl) (q : Queue) (p : Id) (hp : (s.lists q.place).head? = some p) :
      Step s (.sent q) (onPacketSentInBurst p s)
  | buff (s : Ctl) : Step s .buff (xqcConnBuff1rttPackets s)
  | writeBuffed (s : Ctl) : Step s .writeBuffed (xqcConnWriteBuffed1rttPackets s)
  | ack (s : Ctl) (info : FrameParser.AckInfo) (recvTime clock : UInt64) :
      Step s (.ack info recvTime clock) (xqcSendCtlOnAckReceived w info recvTime clock s).2
  | timeout (s : Ctl) (fuel : Nat) (now : UInt64) (pto : Pns) (idle : Option Pns) :
      Step s (.timeout fuel now pto idle) (xqcSendCtlLossDetectionTimeout w fuel now pto idle s)
  | closeStream (s : Ctl) (stream : Nat) : Step s (.closeStream stream) (xqcSendCtlDropStreamFramePackets stream s)
  | discard (s : Ctl) (n : Pns) : Step s (.discard n) (xqcSendCtlDropPktsWithPn n s)
  | handshakeComplete (s : Ctl) (rejected : Bool) (hc : s.conn.handshakeCompleted = false) :
      Step s (.handshakeComplete rejected) (xqcConnHandshakeComplete rejected s)
  | handshakeConfirmed (s : Ctl) (hc : s.conn.server = false) (hn : s.conn.handshakeConfirmed = false) :
      Step s .handshakeConfirmed
        (xqcSendCtlDropPktsWithPn .hsk { s with conn := { s.conn with handshakeConfirmed := true } })
  | txKey (s : Ctl) (hc : s.conn.server = true ∨ s.conn.handshakeCompleted = true) :
      Step s .txKey { s with conn := { s.conn with canSend1rtt := true } }
  | retry (s : Ctl) (hc : s.conn.server = false) (hr : s.conn.retryRecvd = false) :
      Step s .retry (xqcConnOnRecvRetry w s)
  | close (s : Ctl) : Step s .close (xqcSendCtlDestroyPacketsLists s)

/-! ## Whole calls -/

def xqcMaxSendMsgOnce : Nat := 32

/-- The loop of `xqc_conn_send_burst_packets` over the packets it comes to, and those that go into the burst. One at which
    it breaks stays in its list; the mark `XQC_POF_LOST` it has got there is left out, as it gets it again when it is sent. -/
def fillBurst (q : Queue) (now : UInt64) : List Id → Ctl → List Id × Ctl
  | [], s => ([], s)
  | p :: ps, s =>
    let s := burstRound w q now p s
    let (burst, t) := fillBurst q now ps s
    (if p ∈ s.lists q.place then p :: burst else burst, t)

def xqcOnPacketsSendBurst (q : Queue) : Nat → Ctl → Ctl
  | 0, s => s
  | m + 1, s =>
    match s.lists q.place with
    | [] => s
    | p :: _ => xqcOnPacketsSendBurst q m (onPacketSentInBurst p s)

/-- `xqc_conn_server_send_path_challenge`: the packet is sent to another address and forgotten. -/
def xqcConnServerSendPathChallenge (sent : Bool) (s : Ctl) : Ctl :=
  match xqcWriteNewPacket w .shortHeader s with
  | (none, s) => s
  | (some d, s) =>
    let s := xqcEncPacketWithPn w d (s.modify d (PacketOut.addFrame ⟨.pathChallenge, 9, none, 0⟩))
    let n := (s.pkts d).pns
    let s :=
      if sent then { s with packetNumber := update s.packetNumber n (s.packetNumber n + 1) } else s
    s.move d .free

/-- Events that are calls as a whole. A burst is one call; `xqc_send` takes a packet
    that was sent in part for an error. -/
def Ev.whole : Ev → Bool
  | .encode _ _ _ | .sent _ | .send _ _ _ .short => false
  | _ => true

inductive Call where
  | one (e : Ev)
  /-- `xqc_conn_send_burst_packets` comes to `k` packets, of which the socket takes `sent`. -/
  | burst (q : Queue) (now : UInt64) (k sent : Nat)
  | challenge (sent : Bool)

/-- The machine whose events are whole calls. Where the loop of a burst ends (the
    window, pacing, the limit of amplification) is chosen freely. -/
inductive Turn : Ctl → Call → Ctl → Prop
  | one (s : Ctl) (e : Ev) (t : Ctl) (hw : e.whole = true) (h : Step w s e t) : Turn s (.one e) t
  | burst (s : Ctl) (q : Queue) (now : UInt64) (k sent : Nat)
      (hk : (fillBurst w q now ((s.lists q.place).take k) s).1.length ≤ xqcMaxSendMsgOnce)
      (hs : sent ≤ (fillBurst w q now ((s.lists q.place).take k) s).1.length) :
      Turn s (.burst q now k sent)
        (xqcOnPacketsSendBurst q sent (fillBurst w q now ((s.lists q.place).take k) s).2)
  | challenge (s : Ctl) (sent : Bool) : Turn s (.challenge sent) (xqcConnServerSendPathChallenge w sent s)

def Conn.Fresh (c : Conn) : Prop :=
  c.canSend1rtt = false ∧ c.handshakeCompleted = false ∧ c.handshakeConfirmed = false ∧
    c.handshakeDoneAcked = false ∧ c.retryRecvd = false

end RlccQuic.Transport.SendCtl
