/-
  RlccQuic.Transport.SendCtl — the send control (`xqc_send_ctl.c`), with what it
  uses of `xqc_packet_out.c`, and the PTO probes of `xqc_conn.c`.

  The control owns every outgoing packet: it is in one of the lists to send (plain, high priority, lost, probe, kept for
  1-RTT), in the list of what was sent and not acknowledged, one for each packet number space, or free. A packet that
  may be lost is copied; the copy points to its origin, which counts its copies and stays until they are settled. Bytes
  in flight are counted for the connection and for each space, from the packets' own flags.

  What the code asks the system for (whether an allocation succeeds, the ACK frame that is written again into a copy) is an
  oracle, `World`, asked by number. The round-trip estimate is set by `xqc_send_ctl_update_rtt`. The congestion controller,
  the sampler, pacing, timers, statistics and the counts kept in streams are left out: nothing here reads them.
-/

import RlccQuic.Lib.Links
import RlccQuic.Lib.Word
import RlccQuic.Transport.PacketOut
import RlccQuic.Transport.FrameParser

namespace RlccQuic.Transport.SendCtl

open Lib Word
open Function (update)

/-! ## State -/

inductive Place where
  /-- `ctl_send_packets`. -/
  | send
  /-- `ctl_send_packets_high_pri`. -/
  | highPri
  /-- `ctl_unacked_packets`. -/
  | unacked (n : Pns)
  /-- `ctl_pto_probe_packets`. -/
  | probe
  /-- `ctl_lost_packets`. -/
  | lost
  /-- `ctl_free_packets`. -/
  | free
  /-- `ctl_buff_1rtt_packets`. -/
  | buff
  deriving DecidableEq, Repr

structure Rtt where
  srtt : UInt64
  rttvar : UInt64
  minrtt : UInt64
  latestRtt : UInt64
  firstRttSampleTime : UInt64
  reorderingPacketThreshold : UInt64
  reorderingTimeThresholdShift : Nat
  deriving DecidableEq, Repr

/-- The flags and settings of the connection that the send control reads. -/
structure Conn where
  server : Bool
  /-- `XQC_CONN_FLAG_CAN_SEND_1RTT`. -/
  canSend1rtt : Bool
  /-- `XQC_CONN_FLAG_HANDSHAKE_COMPLETED`. -/
  handshakeCompleted : Bool
  /-- `XQC_CONN_FLAG_HANDSHAKE_CONFIRMED`. -/
  handshakeConfirmed : Bool
  /-- `XQC_CONN_FLAG_HANDSHAKE_DONE_ACKED`. -/
  handshakeDoneAcked : Bool
  /-- `XQC_CONN_FLAG_RETRY_RECVD`. -/
  retryRecvd : Bool
  /-- `conn_settings.spurious_loss_detect_on`. -/
  spuriousLossDetectOn : Bool
  /-- `remote_settings.max_ack_delay`, in milliseconds. -/
  maxAckDelay : UInt64
  deriving DecidableEq, Repr

structure Ctl where
  pkts : Id → PacketOut
  /-- The addresses handed out by the allocator are those below. -/
  next : Id
  lists : Links Place Id
  bytesInFlight : UInt32
  bytesAckElicitingInflight : Pns → UInt32
  /-- The error `ctl_bytes_in_flight too small` was logged. -/
  tooSmall : Bool
  packetNumber : Pns → UInt64
  largestSent : Pns → UInt64
  /-- `none` for `XQC_MAX_UINT64_VALUE`. -/
  largestAcked : Pns → Option UInt64
  largestAckedSentTime : Pns → UInt64
  lossTime : Pns → UInt64
  rtt : Rtt
  conn : Conn
  /-- The questions put to the world so far. -/
  asked : Nat

/-- What the code asks the system for, by the number of the question. -/
structure World where
  /-- An allocation succeeds. -/
  malloc : Nat → Bool
  /-- `xqc_gen_ack_frame`: the frame's length and its largest number, `none` if it fails. -/
  ackFrame : Nat → Option (UInt32 × UInt64)
  /-- The bytes a packet has once its header is written, or written anew. -/
  size : Nat → UInt32

namespace Ctl

def modify (p : Id) (f : PacketOut → PacketOut) (s : Ctl) : Ctl :=
  { s with pkts := update s.pkts p (f (s.pkts p)) }

/-- `xqc_list_del_init` and `xqc_list_add_tail`: the `xqc_send_ctl_remove_*` and
    `xqc_send_ctl_insert_*` pairs, and the `xqc_send_ctl_move_to_*` functions. -/
def move (p : Id) (k : Place) (s : Ctl) : Ctl := { s with lists := s.lists.move k p }

def moveToHead (p : Id) (s : Ctl) : Ctl := { s with lists := s.lists.moveFront .send p }

/-- The origin of what is copied from `p`: its own, or `p` itself. -/
def root (s : Ctl) (p : Id) : Id := (s.pkts p).origin.getD p

/-- A packet is in use if it is in a list other than the free one. -/
def Live (s : Ctl) (p : Id) : Prop := ∃ k, k ≠ .free ∧ p ∈ s.lists k

end Ctl

def xqcSendCtlCreate (conn : Conn) : Ctl where
  pkts := fun _ => default
  next := 0
  lists := fun _ => []
  bytesInFlight := 0
  bytesAckElicitingInflight := fun _ => 0
  tooSmall := false
  packetNumber := fun _ => 0
  largestSent := fun _ => 0
  largestAcked := fun _ => none
  largestAckedSentTime := fun _ => 0
  lossTime := fun _ => 0
  rtt :=
    { srtt := 250000, rttvar := 125000, minrtt := 0xFFFFFFFF, latestRtt := 0, firstRttSampleTime := 0,
      reorderingPacketThreshold := 3, reorderingTimeThresholdShift := 3 }
  conn := conn
  asked := 0

/-! ## Bytes in flight -/

def xqcSendCtlIncreaseInflight (p : Id) (s : Ctl) : Ctl :=
  let po := s.pkts p
  if po.inFlight = false ∧ po.frameTypes.canInFlight ∧ po.frameTypes.isAckEliciting then
    { s with
      bytesInFlight := s.bytesInFlight + po.usedSize
      bytesAckElicitingInflight :=
        update s.bytesAckElicitingInflight po.pns (s.bytesAckElicitingInflight po.pns + po.usedSize) }.modify p
      ({ · with inFlight := true })
  else s

/-- The counters in `xqc_send_ctl_decrease_inflight`. -/
def takeOff (n : Pns) (size : UInt32) (s : Ctl) : Ctl :=
  if s.bytesAckElicitingInflight n < size then
    { s with
      tooSmall := true
      bytesInFlight := 0
      bytesAckElicitingInflight := update s.bytesAckElicitingInflight n 0 }
  else
    { s with
      bytesInFlight := s.bytesInFlight - size
      bytesAckElicitingInflight :=
        update s.bytesAckElicitingInflight n (s.bytesAckElicitingInflight n - size) }

def xqcSendCtlDecreaseInflight (p : Id) (s : Ctl) : Ctl :=
  let po := s.pkts p
  if po.inFlight = true ∧ po.frameTypes.isAckEliciting then
    (takeOff po.pns po.usedSize s).modify p ({ · with inFlight := false })
  else s

/-! ## Getting and copying packets -/

variable (w : World)

/-- `xqc_packet_out_get`: the first free packet, zeroed, or a new one. -/
def xqcPacketOutGet (s : Ctl) : Option Id × Ctl :=
  match s.lists .free with
  | p :: _ => (some p, { s with lists := s.lists.del p, pkts := update s.pkts p default })
  | [] =>
    let s' := { s with asked := s.asked + 1 }
    if w.malloc s.asked then (some s.next, { s' with next := s.next + 1, pkts := update s.pkts s.next default })
    else (none, s')

/-- `xqc_packet_out_copy`: a copy of a copy has the same origin. -/
def xqcPacketOutCopy (dst src : Id) (s : Ctl) : Ctl :=
  let origin := s.root src
  { s with pkts := update s.pkts dst ((s.pkts src).copyOf origin) }.modify origin
    fun o => o.withRefs (o.originRefCnt + 1)

/-- An ACK frame in a copy is cut off, with what stands behind it, and written again (`xqc_write_ack_to_one_packet`). -/
def rewriteAck (d : Id) (s : Ctl) : Ctl :=
  let po := s.pkts d
  if 0 < po.ackOffset ∧ .ack ∈ po.frameTypes then
    let cut := { po with frameTypes := po.frameTypes.erase .ack, usedSize := po.ackOffset }
    let s := { s with asked := s.asked + 1, pkts := update s.pkts d cut }
    match w.ackFrame (s.asked - 1) with
    | some (len, largest) => s.modify d (PacketOut.addFrame ⟨.ack, len, none, largest⟩)
    | none => if cut.frameTypes = ∅ then s.move d .free else s
  else s

/-- `xqc_send_ctl_copy_to_lost` and `xqc_send_ctl_copy_to_pto_probe_list`. -/
def copyTo (k : Place) (p : Id) (s : Ctl) : Ctl :=
  match xqcPacketOutGet w s with
  | (none, s) => s
  | (some d, s) => ((rewriteAck w d (xqcPacketOutCopy d p s)).move d k).modify p ({ · with retransed := true })

def xqcSendCtlCopyToLost (p : Id) (s : Ctl) : Ctl := copyTo w .lost p s

def xqcSendCtlCopyToPtoProbeList (p : Id) (s : Ctl) : Ctl := copyTo w .probe p s

/-! ## Acknowledged packets -/

/-- `xqc_send_ctl_maybe_remove_unacked`: an origin stays while copies refer to it, the last copy takes it along. -/
def xqcSendCtlMaybeRemoveUnacked (p : Id) (s : Ctl) : Ctl :=
  let po := s.pkts p
  if po.origin = none ∧ po.originRefCnt ≠ 0 then s
  else
    let s := s.move p .free
    match po.origin with
    | none => s
    | some o =>
      let s := s.modify o fun q => q.withRefs (q.originRefCnt - 1)
      if (s.pkts o).originRefCnt = 0 then s.move o .free else s

def noteHandshakeDone (p : Id) (s : Ctl) : Ctl :=
  if s.conn.server = true ∧ .handshakeDone ∈ (s.pkts p).frameTypes then
    { s with conn := { s.conn with handshakeDoneAcked := true } }
  else s

/-- A packet in flight has arrived; a NEW_CONNECTION_ID frame in it is settled. -/
def leaveFlight (p : Id) (s : Ctl) : Ctl :=
  if (s.pkts p).inFlight then
    (xqcSendCtlDecreaseInflight p s).modify p fun q => { q with frameTypes := q.frameTypes.erase .newConnectionId }
  else s

def setAcked (p : Id) (s : Ctl) : Ctl :=
  let t := s.modify p ({ · with acked := true })
  match (s.pkts p).origin with
  | none => t
  | some o => t.modify o ({ · with acked := true })

def xqcSendCtlOnPacketAcked (p : Id) (s : Ctl) : Ctl := setAcked p (leaveFlight p (noteHandshakeDone p s))

/-- `xqc_send_ctl_indirectly_ack_po`: whether the packet, or its origin, was acknowledged; then it is done with. -/
def xqcSendCtlIndirectlyAckPo (p : Id) (s : Ctl) : Bool × Ctl :=
  let po := s.pkts p
  let originAcked := po.origin.any fun o => (s.pkts o).acked
  if po.acked || originAcked then
    (true, xqcSendCtlMaybeRemoveUnacked p (if originAcked then xqcSendCtlOnPacketAcked p s else s))
  else (false, s)

/-! ## Loss detection -/

def xqcKGranularity : UInt64 := 2

def lossDelay (r : Rtt) : UInt64 :=
  let d := maxU64 r.latestRtt r.srtt
  maxU64 (d + (d >>> UInt64.ofNat r.reorderingTimeThresholdShift)) xqcKGranularity

/-- `lost_pn`, the numbers up to which packets are lost. -/
def lostPn (r : Rtt) (largestAcked : UInt64) : UInt64 :=
  if largestAcked > r.reorderingPacketThreshold then largestAcked - r.reorderingPacketThreshold else largestAcked

def detectLostRound (n : Pns) (now largestAcked : UInt64) (p : Id) (s : Ctl) : Ctl × Bool :=
  if (s.pkts p).pktNum > largestAcked then (s, true)
  else
    match xqcSendCtlIndirectlyAckPo p s with
    | (true, s) => (s, true)
    | (false, s) =>
      let po := s.pkts p
      if po.sentTime ≤ now - lossDelay s.rtt ∨ po.pktNum ≤ lostPn s.rtt largestAcked then
        if po.inFlight then
          let s := xqcSendCtlDecreaseInflight p s
          (if po.frameTypes.needRepair then xqcSendCtlCopyToLost w p s else s.move p .free, true)
        else (s, true)
      else
        let t := po.sentTime + lossDelay s.rtt
        let t := if s.lossTime n = 0 then t else minU64 (s.lossTime n) t
        ({ s with lossTime := update s.lossTime n t }, true)

def xqcSendCtlDetectLost (n : Pns) (now : UInt64) (s : Ctl) : Ctl :=
  let s := { s with lossTime := update s.lossTime n 0 }
  match s.largestAcked n with
  | none => s
  | some largestAcked => walk (·.lists (.unacked n)) (detectLostRound w n now largestAcked) s

/-! ## ACK received -/

/-- `xqc_send_ctl_update_rtt`; `clock` is the time it reads itself. -/
def xqcSendCtlUpdateRtt (conn : Conn) (clock ackDelay : UInt64) (r : Rtt) : Rtt :=
  if r.firstRttSampleTime = 0 then
    { r with minrtt := r.latestRtt, srtt := r.latestRtt, rttvar := r.latestRtt >>> 1, firstRttSampleTime := clock }
  else
    let minrtt := minU64 r.latestRtt r.minrtt
    let ackDelay := if conn.handshakeConfirmed then minU64 ackDelay (conn.maxAckDelay * 1000) else ackDelay
    let adjusted := if r.latestRtt ≥ minrtt + ackDelay then r.latestRtt - ackDelay else r.latestRtt
    let diff := if r.srtt > adjusted then r.srtt - adjusted else adjusted - r.srtt
    { r with
      minrtt := minrtt
      rttvar := r.rttvar - (r.rttvar >>> 2) + (diff >>> 2)
      srtt := r.srtt - (r.srtt >>> 3) + (adjusted >>> 3) }

/-- The shift that tolerates a packet as late as `interval`, if there is one. -/
def relaxShift (maxRtt interval : UInt64) : Nat → Nat
  | 0 => 0
  | k + 1 => if maxRtt + (maxRtt >>> UInt64.ofNat (k + 1)) < interval then relaxShift maxRtt interval k else k + 1

def xqcSendCtlOnSpuriousLossDetected (on : Bool) (ackRecvTime largestAck pktNum sentTime : UInt64) (r : Rtt) : Rtt :=
  if on = false ∨ largestAck < pktNum then r
  else
    let r := { r with
      reorderingPacketThreshold := maxU64 r.reorderingPacketThreshold (largestAck - pktNum + 1) }
    if ackRecvTime < sentTime then r
    else
      { r with
        reorderingTimeThresholdShift :=
          relaxShift (maxU64 r.latestRtt r.srtt) (ackRecvTime - sentTime) r.reorderingTimeThresholdShift }

/-- The variables of the loop over the unacked list: the ranges not passed yet, from the lowest, whether an RTT sample
    is due, and the first packet that was taken for lost. -/
structure AckPass where
  ctl : Ctl
  ranges : List FrameParser.PktnoRange
  updateRtt : Bool
  hasAckEliciting : Bool
  spurious : Option (UInt64 × UInt64)

/-- The inner loop that goes on to the range a number may be in; it stays at the last one. -/
def skipRanges (num : UInt64) : List FrameParser.PktnoRange → List FrameParser.PktnoRange
  | r :: r' :: rs => if num > r.high then skipRanges num (r' :: rs) else r :: r' :: rs
  | rs => rs

def ackRound (n : Pns) (largestAck ackRecvTime : UInt64) (p : Id) (a : AckPass) : AckPass × Bool :=
  let po := a.ctl.pkts p
  if po.pktNum > largestAck then (a, false)
  else
    let ranges := skipRanges po.pktNum a.ranges
    if ranges.head?.any fun r => po.pktNum ≥ r.low then
      let s := a.ctl
      let s :=
        if (s.largestAcked n).all fun la => po.pktNum ≥ la then
          { s with
            largestAcked := update s.largestAcked n (some po.pktNum)
            largestAckedSentTime := update s.largestAckedSentTime n po.sentTime }
        else s
      let spurious :=
        if po.acked = false ∧ po.retransed = true ∧ a.spurious = none then some (po.pktNum, po.sentTime) else a.spurious
      let s := xqcSendCtlMaybeRemoveUnacked p (xqcSendCtlOnPacketAcked p s)
      -- the frame types are read again after the acknowledgement has been taken in
      let eliciting := a.hasAckEliciting || decide (s.pkts p).frameTypes.isAckEliciting
      if po.pktNum = largestAck ∧ s.largestAcked n = some po.pktNum then
        let s := { s with rtt := { s.rtt with latestRtt := ackRecvTime - s.largestAckedSentTime n } }
        (⟨s, ranges, true, eliciting, spurious⟩, true)
      else (⟨s, ranges, a.updateRtt, eliciting, spurious⟩, true)
    else ({ a with ranges := ranges }, true)

/-- What `xqc_send_ctl_on_ack_received` does once the list has been gone through. -/
def finishAck (ack : FrameParser.AckInfo) (largestAck ackRecvTime clock : UInt64) (a : AckPass) : Ctl :=
  let s := a.ctl
  let s :=
    if a.updateRtt = true ∧ a.hasAckEliciting = true then
      { s with rtt := xqcSendCtlUpdateRtt s.conn clock ack.ackDelay s.rtt }
    else s
  let s :=
    match a.spurious with
    | none => s
    | some (num, sent) =>
      { s with
        rtt := xqcSendCtlOnSpuriousLossDetected s.conn.spuriousLossDetectOn ackRecvTime largestAck num sent s.rtt }
  xqcSendCtlDetectLost w ack.pns ackRecvTime s

def xqcSendCtlOnAckReceived (ack : FrameParser.AckInfo) (ackRecvTime clock : UInt64) (s : Ctl) : Except Err Unit × Ctl :=
  let n := ack.pns
  let largestAck := (ack.ranges.head?.map (·.high)).getD 0
  let largestAcked :=
    match s.largestAcked n with
    | none => largestAck
    | some la => maxU64 la largestAck
  let s := { s with largestAcked := update s.largestAcked n (some largestAcked) }
  if largestAck > s.largestSent n then (.error .eproto, s)
  else
    let a := walk (·.ctl.lists (.unacked n)) (ackRound n largestAck ackRecvTime)
      ⟨s, ack.ranges.reverse, false, false, none⟩
    (.ok (), finishAck w ack largestAck ackRecvTime clock a)

/-! ## New packets -/

/-- `xqc_write_new_packet`: a packet with its header, at the tail of the send list. -/
def xqcWriteNewPacket (type : PktType) (s : Ctl) : Option Id × Ctl :=
  match xqcPacketOutGet w s with
  | (none, s) => (none, s)
  | (some d, s) =>
    let s := { s with asked := s.asked + 1 }
    (some d, (s.modify d fun po => { po with pktType := type, usedSize := w.size (s.asked - 1) }).move d .send)

def pingType : Pns → PktType
  | .init => .init
  | .hsk => .hsk
  | .appData => .shortHeader

def xqcConnGenPing (n : Pns) (s : Ctl) : Option Id × Ctl :=
  match xqcWriteNewPacket w (pingType n) s with
  | (none, s) => (none, s)
  | (some d, s) => (some d, s.modify d (PacketOut.addFrame ⟨.ping, 1, none, 0⟩))

def xqcConnSendPingOnPto (n : Pns) (s : Ctl) : Ctl :=
  match xqcConnGenPing w n s with
  | (none, s) => s
  | (some d, s) => s.move d .probe

/-! ## PTO -/

def xqcConnPtoPktCntMax : Nat := 2

/-- The variables of the loop that looks for packets to probe with. -/
structure ProbePass where
  ctl : Ctl
  probeNum : Nat
  findHsd : Bool

def probeRound (p : Id) (t : ProbePass) : ProbePass × Bool :=
  match xqcSendCtlIndirectlyAckPo p t.ctl with
  | (true, s) => ({ t with ctl := s }, true)
  | (false, s) =>
    let po := s.pkts p
    if po.frameTypes.isAckEliciting ∧ po.frameTypes.needRepair then
      if t.findHsd = true ∧ .handshakeDone ∉ po.frameTypes then ({ t with ctl := s }, true)
      else
        let s := s.modify p ({ · with tlp := true })
        let s := xqcSendCtlCopyToPtoProbeList w p (xqcSendCtlDecreaseInflight p s)
        let probeNum := t.probeNum - 1
        if probeNum = 0 then (⟨s, probeNum, t.findHsd⟩, false)
        else if t.findHsd then (⟨s, probeNum, false⟩, false)
        else (⟨s, probeNum, t.findHsd⟩, true)
    else ({ t with ctl := s }, true)

def probeLoop (n : Pns) : Nat → ProbePass → ProbePass
  | 0, t => t
  | fuel + 1, t =>
    if t.probeNum = 0 then t
    else
      let t := walk (·.ctl.lists (.unacked n)) (probeRound w) t
      if t.probeNum = xqcConnPtoPktCntMax then
        if t.findHsd then probeLoop n fuel { t with findHsd := false } else t
      else probeLoop n fuel t

def pings (n : Pns) : Nat → Ctl → Ctl
  | 0, s => s
  | k + 1, s => pings n k (xqcConnSendPingOnPto w n s)

/-- `xqc_conn_send_one_or_two_ack_elicit_pkts`, with the rounds of its loop bounded by `fuel`. -/
def xqcConnSendOneOrTwoAckElicitPkts (fuel : Nat) (n : Pns) (s : Ctl) : Ctl :=
  let t := probeLoop w n fuel ⟨s, xqcConnPtoPktCntMax, s.conn.server && !s.conn.handshakeDoneAcked⟩
  pings w n t.probeNum t.ctl

/-- `xqc_send_ctl_get_earliest_loss_time`: the first of the spaces with the least time that is set. -/
def xqcSendCtlGetEarliestLossTime (s : Ctl) : Option Pns :=
  [Pns.hsk, .appData].foldl
    (fun best n =>
      match best with
      | none => if s.lossTime n = 0 then none else some n
      | some m => if s.lossTime n ≠ 0 ∧ s.lossTime n < s.lossTime m then some n else some m)
    (if s.lossTime .init = 0 then none else some .init)

/-- `xqc_send_ctl_loss_detection_timeout`; `pto` is the space `xqc_send_ctl_get_pto_time_and_space` chooses, `idle` the
    one the client's anti-deadlock packet goes to, if there is cause for one. -/
def xqcSendCtlLossDetectionTimeout (fuel : Nat) (now : UInt64) (pto : Pns) (idle : Option Pns) (s : Ctl) : Ctl :=
  match xqcSendCtlGetEarliestLossTime s with
  | some n => xqcSendCtlDetectLost w n now s
  | none =>
    if 0 < s.bytesInFlight then xqcConnSendOneOrTwoAckElicitPkts w fuel pto s
    else
      match idle with
      | none => s
      | some n => (xqcConnGenPing w n s).2

/-! ## Dropping packets -/

/-- The loops that drop the packets of one kind from a list to send. -/
def dropQueued (k : Place) (kind : PacketOut → Bool) (s : Ctl) : Ctl :=
  walk (·.lists k) (fun p s => (if kind (s.pkts p) then s.move p .free else s, true)) s

/-- The loops that drop the packets of one kind from an unacked list. -/
def dropUnacked (n : Pns) (kind : PacketOut → Bool) (s : Ctl) : Ctl :=
  walk (·.lists (.unacked n))
    (fun p s => (if kind (s.pkts p) then xqcSendCtlDecreaseInflight p (s.move p .free) else s, true)) s

def xqcSendCtlDrop0rttPackets (s : Ctl) : Ctl :=
  let kind := PacketOut.hasType .zeroRtt
  dropQueued .probe kind (dropQueued .lost kind (dropQueued .send kind (dropUnacked .appData kind s)))

def xqcSendCtlDropPacketsWithType (type : PktType) (s : Ctl) : Ctl :=
  let kind := PacketOut.hasType type
  dropQueued .probe kind (dropQueued .lost kind (dropQueued .send kind (dropQueued .highPri kind
    (dropUnacked type.pns (fun _ => true) s))))

def xqcSendCtlDropPktsWithPn (n : Pns) (s : Ctl) : Ctl :=
  let s :=
    match n with
    | .init => xqcSendCtlDropPacketsWithType .init s
    | .hsk => xqcSendCtlDropPacketsWithType .hsk s
    | .appData => s
  { s with lossTime := update s.lossTime n 0 }

def xqcSendCtlDropStreamFramePackets (stream : Nat) (s : Ctl) : Ctl :=
  let kind := PacketOut.streamFrameCanDrop stream
  dropQueued .probe kind (dropQueued .lost kind (dropQueued .send kind (dropUnacked .appData kind s)))

/-! ## Reset -/

/-- The loops of `xqc_send_ctl_reset` over the lists to send. -/
def requeue (k : Place) (s : Ctl) : Ctl := walk (·.lists k) (fun p s => (s.move p .send, true)) s

def requeueUnacked (n : Pns) (s : Ctl) : Ctl :=
  walk (·.lists (.unacked n)) (fun p s => (xqcSendCtlDecreaseInflight p (s.move p .send), true)) s

def xqcSendCtlReset (s : Ctl) : Ctl :=
  let s := { s with
    rtt := { s.rtt with
      minrtt := 0xFFFFFFFF, srtt := 250000, rttvar := 125000, reorderingPacketThreshold := 3,
      reorderingTimeThresholdShift := 3 }
    largestAcked := fun _ => none
    largestAckedSentTime := fun _ => 0
    lossTime := fun _ => 0 }
  requeue .probe (requeue .lost (requeue .highPri
    (requeueUnacked .appData (requeueUnacked .hsk (requeueUnacked .init s)))))

end RlccQuic.Transport.SendCtl
