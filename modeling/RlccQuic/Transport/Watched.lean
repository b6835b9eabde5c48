/-
  RlccQuic.Transport.Watched — the operations of the send control, and what it tells the rest of the connection.

  While it works the send control counts the packets in use, and calls other parts: it counts a stream's packets that
  were not acknowledged, it sends. None of this feeds back. Here each such place is a `Note`, told with the state of the
  control at that moment to a `look`, which keeps what it keeps beside the control. The functions are those of `SendCtl`
  and `Sending` with the notes at the places of the calls, and are those again without the notes (`copyTo_ctl` and the
  lemmas beside it).

  `Does` is the machine whose events are single operations: a round of each loop (`xqc_send_ctl_detect_lost`,
  `xqc_send_ctl_on_ack_received`, the probes, the drops, the resending after a Retry) is an event of its own, with what
  the loop has checked by then. Any order of operations is a run, so what holds in every run holds in those of the code.
-/

import RlccQuic.Transport.RttSamples

namespace RlccQuic.Transport.Watched

open Lib SendCtl

/-! ## Notes -/

inductive Note where
  /-- `xqc_packet_out_get` has handed out the packet, zeroed. -/
  | zeroed (p : Id)
  /-- `xqc_packet_out_copy`. -/
  | copied (dst src : Id)
  /-- A frame was written; `fin` is that of a STREAM frame. -/
  | appended (p : Id) (f : PacketOut.NewFrame) (fin : Bool)
  /-- `xqc_send_ctl_insert_send`, and a copy that comes into use. -/
  | insertSend
  | insertCopy
  /-- `xqc_send_ctl_insert_free` and `xqc_send_ctl_remove_buff`. -/
  | insertFree
  | removeBuff
  /-- `xqc_send_ctl_on_packet_sent`, and for a packet that comes into flight
      `xqc_send_ctl_increase_unacked_stream_ref`. -/
  | sending (p : Id)
  | flying (p : Id)
  /-- A path challenge was sent, past `xqc_send_ctl_on_packet_sent`. -/
  | challenged (p : Id)
  /-- `xqc_send_ctl_decrease_unacked_stream_ref`, for a packet that was acknowledged or is dropped. -/
  | acked (p : Id)
  | dropped (p : Id)
  /-- `xqc_send_ctl_destroy_packets_lists`. -/
  | destroyed

def Note.count : Note → UInt32 → UInt32
  | .insertSend, used | .insertCopy, used => used + 1
  | .insertFree, used | .removeBuff, used => used - 1
  | .destroyed, _ => 0
  | _, used => used

structure State (ξ : Type) where
  ctl : Ctl
  /-- `ctl_packets_used`. -/
  used : UInt32
  /-- The packets below were given back to the allocator. -/
  base : Id
  more : ξ

def create {ξ : Type} (conn : Conn) (more : ξ) : State ξ := { ctl := xqcSendCtlCreate conn, used := 0, base := 0, more := more }

def State.on {ξ : Type} (f : Ctl → Ctl) (x : State ξ) : State ξ := { x with ctl := f x.ctl }

variable {ξ : Type} (look : Note → Ctl → ξ → ξ) (w : World)

def tell (e : Note) (x : State ξ) : State ξ :=
  { x with
    used := e.count x.used
    base := match e with
      | .destroyed => x.ctl.next
      | _ => x.base
    more := look e x.ctl x.more }

/-! ## The functions -/

def insertFree (p : Id) (x : State ξ) : State ξ := tell look .insertFree (x.on (·.move p .free))

def xqcPacketOutGet (x : State ξ) : Option Id × State ξ :=
  match SendCtl.xqcPacketOutGet w x.ctl with
  | (none, s) => (none, { x with ctl := s })
  | (some d, s) => (some d, tell look (.zeroed d) { x with ctl := s })

/-- An ACK frame cannot be written again, and nothing else is in the copy (`xqc_maybe_recycle_packet_out`). -/
def recycles (d : Id) (s : Ctl) : Bool :=
  decide (0 < (s.pkts d).ackOffset ∧ .ack ∈ (s.pkts d).frameTypes) && (w.ackFrame s.asked).isNone &&
    decide ((s.pkts d).frameTypes.erase .ack = ∅)

def rewriteAck (d : Id) (x : State ξ) : State ξ :=
  let y := x.on (SendCtl.rewriteAck w d)
  if recycles w d x.ctl then tell look .insertFree y else y

def copyTo (k : Place) (p : Id) (x : State ξ) : State ξ :=
  match xqcPacketOutGet look w x with
  | (none, x) => x
  | (some d, x) =>
    let x := tell look (.copied d p) (x.on (xqcPacketOutCopy d p))
    (tell look .insertCopy ((rewriteAck look w d x).on (·.move d k))).on (·.modify p ({ · with retransed := true }))

def xqcSendCtlMaybeRemoveUnacked (p : Id) (x : State ξ) : State ξ :=
  let po := x.ctl.pkts p
  if po.origin = none ∧ po.originRefCnt ≠ 0 then x
  else
    let x := insertFree look p x
    match po.origin with
    | none => x
    | some o =>
      let x := x.on (·.modify o fun q => q.withRefs (q.originRefCnt - 1))
      if (x.ctl.pkts o).originRefCnt = 0 then insertFree look o x else x

def xqcSendCtlOnPacketAcked (p : Id) (x : State ξ) : State ξ :=
  (tell look (.acked p) (x.on (noteHandshakeDone p))).on fun s => setAcked p (leaveFlight p s)

def xqcSendCtlIndirectlyAckPo (p : Id) (x : State ξ) : Bool × State ξ :=
  let po := x.ctl.pkts p
  let originAcked := po.origin.any fun o => (x.ctl.pkts o).acked
  if po.acked || originAcked then
    (true, xqcSendCtlMaybeRemoveUnacked look p (if originAcked then xqcSendCtlOnPacketAcked look p x else x))
  else (false, x)

def takeIn (n : Pns) (p : Id) (x : State ξ) : State ξ :=
  xqcSendCtlMaybeRemoveUnacked look p (xqcSendCtlOnPacketAcked look p (x.on (noteAcked n p)))

def lose (p : Id) (x : State ξ) : State ξ :=
  let x := x.on (xqcSendCtlDecreaseInflight p)
  if (x.ctl.pkts p).frameTypes.needRepair then copyTo look w .lost p x else insertFree look p x

def probe (p : Id) (x : State ξ) : State ξ :=
  copyTo look w .probe p (x.on fun s => xqcSendCtlDecreaseInflight p (s.modify p ({ · with tlp := true })))

def xqcWriteNewPacket (type : PktType) (x : State ξ) : Option Id × State ξ :=
  match xqcPacketOutGet look w x with
  | (none, x) => (none, x)
  | (some d, x) =>
    let x := x.on fun s => { s with asked := s.asked + 1 }
    (some d, tell look .insertSend (x.on fun s =>
      (s.modify d fun po => { po with pktType := type, usedSize := w.size (s.asked - 1) }).move d .send))

def xqcSendCtlOnPacketSent (p : Id) (x : State ξ) : State ξ :=
  let po := x.ctl.pkts p
  let y := (tell look (.sending p) x).on (SendCtl.xqcSendCtlOnPacketSent p)
  if po.frameTypes.canInFlight ∧ po.inFlight = false then tell look (.flying p) y else y

def settle (p : Id) (x : State ξ) : State ξ :=
  let po := x.ctl.pkts p
  if po.frameTypes.isAckEliciting then x.on (·.move p (.unacked po.pns)) else insertFree look p x

/-- `xqc_conn_send_one_packet`; the packet stays if the socket has an error. -/
def sendOne (q : Queue) (now : UInt64) (taken : Bool) (p : Id) (x : State ξ) : State ξ :=
  let x := x.on fun s => (xqcEncPacketWithPn w p s).modify p ({ · with sentTime := now })
  if taken then
    let x := xqcSendCtlOnPacketSent look p (x.on fun s =>
      { s with packetNumber := Function.update s.packetNumber (s.pkts p).pns (s.packetNumber (s.pkts p).pns + 1) })
    if q = .lost ∨ q = .probe then x.on (·.move p (.unacked (x.ctl.pkts p).pns)) else settle look p x
  else x

def xqcConnReassemblePacket (p : Id) (x : State ξ) : Option (State ξ) :=
  let po := x.ctl.pkts p
  match xqcWriteNewPacket look w po.pktType x with
  | (none, _) => none
  | (some d, x) =>
    let x := x.on fun s => { s with asked := s.asked + 1 }
    let x := x.on fun s => s.modify d fun q =>
      { q with
        usedSize := w.size (s.asked - 1), frameTypes := po.frameTypes, streamFrames := po.streamFrames, resend := true }
    some (if .crypto ∈ po.frameTypes then x.on (·.move d .highPri) else x)

def xqcConnServerSendPathChallenge (sent : Bool) (x : State ξ) : State ξ :=
  match xqcWriteNewPacket look w .shortHeader x with
  | (none, x) => x
  | (some d, x) =>
    let x := x.on fun s => xqcEncPacketWithPn w d (s.modify d (PacketOut.addFrame ⟨.pathChallenge, 9, none, 0⟩))
    insertFree look d (if sent then
      tell look (.challenged d) (x.on fun s =>
        { s with packetNumber := Function.update s.packetNumber (s.pkts d).pns (s.packetNumber (s.pkts d).pns + 1) })
      else x)

/-! ## Without the notes -/

section Forget

variable (p : Id) (x : State ξ)

@[simp] lemma tell_ctl (e : Note) : (tell look e x).ctl = x.ctl := rfl

@[simp] lemma on_ctl (f : Ctl → Ctl) : (x.on f).ctl = f x.ctl := rfl

@[simp] lemma insertFree_ctl : (insertFree look p x).ctl = x.ctl.move p .free := rfl

@[simp] lemma rewriteAck_ctl : (rewriteAck look w p x).ctl = SendCtl.rewriteAck w p x.ctl := by
  unfold rewriteAck
  dsimp only; split <;> rfl

@[simp] lemma copyTo_ctl (k : Place) : (copyTo look w k p x).ctl = SendCtl.copyTo w k p x.ctl := by
  unfold copyTo SendCtl.copyTo xqcPacketOutGet
  rcases SendCtl.xqcPacketOutGet w x.ctl with ⟨_ | d, s⟩
  · rfl
  · simp

@[simp] lemma maybeRemoveUnacked_ctl :
    (xqcSendCtlMaybeRemoveUnacked look p x).ctl = SendCtl.xqcSendCtlMaybeRemoveUnacked p x.ctl := by
  unfold xqcSendCtlMaybeRemoveUnacked SendCtl.xqcSendCtlMaybeRemoveUnacked
  dsimp only; split
  · rfl
  · cases (x.ctl.pkts p).origin with
    | none => rfl
    | some o => dsimp only; split <;> rename_i h <;> simp_all

@[simp] lemma onPacketAcked_ctl : (xqcSendCtlOnPacketAcked look p x).ctl = SendCtl.xqcSendCtlOnPacketAcked p x.ctl := rfl

lemma indirectlyAckPo_ctl : (xqcSendCtlIndirectlyAckPo look p x).map id State.ctl =
    SendCtl.xqcSendCtlIndirectlyAckPo p x.ctl := by
  unfold xqcSendCtlIndirectlyAckPo SendCtl.xqcSendCtlIndirectlyAckPo
  dsimp only; split
  · split <;> simp
  · rfl

lemma takeIn_ctl (n : Pns) : (takeIn look n p x).ctl = SendCtl.takeIn n p x.ctl := by
  simp [takeIn, SendCtl.takeIn]

lemma writeNewPacket_ctl (type : PktType) : (xqcWriteNewPacket look w type x).map id State.ctl =
    SendCtl.xqcWriteNewPacket w type x.ctl := by
  unfold xqcWriteNewPacket SendCtl.xqcWriteNewPacket xqcPacketOutGet
  rcases SendCtl.xqcPacketOutGet w x.ctl with ⟨_ | d, s⟩ <;> rfl

@[simp] lemma onPacketSent_ctl : (xqcSendCtlOnPacketSent look p x).ctl = SendCtl.xqcSendCtlOnPacketSent p x.ctl := by
  unfold xqcSendCtlOnPacketSent
  dsimp only; split <;> rfl

@[simp] lemma settle_ctl : (settle look p x).ctl = SendCtl.settle p x.ctl := by
  unfold settle SendCtl.settle
  dsimp only; split <;> rfl

lemma sendOne_ctl (q : Queue) (now : UInt64) (taken : Bool) :
    (sendOne look w q now taken p x).ctl = SendCtl.sendOne w q now (if taken then .all else .error) p x.ctl := by
  unfold sendOne SendCtl.sendOne xqcSendPacketWithPn
  by_cases hq : q = .lost ∨ q = .probe
  · cases taken <;> simp [hq]
  · cases taken <;> simp [hq]

lemma reassemble_ctl : (xqcConnReassemblePacket look w p x).map State.ctl = SendCtl.xqcConnReassemblePacket w p x.ctl := by
  unfold xqcConnReassemblePacket SendCtl.xqcConnReassemblePacket
  dsimp only; rw [← writeNewPacket_ctl look]
  rcases xqcWriteNewPacket look w (x.ctl.pkts p).pktType x with ⟨_ | d, y⟩
  · rfl
  · dsimp only [Prod.map]; split <;> rfl

lemma pathChallenge_ctl (sent : Bool) : (xqcConnServerSendPathChallenge look w sent x).ctl =
    SendCtl.xqcConnServerSendPathChallenge w sent x.ctl := by
  unfold xqcConnServerSendPathChallenge SendCtl.xqcConnServerSendPathChallenge
  rw [← writeNewPacket_ctl look]
  rcases xqcWriteNewPacket look w .shortHeader x with ⟨_ | d, y⟩
  · rfl
  · cases sent <;> rfl

end Forget

/-! ## Operations -/

inductive Op where
  | write (type : PktType)
  | append (p : Id) (f : PacketOut.NewFrame) (fin : Bool)
  | recycle (p : Id)
  | toHead (p : Id)
  /-- From the send list to that of high priority, to the buffer, or a PING to the probes. -/
  | shift (p : Id) (k : Place)
  | unbuff (p : Id)
  | mark (p : Id) (lost tlp : Bool)
  | send (q : Queue) (now : UInt64) (taken : Bool)
  /-- In a burst packets are encoded first, and sent then. -/
  | encode (q : Queue) (p : Id) (now : UInt64)
  | sent (q : Queue)
  | settle (k : Place) (p : Id)
  | lose (n : Pns) (p : Id)
  | probe (n : Pns) (p : Id)
  /-- An ACK frame begins; a packet it acknowledges, which is not above its largest. -/
  | ackStart (info : FrameParser.AckInfo)
  | ack (n : Pns) (p : Id)
  /-- `told`: the streams are told of it. -/
  | drop (k : Place) (p : Id) (told : Bool)
  | challenge (sent : Bool)
  | reset
  | reassemble (p : Id)
  | destroy
  /-- The estimates, times and flags that the packets do not depend on. -/
  | rest (rtt : Rtt) (lossTime : Pns → UInt64) (conn : Conn) (asked : Nat)

inductive Does : State ξ → Op → State ξ → Prop
  | write (x : State ξ) (type : PktType) : Does x (.write type) (xqcWriteNewPacket look w type x).2
  | append (x : State ξ) (p : Id) (f : PacketOut.NewFrame) (fin : Bool) (hp : p ∈ x.ctl.lists .send) :
      Does x (.append p f fin) (tell look (.appended p f fin) (x.on (·.modify p (PacketOut.addFrame f))))
  | recycle (x : State ξ) (p : Id) (hp : p ∈ x.ctl.lists .send) (he : (x.ctl.pkts p).frameTypes = ∅) :
      Does x (.recycle p) (insertFree look p x)
  | toHead (x : State ξ) (p : Id) (hp : p ∈ x.ctl.lists .send) : Does x (.toHead p) (x.on (·.moveToHead p))
  | shift (x : State ξ) (p : Id) (k : Place) (hp : p ∈ x.ctl.lists .send)
      (hk : k = .highPri ∨ k = .buff ∨ (k = .probe ∧ (x.ctl.pkts p).frameTypes = {.ping})) :
      Does x (.shift p k) (x.on (·.move p k))
  | unbuff (x : State ξ) (p : Id) (hp : p ∈ x.ctl.lists .buff) :
      Does x (.unbuff p) (tell look .insertSend ((tell look .removeBuff x).on (·.move p .send)))
  | mark (x : State ξ) (p : Id) (lost tlp : Bool) :
      Does x (.mark p lost tlp) (x.on (·.modify p ({ · with lost := lost, tlp := tlp })))
  | send (x : State ξ) (q : Queue) (now : UInt64) (taken : Bool) (p : Id) (hp : (x.ctl.lists q.place).head? = some p) :
      Does x (.send q now taken) (sendOne look w q now taken p x)
  | encode (x : State ξ) (q : Queue) (p : Id) (now : UInt64) (hp : p ∈ x.ctl.lists q.place) :
      Does x (.encode q p now) (x.on (xqcConnEncPacket w now p))
  | sent (x : State ξ) (q : Queue) (p : Id) (hp : (x.ctl.lists q.place).head? = some p) :
      Does x (.sent q) (settle look p (xqcSendCtlOnPacketSent look p x))
  | settle (x : State ξ) (k : Place) (p : Id) (hk : k = .lost ∨ k = .probe ∨ ∃ n, k = .unacked n) (hp : p ∈ x.ctl.lists k)
      (hi : (xqcSendCtlIndirectlyAckPo look p x).1 = true) : Does x (.settle k p) (xqcSendCtlIndirectlyAckPo look p x).2
  | lose (x : State ξ) (n : Pns) (p : Id) (hp : p ∈ x.ctl.lists (.unacked n))
      (hi : (xqcSendCtlIndirectlyAckPo look p x).1 = false) (hf : (x.ctl.pkts p).inFlight = true) :
      Does x (.lose n p) (lose look w p x)
  | probe (x : State ξ) (n : Pns) (p : Id) (hp : p ∈ x.ctl.lists (.unacked n))
      (hi : (xqcSendCtlIndirectlyAckPo look p x).1 = false)
      (he : (x.ctl.pkts p).frameTypes.isAckEliciting ∧ (x.ctl.pkts p).frameTypes.needRepair) :
      Does x (.probe n p) (probe look w p x)
  | ackStart (x : State ξ) (info : FrameParser.AckInfo) :
      Does x (.ackStart info) (x.on fun s => (SendCtl.ackStart info s).ctl)
  | ack (x : State ξ) (n : Pns) (p : Id) (la : UInt64) (hp : p ∈ x.ctl.lists (.unacked n))
      (hla : x.ctl.largestAcked n = some la) (hle : (x.ctl.pkts p).pktNum ≤ la) : Does x (.ack n p) (takeIn look n p x)
  | drop (x : State ξ) (k : Place) (p : Id) (told : Bool) (hk : k ≠ .free) (hp : p ∈ x.ctl.lists k) :
      Does x (.drop k p told) (let y := (insertFree look p x).on (xqcSendCtlDecreaseInflight p)
        if told then tell look (.dropped p) y else y)
  | challenge (x : State ξ) (sent : Bool) : Does x (.challenge sent) (xqcConnServerSendPathChallenge look w sent x)
  | reset (x : State ξ) : Does x .reset (x.on xqcSendCtlReset)
  | reassemble (x y : State ξ) (p : Id) (hp : p ∈ x.ctl.lists .send) (hy : xqcConnReassemblePacket look w p x = some y) :
      Does x (.reassemble p) y
  | destroy (x : State ξ) : Does x .destroy ((tell look .destroyed x).on xqcSendCtlDestroyPacketsLists)
  | rest (x : State ξ) (rtt : Rtt) (lossTime : Pns → UInt64) (conn : Conn) (asked : Nat) :
      Does x (.rest rtt lossTime conn asked)
        (x.on fun s => { s with rtt := rtt, lossTime := lossTime, conn := conn, asked := asked })

end RlccQuic.Transport.Watched
