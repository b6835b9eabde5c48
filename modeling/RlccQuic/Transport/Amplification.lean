/-
  RlccQuic.Transport.Amplification — how much a server sends to an address that is not validated (`xqc_send_ctl.c`:
  `xqc_send_ctl_check_anti_amplification`, `xqc_send_ctl_on_dgram_received`; `xqc_conn.c`: both send paths, what is
  received and what is received again).

  The limit compares `ctl_bytes_send` with `ctl_bytes_recv`. The first has the sizes of numbered packets before
  encryption, so neither their authentication tags nor packets without a number nor what is written to the socket
  directly. The second has a datagram that had to wait for its keys once more when it is processed. And there is no
  limit as long as `ctl_bytes_send` is 0, which it is for the whole of a first burst.

  Congestion control, pacing and the socket are chosen freely, as is which packets wait
  to be sent. A server sends no 0-RTT packets.

  Proved: the bound holds along every run in which the room that the counters leave, if they leave any, has place for the tags,
  the uncounted packets and the datagrams counted twice, and in which what is sent without a check finds that place too
  (`amplification_is_bounded`); a first burst of five packets breaks it (`first_burst_is_not_limited`).
-/

import RlccQuic.Lib.Run
import RlccQuic.Transport.PacketOut

namespace RlccQuic.Transport.Amplification

open Lib List

/-! ## State -/

inductive Level where
  | zeroRtt
  | hsk
  | oneRtt
  deriving DecidableEq, Repr

structure Amp where
  server : Bool
  /-- `XQC_CONN_FLAG_ADDR_VALIDATED`. -/
  validated : Bool
  /-- `conn_settings.anti_amplification_limit`. -/
  limit : UInt32
  bytesSend : UInt64
  bytesRecv : UInt64
  /-- `undecrypt_packet_in`: the sizes of what waits. -/
  undecrypt : Level → List Nat
  /-- Bytes in UDP datagrams, sent and received. The code does not keep these. -/
  wireSent : Nat
  wireRecv : Nat
  /-- The packet sent last. -/
  lastSent : Nat
  /-- Bytes sent that `bytesSend` has not, and bytes `bytesRecv` has twice. -/
  unseen : Nat
  twice : Nat

/-- A server's connection, `xqc_conn_server_create`. -/
def xqcConnServerCreate (limit : UInt32) : Amp where
  server := true
  validated := false
  limit := limit
  bytesSend := 0
  bytesRecv := 0
  undecrypt := fun _ => []
  wireSent := 0
  wireRecv := 0
  lastSent := 0
  unseen := 0
  twice := 0

/-! ## Receiving -/

inductive Verdict where
  /-- It is processed; `trusted` says that it has a valid token or the server's own connection id. -/
  | processed (type : PktType) (trusted : Bool) (len : Nat)
  /-- Its key is not there yet; `kept` says that there was memory for it, and that it is
      not one 0-RTT packet too many before the first Initial packet. -/
  | waiting (l : Level) (kept : Bool)
  /-- An error that is tolerated (`xqc_conn_tolerant_error`). -/
  | ignored
  /-- Any other error, also one after the packet was processed. -/
  | failed
  deriving DecidableEq

def xqcConnServerValidateAddress (type : PktType) (trusted : Bool) (a : Amp) : Amp :=
  match type with
  | .init => if trusted then { a with validated := true } else a
  | .hsk => { a with validated := true }
  | _ => a

/-- `XQC_UNDECRYPT_PACKET_MAX` and `XQC_MAX_PACKET_IN_LEN`. -/
def xqcUndecryptPacketMax : Nat := 100

def xqcMaxPacketInLen : Nat := 1500

/-- What is left of the datagram is kept, with the packets behind this one. -/
def xqcConnBuffUndecryptPacketIn (l : Level) (kept : Bool) (left : Nat) (a : Amp) : Amp :=
  if (a.undecrypt l).length ≥ xqcUndecryptPacketMax ∨ left > xqcMaxPacketInLen then a
  else if kept then { a with undecrypt := Function.update a.undecrypt l (a.undecrypt l ++ [left]) }
  else a

/-- The loop of `xqc_conn_process_packet`, and whether it returns `XQC_OK`. -/
def processPackets : List Verdict → Nat → Amp → Bool × Amp
  | [], _, a => (true, a)
  | .processed type trusted len :: vs, left, a =>
    processPackets vs (left - len) (if a.validated then a else xqcConnServerValidateAddress type trusted a)
  | .waiting l kept :: _, left, a => (true, xqcConnBuffUndecryptPacketIn l kept left a)
  | .ignored :: _, _, a => (true, a)
  | .failed :: _, _, a => (false, a)

def xqcSendCtlOnDgramReceived (size : Nat) (a : Amp) : Amp := { a with bytesRecv := a.bytesRecv + UInt64.ofNat size }

def xqcConnProcessPacket (size : Nat) (vs : List Verdict) (a : Amp) : Bool × Amp :=
  processPackets vs size (xqcSendCtlOnDgramReceived size a)

/-- One round of `xqc_conn_process_undecrypt_packet_in`. -/
def processUndecrypt (l : Level) (vs : List Verdict) (a : Amp) : Amp :=
  match a.undecrypt l with
  | [] => a
  | size :: _ =>
    match xqcConnProcessPacket size vs { a with twice := a.twice + size } with
    | (true, a) => { a with undecrypt := Function.update a.undecrypt l (a.undecrypt l).tail }
    | (false, a) => a

/-! ## Sending -/

def xqcSendCtlCheckAntiAmplification (a : Amp) (byteCnt : UInt64) : Bool :=
  a.server && decide (a.bytesSend > 0) && !a.validated &&
    decide (a.bytesSend + byteCnt ≥ a.limit.toUInt64 * a.bytesRecv)

/-- A packet in a list, Version Negotiation among them. -/
inductive Out where
  | numbered (po : PacketOut)
  | bare (size : UInt32)

def aeadTagLen : Nat := 16

namespace Out

/-- `po_used_size` once the packet is encoded by a server, and so padded. -/
def usedSize : Out → UInt32
  | numbered po => (po.pad false).usedSize
  | bare size => size

def counted : Out → Nat
  | numbered po => (po.pad false).usedSize.toNat
  | bare _ => 0

def wire : Out → Nat
  | numbered po => (po.pad false).usedSize.toNat + aeadTagLen
  | bare size => size.toNat

def canInFlight : Out → Bool
  | numbered po => decide po.frameTypes.canInFlight
  | bare _ => false

end Out

/-- The packet is sent, `xqc_send_ctl_on_packet_sent` for one that has a number. -/
def put (a : Amp) (p : Out) : Amp :=
  { a with
    bytesSend := a.bytesSend + UInt64.ofNat p.counted
    wireSent := a.wireSent + p.wire
    lastSent := p.wire
    unseen := a.unseen + (p.wire - p.counted) }

/-- `xqc_send_ctl_can_send`, with pacing; `room` is what congestion control says. -/
def xqcSendCtlCanSend (room : Bool) (p : Out) (a : Amp) : Bool :=
  match p with
  | .numbered po => room && !xqcSendCtlCheckAntiAmplification a po.usedSize.toUInt64
  | .bare _ => room

/-- `xqc_conn_send_one_packet`; `taken` says that the socket took it. -/
def xqcConnSendOnePacket (taken : Bool) (p : Out) (a : Amp) : Amp :=
  if xqcSendCtlCheckAntiAmplification a 0 then a else if taken then put a p else a

/-- One round of the loops that send one by one; `congest` for the lists that congestion control holds back. -/
def sendRound (congest room taken : Bool) (p : Out) (a : Amp) : Amp :=
  if congest = true ∧ p.canInFlight = true ∧ xqcSendCtlCanSend room p a = false then a
  else xqcConnSendOnePacket taken p a

def xqcMaxSendMsgOnce : Nat := 32

/-- The packets `xqc_conn_send_burst_packets` puts into a burst, of those it comes to, with `total_bytes_to_send`. -/
def fillBurst (congest : Bool) (a : Amp) : Nat → UInt32 → List (Out × Bool) → List Out
  | 0, _, _ => []
  | _ + 1, _, [] => []
  | n + 1, total, (.bare size, _) :: ps => .bare size :: fillBurst congest a n total ps
  | n + 1, total, (.numbered po, room) :: ps =>
    if xqcSendCtlCheckAntiAmplification a total.toUInt64 then []
    else if congest = true ∧ (Out.numbered po).canInFlight = true ∧ xqcSendCtlCanSend room (.numbered po) a = false then []
    else .numbered po :: fillBurst congest a n (total + (Out.numbered po).usedSize) ps

/-- `xqc_conn_send_burst_packets`, where the socket takes the first `sent` packets. -/
def xqcConnSendBurstPackets (congest : Bool) (ps : List (Out × Bool)) (sent : Nat) (a : Amp) : Amp :=
  ((fillBurst congest a xqcMaxSendMsgOnce 0 ps).take sent).foldl put a

/-- What is written to the socket past the send control: a Retry
    (`xqc_conn_send_retry`) and a path challenge (`xqc_conn_server_send_path_challenge`). -/
def writeSocket (size : Nat) (a : Amp) : Amp :=
  { a with wireSent := a.wireSent + size, lastSent := size, unseen := a.unseen + size }

/-! ## The machine -/

inductive Ev where
  /-- A datagram comes in. -/
  | recv (size : Nat) (vs : List Verdict)
  /-- One that had to wait is processed again. -/
  | again (l : Level) (vs : List Verdict)
  | send (congest room taken : Bool) (p : Out)
  | burst (congest : Bool) (ps : List (Out × Bool)) (sent : Nat)
  | write (size : Nat)

def step (a : Amp) : Ev → Amp
  | .recv size vs => (xqcConnProcessPacket size vs { a with wireRecv := a.wireRecv + size }).2
  | .again l vs => processUndecrypt l vs a
  | .send congest room taken p => sendRound congest room taken p a
  | .burst congest ps sent => xqcConnSendBurstPackets congest ps sent a
  | .write size => writeSocket size a

/-- While the address is not validated: what was sent is at most the limit times what
    was received, and one packet, the last one. -/
def Bounded (a : Amp) : Prop :=
  a.server = true → a.validated = false → a.wireSent ≤ a.limit.toNat * a.wireRecv + a.lastSent

/-! ## When the bound holds -/

/-- The bytes on the wire of some packets, and those that `ctl_bytes_send` will have. -/
def wires (ps : List Out) : Nat := (ps.map Out.wire).sum

def counts (ps : List Out) : Nat := (ps.map Out.counted).sum

/-- The limit does not hold yet, or its two counters leave room behind the packets `front` of a burst. -/
def Open (a : Amp) (front : List Out) : Prop :=
  a.bytesSend = 0 ∨ a.bytesSend.toNat + counts front < a.limit.toNat * a.bytesRecv.toNat

/-- There is place behind `x` further bytes for what the counters do not have: tags, packets that are not counted, and the
    datagrams that are counted twice. -/
def Margin (a : Amp) (x : Nat) : Prop :=
  a.bytesSend.toNat + a.unseen + x + a.limit.toNat * a.twice ≤ a.limit.toNat * a.bytesRecv.toNat

def burstTotal (ps : List Out) : UInt32 :=
  ps.foldl (fun total p => match p with | .numbered _ => total + p.usedSize | .bare _ => total) 0

/-- The limit stops the packet, with the packets `front` before it in its burst. -/
def stopped (a : Amp) (front : List Out) : Out → Bool
  | .numbered _ => xqcSendCtlCheckAntiAmplification a (burstTotal front).toUInt64
  | .bare _ => false

/-- Where the code compares its counters, and they leave room, the room is not all taken by what they do not have; where it
    compares nothing, for a packet without a number in a burst and for a direct write, there is that room; and the
    counts of what is sent do not wrap. -/
def Careful (a : Amp) : Ev → Prop
  | .recv _ _ => True
  | .again _ _ => True
  | .send _ _ _ p => a.validated = false → (Open a [] → Margin a 0) ∧ a.bytesSend.toNat + p.counted < 2 ^ 64
  | .burst _ ps _ => a.validated = false →
    (∀ front q back, (ps.map Prod.fst).take xqcMaxSendMsgOnce = front ++ q :: back →
      match q with
      | .numbered _ => Open a front → Margin a (wires front)
      | .bare _ => Margin a (wires front)) ∧
    a.bytesSend.toNat + counts (ps.map Prod.fst) < 2 ^ 64 ∧ counts (ps.map Prod.fst) < 2 ^ 32
  | .write _ => a.validated = false → Margin a 0

/-- What the counters of the code have to do with the wire. -/
structure Inv (a : Amp) : Prop where
  server : a.server = true
  sent : a.validated = false → a.wireSent = a.bytesSend.toNat + a.unseen
  recv : a.bytesRecv.toNat ≤ a.wireRecv + a.twice
  bounded : Bounded a

variable {a : Amp}

lemma Inv.room (h : Inv a) (hv : a.validated = false) {x : Nat} (hm : Margin a x) :
    a.wireSent + x ≤ a.limit.toNat * a.wireRecv := by
  have hmul := Nat.mul_le_mul_left a.limit.toNat h.recv
  rw [Nat.mul_add] at hmul
  rw [h.sent hv]
  unfold Margin at hm
  omega

/-! ## Receiving keeps it -/

/-- What processing a datagram leaves as it is; the address may become validated. -/
structure Same (a b : Amp) : Prop where
  server : b.server = a.server
  limit : b.limit = a.limit
  bytesSend : b.bytesSend = a.bytesSend
  bytesRecv : b.bytesRecv = a.bytesRecv
  wireSent : b.wireSent = a.wireSent
  wireRecv : b.wireRecv = a.wireRecv
  lastSent : b.lastSent = a.lastSent
  unseen : b.unseen = a.unseen
  twice : b.twice = a.twice
  validated : b.validated = false → a.validated = false

lemma Same.refl (a : Amp) : Same a a := ⟨rfl, rfl, rfl, rfl, rfl, rfl, rfl, rfl, rfl, id⟩

lemma Same.trans {b c : Amp} (h : Same a b) (h' : Same b c) : Same a c :=
  ⟨h'.server.trans h.server, h'.limit.trans h.limit, h'.bytesSend.trans h.bytesSend, h'.bytesRecv.trans h.bytesRecv,
    h'.wireSent.trans h.wireSent, h'.wireRecv.trans h.wireRecv, h'.lastSent.trans h.lastSent, h'.unseen.trans h.unseen,
    h'.twice.trans h.twice, fun hv => h.validated (h'.validated hv)⟩

lemma Same.inv {b : Amp} (h : Same a b) (ha : Inv a) : Inv b where
  server := h.server.trans ha.server
  sent hv := by
    rw [h.wireSent, h.bytesSend, h.unseen]; exact ha.sent (h.validated hv)
  recv := by
    rw [h.bytesRecv, h.wireRecv, h.twice]; exact ha.recv
  bounded hs hv := by
    rw [h.wireSent, h.limit, h.wireRecv, h.lastSent]
    exact ha.bounded (h.server.symm.trans hs) (h.validated hv)

lemma validateAddress_same (type : PktType) (trusted : Bool) (a : Amp) :
    Same a (xqcConnServerValidateAddress type trusted a) := by
  unfold xqcConnServerValidateAddress; split
  · split
    · exact ⟨rfl, rfl, rfl, rfl, rfl, rfl, rfl, rfl, rfl, fun hv => by cases hv⟩
    · exact .refl a
  · exact ⟨rfl, rfl, rfl, rfl, rfl, rfl, rfl, rfl, rfl, fun hv => by cases hv⟩
  · exact .refl a

lemma buffUndecrypt_same (l : Level) (kept : Bool) (left : Nat) (a : Amp) :
    Same a (xqcConnBuffUndecryptPacketIn l kept left a) := by
  unfold xqcConnBuffUndecryptPacketIn; split
  · exact .refl a
  · split
    · exact ⟨rfl, rfl, rfl, rfl, rfl, rfl, rfl, rfl, rfl, id⟩
    · exact .refl a

lemma processPackets_same : ∀ (vs : List Verdict) (left : Nat) (a : Amp), Same a (processPackets vs left a).2 := by
  intro vs
  induction vs with
  | nil => intro left a; exact .refl a
  | cons v vs ih =>
    intro left a
    cases v with
    | processed type trusted len =>
      have hv : Same a (if a.validated then a else xqcConnServerValidateAddress type trusted a) := by
        split
        · exact .refl a
        · exact validateAddress_same type trusted a
      exact hv.trans (ih _ _)
    | waiting l kept => exact buffUndecrypt_same l kept left a
    | ignored | failed => exact .refl a

lemma processPacket_inv (size : Nat) (vs : List Verdict) (hserver : a.server = true)
    (hsent : a.validated = false → a.wireSent = a.bytesSend.toNat + a.unseen)
    (hrecv : a.bytesRecv.toNat + size ≤ a.wireRecv + a.twice) (hb : Bounded a) :
    Inv (xqcConnProcessPacket size vs a).2 := by
  have hcount : Inv (xqcSendCtlOnDgramReceived size a) := by
    refine ⟨hserver, hsent, ?_, hb⟩
    have hle : (a.bytesRecv + UInt64.ofNat size).toNat ≤ a.bytesRecv.toNat + size := by
      exact Nat.le_trans (Nat.mod_le _ _) (Nat.add_le_add_left (Nat.mod_le _ _) _)
    exact Nat.le_trans hle hrecv
  exact (processPackets_same vs size _).inv hcount

lemma recv_inv (h : Inv a) (size : Nat) (vs : List Verdict) : Inv (step a (.recv size vs)) := by
  refine processPacket_inv size vs h.server h.sent ?_ ?_
  · have := h.recv; show a.bytesRecv.toNat + size ≤ a.wireRecv + size + a.twice; omega
  · intro hs hv
    have hmul : a.limit.toNat * a.wireRecv ≤ a.limit.toNat * (a.wireRecv + size) :=
      Nat.mul_le_mul_left _ (Nat.le_add_right _ _)
    exact Nat.le_trans (h.bounded hs hv) (Nat.add_le_add_right hmul _)

lemma again_inv (h : Inv a) (l : Level) (vs : List Verdict) : Inv (step a (.again l vs)) := by
  show Inv (processUndecrypt l vs a)
  unfold processUndecrypt; split
  · exact h
  · rename_i size _ _
    have hp : Inv (xqcConnProcessPacket size vs { a with twice := a.twice + size }).2 := by
      refine processPacket_inv size vs h.server h.sent ?_ h.bounded
      have := h.recv
      show a.bytesRecv.toNat + size ≤ a.wireRecv + (a.twice + size)
      omega
    split
    · rename_i b heq; rw [heq] at hp; exact ⟨hp.server, hp.sent, hp.recv, hp.bounded⟩
    · rename_i b heq; rw [heq] at hp; exact hp

/-! ## Sending keeps it -/

lemma Out.counted_le_wire (p : Out) : p.counted ≤ p.wire := by
  cases p with
  | numbered po => exact Nat.le_add_right _ _
  | bare size => exact Nat.zero_le _

variable (ps : List Out)

@[simp] lemma wires_append (qs : List Out) : wires (ps ++ qs) = wires ps + wires qs := by
  simp [wires]

@[simp] lemma counts_append (qs : List Out) : counts (ps ++ qs) = counts ps + counts qs := by
  simp [counts]

lemma puts_spec : ∀ {a : Amp}, a.bytesSend.toNat + counts ps < 2 ^ 64 →
    (ps.foldl put a).bytesSend.toNat = a.bytesSend.toNat + counts ps ∧
      (ps.foldl put a).wireSent = a.wireSent + wires ps ∧
      (ps.foldl put a).unseen = a.unseen + (wires ps - counts ps) ∧ counts ps ≤ wires ps := by
  induction ps with
  | nil => intro a _; exact ⟨rfl, rfl, rfl, le_rfl⟩
  | cons p ps ih =>
    intro a hroom
    have hcount : counts (p :: ps) = p.counted + counts ps := by simp [counts]
    have hwire : wires (p :: ps) = p.wire + wires ps := by simp [wires]
    have hsend : (put a p).bytesSend.toNat = a.bytesSend.toNat + p.counted := by
      show (a.bytesSend + UInt64.ofNat p.counted).toNat = _
      rw [UInt64.toNat_add, UInt64.toNat_ofNat', Nat.mod_eq_of_lt (by omega : p.counted < 2 ^ 64), Nat.mod_eq_of_lt (by omega)]
    obtain ⟨hs, hw, hu, hle⟩ := ih (a := put a p) (by rw [hsend]; omega)
    have hp := p.counted_le_wire
    refine ⟨?_, ?_, ?_, by omega⟩
    · rw [foldl_cons, hs, hsend, hcount]; omega
    · rw [foldl_cons, hw, hwire]; show a.wireSent + p.wire + wires ps = _; omega
    · rw [foldl_cons, hu, hwire, hcount]
      show a.unseen + (p.wire - p.counted) + (wires ps - counts ps) = _
      omega

lemma puts_same : ∀ a : Amp, (ps.foldl put a).server = a.server ∧
    (ps.foldl put a).validated = a.validated ∧ (ps.foldl put a).limit = a.limit ∧
    (ps.foldl put a).bytesRecv = a.bytesRecv ∧ (ps.foldl put a).wireRecv = a.wireRecv ∧
    (ps.foldl put a).twice = a.twice := by
  induction ps with
  | nil => intro a; exact ⟨rfl, rfl, rfl, rfl, rfl, rfl⟩
  | cons p ps ih => intro a; exact ih (put a p)

/-- If the last one of the packets finds room behind the others, sending them keeps the bound. -/
lemma puts_inv (h : Inv a) (ps : List Out)
    (hroom : a.validated = false → a.bytesSend.toNat + counts ps < 2 ^ 64)
    (hlast : a.validated = false → ∀ front q, ps = front ++ [q] → Margin a (wires front)) : Inv (ps.foldl put a) := by
  obtain ⟨hserver, hvalid, hlimit, hrecv, hwrecv, htwice⟩ := puts_same ps a
  refine ⟨hserver.trans h.server, ?_, ?_, ?_⟩
  · intro hv; rw [hvalid] at hv
    obtain ⟨hs, hw, hu, hle⟩ := puts_spec ps (hroom hv)
    rw [hs, hw, hu, h.sent hv]; omega
  · rw [hrecv, hwrecv, htwice]; exact h.recv
  · intro hs hv; rw [hvalid] at hv
    rcases eq_nil_or_concat' ps with rfl | ⟨front, q, rfl⟩
    · exact h.bounded h.server hv
    · have hlt := h.room hv (hlast hv front q rfl)
      have hsent := (puts_spec _ (hroom hv)).2.1
      have hend : ((front ++ [q]).foldl put a).lastSent = q.wire := by
        rw [foldl_append]; rfl
      rw [hsent, hlimit, hwrecv, hend, wires_append]
      have : wires [q] = q.wire := by simp [wires]
      omega

lemma burstTotal_append (po : PacketOut) :
    burstTotal (ps ++ [.numbered po]) = burstTotal ps + (Out.numbered po).usedSize := by
  unfold burstTotal; rw [foldl_append]
  rfl

lemma burstTotal_bare (size : UInt32) : burstTotal (ps ++ [.bare size]) = burstTotal ps := by
  unfold burstTotal; rw [foldl_append]
  rfl

/-- `total_bytes_to_send` is what `ctl_bytes_send` will have. -/
lemma burstTotal_toNat (h : counts ps < 2 ^ 32) : (burstTotal ps).toNat = counts ps := by
  induction ps using List.reverseRecOn with
  | nil => rfl
  | append_singleton ps p ih =>
    rw [counts_append] at h ⊢
    have ih := ih (by omega)
    cases p with
    | numbered po =>
      have hp : counts [.numbered po] = (Out.numbered po).usedSize.toNat := by simp [counts, Out.counted, Out.usedSize]
      rw [burstTotal_append, UInt32.toNat_add, ih, hp, Nat.mod_eq_of_lt (by omega)]
    | bare size => rw [burstTotal_bare, ih]; rfl

/-- What passes the check while the address is not validated finds room by the counters. -/
lemma check_open (hserver : a.server = true) (hv : a.validated = false) {front : List Out} {cnt : UInt64}
    (hcnt : cnt.toNat = counts front) (hwrap : a.bytesSend.toNat + counts front < 2 ^ 64)
    (h : xqcSendCtlCheckAntiAmplification a cnt = false) : Open a front := by
  by_cases h0 : a.bytesSend = 0
  · exact .inl h0
  have hpos : a.bytesSend > 0 := UInt64.pos_iff_ne_zero.mpr h0
  have hlt : a.bytesSend + cnt < a.limit.toUInt64 * a.bytesRecv := by
    simpa [xqcSendCtlCheckAntiAmplification, hserver, hv, hpos] using h
  rw [UInt64.lt_iff_toNat_lt, UInt64.toNat_add, UInt64.toNat_mul, hcnt, Nat.mod_eq_of_lt hwrap] at hlt
  exact .inr (Nat.lt_of_lt_of_le hlt (Nat.mod_le _ _))

variable {congest : Bool}

/-- A burst is made of the first packets of the list; the limit stopped none of them,
    behind those before it. `seen` are the packets the loop has passed. -/
lemma fillBurst_spec : ∀ (n : Nat) (ps : List (Out × Bool)) (seen front : List Out) (q : Out)
    (back : List Out), fillBurst congest a n (burstTotal seen) ps = front ++ q :: back →
    stopped a (seen ++ front) q = false ∧ ∃ rest, (ps.map Prod.fst).take n = front ++ q :: rest := by
  intro n
  induction n with
  | zero => intro ps seen front q back h; simp [fillBurst] at h
  | succ n ih =>
    intro ps seen front q back h
    cases ps with
    | nil => simp [fillBurst] at h
    | cons v ps =>
      obtain ⟨p, room⟩ := v
      -- the packet goes into the burst: it is `q` itself, or the first one of `front`
      have key : stopped a seen p = false →
          p :: fillBurst congest a n (burstTotal (seen ++ [p])) ps = front ++ q :: back →
          stopped a (seen ++ front) q = false ∧ ∃ rest, (((p, room) :: ps).map Prod.fst).take (n + 1) = front ++ q :: rest := by
        intro hp heq
        cases front with
        | nil =>
          obtain ⟨rfl, -⟩ := List.cons.inj heq
          rw [append_nil]; exact ⟨hp, (ps.map Prod.fst).take n, rfl⟩
        | cons f front =>
          obtain ⟨rfl, htail⟩ := List.cons.inj heq
          obtain ⟨hstop, rest, hrest⟩ := ih ps (seen ++ [p]) front q back htail
          rw [append_assoc] at hstop
          refine ⟨hstop, rest, ?_⟩
          rw [map_cons, take_succ_cons, hrest]; rfl
      cases p with
      | bare size => exact key rfl (by rw [burstTotal_bare]; exact h)
      | numbered po =>
        rw [fillBurst] at h; split at h
        · simp at h
        · rename_i hcheck
          split at h
          · simp at h
          · exact key (by simpa [stopped] using hcheck) (by rw [burstTotal_append]; exact h)

lemma burst_inv (h : Inv a) {ps : List (Out × Bool)} {sent : Nat}
    (hc : Careful a (.burst congest ps sent)) : Inv (step a (.burst congest ps sent)) := by
  show Inv (((fillBurst congest a xqcMaxSendMsgOnce 0 ps).take sent).foldl put a)
  have hspec : ∀ {front q back}, fillBurst congest a xqcMaxSendMsgOnce 0 ps = front ++ q :: back → _ :=
    fun heq => fillBurst_spec xqcMaxSendMsgOnce ps [] _ _ _ heq
  generalize fillBurst congest a xqcMaxSendMsgOnce 0 ps = burst at hspec
  have hlast : ∀ front q, burst.take sent = front ++ [q] → stopped a front q = false ∧
      ∃ rest, (ps.map Prod.fst).take xqcMaxSendMsgOnce = front ++ q :: rest := by
    intro front q heq
    have hfull : burst.take sent ++ burst.drop sent = front ++ q :: burst.drop sent := by
      rw [heq, append_assoc]; rfl
    exact hspec ((take_append_drop sent burst).symm.trans hfull)
  have hcounts : ∀ {front q}, burst.take sent = front ++ [q] → counts front + q.counted ≤ counts (ps.map Prod.fst) := by
    intro front q heq
    obtain ⟨-, rest, hrest⟩ := hlast front q heq
    rw [← take_append_drop xqcMaxSendMsgOnce (ps.map Prod.fst), hrest, append_cons, counts_append, counts_append, counts_append]
    have : counts [q] = q.counted := by simp [counts]
    omega
  refine puts_inv h _ ?_ ?_
  · intro hv
    obtain ⟨-, hall, -⟩ := hc hv
    rcases eq_nil_or_concat' (burst.take sent) with hnil | ⟨front, q, heq⟩
    · rw [hnil]; exact Nat.lt_of_le_of_lt (Nat.add_le_add_left (Nat.zero_le _) _) hall
    · have hle := hcounts heq
      have : counts [q] = q.counted := by simp [counts]
      rw [heq, counts_append]; omega
  · intro hv front q heq
    obtain ⟨hroom, hall, hsmall⟩ := hc hv
    obtain ⟨hstop, rest, hrest⟩ := hlast front q heq
    have hle := hcounts heq
    have hmargin := hroom front q rest hrest
    cases q with
    | bare size => exact hmargin
    | numbered po =>
      have htotal : (burstTotal front).toUInt64.toNat = counts front := burstTotal_toNat front (by omega)
      exact hmargin (check_open h.server hv htotal (by omega) hstop)

lemma send_inv (h : Inv a) {room taken : Bool} {p : Out}
    (hc : Careful a (.send congest room taken p)) : Inv (step a (.send congest room taken p)) := by
  show Inv (sendRound congest room taken p a)
  unfold sendRound xqcConnSendOnePacket; split
  · exact h
  · split
    · exact h
    · rename_i hpass
      split
      · refine puts_inv h [p] ?_ ?_
        · intro hv
          have : counts [p] = p.counted := by simp [counts]
          exact (hc hv).2
        · intro hv front q heq
          obtain rfl : front = [] := by
            cases front with
            | nil => rfl
            | cons f front => simp at heq
          have hwrap : a.bytesSend.toNat + counts [] < 2 ^ 64 := Nat.lt_of_le_of_lt (Nat.le_add_right _ _) (hc hv).2
          exact (hc hv).1 (check_open h.server hv rfl hwrap (Bool.eq_false_iff.mpr hpass))
      · exact h

lemma write_inv (h : Inv a) {size : Nat} (hc : Careful a (.write size)) : Inv (step a (.write size)) := by
  refine ⟨h.server, ?_, h.recv, ?_⟩
  · intro hv
    have := h.sent hv
    show a.wireSent + size = a.bytesSend.toNat + (a.unseen + size)
    omega
  · intro _ hv
    have hlt : a.wireSent + 0 ≤ a.limit.toNat * a.wireRecv := h.room hv (hc hv)
    show a.wireSent + size ≤ a.limit.toNat * a.wireRecv + size
    omega

lemma step_inv (h : Inv a) (e : Ev) (hc : Careful a e) : Inv (step a e) := by
  cases e with
  | recv size vs => exact recv_inv h size vs
  | again l vs => exact again_inv h l vs
  | send congest room taken p => exact send_inv h hc
  | burst congest ps sent => exact burst_inv h hc
  | write size => exact write_inv h hc

lemma create_inv (limit : UInt32) : Inv (xqcConnServerCreate limit) where
  server := rfl
  sent _ := rfl
  recv := Nat.zero_le _
  bounded _ _ := Nat.zero_le _

def Step (a : Amp) (e : Ev) (b : Amp) : Prop := b = step a e

end RlccQuic.Transport.Amplification
