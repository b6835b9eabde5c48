/-
  RlccQuic.Transport.Replay — packets that are received twice (`xqc_conn.c`:
  `xqc_conn_process_packet`, `xqc_conn_on_pkt_processed`, `xqc_conn_record_single`;
  `xqc_packet.c`: `xqc_packet_process_single`, `xqc_packet_decrypt_single`).

  The frames of a packet are processed as soon as it is decrypted. Its number goes to the receive record afterwards, and
  what the record says of it is only used to count packets for acknowledgments.

  What a packet's header, its authentication and its frames come to is chosen freely for
  each arrival; authentication depends on the packet number, which is decoded with the
  largest one received. A frame that acknowledges an ACK of ours prunes the record.

  Proved: over any sequence of datagrams the frames of each packet are applied as often as it arrives and is authentic
  (`receive_applied`), so at most once if no datagram brings an authentic packet again (`frames_applied_once`).
-/

import RlccQuic.Transport.Defs
import RlccQuic.Transport.KeyUpdate
import RlccQuic.Transport.RecvRecord

namespace RlccQuic.Transport.Replay

open RecvRecord List Function
open KeyUpdate (xqcPacketDecodePacketNumber)

/-! ## Packets -/

/-- A QUIC packet of a datagram, with what its parts come to when it arrives. -/
structure PacketIn where
  pns : Pns
  /-- `xqc_packet_parse_single`. -/
  parsed : PktRet
  /-- `xqc_has_packet_number`. -/
  hasNumber : Bool
  pktnoLen : UInt64
  truncatedPn : UInt64
  /-- Early data was not accepted. -/
  rejected : Bool
  /-- The payload is decrypted if this is the packet's number. -/
  authentic : UInt64 → Bool
  /-- `xqc_process_frames`. -/
  processed : PktRet
  /-- Its ACK frame acknowledges an ACK of ours, for numbers below this one. -/
  delFrom : Option UInt64
  ackEliciting : Bool
  /-- `xqc_conn_on_initial_processed` and the like. -/
  confirmed : PktRet
  /-- The position has moved. -/
  consumed : Bool
  /-- There is memory for a new range. -/
  alloc : Bool
  recvTime : UInt64

structure St where
  /-- `recv_record`. -/
  records : Pns → Record
  /-- `ctl_largest_recvd`. -/
  largestRecvd : Pns → UInt64
  ackElicitingPkt : Pns → Nat
  /-- The packets whose frames were processed. -/
  applied : List (Pns × UInt64)

def St.pktNum (s : St) (p : PacketIn) : UInt64 :=
  xqcPacketDecodePacketNumber (s.largestRecvd p.pns) p.truncatedPn (p.pktnoLen * 8)

/-! ## The pipeline -/

/-- `xqc_process_frames`, for the record and the log. -/
def processFrames (p : PacketIn) (s : St) : St :=
  { s with
    applied := s.applied ++ [(p.pns, s.pktNum p)]
    records :=
      match p.delFrom with
      | none => s.records
      | some n => update s.records p.pns (xqcRecvRecordDel n (s.records p.pns)) }

def xqcPacketDecryptSingle (p : PacketIn) (s : St) : PktRet × St :=
  if p.rejected then (.eignorePkt, s)
  else if p.authentic (s.pktNum p) then (p.processed, processFrames p s)
  else (.eillpkt, s)

def xqcPacketProcessSingle (p : PacketIn) (s : St) : PktRet × St :=
  if p.parsed ≠ .ok then (p.parsed, s)
  else if p.hasNumber = false then (.ok, s)
  else xqcPacketDecryptSingle p s

/-- `xqc_conn_record_single`, for the packet with number `n`; the flags that lead to an ACK are left out. -/
def xqcConnRecordSingle (p : PacketIn) (n : UInt64) (s : St) : St :=
  if p.hasNumber = false then s
  else
    match xqcRecvRecordAdd p.alloc n p.recvTime (s.records p.pns) with
    | (.ok, rr) =>
      { s with
        records := update s.records p.pns rr
        ackElicitingPkt :=
          if p.ackEliciting then update s.ackElicitingPkt p.pns (s.ackElicitingPkt p.pns + 1)
          else s.ackElicitingPkt
        largestRecvd :=
          if n > s.largestRecvd p.pns then update s.largestRecvd p.pns n else s.largestRecvd }
    | (_, rr) => { s with records := update s.records p.pns rr }

def xqcConnOnPktProcessed (p : PacketIn) (n : UInt64) (s : St) : PktRet × St := (p.confirmed, xqcConnRecordSingle p n s)

/-- One packet of a datagram, and whether the next one is looked at. -/
def packetRound (p : PacketIn) (s : St) : Bool × PktRet × St :=
  match xqcPacketProcessSingle p s with
  | (.ok, s') =>
    match xqcConnOnPktProcessed p (s.pktNum p) s' with
    | (ret, s') =>
      if ret ≠ .ok then (false, ret, s')
      else if p.consumed then (true, .ok, s')
      else (false, .esys, s')
  | (ret, s') => (false, if xqcConnTolerantError ret then .ok else ret, s')

/-- `xqc_conn_process_packet`, for the packets of a datagram. -/
def xqcConnProcessPacket : List PacketIn → St → PktRet × St
  | [], s => (.ok, s)
  | p :: ps, s =>
    match packetRound p s with
    | (true, _, s) => xqcConnProcessPacket ps s
    | (false, ret, s) => (ret, s)

def receive (s : St) (ds : List (List PacketIn)) : St := ds.foldl (fun s d => (xqcConnProcessPacket d s).2) s

/-! ## What is applied -/

/-- The packet arrives: it is parsed, has a number and is authentic under it. -/
def Arrives (p : PacketIn) (s : St) : Prop :=
  p.parsed = .ok ∧ p.hasNumber = true ∧ p.rejected = false ∧ p.authentic (s.pktNum p) = true

instance (p : PacketIn) (s : St) : Decidable (Arrives p s) := by
  unfold Arrives
  infer_instance

def arrival (p : PacketIn) (s : St) : List (Pns × UInt64) := if Arrives p s then [(p.pns, s.pktNum p)] else []

/-- Those of a datagram, up to the packet that ends its processing. -/
def arrivals : List PacketIn → St → List (Pns × UInt64)
  | [], _ => []
  | p :: ps, s =>
    arrival p s ++
      match packetRound p s with
      | (true, _, s) => arrivals ps s
      | (false, _, _) => []

def received (s : St) : List (List PacketIn) → List (Pns × UInt64)
  | [] => []
  | d :: ds => arrivals d s ++ received (xqcConnProcessPacket d s).2 ds

lemma recordSingle_applied (p : PacketIn) (n : UInt64) (s : St) : (xqcConnRecordSingle p n s).applied = s.applied := by
  unfold xqcConnRecordSingle; split
  · rfl
  · split <;> rfl

lemma processSingle_applied (p : PacketIn) (s : St) :
    (xqcPacketProcessSingle p s).2.applied = s.applied ++ arrival p s := by
  unfold xqcPacketProcessSingle xqcPacketDecryptSingle arrival Arrives
  by_cases h1 : p.parsed = .ok
  · by_cases h2 : p.hasNumber = false
    · simp [h1, h2]
    · by_cases h3 : p.rejected = true
      · simp [h1, h2, h3]
      · by_cases h4 : p.authentic (s.pktNum p) = true
        · simp [h1, h2, h3, h4, processFrames]
        · simp [h1, h2, h3, h4]
  · simp [h1]

lemma round_applied (p : PacketIn) (s : St) : (packetRound p s).2.2.applied = s.applied ++ arrival p s := by
  rw [← processSingle_applied]
  unfold packetRound
  rcases h : xqcPacketProcessSingle p s with ⟨ret, s'⟩
  cases ret with
  | ok =>
    dsimp only [xqcConnOnPktProcessed]
    split
    · exact recordSingle_applied _ _ _
    · split
      · exact recordSingle_applied _ _ _
      · exact recordSingle_applied _ _ _
  | _ => rfl

lemma process_applied (ps : List PacketIn) : ∀ s : St,
    (xqcConnProcessPacket ps s).2.applied = s.applied ++ arrivals ps s := by
  induction ps with
  | nil => intro s; exact (append_nil _).symm
  | cons p ps ih =>
    intro s
    have hround := round_applied p s
    unfold xqcConnProcessPacket arrivals
    generalize packetRound p s = r at hround ⊢
    obtain ⟨_ | _, ret, s'⟩ := r
    · dsimp only at hround ⊢; rw [hround, append_nil]
    · dsimp only at hround ⊢; rw [ih s', hround, append_assoc]

theorem receive_applied (ds : List (List PacketIn)) : ∀ s : St, (receive s ds).applied = s.applied ++ received s ds := by
  induction ds with
  | nil => intro s; exact (append_nil _).symm
  | cons d ds ih =>
    intro s; unfold received
    rw [← append_assoc, ← process_applied]; exact ih (xqcConnProcessPacket d s).2

/-! ## Packets that come once -/

/-- The packet is parsed and can be decrypted as number `n` of the space. -/
def opensAs (pns : Pns) (n : UInt64) (p : PacketIn) : Bool :=
  p.parsed = .ok && p.hasNumber && !p.rejected && p.pns = pns && p.authentic n

lemma arrival_count_le (pns : Pns) (n : UInt64) (p : PacketIn) (s : St) :
    (arrival p s).count (pns, n) ≤ [p].countP (opensAs pns n) := by
  unfold arrival; split
  · next h =>
    obtain ⟨hparsed, hnumber, haccepted, hauth⟩ := h
    by_cases heq : (p.pns, s.pktNum p) = (pns, n)
    · obtain ⟨rfl, rfl⟩ := Prod.mk.inj heq
      simp [opensAs, hparsed, hnumber, haccepted, hauth]
    · simp [heq]
  · exact Nat.zero_le _

lemma arrivals_count_le (pns : Pns) (n : UInt64) (ps : List PacketIn) : ∀ s : St,
    (arrivals ps s).count (pns, n) ≤ ps.countP (opensAs pns n) := by
  induction ps with
  | nil => exact fun _ => Nat.le_refl 0
  | cons p ps ih =>
    intro s
    have hone := arrival_count_le pns n p s
    unfold arrivals; rw [count_append, ← singleton_append, countP_append]
    split
    · next s' _ => exact Nat.add_le_add hone (ih s')
    · exact Nat.add_le_add hone (Nat.zero_le _)

lemma received_count_le (pns : Pns) (n : UInt64) (ds : List (List PacketIn)) : ∀ s : St,
    (received s ds).count (pns, n) ≤ ds.flatten.countP (opensAs pns n) := by
  induction ds with
  | nil => exact fun _ => Nat.le_refl 0
  | cons d ds ih =>
    intro s; unfold received
    rw [count_append, flatten_cons, countP_append]
    exact Nat.add_le_add (arrivals_count_le pns n d s) (ih _)

/-- Datagrams in any number, among which no two packets can be decrypted as the same number
    of a space: after each of them the frames of every packet were applied at most once. -/
theorem frames_applied_once (s : St) (hnone : s.applied = []) (ds : List (List PacketIn))
    (hfresh : ∀ pns n, ds.flatten.countP (opensAs pns n) ≤ 1) (k : Nat) (pns : Pns) (n : UInt64) :
    (receive s (ds.take k)).applied.count (pns, n) ≤ 1 := by
  have hall : ds.flatten = (ds.take k).flatten ++ (ds.drop k).flatten := by
    rw [← flatten_append, take_append_drop]
  rw [receive_applied, hnone, nil_append]
  calc (received s (ds.take k)).count (pns, n)
      ≤ (ds.take k).flatten.countP (opensAs pns n) := received_count_le pns n _ s
    _ ≤ ds.flatten.countP (opensAs pns n) := by
      rw [hall, countP_append]; exact Nat.le_add_right _ _
    _ ≤ 1 := hfresh pns n

/-! ## A replay -/

/-- A short header packet with number `n`, which asks for an acknowledgment. -/
def packet (n : UInt64) : PacketIn where
  pns := .appData
  parsed := .ok
  hasNumber := true
  pktnoLen := 4
  truncatedPn := n
  rejected := false
  authentic m := decide (m = n)
  processed := .ok
  delFrom := none
  ackEliciting := true
  confirmed := .ok
  consumed := true
  alloc := true
  recvTime := 100

def newSt : St where
  records _ := ⟨[], 0, 0⟩
  largestRecvd _ := 0
  ackElicitingPkt _ := 0
  applied := []

theorem two_packets_are_applied_once : newSt.applied = [] ∧
    (∀ pns n, [[packet 1], [packet 2]].flatten.countP (opensAs pns n) ≤ 1) ∧
    (receive newSt [[packet 1], [packet 2]]).applied.count (.appData, 2) ≤ 1 := by
  have hfresh : ∀ pns n, [[packet 1], [packet 2]].flatten.countP (opensAs pns n) ≤ 1 := by
    intro pns n
    by_cases h : n = 1
    · simp [opensAs, packet, h, countP_cons]
      split <;> decide
    · simp [opensAs, packet, h, countP_cons]
      split <;> decide
  exact ⟨rfl, hfresh, frames_applied_once newSt rfl [[packet 1], [packet 2]] hfresh 2 .appData 2⟩

/-- The same datagram twice: the record has the number, and the frames are applied again. -/
theorem replayed_frames_are_applied_again : newSt.applied = [] ∧
    ((receive newSt [[packet 1]]).records .appData).ranges = [⟨1, 1⟩] ∧
    (receive newSt [[packet 1], [packet 1]]).applied.count (.appData, 1) = 2 := by
  decide

end RlccQuic.Transport.Replay
