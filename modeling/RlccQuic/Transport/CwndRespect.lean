/-
  RlccQuic.Transport.CwndRespect — bytes in flight and the congestion window after
  `xqc_conn_send_packets` and `xqc_conn_send_packets_batch`.

  Both loops test a packet of the send list against the window with the size it has in the list
  (`xqc_send_ctl_can_send`, `xqc_send_burst_check_cc`). Only then it is padded and, if it is a 0-RTT packet, written
  anew as a 1-RTT packet; what comes in flight is the size after that. The test is made on 32 bits of the window, which
  is never more than the window, and in a burst also on a count of its own.

  Pacing, the amplification limit and the socket are chosen freely for each packet, and
  for each burst how many of its packets the socket takes.

  Proved: whatever they say, the window is respected exactly if no packet that passes the test, behind packets that pass
  it, grows beyond the window when it is encoded (`window_is_respected_iff`). A packet with a PATH_RESPONSE does
  (`padding_exceeds_the_window`).
-/

import RlccQuic.Transport.SendOrder

namespace RlccQuic.Transport.SendCtl

open Lib List Function

/-! ## The calls -/

/-- The window `xqc_send_ctl_can_send` uses: 32 bits of it, or less if the socket's buffer is smaller; 0 is no limit. -/
def congestionWindow (cwnd : UInt64) (soSndbuf : UInt32) : UInt32 :=
  if soSndbuf > 0 then (if cwnd.toUInt32 < soSndbuf then cwnd.toUInt32 else soSndbuf) else cwnd.toUInt32

structure Luck where
  now : UInt64
  /-- Pacing and the amplification limit leave room for its size. -/
  room : Bool
  /-- The amplification limit is reached. -/
  limited : Bool
  /-- The socket takes it. -/
  taken : Bool

section Calls

variable (w : World) (cwnd : UInt64) (soSndbuf : UInt32) (luck : Id → Luck)

/-- A loop of `xqc_conn_send_packets`; `xqc_conn_send_one_packet` tests the limit. -/
def sendLoop (q : Queue) : List Id → Ctl → Ctl
  | [], s => s
  | p :: ps, s =>
    if q = .send ∧ (s.pkts p).frameTypes.canInFlight ∧
        (xqcSendCtlCanSend (congestionWindow cwnd soSndbuf) (s.pkts p) s = false ∨ (luck p).room = false) then s
    else if (luck p).limited then s
    else if (luck p).taken then sendLoop q ps (sendOne w q (luck p).now .all p s)
    else sendOne w q (luck p).now .error p s

def xqcConnSendPackets (s : Ctl) : Ctl :=
  let s := sendLoop w cwnd soSndbuf luck .highPri (s.lists .highPri) s
  sendLoop w cwnd soSndbuf luck .send (s.lists .send) s

/-- `xqc_send_burst_check_cc`; the sum is a 32-bit one. -/
def xqcSendBurstCheckCc (inflight : UInt32) (room : Bool) (po : PacketOut) (s : Ctl) : Bool :=
  !decide po.frameTypes.canInFlight ||
    (xqcSendCtlCanSend (congestionWindow cwnd soSndbuf) po s && !decide ((inflight + po.usedSize).toUInt64 > cwnd) && room)

/-- The loop of `xqc_conn_send_burst_packets` over packets to send, with `inflight`,
    and the packets that go into the burst. -/
def burstLoop (congest : Bool) : Nat → UInt32 → List Id → Ctl → List Id × Ctl
  | 0, _, _, s => ([], s)
  | _ + 1, _, [], s => ([], s)
  | n + 1, inflight, p :: ps, s =>
    if (luck p).limited = true ∨
        (congest = true ∧ xqcSendBurstCheckCc cwnd soSndbuf inflight (luck p).room (s.pkts p) s = false) then ([], s)
    else
      let s := xqcConnEncPacket w (luck p).now p s
      let r := burstLoop congest n (inflight + (s.pkts p).usedSize) ps s
      (p :: r.1, r.2)

/-- `xqc_conn_send_burst_packets`, of which the socket takes the first `takes`; and how many it takes. -/
def xqcConnSendBurstPackets (q : Queue) (congest : Bool) (takes : Nat) (s : Ctl) : Nat × Ctl :=
  let r := burstLoop w cwnd soSndbuf luck congest xqcMaxSendMsgOnce s.bytesInFlight (s.lists q.place) s
  let sent := min takes r.1.length
  (sent, xqcOnPacketsSendBurst q sent r.2)

/-- The loops of `xqc_conn_send_packets_batch`. A full burst takes packets off the
    list, so there are no more bursts than packets. -/
def batchLoop (q : Queue) (congest : Bool) (takes : Nat → Nat) : Nat → Nat → Ctl → Ctl
  | 0, _, s => s
  | fuel + 1, m, s =>
    if s.lists q.place = [] then s
    else
      let r := xqcConnSendBurstPackets w cwnd soSndbuf luck q congest (takes m) s
      if r.1 = xqcMaxSendMsgOnce then batchLoop q congest takes fuel (m + 1) r.2 else r.2

def xqcConnSendPacketsBatch (takesHigh takes : Nat → Nat) (s : Ctl) : Ctl :=
  let s := batchLoop w cwnd soSndbuf luck .highPri false takesHigh (s.lists .highPri).length 0 s
  batchLoop w cwnd soSndbuf luck .send true takes (s.lists .send).length 0 s

end Calls

/-! ## What comes in flight -/

variable {ps : List Id}

section Load

variable (w : World) (s : Ctl)

def elicits (p : Id) : Bool := decide (s.pkts p).frameTypes.isAckEliciting

/-- The sizes a packet has when it is encoded, alone and for a burst; `a` is the number
    of the question for the size of a new header. -/
def sizeAlone (a : Nat) (p : Id) : UInt32 :=
  (convert s.conn (w.size a) ((s.pkts p).pad (!s.conn.server))).usedSize

def sizeInBurst (a : Nat) (p : Id) : UInt32 :=
  ((convert s.conn (w.size a) (s.pkts p)).pad (!s.conn.server)).usedSize

variable (size : Nat → Id → UInt32)

def load (ps : List Id) : UInt32 :=
  (ps.zipIdx s.asked).foldl (fun b x => if elicits s x.1 then b + size x.2 x.1 else b) s.bytesInFlight

lemma load_append (ps : List Id) (p : Id) : load s size (ps ++ [p]) =
    if elicits s p then load s size ps + size (s.asked + ps.length) p else load s size ps := by
  unfold load; rw [zipIdx_append, foldl_append]
  rfl

lemma load_le_of_last {cwnd : UInt64}
    (h : ∀ front p back, ps = front ++ p :: back → elicits s p = true → (load s size (front ++ [p])).toUInt64 ≤ cwnd)
    (hany : ∃ p ∈ ps, elicits s p = true) : (load s size ps).toUInt64 ≤ cwnd := by
  induction ps using List.reverseRecOn with
  | nil =>
    obtain ⟨p, hp, -⟩ := hany
    cases hp
  | append_singleton ps q ih =>
    by_cases hq : elicits s q = true
    · exact h ps q [] rfl hq
    · -- the one at the end stays on the ground
      rw [load_append, if_neg hq]
      refine ih ?_ ?_
      · intro front p back heq
        refine h front p (back ++ [q]) ?_
        rw [heq, append_assoc]; rfl
      · obtain ⟨p, hp, he⟩ := hany
        rcases mem_append.mp hp with hp | hp
        · exact ⟨p, hp, he⟩
        · rw [mem_singleton.mp hp] at he; exact absurd he hq

end Load

/-! ## One packet -/

lemma pad_elicits (client : Bool) (po : PacketOut) :
    (po.pad client).frameTypes.isAckEliciting ↔ po.frameTypes.isAckEliciting := by
  unfold PacketOut.pad PacketOut.genPaddingFrame; split
  · split
    · -- PADDING is one of the frames that elicit nothing
      unfold FrameTypes.isAckEliciting; rw [Finset.insert_sdiff_of_mem _ (by simp)]
    · exact Iff.rfl
  · exact Iff.rfl

lemma convert_frameTypes (conn : Conn) (size : UInt32) (po : PacketOut) :
    (convert conn size po).frameTypes = po.frameTypes := by
  unfold convert
  split <;> rfl

def TakesOff (po : PacketOut) : Prop := po.inFlight = false ∧ po.frameTypes.isAckEliciting

instance (po : PacketOut) : Decidable (TakesOff po) := by unfold TakesOff; infer_instance

def asSent (po : PacketOut) : PacketOut :=
  if po.frameTypes.canInFlight then sentMark (if TakesOff po then { po with inFlight := true } else po) else po

lemma asSent_inFlight (po : PacketOut) : (asSent po).inFlight = (po.inFlight || decide (TakesOff po)) := by
  unfold asSent sentMark
  by_cases ht : TakesOff po
  · rw [if_pos ht.2.canInFlight, if_pos ht]
    split <;> simp [ht]
  · rw [if_neg ht]
    split_ifs <;> simp [ht]

/-- What `xqc_send_ctl_on_packet_sent` changes, in terms of what it reads. -/
lemma onPacketSent_parts (p : Id) (s : Ctl) : xqcSendCtlOnPacketSent p s =
    { s with
      pkts := update s.pkts p (asSent (s.pkts p))
      bytesInFlight := if TakesOff (s.pkts p) then s.bytesInFlight + (s.pkts p).usedSize else s.bytesInFlight
      bytesAckElicitingInflight :=
        if TakesOff (s.pkts p) then
          update s.bytesAckElicitingInflight (s.pkts p).pns
            (s.bytesAckElicitingInflight (s.pkts p).pns + (s.pkts p).usedSize)
        else s.bytesAckElicitingInflight
      largestSent :=
        if (s.pkts p).pktNum > s.largestSent (s.pkts p).pns then
          update s.largestSent (s.pkts p).pns (s.pkts p).pktNum
        else s.largestSent } := by
  have hnote : noteSent p s = { s with
      largestSent :=
        if (s.pkts p).pktNum > s.largestSent (s.pkts p).pns then
          update s.largestSent (s.pkts p).pns (s.pkts p).pktNum
        else s.largestSent } := by
    unfold noteSent
    split <;> rfl
  rw [onPacketSent_eq, hnote]
  unfold asSent
  by_cases he : (s.pkts p).frameTypes.isAckEliciting
  · by_cases hfl : (s.pkts p).inFlight = true
    · simp [he, he.canInFlight, hfl, TakesOff, Ctl.modify]
    · simp [he, he.canInFlight, hfl, TakesOff, Ctl.modify, xqcSendCtlIncreaseInflight]
  · by_cases hcan : (s.pkts p).frameTypes.canInFlight
    · simp [he, hcan, TakesOff, Ctl.modify, xqcSendCtlIncreaseInflight]
    · simp [he, hcan, TakesOff]

lemma onPacketSent_counts {s : Ctl} {p : Id} (hland : (s.pkts p).inFlight = false) :
    (xqcSendCtlOnPacketSent p s).bytesInFlight =
        (if (s.pkts p).frameTypes.isAckEliciting then s.bytesInFlight + (s.pkts p).usedSize else s.bytesInFlight) ∧
      ((xqcSendCtlOnPacketSent p s).pkts p).inFlight = decide (s.pkts p).frameTypes.isAckEliciting ∧
      (xqcSendCtlOnPacketSent p s).asked = s.asked ∧ (xqcSendCtlOnPacketSent p s).conn = s.conn := by
  have hiff : TakesOff (s.pkts p) ↔ (s.pkts p).frameTypes.isAckEliciting := and_iff_right hland
  rw [onPacketSent_parts]
  dsimp only; rw [update_self, asSent_inFlight, hland, Bool.false_or]
  exact ⟨if_congr hiff rfl rfl, decide_eq_decide.mpr hiff, rfl, rfl⟩

/-- One round of `xqc_on_packets_send_burst`, and the end of sending a packet alone. -/
lemma sentInBurst_counts {s : Ctl} {p : Id} (hland : (s.pkts p).inFlight = false) :
    (onPacketSentInBurst p s).bytesInFlight =
        (if (s.pkts p).frameTypes.isAckEliciting then s.bytesInFlight + (s.pkts p).usedSize else s.bytesInFlight) ∧
      ((onPacketSentInBurst p s).pkts p).inFlight = decide (s.pkts p).frameTypes.isAckEliciting ∧
      (onPacketSentInBurst p s).asked = s.asked ∧ (onPacketSentInBurst p s).conn = s.conn ∧
      ∀ {q}, q ≠ p → (onPacketSentInBurst p s).pkts q = s.pkts q := by
  obtain ⟨hbytes, hfly, hasked, hconn⟩ := onPacketSent_counts hland
  exact ⟨hbytes, hfly, hasked, hconn, fun hq => onPacketSent_others hq s⟩

/-- Of the send list the packets `ahead` are sent, `fill` are encoded and `rest` are as they were. -/
structure After (s : Ctl) (size : Nat → Id → UInt32) (ahead fill rest : List Id) (t : Ctl) : Prop where
  inv : Inv False t
  send : t.lists .send = fill ++ rest
  bytes : t.bytesInFlight = load s size ahead
  asked : t.asked = s.asked + ahead.length + fill.length
  conn : t.conn = s.conn
  waiting : ∀ q ∈ rest, t.pkts q = s.pkts q
  ready : ∀ x ∈ fill.zipIdx (s.asked + ahead.length),
    ((t.pkts x.1).frameTypes.isAckEliciting ↔ elicits s x.1 = true) ∧ (t.pkts x.1).usedSize = size x.2 x.1
  flying : ∀ q ∈ ahead, (t.pkts q).inFlight = elicits s q
  apart : ∀ q ∈ ahead, q ∉ fill ++ rest

lemma after_start {s : Ctl} (h : Inv False s) (size : Nat → Id → UInt32) : After s size [] [] (s.lists .send) s :=
  ⟨h, rfl, rfl, rfl, rfl, fun _ _ => rfl, by simp, by simp, by simp⟩

section Packet

variable {w : World} {s t : Ctl} {size : Nat → Id → UInt32} {ahead fill rest : List Id} {p : Id}

lemma After.nodup (h : After s size ahead fill rest t) : (fill ++ rest).Nodup := by
  rw [← h.send]; exact h.inv.ledger.single.nodup .send

lemma After.landed (h : After s size ahead fill rest t) : ∀ q ∈ fill ++ rest, (t.pkts q).inFlight = false := by
  intro q hq; rw [← h.send] at hq
  exact h.inv.ledger.landed_of_mem hq (by simp)

lemma After.encoded {u : Ctl} (h : After s size ahead fill (p :: rest) t) (hinv : Inv False u)
    (hlists : u.lists = t.lists) (hbytes : u.bytesInFlight = t.bytesInFlight) (hasked : u.asked = t.asked + 1)
    (hconn : u.conn = t.conn) (hothers : ∀ {q}, q ≠ p → u.pkts q = t.pkts q)
    (helicit : (u.pkts p).frameTypes.isAckEliciting ↔ elicits s p = true)
    (hsize : (u.pkts p).usedSize = size t.asked p) : After s size ahead (fill ++ [p]) rest u := by
  have heq : fill ++ [p] ++ rest = fill ++ p :: rest := by simp
  have hnd := h.nodup
  have hfill : ∀ q ∈ fill, q ≠ p := by
    rintro q hq rfl
    exact disjoint_of_nodup_append hnd hq mem_cons_self
  refine ⟨hinv, ?_, hbytes.trans h.bytes, ?_, hconn.trans h.conn, ?_, ?_, ?_, ?_⟩
  · rw [hlists, h.send, heq]
  · rw [hasked, h.asked, length_append]; rfl
  · intro q hq
    have hqp : q ≠ p := by
      rintro rfl
      exact (nodup_cons.mp (nodup_append.mp hnd).2.1).1 hq
    rw [hothers hqp]; exact h.waiting q (mem_cons_of_mem _ hq)
  · intro x hx; rw [zipIdx_append] at hx
    rcases mem_append.mp hx with hx | hx
    · rw [hothers (hfill _ (fst_mem_of_mem_zipIdx hx))]; exact h.ready x hx
    · obtain rfl := mem_singleton.mp hx
      rw [h.asked] at hsize; exact ⟨helicit, hsize⟩
  · intro q hq; rw [hothers fun hqp => h.apart q hq (by simp [hqp])]; exact h.flying q hq
  · intro q hq; rw [heq]; exact h.apart q hq

lemma After.numbered (h : After s size ahead fill rest t) (num : Pns → UInt64) :
    After s size ahead fill rest { t with packetNumber := num } :=
  ⟨h.inv.congr rfl, h.send, h.bytes, h.asked, h.conn, h.waiting, h.ready, h.flying,
    h.apart⟩

lemma After.sent (h : After s size ahead (p :: fill) rest t) :
    After s size (ahead ++ [p]) fill rest (onPacketSentInBurst p t) := by
  have hp : p ∈ t.lists .send := by
    rw [h.send]; exact mem_cons_self
  obtain ⟨hb, hf, ha, hc, ho⟩ := sentInBurst_counts (h.landed p mem_cons_self)
  obtain ⟨helicit, hsize⟩ := h.ready (p, s.asked + ahead.length) mem_cons_self
  obtain ⟨hout, -⟩ := nodup_cons.mp h.nodup
  have hfill : ∀ q ∈ fill ++ rest, q ≠ p := by
    rintro q hq rfl
    exact hout hq
  have hinv : Inv False (onPacketSentInBurst p t) := sent_settle h.inv hp (by simp) (by simp) False.elim
  refine ⟨hinv, ?_, ?_, ?_, hc.trans h.conn, ?_, ?_, ?_, ?_⟩
  · have hl := sentInBurst_lists (s := t) (p := p) .send
    rw [Queue.place, h.send] at hl; exact hl.trans (erase_cons_head _ _)
  · rw [hb, load_append, h.bytes, hsize]
    by_cases he : elicits s p = true
    · rw [if_pos he, if_pos (helicit.mpr he)]
    · rw [if_neg he, if_neg fun hc => he (helicit.mp hc)]
  · rw [ha, h.asked, length_append, length_cons, length_singleton]; omega
  · intro q hq; rw [ho (hfill q (mem_append_right _ hq))]; exact h.waiting q hq
  · intro x hx; rw [ho (hfill _ (mem_append_left _ (fst_mem_of_mem_zipIdx hx)))]
    refine h.ready x ?_
    rw [length_append, ← Nat.add_assoc] at hx; exact mem_cons_of_mem _ hx
  · intro q hq
    rcases mem_append.mp hq with hq' | hq'
    · rw [ho fun hqp => h.apart q hq' (by simp [hqp])]; exact h.flying q hq'
    · obtain rfl := mem_singleton.mp hq'
      rw [hf, Bool.eq_iff_iff, decide_eq_true_eq]; exact helicit
  · intro q hq
    rcases mem_append.mp hq with hq' | hq'
    · exact fun hm => h.apart q hq' (mem_cons_of_mem _ hm)
    · rw [mem_singleton.mp hq']; exact hout

lemma After.sendOne (h : After s (sizeAlone w s) ahead [] (p :: rest) t) (now : UInt64) :
    After s (sizeAlone w s) (ahead ++ [p]) [] rest (sendOne w .send now .all p t) := by
  have hp : p ∈ t.lists .send := by
    rw [h.send]; exact mem_cons_self
  have hinv : Inv False ((xqcEncPacketWithPn w p t).modify p ({ · with sentTime := now })) :=
    (encPacketWithPn_inv w h.inv hp (by simp) (by simp)).touch rfl
  have hrec : ((xqcEncPacketWithPn w p t).modify p ({ · with sentTime := now })).pkts p =
      { convert t.conn (w.size t.asked) ((t.pkts p).pad (!t.conn.server)) with
        pktNum := t.packetNumber (convert t.conn (w.size t.asked) ((t.pkts p).pad (!t.conn.server))).pns, sentTime := now } := by
    simp [xqcEncPacketWithPn, Ctl.modify]
  have hsame := h.waiting p mem_cons_self
  have hone : SendCtl.sendOne w .send now .all p t =
      settle p (xqcSendPacketWithPn now .all p (xqcEncPacketWithPn w p t)) := by
    unfold SendCtl.sendOne; rw [if_neg (by decide), if_neg (by decide)]
  refine ((h.encoded hinv rfl rfl rfl rfl ?_ ?_ ?_).numbered _).sent
  · intro q hq
    simp only [xqcEncPacketWithPn, Ctl.modify, update_of_ne hq]
  · rw [hrec]
    rw [convert_frameTypes, pad_elicits, hsame, elicits, decide_eq_true_eq]
  · rw [hrec]
    rw [sizeAlone, h.conn, hsame]

lemma After.encPacket (h : After s (sizeInBurst w s) ahead fill (p :: rest) t) (now : UInt64) :
    After s (sizeInBurst w s) ahead (fill ++ [p]) rest (xqcConnEncPacket w now p t) := by
  have hp : p ∈ t.lists .send := by
    rw [h.send]; exact mem_append_right _ mem_cons_self
  have hsame := h.waiting p mem_cons_self
  refine h.encoded (encPacket_inv w h.inv now hp (by simp) (by simp)) rfl rfl rfl rfl ?_ ?_ ?_
  · intro q hq; exact update_of_ne hq _ _
  · simp only [xqcConnEncPacket, update_self]
    rw [pad_elicits, convert_frameTypes, hsame, elicits, decide_eq_true_eq]
  · simp only [xqcConnEncPacket, update_self, Nat.add_sub_cancel]
    rw [sizeInBurst, h.conn, hsame]

end Packet

/-! ## One by one -/

/-- Every packet of the list passes a test behind those before it. -/
def AllPass (P : List Id → Id → Prop) (ps : List Id) : Prop := ∀ front p back, ps = front ++ p :: back → P front p

variable {P : List Id → Id → Prop}

lemma AllPass.snoc {p : Id} (h : AllPass P ps) (hp : P ps p) : AllPass P (ps ++ [p]) := by
  intro front q back heq
  rcases eq_nil_or_concat' back with rfl | ⟨back, r, rfl⟩
  · obtain ⟨rfl, hq⟩ := append_inj' heq rfl
    obtain rfl := singleton_inj.mp hq
    exact hp
  · refine h front q back ?_
    rw [← cons_append, ← append_assoc] at heq; exact (append_inj' heq rfl).1

lemma AllPass.of_append {qs : List Id} (h : AllPass P (ps ++ qs)) : AllPass P ps := by
  intro front p back heq
  refine h front p (back ++ qs) ?_
  rw [heq, append_assoc]; rfl

/-- How a call ends: the packets `sent` of the send list `all` went out. -/
structure Ended (s : Ctl) (size : Nat → Id → UInt32) (all sent : List Id) (u : Ctl) : Prop where
  bytes : u.bytesInFlight = load s size sent
  flying : ∀ q ∈ all, (u.pkts q).inFlight = true ↔ q ∈ sent ∧ elicits s q = true

lemma After.ended {s t : Ctl} {size : Nat → Id → UInt32} {ahead fill rest : List Id}
    (h : After s size ahead fill rest t) : Ended s size (ahead ++ (fill ++ rest)) ahead t := by
  refine ⟨h.bytes, ?_⟩
  intro q hq
  rcases mem_append.mp hq with hq | hq
  · rw [h.flying q hq]; exact ⟨fun he => ⟨hq, he⟩, And.right⟩
  · rw [h.landed q hq]
    constructor
    · intro hf; cases hf
    · intro hc; exact absurd hq (h.apart q hc.1)

variable {all : List Id}

lemma Ended.congr {s u v : Ctl} {size : Nat → Id → UInt32} {sent : List Id} (h : Ended s size all sent u)
    (hb : v.bytesInFlight = u.bytesInFlight) (hf : ∀ q, (v.pkts q).inFlight = (u.pkts q).inFlight) :
    Ended s size all sent v :=
  ⟨hb.trans h.bytes, fun q hq => by rw [hf]; exact h.flying q hq⟩

variable {left : List Id}

section Alone

variable (w : World) (cwnd : UInt64) (soSndbuf : UInt32) (s : Ctl)

/-- A packet passes the test of `xqc_conn_send_packets` behind others. -/
def PassesAlone (front : List Id) (p : Id) : Prop :=
  (s.pkts p).frameTypes.canInFlight →
    load s (sizeAlone w s) front + (s.pkts p).usedSize ≤ congestionWindow cwnd soSndbuf

variable {w cwnd soSndbuf s}

lemma After.canSend_iff {t : Ctl} {ahead rest : List Id} {p : Id} (h : After s (sizeAlone w s) ahead [] (p :: rest) t) :
    PassesAlone w cwnd soSndbuf s ahead p ↔
      ¬ ((t.pkts p).frameTypes.canInFlight ∧
        xqcSendCtlCanSend (congestionWindow cwnd soSndbuf) (t.pkts p) t = false) := by
  rw [h.waiting p mem_cons_self, PassesAlone, xqcSendCtlCanSend, h.bytes]
  simp [UInt32.not_lt]

lemma sendOne_error (q : Queue) (now : UInt64) (p : Id) (t : Ctl) :
    (sendOne w q now .error p t).bytesInFlight = t.bytesInFlight ∧
      ∀ x, ((sendOne w q now .error p t).pkts x).inFlight = (t.pkts x).inFlight := by
  refine ⟨rfl, ?_⟩
  intro x
  have hkept := (kept_pad (!t.conn.server) (t.pkts p)).trans
    (kept_convert t.conn (w.size t.asked) ((t.pkts p).pad (!t.conn.server)))
  by_cases hx : x = p
  · subst hx
    simp only [sendOne, xqcSendPacketWithPn, reduceCtorEq, if_false, if_true, xqcEncPacketWithPn, Ctl.modify,
      update_self, Nat.add_sub_cancel]
    exact hkept.landed
  · simp only [sendOne, xqcSendPacketWithPn, reduceCtorEq, if_false, if_true, xqcEncPacketWithPn, Ctl.modify,
      update_of_ne hx]

/-- Whatever the packets meet with, those that go out are the first ones of the list, and each passed the test. -/
lemma sendLoop_ends (luck : Id → Luck) : ∀ {rest ahead : List Id} {t : Ctl}, After s (sizeAlone w s) ahead [] rest t →
    AllPass (PassesAlone w cwnd soSndbuf s) ahead →
    ∃ sent left, ahead ++ rest = sent ++ left ∧ AllPass (PassesAlone w cwnd soSndbuf s) sent ∧
      Ended s (sizeAlone w s) (ahead ++ rest) sent (sendLoop w cwnd soSndbuf luck .send rest t) := by
  intro rest
  induction rest with
  | nil => intro ahead t h hall; exact ⟨ahead, [], rfl, hall, h.ended⟩
  | cons p rest ih =>
    intro ahead t h hall
    have hstay : ∃ sent left, ahead ++ p :: rest = sent ++ left ∧ AllPass (PassesAlone w cwnd soSndbuf s) sent ∧
        Ended s (sizeAlone w s) (ahead ++ p :: rest) sent t := ⟨ahead, p :: rest, rfl, hall, h.ended⟩
    unfold sendLoop; split
    · exact hstay
    · rename_i hpass
      split
      · exact hstay
      · split
        · have hp : PassesAlone w cwnd soSndbuf s ahead p := by
            rw [h.canSend_iff]
            intro hc; exact hpass ⟨rfl, hc.1, .inl hc.2⟩
          have heq : ahead ++ p :: rest = (ahead ++ [p]) ++ rest := by simp
          rw [heq]; exact ih (h.sendOne _) (hall.snoc hp)
        · obtain ⟨hb, hf⟩ := sendOne_error (w := w) .send (luck p).now p t
          exact ⟨ahead, p :: rest, rfl, hall, h.ended.congr hb hf⟩

/-- The packets `sent` are taken, and the amplification limit is reached behind them. -/
def luckFor (sent : List Id) (p : Id) : Luck := { now := 0, room := true, limited := !decide (p ∈ sent), taken := true }

lemma sendLoop_reaches : ∀ {more ahead : List Id} {t : Ctl},
    After s (sizeAlone w s) ahead [] (more ++ left) t →
    AllPass (PassesAlone w cwnd soSndbuf s) (ahead ++ more) →
    Ended s (sizeAlone w s) (ahead ++ (more ++ left)) (ahead ++ more)
      (sendLoop w cwnd soSndbuf (luckFor (ahead ++ more)) .send (more ++ left) t) := by
  intro more
  induction more with
  | nil =>
    intro ahead t h _
    rw [append_nil, nil_append] at *
    cases left with
    | nil => exact h.ended
    | cons p left =>
      have hpa : p ∉ ahead := fun hm => h.apart p hm mem_cons_self
      unfold sendLoop; split
      · exact h.ended
      · rw [if_pos (by simp [luckFor, hpa])]; exact h.ended
  | cons p more ih =>
    intro ahead t h hall
    have hp : PassesAlone w cwnd soSndbuf s ahead p := hall ahead p more rfl
    have heq : ahead ++ p :: more = (ahead ++ [p]) ++ more := by simp
    have heq' : ahead ++ (p :: more ++ left) = (ahead ++ [p]) ++ (more ++ left) := by simp
    rw [cons_append] at h ⊢
    have hgo : ¬ (Queue.send = Queue.send ∧ (t.pkts p).frameTypes.canInFlight ∧
        (xqcSendCtlCanSend (congestionWindow cwnd soSndbuf) (t.pkts p) t = false ∨
          (luckFor (ahead ++ p :: more) p).room = false)) := by
      rintro ⟨-, hc, hs | hr⟩
      · exact h.canSend_iff.mp hp ⟨hc, hs⟩
      · cases hr
    have htaken : (luckFor (ahead ++ p :: more) p).taken = true := rfl
    rw [sendLoop, if_neg hgo, if_neg (by simp [luckFor]), if_pos htaken]
    rw [heq] at hall
    have hend := ih (h.sendOne (luckFor (ahead ++ p :: more) p).now) hall
    rw [← heq] at hend
    rw [← cons_append, heq']; exact hend

end Alone

/-! ## In bursts -/

/-- The packets that went out in full bursts, and those of the burst that is filled. -/
def inFullBursts (ps : List Id) : List Id := ps.take (xqcMaxSendMsgOnce * (ps.length / xqcMaxSendMsgOnce))

def inLastBurst (ps : List Id) : List Id := ps.drop (xqcMaxSendMsgOnce * (ps.length / xqcMaxSendMsgOnce))

lemma bursts_append {ahead fill : List Id} (ha : xqcMaxSendMsgOnce ∣ ahead.length) (hf : fill.length < xqcMaxSendMsgOnce) :
    inFullBursts (ahead ++ fill) = ahead ∧ inLastBurst (ahead ++ fill) = fill := by
  have hlen : xqcMaxSendMsgOnce * ((ahead ++ fill).length / xqcMaxSendMsgOnce) = ahead.length := by
    obtain ⟨k, hk⟩ := ha
    rw [length_append, hk, Nat.mul_add_div (by decide), Nat.div_eq_of_lt hf, Nat.add_zero]
  rw [inFullBursts, inLastBurst, hlen]; exact ⟨take_left, drop_left⟩

section Burst

variable (w : World) (cwnd : UInt64) (soSndbuf : UInt32) (s : Ctl)

/-- The count `inflight` of a burst: here every packet counts. -/
def burstCount (ahead fill : List Id) : UInt32 :=
  (fill.zipIdx (s.asked + ahead.length)).foldl (fun b x => b + sizeInBurst w s x.2 x.1) (load s (sizeInBurst w s) ahead)

/-- A packet passes the tests of `xqc_send_burst_check_cc` behind others. -/
def PassesInBurst (front : List Id) (p : Id) : Prop :=
  (s.pkts p).frameTypes.canInFlight →
    load s (sizeInBurst w s) (inFullBursts front) + (s.pkts p).usedSize ≤ congestionWindow cwnd soSndbuf ∧
    (burstCount w s (inFullBursts front) (inLastBurst front) + (s.pkts p).usedSize).toUInt64 ≤ cwnd

lemma burstCount_append (ahead fill : List Id) (p : Id) : burstCount w s ahead (fill ++ [p]) =
    burstCount w s ahead fill + sizeInBurst w s (s.asked + ahead.length + fill.length) p := by
  unfold burstCount; rw [zipIdx_append, foldl_append]
  rfl

variable {w cwnd soSndbuf s}
variable {ahead fill rest : List Id} {t : Ctl} {p : Id}

lemma After.checkCc (h : After s (sizeInBurst w s) ahead fill (p :: rest) t) (ha : xqcMaxSendMsgOnce ∣ ahead.length)
    (hf : fill.length < xqcMaxSendMsgOnce) (room : Bool) :
    xqcSendBurstCheckCc cwnd soSndbuf (burstCount w s ahead fill) room (t.pkts p) t = true ↔
      PassesInBurst w cwnd soSndbuf s (ahead ++ fill) p ∧ ((s.pkts p).frameTypes.canInFlight → room = true) := by
  obtain ⟨hfull, hlast⟩ := bursts_append ha hf
  rw [h.waiting p mem_cons_self, PassesInBurst, hfull, hlast, xqcSendBurstCheckCc, xqcSendCtlCanSend, h.bytes]
  by_cases hc : (s.pkts p).frameTypes.canInFlight
  · simp [hc, UInt32.not_lt, UInt64.not_lt, and_assoc]
  · simp [hc]

lemma After.count (h : After s (sizeInBurst w s) ahead fill (p :: rest) t) (now : UInt64) :
    burstCount w s ahead fill + ((xqcConnEncPacket w now p t).pkts p).usedSize = burstCount w s ahead (fill ++ [p]) := by
  have hready := (h.encPacket now).ready (p, s.asked + ahead.length + fill.length) (by simp [zipIdx_append])
  rw [burstCount_append, hready.2]

lemma burstLoop_fills (luck : Id → Luck) (ha : xqcMaxSendMsgOnce ∣ ahead.length) (n : Nat) :
    ∀ {rest fill : List Id} {t : Ctl}, After s (sizeInBurst w s) ahead fill rest t → fill.length + n = xqcMaxSendMsgOnce →
    AllPass (PassesInBurst w cwnd soSndbuf s) (ahead ++ fill) →
    ∃ burst left u, burstLoop w cwnd soSndbuf luck true n (burstCount w s ahead fill) rest t = (burst, u) ∧
      rest = burst ++ left ∧ After s (sizeInBurst w s) ahead (fill ++ burst) left u ∧
      AllPass (PassesInBurst w cwnd soSndbuf s) (ahead ++ (fill ++ burst)) ∧ burst.length ≤ n := by
  induction n with
  | zero =>
    intro rest fill t h _ hall; rw [← append_nil fill] at h hall
    exact ⟨[], rest, t, rfl, rfl, h, hall, zero_le⟩
  | succ n ih =>
    intro rest fill t h hlen hall
    have hnone := h
    rw [← append_nil fill] at hnone
    have hall0 := hall
    rw [← append_nil fill] at hall0
    cases rest with
    | nil => exact ⟨[], [], t, rfl, rfl, hnone, hall0, zero_le⟩
    | cons p rest =>
      unfold burstLoop; split
      · exact ⟨[], p :: rest, t, rfl, rfl, hnone, hall0, zero_le⟩
      · rename_i hgo
        have hpass : PassesInBurst w cwnd soSndbuf s (ahead ++ fill) p := by
          refine ((h.checkCc ha (by omega) (luck p).room).mp ?_).1
          rw [← Bool.not_eq_false]; exact fun hc => hgo (.inr ⟨rfl, hc⟩)
        have hall' : AllPass (PassesInBurst w cwnd soSndbuf s) (ahead ++ (fill ++ [p])) := by
          rw [← append_assoc]; exact hall.snoc hpass
        have hlen' : (fill ++ [p]).length + n = xqcMaxSendMsgOnce := by
          rw [length_append, length_singleton]; omega
        obtain ⟨burst, left, u, hloop, hrest, hafter, hpassed, hn⟩ := ih (h.encPacket (luck p).now) hlen' hall'
        rw [← h.count (luck p).now] at hloop
        rw [append_assoc] at hafter hpassed
        refine ⟨p :: burst, left, u, ?_, congrArg (p :: ·) hrest, hafter, hpassed, Nat.succ_le_succ hn⟩
        dsimp only; rw [hloop]

lemma burstLoop_reaches (ha : xqcMaxSendMsgOnce ∣ ahead.length) (n : Nat) :
    ∀ {more fill : List Id} {t : Ctl}, After s (sizeInBurst w s) ahead fill (more ++ left) t →
    fill.length + n = xqcMaxSendMsgOnce → all = ahead ++ (fill ++ more) → AllPass (PassesInBurst w cwnd soSndbuf s) all →
    (burstLoop w cwnd soSndbuf (luckFor all) true n (burstCount w s ahead fill) (more ++ left) t).1 = more.take n := by
  induction n with
  | zero => intro more fill t _ _ _ _; rfl
  | succ n ih =>
    intro more fill t h hlen heq hall
    cases more with
    | nil =>
      cases left with
      | nil => rfl
      | cons p left =>
        have hp : p ∉ all := by
          rw [heq, append_nil]
          intro hm
          rcases mem_append.mp hm with hm | hm
          · exact h.apart p hm (by simp)
          · exact disjoint_of_nodup_append h.nodup hm (by simp)
        rw [nil_append, burstLoop, if_pos (.inl (by simp [luckFor, hp]))]
        rfl
    | cons p more =>
      rw [cons_append] at h ⊢
      have hpass : PassesInBurst w cwnd soSndbuf s (ahead ++ fill) p := by
        refine hall (ahead ++ fill) p more ?_
        rw [heq, append_assoc]
      have hcheck : xqcSendBurstCheckCc cwnd soSndbuf (burstCount w s ahead fill) (luckFor all p).room (t.pkts p) t = true :=
        (h.checkCc ha (by omega) _).mpr ⟨hpass, fun _ => rfl⟩
      have hlim : (luckFor all p).limited = false := by simp [luckFor, heq]
      have hgo : ¬ ((luckFor all p).limited = true ∨ (true = true ∧
          xqcSendBurstCheckCc cwnd soSndbuf (burstCount w s ahead fill) (luckFor all p).room (t.pkts p) t = false)) := by
        rw [hcheck, hlim]
        simp
      have hlen' : (fill ++ [p]).length + n = xqcMaxSendMsgOnce := by
        rw [length_append, length_singleton]; omega
      have hnext := ih (h.encPacket (luckFor all p).now) hlen' (by simp [heq]) hall
      rw [← h.count (luckFor all p).now] at hnext
      rw [burstLoop, if_neg hgo]; exact congrArg (p :: ·) hnext

lemma After.sendBurst (m : Nat) : ∀ {ahead fill : List Id} {t : Ctl} {size : Nat → Id → UInt32},
    After s size ahead fill rest t → m ≤ fill.length →
    After s size (ahead ++ fill.take m) (fill.drop m) rest (xqcOnPacketsSendBurst .send m t) := by
  induction m with
  | zero => intro ahead fill t size h _; rw [take_zero, append_nil, drop_zero]; exact h
  | succ m ih =>
    intro ahead fill t size h hm
    cases fill with
    | nil => exact absurd hm (by simp)
    | cons p fill =>
      have hlist : t.lists Queue.send.place = p :: (fill ++ rest) := h.send
      have hnext := ih h.sent (Nat.le_of_succ_le_succ hm)
      rw [append_assoc] at hnext
      rw [xqcOnPacketsSendBurst, hlist]; exact hnext

/-- A burst: `sent` goes out and `fill` stays in the send list, encoded. -/
lemma sendBurstPackets_ends (luck : Id → Luck) (takes : Nat) (h : After s (sizeInBurst w s) ahead [] rest t)
    (ha : xqcMaxSendMsgOnce ∣ ahead.length) (hall : AllPass (PassesInBurst w cwnd soSndbuf s) ahead) :
    ∃ sent fill left u, xqcConnSendBurstPackets w cwnd soSndbuf luck .send true takes t = (sent.length, u) ∧
      rest = sent ++ (fill ++ left) ∧ After s (sizeInBurst w s) (ahead ++ sent) fill left u ∧
      AllPass (PassesInBurst w cwnd soSndbuf s) (ahead ++ sent) ∧ sent.length + fill.length ≤ xqcMaxSendMsgOnce := by
  rw [← append_nil ahead] at hall
  obtain ⟨burst, left, u, hloop, hrest, hafter, hpass, hn⟩ := burstLoop_fills luck ha xqcMaxSendMsgOnce h rfl hall
  have hmin : (burst.take (min takes burst.length)).length = min takes burst.length := by
    rw [length_take, Nat.min_eq_left (Nat.min_le_right _ _)]
  refine ⟨burst.take (min takes burst.length), burst.drop (min takes burst.length), left,
    xqcOnPacketsSendBurst .send (min takes burst.length) u, ?_, ?_, ?_, ?_, ?_⟩
  · have hlist : t.lists Queue.send.place = rest := h.send
    have hcount : t.bytesInFlight = burstCount w s ahead [] := h.bytes
    rw [hmin, xqcConnSendBurstPackets, hlist, hcount, hloop]
  · rw [← append_assoc, take_append_drop]; exact hrest
  · exact hafter.sendBurst _ (Nat.min_le_right _ _)
  · rw [nil_append, ← take_append_drop (min takes burst.length) burst, ← append_assoc] at hpass
    exact hpass.of_append
  · rw [← length_append, take_append_drop]; exact hn

lemma sendBurstPackets_reaches {more : List Id} (h : After s (sizeInBurst w s) ahead [] (more ++ left) t)
    (ha : xqcMaxSendMsgOnce ∣ ahead.length) (heq : all = ahead ++ more)
    (hall : AllPass (PassesInBurst w cwnd soSndbuf s) all) :
    ∃ u, xqcConnSendBurstPackets w cwnd soSndbuf (luckFor all) .send true xqcMaxSendMsgOnce t =
        ((more.take xqcMaxSendMsgOnce).length, u) ∧
      After s (sizeInBurst w s) (ahead ++ more.take xqcMaxSendMsgOnce) [] (more.drop xqcMaxSendMsgOnce ++ left) u := by
  have hpre : AllPass (PassesInBurst w cwnd soSndbuf s) (ahead ++ []) := by
    rw [heq] at hall
    rw [append_nil]; exact hall.of_append
  obtain ⟨burst, left', u, hloop, hrest, hafter, -, -⟩ := burstLoop_fills (luckFor all) ha xqcMaxSendMsgOnce h rfl hpre
  have hburst := burstLoop_reaches ha xqcMaxSendMsgOnce h rfl heq hall
  rw [hloop] at hburst
  subst hburst
  have hle : (more.take xqcMaxSendMsgOnce).length ≤ xqcMaxSendMsgOnce := length_take_le _ _
  refine ⟨xqcOnPacketsSendBurst .send (more.take xqcMaxSendMsgOnce).length u, ?_, ?_⟩
  · have hlist : t.lists Queue.send.place = more ++ left := h.send
    have hcount : t.bytesInFlight = burstCount w s ahead [] := h.bytes
    rw [xqcConnSendBurstPackets, hlist, hcount, hloop]
    rw [Nat.min_eq_right hle]
  · have hsent := hafter.sendBurst (more.take xqcMaxSendMsgOnce).length le_rfl
    rw [nil_append, take_length, drop_length] at hsent
    nth_rewrite 1 [← take_append_drop xqcMaxSendMsgOnce more] at hrest
    rw [append_assoc] at hrest
    rw [append_cancel_left hrest]; exact hsent

lemma batchLoop_ends (luck : Id → Luck) (takes : Nat → Nat) (fuel : Nat) : ∀ {m : Nat} {ahead rest : List Id} {t : Ctl},
    After s (sizeInBurst w s) ahead [] rest t → xqcMaxSendMsgOnce ∣ ahead.length →
    AllPass (PassesInBurst w cwnd soSndbuf s) ahead →
    ∃ sent left, ahead ++ rest = sent ++ left ∧ AllPass (PassesInBurst w cwnd soSndbuf s) sent ∧
      Ended s (sizeInBurst w s) (ahead ++ rest) sent (batchLoop w cwnd soSndbuf luck .send true takes fuel m t) := by
  induction fuel with
  | zero => intro m ahead rest t h _ hall; exact ⟨ahead, rest, rfl, hall, h.ended⟩
  | succ fuel ih =>
    intro m ahead rest t h ha hall; unfold batchLoop
    split
    · exact ⟨ahead, rest, rfl, hall, h.ended⟩
    · obtain ⟨sent, fill, left, u, hburst, hrest, hafter, hpass, hlen⟩ := sendBurstPackets_ends luck (takes m) h ha hall
      have heq : ahead ++ rest = ahead ++ sent ++ (fill ++ left) := by rw [hrest, append_assoc]
      rw [hburst, heq]
      dsimp only; split
      · -- a full burst leaves nothing behind
        rename_i hfull
        obtain rfl : fill = [] := length_eq_zero_iff.mp (by omega)
        refine ih hafter ?_ hpass
        rw [length_append, hfull]; exact Nat.dvd_add_self_right.mpr ha
      · exact ⟨ahead ++ sent, fill ++ left, rfl, hpass, hafter.ended⟩

lemma batchLoop_reaches (fuel : Nat) : ∀ {m : Nat} {ahead more : List Id} {t : Ctl},
    After s (sizeInBurst w s) ahead [] (more ++ left) t → xqcMaxSendMsgOnce ∣ ahead.length →
    (more ++ left).length ≤ fuel → all = ahead ++ more → AllPass (PassesInBurst w cwnd soSndbuf s) all →
    Ended s (sizeInBurst w s) (all ++ left) all
      (batchLoop w cwnd soSndbuf (luckFor all) .send true (fun _ => xqcMaxSendMsgOnce) fuel m t) := by
  induction fuel with
  | zero =>
    intro m ahead more t h _ hfuel heq _
    obtain ⟨rfl, rfl⟩ := append_eq_nil_iff.mp (length_eq_zero_iff.mp (Nat.le_zero.mp hfuel))
    rw [append_nil] at heq
    rw [heq]; exact h.ended
  | succ fuel ih =>
    intro m ahead more t h ha hfuel heq hall
    have hlist : t.lists Queue.send.place = more ++ left := h.send
    unfold batchLoop; split
    · rename_i hempty
      obtain ⟨rfl, rfl⟩ := append_eq_nil_iff.mp (hlist.symm.trans hempty)
      rw [append_nil] at heq
      rw [heq]; exact h.ended
    · obtain ⟨u, hburst, hafter⟩ := sendBurstPackets_reaches h ha heq hall
      rw [hburst]
      dsimp only; split
      · rename_i hfull
        have hlong : xqcMaxSendMsgOnce ≤ more.length := by
          rw [length_take] at hfull; omega
        refine ih hafter ?_ ?_ ?_ hall
        · rw [length_append, hfull]; exact Nat.dvd_add_self_right.mpr ha
        · rw [length_append, length_drop]
          rw [length_append] at hfuel
          have hpos : 0 < xqcMaxSendMsgOnce := by decide
          omega
        · rw [append_assoc, take_append_drop]; exact heq
      · rename_i hpart
        have hshort : more.length ≤ xqcMaxSendMsgOnce := by
          rw [length_take] at hpart; omega
        rw [take_of_length_le hshort, drop_eq_nil_of_le hshort, ← heq] at hafter
        exact hafter.ended

end Burst

/-! ## The window -/

section Respect

variable (cwnd : UInt64) (s : Ctl)

/-- If a packet of the send list was put in flight, the bytes in flight fit the window. -/
def Respects (t : Ctl) : Prop :=
  (∃ p ∈ s.lists .send, (t.pkts p).inFlight = true) → t.bytesInFlight.toUInt64 ≤ cwnd

/-- No packet that passes a test behind packets that pass it, and comes in flight, is
    too large for the window once it is encoded. -/
def NoneOutgrows (P : List Id → Id → Prop) (size : Nat → Id → UInt32) : Prop :=
  ∀ front p back, s.lists .send = front ++ p :: back → AllPass P (front ++ [p]) → elicits s p = true →
    (load s size (front ++ [p])).toUInt64 ≤ cwnd

variable {cwnd s}

lemma respects_iff {ι : Type} {size : Nat → Id → UInt32} {call : ι → Ctl}
    (hends : ∀ x, ∃ sent left, s.lists .send = sent ++ left ∧ AllPass P sent ∧ Ended s size (s.lists .send) sent (call x))
    (hreaches : ∀ sent left, s.lists .send = sent ++ left → AllPass P sent →
      ∃ x, Ended s size (s.lists .send) sent (call x)) :
    (∀ x, Respects cwnd s (call x)) ↔ NoneOutgrows cwnd s P size := by
  constructor
  · intro h front p back heq hall he
    have heq' : s.lists .send = (front ++ [p]) ++ back := by rw [heq, append_assoc]; rfl
    obtain ⟨x, hx⟩ := hreaches _ _ heq' hall
    have hp : p ∈ s.lists .send := by
      rw [heq]
      simp
    rw [← hx.bytes]; exact h x ⟨p, hp, (hx.flying p hp).mpr ⟨by simp, he⟩⟩
  · rintro h x ⟨p, hp, hfly⟩
    obtain ⟨sent, left, heq, hall, hx⟩ := hends x
    rw [hx.bytes]
    refine load_le_of_last s size ?_ ⟨p, (hx.flying p hp).mp hfly⟩
    intro front q back hsplit he; subst hsplit
    refine h front q (back ++ left) ?_ ?_ he
    · rw [heq, append_assoc]; rfl
    · have hq : front ++ q :: back = (front ++ [q]) ++ back := by simp
      rw [hq] at hall; exact hall.of_append

end Respect

/-- In every state a connection can reach, with no packet of high priority, and for
    every window: the window is respected whatever the packets meet with, exactly if no
    packet outgrows it. This holds for packets sent one by one and for bursts. -/
theorem window_is_respected_iff (w : World) (conn : Conn) (hc : conn.Fresh) (cs : List Call) (s : Ctl)
    (hrun : Run (Turn w) (xqcSendCtlCreate conn) cs s) (hhigh : s.lists .highPri = []) (cwnd : UInt64)
    (soSndbuf : UInt32) :
    ((∀ luck, Respects cwnd s (xqcConnSendPackets w cwnd soSndbuf luck s)) ↔
      NoneOutgrows cwnd s (PassesAlone w cwnd soSndbuf s) (sizeAlone w s)) ∧
    ((∀ x : (Id → Luck) × (Nat → Nat) × (Nat → Nat),
        Respects cwnd s (xqcConnSendPacketsBatch w cwnd soSndbuf x.1 x.2.1 x.2.2 s)) ↔
      NoneOutgrows cwnd s (PassesInBurst w cwnd soSndbuf s) (sizeInBurst w s)) := by
  have hinv := (run_lined w hc hrun).1
  have hnone : ∀ P : List Id → Id → Prop, AllPass P [] := by
    intro P front p back heq; exact absurd heq (by simp)
  have halone : ∀ luck, xqcConnSendPackets w cwnd soSndbuf luck s =
      sendLoop w cwnd soSndbuf luck .send (s.lists .send) s := by
    intro luck; rw [xqcConnSendPackets, hhigh]
    rfl
  have hbatch : ∀ luck takesHigh takes, xqcConnSendPacketsBatch w cwnd soSndbuf luck takesHigh takes s =
      batchLoop w cwnd soSndbuf luck .send true takes (s.lists .send).length 0 s := by
    intro luck takesHigh takes; rw [xqcConnSendPacketsBatch, hhigh]
    rfl
  constructor
  · apply respects_iff
    · intro luck; rw [halone]; exact sendLoop_ends luck (after_start hinv _) (hnone _)
    · intro sent left heq hall
      have hstart := after_start hinv (sizeAlone w s)
      rw [heq] at hstart
      refine ⟨luckFor sent, ?_⟩
      rw [halone, heq]; exact sendLoop_reaches hstart hall
  · apply respects_iff
    · rintro ⟨luck, takesHigh, takes⟩
      rw [hbatch]
      exact batchLoop_ends luck takes _ (after_start hinv _) (Nat.dvd_zero _) (hnone _)
    · intro sent left heq hall
      have hstart := after_start hinv (sizeInBurst w s)
      rw [heq] at hstart
      refine ⟨(luckFor sent, id, fun _ => xqcMaxSendMsgOnce), ?_⟩
      rw [hbatch, heq]
      exact batchLoop_reaches _ hstart (Nat.dvd_zero _) le_rfl rfl hall

/-- `xqc_write_path_response_frame_to_packet`, which answers a PATH_CHALLENGE. -/
def pathResponse (p : Id) : List Call :=
  [.one (.write .shortHeader), .one (.append p ⟨.pathResponse, 9, none, 0⟩), .one (.toHead p)]

/-- One packet is written, filled and sent under a window of four packets. -/
def oneSent (p : Id) : List Call :=
  [.one (.write .shortHeader), .one (.append p filling), .one (.send .send 4864 0 .all)]

lemma run_oneSent {s : Ctl} {cs : List Call} (p : Id) (h : Run (Turn roomy) (xqcSendCtlCreate newServer) cs s)
    (hp : p ∈ (xqcWriteNewPacket roomy .shortHeader s).2.lists .send)
    (hhead : ((xqcWriteNewPacket roomy .shortHeader s).2.lists .send).head? = some p) :
    Run (Turn roomy) (xqcSendCtlCreate newServer) (cs ++ oneSent p) (sendRound roomy .send 4864 0 .all p
      ((xqcWriteNewPacket roomy .shortHeader s).2.modify p (PacketOut.addFrame filling))) := by
  have hrun := ((h.snoc (.one _ _ _ rfl (.write _ _))).snoc (.one _ _ _ rfl (.append _ p filling hp))).snoc
    (.one _ _ _ rfl (.send _ .send 4864 0 .all p hhead))
  simpa [oneSent] using hrun

/-- Nothing is in flight but the answer. -/
theorem path_response_fits_the_window : ∃ s,
    Run (Turn roomy) (xqcSendCtlCreate newServer) (.one .txKey :: pathResponse 0) s ∧ s.lists .send = [0] ∧
    ∀ luck, Respects 4864 s (xqcConnSendPackets roomy 4864 0 luck s) := by
  obtain ⟨s, hrun, hhigh, hsend, hload⟩ : ∃ s,
      Run (Turn roomy) (xqcSendCtlCreate newServer) (.one .txKey :: pathResponse 0) s ∧ s.lists .highPri = [] ∧
      s.lists .send = [0] ∧ load s (sizeAlone roomy s) [0] = 1200 := by
    have hrun : Run (Turn roomy) (xqcSendCtlCreate newServer) (.one .txKey :: pathResponse 0) _ :=
      (((Run.nil.snoc (.one _ _ _ rfl (.txKey _ (.inl rfl)))).snoc (.one _ _ _ rfl (.write _ _))).snoc
        (.one _ _ _ rfl (.append _ _ _ (by decide)))).snoc (.one _ _ _ rfl (.toHead _ _ (by decide)))
    exact ⟨_, hrun, by decide +kernel⟩
  refine ⟨s, hrun, hsend, ?_⟩
  obtain ⟨halone, -⟩ := window_is_respected_iff roomy newServer (by simp [Conn.Fresh, newServer]) _ s hrun hhigh 4864 0
  refine halone.mpr ?_
  intro front p back heq _ _; rw [hsend] at heq
  obtain ⟨rfl, hcons⟩ : front = [] ∧ p :: back = [0] := by
    rcases append_eq_singleton_iff.mp heq.symm with h | h
    · exact h
    · exact absurd h.2 (by simp)
  obtain rfl := (List.cons.inj hcons).1
  rw [nil_append, hload]
  decide

/-- Four packets of 1200 bytes are in flight. The answer passes the test with its 34
    bytes, and 1200 come in flight. -/
theorem padding_exceeds_the_window : newServer.Fresh ∧ ∃ s,
    Run (Turn roomy) (xqcSendCtlCreate newServer)
      (.one .txKey :: oneSent 0 ++ oneSent 1 ++ oneSent 2 ++ oneSent 3 ++ pathResponse 4) s ∧
      s.lists .highPri = [] ∧ (¬ ∀ luck, Respects 4864 s (xqcConnSendPackets roomy 4864 0 luck s)) ∧
      ¬ ∀ x : (Id → Luck) × (Nat → Nat) × (Nat → Nat),
        Respects 4864 s (xqcConnSendPacketsBatch roomy 4864 0 x.1 x.2.1 x.2.2 s) := by
  have hkey : Run (Turn roomy) (xqcSendCtlCreate newServer) [.one .txKey] _ :=
    Run.nil.snoc (.one _ _ _ rfl (.txKey _ (.inl rfl)))
  have htwo := run_oneSent 1 (run_oneSent 0 hkey (by decide) (by decide)) (by decide +kernel) (by decide +kernel)
  have hfour := run_oneSent 3 (run_oneSent 2 htwo (by decide +kernel) (by decide +kernel)) (by decide +kernel)
    (by decide +kernel)
  have hrun := ((hfour.snoc (.one _ _ _ rfl (.write _ .shortHeader))).snoc
    (.one _ _ _ rfl (.append _ 4 ⟨.pathResponse, 9, none, 0⟩ (by decide +kernel)))).snoc
    (.one _ _ _ rfl (.toHead _ 4 (by decide +kernel)))
  refine ⟨by simp [Conn.Fresh, newServer], _, hrun, by decide +kernel, fun h => ?_, fun h => ?_⟩
  · have hle := h (luckFor [4]) ⟨4, by decide +kernel, by decide +kernel⟩
    exact absurd hle (by decide +kernel)
  · have hle := h (luckFor [4], id, fun _ => 1) ⟨4, by decide +kernel, by decide +kernel⟩
    exact absurd hle (by decide +kernel)

end RlccQuic.Transport.SendCtl
