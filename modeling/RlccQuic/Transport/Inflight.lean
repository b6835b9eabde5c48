/-
  RlccQuic.Transport.Inflight — the counters of bytes in flight.

  Sending keeps the invariant of the lists and counters, so every event of the
  machine does, as long as the bytes in flight fit the 32-bit counters.

  Proved: in every run in which fewer than 2^32 bytes are in flight the counters are the sizes of the packets in flight,
  for each space and in all, and none was ever too small (`bytes_in_flight_are_counted`); a run in which they wrap
  (`bytes_in_flight_wrap`). No packet is in two lists (`packets_have_one_place`).
-/

import RlccQuic.Transport.SendCtlInv
import RlccQuic.Lib.Run

namespace RlccQuic.Transport.SendCtl

open Lib Finset Function

variable {B : Prop} (w : World)

/-! ## Encoding -/

lemma pad_pktType (client : Bool) (po : PacketOut) : (po.pad client).pktType = po.pktType := by
  unfold PacketOut.pad PacketOut.genPaddingFrame; split
  · split <;> rfl
  · rfl

variable {c : PacketOut}

lemma Copy.pad {b : Bool} {o : PacketOut} (h : Copy b c o) (client : Bool) : Copy b (c.pad client) o := by
  refine ⟨h.root, h.landed, ?_, ?_, ?_⟩
  · simp only [PacketOut.pns, pad_pktType]; exact h.pns
  · intro hn ht
    have hc := h.streams hn ht
    have hpns : c.pns = .appData := h.pns.trans hn
    have hno : c.needPadding client = false := by
      unfold PacketOut.needPadding; rw [hpns, hc.1, if_neg (by simp)]
      decide
    rw [PacketOut.pad, hno, if_neg (by simp)]; exact hc
  · rw [pad_pktType]; exact h.early

lemma Copy.convert {conn : Conn} {o : PacketOut} (h : Copy conn.canSend1rtt c o) (size : UInt32) :
    Copy conn.canSend1rtt (convert conn size c) o := by
  unfold SendCtl.convert; split
  · rename_i hc
    refine ⟨h.root, h.landed, ?_, h.streams, fun _ => .inr hc.2⟩
    rw [← h.pns]
    simp only [PacketOut.pns, PacketOut.convert0rtt21rtt, hc.1, PktType.pns]
  · exact h

structure Kept (po po' : PacketOut) : Prop where
  landed : po'.inFlight = po.inFlight
  acked : po'.acked = po.acked
  origin : po'.origin = po.origin
  resend : po'.resend = po.resend

lemma Kept.trans {a b : PacketOut} (h : Kept a b) (h' : Kept b c) : Kept a c :=
  ⟨h'.landed.trans h.landed, h'.acked.trans h.acked, h'.origin.trans h.origin, h'.resend.trans h.resend⟩

lemma kept_pad (client : Bool) (po : PacketOut) : Kept po (po.pad client) := by
  unfold PacketOut.pad PacketOut.genPaddingFrame; split
  · split <;> exact ⟨rfl, rfl, rfl, rfl⟩
  · exact ⟨rfl, rfl, rfl, rfl⟩

lemma kept_convert (conn : Conn) (size : UInt32) (po : PacketOut) : Kept po (convert conn size po) := by
  unfold SendCtl.convert
  split <;> exact ⟨rfl, rfl, rfl, rfl⟩

variable {s : Ctl} {p : Id} {k : Place}

lemma Inv.encode (h : Inv B s) {po : PacketOut} (hp : p ∈ s.lists k) (hk : k ≠ .free)
    (hun : ∀ n, k ≠ .unacked n) (hkept : Kept (s.pkts p) po)
    (hcopy : ∀ {o}, Copy s.conn.canSend1rtt (s.pkts p) o → Copy s.conn.canSend1rtt po o) :
    Inv B { s with pkts := update s.pkts p po } :=
  h.updateWaiting hp hk hun hkept.landed hkept.acked hkept.origin hkept.resend
    fun ho => hcopy (h.sound.origin ⟨k, hk, hp⟩ ho).2

lemma encPacketWithPn_inv (h : Inv B s) (hp : p ∈ s.lists k) (hk : k ≠ .free)
    (hun : ∀ n, k ≠ .unacked n) : Inv B (xqcEncPacketWithPn w p s) := by
  have h0 : Inv B { s with asked := s.asked + 1 } := h.congr rfl
  refine h0.encode hp hk hun ?_ ?_
  · have hkept := (kept_pad (!s.conn.server) (s.pkts p)).trans
      (kept_convert s.conn (w.size s.asked) ((s.pkts p).pad (!s.conn.server)))
    exact ⟨hkept.landed, hkept.acked, hkept.origin, hkept.resend⟩
  · intro o hc
    have hc' := (hc.pad (!s.conn.server)).convert (w.size s.asked)
    exact ⟨hc'.root, hc'.landed, hc'.pns, hc'.streams, hc'.early⟩

lemma encPacket_inv (h : Inv B s) (now : UInt64) (hp : p ∈ s.lists k) (hk : k ≠ .free)
    (hun : ∀ n, k ≠ .unacked n) : Inv B (xqcConnEncPacket w now p s) := by
  have henc : Inv B { s with pkts := update s.pkts p { (convert s.conn (w.size s.asked) (s.pkts p)).pad (!s.conn.server) with
      pktNum := s.packetNumber ((convert s.conn (w.size s.asked) (s.pkts p)).pad (!s.conn.server)).pns, sentTime := now } } := by
    refine h.encode hp hk hun ?_ ?_
    · have hkept := (kept_convert s.conn (w.size s.asked) (s.pkts p)).trans
        (kept_pad (!s.conn.server) (convert s.conn (w.size s.asked) (s.pkts p)))
      exact ⟨hkept.landed, hkept.acked, hkept.origin, hkept.resend⟩
    · intro o hc
      have hc' := (hc.convert (w.size s.asked)).pad (!s.conn.server)
      exact ⟨hc'.root, hc'.landed, hc'.pns, hc'.streams, hc'.early⟩
  exact henc.congr rfl

/-! ## Sending -/

lemma increase_move (p q : Id) (k : Place) (s : Ctl) :
    xqcSendCtlIncreaseInflight p (s.move q k) = (xqcSendCtlIncreaseInflight p s).move q k := by
  unfold xqcSendCtlIncreaseInflight
  simp only [apply_ite (Ctl.move q k)]
  rfl

def sentMark (po : PacketOut) : PacketOut := if po.lost then { po with lost := false } else { po with tlp := false }

def noteSent (p : Id) (s : Ctl) : Ctl :=
  if (s.pkts p).pktNum > s.largestSent (s.pkts p).pns then
    { s with largestSent := update s.largestSent (s.pkts p).pns (s.pkts p).pktNum }
  else s

lemma onPacketSent_eq (p : Id) (s : Ctl) :
    xqcSendCtlOnPacketSent p s =
      if (s.pkts p).frameTypes.canInFlight then
        (if (s.pkts p).inFlight then noteSent p s else xqcSendCtlIncreaseInflight p (noteSent p s)).modify p sentMark
      else noteSent p s := rfl

lemma noteSent_inv (h : Inv B s) (p : Id) : Inv B (noteSent p s) := by
  unfold noteSent; split
  · exact h.congr rfl
  · exact h

@[simp] lemma noteSent_pkts (p : Id) (s : Ctl) : (noteSent p s).pkts = s.pkts := by
  unfold noteSent
  split <;> rfl

@[simp] lemma noteSent_lists (p : Id) (s : Ctl) : (noteSent p s).lists = s.lists := by
  unfold noteSent
  split <;> rfl

lemma noteSent_move (p q : Id) (k : Place) (s : Ctl) : noteSent p (s.move q k) = (noteSent p s).move q k := by
  unfold noteSent
  simp only [apply_ite (Ctl.move q k)]
  rfl

lemma onPacketSent_move (p q : Id) (k : Place) (s : Ctl) :
    xqcSendCtlOnPacketSent p (s.move q k) = (xqcSendCtlOnPacketSent p s).move q k := by
  have hp : (s.move q k).pkts = s.pkts := rfl
  rw [onPacketSent_eq, onPacketSent_eq, noteSent_move, increase_move]
  by_cases hc : (s.pkts p).frameTypes.canInFlight
  · by_cases hf : (s.pkts p).inFlight = true
    · simp only [hp, if_pos hc, if_pos hf]; rfl
    · simp only [hp, if_pos hc, if_neg hf]; rfl
  · simp only [hp, if_neg hc]

lemma sentMark_inv (h : Inv B s) (p : Id) : Inv B (s.modify p sentMark) := by
  have hm : ∀ po, sentMark po = { po with lost := (sentMark po).lost, tlp := (sentMark po).tlp } := by
    intro po; unfold sentMark
    split <;> rfl
  unfold Ctl.modify; rw [hm]
  exact h.touch rfl

lemma total_sentMark (p : Id) (s : Ctl) : total (s.modify p sentMark) = total s := by
  have hmark : ∀ n po, flightBytes n (sentMark po) = flightBytes n po := by
    intro n po; unfold sentMark
    split <;> rfl
  have hpkts : ∀ q n, flightBytes n ((s.modify p sentMark).pkts q) = flightBytes n (s.pkts q) := by
    intro q n
    by_cases hq : q = p
    · subst hq
      simp only [Ctl.modify, update_self, hmark]
    · simp only [Ctl.modify, update_of_ne hq]
  have htally : ∀ n, tally (s.modify p sentMark) n = tally s n := tally_congr rfl hpkts
  simp only [total, htally]

lemma onPacketSent_inv (h : Inv B s) (hp : p ∈ s.lists (.unacked (s.pkts p).pns))
    (ha : (s.pkts p).acked = false) (hno : ∀ {c}, s.Live c → (s.pkts c).origin ≠ some p)
    (hroom : B → total (xqcSendCtlOnPacketSent p s) < 2 ^ 32) : Inv B (xqcSendCtlOnPacketSent p s) := by
  have hn := noteSent_inv h p
  rw [onPacketSent_eq] at hroom ⊢; split
  · rename_i hc; rw [if_pos hc] at hroom
    refine sentMark_inv ?_ p
    split
    · exact hn
    · rename_i hf
      simp only [if_neg hf, total_sentMark] at hroom
      refine hn.increase (by simpa using hp) (by simpa using ha) ?_ hroom
      intro c hl
      simpa using hno (by simpa [Ctl.Live] using hl)
  · exact hn

lemma onPacketSent_silent (h : Inv B s) (hq : ¬ (s.pkts p).frameTypes.isAckEliciting) :
    Inv B (xqcSendCtlOnPacketSent p s) := by
  have hn := noteSent_inv h p
  rw [onPacketSent_eq]; split
  · refine sentMark_inv ?_ p
    split
    · exact hn
    · unfold xqcSendCtlIncreaseInflight; rw [noteSent_pkts, if_neg (fun hc => hq hc.2.2)]; exact hn
  · exact hn

lemma onPacketSent_record (p : Id) (s : Ctl) : ∃ f l t,
    (xqcSendCtlOnPacketSent p s).pkts p = { s.pkts p with inFlight := f, lost := l, tlp := t } := by
  have hmark : ∀ po, ∃ l t, sentMark po = { po with lost := l, tlp := t } := by
    intro po; unfold sentMark
    split <;> exact ⟨_, _, rfl⟩
  have hinc : ∀ t : Ctl, ∃ f, (xqcSendCtlIncreaseInflight p t).pkts p = { t.pkts p with inFlight := f } := by
    intro t; unfold xqcSendCtlIncreaseInflight
    dsimp only; split
    · exact ⟨true, update_self _ _ _⟩
    · exact ⟨_, rfl⟩
  rw [onPacketSent_eq]; split
  · simp only [Ctl.modify, update_self]; split
    · obtain ⟨l, t, h⟩ := hmark ((noteSent p s).pkts p)
      exact ⟨_, l, t, by rw [h, noteSent_pkts]⟩
    · obtain ⟨l, t, h⟩ := hmark ((xqcSendCtlIncreaseInflight p (noteSent p s)).pkts p)
      obtain ⟨f, h'⟩ := hinc (noteSent p s)
      exact ⟨f, l, t, by rw [h, h', noteSent_pkts]⟩
  · exact ⟨_, _, _, by rw [noteSent_pkts]⟩

lemma onPacketSent_frame (p : Id) (s : Ctl) :
    ((xqcSendCtlOnPacketSent p s).pkts p).frameTypes = (s.pkts p).frameTypes ∧
      ((xqcSendCtlOnPacketSent p s).pkts p).pns = (s.pkts p).pns := by
  obtain ⟨f, l, t, h⟩ := onPacketSent_record p s
  rw [h]; exact ⟨rfl, rfl⟩

lemma onPacketSent_flying (hland : (s.pkts p).inFlight = false)
    (hack : (s.pkts p).frameTypes.isAckEliciting) :
    (xqcSendCtlOnPacketSent p s).pkts = update s.pkts p (sentMark { s.pkts p with inFlight := true }) ∧
      (xqcSendCtlOnPacketSent p s).lists = s.lists ∧ (xqcSendCtlOnPacketSent p s).next = s.next ∧
      (xqcSendCtlOnPacketSent p s).packetNumber = s.packetNumber := by
  have hnext : (noteSent p s).next = s.next ∧ (noteSent p s).packetNumber = s.packetNumber := by
    unfold noteSent
    split <;> exact ⟨rfl, rfl⟩
  rw [onPacketSent_eq, if_pos hack.canInFlight, if_neg (by simp [hland])]
  simp [xqcSendCtlIncreaseInflight, hland, hack, hack.canInFlight, Ctl.modify, hnext]

lemma toUnacked_inv (h : Inv B s) (hp : p ∈ s.lists k) (hk : k ≠ .free)
    (hun : ∀ n, k ≠ .unacked n) :
    Inv B (s.move p (.unacked (s.pkts p).pns)) ∧
      ∀ {c}, (s.move p (.unacked (s.pkts p).pns)).Live c → ((s.move p (.unacked (s.pkts p).pns)).pkts c).origin ≠ some p := by
  have hput := put_move h.ledger.single p (.unacked (s.pkts p).pns)
  have hfit := h.sound.fits hk hp
  refine ⟨h.relocate hput hk hp hun ⟨?_, hfit.fresh, fun _ => hfit.waiting hun, by simp, hfit.resend⟩, ?_⟩
  · intro n hn; simpa using hn
  · intro c hc
    refine h.not_copied hp hun ?_
    rcases hput.live.mp hc with ⟨rfl, _⟩ | ⟨_, hc⟩
    · exact ⟨k, hk, hp⟩
    · exact hc

lemma sent_toUnacked (h : Inv B s) (hp : p ∈ s.lists k) (hk : k ≠ .free)
    (hun : ∀ n, k ≠ .unacked n)
    (hroom : B → total ((xqcSendCtlOnPacketSent p s).move p (.unacked (s.pkts p).pns)) < 2 ^ 32) :
    Inv B ((xqcSendCtlOnPacketSent p s).move p (.unacked (s.pkts p).pns)) := by
  obtain ⟨hm, hno⟩ := toUnacked_inv h hp hk hun
  rw [← onPacketSent_move] at hroom ⊢
  refine onPacketSent_inv hm ?_ ((h.sound.fits hk hp).waiting hun) hno hroom
  exact h.ledger.mem_move.mpr (.inl ⟨rfl, rfl⟩)

/-- `settle`, of a packet that waited and was sent. -/
lemma sent_settle (h : Inv B s) (hp : p ∈ s.lists k) (hk : k ≠ .free)
    (hun : ∀ n, k ≠ .unacked n) (hroom : B → total (settle p (xqcSendCtlOnPacketSent p s)) < 2 ^ 32) :
    Inv B (settle p (xqcSendCtlOnPacketSent p s)) := by
  unfold settle at hroom ⊢
  dsimp only at hroom ⊢
  rw [(onPacketSent_frame p s).1, (onPacketSent_frame p s).2] at hroom ⊢
  by_cases he : (s.pkts p).frameTypes.isAckEliciting
  · rw [if_pos he] at hroom ⊢; exact sent_toUnacked h hp hk hun hroom
  · rw [if_neg he] at hroom ⊢
    rw [← onPacketSent_move]; exact onPacketSent_silent (h.releaseWaiting hp hun) he

lemma settle_inv (h : Inv B s) (hp : p ∈ s.lists k) (hk : k ≠ .free)
    (hun : ∀ n, k ≠ .unacked n) : Inv B (settle p s) := by
  unfold settle
  dsimp only; split
  · exact (toUnacked_inv h hp hk hun).1
  · exact h.releaseWaiting hp hun

lemma Queue.place_ne (q : Queue) : q.place ≠ .free ∧ ∀ n, q.place ≠ .unacked n := by
  cases q <;> exact ⟨by simp [Queue.place], by simp [Queue.place]⟩

variable {q : Queue} {now : UInt64}

lemma sendOne_inv (h : Inv B s) {r : Sent} (hp : p ∈ s.lists q.place)
    (hroom : B → total (sendOne w q now r p s) < 2 ^ 32) : Inv B (sendOne w q now r p s) := by
  obtain ⟨hk, hun⟩ := q.place_ne
  have henc := encPacketWithPn_inv w h hp hk hun
  have ht : Inv B ((xqcEncPacketWithPn w p s).modify p ({ · with sentTime := now })) :=
    henc.touch rfl
  have hp' : p ∈ ((xqcEncPacketWithPn w p s).modify p ({ · with sentTime := now })).lists q.place := hp
  unfold sendOne xqcSendPacketWithPn at hroom ⊢
  generalize (xqcEncPacketWithPn w p s).modify p ({ · with sentTime := now }) = t at ht hp' hroom ⊢
  cases r with
  | error => exact ht
  | short =>
    simp only [reduceCtorEq, if_false]; split
    · exact (toUnacked_inv ht hp' hk hun).1
    · exact settle_inv ht hp' hk hun
  | all =>
    have hn : Inv B { t with
        packetNumber := update t.packetNumber (t.pkts p).pns (t.packetNumber (t.pkts p).pns + 1) } :=
      ht.congr rfl
    simp only [reduceCtorEq, if_true, if_false] at hroom ⊢; split
    · rename_i hq; rw [if_pos hq, (onPacketSent_frame p _).2] at hroom
      rw [(onPacketSent_frame p _).2]; exact sent_toUnacked hn hp' hk hun hroom
    · rename_i hq; rw [if_neg hq] at hroom; exact sent_settle hn hp' hk hun hroom

lemma mem_of_head (h : (s.lists k).head? = some p) : p ∈ s.lists k :=
  List.mem_of_mem_head? h

lemma sendRound_inv (h : Inv B s) {cwnd : UInt32} {r : Sent}
    (hp : p ∈ s.lists q.place) (hroom : B → total (sendRound w q cwnd now r p s) < 2 ^ 32) :
    Inv B (sendRound w q cwnd now r p s) := by
  unfold sendRound at hroom ⊢
  cases q with
  | highPri | probe => exact sendOne_inv w h hp hroom
  | send =>
    dsimp only at hroom ⊢; split
    · exact h
    · rename_i hc; rw [if_neg hc] at hroom; exact sendOne_inv w h hp hroom
  | lost =>
    have hi := indirectly_inv h (k := .lost) (by simp) hp
    obtain ⟨s', hd⟩ | ⟨hd, -⟩ := indirectly_cases p s
    · rw [hd] at hi ⊢; exact hi
    · rw [hd] at hroom ⊢
      have hm : Inv B (s.modify p ({ · with lost := true })) := h.touch rfl
      dsimp only at hroom ⊢; split
      · exact hm
      · rename_i hc; rw [if_neg hc] at hroom; exact sendOne_inv w hm hp hroom

lemma burstRound_inv (h : Inv B s) (hp : p ∈ s.lists q.place) : Inv B (burstRound w q now p s) := by
  have hi : q = .lost ∨ q = .probe → Inv B (xqcSendCtlIndirectlyAckPo p s).2 :=
    fun _ => indirectly_inv h q.place_ne.1 hp
  unfold burstRound
  cases q with
  | highPri | send => exact encPacket_inv w h now hp (by simp [Queue.place]) (by simp [Queue.place])
  | lost =>
    obtain ⟨s', hd⟩ | ⟨hd, -⟩ := indirectly_cases p s
    · rw [hd] at hi ⊢; exact hi (.inl rfl)
    · rw [hd]
      have hm : Inv B (s.modify p ({ · with lost := true })) := h.touch rfl
      exact encPacket_inv w hm (k := .lost) now hp (by simp) (by simp)
  | probe =>
    obtain ⟨s', hd⟩ | ⟨hd, -⟩ := indirectly_cases p s
    · rw [hd] at hi ⊢; exact hi (.inr rfl)
    · rw [hd]
      exact encPacket_inv w h (k := .probe) now hp (by simp) (by simp)

/-! ## 1-RTT packets that wait -/

lemma wait_inv (h : Inv B s) {l' : Links Place Id} {j : Place} (hput : Put s.lists l' p k)
    (hp : p ∈ s.lists j) (hj : j = .send ∨ j = .highPri ∨ j = .buff) (hk : k = .send ∨ k = .highPri ∨ k = .buff) :
    Inv B { s with lists := l' } := by
  have hjf : j ≠ .free ∧ ∀ n, j ≠ .unacked n := by rcases hj with rfl | rfl | rfl <;> simp
  have hfit := h.sound.fits hjf.1 hp
  refine h.relocate hput hjf.1 hp hjf.2 ⟨?_, hfit.fresh, fun _ => hfit.waiting hjf.2, fun _ => hfit.first hj, hfit.resend⟩
  intro n hn
  rcases hk with rfl | rfl | rfl <;> cases hn

lemma buff_inv (h : Inv B s) : Inv B (xqcConnBuff1rttPackets s) := by
  refine walk_inv (P := Inv B) ?_ h
  intro p t ht hp
  split
  · exact wait_inv ht (put_move ht.ledger.single p .buff) hp (.inl rfl) (.inr (.inr rfl))
  · exact ht

lemma writeBuffed_inv (h : Inv B s) : Inv B (xqcConnWriteBuffed1rttPackets s) := by
  unfold xqcConnWriteBuffed1rttPackets; split
  · refine walk_inv (P := Inv B) ?_ h
    intro p t ht hp
    exact wait_inv ht (put_move ht.ledger.single p .send) hp (.inr (.inr rfl)) (.inl rfl)
  · exact h

/-! ## Runs -/

lemma Inv.setConn (h : Inv B s) (c : Conn) (hr : c.retryRecvd = s.conn.retryRecvd)
    (h1 : s.conn.canSend1rtt = true → c.canSend1rtt = true)
    (hc : c.server = false → c.canSend1rtt = true → c.handshakeCompleted = true) : Inv B { s with conn := c } := by
  refine ⟨h.ledger.congr rfl rfl rfl rfl rfl rfl, ?_, ?_, h.sound.count, hc⟩
  · intro k p hk hp; simp only [hr]; exact h.sound.fits hk hp
  · intro c' o hl ho
    obtain ⟨hmem, hcp⟩ := h.sound.origin hl ho
    exact ⟨hmem, hcp.root, hcp.landed, hcp.pns, hcp.streams, fun he => (hcp.early he).imp_right h1⟩

lemma handshakeComplete_inv (h : Inv B s) (rejected : Bool) (hc : s.conn.handshakeCompleted = false) :
    Inv B (xqcConnHandshakeComplete rejected s) := by
  have h0 : Inv B { s with conn := { s.conn with handshakeCompleted := true } } :=
    h.setConn { s.conn with handshakeCompleted := true } rfl id fun _ _ => rfl
  unfold xqcConnHandshakeComplete
  dsimp only; split
  · split
    · exact h0
    · exact (dropSpace_inv (h0.setConn { s.conn with handshakeCompleted := true, handshakeConfirmed := true } rfl id
        fun _ _ => rfl) .hsk).1
  · rename_i hserver
    obtain ⟨hi, hconn⟩ := dropSpace_inv h0 .init
    split
    · refine drop0rtt_inv hi ?_
      rw [hconn]
      by_contra h1
      have := h.sound.client (by simpa using hserver) (by simpa using h1)
      rw [hc] at this; cases this
    · exact hi

lemma step_inv {t : Ctl} {e : Ev} (h : Inv B s) (hs : Step w s e t) (hroom : B → total t < 2 ^ 32) : Inv B t := by
  cases hs with
  | write type => exact (writeNew_inv w type h).1
  | append p f hp => exact addFrame_inv h hp f
  | recycle p hp he => exact h.releaseWaiting hp (by simp)
  | toHead p hp => exact wait_inv h (put_moveFront h.ledger.single p .send) hp (.inl rfl) (.inl rfl)
  | toHighPri p hp => exact wait_inv h (put_move h.ledger.single p .highPri) hp (.inl rfl) (.inr (.inl rfl))
  | send q cwnd now r p hp => exact sendRound_inv w h (mem_of_head hp) hroom
  | encode q p now hp => exact burstRound_inv w h hp
  | sent q p hp => exact sent_settle h (mem_of_head hp) q.place_ne.1 q.place_ne.2 hroom
  | buff => exact buff_inv h
  | writeBuffed => exact writeBuffed_inv h
  | ack info recvTime clock => exact onAckReceived_inv w h
  | timeout fuel now pto idle => exact timeout_inv w h
  | closeStream stream => exact dropStream_inv h stream
  | discard n => exact (dropSpace_inv h n).1
  | handshakeComplete rejected hc => exact handshakeComplete_inv h rejected hc
  | handshakeConfirmed hc hn =>
    exact (dropSpace_inv (h.setConn { s.conn with handshakeConfirmed := true } rfl id h.sound.client) .hsk).1
  | txKey hc =>
    refine h.setConn { s.conn with canSend1rtt := true } rfl (fun _ => rfl) ?_
    intro (hserver : s.conn.server = false) _
    exact hc.resolve_left (by simp [hserver])
  | retry hc hr => exact onRecvRetry_inv w h hr
  | close => exact destroy_inv h.ledger.calm h.sound.client

lemma create_inv {conn : Conn} (hc : conn.Fresh) : Inv B (xqcSendCtlCreate conn) := by
  have h : Inv B (xqcSendCtlDestroyPacketsLists (xqcSendCtlCreate conn)) :=
    destroy_inv (fun _ => rfl) fun _ h1 => absurd h1 (by simp [xqcSendCtlCreate, hc.1])
  exact h.congr rfl

/-- In every run of a new connection in which fewer than 2^32 bytes are in flight at
    all times, the counters are the sizes of the packets in flight, for each space and
    in all, and they were never too small to take a packet off; a reset keeps that. -/
theorem bytes_in_flight_are_counted (w : World) (conn : Conn) (hc : conn.Fresh) (es : List Ev) (s : Ctl)
    (h : Run (fun s e t => Step w s e t ∧ total t < 2 ^ 32) (xqcSendCtlCreate conn) es s) :
    (Balanced s ∧ s.tooSmall = false) ∧ Balanced (xqcSendCtlReset s) ∧ (xqcSendCtlReset s).tooSmall = false := by
  have hinv : Inv True s :=
    h.inv (P := Inv True) (fun s e t hs hst => step_inv w hs hst.1 fun _ => hst.2) (create_inv hc)
  obtain ⟨hl, -, -⟩ := reset_spec hinv.ledger
  exact ⟨⟨hinv.ledger.balanced trivial, hinv.ledger.calm trivial⟩, hl.balanced trivial, hl.calm trivial⟩

/-- Every allocation succeeds, and a short header takes 25 bytes. -/
def roomy : World := { malloc := fun _ => true, ackFrame := fun _ => none, size := fun _ => 25 }

def newServer : Conn where
  server := true
  canSend1rtt := false
  handshakeCompleted := false
  handshakeConfirmed := false
  handshakeDoneAcked := false
  retryRecvd := false
  spuriousLossDetectOn := false
  maxAckDelay := 25

/-- A STREAM frame fills packet `p` up to 1200 bytes. -/
def filling : PacketOut.NewFrame := ⟨.stream, 1175, some 0, 0⟩

/-- The packet is written, filled and sent; the window is as large as it can be. -/
def oneMore (p : Id) : List Ev := [.write .shortHeader, .append p filling, .send .send 0xFFFFFFFF 0 .all]

theorem one_packet_in_flight_is_counted : ∃ s,
    Run (fun s e t => Step roomy s e t ∧ total t < 2 ^ 32) (xqcSendCtlCreate newServer) (oneMore 0) s ∧
      s.bytesInFlight = 1200 ∧ Balanced s := by
  have hrun : Run (fun s e t => Step roomy s e t ∧ total t < 2 ^ 32) (xqcSendCtlCreate newServer) (oneMore 0) _ :=
    ((Run.nil.snoc ⟨.write _ _, by decide⟩).snoc ⟨.append _ _ _ (by decide), by decide⟩).snoc
      ⟨.send _ _ _ _ _ 0 (by decide), by decide⟩
  exact ⟨_, hrun, by decide, (bytes_in_flight_are_counted roomy newServer (by simp [Conn.Fresh, newServer]) _ _ hrun).1.1⟩

/-- In every run a packet is in one list at most; what is in flight waits for its acknowledgment in the list of its
    space; and a copy in use has its origin there, which is no copy, is not in flight and counts its copies. -/
theorem packets_have_one_place (w : World) (conn : Conn) (hc : conn.Fresh) (es : List Ev) (s : Ctl)
    (h : Run (Step w) (xqcSendCtlCreate conn) es s) :
    Links.Single s.lists ∧
    (∀ p, (s.pkts p).inFlight = true → p ∈ s.lists (.unacked (s.pkts p).pns) ∧ (s.pkts p).acked = false) ∧
    (∀ c o, s.Live c → (s.pkts c).origin = some o →
      o ∈ s.lists (.unacked (s.pkts o).pns) ∧ Copy s.conn.canSend1rtt (s.pkts c) (s.pkts o)) ∧
    ∀ o (S : Finset Id), (∀ c ∈ S, s.Live c ∧ (s.pkts c).origin = some o) → S.card ≤ (s.pkts o).originRefCnt := by
  have hinv : Inv False s := h.inv (P := Inv False) (fun s e t hs hst => step_inv w hs hst False.elim) (create_inv hc)
  refine ⟨hinv.ledger.single, fun p hf => ?_, fun c o hl ho => hinv.sound.origin hl ho, fun o S hS => ?_⟩
  · obtain ⟨hm, -⟩ := hinv.ledger.flying hf
    exact ⟨hm, (hinv.sound.fits (by simp) hm).fresh hf⟩
  · obtain ⟨T, hcard, hT⟩ := hinv.sound.count o
    exact (card_le_card fun c hc => hT c (hS c hc).1 (hS c hc).2).trans hcard

theorem a_sent_packet_has_one_place : ∃ s, Run (Step roomy) (xqcSendCtlCreate newServer) (oneMore 0) s ∧
    0 ∈ s.lists (.unacked (s.pkts 0).pns) := by
  have hrun : Run (Step roomy) (xqcSendCtlCreate newServer) (oneMore 0) _ :=
    ((Run.nil.snoc (.write _ _)).snoc (.append _ _ _ (by decide))).snoc (.send _ _ _ _ _ 0 (by decide))
  obtain ⟨-, hflying, -⟩ := packets_have_one_place roomy newServer (by simp [Conn.Fresh, newServer]) _ _ hrun
  exact ⟨_, hrun, (hflying 0 (by decide)).1⟩

/-! ## More bytes than a counter holds -/

/-- The packets below `n` are in flight, numbered in turn, and no packet waits. -/
structure Filled (n : Nat) (s : Ctl) : Prop where
  next : s.next = n
  send : s.lists .send = []
  free : s.lists .free = []
  unacked : s.lists (.unacked .appData) = List.range n
  numbers : s.packetNumber .appData = UInt64.ofNat n
  flying : ∀ p < n, (s.pkts p).inFlight = true ∧ (s.pkts p).pns = .appData ∧ (s.pkts p).usedSize = 1200 ∧
    (s.pkts p).pktNum = UInt64.ofNat p

lemma canSend_max (po : PacketOut) (s : Ctl) : xqcSendCtlCanSend 0xFFFFFFFF po s = true := by
  unfold xqcSendCtlCanSend
  simp only [gt_iff_lt, Bool.not_eq_true', decide_eq_false_iff_not, UInt32.not_lt]
  exact UInt32.le_iff_toNat_le.2 (by have := (s.bytesInFlight + po.usedSize).toNat_lt; simp; omega)

variable {n : Nat}

lemma Filled.write (h : Filled n s) :
    ∃ t, Step roomy s (.write .shortHeader) t ∧ t.next = n + 1 ∧ t.lists .send = [n] ∧ t.lists .free = [] ∧
      t.lists (.unacked .appData) = List.range n ∧ t.packetNumber = s.packetNumber ∧
      t.pkts = update s.pkts n { (default : PacketOut) with pktType := .shortHeader, usedSize := 25 } := by
  have hnot : (List.range n).erase n = List.range n := List.erase_of_not_mem (by simp)
  refine ⟨_, .write s .shortHeader, ?_⟩
  simp [xqcWriteNewPacket, xqcPacketOutGet, h.free, roomy, Ctl.move, Ctl.modify, Links.move, Links.del, h.send, h.next,
    h.unacked, hnot]

lemma send_stream (hsend : s.lists .send = [n]) (hfree : s.lists .free = [])
    (hnot : n ∉ s.lists (.unacked .appData)) (htype : (s.pkts n).pktType = .shortHeader)
    (hframes : (s.pkts n).frameTypes = {.stream}) (hland : (s.pkts n).inFlight = false) :
    ∃ t, Step roomy s (.send .send 0xFFFFFFFF 0 .all) t ∧ t.next = s.next ∧ t.lists .send = [] ∧ t.lists .free = [] ∧
      t.lists (.unacked .appData) = s.lists (.unacked .appData) ++ [n] ∧
      t.packetNumber .appData = s.packetNumber .appData + 1 ∧
      t.pkts = update s.pkts n
        (sentMark { s.pkts n with pktNum := s.packetNumber .appData, sentTime := 0, inFlight := true }) := by
  have hack : FrameTypes.isAckEliciting {.stream} := by decide
  have hpad : (s.pkts n).pad (!s.conn.server) = s.pkts n := by
    simp [PacketOut.pad, PacketOut.needPadding, PacketOut.pns, htype, PktType.pns, hframes]
  refine ⟨_, .send s .send 0xFFFFFFFF 0 .all n (by simp [Queue.place, hsend]), ?_⟩
  simp only [sendRound, canSend_max, Bool.true_eq_false, and_false, if_false, sendOne, reduceCtorEq, or_self,
    xqcSendPacketWithPn, if_true]
  generalize hu : xqcEncPacketWithPn roomy n s = u
  have hu1 : u.pkts = update s.pkts n { s.pkts n with pktNum := s.packetNumber .appData } := by
    simp [← hu, xqcEncPacketWithPn, Ctl.modify, convert, hpad, htype, PacketOut.pns, PktType.pns]
  have hu2 : u.lists = s.lists ∧ u.next = s.next ∧ u.packetNumber = s.packetNumber := by
    simp [← hu, xqcEncPacketWithPn, Ctl.modify]
  generalize hv : ({ u.modify n ({ · with sentTime := 0 }) with packetNumber := _ } : Ctl) = v
  have hv1 : v.pkts = update s.pkts n { s.pkts n with pktNum := s.packetNumber .appData, sentTime := 0 } := by
    simp [← hv, Ctl.modify, hu1]
  have hv2 : v.lists = s.lists ∧ v.next = s.next := by
    simpa [← hv, Ctl.modify] using ⟨hu2.1, hu2.2.1⟩
  have hv3 : v.packetNumber .appData = s.packetNumber .appData + 1 := by
    simp [← hv, Ctl.modify, hu1, hu2, PacketOut.pns, htype, PktType.pns]
  obtain ⟨h1, h2, h3, h4⟩ := onPacketSent_flying (s := v) (p := n) (by simp [hv1, hland]) (by simp [hv1, hframes, hack])
  have hframes' : ((xqcSendCtlOnPacketSent n v).pkts n).frameTypes = {.stream} := by
    rw [(onPacketSent_frame n v).1]
    simp [hv1, hframes]
  have hpns : ((xqcSendCtlOnPacketSent n v).pkts n).pns = .appData := by
    rw [(onPacketSent_frame n v).2]
    simp [hv1, PacketOut.pns, htype, PktType.pns]
  simp only [settle, hframes', if_pos hack, Ctl.move, h2, h3, h4, hv2, Links.move, hpns, hv3]
  refine ⟨trivial, by simp [Links.del, hsend], by simp [Links.del, hfree], ?_, trivial, ?_⟩
  · simp [Links.del, List.erase_of_not_mem hnot]
  · simp [h1, hv1]

lemma Filled.round (h : Filled n s) :
    ∃ t, Run (fun s e t => e.whole = true ∧ Step roomy s e t) s (oneMore n) t ∧ Filled (n + 1) t := by
  obtain ⟨t, hwrite, hnext, hsend, hfree, hun, hnumbers, hpkts⟩ := h.write
  have happend : Step roomy t (.append n filling) (t.modify n (PacketOut.addFrame filling)) :=
    .append t n filling (by simp [hsend])
  generalize hu : t.modify n (PacketOut.addFrame filling) = u at happend
  have hpkts' : u.pkts = update s.pkts n
      (PacketOut.addFrame filling { (default : PacketOut) with pktType := .shortHeader, usedSize := 25 }) := by
    simp [← hu, Ctl.modify, hpkts]
  have hlists : u.lists = t.lists ∧ u.next = t.next ∧ u.packetNumber = t.packetNumber := by
    simp [← hu, Ctl.modify]
  have hrange : u.lists (.unacked .appData) = List.range n := by rw [hlists.1, hun]
  have hcount : u.packetNumber .appData = UInt64.ofNat n := by rw [hlists.2.2, hnumbers, h.numbers]
  obtain ⟨v, hsent, hvnext, hvsend, hvfree, hvun, hvnum, hvpkts⟩ := send_stream (n := n) (s := u) (hlists.1 ▸ hsend)
    (hlists.1 ▸ hfree) (by simp [hrange]) (by rw [hpkts', update_self]; rfl)
    (by rw [hpkts', update_self]; rfl) (by rw [hpkts', update_self]; rfl)
  refine ⟨v, ((Run.nil.snoc ⟨rfl, hwrite⟩).snoc ⟨rfl, happend⟩).snoc ⟨rfl, hsent⟩,
    hvnext.trans (hlists.2.1.trans hnext), hvsend, hvfree, ?_, ?_, ?_⟩
  · rw [hvun, hrange, List.range_succ]
  · rw [hvnum, hcount, UInt64.ofNat_add]; rfl
  · intro p hp
    by_cases hpn : p = n
    · subst hpn; rw [hvpkts, update_self, hpkts', update_self, hcount]; exact ⟨rfl, rfl, rfl, rfl⟩
    · rw [hvpkts, update_of_ne hpn, hpkts', update_of_ne hpn]; exact h.flying p (by omega)

lemma filled_run (n : Nat) :
    ∃ es s, Run (fun s e t => e.whole = true ∧ Step roomy s e t) (xqcSendCtlCreate newServer) es s ∧ Filled n s := by
  induction n with
  | zero =>
    refine ⟨[], _, .nil, rfl, rfl, rfl, rfl, rfl, ?_⟩
    intro p hp
    omega
  | succ n ih =>
    obtain ⟨es, s, hrun, hs⟩ := ih
    obtain ⟨t, hround, ht⟩ := hs.round
    exact ⟨_, t, hrun.append hround, ht⟩

lemma Filled.tally (h : Filled n s) : tally s .appData = 1200 * n := by
  have hall : ∀ p ∈ range n, flightBytes .appData (s.pkts p) = 1200 := by
    intro p hp
    obtain ⟨hf, hn, hu, _⟩ := h.flying p (mem_range.1 hp)
    rw [flightBytes, if_pos ⟨hf, hn⟩, hu]; rfl
  rw [SendCtl.tally, h.next, sum_const_nat hall, card_range, Nat.mul_comm]

/-- 3579140 packets of 1200 bytes are more than a 32-bit counter holds. -/
theorem bytes_in_flight_wrap :
    newServer.Fresh ∧ ∃ es s, Run (Step roomy) (xqcSendCtlCreate newServer) es s ∧ ¬ Balanced s := by
  refine ⟨by simp [Conn.Fresh, newServer], ?_⟩
  obtain ⟨es, s, hrun, hs⟩ := filled_run 3579140
  refine ⟨es.map id, s, hrun.map id fun _ _ _ hst => hst.2, ?_⟩
  intro hb
  have hspace := hb.space .appData
  rw [hs.tally] at hspace
  have hlt := (s.bytesAckElicitingInflight .appData).toNat_lt
  omega

end RlccQuic.Transport.SendCtl
