/-
  RlccQuic.Transport.SendCtlInv — what the send control does keeps its packets sound and its ledger balanced.

  Proved, from any state that is so: removing a packet that was acknowledged, or whose origin was (`acked_inv`,
  `indirectly_inv`), an ACK frame (`onAckReceived_inv`), loss detection (`detectLost_inv`), a timeout with its probes
  (`timeout_inv`), dropping the 0-RTT packets, a stream's or a space's (`drop0rtt_inv`, `dropStream_inv`,
  `dropSpace_inv`), and a Retry (`onRecvRetry_inv`), where the copies lose their origins first and all old packets go.
-/

import RlccQuic.Transport.PacketInv
import RlccQuic.Transport.Sending

namespace RlccQuic.Transport.SendCtl

open Lib Finset Function

variable {B : Prop}

/-! ## Acknowledged packets -/

variable {s : Ctl} {p : Id}

/-- A copy that is not in flight is settled: its record does not matter any more, and
    its origin goes with it if it was the last one. -/
lemma Inv.dropCopy (h : Inv B s) {o : Id} (po : PacketOut) (a : Bool) (hp : s.Live p)
    (hf : (s.pkts p).inFlight = false) (ho : (s.pkts p).origin = some o) (hpo : po.inFlight = false) :
    Inv B { s with
      lists := s.lists.move .free p
      pkts := update (update s.pkts p po) o
        { s.pkts o with acked := a, originRefCnt := (s.pkts o).originRefCnt - 1 } } := by
  obtain ⟨k, hk, hm⟩ := hp
  have hlive : s.Live p := ⟨k, hk, hm⟩
  have hne := h.sound.origin_ne hlive ho
  obtain ⟨hmem, hcp⟩ := h.sound.origin hlive ho
  have hput := put_move h.ledger.single p .free
  have h1 : Inv B (s.move p .free) := by
    refine h.release (h.ledger.bound hm) hf ?_
    intro c hc _ hc'
    have := (h.sound.origin hc hc').2.root
    rw [ho] at this; cases this
  have hidle : ¬ (s.move p .free).Live p := by
    intro hl
    rcases hput.live.mp hl with ⟨_, hk⟩ | ⟨hne, _⟩
    · exact hk rfl
    · exact hne rfl
  have h2 := h1.updateIdle po hidle hpo
  have hoe : update (s.move p .free).pkts p po o = s.pkts o := update_of_ne hne _ _
  obtain ⟨S, hS, hin⟩ := h.sound.count_others hlive ho
  have h3 := h2.mark (p := o) (a := a) (m := (s.pkts o).originRefCnt - 1) (by simp only [hoe]; exact hcp.landed)
    (fun {j} hj hm' => ?_) ⟨S, by omega, ?_⟩
  · simp only [hoe] at h3; exact h3
  · rcases hput.2.mp hm' with ⟨_, hj'⟩ | ⟨_, hm'⟩
    · exact absurd hj' hj
    · exact ⟨_, h.place_unique hm' hmem⟩
  · intro c hc hco
    rcases hput.live.mp hc with ⟨_, hk⟩ | ⟨hcp', hc⟩
    · exact absurd rfl hk
    · refine hin c hc hcp' ?_
      simp only [update_of_ne hcp'] at hco; exact hco

lemma Inv.releaseRoot (h : Inv B s) (hbound : p < s.next) (hf : (s.pkts p).inFlight = false)
    (h0 : (s.pkts p).originRefCnt = 0) : Inv B (s.move p .free) := by
  refine h.release hbound hf ?_
  intro c hc _ ho
  obtain ⟨S, hS, hin⟩ := h.sound.count p
  rw [h0, Nat.le_zero, card_eq_zero] at hS; exact absurd (hin c hc ho) (by simp [hS])

lemma Inv.settleCopy (h : Inv B s) {o : Id} (po : PacketOut) (a : Bool) (hp : s.Live p)
    (hf : (s.pkts p).inFlight = false) (ho : (s.pkts p).origin = some o) (hpo : po.inFlight = false) {t : Ctl}
    (ht : t = { s with
      lists := s.lists.move .free p
      pkts := update (update s.pkts p po) o
        { s.pkts o with acked := a, originRefCnt := (s.pkts o).originRefCnt - 1 } }) :
    Inv B (if (t.pkts o).originRefCnt = 0 then t.move o .free else t) := by
  have hinv : Inv B t := by
    rw [ht]; exact h.dropCopy po a hp hf ho hpo
  have hto : t.pkts o = { s.pkts o with acked := a, originRefCnt := (s.pkts o).originRefCnt - 1 } := by
    rw [ht]; exact update_self _ _ _
  obtain ⟨hmem, hcp⟩ := h.sound.origin hp ho
  split
  · rename_i h0
    refine hinv.releaseRoot ?_ (by rw [hto]; exact hcp.landed) h0
    rw [ht]; exact h.ledger.bound hmem
  · exact hinv

/-- `xqc_send_ctl_maybe_remove_unacked`, of a packet that is not in flight. -/
lemma remove_inv (h : Inv B s) (hp : s.Live p) (hf : (s.pkts p).inFlight = false) :
    Inv B (xqcSendCtlMaybeRemoveUnacked p s) := by
  unfold xqcSendCtlMaybeRemoveUnacked
  dsimp only
  cases ho : (s.pkts p).origin with
  | none =>
    obtain ⟨k, _, hm⟩ := hp
    split
    · exact h
    · rename_i h0; exact h.releaseRoot (h.ledger.bound hm) hf (by simpa using h0)
  | some o =>
    refine h.settleCopy (s.pkts p) (s.pkts o).acked hp hf ho hf ?_
    rw [update_eq_self]; rfl

lemma noteHandshakeDone_inv (h : Inv B s) (p : Id) : Inv B (noteHandshakeDone p s) := by
  unfold noteHandshakeDone; split
  · exact h.congr rfl
  · exact h

lemma leaveFlight_inv (h : Inv B s) (p : Id) : Inv B (leaveFlight p s) := by
  unfold leaveFlight; split
  · rename_i hf
    have hd := h.decrease p
    have hpkts := h.ledger.decrease_pkts p
    have hland : ((xqcSendCtlDecreaseInflight p s).pkts p).inFlight = false := by rw [hpkts]; simp
    refine ⟨hd.ledger.updateLanded _ hland hland, hd.sound.update ?_ (fun _ => rfl) ?_ ?_ (hd.sound.count p)⟩
    · intro k hk hm
      have hfit := hd.sound.fits hk hm
      exact ⟨hfit.space, hfit.fresh, hfit.waiting, hfit.first, hfit.resend⟩
    · intro o hl ho
      have hc := (hd.sound.origin hl ho).2
      refine ⟨hc.root, hc.landed, hc.pns, ?_, hc.early⟩
      intro hn ht
      obtain ⟨h1, h2⟩ := hc.streams hn ht
      exact ⟨by simp only [h1]; decide, h2⟩
    · -- what is in flight has no copies
      intro c hl ho
      refine absurd ?_ (h.sound.not_copied_of_flying hf (c := c) (by simpa [Ctl.Live] using hl))
      rw [hpkts] at ho
      by_cases hcp : c = p
      · subst hcp; simpa using ho
      · simpa [update_of_ne hcp] using ho
  · exact h

/-- What `noteHandshakeDone` and `leaveFlight` leave as it is. -/
lemma leaveFlight_frame (h : Inv B s) (p : Id) :
    (leaveFlight p (noteHandshakeDone p s)).lists = s.lists ∧
      ((leaveFlight p (noteHandshakeDone p s)).pkts p).inFlight = false ∧
      ((leaveFlight p (noteHandshakeDone p s)).pkts p).origin = (s.pkts p).origin := by
  have hnote : (noteHandshakeDone p s).lists = s.lists ∧ (noteHandshakeDone p s).pkts = s.pkts := by
    unfold noteHandshakeDone
    split <;> exact ⟨rfl, rfl⟩
  have hpkts := (noteHandshakeDone_inv h p).ledger.decrease_pkts p
  unfold leaveFlight; split
  · refine ⟨by simpa [Ctl.modify] using hnote.1, ?_, ?_⟩
    · simp [Ctl.modify, hpkts]
    · simp [Ctl.modify, hpkts, hnote.2]
  · rename_i hf; exact ⟨hnote.1, by simpa using hf, by rw [hnote.2]⟩

variable {k : Place}

theorem acked_inv (h : Inv B s) (hk : k ≠ .free) (hp : p ∈ s.lists k)
    (hsent : (s.pkts p).origin = none → ∃ n, k = .unacked n) :
    Inv B (xqcSendCtlMaybeRemoveUnacked p (xqcSendCtlOnPacketAcked p s)) := by
  have ht := leaveFlight_inv (noteHandshakeDone_inv h p) p
  obtain ⟨hlists, hf, horigin⟩ := leaveFlight_frame h p
  unfold xqcSendCtlOnPacketAcked setAcked
  generalize leaveFlight p (noteHandshakeDone p s) = t at ht hlists hf horigin
  have hp' : p ∈ t.lists k := by rw [hlists]; exact hp
  have hlive : t.Live p := ⟨k, hk, hp'⟩
  rw [← horigin] at hsent
  cases ho : (t.pkts p).origin with
  | none =>
    obtain ⟨n, rfl⟩ := hsent ho
    refine remove_inv (ht.mark hf (fun _ hm => ⟨n, ht.place_unique hm hp'⟩) (ht.sound.count p)) hlive ?_
    simpa [Ctl.modify] using hf
  | some o =>
    have hne := ht.sound.origin_ne hlive ho
    unfold xqcSendCtlMaybeRemoveUnacked
    dsimp only
    have hpo : ((Ctl.modify o ({ · with acked := true }) (Ctl.modify p ({ · with acked := true }) t)).pkts p).origin =
        some o := by
      simp only [Ctl.modify, update_of_ne hne.symm, update_self, ho]
    rw [hpo, if_neg (by simp)]
    refine ht.settleCopy { t.pkts p with acked := true } true hlive hf ho hf ?_
    simp only [Ctl.modify, Ctl.move, update_self, update_of_ne hne, update_idem]
    rfl

/-- `xqc_send_ctl_indirectly_ack_po`, of a packet that was sent or is a copy. -/
theorem indirectly_inv (h : Inv B s) (hk : k ≠ .free) (hp : p ∈ s.lists k) :
    Inv B (xqcSendCtlIndirectlyAckPo p s).2 := by
  unfold xqcSendCtlIndirectlyAckPo
  dsimp only; split
  · rename_i hack
    split
    · rename_i hoa
      refine acked_inv h hk hp ?_
      intro ho; rw [ho] at hoa
      cases hoa
    · rename_i hoa
      have ha : (s.pkts p).acked = true := by simpa [hoa] using hack
      refine remove_inv h ⟨k, hk, hp⟩ ?_
      by_contra hf
      rw [(h.sound.fits hk hp).fresh (by simpa using hf)] at ha; cases ha
  · exact h

variable {s' : Ctl}

lemma indirectly_cases (p : Id) (s : Ctl) : (∃ s', xqcSendCtlIndirectlyAckPo p s = (true, s')) ∨
    xqcSendCtlIndirectlyAckPo p s = (false, s) ∧ (s.pkts p).acked = false := by
  unfold xqcSendCtlIndirectlyAckPo
  dsimp only; split
  · exact .inl ⟨_, rfl⟩
  · rename_i hno; exact .inr ⟨rfl, by simp at hno; exact hno.1⟩

/-! ## Loss detection -/

variable (w : World)

variable {n : Pns} {now la : UInt64}

lemma detectLostRound_inv (h : Inv B s) (hp : p ∈ s.lists (.unacked n)) :
    Inv B (detectLostRound w n now la p s).1 := by
  unfold detectLostRound; split
  · exact h
  · have hinv := indirectly_inv h (by simp) hp
    obtain ⟨s', hi⟩ | ⟨hi, ha⟩ := indirectly_cases p s
    · rw [hi] at hinv ⊢; exact hinv
    · rw [hi]
      dsimp only; split
      · split
        · rename_i hf
          have hd := h.decrease p
          have hpkts := h.ledger.decrease_pkts p
          have hland : ((xqcSendCtlDecreaseInflight p s).pkts p).inFlight = false := by rw [hpkts]; simp
          have hmem : p ∈ (xqcSendCtlDecreaseInflight p s).lists (.unacked n) := by simpa using hp
          split
          · exact hd.copyTo w hmem hland (by rw [hpkts]; simpa using ha) (.inl rfl)
          · -- what was in flight has no copies
            refine hd.release (hd.ledger.bound hmem) hland ?_
            intro c hc hne ho; rw [hpkts, update_of_ne hne] at ho
            exact h.sound.not_copied_of_flying hf (by simpa [Ctl.Live] using hc) ho
        · exact h
      · exact h.congr rfl

theorem detectLost_inv (h : Inv B s) : Inv B (xqcSendCtlDetectLost w n now s) := by
  have h0 : Inv B { s with lossTime := update s.lossTime n 0 } := h.congr rfl
  unfold xqcSendCtlDetectLost
  dsimp only; split
  · exact h0
  · exact walk_inv (fun p t ht hp => detectLostRound_inv w ht hp) h0

/-! ## ACK received -/

variable {rt : UInt64}

/-- `ctl_largest_acked`, and when that packet was sent. -/
def noteAcked (n : Pns) (p : Id) (s : Ctl) : Ctl :=
  if (s.largestAcked n).all fun la => (s.pkts p).pktNum ≥ la then
    { s with
      largestAcked := update s.largestAcked n (some (s.pkts p).pktNum)
      largestAckedSentTime := update s.largestAckedSentTime n (s.pkts p).sentTime }
  else s

lemma noteAcked_same (n : Pns) (p : Id) (s : Ctl) : (noteAcked n p s).pkts = s.pkts ∧ (noteAcked n p s).lists = s.lists := by
  unfold noteAcked
  split <;> exact ⟨rfl, rfl⟩

lemma noteAcked_inv (h : Inv B s) (n : Pns) (p : Id) : Inv B (noteAcked n p s) := by
  unfold noteAcked; split
  · exact h.congr rfl
  · exact h

lemma ackRound_ctl (n : Pns) (la rt : UInt64) (p : Id) (a : AckPass) : (ackRound n la rt p a).1.ctl = a.ctl ∨
    ∃ r, (ackRound n la rt p a).1.ctl =
      { xqcSendCtlMaybeRemoveUnacked p (xqcSendCtlOnPacketAcked p (noteAcked n p a.ctl)) with rtt := r } := by
  unfold ackRound
  dsimp only; split
  · exact .inl rfl
  · split
    · right
      by_cases hlast : (a.ctl.pkts p).pktNum = la ∧
          (xqcSendCtlMaybeRemoveUnacked p (xqcSendCtlOnPacketAcked p (noteAcked n p a.ctl))).largestAcked n =
            some (a.ctl.pkts p).pktNum
      · exact ⟨_, congrArg (fun x : AckPass × Bool => x.1.ctl) (if_pos hlast)⟩
      · exact ⟨_, congrArg (fun x : AckPass × Bool => x.1.ctl) (if_neg hlast)⟩
    · exact .inl rfl

lemma ackRound_inv {a : AckPass} (h : Inv B a.ctl)
    (hp : p ∈ a.ctl.lists (.unacked n)) : Inv B (ackRound n la rt p a).1.ctl := by
  rcases ackRound_ctl n la rt p a with heq | ⟨r, heq⟩
  · rw [heq]; exact h
  · have hr := acked_inv (noteAcked_inv h n p) (k := .unacked n) (by simp) (by rw [(noteAcked_same ..).2]; exact hp)
      (fun _ => ⟨n, rfl⟩)
    rw [heq]; exact hr.congr rfl

lemma finishAck_inv {ack : FrameParser.AckInfo} {clock : UInt64} {a : AckPass} (h : Inv B a.ctl) :
    Inv B (finishAck w ack la rt clock a) := by
  refine detectLost_inv w ?_
  split
  · split
    · exact h.congr rfl
    · exact h
  · split
    · exact h.congr rfl
    · exact h.congr rfl

theorem onAckReceived_inv {ack : FrameParser.AckInfo} {clock : UInt64} (h : Inv B s) :
    Inv B (xqcSendCtlOnAckReceived w ack rt clock s).2 := by
  unfold xqcSendCtlOnAckReceived
  dsimp only; split
  · exact h.congr rfl
  · refine finishAck_inv w ?_
    exact walk_inv (P := fun a : AckPass => Inv B a.ctl) (fun p a ha hp => ackRound_inv ha hp)
      (h.congr rfl)

/-! ## New packets -/

structure Blank (po : PacketOut) : Prop where
  landed : po.inFlight = false
  origin : po.origin = none
  acked : po.acked = false
  resend : po.resend = false

lemma Blank.fits {po : PacketOut} (h : Blank po) (retried : Bool) (hk : ∀ n, k ≠ .unacked n) : Fits retried k po :=
  ⟨fun n hn => absurd hn (hk n), fun _ => h.acked, fun _ => h.acked, fun _ => h.origin, fun _ => h.resend⟩

lemma writeNew_none {type : PktType} (hw : xqcWriteNewPacket w type s = (none, s')) :
    s' = { s with asked := s.asked + 1 } := by
  unfold xqcWriteNewPacket at hw
  rcases hg : xqcPacketOutGet w s with ⟨d, s1⟩
  rw [hg] at hw
  cases d with
  | none => cases hw; exact get_none hg
  | some d => cases hw

variable {d : Id}

lemma writeNew_some {type : PktType} (h : Ledger B s)
    (hw : xqcWriteNewPacket w type s = (some d, s')) :
    ∃ s1, Spare B s s1 d ∧ Blank (s1.pkts d) ∧ s' = s1.move d .send := by
  unfold xqcWriteNewPacket at hw
  rcases hg : xqcPacketOutGet w s with ⟨d1, s1⟩
  rw [hg] at hw
  cases d1 with
  | none => cases hw
  | some d1 =>
    cases hw
    obtain ⟨hspare, hzero⟩ := h.get hg
    have hup := hspare.update { s1.pkts d with pktType := type, usedSize := w.size s1.asked } (by rw [hzero]; rfl)
    refine ⟨_, ?_, ?_, rfl⟩
    · exact ⟨hup.ledger.congr rfl rfl rfl rfl rfl rfl, hup.idle, hup.bound, hup.others, hup.lists, hup.conn⟩
    · simp only [Ctl.modify, update_self, hzero]; exact ⟨rfl, rfl, rfl, rfl⟩

lemma writeNew_inv (type : PktType) (h : Inv B s) :
    Inv B (xqcWriteNewPacket w type s).2 ∧
      ∀ d ∈ (xqcWriteNewPacket w type s).1, d ∈ (xqcWriteNewPacket w type s).2.lists .send := by
  rcases hw : xqcWriteNewPacket w type s with ⟨d, s'⟩
  cases d with
  | none => rw [writeNew_none w hw]; exact ⟨h.congr rfl, by simp⟩
  | some d =>
    obtain ⟨s1, hspare, hblank, rfl⟩ := writeNew_some w h.ledger hw
    have hinv := hspare.sound h.sound
    refine ⟨hinv.adopt hspare.idle hspare.bound (hblank.fits _ (by simp)) hblank.origin, ?_⟩
    intro d' hd
    obtain rfl : d = d' := by simpa using hd
    exact hinv.ledger.mem_move.mpr (.inl ⟨rfl, rfl⟩)

lemma addFrame_inv (h : Inv B s) (hp : p ∈ s.lists .send) (f : PacketOut.NewFrame) :
    Inv B (s.modify p (PacketOut.addFrame f)) := by
  refine h.updateWaiting hp (by simp) (by simp) rfl rfl rfl rfl ?_
  intro o ho; rw [(h.sound.fits (by simp) hp).first (.inl rfl)] at ho
  cases ho

lemma genPing_inv (h : Inv B s) :
    Inv B (xqcConnGenPing w n s).2 ∧ ∀ d ∈ (xqcConnGenPing w n s).1, d ∈ (xqcConnGenPing w n s).2.lists .send := by
  unfold xqcConnGenPing
  have hw := writeNew_inv w (pingType n) h
  rcases hn : xqcWriteNewPacket w (pingType n) s with ⟨d, s'⟩
  rw [hn] at hw
  cases d with
  | none => exact ⟨hw.1, by simp⟩
  | some d =>
    have hm := hw.2 d (by simp)
    refine ⟨addFrame_inv hw.1 hm _, ?_⟩
    intro d' hd
    obtain rfl : d = d' := by simpa using hd
    exact hm

lemma pingOnPto_inv (h : Inv B s) : Inv B (xqcConnSendPingOnPto w n s) := by
  unfold xqcConnSendPingOnPto
  have hg := genPing_inv w (n := n) h
  rcases hn : xqcConnGenPing w n s with ⟨d, s'⟩
  rw [hn] at hg
  cases d with
  | none => exact hg.1
  | some d =>
    have hm := hg.2 d (by simp)
    have hfit := hg.1.sound.fits (by simp) hm
    refine hg.1.relocate (put_move hg.1.ledger.single d .probe) (by simp) hm (by simp) ?_
    exact ⟨by simp, hfit.fresh, fun _ => hfit.waiting (by simp), by simp, hfit.resend⟩

/-! ## PTO -/

lemma probeRound_inv {t : ProbePass} (h : Inv B t.ctl) (hp : p ∈ t.ctl.lists (.unacked n)) :
    Inv B (probeRound w p t).1.ctl := by
  unfold probeRound
  have hinv := indirectly_inv h (by simp) hp
  obtain ⟨s', hi⟩ | ⟨hi, ha⟩ := indirectly_cases p t.ctl
  · rw [hi] at hinv ⊢; exact hinv
  · rw [hi]
    dsimp only; split
    · split
      · exact h
      · have ht : Inv B (t.ctl.modify p ({ · with tlp := true })) := h.touch rfl
        have hd := ht.decrease p
        have hpkts := ht.ledger.decrease_pkts p
        have hc : Inv B (xqcSendCtlCopyToPtoProbeList w p
            (xqcSendCtlDecreaseInflight p (t.ctl.modify p ({ · with tlp := true })))) := by
          refine hd.copyTo w (n := n) ?_ ?_ ?_ (.inr rfl)
          · simpa [Ctl.modify] using hp
          · rw [hpkts]; simp
          · rw [hpkts]; simpa [Ctl.modify] using ha
        split
        · exact hc
        · split <;> exact hc
    · exact h

lemma probeLoop_inv : ∀ (fuel : Nat) {t : ProbePass}, Inv B t.ctl → Inv B (probeLoop w n fuel t).ctl := by
  intro fuel
  induction fuel with
  | zero => intro t h; exact h
  | succ fuel ih =>
    intro t h; unfold probeLoop
    split
    · exact h
    · have hw : Inv B (walk (·.ctl.lists (.unacked n)) (probeRound w) t).ctl :=
        walk_inv (P := fun t : ProbePass => Inv B t.ctl) (fun p t ht hp => probeRound_inv w ht hp) h
      dsimp only; split
      · split
        · exact ih hw
        · exact hw
      · exact ih hw

lemma pings_inv : ∀ (k : Nat) {s : Ctl}, Inv B s → Inv B (pings w n k s) := by
  intro k
  induction k with
  | zero => intro s h; exact h
  | succ k ih => intro s h; exact ih (pingOnPto_inv w h)

theorem timeout_inv {fuel : Nat} {pto : Pns} {idle : Option Pns} (h : Inv B s) :
    Inv B (xqcSendCtlLossDetectionTimeout w fuel now pto idle s) := by
  unfold xqcSendCtlLossDetectionTimeout; split
  · exact detectLost_inv w h
  · split
    · exact pings_inv w _ (probeLoop_inv w fuel h)
    · split
      · exact h
      · exact (genPing_inv w h).1

/-! ## Dropping packets -/

/-- Packets of kind `K` are dropped, their copies with them, from every list copies are in. -/
lemma drop_inv {K : Id → Prop} (h : Inv B s) (hl : Ledger B s') (hd : Diverted K .free s s')
    (hcopies : ∀ {c o}, s.Live c → (s.pkts c).origin = some o → K o → K c)
    (hgone : ∀ {k c}, k = .lost ∨ k = .probe ∨ k = .unacked (s.pkts c).pns → c ∈ s'.lists k → ¬ K c) : Inv B s' := by
  refine h.shrink hl hd ?_
  intro c o hc ho hK
  have hKc := hcopies (hd.live hc) ho hK
  obtain ⟨k, hk, hm⟩ := hc
  have hfit := h.sound.fits hk (hd.less hk hm)
  match k, hk, hm, hfit with
  | .free, hk, _, _ => exact hk rfl
  | .lost, _, hm, _ => exact hgone (.inl rfl) hm hKc
  | .probe, _, hm, _ => exact hgone (.inr (.inl rfl)) hm hKc
  | .unacked n, _, hm, hfit => exact hgone (.inr (.inr (by rw [hfit.space n rfl]))) hm hKc
  | .send, _, _, hfit => exact absurd (hfit.first (.inl rfl)) (by simp [ho])
  | .highPri, _, _, hfit => exact absurd (hfit.first (.inr (.inl rfl))) (by simp [ho])
  | .buff, _, _, hfit => exact absurd (hfit.first (.inr (.inr rfl))) (by simp [ho])

/-- The loops of `xqc_send_ctl_drop_0rtt_packets` and `xqc_send_ctl_drop_stream_frame_packets`. -/
lemma dropApp_inv {kind : PacketOut → Bool} (hkind : Steady kind) (h : Inv B s)
    (hcopy : ∀ {c o}, Copy s.conn.canSend1rtt c o → o.pns = .appData → kind o = true → kind c = true) :
    Inv B (dropQueued .probe kind (dropQueued .lost kind (dropQueued .send kind (dropUnacked .appData kind s)))) := by
  -- packets of other spaces are dropped only where they wait
  let K : Id → Prop := fun p => kind (s.pkts p) = true ∧ ∀ n, p ∈ s.lists (.unacked n) → n = .appData
  have hqueued : ∀ {k}, (∀ n, k ≠ .unacked n) → ∀ p ∈ s.lists k, kind (s.pkts p) = true ↔ K p :=
    fun hk p hp => ⟨fun hkp => ⟨hkp, fun n hn => absurd (h.place_unique hp hn) (hk n)⟩, And.left⟩
  obtain ⟨l1, d1, e1, -⟩ := dropUnacked_spec hkind h.ledger (.refl K .free s) (n := .appData)
    (fun p hp => ⟨fun hkp => ⟨hkp, fun n hn => by simpa using h.place_unique hn hp⟩, And.left⟩)
  obtain ⟨l2, d2, -, f2⟩ := dropQueued_spec hkind l1 d1 (k := .send) (by simp) (by simp) (hqueued (by simp))
  obtain ⟨l3, d3, e3, f3⟩ := dropQueued_spec hkind l2 d2 (k := .lost) (by simp) (by simp) (hqueued (by simp))
  obtain ⟨l4, d4, e4, f4⟩ := dropQueued_spec hkind l3 d3 (k := .probe) (by simp) (by simp) (hqueued (by simp))
  refine drop_inv h l4 d4 ?_ ?_
  · rintro c o hc ho ⟨hko, hon⟩
    obtain ⟨hmem, hcp⟩ := h.sound.origin hc ho
    have hpns := hon _ hmem
    refine ⟨hcopy hcp hpns hko, ?_⟩
    intro n hn; rw [← (h.sound.fits (by simp) hn).space n rfl, hcp.pns, hpns]
  · rintro k c (rfl | rfl | rfl) hm hK
    · exact e3 c (f4 (by simp) hm) hK
    · exact e4 c hm hK
    · have hn := hK.2 _ (d4.less (by simp) hm)
      rw [hn] at hm; exact e1 c (f2 (by simp) (f3 (by simp) (f4 (by simp) hm))) hK

theorem drop0rtt_inv (h : Inv B s) (h1 : s.conn.canSend1rtt = false) : Inv B (xqcSendCtlDrop0rttPackets s) := by
  refine dropApp_inv (fun _ _ => rfl) h ?_
  intro c o hcp _ hko; rw [h1] at hcp
  simpa [PacketOut.hasType] using hcp.early (by simpa [PacketOut.hasType] using hko)

theorem dropStream_inv (h : Inv B s) (stream : Nat) : Inv B (xqcSendCtlDropStreamFramePackets stream s) := by
  refine dropApp_inv (fun _ _ => rfl) h ?_
  intro c o hcp hpns hko
  have ht : o.frameTypes = {.stream} := by
    simp only [PacketOut.streamFrameCanDrop, Bool.and_eq_true, decide_eq_true_eq] at hko
    exact hko.1.1
  obtain ⟨h1, h2⟩ := hcp.streams hpns ht
  rw [← hko]
  simp only [PacketOut.streamFrameCanDrop, h1, h2, ht]

lemma dropType_inv (type : PktType) (htype : ∀ t : PktType, t.pns = type.pns → t = type) (h : Inv B s) :
    Inv B (xqcSendCtlDropPacketsWithType type s) ∧ (xqcSendCtlDropPacketsWithType type s).conn = s.conn := by
  let K : Id → Prop := fun p => PacketOut.hasType type (s.pkts p) = true
  have hK : ∀ {p}, K p ↔ (s.pkts p).pns = type.pns := by
    intro p
    simp only [K, PacketOut.hasType, PacketOut.pns, beq_iff_eq]
    exact ⟨fun ht => by rw [ht], htype _⟩
  have hall : Steady fun _ => true := fun _ _ => rfl
  obtain ⟨l1, d1, e1, -⟩ := dropUnacked_spec hall h.ledger (.refl K .free s) (n := type.pns)
    (fun p hp => ⟨fun _ => hK.mpr ((h.sound.fits (by simp) hp).space _ rfl), fun _ => rfl⟩)
  have hkind : Steady (PacketOut.hasType type) := fun _ _ => rfl
  obtain ⟨l2, d2, -, f2⟩ := dropQueued_spec hkind l1 d1 (k := .highPri) (by simp) (by simp) (fun _ _ => Iff.rfl)
  obtain ⟨l3, d3, -, f3⟩ := dropQueued_spec hkind l2 d2 (k := .send) (by simp) (by simp) (fun _ _ => Iff.rfl)
  obtain ⟨l4, d4, e4, f4⟩ := dropQueued_spec hkind l3 d3 (k := .lost) (by simp) (by simp) (fun _ _ => Iff.rfl)
  obtain ⟨l5, d5, e5, f5⟩ := dropQueued_spec hkind l4 d4 (k := .probe) (by simp) (by simp) (fun _ _ => Iff.rfl)
  refine ⟨drop_inv h l5 d5 ?_ ?_, d5.conn⟩
  · intro c o hc ho hko; exact hK.mpr ((h.sound.origin hc ho).2.pns.trans (hK.mp hko))
  · rintro k c (rfl | rfl | rfl) hm hKc
    · exact e4 c (f5 (by simp) hm) hKc
    · exact e5 c hm hKc
    · rw [hK.mp hKc] at hm
      exact e1 c (f2 (by simp) (f3 (by simp) (f4 (by simp) (f5 (by simp) hm)))) hKc

theorem dropSpace_inv (h : Inv B s) (n : Pns) :
    Inv B (xqcSendCtlDropPktsWithPn n s) ∧ (xqcSendCtlDropPktsWithPn n s).conn = s.conn := by
  cases n with
  | init =>
    obtain ⟨hi, hc⟩ := dropType_inv .init (by intro t; cases t <;> simp [PktType.pns]) h
    exact ⟨hi.congr rfl, hc⟩
  | hsk =>
    obtain ⟨hi, hc⟩ := dropType_inv .hsk (by intro t; cases t <;> simp [PktType.pns]) h
    exact ⟨hi.congr rfl, hc⟩
  | appData => exact ⟨h.congr rfl, rfl⟩

/-! ## Retry -/

/-- While packets are sent again after a Retry: a packet in use is an old one that
    waits in the send list, or one that is no copy and was not acknowledged. -/
structure Resending (B : Prop) (s : Ctl) : Prop where
  ledger : Ledger B s
  retried : s.conn.retryRecvd = true
  client : s.conn.server = false → s.conn.canSend1rtt = true → s.conn.handshakeCompleted = true
  clean : ∀ {k p}, k ≠ .free → p ∈ s.lists k → (k = .send ∧ (s.pkts p).resend = false) ∨
    ((k = .send ∨ k = .highPri ∨ k = .buff) ∧ (s.pkts p).origin = none ∧ (s.pkts p).acked = false)

lemma reset_resending (h : Inv B s) (hr : s.conn.retryRecvd = false) :
    Resending B (xqcSendCtlReset { s with conn := { s.conn with retryRecvd := true } }) := by
  have h0 : Ledger B { s with conn := { s.conn with retryRecvd := true } } := h.ledger.congr rfl rfl rfl rfl rfl rfl
  obtain ⟨hl, hd, hempty⟩ := reset_spec h0
  generalize xqcSendCtlReset { s with conn := { s.conn with retryRecvd := true } } = t at hl hd hempty
  refine ⟨hl, by rw [hd.conn], by rw [hd.conn]; exact h.sound.client, ?_⟩
  intro k p hk hp
  obtain ⟨j, hj, hm⟩ : s.Live p := hd.live ⟨k, hk, hp⟩
  by_cases hks : k = .send
  · refine .inl ⟨hks, ?_⟩
    rw [hd.same p]; exact (h.sound.fits hj hm).resend hr
  · by_cases hkb : k = .buff
    · have hfit := h.sound.fits hk (hd.less hks hp)
      rw [hd.same p]
      exact .inr ⟨.inr (.inr hkb), hfit.first (.inr (.inr hkb)), hfit.waiting (by simp [hkb])⟩
    · exact absurd hp (hempty k hks hkb hk p)

lemma Resending.drop (h : Resending B s) (hp : p ∈ s.lists .send) : Resending B (s.move p .free) := by
  have hland := h.ledger.landed_of_mem hp (by simp)
  refine ⟨h.ledger.move .free hp hland, h.retried, h.client, ?_⟩
  intro k q hk hq
  rcases h.ledger.mem_move.mp hq with ⟨_, hk'⟩ | ⟨_, hq⟩
  · exact absurd hk' hk
  · exact h.clean hk hq

/-- A packet that is not in use is taken into use, neither as a copy nor acknowledged. -/
lemma Resending.adopt {t : Ctl} (h : Resending B s) (ht : Spare B s t d) (ho : (t.pkts d).origin = none)
    (ha : (t.pkts d).acked = false) : Resending B (t.move d .send) := by
  have hland := ht.ledger.landed_of_idle ht.idle
  have hconn : (t.move d .send).conn = s.conn := ht.conn
  refine ⟨ht.ledger.put (put_move ht.ledger.single d .send) ht.bound (by simp [hland]), by rw [hconn]; exact h.retried,
    by rw [hconn]; exact h.client, ?_⟩
  intro j q hj hq
  rcases ht.ledger.mem_move.mp hq with ⟨rfl, rfl⟩ | ⟨hne, hq⟩
  · exact .inr ⟨.inl rfl, ho, ha⟩
  · have hc := h.clean hj ((ht.lists hj).mp hq)
    rwa [← ht.others hne] at hc

lemma Resending.raise (h : Resending B s) (hd : d ∈ s.lists .send) (ho : (s.pkts d).origin = none)
    (ha : (s.pkts d).acked = false) : Resending B (s.move d .highPri) := by
  have hland := h.ledger.landed_of_mem hd (by simp)
  refine ⟨h.ledger.move .highPri hd hland, h.retried, h.client, ?_⟩
  intro j q hj hq
  rcases h.ledger.mem_move.mp hq with ⟨rfl, rfl⟩ | ⟨_, hq⟩
  · exact .inr ⟨.inr (.inl rfl), ho, ha⟩
  · exact h.clean hj hq

/-- `xqc_conn_reassemble_packet`: a new packet, marked, and the old ones as they were. -/
lemma reassemble_spec (h : Resending B s)
    (hr : xqcConnReassemblePacket w p s = some s') :
    Resending B s' ∧ (∀ q ∈ s.lists .send, q ∈ s'.lists .send) ∧
      ∀ q ∈ s'.lists .send, (s'.pkts q).resend = false → q ∈ s.lists .send ∧ (s.pkts q).resend = false := by
  unfold xqcConnReassemblePacket at hr
  dsimp only at hr
  rcases hw : xqcWriteNewPacket w (s.pkts p).pktType s with ⟨d, s1⟩
  rw [hw] at hr
  cases d with
  | none => cases hr
  | some d =>
    obtain ⟨t, ht, hblank, rfl⟩ := writeNew_some w h.ledger hw
    have hup := ht.update { t.pkts d with
      usedSize := w.size t.asked, frameTypes := (s.pkts p).frameTypes, streamFrames := (s.pkts p).streamFrames,
      resend := true } hblank.landed
    generalize hu : ({ t with
      asked := t.asked + 1
      pkts := update t.pkts d { t.pkts d with
        usedSize := w.size t.asked, frameTypes := (s.pkts p).frameTypes, streamFrames := (s.pkts p).streamFrames,
        resend := true } } : Ctl) = u
    have hspare : Spare B s u d := by
      rw [← hu]
      exact ⟨hup.ledger.congr rfl rfl rfl rfl rfl rfl, hup.idle, hup.bound, hup.others, hup.lists, hup.conn⟩
    have hrec : (u.pkts d).origin = none ∧ (u.pkts d).acked = false ∧ (u.pkts d).resend = true := by
      rw [← hu]
      simp only [update_self]; exact ⟨hblank.origin, hblank.acked, trivial⟩
    have hr' : (if FrameKind.crypto ∈ (s.pkts p).frameTypes then (u.move d .send).move d .highPri else u.move d .send) =
        s' := by
      rw [← hu]; exact Option.some.inj hr
    have hsend := h.adopt hspare hrec.1 hrec.2.1
    have hmem : d ∈ (u.move d .send).lists .send := hspare.ledger.mem_move.mpr (.inl ⟨rfl, rfl⟩)
    have hold : ∀ q ∈ (u.move d .send).lists .send, (u.pkts q).resend = false →
        q ∈ s.lists .send ∧ (s.pkts q).resend = false := by
      intro q hq hqr
      rcases hspare.ledger.mem_move.mp hq with ⟨rfl, _⟩ | ⟨hne, hq⟩
      · rw [hrec.2.2] at hqr; cases hqr
      · rw [hspare.others hne] at hqr; exact ⟨(hspare.lists (by simp)).mp hq, hqr⟩
    have hstay : ∀ q ∈ s.lists .send, q ≠ d ∧ q ∈ (u.move d .send).lists .send := by
      intro q hq
      have hne := hspare.ne ⟨_, by simp, hq⟩
      exact ⟨hne, hspare.ledger.mem_move.mpr (.inr ⟨hne, (hspare.lists (by simp)).mpr hq⟩)⟩
    rw [← hr']; split
    · refine ⟨hsend.raise hmem hrec.1 hrec.2.1, ?_, ?_⟩
      · intro q hq; exact hsend.ledger.mem_move.mpr (.inr (hstay q hq))
      · intro q hq
        rcases hsend.ledger.mem_move.mp hq with ⟨_, hk⟩ | ⟨_, hq⟩
        · cases hk
        · exact hold q hq
    · exact ⟨hsend, fun q hq => (hstay q hq).2, hold⟩

/-- One round of the loop: the old packet of the round is gone, or the loop is left. -/
lemma resendRound_spec {t : Ctl × Bool} (h : Resending B t.1) (hp : p ∈ t.1.lists .send) :
    Resending B (resendRound w p t).1.1 ∧ ((resendRound w p t).2 = false → (resendRound w p t).1.2 = true) ∧
      ∀ q ∈ (resendRound w p t).1.1.lists .send,
        (resendRound w p t).1.2 = false ∧ ((resendRound w p t).1.1.pkts q).resend = false →
        q ≠ p ∧ q ∈ t.1.lists .send ∧ t.2 = false ∧ (t.1.pkts q).resend = false := by
  obtain ⟨s, failed⟩ := t
  have hoff : ∀ {u : Ctl}, Resending B u → p ∈ u.lists .send → Resending B (u.move p .free) ∧
      ∀ q ∈ (u.move p .free).lists .send, q ≠ p ∧ q ∈ u.lists .send := by
    intro u hu hpu
    refine ⟨hu.drop hpu, ?_⟩
    intro q hq
    rcases hu.ledger.mem_move.mp hq with ⟨_, hk⟩ | hq
    · cases hk
    · exact hq
  unfold resendRound
  dsimp only
  by_cases hagain : (s.pkts p).resend = true
  · rw [if_pos hagain]
    refine ⟨h, by simp, ?_⟩
    rintro q hq ⟨hfail, hqr⟩
    refine ⟨?_, hq, hfail, hqr⟩
    rintro rfl
    simp [hagain] at hqr
  · rw [if_neg hagain]; split
    · cases hr : xqcConnReassemblePacket w p s with
      | none => exact ⟨h, by simp, by simp⟩
      | some s' =>
        obtain ⟨hs', hstay, hold⟩ := reassemble_spec w h hr
        obtain ⟨h1, h2⟩ := hoff hs' (hstay p hp)
        refine ⟨h1, by simp, ?_⟩
        rintro q hq ⟨hfail, hqr⟩
        obtain ⟨hne, hq'⟩ := h2 q hq
        exact ⟨hne, (hold q hq' hqr).1, hfail, (hold q hq' hqr).2⟩
    · obtain ⟨h1, h2⟩ := hoff h hp
      refine ⟨h1, by simp, ?_⟩
      rintro q hq ⟨hfail, hqr⟩
      exact ⟨(h2 q hq).1, (h2 q hq).2, hfail, hqr⟩

lemma Resending.inv (h : Resending B s) (hdone : ∀ p ∈ s.lists .send, ¬ (s.pkts p).resend = false) : Inv B s := by
  have hclean : ∀ {k p}, k ≠ .free → p ∈ s.lists k →
      (k = .send ∨ k = .highPri ∨ k = .buff) ∧ (s.pkts p).origin = none ∧ (s.pkts p).acked = false := by
    intro k p hk hp
    rcases h.clean hk hp with ⟨rfl, hr⟩ | hc
    · exact absurd hr (hdone p hp)
    · exact hc
  have hnone : ∀ {p}, s.Live p → (s.pkts p).origin = none := by
    rintro p ⟨k, hk, hp⟩
    exact (hclean hk hp).2.1
  refine ⟨h.ledger, ?_, ?_, ?_, h.client⟩
  · intro k p hk hp
    obtain ⟨hplace, ho, ha⟩ := hclean hk hp
    refine ⟨?_, fun _ => ha, fun _ => ha, fun _ => ho, fun hr => absurd h.retried (by simp [hr])⟩
    intro n hn
    rcases hplace with rfl | rfl | rfl <;> cases hn
  · intro c o hc ho; rw [hnone hc] at ho; cases ho
  · intro o
    refine ⟨∅, by simp, ?_⟩
    intro c hc ho; rw [hnone hc] at ho
    cases ho

lemma destroy_inv (ht : B → s.tooSmall = false)
    (hc : s.conn.server = false → s.conn.canSend1rtt = true → s.conn.handshakeCompleted = true) :
    Inv B (xqcSendCtlDestroyPacketsLists s) := by
  have hidle : ∀ {p}, ¬ (xqcSendCtlDestroyPacketsLists s).Live p := by
    rintro p ⟨k, _, hm⟩
    cases hm
  have hempty : Balanced (xqcSendCtlDestroyPacketsLists s) := by
    refine ⟨rfl, fun n => ?_⟩
    exact (sum_eq_zero fun p _ => flightBytes_landed rfl n).symm
  refine ⟨⟨Links.single_empty, fun hm => absurd hm List.not_mem_nil,
      fun hf => absurd (show false = true from hf) (by decide), fun _ => hempty, ht⟩,
    fun _ hm => absurd hm List.not_mem_nil, fun hl => absurd hl hidle, fun o => ⟨∅, by simp, fun c hl => absurd hl hidle⟩, hc⟩

theorem onRecvRetry_inv (h : Inv B s) (hr : s.conn.retryRecvd = false) : Inv B (xqcConnOnRecvRetry w s) := by
  have h0 := reset_resending h hr
  unfold xqcConnOnRecvRetry xqcConnResendPackets
  dsimp only
  generalize xqcSendCtlReset { s with conn := { s.conn with retryRecvd := true } } = t at h0
  have hall := walk_inv (P := fun u : Ctl × Bool => Resending B u.1)
    (fun p u hu hp => (resendRound_spec w (p := p) hu hp).1) (s := (t, false)) h0
  have hnone := walk_none (P := fun u : Ctl × Bool => Resending B u.1)
    (D := fun u p => u.2 = false ∧ (u.1.pkts p).resend = false) (fun p u hu hp => (resendRound_spec w hu hp).1)
    (fun p u hu hp hgo q hD => absurd hD.1 (by simp [(resendRound_spec w hu hp).2.1 hgo]))
    (fun p u hu hp q hq hD => (resendRound_spec w hu hp).2.2 q hq hD) (s := (t, false)) h0
  generalize walk (fun u : Ctl × Bool => u.1.lists .send) (resendRound w) (t, false) = r at hall hnone
  obtain ⟨u, failed⟩ := r
  cases failed with
  | false => exact hall.inv fun p hp hpr => hnone p hp ⟨rfl, hpr⟩
  | true => exact destroy_inv hall.ledger.calm hall.client

end RlccQuic.Transport.SendCtl
